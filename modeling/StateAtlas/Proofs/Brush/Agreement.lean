import StateAtlas.Proofs.Brush.Coalescing
import StateAtlas.Proofs.Brush.Dimensions
/-!
When the selection and the predicate on nodes agree.

The selection asks the rows of the last projection, which show what the detail selection enables.
The predicate asks the node itself: it reads the attribute that a key names, whether shown or not,
or under a bare name the first attribute of that name.  Both ask every constraint.

As long as every constraint means a dimension, the two agree.  A constraint that means none, because
its attribute is hidden or its name is that of several attributes or of none, is met by no row, but
may be met by a node.

Main statement: `mem_selected_iff_matches`.
-/

namespace StateAtlas

namespace Brush

variable {b b₀ : Brush Float} {s : Store} {mode : DisplayMode} {details : DetailSelection}
  {schema : Schema} {n : Node}

/-- No attribute of a node is named like a key. -/
def Unshadowed (n : Node) (key : String) : Prop :=
  ∀ attrs ∈ n.attributes.values, attrs.contains key = false

instance (n : Node) (key : String) : Decidable (Unshadowed n key) :=
  inferInstanceAs (Decidable (∀ attrs ∈ n.attributes.values, attrs.contains key = false))

/-- A key names its attribute. -/
theorem valueOf?_dimensionKey {category name : String} (hcategory : '/' ∉ category.toList)
    (hbare : Unshadowed n (dimensionKey category name)) :
    valueOf? n (dimensionKey category name) = n.attributes.find? category name := by
  have hnone : (n.attributes.values.findSome? fun attrs =>
      attrs.get? (dimensionKey category name)) = none := by
    refine List.findSome?_eq_none_iff.2 fun attrs hattrs => ?_
    exact Option.isNone_iff_eq_none.1 (by simpa [Dictionary.contains] using hbare attrs hattrs)
  rw [valueOf?, toList_dimensionKey, span_at_first hcategory, hnone]
  simp only [String.ofList_toList]
  cases n.attributes.find? category name <;> rfl

/-- What a brush keeps from its last projection on. -/
structure ProjectionOf (s : Store) (mode : DisplayMode) (details : DetailSelection)
    (b : Brush Float) : Prop where
  rows_eq : b.rows = s.rows mode details
  dimensions_eq : ∃ b₀ : Brush Float, ∃ schema,
    b.dimensions = (b₀.projectStore s mode details schema).dimensions
  qualified : b.Qualified
  current : b.Current

theorem projectionOf_projectStore (b : Brush Float) (s : Store) (mode : DisplayMode)
    (details : DetailSelection) (schema : Schema) :
    ProjectionOf s mode details (b.projectStore s mode details schema) where
  rows_eq := b.rows_projectStore s mode details schema
  dimensions_eq := ⟨b, schema, rfl⟩
  qualified := b.qualified_projectStore s mode details schema
  current := current_recompute _

theorem ProjectionOf.execute (h : ProjectionOf s mode details b) {c : BrushCommand}
    (hc : c.isProjection = false) : ProjectionOf s mode details (b.execute c).1 where
  rows_eq := (b.sameRows_execute hc).rows_eq.trans h.rows_eq
  dimensions_eq := by
    obtain ⟨b₀, schema, heq⟩ := h.dimensions_eq
    exact ⟨b₀, schema, (b.sameRows_execute hc).dimensions_eq.trans heq⟩
  qualified := h.qualified.execute c
  current := h.current.execute c

theorem ProjectionOf.run (h : ProjectionOf s mode details b) {commands : List BrushCommand}
    (hcommands : ∀ c ∈ commands, c.isProjection = false) :
    ProjectionOf s mode details (b.run commands) := by
  induction commands generalizing b with
  | nil => exact h
  | cons c commands ih =>
    exact ih (h.execute (hcommands c List.mem_cons_self)) fun c' hc' =>
      hcommands c' (List.mem_cons_of_mem _ hc')

namespace ProjectionOf

variable (h : ProjectionOf s mode details b) (hn : n ∈ s.nodes)
  (hadmits : mode.admits n.kind = true)

include h hn hadmits

/-- A node is selected just when its row is admitted. -/
theorem mem_selected_iff (hidle : b.debounce.pending = false) :
    n.id ∈ b.selected ↔ b.admitsRow (Row.ofProfile (n.profile details)) = true := by
  have hrow : Row.ofProfile (n.profile details) ∈ b.rows := by
    rw [h.rows_eq]
    exact List.mem_map_of_mem (List.mem_filter.2 ⟨hn, hadmits⟩)
  rw [h.current hidle, admitted_eq, List.mem_map]
  constructor
  · rintro ⟨r, hr, hid⟩
    obtain ⟨hmem, hadmitted⟩ := List.mem_filter.1 hr
    have hnodup : (b.rows.map Row.id).Nodup := h.rows_eq ▸ s.nodup_rows mode details
    exact List.inj_on_of_nodup_map hnodup hmem hrow hid ▸ hadmitted
  · exact fun hadmitted => ⟨_, List.mem_filter.2 ⟨hrow, hadmitted⟩, rfl⟩

/-- A row that every constraint admits leaves no constraint without a dimension. -/
theorem mismatches_eq_nil (hadmitted : b.admitsRow (Row.ofProfile (n.profile details)) = true) :
    b.mismatches = [] := by
  obtain ⟨b₀, schema, hdimensions⟩ := h.dimensions_eq
  refine List.filter_eq_nil_iff.2 fun key hkey => ?_
  obtain ⟨e, he, rfl⟩ := List.mem_map.1 hkey
  obtain ⟨v, hv, -⟩ := admitsRow_iff.1 hadmitted e.1 e.2 he
  obtain ⟨d, hd, hkey⟩ := exists_dimension_of_get?_row hn hadmits hv
  obtain ⟨d', hd', -⟩ := dimension?_key (hdimensions ▸ hd : d ∈ b.dimensions)
  simp [← hkey, hd']

/-- **Under the key of a dimension, a row holds what its node shows.** -/
theorem get?_row_eq_valueOf? {d : Dimension Float} (hd : d ∈ b.dimensions)
    (hseparable : ∀ m ∈ s.nodes, mode.admits m.kind = true → m.SeparableAt d.key)
    (hbare : Unshadowed n d.key) :
    (Row.ofProfile (n.profile details)).values.get? d.key =
      (valueOf? n d.key).bind Reading.ofValue? := by
  obtain ⟨b₀, schema, hdimensions⟩ := h.dimensions_eq
  obtain ⟨henabled, m, hm, hadmits', v, hv⟩ := enabled_of_mem_dimensions (hdimensions ▸ hd)
  have hcategory : '/' ∉ d.category.toList := (hseparable m hm hadmits').of_find? hv
  have hown : n.SeparableAt d.key := hseparable n hn hadmits
  rw [Dimension.key] at hown hbare ⊢
  rw [valueOf?_dimensionKey hcategory hbare]
  ext r
  rw [(hown.keyApart details).get?_row_eq_some_iff]
  constructor
  · rintro ⟨category, name, hkey, hr⟩
    obtain ⟨-, hshown⟩ := Node.mem_readings_iff.1 hr
    obtain ⟨w, hw, -⟩ := Option.bind_eq_some_iff.1 hshown
    obtain ⟨rfl, rfl⟩ := dimensionKey_inj hcategory ((hkey ▸ hown).of_find? hw) hkey
    exact hshown
  · exact fun hshown => ⟨d.category, d.name, rfl, Node.mem_readings_iff.2 ⟨henabled, hshown⟩⟩

/-- If every constraint means a dimension, a row is admitted just when its node is. -/
theorem admitsRow_eq_matchesNode (hmismatches : b.mismatches = [])
    (hseparable : ∀ key ∈ b.state.constraints.keys, ∀ m ∈ s.nodes, mode.admits m.kind = true →
      m.SeparableAt key)
    (hbare : ∀ d ∈ b.dimensions, d.key ∈ b.state.constraints.keys → Unshadowed n d.key) :
    b.admitsRow (Row.ofProfile (n.profile details)) = b.matchesNode n := by
  have hvalue : ∀ e ∈ b.state.constraints.entries,
      (Row.ofProfile (n.profile details)).values.get? e.1 =
        (valueOf? n e.1).bind Reading.ofValue? := by
    intro e he
    have hkey : e.1 ∈ b.state.constraints.keys := List.mem_map_of_mem he
    obtain ⟨d, hd⟩ : ∃ d, b.dimension? e.1 = some d :=
      Option.ne_none_iff_exists'.1 fun hnone =>
        List.filter_eq_nil_iff.1 hmismatches e.1 hkey (by simp [hnone])
    have hmem : d ∈ b.dimensions := mem_of_dimension? hd
    -- The constraint is stored under the key of the dimension that it means.
    have hqualified : d.key = e.1 := h.qualified e.1 hkey d hd
    rw [← hqualified] at hkey ⊢
    exact h.get?_row_eq_valueOf? hn hadmits hmem (hseparable _ hkey) (hbare d hmem hkey)
  rw [admitsRow, matchesNode, Bool.eq_iff_iff, List.all_eq_true, List.all_eq_true]
  exact forall₂_congr fun e he => by simp only [hvalue e he]

end ProjectionOf

/-- **The selection and the predicate agree where every constraint means a dimension.**  From the
last projection of a store on, whenever no recomputation is pending: a node on display is selected
just when it satisfies the predicate and no constraint is without a dimension.  No node on display may
have an attribute under the key of a constraint whose category contains the separator of keys, nor may
an attribute of the node be named like the key of a dimension with a constraint. -/
theorem mem_selected_iff_matches (pane : PaneId) (state : BrushState Float) (window : Nat)
    (before after : List BrushCommand) (hafter : ∀ c ∈ after, c.isProjection = false)
    (hb : b = (start pane state window).run (before ++ .project s mode details schema :: after))
    (hidle : b.debounce.pending = false)
    (hseparable : ∀ key ∈ b.state.constraints.keys, ∀ m ∈ s.nodes, mode.admits m.kind = true →
      m.SeparableAt key)
    (hn : n ∈ s.nodes) (hadmits : mode.admits n.kind = true)
    (hbare : ∀ d ∈ b.dimensions, d.key ∈ b.state.constraints.keys → Unshadowed n d.key) :
    n.id ∈ b.selected ↔ b.matchesNode n = true ∧ b.mismatches = [] := by
  have h : ProjectionOf s mode details b := by
    rw [hb, Brush.run, List.foldl_append, List.foldl_cons]
    exact (projectionOf_projectStore _ s mode details schema).run hafter
  -- The selection looks at the row of the node, the predicate at the node itself.
  rw [h.mem_selected_iff hn hadmits hidle]
  constructor
  · intro hadmitted
    have hmismatches : b.mismatches = [] := h.mismatches_eq_nil hn hadmits hadmitted
    exact ⟨h.admitsRow_eq_matchesNode hn hadmits hmismatches hseparable hbare ▸ hadmitted,
      hmismatches⟩
  · rintro ⟨hmatches, hmismatches⟩
    rwa [h.admitsRow_eq_matchesNode hn hadmits hmismatches hseparable hbare]

/-- A constraint set by a bare name on one of two dimensions selects the node that meets it, though the
category of the other one contains a separator. -/
theorem mem_selected_iff_matches_flagged :
    let flags (lit : Bool) := ("flags", .ofList [("lit", .bool lit)])
    let notes := ("notes/old", .ofList [("colour", .text "red")])
    let on : Node := { id := ⟨"on"⟩, kind := .state, attributes := .ofList [flags true, notes] }
    let off : Node := { id := ⟨"off"⟩, kind := .state, attributes := .ofList [flags false] }
    let s := Store.ofFragment ⟨[on, off], []⟩
    let commands := [.project s .states {} {}, .brush "lit" (some (.oneOf ["true"]))]
    let b := (start ⟨"pane-0"⟩ {} 0).run commands
    b.debounce.pending = false ∧
      b.state.constraints.keys = ["flags/lit"] ∧
      (∀ key ∈ b.state.constraints.keys, ∀ m ∈ s.nodes, DisplayMode.states.admits m.kind = true →
        m.SeparableAt key) ∧
      (∀ d ∈ b.dimensions, d.key ∈ b.state.constraints.keys → Unshadowed on d.key) ∧
      b.matchesNode on = true ∧ b.mismatches = [] ∧
      (on.id ∈ b.selected ↔ b.matchesNode on = true ∧ b.mismatches = []) := by
  intro flags notes on off s commands b
  have hidle : b.debounce.pending = false := by decide +kernel
  have hseparable : ∀ key ∈ b.state.constraints.keys, ∀ m ∈ s.nodes,
      DisplayMode.states.admits m.kind = true → m.SeparableAt key := by decide +kernel
  have hbare : ∀ d ∈ b.dimensions, d.key ∈ b.state.constraints.keys → Unshadowed on d.key := by
    decide +kernel
  have hfirst : on ∈ (Store.empty.insertNode on).nodes := List.mem_cons_self
  have hon : on ∈ s.nodes := (Store.nodes_isPrefix_insertNode _ off).subset hfirst
  exact ⟨hidle, by decide +kernel, hseparable, hbare, by decide +kernel, by decide +kernel,
    mem_selected_iff_matches ⟨"pane-0"⟩ {} 0 [] [.brush "lit" (some (.oneOf ["true"]))]
      (by decide +kernel) rfl hidle hseparable hon rfl hbare⟩

/-- An attribute that is hidden, and one of two that bear the same name: no row meets the constraint
on it, but the node does. -/
theorem matches_hidden_or_ambiguous :
    let attrs : Dictionary String AttrValue := .ofList [("on", .bool true)]
    let n : Node :=
      { id := ⟨"a"⟩, kind := .state, attributes := .ofList [("flags", attrs), ("marks", attrs)] }
    let s := Store.ofFragment ⟨[n], []⟩
    let lit : Constraint Float := .oneOf ["true"]
    let hidden := (start ⟨"pane-0"⟩ { constraints := .ofList [("flags/on", lit)] } 0).projectStore s
      .states ⟨.ofList [("flags", {})]⟩ {}
    let ambiguous := ((start ⟨"pane-0"⟩ {} 0).projectStore s .states {} {}).brush "on" (some lit)
    n ∈ s.nodes ∧ DisplayMode.states.admits n.kind = true ∧
      (hidden.matchesNode n = true ∧ n.id ∉ hidden.selected) ∧
      ambiguous.matchesNode n = true ∧ n.id ∉ ambiguous.selected := by
  intro attrs n s lit hidden ambiguous
  exact ⟨List.mem_cons_self, rfl, by decide +kernel, by decide +kernel⟩

end Brush

end StateAtlas
