import StateAtlas.Proofs.Brush.Dimensions
/-!
States that a brush takes over as they are.

A brush that takes over a state puts keys for the bare names of dimensions and adds the dimensions
that the display order lacks.  It is *normal* when nothing of this is left to do.  Taking over a state
makes a brush normal, and no command undoes that.

What a name means depends on the attributes that the dimensions are of, and not on their scales.  So
the state of a normal brush is taken over as it is by every brush whose dimensions are of the same
attributes.

Main statements: `normal_adopt`, `Normal.state_adopt`.
-/

namespace StateAtlas

/-- The attributes that the nodes show that a mode admits. -/
def Store.attributes (s : Store) (mode : DisplayMode) (details : DetailSelection) :
    List (String × String) :=
  Brush.declaredBy ((s.nodes.filter fun n => mode.admits n.kind).map fun n => n.profile details)

namespace Brush

/-! ## Names -/

section

variable {α : Type} {b b' : Brush α} {name : String} {d : Dimension α}

/-- The attributes that the dimensions are of. -/
def attributes (b : Brush α) : List (String × String) :=
  b.dimensions.map fun d => (d.category, d.name)

/-- A name can be used if it is the key of a dimension or no or several dimensions bear it. -/
theorem isKey_iff :
    b.IsKey name ↔ name ∈ b.dimensions.map Dimension.key ∨
      (b.dimensions.map Dimension.name).count name ≠ 1 := by
  have hcount : (b.dimensions.map Dimension.name).count name =
      (b.dimensions.filter fun d => d.name = name).length := by
    rw [List.count_eq_countP, List.countP_map, List.countP_eq_length_filter]
    rfl
  rw [IsKey, hcount, List.mem_map]
  unfold dimension?
  split
  next d hfind =>
    have hkey : d.key = name := by simpa using List.find?_some hfind
    refine ⟨fun _ => .inl ⟨d, List.mem_of_find?_eq_some hfind, hkey⟩, fun _ d' hd' => ?_⟩
    exact Option.some.inj hd' ▸ hkey
  next hfind =>
    have hnone : ¬∃ d ∈ b.dimensions, d.key = name := by simpa using hfind
    split
    next d hfilter =>
      have hd : d ∈ b.dimensions := List.mem_of_mem_filter (hfilter ▸ List.mem_singleton_self d)
      refine ⟨fun h => absurd ⟨d, hd, h d rfl⟩ hnone, ?_⟩
      rw [hfilter]
      rintro (h | h)
      · exact absurd h hnone
      · exact absurd rfl h
    next hfilter =>
      refine ⟨fun _ => .inr fun hone => ?_, fun _ d hd => absurd hd.symm (Option.some_ne_none d)⟩
      obtain ⟨d, hd⟩ := List.length_eq_one_iff.1 hone
      exact hfilter d hd

theorem map_key_eq (h : b'.attributes = b.attributes) :
    b'.dimensions.map Dimension.key = b.dimensions.map Dimension.key := by
  have hkeys := congrArg (List.map fun a : String × String => dimensionKey a.1 a.2) h
  rwa [attributes, attributes, List.map_map, List.map_map] at hkeys

theorem map_name_eq (h : b'.attributes = b.attributes) :
    b'.dimensions.map Dimension.name = b.dimensions.map Dimension.name := by
  have hnames := congrArg (List.map Prod.snd) h
  rwa [attributes, attributes, List.map_map, List.map_map] at hnames

theorem isKey_congr (h : b'.attributes = b.attributes) : b'.IsKey name ↔ b.IsKey name := by
  rw [isKey_iff, isKey_iff, map_key_eq h, map_name_eq h]

/-! ## The display order -/

theorem mem_orderDimensions {dimensions : List (Dimension α)} {order : List String} :
    name ∈ orderDimensions dimensions order ↔
      name ∈ order ∨ ∃ d ∈ dimensions, d.key = name := by
  unfold orderDimensions
  induction dimensions generalizing order with
  | nil => simp
  | cons d dimensions ih =>
    rw [List.foldl_cons, ih, List.exists_mem_cons_iff, ← or_assoc]
    split
    next hlisted =>
      have hd : d.key = name → name ∈ order := fun h => h ▸ List.contains_iff_mem.1 hlisted
      rw [or_iff_left_of_imp hd]
    next => rw [List.mem_append, List.mem_singleton, eq_comm]

theorem orderDimensions_eq_self {dimensions : List (Dimension α)} {order : List String}
    (h : ∀ d ∈ dimensions, d.key ∈ order) : orderDimensions dimensions order = order := by
  unfold orderDimensions
  induction dimensions with
  | nil => rfl
  | cons d dimensions ih =>
    obtain ⟨hd, hdimensions⟩ := List.forall_mem_cons.1 h
    rw [List.foldl_cons, if_pos (List.contains_iff_mem.2 hd)]
    exact ih hdimensions

/-- Putting a key for a bare name takes the name out of the display order once, if not
altogether. -/
theorem count_order_qualify {state : BrushState α} {old key : String} (hkey : key ≠ name) :
    (qualify state old key).order.count name ≤
      state.order.count name - if old = name then 1 else 0 := by
  rw [qualify]
  dsimp only
  split
  · by_cases hold : old = name
    · have hnone : (state.order.filter fun k => k ≠ old).count name = 0 :=
        List.count_eq_zero.2 (by simp [hold])
      rw [hnone]
      exact Nat.zero_le _
    · rw [if_neg hold, Nat.sub_zero]
      exact List.filter_sublist.count_le name
  · rw [List.count_replace]
    split
    next => simp [hkey]
    next hnot =>
      by_cases hold : old = name
      · have hnone : state.order.count name = 0 :=
          List.count_eq_zero.2 fun hmem => hnot (by simpa [hold] using hmem)
        rw [hnone]
        exact Nat.zero_le _
      · rw [if_neg hold]
        exact Nat.le_refl _

theorem count_order_foldl_qualify {names : List (String × String)}
    (hkeys : ∀ bare ∈ names, bare.2 ≠ name) (state : BrushState α) :
    (names.foldl (fun s (old, key) => qualify s old key) state).order.count name ≤
      state.order.count name - names.countP fun bare => bare.1 = name := by
  induction names generalizing state with
  | nil => exact Nat.le_refl _
  | cons bare names ih =>
    obtain ⟨hkey, hkeys⟩ := List.forall_mem_cons.1 hkeys
    have hfirst : (qualify state bare.1 bare.2).order.count name ≤ _ := count_order_qualify hkey
    refine Nat.le_trans (ih hkeys (qualify state bare.1 bare.2)) ?_
    rw [List.countP_cons]
    simp only [decide_eq_true_eq]
    omega

/-- A bare name is listed as often as it stands in the display order. -/
theorem count_order_le (hd : b.dimension? name = some d) (hkey : d.key ≠ name) :
    b.state.order.count name ≤ b.bareNames.countP fun bare => bare.1 = name := by
  rw [bareNames, List.countP_filterMap, List.countP_append, List.count_eq_countP]
  refine Nat.le_trans (List.countP_mono_left fun other _ hother => ?_) (Nat.le_add_left ..)
  obtain rfl : other = name := by simpa using hother
  simp [hd, hkey]

/-! ## Normal brushes -/

/-- Nothing is left to do when the brush takes over its own state: whatever means a dimension is the
key of that dimension, in the constraints and in the display order, and the display order holds
every dimension. -/
structure Normal (b : Brush α) : Prop where
  qualified : b.Qualified
  isKey_order : ∀ name ∈ b.state.order, b.IsKey name
  mem_order : ∀ d ∈ b.dimensions, d.key ∈ b.state.order

/-- **A state that is taken over becomes normal.** -/
theorem normal_adopt (b : Brush α) (state : BrushState α) : (b.adopt state).Normal where
  qualified := b.qualified_adopt state
  mem_order d hd := mem_orderDimensions.2 (.inr ⟨d, hd, rfl⟩)
  isKey_order name hname := by
    let taken : Brush α := { b with state }
    rcases mem_orderDimensions.1 hname with hmem | ⟨d, hd, rfl⟩
    · intro d hd
      by_contra hkey
      -- All that stood for the dimension under its bare name was replaced.
      have hkeys : ∀ bare ∈ taken.bareNames, bare.2 ≠ name := fun bare hbare heq =>
        hkey (heq ▸ isKey_of_mem_bareNames hbare d (heq ▸ hd))
      have hlisted : state.order.count name ≤ _ := count_order_le (b := taken) hd hkey
      have hcount := count_order_foldl_qualify hkeys state
      rw [Nat.sub_eq_zero_of_le hlisted, Nat.le_zero] at hcount
      exact List.count_eq_zero.1 hcount hmem
    · exact isKey_key hd

/-- **A normal state is taken over as it is**, whatever the scales of the dimensions. -/
theorem Normal.state_adopt (h : b.Normal) (hattributes : b'.attributes = b.attributes) :
    (b'.adopt b.state).state = b.state := by
  have hbare : { b' with state := b.state }.bareNames = [] := by
    refine List.filterMap_eq_nil_iff.2 fun name hname => ?_
    have hkey : b.IsKey name := (List.mem_append.1 hname).elim (h.qualified name) (h.isKey_order name)
    have hkey' : { b' with state := b.state }.IsKey name := (isKey_congr hattributes).2 hkey
    cases hd : { b' with state := b.state }.dimension? name with
    | none => rfl
    | some d => rw [Option.bind_some, if_pos (hkey' d hd)]
  have horder : orderDimensions b'.dimensions b.state.order = b.state.order := by
    refine orderDimensions_eq_self fun d hd => ?_
    have hmem : d.key ∈ b.dimensions.map Dimension.key :=
      map_key_eq hattributes ▸ List.mem_map_of_mem hd
    obtain ⟨d', hd', hkey⟩ := List.mem_map.1 hmem
    exact hkey ▸ h.mem_order d' hd'
  simp only [adopt, hbare, List.foldl_nil, horder]

/-- Without dimensions no name means anything. -/
theorem normal_of_no_dimensions (h : b.dimensions = []) : b.Normal := by
  have hkey : ∀ name, b.IsKey name := fun name => isKey_iff.2 (.inr (by simp [h]))
  exact ⟨fun name _ => hkey name, fun name _ => hkey name, by simp [h]⟩

/-- A brush without dimensions takes over every state as it is. -/
theorem state_adopt_of_no_dimensions (h : b.dimensions = []) (state : BrushState α) :
    (b.adopt state).state = state :=
  (normal_of_no_dimensions (b := { b with state }) h).state_adopt rfl

/-- The dimensions may be displayed in another order. -/
theorem Normal.of_perm (h : b.Normal) (hdimensions : b'.dimensions = b.dimensions)
    (hqualified : b'.Qualified) (horder : b'.state.order.Perm b.state.order) : b'.Normal where
  qualified := hqualified
  isKey_order name hname := by
    rw [IsKey, dimension?_congr hdimensions]
    exact h.isKey_order name (horder.mem_iff.1 hname)
  mem_order d hd := horder.mem_iff.2 (h.mem_order d (hdimensions ▸ hd))

theorem perm_order_reorder (b : Brush α) (name : String) (position : Nat) :
    (b.reorder name position).1.state.order.Perm b.state.order := by
  unfold reorder
  dsimp only
  split
  next hlisted =>
    refine (List.perm_insertIdx _ _ (Nat.min_le_right _ _)).trans (.symm ?_)
    exact List.perm_cons_erase (List.contains_iff_mem.1 hlisted)
  next => exact .refl _

end

/-! ## Commands -/

section

variable {α : Type} [AxisNumber α]

theorem state_runIf (b : Brush α) (asked : Debounce × Bool) :
    (b.runIf asked).1.state = b.state := by
  rcases b.runIf_cases asked with ⟨-, h⟩ | ⟨-, h⟩ <;> rw [h]
  rfl

end

variable {b : Brush Float}

/-- Only a state that is taken over brings other names into the display order. -/
theorem perm_order_execute (b : Brush Float) {c : BrushCommand} (hc : c.isProjection = false)
    (hstate : ∀ state, c ≠ .replaceState state) :
    (b.execute c).1.state.order.Perm b.state.order := by
  cases c with
  | project => cases hc
  | replaceState state => exact absurd rfl (hstate state)
  | brushCoalesced name c now =>
    have hran := (b.store name c).state_runIf ((b.store name c).debounce.hit now)
    exact .of_eq (congrArg BrushState.order hran :)
  | poll now => exact .of_eq (congrArg BrushState.order (b.state_runIf (b.debounce.due now)) :)
  | flush now => exact .of_eq (congrArg BrushState.order (b.state_runIf (b.debounce.take now)) :)
  | selectExtreme name which =>
    rw [execute]
    split
    next b' h =>
      obtain ⟨d, c, -, -, rfl⟩ := selectExtreme?_eq_some h
      exact .refl _
    next => exact .refl _
  | reorder name position => exact b.perm_order_reorder name position
  | resize length =>
    obtain ⟨axisLength, h⟩ := b.resize_cases length
    rw [execute, h]
  | _ => exact .refl _

/-- **No command but a projection undoes that a brush is normal.** -/
theorem Normal.execute (h : b.Normal) {c : BrushCommand} (hc : c.isProjection = false) :
    (b.execute c).1.Normal := by
  have hqualified := h.qualified.execute c
  by_cases hstate : ∃ state, c = .replaceState state
  · obtain ⟨state, rfl⟩ := hstate
    exact (b.normal_adopt state).of_perm rfl hqualified (.refl _)
  · exact h.of_perm (b.sameRows_execute hc).dimensions_eq hqualified
      (b.perm_order_execute hc fun state heq => hstate ⟨state, heq⟩)

theorem attributes_projectStore (b : Brush Float) (s : Store) (mode : DisplayMode)
    (details : DetailSelection) (schema : Schema) :
    (b.projectStore s mode details schema).attributes = s.attributes mode details :=
  b.dimensions_projectStore s mode details schema

theorem normal_projectStore (b : Brush Float) (s : Store) (mode : DisplayMode)
    (details : DetailSelection) (schema : Schema) :
    (b.projectStore s mode details schema).Normal :=
  (normal_adopt _ b.state).of_perm rfl (b.qualified_projectStore s mode details schema) (.refl _)

/-- **The state of a normal brush outlives a projection to the same attributes**, whatever the
schema. -/
theorem Normal.state_projectStore {b' : Brush Float} (h : b.Normal) (hstate : b'.state = b.state)
    {s : Store} {mode : DisplayMode} {details : DetailSelection}
    (hattributes : s.attributes mode details = b.attributes) (schema : Schema) :
    (b'.projectStore s mode details schema).state = b.state := by
  rw [← b'.attributes_projectStore s mode details schema] at hattributes
  rw [← h.state_adopt hattributes, ← hstate]
  rfl

end Brush

end StateAtlas
