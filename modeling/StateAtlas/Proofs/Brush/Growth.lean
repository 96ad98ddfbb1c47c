import Mathlib.Data.List.Nodup
import StateAtlas.Proofs.Brush.Normal
import StateAtlas.Proofs.Dictionary
import StateAtlas.Proofs.Graph.Capacity
/-!
Projecting a store that has grown.

New nodes bring dimensions of their own.  A name under which a constraint is stored may come to mean
one of these, and the constraint is then moved to its key; but a name that meant a dimension before
is a key already, and keys keep what they mean.  So nothing is moved from or to a key of the
dimensions that were there before.  These are the only keys that old rows hold, so old rows are
admitted as they were: constraints under old keys stay, and a constraint under any other name admits
none of them, wherever it is moved.

Main statements: `admitsRow_project_append`, `projectStore_add`.
-/

namespace StateAtlas.Brush

/-! ## Constraints outside of some names -/

section

variable {α : Type} {names : List String} {c c' c'' : Dictionary String (Constraint α)}

/-- Constraints that are the same under some names; and if there are any under other names, then
there are on both sides. -/
structure SameUnder (names : List String) (c c' : Dictionary String (Constraint α)) : Prop where
  get?_eq : ∀ name ∈ names, c'.get? name = c.get? name
  elsewhere_iff : (∃ name ∉ names, c'.contains name = true) ↔ ∃ name ∉ names, c.contains name = true

theorem SameUnder.refl (names : List String) (c : Dictionary String (Constraint α)) :
    SameUnder names c c :=
  ⟨fun _ _ => rfl, Iff.rfl⟩

theorem SameUnder.symm (h : SameUnder names c c') : SameUnder names c' c :=
  ⟨fun name hname => (h.get?_eq name hname).symm, h.elsewhere_iff.symm⟩

theorem SameUnder.trans (h : SameUnder names c c') (h' : SameUnder names c' c'') :
    SameUnder names c c'' :=
  ⟨fun name hname => (h'.get?_eq name hname).trans (h.get?_eq name hname),
    h'.elsewhere_iff.trans h.elsewhere_iff⟩

/-- A constraint is moved from one name to another. -/
theorem sameUnder_qualify {old key : String} (hold : old ∉ names) (hkey : key ∉ names)
    (state : BrushState α) :
    SameUnder names state.constraints (qualify state old key).constraints := by
  rw [qualify]
  cases h : state.constraints.get? old with
  | none => exact .refl names state.constraints
  | some constraint =>
    have hother : ∀ name, name ≠ old → name ≠ key →
        ((state.constraints.erase old).insertIfNew key constraint).get? name =
          state.constraints.get? name := by
      intro name hne hne'
      unfold Dictionary.insertIfNew
      split
      · rw [Dictionary.get?_erase, if_neg hne.symm]
      · rw [Dictionary.get?_insert, if_neg hne'.symm, Dictionary.get?_erase, if_neg hne.symm]
    have hmoved :
        ((state.constraints.erase old).insertIfNew key constraint).contains key = true := by
      unfold Dictionary.insertIfNew
      split
      next hthere => exact hthere
      next => exact (Dictionary.contains_insert ..).2 (.inl rfl)
    refine ⟨fun name hname => hother name ?_ ?_, fun _ => ⟨old, hold, ?_⟩,
      fun _ => ⟨key, hkey, hmoved⟩⟩
    · exact fun heq => hold (heq ▸ hname)
    · exact fun heq => hkey (heq ▸ hname)
    · rw [Dictionary.contains, h]
      rfl

theorem sameUnder_foldl_qualify {moves : List (String × String)}
    (hmoves : ∀ move ∈ moves, move.1 ∉ names ∧ move.2 ∉ names) (state : BrushState α) :
    SameUnder names state.constraints
      (moves.foldl (fun s move => qualify s move.1 move.2) state).constraints := by
  induction moves generalizing state with
  | nil => exact .refl names state.constraints
  | cons move moves ih =>
    obtain ⟨⟨hold, hkey⟩, hmoves⟩ := List.forall_mem_cons.1 hmoves
    exact (sameUnder_qualify hold hkey state).trans (ih hmoves _)

/-- A row that holds nothing but some names is admitted by constraints that are the same under
them. -/
theorem admitsRow_of_sameUnder [AxisNumber α] {b b' : Brush α}
    (h : SameUnder names b.state.constraints b'.state.constraints) {r : Row α}
    (hrow : ∀ name v, r.values.get? name = some v → name ∈ names) (hadmits : b.admitsRow r = true) :
    b'.admitsRow r = true := by
  rw [admitsRow_iff, Admits] at hadmits ⊢
  intro name c hc
  by_cases hname : name ∈ names
  · have hget := Dictionary.get?_eq_some_iff.2 hc
    rw [h.get?_eq name hname] at hget
    exact hadmits name c (Dictionary.get?_eq_some_iff.1 hget)
  · -- Then some constraint admitted no row that holds those names only.
    have hthere : b'.state.constraints.contains name = true := by
      rw [Dictionary.contains, Dictionary.get?_eq_some_iff.2 hc]
      rfl
    obtain ⟨other, hother, hcontains⟩ := h.elsewhere_iff.1 ⟨name, hname, hthere⟩
    obtain ⟨c', hc'⟩ := Option.isSome_iff_exists.1 hcontains
    obtain ⟨v, hv, -⟩ := hadmits other c' (Dictionary.get?_eq_some_iff.1 hc')
    exact absurd (hrow other v hv) hother

end

/-! ## Attributes of a larger projection -/

section

variable {α : Type} {profiles more : List (Profile α)}

/-- The key of an attribute. -/
def keyOf (a : String × String) : String := dimensionKey a.1 a.2

theorem isPrefix_foldl_declare (readings : List (String × String × Reading α))
    (seen : List (String × String)) : seen <+: readings.foldl declare seen := by
  induction readings generalizing seen with
  | nil => exact List.prefix_rfl
  | cons reading readings ih =>
    refine List.IsPrefix.trans ?_ (ih (declare seen reading))
    unfold declare
    split
    · exact List.prefix_rfl
    · exact List.prefix_append _ _

/-- What is declared stays declared, in its place. -/
theorem declaredBy_isPrefix (profiles more : List (Profile α)) :
    declaredBy profiles <+: declaredBy (profiles ++ more) := by
  rw [declaredBy_eq_foldl, declaredBy_eq_foldl, List.flatMap_append, List.foldl_append]
  exact isPrefix_foldl_declare _ _

/-- Each key is declared once. -/
theorem nodup_declaredBy (profiles : List (Profile α)) :
    ((declaredBy profiles).map keyOf).Nodup := by
  have hdeclare : ∀ (readings : List (String × String × Reading α)) (seen : List (String × String)),
      (seen.map keyOf).Nodup → ((readings.foldl declare seen).map keyOf).Nodup := by
    intro readings
    induction readings with
    | nil => exact fun _ h => h
    | cons reading readings ih =>
      refine fun seen h => ih _ ?_
      unfold declare
      split
      next => exact h
      next hnew =>
        rw [List.map_append, List.map_singleton, List.nodup_append]
        refine ⟨h, List.nodup_singleton _, fun key hkey key' hkey' heq => hnew ?_⟩
        obtain ⟨a, ha, rfl⟩ := List.mem_map.1 hkey
        rw [List.mem_singleton.1 hkey'] at heq
        exact List.any_eq_true.2 ⟨a, ha, decide_eq_true heq⟩
  exact hdeclare _ [] List.nodup_nil

/-- A row holds keys of declared attributes only. -/
theorem mem_keys_of_get?_ofProfile {p : Profile α} (hp : p ∈ profiles) {name : String}
    {v : Reading α} (h : (Row.ofProfile p).values.get? name = some v) :
    name ∈ (declaredBy profiles).map keyOf := by
  have hmem := Dictionary.mem_of_mem_entries_ofList (Dictionary.get?_eq_some_iff.1 h)
  obtain ⟨⟨category, bare, r⟩, hr, heq⟩ := List.mem_map.1 hmem
  obtain ⟨a, ha, hkey⟩ := exists_mem_declaredBy hp hr
  exact List.mem_map.2 ⟨a, ha, hkey.trans (congrArg Prod.fst heq)⟩

end

/-! ## Names in a larger projection -/

section

variable {α : Type} {b b' : Brush α} {name : String} {d : Dimension α}

theorem map_key_eq_attributes (b : Brush α) :
    b.dimensions.map Dimension.key = b.attributes.map keyOf := by
  rw [attributes, List.map_map]
  rfl

theorem map_name_eq_attributes (b : Brush α) :
    b.dimensions.map Dimension.name = b.attributes.map Prod.snd := by
  rw [attributes, List.map_map]
  rfl

/-- A name that is not the key of its dimension is the name of that dimension. -/
theorem name_of_dimension? (h : b.dimension? name = some d) (hkey : d.key ≠ name) :
    d.name = name := by
  unfold dimension? at h
  split at h
  next d' hfind =>
    cases h
    exact absurd (by simpa using List.find?_some hfind) hkey
  next =>
    split at h
    next hfilter =>
      cases h
      have hmem : d ∈ b.dimensions.filter fun d => d.name = name :=
        hfilter ▸ List.mem_singleton_self d
      exact of_decide_eq_true (List.mem_filter.1 hmem).2
    next => cases h

/-- **A name that could be used before and means a dimension under another key now was no key, and
means no dimension that was there before.** -/
theorem not_mem_keys_of_isKey (hfirst : b.attributes <+: b'.attributes)
    (hnodup : (b'.attributes.map keyOf).Nodup) (hname : b.IsKey name)
    (hd : b'.dimension? name = some d) (hkey : d.key ≠ name) :
    name ∉ b.attributes.map keyOf ∧ d.key ∉ b.attributes.map keyOf := by
  have hnot : ¬b'.IsKey name := fun h => hkey (h d hd)
  rw [isKey_iff, map_key_eq_attributes, map_name_eq_attributes, not_or, not_not] at hnot
  obtain ⟨hnokey, hone⟩ := hnot
  have hold : name ∉ b.attributes.map keyOf := fun hmem =>
    hnokey ((hfirst.map keyOf).subset hmem)
  refine ⟨hold, fun hmem => ?_⟩
  obtain ⟨a, ha, hakey⟩ := List.mem_map.1 hmem
  have hattribute : (d.category, d.name) ∈ b'.attributes :=
    List.mem_map_of_mem (mem_of_dimension? hd)
  obtain rfl : a = (d.category, d.name) :=
    List.inj_on_of_nodup_map hnodup (hfirst.subset ha) hattribute hakey
  -- The dimension bore the name already, and no other one did.
  have hbefore : name ∈ b.attributes.map Prod.snd :=
    name_of_dimension? hd hkey ▸ List.mem_map_of_mem ha
  have hcount : (b.attributes.map Prod.snd).count name = 1 :=
    Nat.le_antisymm (hone ▸ (hfirst.map Prod.snd).sublist.count_le name)
      (List.count_pos_iff.2 hbefore)
  rw [isKey_iff, map_key_eq_attributes, map_name_eq_attributes] at hname
  exact hname.elim hold fun hne => hne hcount

end

/-! ## Projecting more -/

section

variable {α : Type} [AxisNumber α]

theorem attributes_project (b : Brush α) (profiles : List (Profile α))
    (declared : String → String → Option (AxisDeclaration α)) :
    (b.project profiles declared).attributes = declaredBy profiles := by
  simp only [attributes, project, dimensions_recompute, dimensions_adopt, List.map_map]
  exact List.map_id _

/-- No two dimensions of a projection have one key. -/
theorem nodup_keys_project (b : Brush α) (profiles : List (Profile α))
    (declared : String → String → Option (AxisDeclaration α)) :
    ((b.project profiles declared).attributes.map keyOf).Nodup :=
  b.attributes_project profiles declared ▸ nodup_declaredBy profiles

theorem normal_project (b : Brush α) (profiles : List (Profile α))
    (declared : String → String → Option (AxisDeclaration α)) :
    (b.project profiles declared).Normal :=
  (normal_adopt _ b.state).of_perm rfl (qualified_adopt _ b.state).recompute (.refl _)

variable (b : Brush α) (profiles more : List (Profile α))
  (declared declared' : String → String → Option (AxisDeclaration α))

/-- Taking over constraints for more rows touches none under the keys that were there. -/
theorem sameUnder_project_append :
    let before := b.project profiles declared
    SameUnder ((declaredBy profiles).map keyOf) before.state.constraints
      (before.project (profiles ++ more) declared').state.constraints := by
  intro before
  have hnormal : before.Normal := b.normal_project profiles declared
  have hattributes : before.attributes = declaredBy profiles := b.attributes_project _ _
  -- From here on it does not matter how the brush came by its rows.
  clear_value before
  let after := before.project (profiles ++ more) declared'
  have hattributes' : after.attributes = declaredBy (profiles ++ more) :=
    before.attributes_project _ _
  have hmoves : ∀ move ∈ ({ after with state := before.state } : Brush α).bareNames,
      move.1 ∉ (declaredBy profiles).map keyOf ∧ move.2 ∉ (declaredBy profiles).map keyOf := by
    intro move hmove
    obtain ⟨name, hname, hmove⟩ := List.mem_filterMap.1 hmove
    obtain ⟨d, hd, hmove⟩ := Option.bind_eq_some_iff.1 hmove
    split at hmove
    next => cases hmove
    next hkey =>
      cases hmove
      have hisKey : before.IsKey name :=
        (List.mem_append.1 hname).elim (hnormal.qualified name) (hnormal.isKey_order name)
      have hfirst : before.attributes <+: after.attributes := by
        rw [hattributes, hattributes']
        exact declaredBy_isPrefix profiles more
      have hnodup : (after.attributes.map keyOf).Nodup := before.nodup_keys_project _ _
      rw [← hattributes]
      exact not_mem_keys_of_isKey hfirst hnodup hisKey hd hkey
  exact sameUnder_foldl_qualify hmoves before.state

/-- **More rows change nothing for those that were there.** -/
theorem admitsRow_project_append {p : Profile α} (hp : p ∈ profiles) :
    let before := b.project profiles declared
    (before.project (profiles ++ more) declared').admitsRow (Row.ofProfile p) =
      before.admitsRow (Row.ofProfile p) := by
  intro before
  have hsame := b.sameUnder_project_append profiles more declared declared'
  have hrow : ∀ name v, (Row.ofProfile p).values.get? name = some v →
      name ∈ (declaredBy profiles).map keyOf := fun name v => mem_keys_of_get?_ofProfile hp
  rw [Bool.eq_iff_iff]
  exact ⟨admitsRow_of_sameUnder hsame.symm hrow, admitsRow_of_sameUnder hsame hrow⟩

/-- What is selected among more rows is what was selected, followed by new rows. -/
theorem selected_project_append :
    let before := b.project profiles declared
    let after := before.project (profiles ++ more) declared'
    after.selected =
      before.selected ++ ((more.map Row.ofProfile).filter after.admitsRow).map Row.id := by
  intro before after
  have hrows : after.selected =
      (((profiles ++ more).map Row.ofProfile).filter after.admitsRow).map Row.id := rfl
  have hbefore : before.selected =
      ((profiles.map Row.ofProfile).filter before.admitsRow).map Row.id := rfl
  have hold : (profiles.map Row.ofProfile).filter after.admitsRow =
      (profiles.map Row.ofProfile).filter before.admitsRow := by
    refine List.filter_congr fun r hr => ?_
    obtain ⟨p, hp, rfl⟩ := List.mem_map.1 hr
    exact b.admitsRow_project_append profiles more declared declared' hp
  rw [hrows, List.map_append, List.filter_append, List.map_append, hold, hbefore]

end

/-! ## Projecting a store that has grown -/

section

variable (b : Brush Float) (s : Store) (g : Fragment) (mode : DisplayMode)
  (details : DetailSelection) (schema : Schema)

theorem mem_selected_projectStore {id : NodeId}
    (h : id ∈ (b.projectStore s mode details schema).selected) : s.hasNode id = true := by
  obtain ⟨r, hr, rfl⟩ := List.mem_map.1 h
  have hrow := (List.mem_filter.1 hr).1
  obtain ⟨p, hp, rfl⟩ := List.mem_map.1 hrow
  obtain ⟨n, hn, -, rfl⟩ := mem_profiles_iff.1 hp
  exact Store.hasNode_of_mem_nodes hn

/-- What is selected after an addition is what was selected before, followed by new nodes. -/
theorem exists_selected_eq_append :
    let before := b.projectStore s mode details schema
    let after := before.projectStore (s.add g) mode details schema
    ∃ new, after.selected = before.selected ++ new ∧
      ∀ id ∈ new, ∃ n ∈ s.newNodes g, n.id = id := by
  intro before after
  have hprofiles : ((s.add g).nodes.filter fun n => mode.admits n.kind).map
      (fun n => n.profile details) =
      ((s.nodes.filter fun n => mode.admits n.kind).map fun n => n.profile details) ++
        ((s.newNodes g).filter fun n => mode.admits n.kind).map fun n => n.profile details := by
    rw [Store.nodes_add_eq, List.filter_append, List.map_append]
  have hselected := b.selected_project_append
    ((s.nodes.filter fun n => mode.admits n.kind).map fun n => n.profile details)
    (((s.newNodes g).filter fun n => mode.admits n.kind).map fun n => n.profile details)
    (fun category name => (schema.find? category name).map Declaration.axis)
    (fun category name => (schema.find? category name).map Declaration.axis)
  rw [← hprofiles] at hselected
  refine ⟨_, hselected, fun id hid => ?_⟩
  obtain ⟨r, hr, rfl⟩ := List.mem_map.1 hid
  obtain ⟨p, hp, rfl⟩ := List.mem_map.1 (List.mem_filter.1 hr).1
  obtain ⟨n, hn, rfl⟩ := List.mem_map.1 hp
  exact ⟨n, (List.mem_filter.1 hn).1, rfl⟩

end

/-- **Growth never changes the verdict on old nodes.**  When nodes and edges are added to a store
that a brush has just projected, and it projects the store again, the nodes that were there are
selected if and only if they were selected before, in the same order, and whatever else is selected
came in with the addition. -/
theorem projectStore_add (b : Brush Float) (s : Store) (g : Fragment) (mode : DisplayMode)
    (details : DetailSelection) (schema : Schema) :
    let before := b.projectStore s mode details schema
    let after := before.projectStore (s.add g) mode details schema
    after.selected.filter s.hasNode = before.selected ∧
      (∀ id, s.hasNode id = true → (id ∈ after.selected ↔ id ∈ before.selected)) ∧
      ∀ id ∈ after.selected, id ∉ before.selected → id ∈ (Delta.between s (s.add g)).nodes := by
  intro before after
  obtain ⟨new, hselected, hnew⟩ := b.exists_selected_eq_append s g mode details schema
  have hforeign : ∀ id ∈ new, s.hasNode id = false := by
    intro id hid
    obtain ⟨n, hn, rfl⟩ := hnew id hid
    exact (Store.mem_newNodes_iff.1 hn).1
  -- What was selected is held by the store before, and what comes behind it is not.
  have hkept : after.selected.filter s.hasNode = before.selected := by
    have hold : before.selected.filter s.hasNode = before.selected :=
      List.filter_eq_self.2 fun id hid => b.mem_selected_projectStore s mode details schema hid
    have hnone : new.filter s.hasNode = [] :=
      List.filter_eq_nil_iff.2 fun id hid => by simp [hforeign id hid]
    rw [hselected, List.filter_append, hold, hnone, List.append_nil]
  refine ⟨hkept, fun id hid => ?_, fun id hid hnot => ?_⟩
  · rw [← hkept, List.mem_filter]
    exact (and_iff_left hid).symm
  · have hid : id ∈ new := (List.mem_append.1 (hselected ▸ hid)).resolve_left hnot
    obtain ⟨n, hn, rfl⟩ := hnew id hid
    have hadded : n.id ∈ (s.add g).nodeIds :=
      List.mem_map_of_mem (Store.nodes_add_eq s g ▸ List.mem_append_right _ hn)
    rw [Store.nodeIds_add] at hadded
    refine (List.mem_append.1 hadded).resolve_left fun hheld => ?_
    have habsent := hforeign n.id hid
    rw [Store.hasNode_iff.2 hheld] at habsent
    cases habsent

end StateAtlas.Brush
