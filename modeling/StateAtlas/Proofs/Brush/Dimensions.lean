import Mathlib.Data.List.TakeDrop
import StateAtlas.Proofs.Brush.Commands
/-!
The dimensions of a brush, and the constraints on them.

A key is read up to its first `/`, so keys tell attributes apart if no category contains one.  The
rows of a projection hold just the enabled attributes that show something, each under its key, and
every key that a row holds belongs to a dimension.

A brush is *qualified* when every constraint that means a dimension is stored under the key of that
dimension.  A projection makes a brush qualified and no command undoes that, so whatever constraint
is stored under another name means no dimension.
-/

namespace StateAtlas

/-! ## Keys -/

/-- The text before the first separator, and the rest. -/
theorem span_at_first {sep : Char} {l : List Char} (h : sep ∉ l) (rest : List Char) :
    (l ++ sep :: rest).span (· ≠ sep) = (l, sep :: rest) := by
  rw [List.span_eq_takeWhile_dropWhile]
  have hl : ∀ c ∈ l, decide (c ≠ sep) = true := fun c hc =>
    decide_eq_true fun heq => h (heq ▸ hc)
  rw [List.takeWhile_append_of_pos hl, List.dropWhile_append_of_pos hl]
  simp

theorem toList_dimensionKey (category name : String) :
    (dimensionKey category name).toList = category.toList ++ '/' :: name.toList := by
  simp [dimensionKey]

/-- **Keys tell attributes apart if no category contains a separator.** -/
theorem dimensionKey_inj {category name category' name' : String} (h : '/' ∉ category.toList)
    (h' : '/' ∉ category'.toList)
    (hkey : dimensionKey category name = dimensionKey category' name') :
    category = category' ∧ name = name' := by
  have hspan := span_at_first h name.toList
  rw [← toList_dimensionKey, hkey, toList_dimensionKey, span_at_first h'] at hspan
  obtain ⟨hcategory, hname⟩ := Prod.mk.inj hspan
  exact ⟨(String.toList_injective hcategory).symm,
    (String.toList_injective (List.cons.inj hname).2).symm⟩

/-! ## What a row shows -/

/-- Whichever attribute of a node has a key, its category does not contain the separator of keys. -/
def Node.SeparableAt (n : Node) (key : String) : Prop :=
  ∀ a ∈ n.attributes.toList, dimensionKey a.1 a.2.1 = key → '/' ∉ a.1.toList

instance (n : Node) (key : String) : Decidable (n.SeparableAt key) :=
  inferInstanceAs
    (Decidable (∀ a ∈ n.attributes.toList, dimensionKey a.1 a.2.1 = key → '/' ∉ a.1.toList))

theorem Node.SeparableAt.of_find? {n : Node} {category name : String} {v : AttrValue}
    (h : n.SeparableAt (dimensionKey category name))
    (hv : n.attributes.find? category name = some v) : '/' ∉ category.toList :=
  h _ (Attributes.mem_toList_iff.2 hv) rfl

/-- What a node shows of an attribute. -/
theorem Node.mem_readings_iff {n : Node} {details : DetailSelection} {category name : String}
    {r : Reading Float} : (category, name, r) ∈ (n.profile details).readings ↔
      details.isEnabled category name = true ∧
        (n.attributes.find? category name).bind Reading.ofValue? = some r := by
  simp only [profile, List.mem_filterMap, Prod.exists, Option.bind_eq_some_iff,
    ← Attributes.mem_toList_iff]
  constructor
  · rintro ⟨c, m, v, hv, hr⟩
    split at hr
    next henabled =>
      obtain ⟨r', hr', heq⟩ := Option.map_eq_some_iff.1 hr
      cases heq
      exact ⟨henabled, v, hv, hr'⟩
    next => cases hr
  · rintro ⟨henabled, v, hv, hr⟩
    exact ⟨category, name, v, hv, by simp [henabled, hr]⟩

/-- Readings of a node under a key are of one attribute. -/
def Node.KeyApart (n : Node) (details : DetailSelection) (key : String) : Prop :=
  ∀ x ∈ (n.profile details).readings, ∀ y ∈ (n.profile details).readings,
    dimensionKey x.1 x.2.1 = key → dimensionKey y.1 y.2.1 = key → x.1 = y.1 ∧ x.2.1 = y.2.1

theorem Node.SeparableAt.keyApart {n : Node} {key : String} (h : n.SeparableAt key)
    (details : DetailSelection) : n.KeyApart details key := by
  rintro ⟨category, name, r⟩ hr ⟨category', name', r'⟩ hr' rfl hkey
  obtain ⟨v, hv, -⟩ := Option.bind_eq_some_iff.1 (mem_readings_iff.1 hr).2
  obtain ⟨v', hv', -⟩ := Option.bind_eq_some_iff.1 (mem_readings_iff.1 hr').2
  exact dimensionKey_inj (h.of_find? hv) ((hkey ▸ h).of_find? hv') hkey.symm

theorem Node.mem_keyed_iff {n : Node} {details : DetailSelection} {key : String}
    {r : Reading Float} : (key, r) ∈ (n.profile details).readings.map
      (fun (category, name, r) => (dimensionKey category name, r)) ↔
      ∃ category name, key = dimensionKey category name ∧
        (category, name, r) ∈ (n.profile details).readings := by
  simp only [List.mem_map, Prod.exists, Prod.mk.injEq]
  constructor
  · rintro ⟨category, name, r, hmem, rfl, rfl⟩
    exact ⟨category, name, rfl, hmem⟩
  · rintro ⟨category, name, rfl, hmem⟩
    exact ⟨category, name, r, hmem, rfl, rfl⟩

/-- What a row holds is a reading of its node. -/
theorem Node.mem_readings_of_get?_row {n : Node} {details : DetailSelection} {key : String}
    {r : Reading Float} (h : (Row.ofProfile (n.profile details)).values.get? key = some r) :
    ∃ category name, key = dimensionKey category name ∧
      (category, name, r) ∈ (n.profile details).readings :=
  mem_keyed_iff.1 (Dictionary.mem_of_get?_ofList h)

/-- **Where a key tells readings apart, a row holds under it the enabled attribute that shows
something.** -/
theorem Node.KeyApart.get?_row_eq_some_iff {n : Node} {details : DetailSelection} {key : String}
    (h : n.KeyApart details key) {r : Reading Float} :
    (Row.ofProfile (n.profile details)).values.get? key = some r ↔
      ∃ category name, key = dimensionKey category name ∧
        (category, name, r) ∈ (n.profile details).readings := by
  rw [Row.ofProfile, Dictionary.get?_ofList_eq_some_iff, mem_keyed_iff]
  intro r r' hr hr'
  obtain ⟨c, m, hkey, hmem⟩ := mem_keyed_iff.1 hr
  obtain ⟨c', m', hkey', hmem'⟩ := mem_keyed_iff.1 hr'
  obtain ⟨rfl, rfl⟩ := h _ hmem _ hmem' hkey.symm hkey'.symm
  exact Option.some.inj ((mem_readings_iff.1 hmem).2.symm.trans (mem_readings_iff.1 hmem').2)

namespace Brush

/-! ## The dimensions of a projection -/

section

variable {α : Type} {profiles : List (Profile α)}

/-- The attributes seen, and that of a reading unless one of its key was seen. -/
def declare (seen : List (String × String)) (reading : String × String × Reading α) :
    List (String × String) :=
  if seen.any fun a => dimensionKey a.1 a.2 = dimensionKey reading.1 reading.2.1 then seen
  else seen ++ [(reading.1, reading.2.1)]

theorem declaredBy_eq_foldl (profiles : List (Profile α)) :
    declaredBy profiles = (profiles.flatMap Profile.readings).foldl declare [] := rfl

theorem mem_declare_of_mem {seen : List (String × String)} {a : String × String} (h : a ∈ seen)
    (reading : String × String × Reading α) : a ∈ declare seen reading := by
  unfold declare
  split
  · exact h
  · exact List.mem_append_left _ h

theorem mem_or_eq_of_mem_declare {seen : List (String × String)} {a : String × String}
    {reading : String × String × Reading α} (h : a ∈ declare seen reading) :
    a ∈ seen ∨ a = (reading.1, reading.2.1) := by
  unfold declare at h
  split at h
  · exact .inl h
  · simpa using h

theorem exists_mem_declare (seen : List (String × String))
    (reading : String × String × Reading α) :
    ∃ a ∈ declare seen reading, dimensionKey a.1 a.2 = dimensionKey reading.1 reading.2.1 := by
  unfold declare
  split
  next hany =>
    obtain ⟨a, ha, hkey⟩ := List.any_eq_true.1 hany
    exact ⟨a, ha, of_decide_eq_true hkey⟩
  next => exact ⟨(reading.1, reading.2.1), by simp, rfl⟩

theorem mem_foldl_declare_of_mem {a : String × String}
    (readings : List (String × String × Reading α)) {seen : List (String × String)} (h : a ∈ seen) :
    a ∈ readings.foldl declare seen := by
  induction readings generalizing seen with
  | nil => exact h
  | cons reading readings ih => exact ih (mem_declare_of_mem h reading)

/-- Nothing is declared that was not read. -/
theorem exists_reading_of_mem_declaredBy {a : String × String} (h : a ∈ declaredBy profiles) :
    ∃ p ∈ profiles, ∃ r, (a.1, a.2, r) ∈ p.readings := by
  have hread : ∀ (readings : List (String × String × Reading α)) (seen : List (String × String)),
      a ∈ readings.foldl declare seen → a ∈ seen ∨ ∃ r, (a.1, a.2, r) ∈ readings := by
    intro readings
    induction readings with
    | nil => exact fun _ h => .inl h
    | cons reading readings ih =>
      intro seen h
      rcases ih _ h with hmem | ⟨r, hr⟩
      · rcases mem_or_eq_of_mem_declare hmem with hmem | rfl
        · exact .inl hmem
        · exact .inr ⟨reading.2.2, List.mem_cons_self⟩
      · exact .inr ⟨r, List.mem_cons_of_mem _ hr⟩
  rw [declaredBy_eq_foldl] at h
  obtain ⟨r, hr⟩ := (hread _ _ h).resolve_left List.not_mem_nil
  obtain ⟨p, hp, hmem⟩ := List.mem_flatMap.1 hr
  exact ⟨p, hp, r, hmem⟩

/-- Whatever is read, an attribute of its key is declared. -/
theorem exists_mem_declaredBy {p : Profile α} (hp : p ∈ profiles) {category name : String}
    {r : Reading α} (h : (category, name, r) ∈ p.readings) :
    ∃ a ∈ declaredBy profiles, dimensionKey a.1 a.2 = dimensionKey category name := by
  have hread : (category, name, r) ∈ profiles.flatMap Profile.readings :=
    List.mem_flatMap.2 ⟨p, hp, h⟩
  rw [declaredBy_eq_foldl]
  obtain ⟨before, after, hsplit⟩ := List.append_of_mem hread
  obtain ⟨a, ha, hkey⟩ := exists_mem_declare (before.foldl declare []) (category, name, r)
  rw [hsplit, List.foldl_append, List.foldl_cons]
  exact ⟨a, mem_foldl_declare_of_mem after ha, hkey⟩

end

section

variable {b : Brush Float} {s : Store} {mode : DisplayMode} {details : DetailSelection}
  {schema : Schema}

theorem mem_profiles_iff {p : Profile Float} :
    p ∈ ((s.nodes.filter fun n => mode.admits n.kind).map fun n => n.profile details) ↔
      ∃ n ∈ s.nodes, mode.admits n.kind = true ∧ n.profile details = p := by
  simp only [List.mem_map, List.mem_filter, and_assoc]

theorem dimensions_projectStore (b : Brush Float) (s : Store) (mode : DisplayMode)
    (details : DetailSelection) (schema : Schema) :
    (b.projectStore s mode details schema).dimensions.map (fun d => (d.category, d.name)) =
      declaredBy ((s.nodes.filter fun n => mode.admits n.kind).map fun n => n.profile details) := by
  simp only [projectStore, project, dimensions_recompute, dimensions_adopt, List.map_map]
  exact List.map_id _

/-- A dimension is of an enabled attribute that an admitted node has. -/
theorem enabled_of_mem_dimensions {d : Dimension Float}
    (h : d ∈ (b.projectStore s mode details schema).dimensions) :
    details.isEnabled d.category d.name = true ∧ ∃ n ∈ s.nodes, mode.admits n.kind = true ∧
      ∃ v, n.attributes.find? d.category d.name = some v := by
  have hdeclared := List.mem_map_of_mem (f := fun d => (d.category, d.name)) h
  rw [dimensions_projectStore] at hdeclared
  obtain ⟨p, hp, r, hr⟩ := exists_reading_of_mem_declaredBy hdeclared
  obtain ⟨n, hn, hadmits, rfl⟩ := mem_profiles_iff.1 hp
  obtain ⟨henabled, hshown⟩ := Node.mem_readings_iff.1 hr
  obtain ⟨v, hv, -⟩ := Option.bind_eq_some_iff.1 hshown
  exact ⟨henabled, n, hn, hadmits, v, hv⟩

/-- Every key that a row holds is that of a dimension. -/
theorem exists_dimension_of_get?_row {n : Node} (hn : n ∈ s.nodes)
    (hadmits : mode.admits n.kind = true) {key : String} {r : Reading Float}
    (h : (Row.ofProfile (n.profile details)).values.get? key = some r) :
    ∃ d ∈ (b.projectStore s mode details schema).dimensions, d.key = key := by
  obtain ⟨category, name, rfl, hr⟩ := Node.mem_readings_of_get?_row h
  obtain ⟨a, ha, hkey⟩ := exists_mem_declaredBy (mem_profiles_iff.2 ⟨n, hn, hadmits, rfl⟩) hr
  rw [← b.dimensions_projectStore s mode details schema] at ha
  obtain ⟨d, hd, rfl⟩ := List.mem_map.1 ha
  exact ⟨d, hd, hkey⟩

end

/-! ## Constraints under keys -/

section

variable {α : Type} {b b' : Brush α} {key name : String} {d : Dimension α}

/-- A dimension goes by its key. -/
theorem dimension?_key (h : d ∈ b.dimensions) :
    ∃ d', b.dimension? d.key = some d' ∧ d'.key = d.key := by
  have hfound : (b.dimensions.find? fun d' => d'.key = d.key).isSome = true :=
    List.find?_isSome.2 ⟨d, h, by simp⟩
  obtain ⟨d', hd'⟩ := Option.isSome_iff_exists.1 hfound
  exact ⟨d', by rw [dimension?, hd'], by simpa using List.find?_some hd'⟩

theorem mem_of_dimension? (h : b.dimension? name = some d) : d ∈ b.dimensions := by
  unfold dimension? at h
  split at h
  next hfind =>
    cases h
    exact List.mem_of_find?_eq_some hfind
  next =>
    split at h
    next hfilter =>
      cases h
      exact List.mem_of_mem_filter (hfilter ▸ List.mem_singleton_self d)
    next => cases h

theorem dimension?_congr (h : b'.dimensions = b.dimensions) : b'.dimension? = b.dimension? := by
  funext name
  rw [dimension?, dimension?, h]

/-- A name under which a constraint may be stored: if it means a dimension, it is the key. -/
def IsKey (b : Brush α) (name : String) : Prop := ∀ d, b.dimension? name = some d → d.key = name

theorem isKey_key (h : d ∈ b.dimensions) : b.IsKey d.key := by
  intro d' hd'
  obtain ⟨d'', hd'', hkey⟩ := dimension?_key h
  rw [hd''] at hd'
  exact Option.some.inj hd' ▸ hkey

theorem isKey_keyFor (b : Brush α) (name : String) : b.IsKey (b.keyFor name) := by
  unfold keyFor
  cases h : b.dimension? name with
  | none =>
    intro d hd
    rw [Option.map_none, Option.getD_none, h] at hd
    cases hd
  | some d => exact isKey_key (mem_of_dimension? h)

/-- Every constraint that means a dimension is stored under the key of that dimension. -/
def Qualified (b : Brush α) : Prop := ∀ name ∈ b.state.constraints.keys, b.IsKey name

theorem Qualified.of_keys (h : b.Qualified) (hdimensions : b'.dimensions = b.dimensions)
    (hkeys : ∀ name ∈ b'.state.constraints.keys, name ∈ b.state.constraints.keys ∨ b.IsKey name) :
    b'.Qualified := by
  intro name hname
  rw [IsKey, dimension?_congr hdimensions]
  exact (hkeys name hname).elim (h name) id

theorem mem_keys_insert {constraints : Dictionary String (Constraint α)} {c : Constraint α}
    (h : name ∈ (constraints.insert key c).keys) : name ∈ constraints.keys ∨ name = key := by
  rw [Dictionary.mem_keys_iff, Dictionary.contains_insert] at h
  exact h.symm.imp Dictionary.mem_keys_iff.2 Eq.symm

theorem mem_keys_erase {constraints : Dictionary String (Constraint α)}
    (h : name ∈ (constraints.erase key).keys) : name ∈ constraints.keys ∧ name ≠ key := by
  simp only [Dictionary.mem_keys_iff, Dictionary.contains, Dictionary.get?_erase] at h ⊢
  split at h
  next => cases h
  next hne => exact ⟨h, fun heq => hne heq.symm⟩

/-- Putting the key for a bare name leaves that name out and puts in nothing but the key. -/
theorem mem_keys_qualify {state : BrushState α} {old : String}
    (h : name ∈ (qualify state old key).constraints.keys) :
    name ∈ state.constraints.keys ∧ name ≠ old ∨ name = key := by
  rw [qualify] at h
  cases hold : state.constraints.get? old with
  | none =>
    rw [hold] at h
    refine .inl ⟨h, ?_⟩
    rintro rfl
    rw [Dictionary.mem_keys_iff, Dictionary.contains, hold] at h
    cases h
  | some c =>
    rw [hold] at h
    simp only [Dictionary.insertIfNew] at h
    split at h
    next => exact .inl (mem_keys_erase h)
    next => exact (mem_keys_insert h).imp mem_keys_erase id

theorem mem_keys_foldl_qualify {names : List (String × String)} {state : BrushState α}
    (h : name ∈ (names.foldl (fun s (old, key) => qualify s old key) state).constraints.keys) :
    (name ∈ state.constraints.keys ∧ ∀ old ∈ names, old.1 ≠ name) ∨
      ∃ old ∈ names, old.2 = name := by
  induction names generalizing state with
  | nil => exact .inl ⟨h, nofun⟩
  | cons old names ih =>
    rcases ih h with ⟨hmem, hne⟩ | ⟨old', hmem, hkey⟩
    · rcases mem_keys_qualify hmem with ⟨hmem, hold⟩ | rfl
      · exact .inl ⟨hmem, List.forall_mem_cons.2 ⟨hold.symm, hne⟩⟩
      · exact .inr ⟨old, List.mem_cons_self, rfl⟩
    · exact .inr ⟨old', List.mem_cons_of_mem _ hmem, hkey⟩

/-- What is put for a bare name is a key. -/
theorem isKey_of_mem_bareNames {bare : String × String} (h : bare ∈ b.bareNames) :
    b.IsKey bare.2 := by
  obtain ⟨name, -, hbare⟩ := List.mem_filterMap.1 h
  obtain ⟨d, hd, hkey⟩ := Option.bind_eq_some_iff.1 hbare
  split at hkey
  next => cases hkey
  next =>
    cases hkey
    exact isKey_key (mem_of_dimension? hd)

/-- A state that is taken over is qualified. -/
theorem qualified_adopt (b : Brush α) (state : BrushState α) : (b.adopt state).Qualified := by
  intro name hname
  rw [IsKey, dimension?_congr (b.dimensions_adopt state)]
  rcases mem_keys_foldl_qualify hname with ⟨hstate, hne⟩ | ⟨old, hold, rfl⟩
  · intro d hd
    by_contra hkey
    refine hne (name, d.key) (List.mem_filterMap.2 ⟨name, List.mem_append_left _ hstate, ?_⟩) rfl
    rw [Option.bind_eq_some_iff]
    exact ⟨d, hd, if_neg hkey⟩
  · exact isKey_of_mem_bareNames (b := { b with state }) hold

end

section

variable {α : Type} [AxisNumber α] {b : Brush α}

theorem Qualified.recompute (h : b.Qualified) : b.recompute.Qualified :=
  h.of_keys rfl fun _ => .inl

theorem Qualified.runIf (h : b.Qualified) (asked : Debounce × Bool) :
    (b.runIf asked).1.Qualified := by
  rcases b.runIf_cases asked with ⟨-, heq⟩ | ⟨-, heq⟩ <;> rw [heq] <;>
    exact h.of_keys rfl fun _ => .inl

theorem Qualified.store (h : b.Qualified) (name : String) (c : Option (Constraint α)) :
    (b.store name c).Qualified := by
  refine h.of_keys (b.dimensions_store name c) fun name' hname' => ?_
  simp only [Brush.store] at hname'
  split at hname'
  · rcases mem_keys_insert hname' with hmem | rfl
    · exact .inl hmem
    · exact .inr (b.isKey_keyFor name)
  · exact .inl (mem_keys_erase hname').1

/-- **No command undoes that constraints are stored under keys.** -/
theorem Qualified.execute {b : Brush Float} (h : b.Qualified) (c : BrushCommand) :
    (b.execute c).1.Qualified := by
  cases c with
  | project s mode details schema => exact (qualified_adopt _ _).recompute
  | replaceState state => exact (b.qualified_adopt state).recompute
  | brush name c => exact (h.store name c).recompute
  | clear name => exact (h.store name none).recompute
  | clearAll => exact fun name hname => by cases hname
  | brushCoalesced name c now => exact (h.store name c).runIf _
  | poll now => exact h.runIf _
  | flush now => exact h.runIf _
  | selectExtreme name which =>
    rw [Brush.execute]
    split
    next b' hsome =>
      obtain ⟨d, c, hd, -, rfl⟩ := selectExtreme?_eq_some hsome
      refine h.of_keys rfl fun name' hname' => ?_
      rcases mem_keys_insert hname' with hmem | rfl
      · exact .inl hmem
      · exact .inr (isKey_key (mem_of_dimension? hd))
    next => exact h
  | brushPixels name p q => exact (h.store name _).recompute
  | reorder name position =>
    obtain ⟨order, heq⟩ := b.reorder_cases name position
    rw [Brush.execute, heq]
    exact h.of_keys rfl fun _ => .inl
  | resize length =>
    obtain ⟨axisLength, heq⟩ := b.resize_cases length
    rw [Brush.execute, heq]
    exact h.of_keys rfl fun _ => .inl

theorem qualified_projectStore (b : Brush Float) (s : Store) (mode : DisplayMode)
    (details : DetailSelection) (schema : Schema) :
    (b.projectStore s mode details schema).Qualified :=
  (qualified_adopt _ _).recompute

end

end Brush

end StateAtlas
