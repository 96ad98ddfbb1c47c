import Mathlib.Data.List.Nodup
import StateAtlas.Dictionary
/-!
Dictionaries as what is found in them.

As entries are kept in the order of their keys, two dictionaries in which the same is found under
every key are equal.  So changes under different keys commute, and a value that is put back where it
was changes nothing.
-/

namespace StateAtlas

namespace Dictionary

variable {κ β γ : Type} [Ord κ] [Std.TransOrd κ] [Std.LawfulEqOrd κ] {d e : Dictionary κ β}

/-! ## Keys -/

omit [Std.TransOrd κ] in
theorem nodup_keys (d : Dictionary κ β) : d.keys.Nodup := by
  refine List.pairwise_map.2 (d.sorted.imp fun {a b} hlt heq => ?_)
  rw [heq] at hlt
  simp at hlt

omit [Std.TransOrd κ] in
theorem nodup_entries (d : Dictionary κ β) : d.entries.Nodup := d.nodup_keys.of_map _

variable [DecidableEq κ]

omit [Std.TransOrd κ] in
theorem get?_filter_eq_some_iff {p : κ → β → Bool} {k : κ} {v : β} :
    (d.filter p).get? k = some v ↔ d.get? k = some v ∧ p k v = true := by
  rw [get?_eq_some_iff, get?_eq_some_iff]
  exact List.mem_filter

omit [Std.TransOrd κ] in
/-- There are as many entries as there are names that are contained. -/
theorem size_eq_length {ks : List κ} (hnodup : ks.Nodup)
    (h : ∀ k, d.contains k = true ↔ k ∈ ks) : d.size = ks.length := by
  have hperm : d.keys.Perm ks :=
    (List.perm_ext_iff_of_nodup d.nodup_keys hnodup).2 fun k => mem_keys_iff.trans (h k)
  rw [← hperm.length_eq, keys, List.length_map, size]

/-! ## Equality -/

/-- **Dictionaries in which the same is found are equal.** -/
theorem ext_get? (h : ∀ k, d.get? k = e.get? k) : d = e := by
  have hmem : ∀ x, x ∈ d.entries ↔ x ∈ e.entries := fun (k, v) => by
    rw [← get?_eq_some_iff, ← get?_eq_some_iff, h k]
  have hperm : d.entries.Perm e.entries :=
    (List.perm_ext_iff_of_nodup d.nodup_entries e.nodup_entries).2 hmem
  -- No two keys come each before the other.
  have hentries : d.entries = e.entries := by
    refine hperm.eq_of_pairwise (fun a b _ _ hab hba => ?_) d.sorted e.sorted
    exact absurd hba (Std.OrientedCmp.not_lt_of_lt hab)
  cases d
  cases e
  cases hentries
  rfl

omit [Std.TransOrd κ] [Std.LawfulEqOrd κ] [DecidableEq κ] in
theorem eq_empty_of_isEmpty (h : d.isEmpty = true) : d = ∅ := by
  obtain ⟨entries, sorted⟩ := d
  obtain rfl : entries = [] := List.isEmpty_iff.1 h
  rfl

/-- A dictionary is that of its entries. -/
theorem ofList_entries (d : Dictionary κ β) : ofList d.entries = d := by
  refine ext_get? fun k => Option.ext fun v => ?_
  rw [get?_ofList_eq_some_iff, get?_eq_some_iff]
  intro v v' hv hv'
  exact Option.some.inj ((get?_eq_some_iff.2 hv).symm.trans (get?_eq_some_iff.2 hv'))

theorem mem_of_mem_entries_ofList {es : List (κ × β)} {e : κ × β} (h : e ∈ (ofList es).entries) :
    e ∈ es :=
  mem_of_get?_ofList (get?_eq_some_iff.2 h)

/-- Only what a change makes of the value that is there counts. -/
theorem modify_congr {k : κ} {v : β} {f g : β → β} (h : d.get? k = some v) (hfg : f v = g v) :
    d.modify k f = d.modify k g := by
  refine ext_get? fun k' => ?_
  simp only [get?_modify]
  split
  next hk =>
    subst hk
    rw [h, Option.map_some, Option.map_some, hfg]
  next => rfl

/-- A change that leaves the value that is there as it is changes nothing. -/
theorem modify_eq_self {k : κ} {v : β} {f : β → β} (h : d.get? k = some v) (hf : f v = v) :
    d.modify k f = d := by
  refine ext_get? fun k' => ?_
  rw [get?_modify]
  split
  next hk =>
    subst hk
    rw [h, Option.map_some, hf]
  next => rfl

/-- Of two changes under one key, the second is made to what the first made. -/
theorem modify_modify (d : Dictionary κ β) (k : κ) (f g : β → β) :
    (d.modify k f).modify k g = d.modify k fun v => g (f v) := by
  refine ext_get? fun k' => ?_
  simp only [get?_modify]
  split
  · rw [Option.map_map]
    rfl
  · rfl

/-- Changes under different keys commute. -/
theorem modify_comm (d : Dictionary κ β) {k k' : κ} (hne : k ≠ k') (f g : β → β) :
    (d.modify k f).modify k' g = (d.modify k' g).modify k f := by
  refine ext_get? fun j => ?_
  simp only [get?_modify]
  by_cases hk : k = j
  · subst hk
    simp [Ne.symm hne]
  · simp [hk]

/-- A change of one value can be made before or after all values are replaced. -/
theorem mapValues_modify (d : Dictionary κ β) (k : κ) {f : β → β} {g : β → γ} {r : γ → γ}
    (h : ∀ v, g (f v) = r (g v)) : (d.modify k f).mapValues g = (d.mapValues g).modify k r := by
  refine ext_get? fun j => ?_
  simp only [get?_modify, get?_mapValues]
  split
  · simp only [Option.map_map, Function.comp_def, h]
  · rfl

theorem mapValues_modifyMany (d : Dictionary κ β) (ks : List κ) {f : β → β} {g : β → γ}
    {r : γ → γ} (h : ∀ v, g (f v) = r (g v)) :
    (d.modifyMany ks f).mapValues g = (d.mapValues g).modifyMany ks r := by
  induction ks generalizing d with
  | nil => rfl
  | cons k ks ih => exact (ih (d.modify k f)).trans (by rw [mapValues_modify d k h]; rfl)

theorem mapValues_insert (d : Dictionary κ β) (k : κ) (v : β) (g : β → γ) :
    (d.insert k v).mapValues g = (d.mapValues g).insert k (g v) := by
  refine ext_get? fun j => ?_
  simp only [get?_insert, get?_mapValues]
  split
  · rfl
  · rfl

theorem mapValues_erase (d : Dictionary κ β) (k : κ) (g : β → γ) :
    (d.erase k).mapValues g = (d.mapValues g).erase k := by
  refine ext_get? fun j => ?_
  simp only [get?_erase, get?_mapValues]
  split
  · rfl
  · rfl

theorem mapValues_mapValues {δ : Type} (d : Dictionary κ β) (f : β → γ) (g : γ → δ) :
    (d.mapValues f).mapValues g = d.mapValues fun v => g (f v) := by
  refine ext_get? fun k => ?_
  simp only [get?_mapValues, Option.map_map]
  rfl

omit [Std.TransOrd κ] [Std.LawfulEqOrd κ] [DecidableEq κ] in
@[simp] theorem keys_mapValues (d : Dictionary κ β) (g : β → γ) :
    (d.mapValues g).keys = d.keys := by
  simp [keys, mapValues]

omit [Std.TransOrd κ] [Std.LawfulEqOrd κ] [DecidableEq κ] in
@[simp] theorem values_mapValues (d : Dictionary κ β) (g : β → γ) :
    (d.mapValues g).values = d.values.map g := by
  simp [values, mapValues]

omit [Std.TransOrd κ] [Std.LawfulEqOrd κ] [DecidableEq κ] in
@[simp] theorem size_mapValues (d : Dictionary κ β) (g : β → γ) :
    (d.mapValues g).size = d.size := by
  simp [size, mapValues]

omit [Std.TransOrd κ] [Std.LawfulEqOrd κ] [DecidableEq κ] in
@[simp] theorem isEmpty_mapValues (d : Dictionary κ β) (g : β → γ) :
    (d.mapValues g).isEmpty = d.isEmpty := by
  simp [isEmpty, mapValues]

omit [Std.TransOrd κ] [Std.LawfulEqOrd κ] in
@[simp] theorem contains_mapValues (d : Dictionary κ β) (k : κ) (g : β → γ) :
    (d.mapValues g).contains k = d.contains k := by
  simp [contains]

end Dictionary

/-! ## Lists of named values -/

section

variable {κ β : Type} [DecidableEq κ] {xs : List β} {name : β → κ}

/-- Where names are distinct, each value is found by its name. -/
theorem find?_name (hnodup : (xs.map name).Nodup) {x : β} (hx : x ∈ xs) :
    (xs.find? fun y => name y = name x) = some x := by
  have hfound : (xs.find? fun y => name y = name x).isSome = true :=
    List.find?_isSome.2 ⟨x, hx, by simp⟩
  obtain ⟨y, hy⟩ := Option.isSome_iff_exists.1 hfound
  have hname : name y = name x := by simpa using List.find?_some hy
  rw [hy, List.inj_on_of_nodup_map hnodup (List.mem_of_find?_eq_some hy) hx hname]

/-- Where names are distinct, values are what is found by their names. -/
theorem filterMap_find?_names (hnodup : (xs.map name).Nodup) {ys : List β} (hys : ys ⊆ xs) :
    ((ys.map name).filterMap fun k => xs.find? fun x => name x = k) = ys := by
  have hfound : ys.filterMap (fun y => xs.find? fun x => name x = name y) = ys.filterMap some :=
    List.filterMap_congr fun y hy => find?_name hnodup (hys hy)
  rw [List.filterMap_map]
  exact hfound.trans List.filterMap_some

end

/-! ## Sets -/

namespace OrderedSet

variable {κ : Type} [Ord κ] [Std.LawfulEqOrd κ]

theorem nodup_toList (s : OrderedSet κ) : s.toList.Nodup := s.index.nodup_keys

omit [Std.LawfulEqOrd κ] in
theorem mem_toList [DecidableEq κ] {s : OrderedSet κ} {k : κ} :
    k ∈ s.toList ↔ s.contains k = true :=
  Dictionary.mem_keys_iff

omit [Std.LawfulEqOrd κ] in
theorem isEmpty_iff [DecidableEq κ] {s : OrderedSet κ} :
    s.isEmpty = true ↔ ∀ k, ¬s.contains k = true := by
  simp only [← mem_toList, toList, Dictionary.keys, isEmpty, Dictionary.isEmpty, List.isEmpty_iff]
  rw [← List.eq_nil_iff_forall_not_mem, List.map_eq_nil_iff]

/-- Sets with the same elements are equal. -/
theorem ext_contains [DecidableEq κ] [Std.TransOrd κ] {s s' : OrderedSet κ}
    (h : ∀ k, s.contains k = true ↔ s'.contains k = true) : s = s' := by
  cases s with | mk d
  cases s' with | mk e
  refine congrArg OrderedSet.mk (Dictionary.ext_get? fun k => Option.ext fun v => ?_)
  have hk : (d.get? k).isSome = true ↔ (e.get? k).isSome = true := h k
  cases hd : d.get? k <;> cases he : e.get? k <;> simp_all

theorem contains_ofList [DecidableEq κ] [Std.TransOrd κ] (ks : List κ) (k : κ) :
    (ofList ks).contains k = true ↔ k ∈ ks := by
  rw [ofList, contains_insertMany]
  exact or_iff_left (fun h => Bool.noConfusion h)

end OrderedSet

end StateAtlas
