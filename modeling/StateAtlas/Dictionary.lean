/-!
Dictionaries and sets kept in the order of their keys.

A `Dictionary` is a list of entries whose keys strictly increase.  Two dictionaries with the
same entries are therefore equal as values, whatever the order in which the entries were put
in, and listing the entries always gives the same order.  An `OrderedSet` is a dictionary that
carries nothing beside its keys.

The lemmas say what each operation does to `get?` and to membership; nothing else needs to look
at the list.
-/

namespace StateAtlas

/-- Entries under distinct keys, listed by increasing key. -/
structure Dictionary (κ β : Type) [Ord κ] where
  /-- The entries, smallest key first. -/
  entries : List (κ × β)
  /-- Keys strictly increase along the list. -/
  sorted : entries.Pairwise fun a b => compare a.1 b.1 = .lt

namespace Dictionary

variable {κ β γ : Type} [Ord κ]

/-- The dictionary without entries. -/
def empty : Dictionary κ β := ⟨[], .nil⟩

instance : EmptyCollection (Dictionary κ β) := ⟨empty⟩
instance : Inhabited (Dictionary κ β) := ⟨empty⟩

/-- The keys, smallest first. -/
def keys (d : Dictionary κ β) : List κ := d.entries.map Prod.fst

/-- The values, in the order of their keys. -/
def values (d : Dictionary κ β) : List β := d.entries.map Prod.snd

/-- The number of entries. -/
def size (d : Dictionary κ β) : Nat := d.entries.length

/-- Whether there is no entry. -/
def isEmpty (d : Dictionary κ β) : Bool := d.entries.isEmpty

/-- The value under `k`. -/
def get? [DecidableEq κ] (d : Dictionary κ β) (k : κ) : Option β :=
  (d.entries.find? fun e => e.1 = k).map Prod.snd

/-- Whether there is an entry under `k`. -/
def contains [DecidableEq κ] (d : Dictionary κ β) (k : κ) : Bool := (d.get? k).isSome

/-- The entries that satisfy a test. -/
def filter (d : Dictionary κ β) (p : κ → β → Bool) : Dictionary κ β :=
  ⟨d.entries.filter fun e => p e.1 e.2, d.sorted.filter _⟩

/-- The dictionary without the entry under `k`. -/
def erase [DecidableEq κ] (d : Dictionary κ β) (k : κ) : Dictionary κ β :=
  d.filter fun k' _ => k' ≠ k

/-- Every value replaced, the keys kept. -/
def mapValues (d : Dictionary κ β) (f : β → γ) : Dictionary κ γ :=
  ⟨d.entries.map fun e => (e.1, f e.2), List.pairwise_map.2 d.sorted⟩

/-- Puts a value under a key into a list of entries, over the value it may hold. -/
def insertEntry (k : κ) (v : β) : List (κ × β) → List (κ × β)
  | [] => [(k, v)]
  | e :: rest =>
    match compare k e.1 with
    | .lt => (k, v) :: e :: rest
    | .eq => (k, v) :: rest
    | .gt => e :: insertEntry k v rest

theorem fst_of_mem_insertEntry {k : κ} {v : β} {es : List (κ × β)} {e : κ × β}
    (h : e ∈ insertEntry k v es) : e = (k, v) ∨ e ∈ es := by
  induction es with
  | nil => simpa [insertEntry] using h
  | cons e' rest ih =>
    rw [insertEntry] at h
    split at h
    · simpa using h
    · rcases List.mem_cons.1 h with h | h
      · exact .inl h
      · exact .inr (List.mem_cons_of_mem _ h)
    · rcases List.mem_cons.1 h with h | h
      · exact .inr (h ▸ List.mem_cons_self)
      · exact (ih h).imp id (List.mem_cons_of_mem _)

variable [DecidableEq κ] [Std.TransOrd κ] [Std.LawfulEqOrd κ]

omit [DecidableEq κ] in
theorem pairwise_insertEntry (k : κ) (v : β) {es : List (κ × β)}
    (h : es.Pairwise fun a b => compare a.1 b.1 = .lt) :
    (insertEntry k v es).Pairwise fun a b => compare a.1 b.1 = .lt := by
  induction es with
  | nil => simp [insertEntry]
  | cons e rest ih =>
    obtain ⟨hhead, hrest⟩ := List.pairwise_cons.1 h
    rw [insertEntry]
    split
    next hlt =>
      refine List.pairwise_cons.2 ⟨?_, h⟩
      intro x hx
      rcases List.mem_cons.1 hx with rfl | hx
      · exact hlt
      · exact Std.TransCmp.lt_trans hlt (hhead x hx)
    next heq =>
      obtain rfl : k = e.1 := Std.LawfulEqCmp.eq_of_compare heq
      exact List.pairwise_cons.2 ⟨hhead, hrest⟩
    next hgt =>
      refine List.pairwise_cons.2 ⟨?_, ih hrest⟩
      intro x hx
      rcases fst_of_mem_insertEntry hx with rfl | hx
      · exact Std.OrientedCmp.lt_of_gt hgt
      · exact hhead x hx

/-- Puts a value under a key, over the value it may hold. -/
def insert (d : Dictionary κ β) (k : κ) (v : β) : Dictionary κ β :=
  ⟨insertEntry k v d.entries, pairwise_insertEntry k v d.sorted⟩

/-- Puts a value under a key that holds none. -/
def insertIfNew (d : Dictionary κ β) (k : κ) (v : β) : Dictionary κ β :=
  if d.contains k then d else d.insert k v

/-- Replaces the value under a key, starting from `fresh` where there is none. -/
def update (d : Dictionary κ β) (k : κ) (fresh : β) (f : β → β) : Dictionary κ β :=
  d.insert k (f ((d.get? k).getD fresh))

/-- Replaces the value under a key, if there is one. -/
def modify (d : Dictionary κ β) (k : κ) (f : β → β) : Dictionary κ β :=
  match d.get? k with
  | some v => d.insert k (f v)
  | none => d

/-- Replaces the values under several keys, as far as there are any. -/
def modifyMany (d : Dictionary κ β) (ks : List κ) (f : β → β) : Dictionary κ β :=
  ks.foldl (fun d k => d.modify k f) d

/-- The dictionary of a list of pairs; of two pairs with one key the later counts. -/
def ofList (es : List (κ × β)) : Dictionary κ β :=
  es.foldl (fun d e => d.insert e.1 e.2) empty

/-- The entries of `e` put over those of `d`. -/
def override (d e : Dictionary κ β) : Dictionary κ β :=
  e.entries.foldl (fun d e => d.insert e.1 e.2) d

/-! ## Looking up -/

omit [Std.TransOrd κ] in
theorem find?_insertEntry (k k' : κ) (v : β) (es : List (κ × β)) :
    (insertEntry k v es).find? (fun e => e.1 = k') =
      if k = k' then some (k, v) else es.find? (fun e => e.1 = k') := by
  induction es with
  | nil => by_cases h : k = k' <;> simp [insertEntry, h]
  | cons e rest ih =>
    rw [insertEntry]
    split
    next => by_cases h : k = k' <;> simp [h]
    next heq =>
      obtain rfl : k = e.1 := Std.LawfulEqCmp.eq_of_compare heq
      by_cases h : e.1 = k' <;> simp [h]
    next hgt =>
      by_cases h : k = k'
      · subst h
        have hne : e.1 ≠ k := by
          rintro rfl
          simp at hgt
        simp [ih, hne]
      · simp [List.find?_cons, ih, h]

omit [Std.TransOrd κ] [Std.LawfulEqOrd κ] in
@[simp] theorem get?_empty (k : κ) : (∅ : Dictionary κ β).get? k = none := rfl

theorem get?_insert (d : Dictionary κ β) (k k' : κ) (v : β) :
    (d.insert k v).get? k' = if k = k' then some v else d.get? k' := by
  simp only [get?, insert, find?_insertEntry]
  split <;> simp_all

@[simp] theorem get?_insert_self (d : Dictionary κ β) (k : κ) (v : β) :
    (d.insert k v).get? k = some v := by
  simp [get?_insert]

theorem contains_insert (d : Dictionary κ β) (k k' : κ) (v : β) :
    (d.insert k v).contains k' = true ↔ k = k' ∨ d.contains k' = true := by
  simp only [contains, get?_insert]
  split <;> simp_all

theorem get?_update (d : Dictionary κ β) (k k' : κ) (fresh : β) (f : β → β) :
    (d.update k fresh f).get? k' =
      if k = k' then some (f ((d.get? k).getD fresh)) else d.get? k' :=
  get?_insert ..

theorem get?_modify (d : Dictionary κ β) (k k' : κ) (f : β → β) :
    (d.modify k f).get? k' = if k = k' then (d.get? k').map f else d.get? k' := by
  unfold modify
  cases hk : d.get? k with
  | none =>
    by_cases h : k = k'
    · subst h
      simp [hk]
    · simp [h]
  | some v =>
    by_cases h : k = k'
    · subst h
      simp [hk]
    · simp [get?_insert, h]

theorem get?_modifyMany {ks : List κ} (h : ks.Nodup) (d : Dictionary κ β) (f : β → β) (k : κ) :
    (d.modifyMany ks f).get? k = if k ∈ ks then (d.get? k).map f else d.get? k := by
  induction ks generalizing d with
  | nil => rfl
  | cons k' ks ih =>
    obtain ⟨hnot, hks⟩ := List.nodup_cons.1 h
    rw [modifyMany, List.foldl_cons, ← modifyMany, ih hks, get?_modify]
    by_cases hk : k' = k
    · subst hk
      simp [hnot]
    · simp [hk, Ne.symm hk]

/-- A change that cannot be seen through `g` cannot be seen through it in any value. -/
theorem map_get?_modify {f : β → β} {g : β → γ} (hfg : ∀ v, g (f v) = g v) (d : Dictionary κ β)
    (k k' : κ) : ((d.modify k f).get? k').map g = (d.get? k').map g := by
  rw [get?_modify]
  split
  · rw [Option.map_map]
    exact congrArg (fun h => (d.get? k').map h) (funext hfg)
  · rfl

theorem map_get?_modifyMany {f : β → β} {g : β → γ} (hfg : ∀ v, g (f v) = g v)
    (d : Dictionary κ β) (ks : List κ) (k : κ) :
    ((d.modifyMany ks f).get? k).map g = (d.get? k).map g := by
  induction ks generalizing d with
  | nil => rfl
  | cons k' ks ih => exact (ih (d.modify k' f)).trans (map_get?_modify hfg d k' k)

omit [Std.TransOrd κ] [Std.LawfulEqOrd κ] in
theorem get?_erase (d : Dictionary κ β) (k k' : κ) :
    (d.erase k).get? k' = if k = k' then none else d.get? k' := by
  unfold erase filter get?
  rw [List.find?_filter]
  by_cases h : k = k'
  · subst h
    simp
  · rw [if_neg h]
    congr 2
    funext e
    by_cases he : e.1 = k'
    · simp [he, Ne.symm h]
    · simp [he]

omit [Std.TransOrd κ] [Std.LawfulEqOrd κ] in
@[simp] theorem get?_mapValues (d : Dictionary κ β) (f : β → γ) (k : κ) :
    (d.mapValues f).get? k = (d.get? k).map f := by
  simp only [get?, mapValues, List.find?_map, Option.map_map]
  rfl

omit [Std.TransOrd κ] [Std.LawfulEqOrd κ] in
theorem mem_keys_iff {d : Dictionary κ β} {k : κ} : k ∈ d.keys ↔ d.contains k = true := by
  simp only [contains, get?, keys, Option.isSome_map, List.find?_isSome, decide_eq_true_eq,
    List.mem_map]

omit [Std.TransOrd κ] in
theorem find?_eq_some_of_mem {k : κ} {v : β} {es : List (κ × β)}
    (hsorted : es.Pairwise fun a b => compare a.1 b.1 = .lt) (h : (k, v) ∈ es) :
    es.find? (fun e => e.1 = k) = some (k, v) := by
  induction es with
  | nil => cases h
  | cons e rest ih =>
    obtain ⟨hhead, hrest⟩ := List.pairwise_cons.1 hsorted
    rcases List.mem_cons.1 h with rfl | hmem
    · simp
    · have hne : e.1 ≠ k := by
        rintro rfl
        simpa using hhead _ hmem
      rw [List.find?_cons_of_neg (by simpa using hne), ih hrest hmem]

omit [Std.TransOrd κ] in
/-- As keys are distinct, what is found under a key is what the entries list. -/
theorem get?_eq_some_iff {d : Dictionary κ β} {k : κ} {v : β} :
    d.get? k = some v ↔ (k, v) ∈ d.entries := by
  constructor
  · intro h
    obtain ⟨e, he, rfl⟩ := Option.map_eq_some_iff.1 h
    obtain rfl : e.1 = k := by simpa using List.find?_some he
    exact List.mem_of_find?_eq_some he
  · intro h
    rw [get?, find?_eq_some_of_mem d.sorted h]
    rfl

theorem get?_foldl_insert {es : List (κ × β)} {d : Dictionary κ β} {k : κ} {v : β}
    (h : (es.foldl (fun d e => d.insert e.1 e.2) d).get? k = some v) :
    (k, v) ∈ es ∨ d.get? k = some v := by
  induction es generalizing d with
  | nil => exact .inr h
  | cons e es ih =>
    rcases ih h with hmem | hget
    · exact .inl (List.mem_cons_of_mem _ hmem)
    · rw [get?_insert] at hget
      split at hget
      next hkey =>
        obtain rfl := Option.some.inj hget
        exact .inl (hkey ▸ List.mem_cons_self)
      next => exact .inr hget

theorem contains_foldl_insert {es : List (κ × β)} {d : Dictionary κ β} {k : κ}
    (h : (∃ e ∈ es, e.1 = k) ∨ d.contains k = true) :
    (es.foldl (fun d e => d.insert e.1 e.2) d).contains k = true := by
  induction es generalizing d with
  | nil => simpa using h
  | cons e es ih =>
    refine ih ?_
    rw [contains_insert]
    rcases h with ⟨e', hmem, hkey⟩ | hd
    · rcases List.mem_cons.1 hmem with rfl | hmem
      · exact .inr (.inl hkey)
      · exact .inl ⟨e', hmem, hkey⟩
    · exact .inr (.inr hd)

theorem mem_of_get?_ofList {es : List (κ × β)} {k : κ} {v : β} (h : (ofList es).get? k = some v) :
    (k, v) ∈ es :=
  (get?_foldl_insert h).resolve_right (by simp [empty, get?])

/-- If a list has no two values for a key, its dictionary finds just what the list holds there. -/
theorem get?_ofList_eq_some_iff {es : List (κ × β)} {k : κ}
    (h : ∀ v v', (k, v) ∈ es → (k, v') ∈ es → v = v') {v : β} :
    (ofList es).get? k = some v ↔ (k, v) ∈ es := by
  refine ⟨mem_of_get?_ofList, fun hv => ?_⟩
  obtain ⟨v', hv'⟩ := Option.isSome_iff_exists.1
    (contains_foldl_insert (.inl ⟨_, hv, rfl⟩) : (ofList es).contains k = true)
  exact h v v' hv (mem_of_get?_ofList hv') ▸ hv'

/-! ## Listing in an order of one's own

The values of a dictionary can be listed in another order than that of their keys, as long as that
order names keys of the dictionary only and each value tells its key. -/

omit [Std.TransOrd κ] [Std.LawfulEqOrd κ] in
theorem map_filterMap_get? {d : Dictionary κ β} {order : List κ} {name : β → κ}
    (hname : ∀ {k v}, d.get? k = some v → name v = k)
    (hmem : ∀ k ∈ order, d.contains k = true) : (order.filterMap d.get?).map name = order := by
  induction order with
  | nil => rfl
  | cons k order ih =>
    obtain ⟨v, hv⟩ := Option.isSome_iff_exists.1 (hmem k List.mem_cons_self)
    rw [List.filterMap_cons_some hv, List.map_cons, hname hv,
      ih fun k' hk' => hmem k' (List.mem_cons_of_mem _ hk')]

omit [Std.TransOrd κ] [Std.LawfulEqOrd κ] in
theorem find?_filterMap_get? {d : Dictionary κ β} {order : List κ} {name : β → κ}
    (hname : ∀ {k v}, d.get? k = some v → name v = k)
    (hmem : ∀ k, k ∈ order ↔ d.contains k = true) (k : κ) :
    (order.filterMap d.get?).find? (fun v => name v = k) = d.get? k := by
  cases hv : d.get? k with
  | none =>
    refine List.find?_eq_none.2 fun v hmemv => ?_
    obtain ⟨k', -, hv'⟩ := List.mem_filterMap.1 hmemv
    have hne : name v ≠ k := by
      rintro rfl
      rw [hname hv', hv'] at hv
      simp at hv
    simpa using hne
  | some v =>
    have hk : k ∈ order := (hmem k).2 (by simp [contains, hv])
    have hfound : ((order.filterMap d.get?).find? fun v => name v = k).isSome = true :=
      List.find?_isSome.2 ⟨v, List.mem_filterMap.2 ⟨k, hk, hv⟩, by simp [hname hv]⟩
    obtain ⟨w, hw⟩ := Option.isSome_iff_exists.1 hfound
    obtain ⟨k', -, hw'⟩ := List.mem_filterMap.1 (List.mem_of_find?_eq_some hw)
    have hkey : name w = k := by simpa using List.find?_some hw
    rw [hw, ← hv, ← hw', ← hname hw', hkey]

omit [Std.TransOrd κ] [Std.LawfulEqOrd κ] in
theorem filterMap_eq_map_filterMap_get? {d : Dictionary κ β} {order : List κ} {f : κ → Option γ}
    {g : β → γ} (h : ∀ k ∈ order, f k = (d.get? k).map g) :
    order.filterMap f = (order.filterMap d.get?).map g := by
  induction order with
  | nil => rfl
  | cons k order ih =>
    rw [List.filterMap_cons, h k List.mem_cons_self,
      ih fun k' hk' => h k' (List.mem_cons_of_mem _ hk')]
    cases hv : d.get? k with
    | none => simp [hv]
    | some v => simp [hv]

end Dictionary

/-! ## Sets -/

/-- Distinct elements, listed in increasing order. -/
structure OrderedSet (κ : Type) [Ord κ] where
  /-- The elements, as the keys of a dictionary. -/
  index : Dictionary κ Unit

namespace OrderedSet

variable {κ : Type} [Ord κ]

/-- The set without elements. -/
def empty : OrderedSet κ := ⟨.empty⟩

instance : EmptyCollection (OrderedSet κ) := ⟨empty⟩
instance : Inhabited (OrderedSet κ) := ⟨empty⟩

/-- The elements, smallest first. -/
def toList (s : OrderedSet κ) : List κ := s.index.keys

/-- The number of elements. -/
def size (s : OrderedSet κ) : Nat := s.index.size

/-- Whether the set has no element. -/
def isEmpty (s : OrderedSet κ) : Bool := s.index.isEmpty

/-- Whether `k` is an element. -/
def contains [DecidableEq κ] (s : OrderedSet κ) (k : κ) : Bool := s.index.contains k

/-- The set without `k`. -/
def erase [DecidableEq κ] (s : OrderedSet κ) (k : κ) : OrderedSet κ := ⟨s.index.erase k⟩

variable [DecidableEq κ] [Std.TransOrd κ] [Std.LawfulEqOrd κ]

/-- The set with `k`. -/
def insert (s : OrderedSet κ) (k : κ) : OrderedSet κ := ⟨s.index.insert k ()⟩

/-- The set with every element of a list. -/
def insertMany (s : OrderedSet κ) (ks : List κ) : OrderedSet κ := ks.foldl insert s

/-- The elements of a list. -/
def ofList (ks : List κ) : OrderedSet κ := insertMany empty ks

omit [Std.TransOrd κ] [Std.LawfulEqOrd κ] in
@[simp] theorem contains_empty (k : κ) : (∅ : OrderedSet κ).contains k = false := rfl

theorem contains_insert (s : OrderedSet κ) (k k' : κ) :
    (s.insert k).contains k' = true ↔ k = k' ∨ s.contains k' = true :=
  Dictionary.contains_insert ..

omit [Std.TransOrd κ] [Std.LawfulEqOrd κ] in
theorem contains_erase (s : OrderedSet κ) (k k' : κ) :
    (s.erase k).contains k' = true ↔ k ≠ k' ∧ s.contains k' = true := by
  simp only [contains, erase, Dictionary.contains, Dictionary.get?_erase]
  split <;> simp_all

theorem contains_insertMany (s : OrderedSet κ) (ks : List κ) (k : κ) :
    (s.insertMany ks).contains k = true ↔ k ∈ ks ∨ s.contains k = true := by
  induction ks generalizing s with
  | nil => simp [insertMany]
  | cons a ks ih =>
    rw [insertMany, List.foldl_cons, ← insertMany, ih, contains_insert, List.mem_cons]
    grind

end OrderedSet

/-! ## Lists in an order of their own -/

theorem nodup_eraseDups {α : Type} [BEq α] [LawfulBEq α] (as : List α) : as.eraseDups.Nodup := by
  induction hlength : as.length using Nat.strongRecOn generalizing as with
  | ind n ih =>
    cases as with
    | nil => simp
    | cons a as =>
      rw [List.eraseDups_cons, List.nodup_cons]
      constructor
      · simp
      · have hle := List.length_filter_le (fun b => !b == a) as
        rw [List.length_cons] at hlength
        exact ih _ (by omega) _ rfl

end StateAtlas
