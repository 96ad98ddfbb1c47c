import StateAtlas.Proofs.Dictionary
import StateAtlas.Proofs.Json.Numbers
/-!
The structure of JSON values: how deep they are nested, which numbers stand in them, and what of this
their canonical form keeps.

A value is legible to a depth if it has no piece without a value, its numbers can stand in JSON text
and it is nested no deeper.
-/

namespace StateAtlas.Json

/-! ## Values and their parts -/

/-- What holds of a list or record if it holds of all of its parts, and of any other value, holds of
all values. -/
@[elab_as_elim]
theorem parts_induction {P : Json → Prop} (null : P .null) (bool : ∀ b, P (.bool b))
    (number : ∀ n, P (.number n)) (text : ∀ s, P (.text s)) (unreadable : P .unreadable)
    (list : ∀ items, (∀ j ∈ items, P j) → P (.list items))
    (record : ∀ fields, (∀ f ∈ fields, P f.2) → P (.record fields)) (j : Json) : P j :=
  match j with
  | .null => null
  | .bool b => bool b
  | .number n => number n
  | .text s => text s
  | .unreadable => unreadable
  | .list items =>
    list items fun j _ => parts_induction null bool number text unreadable list record j
  | .record fields =>
    record fields fun f _ => parts_induction null bool number text unreadable list record f.2
termination_by sizeOf j
decreasing_by
  · have hpart := List.sizeOf_lt_of_mem ‹j ∈ items›
    simp only [Json.list.sizeOf_spec]
    omega
  · have hpart := List.sizeOf_lt_of_mem ‹f ∈ fields›
    have hfield : sizeOf f = 1 + sizeOf f.1 + sizeOf f.2 := rfl
    simp only [Json.record.sizeOf_spec]
    omega

theorem allReadable_iff {items : List Json} :
    allReadable items = true ↔ ∀ j ∈ items, j.isReadable = true := by
  induction items with
  | nil => simp [allReadable]
  | cons j items ih => simp [allReadable, ih]

theorem allFieldsReadable_iff {fields : List (String × Json)} :
    allFieldsReadable fields = true ↔ ∀ f ∈ fields, f.2.isReadable = true := by
  induction fields with
  | nil => simp [allFieldsReadable]
  | cons f fields ih => simp [allFieldsReadable, ih]

mutual

/-- How deep lists and records are nested. -/
def height : Json → Nat
  | .list items => heightEach items + 1
  | .record fields => heightFields fields + 1
  | _ => 0

def heightEach : List Json → Nat
  | [] => 0
  | j :: rest => max (height j) (heightEach rest)

def heightFields : List (String × Json) → Nat
  | [] => 0
  | (_, j) :: rest => max (height j) (heightFields rest)

end

theorem heightEach_le_iff {items : List Json} {depth : Nat} :
    heightEach items ≤ depth ↔ ∀ j ∈ items, j.height ≤ depth := by
  induction items with
  | nil => simp [heightEach]
  | cons j items ih => rw [heightEach, Nat.max_le, ih, List.forall_mem_cons]

theorem heightFields_le_iff {fields : List (String × Json)} {depth : Nat} :
    heightFields fields ≤ depth ↔ ∀ f ∈ fields, f.2.height ≤ depth := by
  induction fields with
  | nil => simp [heightFields]
  | cons f fields ih => rw [heightFields, Nat.max_le, ih, List.forall_mem_cons]

mutual

/-- The numbers in a value. -/
def numbers : Json → List Number
  | .number n => [n]
  | .list items => numbersOfEach items
  | .record fields => numbersOfFields fields
  | _ => []

def numbersOfEach : List Json → List Number
  | [] => []
  | j :: rest => numbers j ++ numbersOfEach rest

def numbersOfFields : List (String × Json) → List Number
  | [] => []
  | (_, j) :: rest => numbers j ++ numbersOfFields rest

end

theorem numbersOfEach_eq (items : List Json) : numbersOfEach items = items.flatMap numbers := by
  induction items with
  | nil => rfl
  | cons j items ih => rw [numbersOfEach, ih, List.flatMap_cons]

theorem numbersOfFields_eq (fields : List (String × Json)) :
    numbersOfFields fields = fields.flatMap fun f => numbers f.2 := by
  induction fields with
  | nil => rfl
  | cons f fields ih => rw [numbersOfFields, ih, List.flatMap_cons]

theorem forall_numbers_list {P : Number → Prop} {items : List Json} :
    (∀ n ∈ numbers (.list items), P n) ↔ ∀ j ∈ items, ∀ n ∈ j.numbers, P n := by
  rw [numbers, numbersOfEach_eq]
  exact List.forall_mem_flatMap

theorem forall_numbers_record {P : Number → Prop} {fields : List (String × Json)} :
    (∀ n ∈ numbers (.record fields), P n) ↔ ∀ f ∈ fields, ∀ n ∈ f.2.numbers, P n := by
  rw [numbers, numbersOfFields_eq]
  exact List.forall_mem_flatMap

/-! ## Depth -/

/-- Whether a value is nested at most to a depth and its numbers can stand in JSON text. -/
structure Within (depth : Nat) (j : Json) : Prop where
  height_le : j.height ≤ depth
  sound : ∀ n ∈ j.numbers, n.Sound

namespace Within

variable {depth : Nat} {j : Json}

theorem mono {depth' : Nat} (h : Within depth j) (hle : depth ≤ depth') : Within depth' j :=
  ⟨h.height_le.trans hle, h.sound⟩

theorem null : Within depth .null := ⟨Nat.zero_le _, fun _ hn => nomatch hn⟩

theorem bool (b : Bool) : Within depth (.bool b) := ⟨Nat.zero_le _, fun _ hn => nomatch hn⟩

theorem text (s : String) : Within depth (.text s) := ⟨Nat.zero_le _, fun _ hn => nomatch hn⟩

theorem unreadable : Within depth .unreadable := ⟨Nat.zero_le _, fun _ hn => nomatch hn⟩

theorem number {n : Number} (h : n.Sound) : Within depth (.number n) :=
  ⟨Nat.zero_le _, fun _ hn => List.mem_singleton.1 hn ▸ h⟩

theorem list_iff {items : List Json} :
    Within (depth + 1) (.list items) ↔ ∀ j ∈ items, Within depth j := by
  have hheight : height (.list items) ≤ depth + 1 ↔ ∀ j ∈ items, j.height ≤ depth := by
    rw [height, Nat.add_le_add_iff_right, heightEach_le_iff]
  constructor
  · intro h j hj
    exact ⟨hheight.1 h.height_le j hj, forall_numbers_list.1 h.sound j hj⟩
  · intro h
    exact ⟨hheight.2 fun j hj => (h j hj).height_le, forall_numbers_list.2 fun j hj => (h j hj).sound⟩

theorem record_iff {fields : List (String × Json)} :
    Within (depth + 1) (.record fields) ↔ ∀ f ∈ fields, Within depth f.2 := by
  have hheight : height (.record fields) ≤ depth + 1 ↔ ∀ f ∈ fields, f.2.height ≤ depth := by
    rw [height, Nat.add_le_add_iff_right, heightFields_le_iff]
  constructor
  · intro h f hf
    exact ⟨hheight.1 h.height_le f hf, forall_numbers_record.1 h.sound f hf⟩
  · intro h
    exact ⟨hheight.2 fun f hf => (h f hf).height_le,
      forall_numbers_record.2 fun f hf => (h f hf).sound⟩

end Within

/-- Whether a value can be written and read: all of it has a value, and it is within a depth. -/
structure Legible (depth : Nat) (j : Json) : Prop where
  isReadable : j.isReadable = true
  within : Within depth j

namespace Legible

variable {depth : Nat} {j : Json}

theorem null : Legible depth .null := ⟨rfl, .null⟩

theorem bool (b : Bool) : Legible depth (.bool b) := ⟨rfl, .bool b⟩

theorem text (s : String) : Legible depth (.text s) := ⟨rfl, .text s⟩

theorem number {n : Number} (h : n.Sound) : Legible depth (.number n) := ⟨rfl, .number h⟩

theorem list {items : List Json} (h : ∀ j ∈ items, Legible depth j) :
    Legible (depth + 1) (.list items) :=
  ⟨allReadable_iff.2 fun j hj => (h j hj).isReadable, Within.list_iff.2 fun j hj => (h j hj).within⟩

theorem record {fields : List (String × Json)} (h : ∀ f ∈ fields, Legible depth f.2) :
    Legible (depth + 1) (.record fields) :=
  ⟨allFieldsReadable_iff.2 fun f hf => (h f hf).isReadable,
    Within.record_iff.2 fun f hf => (h f hf).within⟩

end Legible

/-! ## The canonical form -/

theorem putField_eq_insertEntry (key : String) (value : Json) (fields : List (String × Json)) :
    putField key value fields = Dictionary.insertEntry key value fields := by
  induction fields with
  | nil => rfl
  | cons f fields ih =>
    have hcompare : compare key f.1 = compareOfLessAndEq key f.1 := rfl
    rw [putField, Dictionary.insertEntry, ih, hcompare, compareOfLessAndEq]
    split
    · rfl
    · split <;> rfl

theorem canonicalEach_eq (items : List Json) : canonicalEach items = items.map canonical := by
  induction items with
  | nil => rfl
  | cons j items ih => rw [canonicalEach, ih, List.map_cons]

/-- The fields of a record as a dictionary. -/
def canonicalEntries (fields : List (String × Json)) : Dictionary String Json :=
  .ofList (fields.map fun f => (f.1, canonical f.2))

theorem canonical_record (fields : List (String × Json)) :
    canonical (.record fields) = .record (canonicalEntries fields).entries := by
  have hfold : ∀ (fields : List (String × Json)) (d : Dictionary String Json),
      canonicalFields fields d.entries =
        ((fields.map fun f => (f.1, canonical f.2)).foldl (fun d e => d.insert e.1 e.2) d).entries := by
    intro fields
    induction fields with
    | nil => exact fun _ => rfl
    | cons f fields ih =>
      intro d
      rw [canonicalFields, putField_eq_insertEntry, List.map_cons, List.foldl_cons, ← ih]
      rfl
  exact congrArg Json.record (hfold fields .empty)

theorem canonical_list (items : List Json) : canonical (.list items) = .list (items.map canonical) :=
  congrArg Json.list (canonicalEach_eq items)

/-- The values of a canonical record are canonical forms of values of the record. -/
theorem exists_of_mem_canonicalEntries {fields : List (String × Json)} {f : String × Json}
    (h : f ∈ (canonicalEntries fields).entries) : ∃ g ∈ fields, f.2 = canonical g.2 := by
  obtain ⟨g, hg, rfl⟩ := List.mem_map.1 (Dictionary.mem_of_mem_entries_ofList h)
  exact ⟨g, hg, rfl⟩

theorem Legible.canonical {depth : Nat} {j : Json} (h : Legible depth j) :
    Legible depth j.canonical := by
  induction j using parts_induction generalizing depth with
  | list items ih =>
    obtain ⟨depth, rfl⟩ := Nat.exists_eq_succ_of_ne_zero (n := depth)
      (Nat.ne_of_gt (Nat.lt_of_lt_of_le (Nat.succ_pos _) h.within.height_le))
    rw [canonical_list]
    refine .list fun j hj => ?_
    obtain ⟨i, hi, rfl⟩ := List.mem_map.1 hj
    exact ih i hi ⟨allReadable_iff.1 h.isReadable i hi, Within.list_iff.1 h.within i hi⟩
  | record fields ih =>
    obtain ⟨depth, rfl⟩ := Nat.exists_eq_succ_of_ne_zero (n := depth)
      (Nat.ne_of_gt (Nat.lt_of_lt_of_le (Nat.succ_pos _) h.within.height_le))
    rw [canonical_record]
    refine .record fun f hf => ?_
    obtain ⟨g, hg, heq⟩ := exists_of_mem_canonicalEntries hf
    rw [heq]
    exact ih g hg ⟨allFieldsReadable_iff.1 h.isReadable g hg, Within.record_iff.1 h.within g hg⟩
  | _ => exact h

/-- **The canonical form of a canonical form is itself.** -/
theorem canonical_canonical (j : Json) : j.canonical.canonical = j.canonical := by
  induction j using parts_induction with
  | list items ih =>
    rw [canonical_list, canonical_list, List.map_map]
    exact congrArg Json.list (List.map_congr_left ih)
  | record fields ih =>
    have hsame : (canonicalEntries fields).entries.map (fun f => (f.1, canonical f.2)) =
        (canonicalEntries fields).entries := by
      refine (List.map_congr_left fun f hf => ?_).trans (List.map_id _)
      obtain ⟨g, hg, heq⟩ := exists_of_mem_canonicalEntries hf
      exact Prod.ext rfl (by rw [heq, ih g hg]; exact heq.symm)
    rw [canonical_record, canonical_record, canonicalEntries, hsame, Dictionary.ofList_entries]
  | _ => rfl

end StateAtlas.Json
