import StateAtlas.Brush.Reading
/-!
Readings that pass for truth values.

A reading can pass for a truth value in two ways: it is written as one on an axis, or its number is
the one that the truth value counts as.  Truth values pass for themselves both ways.  A number is
never written as a truth value, as labels have no exponents and so no `e`, and no truth value is
written as a number.  So apart from truth values a reading passes both ways or neither way just when
it passes neither way.

Main statement: `Reading.label_eq_iff_countsAs_iff`.
-/

namespace StateAtlas

/-! ## Labels of numbers -/

namespace Decimal

theorem not_mem_pushn {s : String} {c d : Char} (h : d ∉ s.toList) (hne : d ≠ c) (n : Nat) :
    d ∉ (s.pushn c n).toList := by
  rw [String.pushn_eq_repeat_push]
  induction n with
  | zero => exact h
  | succ n ih =>
    rw [Nat.repeat, String.toList_push, List.mem_append, List.mem_singleton, not_or]
    exact ⟨ih, hne⟩

theorem not_mem_digits (n : Nat) : 'e' ∉ (toString n).toList := by
  intro h
  have hmem : 'e' ∈ Nat.toDigits 10 n := by
    rwa [show (toString n).toList = Nat.toDigits 10 n from String.toList_ofList] at h
  exact absurd (Nat.isDigit_of_mem_toDigits (by decide) (by decide) hmem) (by decide)

theorem not_mem_placePoint {digits : String} (h : 'e' ∉ digits.toList) (point : Int) :
    'e' ∉ (placePoint Layout.label digits point).toList := by
  unfold placePoint
  dsimp only
  split
  · simp only [String.toList_append, List.mem_append, not_or]
    exact ⟨⟨by decide, not_mem_pushn (by decide) (by decide) _⟩, h⟩
  · split
    · simp only [String.toList_append, List.mem_append, not_or]
      exact ⟨not_mem_pushn h (by decide) _, by decide⟩
    · simp only [String.toList_append, String.toList_ofList, List.mem_append, not_or]
      exact ⟨⟨fun hmem => h (List.mem_of_mem_take hmem), by decide⟩,
        fun hmem => h (List.mem_of_mem_drop hmem)⟩

/-- Labels are written without exponents. -/
theorem not_mem_label (x : Float) : 'e' ∉ (label x).toList := by
  have hwrite (s : Scientific) : 'e' ∉ (Layout.label.write s).toList := by
    unfold Layout.write
    dsimp only
    split
    · exact not_mem_placePoint (not_mem_digits _) 1
    · exact not_mem_placePoint (not_mem_digits _) _
  unfold label Layout.text
  split
  · decide
  · dsimp only
    rw [String.toList_append, List.mem_append, not_or]
    refine ⟨by split <;> decide, ?_⟩
    split
    · decide
    · exact hwrite _

end Decimal

/-! ## Truth values -/

namespace Reading

open AxisNumber

/-- A truth value as it is written on an axis. -/
def truthLabel (t : Bool) : String := (bool t : Reading Float).label

/-- The number that a truth value counts as. -/
def truthNumber (t : Bool) : Float := ofNat (if t then 1 else 0)

/-- Whether the number of a reading is that of a truth value. -/
def countsAs (t : Bool) (v : Reading Float) : Bool := v.ordinal?.any (equal (truthNumber t))

/-- A truth value, or a reading that passes for a certain truth value neither as it is written nor
as a number. -/
def Plain (t : Bool) : Reading Float → Prop
  | .bool _ => True
  | .number x => equal (truthNumber t) x = false
  | .text s => s ≠ truthLabel t ∧ (ofText? s).any (equal (truthNumber t)) = false

/-- The points of a boolean axis. -/
theorem zipIdx_truthLabels :
    ["false", "true"].zipIdx = [false, true].map fun t => (truthLabel t, if t then 1 else 0) := rfl

theorem truthLabel_inj {t t' : Bool} : truthLabel t = truthLabel t' ↔ t = t' := by
  revert t t'
  decide

/-- False comes before true. -/
@[simp] theorem le_truthNumber (t t' : Bool) :
    le (truthNumber t) (truthNumber t') = (!t || t') := by
  revert t t'
  decide +kernel

@[simp] theorem equal_truthNumber (t t' : Bool) :
    equal (truthNumber t) (truthNumber t') = (t == t') := by
  rw [equal, le_truthNumber, le_truthNumber]
  revert t t'
  decide

/-- No truth value is written as a number. -/
theorem ofText?_truthLabel (t : Bool) : (ofText? (truthLabel t) : Option Float) = none := by
  revert t
  decide +kernel

/-- No number is written as a truth value. -/
theorem label_ne_truthLabel (x : Float) (t : Bool) : Decimal.label x ≠ truthLabel t := by
  have hmem : 'e' ∈ (truthLabel t).toList := by
    revert t
    decide
  exact fun h => Decimal.not_mem_label x (h ▸ hmem)

/-- **A reading is written as a truth value just when it counts as it, if and only if it is
plain.** -/
theorem label_eq_iff_countsAs_iff (t : Bool) (v : Reading Float) :
    (v.label = truthLabel t ↔ v.countsAs t = true) ↔ v.Plain t := by
  cases v with
  | bool b =>
    have hlabel : (bool b : Reading Float).label = truthLabel t ↔ b = t := truthLabel_inj
    have hcounts : (bool b).countsAs t = (t == b) := equal_truthNumber t b
    rw [hlabel, hcounts, beq_iff_eq, eq_comm]
    exact iff_of_true Iff.rfl trivial
  | number x =>
    have hlabel : (number x : Reading Float).label ≠ truthLabel t := label_ne_truthLabel x t
    rw [iff_false_left hlabel, Bool.not_eq_true]
    rfl
  | text s =>
    have hcounts : (text s).countsAs t = (ofText? s).any (equal (truthNumber t)) := rfl
    rw [hcounts, Plain, show (text s : Reading Float).label = s from rfl]
    by_cases hs : s = truthLabel t
    · subst hs
      simp [ofText?_truthLabel]
    · simp [hs]

end Reading

end StateAtlas
