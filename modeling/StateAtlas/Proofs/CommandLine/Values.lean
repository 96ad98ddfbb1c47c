import StateAtlas.CommandLine.Flags
import StateAtlas.Proofs.Except
/-!
Which texts are values of flags.

A count is one or more decimal digits, with or without a plus in front, whose number fits into 64
bits; a text that is none goes wrong at its first character that is no digit or makes the number too
large.  A mode, a place for new panes and a decision are each asked for by one of a few words.

Main statements: `readCount_eq_ok_iff`, `readCount_eq_error_iff`.
-/

namespace StateAtlas

/-! ## Counts -/

/-- The digits of a count; a plus in front is none of them. -/
def countDigits (v : String) : List Char :=
  match v.toList with
  | '+' :: digits => digits
  | digits => digits

/-- The characters are decimal digits, and their number fits. -/
structure IsNumber (digits : List Char) (n : Nat) : Prop where
  isDigit : ∀ c ∈ digits, c.isDigit = true
  value : Nat.ofDigitChars 10 digits 0 = n
  lt_bound : n < countBound

/-- The number with one more digit behind it. -/
def withDigit (n : Nat) (c : Char) : Nat := 10 * n + (c.toNat - '0'.toNat)

/-- The text is a count. -/
structure IsCount (v : String) (n : Nat) : Prop where
  digits_ne_nil : countDigits v ≠ []
  isNumber : IsNumber (countDigits v) n

/-- Why a text is no count. -/
inductive CountFault : String → CountError → Prop
  | empty : CountFault "" .empty
  | noDigits : CountFault "+" .invalidDigit
  /-- The first character that is no digit. -/
  | invalidDigit {v : String} {good rest : List Char} {c : Char} {n : Nat}
      (hsplit : countDigits v = good ++ c :: rest) (hgood : IsNumber good n)
      (hc : c.isDigit = false) : CountFault v .invalidDigit
  /-- The first digit that makes the number too large. -/
  | tooLarge {v : String} {good rest : List Char} {c : Char} {n : Nat}
      (hsplit : countDigits v = good ++ c :: rest) (hgood : IsNumber good n)
      (hc : c.isDigit = true) (hlarge : countBound ≤ withDigit n c) : CountFault v .tooLarge

section

variable {k n : Nat} {c : Char} {cs : List Char} {e : CountError} {v : String}

theorem countStep_of_not_digit (hc : c.isDigit = false) (k : Nat) :
    countStep k c = .error .invalidDigit := by
  refine if_neg fun hrange => ?_
  rw [Char.isDigit, Bool.and_eq_false_iff, decide_eq_false_iff_not, decide_eq_false_iff_not] at hc
  exact hc.elim (fun h => h hrange.1) fun h => h hrange.2

theorem countStep_of_digit (hc : c.isDigit = true) (k : Nat) :
    countStep k c =
      if withDigit k c < countBound then .ok (withDigit k c) else .error .tooLarge := by
  have hrange : '0' ≤ c ∧ c ≤ '9' := by
    rw [Char.isDigit, Bool.and_eq_true, decide_eq_true_eq, decide_eq_true_eq] at hc
    exact hc
  rw [countStep, if_pos hrange, withDigit, Nat.mul_comm 10 k]
  rfl

/-- A character goes wrong if it is no digit or makes the number too large. -/
theorem countStep_eq_error_iff : countStep k c = .error e ↔
    (c.isDigit = false ∧ e = .invalidDigit) ∨
      (c.isDigit = true ∧ countBound ≤ withDigit k c ∧ e = .tooLarge) := by
  cases hc : c.isDigit with
  | false =>
    rw [countStep_of_not_digit hc]
    simp [eq_comm]
  | true =>
    rw [countStep_of_digit hc]
    split
    next hlt => simp [Nat.not_le_of_lt hlt]
    next hlarge => simp [Nat.le_of_not_lt hlarge, eq_comm]

/-- Further digits do not make a number smaller. -/
theorem le_ofDigitChars (cs : List Char) (k : Nat) : k ≤ Nat.ofDigitChars 10 cs k := by
  induction cs generalizing k with
  | nil => exact Nat.le_refl k
  | cons c cs ih =>
    rw [Nat.ofDigitChars_cons]
    refine Nat.le_trans ?_ (ih _)
    omega

/-- Characters are read as a number just when all are digits and the number fits. -/
theorem foldlM_countStep_eq_ok_iff (hk : k < countBound) :
    cs.foldlM countStep k = .ok n ↔
      (∀ c ∈ cs, c.isDigit = true) ∧ Nat.ofDigitChars 10 cs k = n ∧ n < countBound := by
  induction cs generalizing k with
  | nil =>
    constructor
    · intro h
      obtain rfl := Except.ok.inj h
      exact ⟨nofun, rfl, hk⟩
    · rintro ⟨-, rfl, -⟩
      rfl
  | cons c cs ih =>
    rw [List.foldlM_cons, List.forall_mem_cons, Nat.ofDigitChars_cons, ← withDigit]
    cases hc : c.isDigit with
    | false =>
      rw [countStep_of_not_digit hc]
      exact iff_of_false nofun fun h => Bool.false_ne_true h.1.1
    | true =>
      rw [countStep_of_digit hc]
      split
      next hlt => exact (ih hlt).trans (and_congr_left fun _ => (and_iff_right rfl).symm)
      next hlarge =>
        -- What is too large stays so, whatever digits follow.
        refine iff_of_false nofun ?_
        rintro ⟨-, rfl, hn⟩
        exact hlarge (Nat.lt_of_le_of_lt (le_ofDigitChars cs _) hn)

theorem foldlM_countStep_zero_iff : cs.foldlM countStep 0 = .ok n ↔ IsNumber cs n := by
  rw [foldlM_countStep_eq_ok_iff (by decide)]
  exact ⟨fun ⟨hdigit, hvalue, hlt⟩ => ⟨hdigit, hvalue, hlt⟩,
    fun h => ⟨h.isDigit, h.value, h.lt_bound⟩⟩

/-- Unless it has no digits, a text is read by its digits. -/
theorem readCount_of_digits (h : countDigits v ≠ []) :
    readCount v = (countDigits v).foldlM countStep 0 := by
  unfold readCount countDigits at *
  split
  next hv => simp [hv] at h
  next hv => simp [hv] at h
  next hv => simp [hv]
  next hplus =>
    split
    next digits hv => exact absurd hv (hplus digits)
    next => rfl

theorem eq_of_countDigits_eq_nil (h : countDigits v = []) : v = "" ∨ v = "+" := by
  unfold countDigits at h
  split at h
  next digits hv =>
    rw [h] at hv
    exact .inr (String.toList_injective hv)
  next => exact .inl (String.toList_injective h)

/-- **A text is read as a number just when it is a count.** -/
theorem readCount_eq_ok_iff : readCount v = .ok n ↔ IsCount v n := by
  by_cases hdigits : countDigits v = []
  · refine iff_of_false ?_ fun h => h.digits_ne_nil hdigits
    rcases eq_of_countDigits_eq_nil hdigits with rfl | rfl <;> exact nofun
  · rw [readCount_of_digits hdigits, foldlM_countStep_zero_iff]
    exact ⟨fun h => ⟨hdigits, h⟩, IsCount.isNumber⟩

/-- A text is refused as a number if some character behind a number goes wrong. -/
theorem readCount_eq_error {good rest : List Char} (hsplit : countDigits v = good ++ c :: rest)
    (hgood : IsNumber good n) (hc : countStep n c = .error e) : readCount v = .error e := by
  rw [readCount_of_digits (by rw [hsplit]; exact List.append_ne_nil_of_right_ne_nil _ nofun)]
  exact foldlM_eq_error_iff.2 ⟨good, c, rest, n, hsplit, foldlM_countStep_zero_iff.2 hgood, hc⟩

/-- **A text is refused as a number for what goes wrong first.** -/
theorem readCount_eq_error_iff : readCount v = .error e ↔ CountFault v e := by
  constructor
  · intro h
    by_cases hdigits : countDigits v = []
    · rcases eq_of_countDigits_eq_nil hdigits with rfl | rfl
      · obtain rfl := Except.error.inj h
        exact .empty
      · obtain rfl := Except.error.inj h
        exact .noDigits
    · rw [readCount_of_digits hdigits] at h
      obtain ⟨good, c, rest, n, hsplit, hgood, hc⟩ := foldlM_eq_error_iff.1 h
      have hnumber := foldlM_countStep_zero_iff.1 hgood
      rcases countStep_eq_error_iff.1 hc with ⟨hdigit, rfl⟩ | ⟨hdigit, hlarge, rfl⟩
      · exact .invalidDigit hsplit hnumber hdigit
      · exact .tooLarge hsplit hnumber hdigit hlarge
  · intro h
    cases h with
    | empty => rfl
    | noDigits => rfl
    | invalidDigit hsplit hgood hc =>
      exact readCount_eq_error hsplit hgood (countStep_of_not_digit hc _)
    | tooLarge hsplit hgood hc hlarge =>
      exact readCount_eq_error hsplit hgood (countStep_eq_error_iff.2 (.inr ⟨hc, hlarge, rfl⟩))

end

/-! ## Words -/

section

variable {v : String}

namespace DisplayMode

variable {m : DisplayMode}

/-- The words that ask for a mode. -/
def words : DisplayMode → List String
  | .states => ["s", "states"]
  | .actions => ["t", "actions"]
  | .both => ["s+t", "both"]

theorem ofName?_eq_some_iff : ofName? v = some m ↔ v = m.name := by
  constructor
  · intro h
    unfold ofName? at h
    split at h
    case h_4 => cases h
    all_goals
      obtain rfl := Option.some.inj h
      rfl
  · rintro rfl
    exact ofName?_name m

theorem ofWord?_eq_some_iff : ofWord? v = some m ↔ v ∈ m.words := by
  constructor
  · intro h
    unfold ofWord? at h
    split at h
    case h_4 =>
      obtain rfl := ofName?_eq_some_iff.1 h
      cases m <;> exact List.mem_cons_self
    all_goals
      obtain rfl := Option.some.inj h
      decide
  · intro h
    cases m <;> simp only [words, List.mem_cons, List.not_mem_nil, or_false] at h <;>
      rcases h with rfl | rfl <;> rfl

end DisplayMode

namespace InsertPolicy

variable {p : InsertPolicy}

/-- The words that ask for a place of new panes. -/
def words : InsertPolicy → List String
  | .afterSpawner => ["after_spawner", "after"]
  | .atEnd => ["at_end", "end"]

theorem ofName?_eq_some_iff : ofName? v = some p ↔ v = p.name := by
  constructor
  · intro h
    unfold ofName? at h
    split at h
    case h_3 => cases h
    all_goals
      obtain rfl := Option.some.inj h
      rfl
  · rintro rfl
    exact ofName?_name p

theorem ofWord?_eq_some_iff : ofWord? v = some p ↔ v ∈ p.words := by
  constructor
  · intro h
    unfold ofWord? at h
    split at h
    case h_3 =>
      obtain rfl := ofName?_eq_some_iff.1 h
      cases p <;> exact List.mem_cons_self
    all_goals
      obtain rfl := Option.some.inj h
      decide
  · intro h
    cases p <;> simp only [words, List.mem_cons, List.not_mem_nil, or_false] at h <;>
      rcases h with rfl | rfl <;> rfl

end InsertPolicy

theorem CapacityDecision.ofName?_eq_some_iff {d : CapacityDecision} :
    ofName? v = some d ↔ v = d.name := by
  constructor
  · intro h
    unfold ofName? at h
    split at h
    case h_4 => cases h
    all_goals
      obtain rfl := Option.some.inj h
      rfl
  · rintro rfl
    exact ofName?_name d

end

end StateAtlas
