import Mathlib.Data.List.TakeWhile
import Mathlib.Tactic.IntervalCases
import StateAtlas.Json.Printer
import StateAtlas.Json.Token
import StateAtlas.Proofs.Decimal.Finite
/-!
Numbers, written and read again.

A number is read from a word, whose characters are digits, signs, a point and an `e`.  A whole number
that fits in 64 bits is read as it was written.  Of a double this is not certain: its digits are
scaled in double arithmetic, which may round.  `Number.Rereads` says that it comes out right.

Main statements: `sound_of_numberOfWord?` and `rereads_whole`.
-/

namespace StateAtlas.Json

/-! ## Words -/

/-- Whether a character can stand in a word. -/
def isWordChar (c : Char) : Bool := c.isAlphanum || c = '-' || c = '+' || c = '.'

theorem isWordChar_of_isDigit {c : Char} (h : c.isDigit = true) : isWordChar c = true := by
  simp [isWordChar, Char.isAlphanum, h]

/-- Characters that can stand in words have one byte. -/
theorem toNat_lt_of_isWordChar {c : Char} (h : isWordChar c = true) : c.toNat < 0x80 := by
  simp only [isWordChar, Bool.or_eq_true, decide_eq_true_eq] at h
  rcases h with ((h | rfl) | rfl) | rfl
  · have hcodes : ((65 ≤ c.toNat ∧ c.toNat ≤ 90) ∨ (97 ≤ c.toNat ∧ c.toNat ≤ 122)) ∨
        (48 ≤ c.toNat ∧ c.toNat ≤ 57) := by
      refine (Bool.or_eq_true_iff.1 h).imp (fun hletter => ?_) fun hdigit => ?_
      · refine (Bool.or_eq_true_iff.1 hletter).imp (fun hupper => ?_) fun hlower => ?_
        · exact of_decide_eq_true hupper
        · exact (Bool.and_eq_true_iff.1 hlower).imp of_decide_eq_true of_decide_eq_true
      · exact (Bool.and_eq_true_iff.1 hdigit).imp of_decide_eq_true of_decide_eq_true
    omega
  · decide
  · decide
  · decide

theorem isDigit_of_mem_splitDigits {cs : List Char} {c : Char}
    (h : c ∈ (Decimal.splitDigits cs).1) : c.isDigit = true :=
  List.all_eq_true.1 (List.all_takeWhile (p := Char.isDigit) (l := cs)) c h

/-- If what follows the digits at the head of a text can stand in a word, all of it can. -/
theorem isWordChar_of_splitDigits {cs : List Char}
    (h : ∀ c ∈ (Decimal.splitDigits cs).2, isWordChar c = true) : ∀ c ∈ cs, isWordChar c = true := by
  intro c hc
  rw [← Decimal.splitDigits_append cs] at hc
  rcases List.mem_append.1 hc with hc | hc
  · exact isWordChar_of_isDigit (isDigit_of_mem_splitDigits hc)
  · exact h c hc

theorem isWordChar_of_splitFraction {cs : List Char}
    (h : ∀ c ∈ (splitFraction cs).2, isWordChar c = true) : ∀ c ∈ cs, isWordChar c = true := by
  unfold splitFraction at h
  split at h
  next rest =>
    intro c hc
    rcases List.mem_cons.1 hc with rfl | hc
    · rfl
    · exact isWordChar_of_splitDigits h c hc
  next => exact h

theorem isWordChar_of_exponent? {cs : List Char} {e : Int} (h : Decimal.exponent? cs = some e) :
    ∀ c ∈ cs, isWordChar c = true := by
  unfold Decimal.exponent? at h
  split at h
  next => simp
  next c rest =>
    split at h
    next hmark =>
      have hsign : ∀ c ∈ rest, c ∈ (Decimal.splitSign rest).2 ∨ isWordChar c = true := by
        unfold Decimal.splitSign
        split <;> simp_all [isWordChar]
      dsimp only at h
      split at h
      next => nomatch h
      next hdigits =>
        simp only [Bool.or_eq_true, Bool.not_eq_true', not_or, Bool.not_eq_false,
          List.all_eq_true] at hdigits
        intro d hd
        rcases List.mem_cons.1 hd with rfl | hd
        · rcases hmark with rfl | rfl <;> rfl
        · exact (hsign d hd).elim (fun hd => isWordChar_of_isDigit (hdigits.2 d hd)) id
    next => nomatch h

theorem isWordChar_of_numberOfWord? {word : List Char} {n : Option Number}
    (h : numberOfWord? word = some n) : ∀ c ∈ word, isWordChar c = true := by
  unfold numberOfWord? at h
  dsimp only at h
  split at h
  next e _ _ he =>
    have hrest := isWordChar_of_splitDigits (isWordChar_of_splitFraction
      (isWordChar_of_exponent? he))
    intro c hc
    split at hrest
    next rest =>
      rcases List.mem_cons.1 hc with rfl | hc
      · rfl
      · exact hrest c hc
    next => exact hrest c hc
  next => nomatch h

theorem ne_nil_of_numberOfWord? {word : List Char} {n : Option Number}
    (h : numberOfWord? word = some n) : word ≠ [] := by
  rintro rfl
  nomatch h

/-! ## What is read -/

/-- Whether a number can stand in JSON text: it is a whole number of 64 bits or a finite double. -/
def Number.Sound : Number → Prop
  | .whole n => -(Nat.pow 2 63 : Nat) ≤ n ∧ n < (Nat.pow 2 64 : Nat)
  | .real x => x.isFinite = true

theorem Number.Sound.isFinite_toFloat {n : Number} (h : n.Sound) : n.toFloat.isFinite = true := by
  match n with
  | .whole n =>
    have hpow : Nat.pow 2 63 < Nat.pow 2 64 := by decide
    exact Decimal.isFinite_ofInt (by obtain ⟨hlow, hhigh⟩ := h; omega)
  | .real x => exact h

theorem Number.sound_of_ofFloat? {x : Float} {n : Number} (h : ofFloat? x = some n) : n.Sound := by
  unfold ofFloat? at h
  split at h
  next hfinite => exact Option.some.inj h ▸ hfinite
  next => nomatch h

theorem sound_of_wholeNumber? {negative : Bool} {digits : List Char} {x : Float} {n : Number}
    (h : wholeNumber? negative digits (Number.ofFloat? x) = some n) : n.Sound := by
  unfold wholeNumber? at h
  dsimp only at h
  split at h
  · split at h
    next hn =>
      simp only [Bool.and_eq_true, decide_eq_true_eq] at hn
      obtain rfl := Option.some.inj h
      exact ⟨Int.neg_le_neg (Int.ofNat_le.2 hn.2), Int.lt_of_le_of_lt
        (Int.neg_nonpos_of_nonneg (Int.natCast_nonneg _)) (Int.ofNat_lt.2 (by decide))⟩
    next => exact Number.sound_of_ofFloat? h
  · split at h
    next hn =>
      obtain rfl := Option.some.inj h
      exact ⟨Int.le_trans (Int.neg_nonpos_of_nonneg (Int.natCast_nonneg _))
        (Int.natCast_nonneg _), Int.ofNat_lt.2 (Nat.lt_of_le_of_lt hn (by decide))⟩
    next => exact Number.sound_of_ofFloat? h

/-- **Every number that is read can stand in JSON text.** -/
theorem sound_of_numberOfWord? {word : List Char} {n : Number}
    (h : numberOfWord? word = some (some n)) : n.Sound := by
  have hread : ∀ {isWhole negative : Bool} {digits : List Char} {x : Float},
      (if isWhole then some (wholeNumber? negative digits (Number.ofFloat? x))
        else some (Number.ofFloat? x)) = some (some n) → n.Sound := by
    intro isWhole _ _ _ h
    cases isWhole with
    | true => exact sound_of_wholeNumber? (Option.some.inj h)
    | false => exact Number.sound_of_ofFloat? (Option.some.inj h)
  unfold numberOfWord? at h
  dsimp only at h
  split at h
  next => exact hread h
  next => nomatch h

/-! ## Reading again -/

/-- Whether a number is read as it is written. -/
def Number.Rereads (n : Number) : Prop := numberOfWord? n.toText.toList = some (some n)

deriving instance DecidableEq for Number

instance (n : Number) : Decidable n.Rereads :=
  inferInstanceAs (Decidable (numberOfWord? n.toText.toList = some (some n)))

theorem ofDigits_toDigits (n : Nat) : Decimal.ofDigits (Nat.toDigits 10 n) = n := by
  rw [Decimal.ofDigits, ← Nat.ofDigitChars_eq_foldl]
  exact Nat.ofDigitChars_toDigits (by decide) (by decide)

theorem isPlainWhole_toDigits (n : Nat) : isPlainWhole (Nat.toDigits 10 n) = true := by
  have hhead : ∀ n, 0 < n → ∃ c rest, Nat.toDigits 10 n = c :: rest ∧ c ≠ '0' := by
    intro n
    induction n using Nat.strongRecOn with
    | ind n ih =>
      intro hpos
      rw [Nat.toDigits_eq_if (by decide)]
      split
      next hlt =>
        exact ⟨n.digitChar, [], rfl, by interval_cases n <;> decide⟩
      next hge =>
        obtain ⟨c, rest, heq, hc⟩ := ih (n / 10) (by omega) (by omega)
        exact ⟨c, rest ++ [Nat.digitChar (n % 10)], by rw [heq]; rfl, hc⟩
  rcases Nat.eq_zero_or_pos n with rfl | hpos
  · rfl
  · obtain ⟨c, rest, heq, hc⟩ := hhead n hpos
    rw [heq]
    unfold isPlainWhole
    split <;> simp_all

theorem splitDigits_toDigits (n : Nat) :
    Decimal.splitDigits (Nat.toDigits 10 n) = (Nat.toDigits 10 n, []) := by
  have hdigits : ∀ c ∈ Nat.toDigits 10 n, c.isDigit = true :=
    fun c hc => Nat.isDigit_of_mem_toDigits (by decide) (by decide) hc
  rw [Decimal.splitDigits, List.takeWhile_eq_self_iff.2 hdigits, List.dropWhile_eq_nil_iff.2 hdigits]

theorem numberOfWord?_toDigits {n : Nat} (h : n ≤ maxWord) :
    numberOfWord? (Nat.toDigits 10 n) = some (some (.whole n)) := by
  have hsign : ∀ rest, Nat.toDigits 10 n ≠ '-' :: rest := by
    intro rest heq
    have hdigit := Nat.isDigit_of_mem_toDigits (b := 10) (n := n) (c := '-') (by decide)
      (by decide) (heq ▸ List.mem_cons_self)
    nomatch hdigit
  unfold numberOfWord?
  split
  next heq =>
    split at heq
    next hword => exact absurd hword (hsign _)
    next =>
      obtain ⟨rfl, rfl⟩ := Prod.mk.inj heq
      simp only [splitDigits_toDigits, isPlainWhole_toDigits, splitFraction, Decimal.exponent?,
        wholeNumber?, ofDigits_toDigits, if_pos h]
      rfl

theorem numberOfWord?_neg_toDigits {n : Nat} (hpos : 0 < n) (h : n ≤ Nat.pow 2 63) :
    numberOfWord? ('-' :: Nat.toDigits 10 n) = some (some (.whole (-(n : Int)))) := by
  have hfits : (0 < n && n ≤ Nat.pow 2 63) = true := by simp [hpos, h]
  simp only [numberOfWord?, splitDigits_toDigits, isPlainWhole_toDigits, splitFraction,
    Decimal.exponent?, wholeNumber?, ofDigits_toDigits]
  rw [if_pos hfits]
  rfl

/-- **A whole number of 64 bits is read as it is written.** -/
theorem rereads_whole {n : Int} (h : (Number.whole n).Sound) : (Number.whole n).Rereads := by
  obtain ⟨hlow, hhigh⟩ := h
  cases n with
  | ofNat n =>
    have htext : (toString (Int.ofNat n)).toList = Nat.toDigits 10 n := String.toList_ofList
    rw [Number.Rereads, Number.toText, htext]
    exact numberOfWord?_toDigits (Nat.le_sub_one_of_lt (Int.ofNat_lt.1 hhigh))
  | negSucc n =>
    have htext : (toString (Int.negSucc n)).toList = '-' :: Nat.toDigits 10 (n + 1) := by
      have hparts : toString (Int.negSucc n) = "-" ++ String.ofList (Nat.toDigits 10 (n + 1)) := rfl
      rw [hparts, String.toList_append]
      exact congrArg ('-' :: ·) String.toList_ofList
    rw [Number.Rereads, Number.toText, htext]
    exact numberOfWord?_neg_toDigits (Nat.succ_pos n) (Int.ofNat_le.1 (Int.neg_le_neg_iff.1 hlow))

end StateAtlas.Json
