import Mathlib.Algebra.Order.Field.Basic
import Mathlib.Algebra.Order.Field.Power
import Mathlib.Tactic.FieldSimp
import Mathlib.Tactic.Linarith
import StateAtlas.Proofs.Decimal.Finite
/-!
Quotients of doubles, and how they are rounded.

Rounding keeps the mantissa of a number for some exponent, together with two residual bits: they
tell whether the rest is none, less than one half, one half or more.  So mantissas with residual
bits stand for numbers, up to what lies between the same halves, and they are rounded in the order
of these numbers.  A quotient is taken with enough bits for that, and a carry into one more bit is
shifted out.

Main statements: `exists_divCore`, `RoundsTo.mono`, `exists_roundWithAccuracy`.
-/

namespace StateAtlas.Decimal

open Float.Model Float.Model.UnpackedFloat

/-! ## Powers of two -/

/-- One unit in the last place of a mantissa with an exponent. -/
def ulp (e : ℤ) : ℚ := (2 : ℚ) ^ e

theorem ulp_pos (e : ℤ) : 0 < ulp e := zpow_pos (by norm_num) e

theorem ulp_add (e f : ℤ) : ulp (e + f) = ulp e * ulp f := zpow_add₀ (by norm_num) e f

theorem ulp_sub (e f : ℤ) : ulp (e - f) = ulp e / ulp f := zpow_sub₀ (by norm_num) e f

theorem ulp_le_ulp {e f : ℤ} (h : e ≤ f) : ulp e ≤ ulp f := zpow_le_zpow_right₀ (by norm_num) h

theorem ulp_one : ulp 1 = 2 := zpow_one 2

theorem ulp_natCast (n : ℕ) : ulp n = (Nat.pow 2 n : ℕ) := by
  rw [ulp, zpow_natCast]
  exact (Nat.cast_pow 2 n).symm

/-! ## Residual bits -/

/-- A mantissa with its residual bits stands for a number. -/
def Represents (em : ExtendedMantissa) (t : ℚ) : Prop :=
  match em.roundBit, em.stickyBit with
  | false, false => t = em.mantissa
  | false, true => em.mantissa < t ∧ t < em.mantissa + 1 / 2
  | true, false => t = em.mantissa + 1 / 2
  | true, true => em.mantissa + 1 / 2 < t ∧ t < em.mantissa + 1

variable {em em' : ExtendedMantissa} {t t' : ℚ}

/-- The mantissa is the whole part. -/
theorem Represents.bounds (h : Represents em t) : em.mantissa ≤ t ∧ t < em.mantissa + 1 := by
  obtain ⟨m, _ | _, _ | _⟩ := em <;> simp only [Represents] at h ⊢ <;> constructor <;> linarith

/-- Shifting the last bit into the residual bits halves the number. -/
theorem Represents.shiftRightOne (h : Represents em t) :
    Represents em.shiftRightOne (t / 2) := by
  obtain ⟨m, r, s⟩ := em
  have hsplit : ((m % 2 : ℕ) : ℚ) + 2 * ((m / 2 : ℕ) : ℚ) = m := by
    exact_mod_cast Nat.mod_add_div m 2
  rcases Nat.mod_two_eq_zero_or_one m with hm | hm <;> rw [hm] at hsplit <;>
    cases r <;> cases s <;>
      simp [Represents, ExtendedMantissa.shiftRightOne, hm] at h hsplit ⊢ <;>
        first | linarith | (constructor <;> linarith)

theorem Represents.shiftRight (h : Represents em t) (n : ℕ) :
    Represents (em >>> n) (t / ulp n) := by
  show Represents (Nat.repeat ExtendedMantissa.shiftRightOne n em) _
  induction n with
  | zero => simpa [Nat.repeat, ulp] using h
  | succ n ih =>
    have hstep := ih.shiftRightOne
    rwa [div_div, ← ulp_one, ← ulp_add] at hstep

theorem mantissa_le_roundedMantissa (em : ExtendedMantissa) :
    em.mantissa ≤ em.roundedMantissa := by
  unfold ExtendedMantissa.roundedMantissa Accuracy.roundToNearestEven
  split <;> omega

/-- **Rounding keeps the order.** -/
theorem Represents.rounded_le (h : Represents em t) (h' : Represents em' t')
    (ht : t ≤ t') : em.roundedMantissa ≤ em'.roundedMantissa := by
  have hfloor : em.mantissa ≤ em'.mantissa := by
    have hlt : (em.mantissa : ℚ) < em'.mantissa + 1 := (h.bounds.1.trans ht).trans_lt h'.bounds.2
    exact Nat.lt_succ_iff.1 (by exact_mod_cast hlt)
  rcases hfloor.lt_or_eq with hlt | heq
  · exact (roundedMantissa_le em).trans (Nat.le_trans hlt (mantissa_le_roundedMantissa em'))
  · obtain ⟨m, r, s⟩ := em
    obtain ⟨m', r', s'⟩ := em'
    obtain rfl : m = m' := heq
    cases r <;> cases s <;> cases r' <;> cases s' <;>
      simp only [Represents] at h h' <;>
        simp only [ExtendedMantissa.roundedMantissa, ExtendedMantissa.accuracy,
          Accuracy.roundToNearestEven] <;>
          first | omega | linarith

/-- A quotient of whole numbers, and where the rest lies. -/
theorem represents_quotient (q : ℕ) {r d : ℕ} (hr : r < d) :
    Represents (.ofMantissaAndAccuracy q (accuracyOfFraction r d)) (q + r / d) := by
  have hd : (0 : ℚ) < d := by exact_mod_cast Nat.zero_lt_of_lt hr
  have hlt : (r : ℚ) / d < 1 := (div_lt_one hd).2 (by exact_mod_cast hr)
  unfold accuracyOfFraction
  split
  next hzero => simp [hzero, Represents, ExtendedMantissa.ofMantissaAndAccuracy]
  next hne =>
    have hpos : (0 : ℚ) < r / d := div_pos (by exact_mod_cast Nat.pos_of_ne_zero hne) hd
    -- The rest lies below one half, at it or above it.
    rcases hcompare : compare (2 * r) d with _ | _ | _
    · have hhalf : (r : ℚ) / d < 1 / 2 := by
        rw [div_lt_div_iff₀ hd (by norm_num)]
        have := Nat.compare_eq_lt.1 hcompare
        push_cast [← Nat.cast_lt (α := ℚ)] at this
        linarith
      simp only [Represents, ExtendedMantissa.ofMantissaAndAccuracy]
      constructor <;> linarith
    · have hhalf : (r : ℚ) / d = 1 / 2 := by
        rw [div_eq_div_iff hd.ne' (by norm_num)]
        have := Nat.compare_eq_eq.1 hcompare
        have : (2 * r : ℚ) = d := by exact_mod_cast this
        linarith
      simp only [Represents, ExtendedMantissa.ofMantissaAndAccuracy]
      linarith
    · have hhalf : 1 / 2 < (r : ℚ) / d := by
        rw [div_lt_div_iff₀ (by norm_num) hd]
        have := Nat.compare_eq_gt.1 hcompare
        have : (d : ℚ) < 2 * r := by exact_mod_cast this
        linarith
      simp only [Represents, ExtendedMantissa.ofMantissaAndAccuracy]
      constructor <;> linarith

/-! ## Quotients and their rounding -/

theorem succ_le_ulp_log2 (m : ℕ) : (m : ℚ) + 1 ≤ ulp (m.log2 + 1) := by
  have h : m + 1 ≤ Nat.pow 2 (m.log2 + 1) := Nat.lt_log2_self
  rw [show (m.log2 : ℤ) + 1 = (m.log2 + 1 : ℕ) from rfl, ulp_natCast]
  exact_mod_cast h

theorem ulp_log2_le {m : ℕ} (hm : 0 < m) : ulp m.log2 ≤ m := by
  have h : Nat.pow 2 m.log2 ≤ m := Nat.log2_self_le hm.ne'
  rw [ulp_natCast]
  exact_mod_cast h

/-- A quotient has all the bits that are kept once the dividend is shifted that far. -/
theorem le_log2_quotient {m m' shift : ℕ} (hm : 0 < m) (hm' : 0 < m')
    (h : m'.log2 + 53 ≤ m.log2 + shift) : 52 ≤ (m <<< shift / m').log2 := by
  have hquotient : Nat.pow 2 52 ≤ m <<< shift / m' := by
    rw [Nat.le_div_iff_mul_le hm', Nat.shiftLeft_eq]
    calc Nat.pow 2 52 * m' ≤ Nat.pow 2 52 * Nat.pow 2 (m'.log2 + 1) :=
          Nat.mul_le_mul_left _ Nat.lt_log2_self.le
      _ = Nat.pow 2 (52 + (m'.log2 + 1)) := (Nat.pow_add 2 52 _).symm
      _ ≤ Nat.pow 2 (m.log2 + shift) := Nat.pow_le_pow_right (by decide) (by omega)
      _ = Nat.pow 2 m.log2 * Nat.pow 2 shift := Nat.pow_add 2 _ _
      _ ≤ m * Nat.pow 2 shift := Nat.mul_le_mul_right _ (Nat.log2_self_le hm.ne')
  exact (Nat.le_log2 (lt_of_lt_of_le (by decide) hquotient).ne').2 hquotient

/-- The quotient of two numbers is taken with enough bits to be rounded. -/
theorem exists_divCore {m m' : ℕ} (e e' : ℤ) (hm : 0 < m) (hm' : 0 < m')
    (hbits : m < Nat.pow 2 53) :
    ∃ q te a, divCore Format.binary64 m e m' e' = (q, te, a) ∧
      te ≤ max ((q.log2 : ℤ) + 1 + te - 53) (-1074) ∧
      Represents (.ofMantissaAndAccuracy q a) (m * ulp e / (m' * ulp e') / ulp te) := by
  let te : ℤ := min (e - e') (max (m.log2 + 1 + e - (m'.log2 + 1 + e') - 53) (-1074))
  let shift : ℕ := (e - e' - te).toNat
  let n : ℕ := m <<< shift
  have hshift : (shift : ℤ) = e - e' - te := Int.toNat_of_nonneg (by omega)
  refine ⟨n / m', te, accuracyOfFraction (n % m') m', rfl, ?enough, ?stands⟩
  case enough =>
    by_cases hlow : te ≤ -1074
    · exact hlow.trans (le_max_right ..)
    · -- Above the least exponent the shift is long enough for a quotient of 53 bits.
      have hlog : m.log2 < 53 := (Nat.log2_lt hm.ne').2 hbits
      have hquotient : 52 ≤ (n / m').log2 := le_log2_quotient hm hm' (by omega)
      omega
  case stands =>
    -- Shifting the numerator makes up for the exponent that the quotient gets.
    have hn : (n : ℚ) = m * ulp shift := by
      rw [ulp_natCast, ← Nat.cast_mul]
      exact congrArg _ (Nat.shiftLeft_eq m shift)
    have hpos : (0 : ℚ) < m' := by exact_mod_cast hm'
    have hquotient : m * ulp e / (m' * ulp e') / ulp te =
        ((n / m' : ℕ) : ℚ) + ((n % m' : ℕ) : ℚ) / m' := by
      have hsplit : ((n % m' : ℕ) : ℚ) + m' * ((n / m' : ℕ) : ℚ) = n := by
        exact_mod_cast Nat.mod_add_div n m'
      rw [hn, hshift, ulp_sub, ulp_sub] at hsplit
      have he' := (ulp_pos e').ne'
      have hte := (ulp_pos te).ne'
      field_simp at hsplit ⊢
      linarith
    rw [hquotient]
    exact represents_quotient _ (Nat.mod_lt n hm')

/-- A number is rounded to a mantissa for an exponent. -/
structure RoundsTo (v : ℚ) (m : ℕ) (e : ℤ) : Prop where
  low : -1074 ≤ e
  lt : v < ulp (e + 53)
  le : e = -1074 ∨ ulp (e + 52) ≤ v
  rounded : ∃ em, Represents em (v / ulp e) ∧ em.roundedMantissa = m

variable {v v' : ℚ} {m m' : ℕ} {e e' : ℤ}

theorem RoundsTo.mantissa_le (h : RoundsTo v m e) : m ≤ Nat.pow 2 53 := by
  obtain ⟨em, hem, rfl⟩ := h.rounded
  have hlt : (em.mantissa : ℚ) < ulp (53 : ℕ) := by
    refine hem.bounds.1.trans_lt ((div_lt_iff₀ (ulp_pos e)).2 ?_)
    rw [← ulp_add, add_comm]
    exact h.lt
  rw [ulp_natCast] at hlt
  exact (roundedMantissa_le em).trans (by exact_mod_cast hlt)

theorem RoundsTo.le_mantissa (h : RoundsTo v m e) : e = -1074 ∨ Nat.pow 2 52 ≤ m := by
  refine h.le.imp_right fun hle => ?_
  obtain ⟨em, hem, rfl⟩ := h.rounded
  have hlt : ulp (52 : ℕ) < em.mantissa + 1 := by
    refine lt_of_le_of_lt ((le_div_iff₀ (ulp_pos e)).2 ?_) hem.bounds.2
    rw [← ulp_add, add_comm]
    exact hle
  rw [ulp_natCast] at hlt
  exact (Nat.lt_succ_iff.1 (by exact_mod_cast hlt)).trans (mantissa_le_roundedMantissa em)

/-- **Lesser numbers are rounded to lesser ones.** -/
theorem RoundsTo.mono (h : RoundsTo v m e) (h' : RoundsTo v' m' e') (hv : v ≤ v') :
    e < e' ∨ e = e' ∧ m ≤ m' := by
  have hexponent : e ≤ e' := by
    by_contra hlt
    have hle : ulp (e + 52) ≤ v := h.le.resolve_left (by have := h'.low; omega)
    have hpower : ulp (e' + 53) ≤ ulp (e + 52) := ulp_le_ulp (by omega)
    exact absurd h'.lt (not_lt.2 (hpower.trans (hle.trans hv)))
  refine hexponent.lt_or_eq.imp_right fun heq => ⟨heq, ?_⟩
  subst heq
  obtain ⟨em, hem, rfl⟩ := h.rounded
  obtain ⟨em', hem', rfl⟩ := h'.rounded
  exact hem.rounded_le hem' (div_le_div_of_nonneg_right hv (ulp_pos e).le)

/-- What is left of a rounded mantissa once a carry into one more bit is shifted out. -/
def settle (s : Sign) (m : ℕ) (e : ℤ) : UnpackedFloat :=
  if h : m = 0 then .zero s
  else if m < Nat.pow 2 53 then .finite s m e (Nat.pos_of_ne_zero h)
  else .finite s (Nat.pow 2 52) (e + 1) (by decide)

/-- A mantissa that has its bits already is not shifted. -/
theorem shiftToTargetExponent_of_lt (hm : m < Nat.pow 2 53) (he : -1074 ≤ e) :
    shiftToTargetExponent Format.binary64 m e .exact = (⟨m, false, false⟩, e) := by
  have hlog : m.log2 ≤ 52 := by
    by_cases hzero : m = 0
    · simp [hzero]
    · exact Nat.lt_succ_iff.1 ((Nat.log2_lt hzero).2 hm)
  have hnone : (max ((m.log2 : ℤ) + 1 + e - 53) (-1074) - e).toNat = 0 := by omega
  simp only [shiftToTargetExponent, shiftToExponent, targetExponent_eq, hnone]
  exact Prod.ext rfl (add_zero e)

/-- A carry is shifted out. -/
theorem shiftToTargetExponent_carry (he : -1074 ≤ e) :
    shiftToTargetExponent Format.binary64 (Nat.pow 2 53) e .exact =
      (⟨Nat.pow 2 52, false, false⟩, e + 1) := by
  have hlog : (Nat.pow 2 53).log2 = 53 := Nat.log2_two_pow
  have hone : (max (((Nat.pow 2 53).log2 : ℤ) + 1 + e - 53) (-1074) - e).toNat = 1 := by omega
  simp only [shiftToTargetExponent, shiftToExponent, targetExponent_eq, hone]
  exact Prod.ext rfl rfl

/-- What is left once the bits that are not kept are shifted out is rounded. -/
theorem RoundsTo.of_shiftRight {em : ExtendedMantissa} {te : ℤ} {t : ℚ} (hem : Represents em t)
    (he : e = max ((em.mantissa.log2 : ℤ) + 1 + te - 53) (-1074)) (hte : te ≤ e) :
    RoundsTo (t * ulp te) (em >>> (e - te).toNat).roundedMantissa e where
  low := he ▸ le_max_right ..
  lt := by
    have hlt : t < ulp (em.mantissa.log2 + 1) := hem.bounds.2.trans_le (succ_le_ulp_log2 _)
    calc t * ulp te < ulp (em.mantissa.log2 + 1) * ulp te :=
          mul_lt_mul_of_pos_right hlt (ulp_pos te)
      _ = ulp (em.mantissa.log2 + 1 + te) := (ulp_add ..).symm
      _ ≤ ulp (e + 53) := ulp_le_ulp (by omega)
  le := by
    by_cases hlow : e = -1074
    · exact .inl hlow
    · have hpos : 0 < em.mantissa := by
        refine Nat.pos_of_ne_zero fun hzero => hlow ?_
        rw [hzero, Nat.log2_zero] at he
        omega
      refine .inr ?_
      calc ulp (e + 52) = ulp (em.mantissa.log2 + te) := by congr 1; omega
        _ = ulp em.mantissa.log2 * ulp te := ulp_add ..
        _ ≤ t * ulp te :=
          mul_le_mul_of_nonneg_right ((ulp_log2_le hpos).trans hem.bounds.1) (ulp_pos te).le
  rounded := by
    have hshifted := hem.shiftRight (e - te).toNat
    rw [Int.toNat_of_nonneg (by omega), ulp_sub] at hshifted
    have hquotient : t * ulp te / ulp e = t / (ulp e / ulp te) := by
      have hte' := (ulp_pos te).ne'
      have he' := (ulp_pos e).ne'
      field_simp
    exact ⟨_, hquotient ▸ hshifted, rfl⟩

/-- Rounding, as a number is rounded to a mantissa. -/
theorem exists_roundWithAccuracy (s : Sign) {q : ℕ} {te : ℤ} {a : Accuracy} {t : ℚ}
    (hq : Represents (.ofMantissaAndAccuracy q a) t)
    (hte : te ≤ max ((q.log2 : ℤ) + 1 + te - 53) (-1074)) :
    ∃ m e, RoundsTo (t * ulp te) m e ∧
      roundWithAccuracy Format.binary64 s q te a = settle s m e := by
  let e : ℤ := max ((q.log2 : ℤ) + 1 + te - 53) (-1074)
  let em := ExtendedMantissa.ofMantissaAndAccuracy q a >>> (e - te).toNat
  have hmantissa : (ExtendedMantissa.ofMantissaAndAccuracy q a).mantissa = q := by
    unfold ExtendedMantissa.ofMantissaAndAccuracy
    split <;> rfl
  have hrounds : RoundsTo (t * ulp te) em.roundedMantissa e := by
    refine RoundsTo.of_shiftRight hq ?_ hte
    rw [hmantissa]
  have hfirst : shiftToTargetExponent Format.binary64 q te a = (em, e) := by
    rw [shiftToTargetExponent, shiftToExponent, targetExponent_eq]
    exact Prod.ext rfl (by show te + ((e - te).toNat : ℤ) = e; omega)
  refine ⟨em.roundedMantissa, e, hrounds, ?_⟩
  rw [roundWithAccuracy, hfirst]
  dsimp only
  rcases hrounds.mantissa_le.lt_or_eq with hlt | heq
  · rw [shiftToTargetExponent_of_lt hlt hrounds.low]
    unfold settle
    by_cases hzero : em.roundedMantissa = 0
    · rw [dif_pos hzero, dif_pos hzero]
    · rw [dif_neg hzero, dif_neg hzero, if_pos hlt]
  · rw [heq, shiftToTargetExponent_carry hrounds.low]
    rfl

end StateAtlas.Decimal
