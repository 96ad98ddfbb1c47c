import Mathlib.Algebra.Order.Ring.Int
import Mathlib.Tactic.Ring
/-!
Whole numbers of 64 bits as doubles.

A double is infinite only if its exponent passes a limit.  The exponents that rounding brings about
are bounded by the number of bits that there are to round, which for a whole number of 64 bits is
far below the limit.

Main statement: `isFinite_ofInt`.
-/

namespace StateAtlas.Decimal

open Float.Model Float.Model.UnpackedFloat

variable {limit limit' : Int} {u v : UnpackedFloat}

/-- Zero, or a number whose exponent does not pass a limit. -/
def Within (limit : Int) : UnpackedFloat → Prop
  | .zero _ => True
  | .finite _ _ e _ => e ≤ limit
  | _ => False

/-- Zero, or a number of at most 53 bits whose exponent does not pass a limit. -/
def Narrow (limit : Int) : UnpackedFloat → Prop
  | .zero _ => True
  | .finite _ m e _ => m < Nat.pow 2 53 ∧ e ≤ limit
  | _ => False

theorem Narrow.isFinite (h : Narrow limit u) : u.isFinite = true := by
  match u with
  | .zero _ => rfl
  | .finite .. => rfl

theorem Narrow.neg (h : Narrow limit u) : Within limit u.neg := by
  match u with
  | .zero _ => trivial
  | .finite .. => exact h.2

/-! ## Doubles as bits -/

theorem narrow_unpack {b : BitVec Format.binary64.numBits} (hlow : -1074 ≤ limit)
    (hexponent : (unpackExponent b).toNat < 2047)
    (hlimit : (unpackExponent b).toNat ≤ limit + 1075) :
    Narrow limit (UnpackedFloat.unpack Format.binary64 b) := by
  have hne : unpackExponent b ≠ -1#11 := by
    intro h
    rw [h] at hexponent
    exact absurd hexponent (by decide)
  unfold UnpackedFloat.unpack
  dsimp only
  rw [if_neg hne]
  by_cases hzero : unpackExponent b = 0#11
  · rw [if_pos hzero]
    by_cases hmantissa : unpackMantissa b = 0#52
    · rw [dif_pos hmantissa]
      trivial
    · rw [dif_neg hmantissa]
      refine ⟨lt_trans (unpackMantissa b).isLt (by decide), ?_⟩
      rw [hzero]
      show ((0 : Nat) : Int) - ((1023 : Nat) + (52 : Nat)) + 1 ≤ limit
      omega
  · rw [if_neg hzero]
    refine ⟨BitVec.isLt _, ?_⟩
    show ((unpackExponent b).toNat : Int) - ((1023 : Nat) + (52 : Nat)) ≤ limit
    omega

/-- The bits that a number is put into. -/
theorem pack_finite (s : Sign) (m : Nat) (e : Int) (hm : 0 < m) :
    UnpackedFloat.pack Format.binary64 (.finite s m e hm) =
      let biased := (e + (Format.binary64.exponentBias : Int) +
        (Format.binary64.mantissaBitsWithoutImplicit : Int)).toNat
      if 2048 ≤ biased + 1 then packedInfinity Format.binary64 s
      else if m.log2 + 1 = 53 then
        packComponents Format.binary64 s (BitVec.ofNat _ biased) (BitVec.ofNat _ m)
      else packComponents Format.binary64 s 0 (BitVec.ofNat _ m) := rfl

theorem biased_eq (e : Int) : e + (Format.binary64.exponentBias : Int) +
    (Format.binary64.mantissaBitsWithoutImplicit : Int) = e + 1075 := by
  show e + 1023 + 52 = e + 1075
  ring

/-- What is put into the bits of a double and taken out again has no greater exponent. -/
theorem Within.pack (h : Within limit u) (hlow : -1074 ≤ limit) (hhigh : limit < 971) :
    Narrow limit (Float.Model.pack u).unpack := by
  have hcomponents : ∀ (s : Sign) (x : BitVec 11) (y : BitVec 52), x.toNat ≤ limit + 1075 →
      Narrow limit
        (UnpackedFloat.unpack Format.binary64 (packComponents Format.binary64 s x y)) := by
    intro s x y hx
    have hexponent : unpackExponent (packComponents Format.binary64 s x y) = x :=
      unpackExponent_packComponents
    refine narrow_unpack hlow ?_ ?_ <;> rw [hexponent] <;> omega
  have hnone : ((0#11).toNat : Int) ≤ limit + 1075 := by
    rw [BitVec.toNat_ofNat, Nat.zero_mod]
    omega
  show Narrow limit
    (UnpackedFloat.unpack Format.binary64 (UnpackedFloat.pack Format.binary64 u))
  match u with
  | .zero s => exact hcomponents s 0 0 hnone
  | .finite s m e hm =>
    have he : e ≤ limit := h
    rw [pack_finite, biased_eq]
    dsimp only
    rw [if_neg (by omega)]
    split
    · refine hcomponents s _ _ ?_
      have hmod := Nat.mod_le (e + 1075).toNat (2 ^ Format.binary64.exponentBits)
      rw [BitVec.toNat_ofNat]
      omega
    · exact hcomponents s _ _ hnone

theorem isFinite_pack (h : Within limit u) (hlow : -1074 ≤ limit) (hhigh : limit < 971) :
    (Float.Model.pack u).isFinite = true :=
  (h.pack hlow hhigh).isFinite

/-! ## Rounding -/

theorem targetExponent_eq (m : Nat) (e : Int) :
    Format.binary64.targetExponent (totalExponent m e) = max (m.log2 + 1 + e - 53) (-1074) := rfl

theorem mantissa_shiftRight_le (m : ExtendedMantissa) (n : Nat) :
    (m >>> n).mantissa ≤ m.mantissa := by
  show (Nat.repeat ExtendedMantissa.shiftRightOne n m).mantissa ≤ m.mantissa
  induction n with
  | zero => exact le_rfl
  | succ n ih => exact (Nat.div_le_self _ 2).trans ih

theorem roundedMantissa_le (m : ExtendedMantissa) : m.roundedMantissa ≤ m.mantissa + 1 := by
  unfold ExtendedMantissa.roundedMantissa Accuracy.roundToNearestEven
  split <;> omega

theorem roundedMantissa_shiftToExponent_le (m : Nat) (e target : Int) (a : Accuracy) :
    (shiftToExponent m e a target).1.roundedMantissa ≤ m + 1 := by
  have hmantissa : (ExtendedMantissa.ofMantissaAndAccuracy m a).mantissa = m := by
    unfold ExtendedMantissa.ofMantissaAndAccuracy
    split <;> rfl
  have hshift := mantissa_shiftRight_le (.ofMantissaAndAccuracy m a) (target - e).toNat
  rw [hmantissa] at hshift
  exact (roundedMantissa_le _).trans (Nat.succ_le_succ hshift)

/-- A shift to the exponent that suits the bits of a mantissa. -/
theorem exponent_shiftToTargetExponent_le {m bits : Nat} {e top : Int} (hm : m < Nat.pow 2 bits)
    (he : e ≤ top) (hbits : 53 ≤ bits) (htop : -1074 ≤ top) (a : Accuracy) :
    (shiftToTargetExponent Format.binary64 m e a).2 ≤ top + bits - 53 := by
  have hlog : m.log2 + 1 ≤ bits := by
    by_cases hzero : m = 0
    · rw [hzero, Nat.log2_zero]
      omega
    · exact (Nat.log2_lt hzero).2 hm
  simp only [shiftToTargetExponent, shiftToExponent, targetExponent_eq]
  omega

/-- What rounding makes of a number of so many bits. -/
theorem within_roundWithAccuracy {m bits : Nat} {e top : Int} (hm : m < Nat.pow 2 bits)
    (he : e ≤ top) (hbits : 53 ≤ bits) (htop : -1074 ≤ top) (hlimit : top + 2 * bits - 105 ≤ limit)
    (s : Sign) (a : Accuracy) : Within limit (roundWithAccuracy Format.binary64 s m e a) := by
  have hfirst := exponent_shiftToTargetExponent_le hm he hbits htop a
  -- Rounding up may carry into one more bit.
  have hmantissa : (shiftToTargetExponent Format.binary64 m e a).1.roundedMantissa <
      Nat.pow 2 (bits + 1) := by
    have hcarry : Nat.pow 2 (bits + 1) = Nat.pow 2 bits * 2 := rfl
    have hrounded : (shiftToTargetExponent Format.binary64 m e a).1.roundedMantissa ≤ m + 1 :=
      roundedMantissa_shiftToExponent_le ..
    omega
  unfold roundWithAccuracy
  generalize shiftToTargetExponent Format.binary64 m e a = first at hfirst hmantissa ⊢
  have hsecond :=
    exponent_shiftToTargetExponent_le hmantissa hfirst (by omega) (by omega) .exact
  push_cast at hsecond
  dsimp only
  generalize shiftToTargetExponent Format.binary64 first.1.roundedMantissa first.2 .exact = second
    at hsecond ⊢
  by_cases hzero : second.1.mantissa = 0
  · rw [dif_pos hzero]
    trivial
  · rw [dif_neg hzero]
    exact hsecond.trans (by omega)

theorem within_mul (h : Narrow limit u) (h' : Narrow limit' v) (hlow : -1074 ≤ limit + limit') :
    Within (limit + limit' + 107) (UnpackedFloat.mul Format.binary64 u v) := by
  match u, v with
  | .zero _, .zero _ => trivial
  | .zero _, .finite .. => trivial
  | .finite .., .zero _ => trivial
  | .finite _ m e _, .finite _ m' e' _ =>
    have hm : m * m' < Nat.pow 2 106 := by
      calc m * m' < Nat.pow 2 53 * Nat.pow 2 53 := Nat.mul_lt_mul'' h.1 h'.1
        _ = Nat.pow 2 106 := by decide
    exact within_roundWithAccuracy hm (Int.add_le_add h.2 h'.2) (by omega) hlow (by omega) _ _

/-! ## Whole numbers -/

variable {n : Nat}

theorem within_ofNat (h : n < Nat.pow 2 64) :
    Within 23 (UnpackedFloat.ofNat Format.binary64 n) := by
  unfold UnpackedFloat.ofNat UnpackedFloat.ofInt UnpackedFloat.normalize
  split
  next hneg => exact absurd (Int.compare_eq_lt.1 hneg) (by omega)
  next => trivial
  next =>
    rw [Int.toNat_natCast]
    unfold UnpackedFloat.round decreaseExponent
    rw [targetExponent_eq]
    refine within_roundWithAccuracy (show _ < Nat.pow 2 64 from ?_) (show _ ≤ (0 : Int) by omega)
      (by omega) (by omega) (by omega) _ _
    rw [Nat.shiftLeft_eq]
    have hlog : n < 2 ^ (n.log2 + 1) := Nat.lt_log2_self
    by_cases hsmall : n.log2 + 1 ≤ 53
    · have hshift : (0 - max ((n.log2 : Int) + 1 + 0 - 53) (-1074)).toNat =
          53 - (n.log2 + 1) := by omega
      rw [hshift]
      calc n * 2 ^ (53 - (n.log2 + 1))
        _ < 2 ^ (n.log2 + 1) * 2 ^ (53 - (n.log2 + 1)) :=
          Nat.mul_lt_mul_of_pos_right hlog (Nat.two_pow_pos _)
        _ = 2 ^ 53 := by rw [← pow_add, Nat.add_sub_cancel' hsmall]
        _ ≤ Nat.pow 2 64 := by decide
    · have hshift : (0 - max ((n.log2 : Int) + 1 + 0 - 53) (-1074)).toNat = 0 := by omega
      rw [hshift, Nat.pow_zero, Nat.mul_one]
      exact h

theorem within_ofScientific (h : n < Nat.pow 2 64) :
    Within 76 (UnpackedFloat.ofScientific Format.binary64 n 0) := by
  have hm : (n <<< 53) * 10 ^ (0 : Int).toNat < Nat.pow 2 117 := by
    have hpow : Nat.pow 2 117 = Nat.pow 2 64 * 2 ^ 53 := by norm_num
    rw [Nat.shiftLeft_eq, Int.toNat_zero, Nat.pow_zero, Nat.mul_one, hpow]
    exact Nat.mul_lt_mul_of_pos_right h (by norm_num)
  unfold UnpackedFloat.ofScientific
  by_cases hzero : n = 0
  · rw [dif_pos hzero]
    trivial
  · rw [dif_neg hzero, if_neg (by decide), if_neg (by simp), if_pos (by decide)]
    unfold UnpackedFloat.mul
    exact within_roundWithAccuracy hm (show _ ≤ (-53 : Int) by decide) (by omega) (by omega)
      (by omega) _ _

/-- The double one, as it stands in the table of powers of ten. -/
theorem narrow_one : Narrow (-52) (Float.ofBits 0x3FF0000000000000).toModel.unpack := by
  show Narrow (-52) (UnpackedFloat.unpack Format.binary64 _)
  exact narrow_unpack (by decide) (by decide +kernel) (by decide +kernel)

theorem narrow_ofNat (h : n < Nat.pow 2 64) : Narrow 78 (Float.ofNat n).toModel.unpack := by
  show Narrow 78 (Float.ofScientific n false 0).toModel.unpack
  unfold Float.ofScientific
  split
  next =>
    have hcast : n.toUInt64.toNat = n := Nat.mod_eq_of_lt h
    have hn : Narrow 23 (n.toUInt64.toFloat).toModel.unpack := by
      refine Within.pack (u := UnpackedFloat.ofNat Format.binary64 n.toUInt64.toNat) ?_ (by omega)
        (by omega)
      rw [hcast]
      exact within_ofNat h
    exact (within_mul hn narrow_one (by omega)).pack (by omega) (by omega)
  next =>
    have hround : Within 78 (UnpackedFloat.ofScientific Format.binary64 n 0) := by
      have hwithin := within_ofScientific h
      match UnpackedFloat.ofScientific Format.binary64 n 0, hwithin with
      | .zero _, _ => trivial
      | .finite .., he => exact le_trans he (by decide)
    exact hround.pack (by omega) (by omega)

/-- **A whole number of 64 bits, with or without a sign, is a finite double.** -/
theorem isFinite_ofInt {n : Int} (h : n.natAbs < Nat.pow 2 64) :
    (Float.ofInt n).isFinite = true := by
  cases n with
  | ofNat n => exact (narrow_ofNat h).isFinite
  | negSucc n =>
    have hn : Narrow 78 (Float.ofNat n.succ).toModel.unpack := narrow_ofNat h
    exact isFinite_pack hn.neg (by omega) (by omega)

end StateAtlas.Decimal
