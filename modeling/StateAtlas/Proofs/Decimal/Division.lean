import Mathlib
import StateAtlas.Proofs.Decimal.Order
import StateAtlas.Proofs.Decimal.Rounding
/-!
Doubles divided by a positive double.

Doubles are ordered as their ranks are, and positive finite ones as the numbers that they stand for.
Dividing these by a positive number keeps their order, and so do rounding and the bits in which a
double is stored: an exponent that is too large makes it infinite, and all else comes back as it
was.  Zero, infinity and the doubles below zero follow by sign.

Main statements: `stored_finite`, `float_div_le_div`.
-/

namespace StateAtlas.Decimal

open Float.Model Float.Model.UnpackedFloat

/-! ## Doubles as bits -/

theorem toNat_implicit (y : BitVec 52) : (1#1 ++ y).toNat = Nat.pow 2 52 + y.toNat := by
  rw [BitVec.toNat_append, ← Nat.shiftLeft_add_eq_or_of_lt y.isLt]
  rfl

/-- What the bits of a double stand for. -/
def ofComponents (s : Sign) (x : BitVec 11) (y : BitVec 52) : UnpackedFloat :=
  if x = -1#11 then if y = 0#52 then .infinity s else .notANumber
  else if x = 0#11 then
    if h : y.toNat = 0 then .zero s
    else .finite s y.toNat (-1074) (Nat.pos_of_ne_zero h)
  else .finite s (Nat.pow 2 52 + y.toNat) (x.toNat - 1075) (Nat.add_pos_left (by decide) _)

theorem unpack_eq (b : BitVec Format.binary64.numBits) :
    UnpackedFloat.unpack Format.binary64 b =
      ofComponents (.ofBitVec (unpackSign b)) (unpackExponent b) (unpackMantissa b) := by
  have hzero : unpackMantissa b = 0#52 ↔ (unpackMantissa b).toNat = 0 := by
    rw [← BitVec.toNat_inj]
    rfl
  unfold UnpackedFloat.unpack ofComponents
  dsimp only
  split
  next => rfl
  next =>
    split
    next hexponent =>
      by_cases hmantissa : unpackMantissa b = 0#52
      · rw [dif_pos hmantissa, dif_pos (hzero.1 hmantissa)]
      · rw [dif_neg hmantissa, dif_neg (mt hzero.2 hmantissa)]
        simp only [hexponent]
        rfl
    next =>
      simp only [toNat_implicit]
      rfl

theorem unpack_packComponents (s : Sign) (x : BitVec 11) (y : BitVec 52) :
    UnpackedFloat.unpack Format.binary64 (packComponents Format.binary64 s x y) =
      ofComponents s x y := by
  rw [unpack_eq, unpackSign_packComponents, Sign.ofBitVec_toBitVec,
    unpackExponent_packComponents, unpackMantissa_packComponents]

theorem neg_ofComponents (s : Sign) (x : BitVec 11) (y : BitVec 52) :
    ofComponents (-s) x y = (ofComponents s x y).neg := by
  unfold ofComponents
  repeat' split
  all_goals rfl

/-- A double as it comes back from its bits. -/
def stored (u : UnpackedFloat) : UnpackedFloat := (Float.Model.pack u).unpack

theorem stored_notANumber : stored .notANumber = .notANumber :=
  @unpack_packedNaN Format.binary64

/-- Bits keep the sign apart. -/
theorem stored_neg (u : UnpackedFloat) : stored u.neg = (stored u).neg := by
  have hcomponents (s : Sign) (x : BitVec 11) (y : BitVec 52) :
      UnpackedFloat.unpack Format.binary64 (packComponents Format.binary64 (-s) x y) =
        (UnpackedFloat.unpack Format.binary64 (packComponents Format.binary64 s x y)).neg := by
    rw [unpack_packComponents, unpack_packComponents, neg_ofComponents]
  show UnpackedFloat.unpack Format.binary64 (UnpackedFloat.pack Format.binary64 u.neg) =
    (UnpackedFloat.unpack Format.binary64 (UnpackedFloat.pack Format.binary64 u)).neg
  match u with
  | .notANumber => exact stored_notANumber.trans (congrArg UnpackedFloat.neg stored_notANumber).symm
  | .infinity s => exact hcomponents s _ _
  | .zero s => exact hcomponents s _ _
  | .finite s m e hm =>
    show UnpackedFloat.unpack _ (UnpackedFloat.pack _ (.finite (-s) m e hm)) = _
    rw [pack_finite, pack_finite]
    dsimp only
    split
    · exact hcomponents s _ _
    · split <;> exact hcomponents s _ _

/-- A finite double as its bits hold it: the mantissa has all its bits, unless the exponent is the
least there is. -/
def Canonical : UnpackedFloat → Prop
  | .finite _ m e _ => m < Nat.pow 2 53 ∧ -1074 ≤ e ∧ (e = -1074 ∨ Nat.pow 2 52 ≤ m)
  | _ => True

theorem canonical_unpack (x : Float.Model) : Canonical x.unpack := by
  show Canonical (UnpackedFloat.unpack Format.binary64 _)
  rw [unpack_eq]
  unfold ofComponents
  have hy := (@unpackMantissa Format.binary64 x.toBits.toBitVec).isLt
  repeat' split
  · trivial
  · trivial
  · trivial
  · exact ⟨lt_trans hy (by decide), le_rfl, .inl rfl⟩
  next hzero =>
    have hx : (@unpackExponent Format.binary64 x.toBits.toBitVec).toNat ≠ 0 :=
      fun h => hzero (BitVec.eq_of_toNat_eq h)
    refine ⟨?_, by omega, .inr (Nat.le_add_right ..)⟩
    calc _ < Nat.pow 2 52 + Nat.pow 2 52 := Nat.add_lt_add_left hy _
      _ = Nat.pow 2 53 := by decide

/-- A mantissa with all its bits comes back without the first of them, which is implicit. -/
theorem ofComponents_normal (s : Sign) {m : ℕ} {e : ℤ} (hm : 0 < m)
    (hbits : m < Nat.pow 2 53) (hfull : Nat.pow 2 52 ≤ m) (hlow : -1074 ≤ e) (hhigh : e ≤ 971) :
    ofComponents s (BitVec.ofNat 11 (e + 1075).toNat) (BitVec.ofNat 52 m) = .finite s m e hm := by
  have hx : (BitVec.ofNat 11 (e + 1075).toNat).toNat = (e + 1075).toNat :=
    Nat.mod_eq_of_lt (show (e + 1075).toNat < 2048 by omega)
  have hy : Nat.pow 2 52 + (BitVec.ofNat 52 m).toNat = m := by
    have hdouble : Nat.pow 2 53 = 2 * Nat.pow 2 52 := by decide
    show Nat.pow 2 52 + m % Nat.pow 2 52 = m
    rw [Nat.mod_eq_sub_mod hfull, Nat.mod_eq_of_lt (by omega)]
    omega
  have hinfinite : BitVec.ofNat 11 (e + 1075).toNat ≠ -1#11 := by
    intro h
    have hones := congrArg BitVec.toNat h
    rw [hx, show (-1#11).toNat = 2047 by decide] at hones
    omega
  have hzero : BitVec.ofNat 11 (e + 1075).toNat ≠ 0#11 := by
    intro h
    have hnone := congrArg BitVec.toNat h
    rw [hx, BitVec.toNat_ofNat] at hnone
    omega
  rw [ofComponents, if_neg hinfinite, if_neg hzero]
  simp only [UnpackedFloat.finite.injEq, true_and]
  exact ⟨hy, by rw [hx]; omega⟩

theorem ofComponents_subnormal (s : Sign) {m : ℕ} (hm : 0 < m) (hbits : m < Nat.pow 2 52) :
    ofComponents s 0#11 (BitVec.ofNat 52 m) = .finite s m (-1074) hm := by
  have hy : (BitVec.ofNat 52 m).toNat = m := Nat.mod_eq_of_lt hbits
  rw [ofComponents, if_neg (by decide), if_pos rfl, dif_neg (by rw [hy]; exact hm.ne')]
  simp only [hy]

/-- **A double comes back from its bits**, unless its exponent is too large. -/
theorem stored_finite {s : Sign} {m : ℕ} {e : ℤ} {hm : 0 < m} (h : Canonical (.finite s m e hm)) :
    stored (.finite s m e hm) = if 971 < e then .infinity s else .finite s m e hm := by
  obtain ⟨hbits, hlow, hfull⟩ := h
  show UnpackedFloat.unpack Format.binary64 (UnpackedFloat.pack Format.binary64 _) = _
  rw [pack_finite, biased_eq]
  dsimp only
  by_cases hlarge : 971 < e
  · rw [if_pos hlarge, if_pos (by omega)]
    exact unpack_packComponents s _ _
  · rw [if_neg hlarge, if_neg (by omega)]
    by_cases hnormal : Nat.pow 2 52 ≤ m
    · have hlog : m.log2 + 1 = 53 := by
        have hle : 52 ≤ m.log2 := (Nat.le_log2 hm.ne').2 hnormal
        have hlt : m.log2 < 53 := (Nat.log2_lt hm.ne').2 hbits
        omega
      rw [if_pos hlog]
      exact (unpack_packComponents s _ _).trans
        (ofComponents_normal s hm hbits hnormal hlow (not_lt.1 hlarge))
    · obtain rfl : e = -1074 := hfull.resolve_right hnormal
      have hlog : m.log2 < 52 := (Nat.log2_lt hm.ne').2 (not_le.1 hnormal)
      rw [if_neg (by omega)]
      exact (unpack_packComponents s 0#11 _).trans
        (ofComponents_subnormal s hm (not_le.1 hnormal))

/-! ## Order -/

variable {u u' : UnpackedFloat}

theorem toLex_le_iff (c c' e e' m m' : ℤ) : toLex (c, toLex (e, m)) ≤ toLex (c', toLex (e', m')) ↔
    c < c' ∨ c = c' ∧ (e < e' ∨ e = e' ∧ m ≤ m') := by
  rw [Prod.Lex.toLex_le_toLex, Prod.Lex.toLex_le_toLex]

theorem rank_neg_le (h : rank u ≤ rank u') : rank u'.neg ≤ rank u.neg := by
  have hneg : ∀ s : Sign, -s = match s with | .negative => .positive | .positive => .negative := by
    rintro (_ | _) <;> rfl
  rcases u with (_ | _) | _ | _ | ⟨_ | _, m, e, hm⟩ <;>
    rcases u' with (_ | _) | _ | _ | ⟨_ | _, m', e', hm'⟩ <;>
      simp only [rank, UnpackedFloat.neg, hneg, toLex_le_iff, true_and] at h ⊢ <;> omega

theorem rank_le_infinity (u : UnpackedFloat) : rank u ≤ rank (.infinity .positive) := by
  rcases u with (_ | _) | _ | _ | ⟨_ | _, m, e, hm⟩ <;>
    simp only [rank, toLex_le_iff, true_and] <;> omega

theorem unpacked_neg_neg (u : UnpackedFloat) : u.neg.neg = u := by
  rcases u with (_ | _) | _ | (_ | _) | ⟨_ | _, m, e, hm⟩ <;> rfl

/-- Positive finite doubles are ordered as the numbers that they stand for. -/
theorem value_le {m m' : ℕ} {e e' : ℤ} {hm : 0 < m} {hm' : 0 < m'}
    (hc : Canonical (.finite .positive m e hm)) (hc' : Canonical (.finite .positive m' e' hm'))
    (h : rank (.finite .positive m e hm) ≤ rank (.finite .positive m' e' hm')) :
    m * ulp e ≤ m' * ulp e' := by
  simp only [rank, toLex_le_iff, lt_self_iff_false, false_or, true_and] at h
  rcases h with hlt | ⟨rfl, hle⟩
  · have hfull : Nat.pow 2 52 ≤ m' := hc'.2.2.resolve_left (by have := hc.2.1; omega)
    calc m * ulp e ≤ ulp (53 : ℕ) * ulp e := by
          refine mul_le_mul_of_nonneg_right ?_ (ulp_pos e).le
          rw [ulp_natCast]
          exact_mod_cast hc.1.le
      _ = ulp (52 : ℕ) * ulp (e + 1) := by
          rw [← ulp_add, ← ulp_add]
          congr 1
          push_cast
          ring
      _ ≤ m' * ulp e' := by
          refine mul_le_mul ?_ (ulp_le_ulp hlt) (ulp_pos _).le (Nat.cast_nonneg _)
          rw [ulp_natCast]
          exact_mod_cast hfull
  · exact mul_le_mul_of_nonneg_right (by exact_mod_cast hle) (ulp_pos e).le

theorem stored_settle (s : Sign) {v : ℚ} {m : ℕ} {e : ℤ} (h : RoundsTo v m e) :
    stored (settle s m e) =
      if hm : m = 0 then .zero s
      else if m < Nat.pow 2 53 then
        if 971 < e then .infinity s else .finite s m e (Nat.pos_of_ne_zero hm)
      else if 971 < e + 1 then .infinity s
      else .finite s (Nat.pow 2 52) (e + 1) (by decide) := by
  unfold settle
  split
  next => exact unpack_packComponents s 0#11 0#52
  next =>
    split
    next hlt => exact stored_finite ⟨hlt, h.low, h.le_mantissa⟩
    next => exact stored_finite ⟨by decide, by have := h.low; omega, .inr le_rfl⟩

/-- **Lesser quotients are stored as lesser doubles.** -/
theorem rank_settle_le {v v' : ℚ} {m m' : ℕ} {e e' : ℤ} (h : RoundsTo v m e)
    (h' : RoundsTo v' m' e') (hv : v ≤ v') :
    rank (stored (settle .positive m e)) ≤ rank (stored (settle .positive m' e')) := by
  have hbound := h.mantissa_le
  have hbound' := h'.mantissa_le
  have hlow := h.low
  have hfull := h'.le_mantissa
  have horder := h.mono h' hv
  have hdouble : Nat.pow 2 53 = 2 * Nat.pow 2 52 := by decide
  have hpos : 0 < Nat.pow 2 52 := by decide
  rw [stored_settle _ h, stored_settle _ h']
  repeat' split
  all_goals simp only [rank, toLex_le_iff, true_and]; omega

/-! ## Division -/

theorem roundWithAccuracy_neg (s : Sign) (m : ℕ) (e : ℤ) (a : Accuracy) :
    roundWithAccuracy Format.binary64 (-s) m e a =
      (roundWithAccuracy Format.binary64 s m e a).neg := by
  unfold roundWithAccuracy
  dsimp only
  split <;> rfl

section

variable {m : ℕ} {e : ℤ} {hm : 0 < m}

theorem unpacked_div_neg (u : UnpackedFloat) :
    UnpackedFloat.div Format.binary64 u.neg (.finite .positive m e hm) =
      (UnpackedFloat.div Format.binary64 u (.finite .positive m e hm)).neg := by
  match u with
  | .notANumber => rfl
  | .infinity .negative | .infinity .positive => rfl
  | .zero .negative | .zero .positive => rfl
  | .finite .negative .. => exact roundWithAccuracy_neg .negative _ _ _
  | .finite .positive .. => exact roundWithAccuracy_neg .positive _ _ _

/-- A positive quotient is rounded. -/
theorem exists_div (m : ℕ) (e : ℤ) (hm : 0 < m) {m' : ℕ} {e' : ℤ} {hm' : 0 < m'}
    (hc : Canonical (.finite .positive m' e' hm')) :
    ∃ q f, RoundsTo (m' * ulp e' / (m * ulp e)) q f ∧
      UnpackedFloat.div Format.binary64 (.finite .positive m' e' hm') (.finite .positive m e hm) =
        settle .positive q f := by
  obtain ⟨q, te, a, hcore, hte, hq⟩ := exists_divCore e' e hm' hm hc.1
  obtain ⟨r, f, hrounds, hround⟩ := exists_roundWithAccuracy .positive hq hte
  rw [div_mul_cancel₀ _ (ulp_pos te).ne'] at hrounds
  refine ⟨r, f, hrounds, ?_⟩
  show (match divCore Format.binary64 m' e' m e with
    | (m, e, acc) => roundWithAccuracy Format.binary64 .positive m e acc) = _
  rw [hcore]
  exact hround

/-- A quotient as it is stored. -/
def quotient (u v : UnpackedFloat) : UnpackedFloat := stored (UnpackedFloat.div Format.binary64 u v)

theorem quotient_neg (u : UnpackedFloat) :
    quotient u.neg (.finite .positive m e hm) = (quotient u (.finite .positive m e hm)).neg := by
  rw [quotient, unpacked_div_neg, stored_neg]
  rfl

theorem quotient_zero (s : Sign) :
    quotient (.zero s) (.finite .positive m e hm) = .zero s := by
  cases s <;> exact unpack_packComponents _ 0#11 0#52

theorem quotient_infinity (s : Sign) :
    quotient (.infinity s) (.finite .positive m e hm) = .infinity s := by
  cases s <;> exact unpack_packComponents _ (-1#11) 0#52

variable {u u' : UnpackedFloat}

theorem isNaN_neg (u : UnpackedFloat) : u.neg.isNaN = u.isNaN := by cases u <;> rfl

/-- The doubles from zero on. -/
theorem nonneg_cases (hu : u.isNaN = false) (h : rank (.zero .positive) ≤ rank u) :
    (∃ s, u = .zero s) ∨ u = .infinity .positive ∨ ∃ m e hm, u = .finite .positive m e hm := by
  rcases u with (_ | _) | _ | s | ⟨_ | _, m, e, hm⟩
  · simp only [rank, toLex_le_iff, true_and] at h
    omega
  · exact .inr (.inl rfl)
  · cases hu
  · exact .inl ⟨s, rfl⟩
  · simp only [rank, toLex_le_iff] at h
    omega
  · exact .inr (.inr ⟨m, e, hm, rfl⟩)

theorem rank_zero_le_settle {v : ℚ} {q : ℕ} {f : ℤ} (h : RoundsTo v q f) :
    rank (.zero .positive) ≤ rank (stored (settle .positive q f)) := by
  rw [stored_settle _ h]
  repeat' split
  all_goals simp only [rank, toLex_le_iff, true_and]; omega

theorem rank_zero_le_quotient (hu : u.isNaN = false) (hc : Canonical u)
    (h : rank (.zero .positive) ≤ rank u) :
    rank (.zero .positive) ≤ rank (quotient u (.finite .positive m e hm)) := by
  rcases nonneg_cases hu h with ⟨s, rfl⟩ | rfl | ⟨m', e', hm', rfl⟩
  · rw [quotient_zero]
    exact le_rfl
  · rw [quotient_infinity]
    exact rank_le_infinity _
  · obtain ⟨q, f, hrounds, hdiv⟩ := exists_div m e hm hc
    rw [quotient, hdiv]
    exact rank_zero_le_settle hrounds

theorem rank_quotient_le_of_nonneg (hu : u.isNaN = false) (hu' : u'.isNaN = false)
    (hc : Canonical u) (hc' : Canonical u') (hpos : rank (.zero .positive) ≤ rank u)
    (h : rank u ≤ rank u') :
    rank (quotient u (.finite .positive m e hm)) ≤
      rank (quotient u' (.finite .positive m e hm)) := by
  rcases nonneg_cases hu hpos with ⟨s, rfl⟩ | rfl | ⟨m₁, e₁, hm₁, rfl⟩ <;>
    rcases nonneg_cases hu' (hpos.trans h) with ⟨s', rfl⟩ | rfl | ⟨m₂, e₂, hm₂, rfl⟩
  -- Zero is the least of them and infinity the greatest.
  case inl.inl | inl.inr.inr =>
    rw [quotient_zero]
    exact rank_zero_le_quotient hu' hc' h
  case inl.inr.inl | inr.inl.inr.inl | inr.inr.inr.inl =>
    refine (rank_le_infinity _).trans_eq ?_
    rw [quotient_infinity]
  case inr.inr.inr.inr =>
    obtain ⟨q₁, f₁, hrounds₁, hdiv₁⟩ := exists_div m e hm hc
    obtain ⟨q₂, f₂, hrounds₂, hdiv₂⟩ := exists_div m e hm hc'
    rw [quotient, quotient, hdiv₁, hdiv₂]
    refine rank_settle_le hrounds₁ hrounds₂ ?_
    exact div_le_div_of_nonneg_right (value_le hc hc' h)
      (mul_nonneg (Nat.cast_nonneg _) (ulp_pos e).le)
  all_goals simp [rank, toLex_le_iff] at h

theorem canonical_neg (hc : Canonical u) : Canonical u.neg := by
  cases u <;> exact hc

/-- **Quotients by a positive number are ordered as the numbers are.** -/
theorem rank_quotient_le (hu : u.isNaN = false) (hu' : u'.isNaN = false)
    (hc : Canonical u) (hc' : Canonical u') (h : rank u ≤ rank u') :
    rank (quotient u (.finite .positive m e hm)) ≤
      rank (quotient u' (.finite .positive m e hm)) := by
  have hflip {v w : UnpackedFloat} (h : rank v.neg ≤ rank w.neg) : rank w ≤ rank v := by
    have hneg := rank_neg_le h
    rwa [unpacked_neg_neg, unpacked_neg_neg] at hneg
  rcases le_total (rank (.zero .positive)) (rank u) with hpos | hneg
  · exact rank_quotient_le_of_nonneg hu hu' hc hc' hpos h
  · have hpos : rank (.zero .positive) ≤ rank u.neg := rank_neg_le hneg
    have hnan : u.neg.isNaN = false := (isNaN_neg u).trans hu
    have hnan' : u'.neg.isNaN = false := (isNaN_neg u').trans hu'
    rcases le_total (rank (.zero .positive)) (rank u') with hpos' | hneg'
    · have hbelow : rank (quotient u (.finite .positive m e hm)) ≤ rank (.zero .positive) := by
        refine hflip ?_
        rw [← quotient_neg]
        exact rank_zero_le_quotient hnan (canonical_neg hc) hpos
      exact hbelow.trans (rank_zero_le_quotient hu' hc' hpos')
    · refine hflip ?_
      rw [← quotient_neg, ← quotient_neg]
      exact rank_quotient_le_of_nonneg hnan' hnan (canonical_neg hc') (canonical_neg hc)
        (rank_neg_le hneg') (rank_neg_le h)

theorem isNaN_stored_settle {v : ℚ} {q : ℕ} {f : ℤ} (h : RoundsTo v q f) :
    (stored (settle .positive q f)).isNaN = false := by
  rw [stored_settle _ h]
  repeat' split
  all_goals rfl

/-- A quotient of numbers is a number. -/
theorem isNaN_quotient (hu : u.isNaN = false) (hc : Canonical u) :
    (quotient u (.finite .positive m e hm)).isNaN = false := by
  have hpositive {m' : ℕ} {e' : ℤ} {hm' : 0 < m'} (hc : Canonical (.finite .positive m' e' hm')) :
      (quotient (.finite .positive m' e' hm') (.finite .positive m e hm)).isNaN = false := by
    obtain ⟨q, f, hrounds, hdiv⟩ := exists_div m e hm hc
    rw [quotient, hdiv]
    exact isNaN_stored_settle hrounds
  match u with
  | .infinity s => rw [quotient_infinity]; rfl
  | .zero s => rw [quotient_zero]; rfl
  | .finite .positive m' e' hm' => exact hpositive hc
  | .finite .negative m' e' hm' =>
    calc (quotient (UnpackedFloat.neg (.finite .positive m' e' hm')) _).isNaN
      _ = (quotient (.finite .positive m' e' hm') _).neg.isNaN := by rw [quotient_neg]
      _ = false := (isNaN_neg _).trans (hpositive hc)

end

variable {x y l : Float}

/-- A positive double that is finite. -/
theorem exists_unpack_of_pos (hle : Float.ofNat 0 ≤ l) (hne : ¬l ≤ Float.ofNat 0)
    (hfinite : l.isFinite = true) :
    ∃ m e hm, l.toModel.unpack = .finite .positive m e hm := by
  have hzero : (Float.ofNat 0).toModel.unpack = .zero .positive := rfl
  rw [float_le_iff, hzero] at hle hne
  rcases nonneg_cases hle.2.1 hle.2.2 with ⟨s, heq⟩ | heq | hpos
  · rw [heq] at hne
    exact absurd ⟨hle.2.1, hle.1, le_rfl⟩ hne
  · have hinfinite : l.toModel.unpack.isFinite = true := hfinite
    rw [heq] at hinfinite
    cases hinfinite
  · exact hpos

/-- **Division by a positive double keeps the order.** -/
theorem float_div_le_div (h : x ≤ y) (hle : Float.ofNat 0 ≤ l) (hne : ¬l ≤ Float.ofNat 0)
    (hfinite : l.isFinite = true) : x / l ≤ y / l := by
  obtain ⟨m, e, hm, hl⟩ := exists_unpack_of_pos hle hne hfinite
  have hquotient (z : Float) :
      (z / l).toModel.unpack = quotient z.toModel.unpack (.finite .positive m e hm) := by
    rw [← hl]
    rfl
  rw [float_le_iff] at h ⊢
  have hcanonical (z : Float) : Canonical z.toModel.unpack := canonical_unpack z.toModel
  refine ⟨?_, ?_, ?_⟩
  · show (x / l).toModel.unpack.isNaN = false
    rw [hquotient]
    exact isNaN_quotient h.1 (hcanonical x)
  · show (y / l).toModel.unpack.isNaN = false
    rw [hquotient]
    exact isNaN_quotient h.2.1 (hcanonical y)
  · rw [hquotient, hquotient]
    exact rank_quotient_le h.1 h.2.1 (hcanonical x) (hcanonical y) h.2.2

/-- What gives a number when it is divided is a number. -/
theorem isNaN_of_div (h : (x / l).isNaN = false) : x.isNaN = false := by
  have hquotient : (quotient x.toModel.unpack l.toModel.unpack).isNaN = false := h
  show x.toModel.unpack.isNaN = false
  cases hx : x.toModel.unpack with
  | notANumber =>
    rw [hx, quotient] at hquotient
    have hnone : UnpackedFloat.div Format.binary64 .notANumber l.toModel.unpack = .notANumber := by
      cases l.toModel.unpack <;> rfl
    rw [hnone, stored_notANumber] at hquotient
    exact hquotient
  | infinity | zero | finite => rfl

end StateAtlas.Decimal
