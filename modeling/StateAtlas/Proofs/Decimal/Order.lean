import Mathlib.Data.Prod.Lex
import Mathlib.Order.Defs.LinearOrder
/-!
Doubles that are numbers, in their order.

The order of doubles is not even reflexive, as a NaN is beside everything.  The other doubles have
ranks in a linear order: first the class of a double, from minus infinity to infinity, then the
exponent and then the mantissa, both turned round below zero.  Doubles are ordered as their ranks are,
so that numbers can always be compared.

Main statements: `le_or_le`, `le_of_le_of_le`, `not_lt_of_le`.
-/

namespace StateAtlas.Decimal

open Float.Model Float.Model.UnpackedFloat

/-- The place of a double among the numbers: its class, exponent and mantissa. -/
def rank : UnpackedFloat → ℤ ×ₗ ℤ ×ₗ ℤ
  | .infinity .negative => toLex (-2, toLex (0, 0))
  | .finite .negative m e _ => toLex (-1, toLex (-e, -m))
  | .notANumber => toLex (0, toLex (0, 0))
  | .zero _ => toLex (0, toLex (0, 0))
  | .finite .positive m e _ => toLex (1, toLex (e, m))
  | .infinity .positive => toLex (2, toLex (0, 0))

/-- Exponents come before mantissas. -/
theorem isLE_then_iff (e e' : ℤ) (m m' : ℕ) :
    ((compare e e').then (compare m m')).isLE = true ↔
      toLex (e, (m : ℤ)) ≤ toLex (e', (m' : ℤ)) := by
  rw [Ordering.isLE_then_iff_or, Int.compare_eq_lt, Int.compare_eq_eq, Nat.isLE_compare,
    Prod.Lex.toLex_le_toLex, Int.ofNat_le]

/-- Below zero the order is turned round. -/
theorem isGE_then_iff (e e' : ℤ) (m m' : ℕ) :
    ((compare e e').then (compare m m')).isGE = true ↔
      toLex (-e, -(m : ℤ)) ≤ toLex (-e', -(m' : ℤ)) := by
  rw [← Ordering.isLE_swap, Ordering.swap_then, Int.compare_swap, Nat.compare_swap, isLE_then_iff]
  simp only [Prod.Lex.toLex_le_toLex]
  omega

/-- Doubles compare if both are numbers, and then as their ranks do. -/
theorem le_iff_rank_le (u v : UnpackedFloat) :
    u.le v = true ↔ u.isNaN = false ∧ v.isNaN = false ∧ rank u ≤ rank v := by
  have hclass : ∀ (c c' : ℤ) (p p' : ℤ ×ₗ ℤ),
      toLex (c, p) ≤ toLex (c', p') ↔ c < c' ∨ c = c' ∧ p ≤ p' := fun _ _ _ _ =>
    Prod.Lex.toLex_le_toLex
  have hsame : ∀ s : Sign, compare s s = .eq := by rintro (_ | _) <;> rfl
  have hbelow : compare Sign.negative Sign.positive = .lt := rfl
  have habove : compare Sign.positive Sign.negative = .gt := rfl
  unfold UnpackedFloat.le UnpackedFloat.compare UnpackedFloat.isNaN rank
  -- The classes alone decide, but for two finite doubles of one sign.
  rcases u with (_ | _) | _ | _ | ⟨_ | _, m, e, hm⟩ <;>
    rcases v with (_ | _) | _ | _ | ⟨_ | _, m', e', hm'⟩ <;>
      dsimp only <;>
        simp [hclass, hsame, hbelow, habove, isLE_then_iff, isGE_then_iff]

/-! ## Numbers -/

variable {x y z : Float}

theorem float_le_iff :
    x ≤ y ↔ x.isNaN = false ∧ y.isNaN = false ∧ rank x.toModel.unpack ≤ rank y.toModel.unpack :=
  decide_eq_true_iff.trans (le_iff_rank_le _ _)

/-- Of two numbers one is at most the other. -/
theorem le_or_le (hx : x.isNaN = false) (hy : y.isNaN = false) : x ≤ y ∨ y ≤ x := by
  rw [float_le_iff, float_le_iff]
  rcases le_total (rank x.toModel.unpack) (rank y.toModel.unpack) with h | h
  · exact .inl ⟨hx, hy, h⟩
  · exact .inr ⟨hy, hx, h⟩

theorem le_of_le_of_le (hxy : x ≤ y) (hyz : y ≤ z) : x ≤ z := by
  rw [float_le_iff] at hxy hyz ⊢
  exact ⟨hxy.1, hyz.2.1, hxy.2.2.trans hyz.2.2⟩

/-- Turning a comparison round turns its result round. -/
theorem compare_swap (u v : UnpackedFloat) :
    UnpackedFloat.compare v u = (UnpackedFloat.compare u v).map Ordering.swap := by
  have hsame : ∀ s : Sign, compare s s = .eq := by rintro (_ | _) <;> rfl
  have hbelow : compare Sign.negative Sign.positive = .lt := rfl
  have habove : compare Sign.positive Sign.negative = .gt := rfl
  unfold UnpackedFloat.compare
  rcases u with (_ | _) | _ | _ | ⟨_ | _, m, e, hm⟩ <;>
    rcases v with (_ | _) | _ | _ | ⟨_ | _, m', e', hm'⟩ <;>
      simp [hsame, hbelow, habove, Ordering.swap_then, Int.compare_swap, Nat.compare_swap]

theorem not_lt_of_le (h : x ≤ y) : ¬y < x := by
  intro hlt
  have hle : (UnpackedFloat.compare x.toModel.unpack y.toModel.unpack).any Ordering.isLE = true :=
    of_decide_eq_true h
  have hgt : UnpackedFloat.compare y.toModel.unpack x.toModel.unpack = some .lt :=
    eq_of_beq (of_decide_eq_true hlt)
  obtain ⟨o, ho, hswap⟩ := Option.map_eq_some_iff.1 ((compare_swap ..).symm.trans hgt)
  rw [ho] at hle
  cases o with
  | gt => nomatch hle
  | lt | eq => nomatch hswap

end StateAtlas.Decimal
