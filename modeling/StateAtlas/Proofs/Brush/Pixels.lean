import Mathlib.Data.Rat.Floor
import Mathlib.Tactic.Linarith
import Mathlib.Tactic.Ring
import StateAtlas.Proofs.Brush.Axes
/-!
Brushing a numeric axis in pixels, over exact numbers.

A linear scale turns the axis round: the greatest value of the domain stands at pixel 0 and the
least at the end.  Its domain has a width whatever is observed and declared, so that positions and
values turn into each other exactly.  The ends of a brushed interval change places on the way to
values and change places again on the way back.  As the constraint is kept in values, resizing the
axis only scales the interval that is shown.

Whatever numbers texts stand for is left open, as exact numbers have no fixed form as texts.

Main statement: `pixels_invert`.
-/

namespace StateAtlas

open AxisNumber

/-! ## Exact numbers -/

/-- How rational numbers are written as labels and which texts are read as rational numbers. -/
class RationalText where
  label : ℚ → String
  ofText? : String → Option ℚ

/-- Whole numbers as they are written; any other number is written as a fraction and not read. -/
@[reducible] def RationalText.whole : RationalText where
  label x := if x.den = 1 then toString x.num else toString x.num ++ "/" ++ toString x.den
  ofText? s := s.toInt?.map fun n => (n : ℚ)

instance [RationalText] : AxisNumber ℚ where
  ofNat n := n
  le x y := x ≤ y
  isFinite _ := true
  index x := ⌊x⌋.toNat
  label := RationalText.label
  ofText? := RationalText.ofText?

section

variable [RationalText] {x y : ℚ}

theorem le_eq_true_iff : le x y = true ↔ x ≤ y := decide_eq_true_iff

theorem lt_eq_true_iff : lt x y = true ↔ x < y := by
  rw [lt, Bool.and_eq_true, Bool.not_eq_true', ← Bool.not_eq_true, le_eq_true_iff, le_eq_true_iff]
  exact lt_iff_le_not_ge.symm

theorem equal_eq_true_iff : equal x y = true ↔ x = y := by
  rw [equal, Bool.and_eq_true, le_eq_true_iff, le_eq_true_iff]
  exact le_antisymm_iff.symm

theorem least_eq_min (x y : ℚ) : least x y = min x y := by
  have hself : le x x = true := le_eq_true_iff.2 le_rfl
  simp only [least, hself, Bool.not_true, Bool.false_or, lt_eq_true_iff]
  split
  next h => exact (min_eq_right h.le).symm
  next h => exact (min_eq_left (not_lt.1 h)).symm

theorem greatest_eq_max (x y : ℚ) : greatest x y = max x y := by
  have hself : le x x = true := le_eq_true_iff.2 le_rfl
  simp only [greatest, hself, Bool.not_true, Bool.false_or, lt_eq_true_iff]
  split
  next h => exact (max_eq_right h.le).symm
  next h => exact (max_eq_left (not_lt.1 h)).symm

/-- **The domain of a numeric scale has a width and holds zero**, whatever is shown and declared. -/
theorem Scale.exists_numeric (observed : List ℚ) (declared : AxisDeclaration ℚ) :
    ∃ lo hi, Scale.numeric observed declared = .linear lo hi ∧ lo < hi ∧ lo ≤ 0 ∧ 0 ≤ hi := by
  have hzero : (ofNat 0 : ℚ) = 0 := Nat.cast_zero
  have hone : (ofNat 1 : ℚ) = 1 := Nat.cast_one
  have hstretched {lo hi : ℚ} (h : lo < hi) : ∃ lo' hi',
      (Scale.linear (least lo (ofNat 0)) (greatest hi (ofNat 0)) : Scale ℚ) = .linear lo' hi' ∧
        lo' < hi' ∧ lo' ≤ 0 ∧ 0 ≤ hi' := by
    refine ⟨min lo 0, max hi 0, ?_, ?_, min_le_right .., le_max_right ..⟩
    · rw [least_eq_min, greatest_eq_max, hzero]
    · exact (min_le_left ..).trans_lt (h.trans_le (le_max_left ..))
  have hwidened {lo hi : ℚ} (h : lo ≤ hi) :
      lo < if equal lo hi then hi + ofNat 1 else hi := by
    rw [hone]
    split
    next => linarith
    next hne => exact lt_of_le_of_ne h fun heq => hne (equal_eq_true_iff.2 heq)
  unfold Scale.numeric
  dsimp only
  split
  next hlt => exact hstretched (hwidened (lt_eq_true_iff.1 hlt).le)
  next hge => exact hstretched (hwidened (not_lt.1 fun h => hge (lt_eq_true_iff.2 h)))

end

namespace Brush

variable [RationalText] {b : Brush ℚ} {d : Dimension ℚ} {name : String} {lo hi p q : ℚ}

theorem axisLength_pos (h : b.LaidOut) : 0 < b.axisLength := by
  rcases h.axisLength with heq | hlength
  · rw [heq]
    exact zero_lt_one.trans_eq Nat.cast_one.symm
  · have hpos := (Bool.and_eq_true_iff.1 hlength).2
    exact Nat.cast_zero.symm.trans_lt (lt_eq_true_iff.1 hpos)

/-! ## Resizing -/

theorem resize_eq (b : Brush ℚ) (length : ℚ) :
    b.resize length = if 0 < length then { b with axisLength := length } else b := by
  have hzero : (ofNat 0 : ℚ) = 0 := Nat.cast_zero
  have hlength : (isFinite length && lt (ofNat 0) length) = true ↔ 0 < length := by
    rw [show isFinite length = true from rfl, Bool.true_and, lt_eq_true_iff, hzero]
  unfold resize
  simp only [hlength]

/-- Of lengths one after the other the last that an axis can have counts. -/
theorem foldl_resize (b : Brush ℚ) (lengths : List ℚ) :
    lengths.foldl resize b =
      { b with axisLength := (lengths.filter (0 < ·)).getLast?.getD b.axisLength } := by
  induction lengths generalizing b with
  | nil => rfl
  | cons length lengths ih =>
    rw [List.foldl_cons, ih, List.filter_cons, resize_eq]
    by_cases hpos : 0 < length
    · simp [hpos, List.getLast?_cons]
    · simp [hpos]

/-! ## Pixels and values -/

/-- The value at a pixel of an axis with a domain. -/
def valueAt (b : Brush ℚ) (lo hi p : ℚ) : ℚ := hi - p / b.axisLength * (hi - lo)

omit [RationalText] in
theorem valueAt_lt (hlt : lo < hi) (hlength : 0 < b.axisLength) (hpq : p < q) :
    b.valueAt lo hi q < b.valueAt lo hi p := by
  have hquotient : p / b.axisLength < q / b.axisLength := div_lt_div_of_pos_right hpq hlength
  exact sub_lt_sub_left (mul_lt_mul_of_pos_right hquotient (sub_pos.2 hlt)) hi

/-- The positions between two pixels cover the values at these, the ends changing places. -/
theorem invert_eq (hlength : 0 < b.axisLength) :
    (Scale.linear lo hi).invert (p / b.axisLength) (q / b.axisLength) =
      .range (b.valueAt lo hi (max p q)) (b.valueAt lo hi (min p q)) := by
  have hle : le (p / b.axisLength) (q / b.axisLength) = true ↔ p ≤ q :=
    le_eq_true_iff.trans (div_le_div_iff_of_pos_right hlength)
  unfold Scale.invert
  simp only [hle]
  rcases le_or_gt p q with h | h
  · rw [if_pos h, min_eq_left h, max_eq_right h]
    rfl
  · rw [if_neg (not_le.2 h), min_eq_right h.le, max_eq_left h.le]
    rfl

/-- What is stored when a numeric dimension is brushed is the range of the values between. -/
theorem eq_range_of_brushPixels (hname : b.dimension? name = some d)
    (hscale : d.scale = .linear lo hi) (hlt : lo < hi) (hlength : 0 < b.axisLength) (hne : p ≠ q)
    {c : Constraint ℚ} (hc : (b.brushPixels name p q).constraint? name = some c) :
    c = .range (b.valueAt lo hi (max p q)) (b.valueAt lo hi (min p q)) false := by
  have hequal : equal p q = false := by
    rw [← Bool.not_eq_true, equal_eq_true_iff]
    exact hne
  have hvalues : b.valueAt lo hi (max p q) < b.valueAt lo hi (min p q) :=
    valueAt_lt hlt hlength (min_lt_max.2 hne)
  rw [constraint?_brushPixels hname hequal, constraintBetween?, hscale, invert_eq hlength,
    Option.bind_some, Constraint.between, least_eq_min, greatest_eq_max, min_eq_left hvalues.le,
    max_eq_right hvalues.le] at hc
  have hstored := (normalize?_range_eq_some hc).1
  rwa [least_eq_min, greatest_eq_max, min_eq_left hvalues.le, max_eq_right hvalues.le] at hstored

/-- The position of the value at a pixel is the pixel divided by the length. -/
theorem positionOf?_valueAt (hlt : lo < hi) (p : ℚ) :
    (Scale.linear lo hi).positionOf? (b.valueAt lo hi p) = some (p / b.axisLength) := by
  have hspan : hi - lo ≠ 0 := (sub_pos.2 hlt).ne'
  refine congrArg some ?_
  show (hi - (hi - p / b.axisLength * (hi - lo))) / (hi - lo) = p / b.axisLength
  rw [sub_sub_cancel, mul_div_cancel_right₀ _ hspan]

/-- The pixels of the range between two pixels, on an axis that may have been resized. -/
theorem constraintPixels?_eq {b' : Brush ℚ} (hname : b'.dimension? name = some d)
    (hscale : d.scale = .linear lo hi) (hlt : lo < hi)
    (hc : b'.constraint? name = some (.range (b.valueAt lo hi q) (b.valueAt lo hi p) false)) :
    b'.constraintPixels? name =
      some (p * (b'.axisLength / b.axisLength), q * (b'.axisLength / b.axisLength)) := by
  have hpixel (x : ℚ) : x / b.axisLength * b'.axisLength = x * (b'.axisLength / b.axisLength) := by
    ring
  have hpositions : positions? d.scale (.range (b.valueAt lo hi q) (b.valueAt lo hi p) false) =
      some (p / b.axisLength, q / b.axisLength) := by
    simp only [positions?, hscale, positionOf?_valueAt hlt]
    rfl
  rw [constraint?, keyFor_eq hname] at hc
  unfold constraintPixels?
  simp only [hname, hc, hpositions, Option.bind_eq_bind, Option.bind_some, Option.pure_def]
  rw [← hpixel, ← hpixel]

/-- A range between two pixels admits the values that are drawn between them. -/
theorem admits_range_iff (hlt : lo < hi) (hlength : 0 < b.axisLength) {v : Reading ℚ} :
    (Constraint.range (b.valueAt lo hi q) (b.valueAt lo hi p) false).admits v = true ↔
      ∃ y, (Scale.linear lo hi).position? v = some y ∧
        p ≤ y * b.axisLength ∧ y * b.axisLength ≤ q := by
  have hspan : 0 < hi - lo := sub_pos.2 hlt
  have hvalue (x r : ℚ) : x ≤ b.valueAt lo hi r ↔ r ≤ (hi - x) / (hi - lo) * b.axisLength := by
    rw [valueAt, le_sub_comm, ← le_div_iff₀ hspan, div_le_iff₀ hlength]
  have hvalue' (x r : ℚ) : b.valueAt lo hi r ≤ x ↔ (hi - x) / (hi - lo) * b.axisLength ≤ r := by
    rw [valueAt, sub_le_comm, ← div_le_iff₀ hspan, le_div_iff₀ hlength]
  cases hordinal : v.ordinal? with
  | none => simp [Constraint.admits, Scale.position?, hordinal]
  | some x =>
    have hposition : (Scale.linear lo hi).position? v = some ((hi - x) / (hi - lo)) := by
      rw [Scale.position?, hordinal]
      rfl
    rw [Constraint.admits, hordinal, hposition]
    simp only [Option.any_some, Bool.and_eq_true, le_eq_true_iff, Option.some.injEq,
      exists_eq_left']
    rw [hvalue, hvalue', and_comm]

/-- **On numeric axes pixels and values turn into each other, whatever the resizes.**  Take a brush
that came about in any way, over exact numbers, and one of its numeric dimensions: its domain has a
width and holds zero.  Let two distinct pixels be brushed and a constraint be stored.  Then its
pixels are these two, the lesser first, and it admits just the rows with a number that is drawn
between them.  After any resizes its pixels are these two scaled by the new length over the old one,
where the new length is the last one asked for that is positive, and the state and the selection
have stayed as they were. -/
theorem pixels_invert (b : Brush ℚ) (h : b.Reached) :
    ∀ name d, b.dimension? name = some d → d.kind = .numeric →
      ∃ lo hi, d.scale = .linear lo hi ∧ lo < hi ∧ lo ≤ 0 ∧ 0 ≤ hi ∧
      ∀ p q, p ≠ q →
        let brushed := b.brushPixels name p q
        ∀ c, brushed.constraint? name = some c →
          brushed.constraintPixels? name = some (min p q, max p q) ∧
          (∀ r ∈ b.rows, (r.values.get? d.key).any c.admits = true ↔
            ∃ v y, r.values.get? d.key = some v ∧ d.scale.position? v = some y ∧
              min p q ≤ y * b.axisLength ∧ y * b.axisLength ≤ max p q) ∧
          ∀ lengths : List ℚ,
            let resized := lengths.foldl resize brushed
            let ratio := resized.axisLength / b.axisLength
            resized.axisLength = (lengths.filter (0 < ·)).getLast?.getD b.axisLength ∧
            resized.constraintPixels? name = some (min p q * ratio, max p q * ratio) ∧
            resized.constraint? name = some c ∧ resized.state = brushed.state ∧
            resized.selected = brushed.selected := by
  intro name d hname hkind
  have hb : b.LaidOut := h.laidOut
  obtain ⟨declared, hnumeric⟩ := hb.scale_numeric (mem_of_dimension? hname) hkind
  obtain ⟨lo, hi, heq, hlt, hlo, hhi⟩ := Scale.exists_numeric (b.ordinals d.key) declared
  have hscale : d.scale = .linear lo hi := hnumeric.trans heq
  have hlength : 0 < b.axisLength := axisLength_pos hb
  refine ⟨lo, hi, hscale, hlt, hlo, hhi, ?_⟩
  intro p q hne brushed c hc
  -- What is stored can only be the range between the values of the two pixels.
  obtain rfl := eq_range_of_brushPixels hname hscale hlt hlength hne hc
  -- Pixels grow with the axis; without any resize they are those that were brushed.
  have hresized (lengths : List ℚ) :
      (lengths.foldl resize brushed).constraintPixels? name =
        some (min p q * ((lengths.foldl resize brushed).axisLength / b.axisLength),
          max p q * ((lengths.foldl resize brushed).axisLength / b.axisLength)) := by
    rw [foldl_resize]
    exact constraintPixels?_eq hname hscale hlt hc
  refine ⟨?pixels, fun r _ => ?admits, fun lengths => ⟨?_, hresized lengths, ?_⟩⟩
  case pixels =>
    have hsame := hresized []
    rwa [List.foldl_nil, show brushed.axisLength = b.axisLength from rfl, div_self hlength.ne',
      mul_one, mul_one] at hsame
  case admits =>
    rw [Option.any_eq_true, hscale]
    simp only [admits_range_iff hlt hlength, exists_and_left]
  · rw [foldl_resize]
    rfl
  · rw [foldl_resize]
    exact ⟨hc, rfl, rfl⟩

omit [RationalText] in
/-- Three rows on an axis of 200 pixels: the middle one is brushed. -/
theorem pixels_invert_middle :
    let _ : RationalText := .whole
    let p (id : String) (x : ℚ) : Profile ℚ := ⟨⟨id⟩, .state, [("v", "x", .number x)]⟩
    let b : Brush ℚ := ((start ⟨"pane-0"⟩ {} 0).project [p "a" 0, p "b" 4, p "c" 8]
      fun _ _ => none).resize 200
    let brushed := b.brushPixels "x" 150 50
    b.Reached ∧ brushed.constraintPixels? "x" = some (50, 150) ∧
      (brushed.resize 400).constraintPixels? "x" = some (100, 300) ∧
      brushed.selected = [⟨"b"⟩] := by
  intro _ p b brushed
  have hb : b.Reached := ((Reached.start _ _ _).project _ _).resize 200
  have hstored : ((b.dimension? "x").any fun d => d.kind = .numeric &&
      (brushed.constraint? "x").isSome) = true := by
    decide +kernel
  simp only [Option.any_eq_true, Bool.and_eq_true, decide_eq_true_eq, Option.isSome_iff_exists]
    at hstored
  obtain ⟨d, hd, hkind, c, hc⟩ := hstored
  obtain ⟨lo, hi, -, -, -, -, hinverts⟩ := pixels_invert b hb "x" d hd hkind
  obtain ⟨hpixels, -, hresizes⟩ := hinverts 150 50 (by norm_num) c hc
  obtain ⟨hlength, hresized, -⟩ := hresizes [400]
  have hmin : min (150 : ℚ) 50 = 50 := by norm_num
  have hmax : max (150 : ℚ) 50 = 150 := by norm_num
  rw [hmin, hmax] at hpixels hresized
  have hb200 : b.axisLength = 200 := by decide +kernel
  have h400 : (brushed.resize 400).axisLength = 400 := hlength.trans (by decide +kernel)
  refine ⟨hb, hpixels, ?_, by decide +kernel⟩
  have hratio : (brushed.resize 400).axisLength / b.axisLength = 2 := by
    rw [h400, hb200]
    norm_num
  refine hresized.trans ?_
  show some (50 * ((brushed.resize 400).axisLength / b.axisLength),
    150 * ((brushed.resize 400).axisLength / b.axisLength)) = _
  rw [hratio]
  norm_num

end Brush

end StateAtlas
