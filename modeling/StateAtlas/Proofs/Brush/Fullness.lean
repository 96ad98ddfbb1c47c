import StateAtlas.Proofs.Brush.Extremes
/-!
Constraints that are dropped as full.

A constraint that is full clears its dimension, as it should admit whatever the rows show there.
What it is judged by depends on the kind of the dimension: the least and the greatest number that
are shown, the two truth values, or all labels that are shown.  Readings of the sort that the kind
asks for are admitted by whatever is dropped.  But a declared kind does not bind the values of the
backend.  A text that is no number is not looked at on a numeric dimension, and on a boolean one
nothing that is shown is looked at, so the rows of such readings come back although the constraint
rejects them.

Main statement: `drops_full`.
-/

namespace StateAtlas

open AxisNumber Reading

/-! ## Numbers in order -/

section

variable {x y : Float} {which : Extreme} {xs : List Float}

theorem le_self_of_isFinite (h : isFinite x = true) : le x x = true := by
  have hnumber : x.isNaN = false := by
    have hfinite : x.toModel.unpack.isFinite = true := h
    show x.toModel.unpack.isNaN = false
    cases hunpack : x.toModel.unpack <;> rw [hunpack] at hfinite <;> first | rfl | cases hfinite
  exact (le_or_le_of_isNaN hnumber hnumber).elim id id

/-- Numbers are equal if they are so in order. -/
theorem equal_least_greatest (hx : le x x = true) (hy : le y y = true) :
    equal (least x y) (greatest x y) = equal x y := by
  have htotal : le x y = true ∨ le y x = true :=
    le_or_le_of_isNaN (isNaN_of_le hx).1 (isNaN_of_le hy).1
  simp only [equal, least, greatest, lt, hx, Bool.not_true, Bool.false_or]
  cases hxy : le x y <;> cases hyx : le y x <;> simp [hx, hxy, hyx] at htotal ⊢

theorem exists_leader? (which : Extreme) (hx : x ∈ xs) (hnumber : le x x = true) :
    ∃ y, leader? which xs = some y := by
  have hmem : x ∈ xs.filter fun x => le x x := List.mem_filter.2 ⟨hx, hnumber⟩
  cases hfilter : xs.filter fun x => le x x with
  | nil => exact absurd (hfilter ▸ hmem) List.not_mem_nil
  | cons y rest =>
    refine ⟨rest.foldl (leader which) y, ?_⟩
    cases which <;> simp only [leader?, least?, greatest?, hfilter] <;> rfl

end

/-! ## What is judged -/

namespace Constraint

/-- Whether a constraint asks for anything: its bounds are finite, and distinct unless it is pinned,
or it has labels. -/
def Asks : Constraint Float → Prop
  | .range lo hi pinned =>
    isFinite lo = true ∧ isFinite hi = true ∧ (pinned = true ∨ equal lo hi = false)
  | .categories values => values.isEmpty = false

/-- Whether a constraint is a range. -/
def isRange : Constraint Float → Bool
  | .range .. => true
  | .categories _ => false

/-- The constraint with its bounds in order. -/
def ordered : Constraint Float → Constraint Float
  | .range lo hi pinned => .range (least lo hi) (greatest lo hi) pinned
  | .categories values => .categories values

theorem admits_range_iff {lo hi : Float} {pinned : Bool} {v : Reading Float} :
    (range lo hi pinned).admits v = true ↔
      ∃ x, v.ordinal? = some x ∧ le lo x = true ∧ le x hi = true := by
  simp [admits, Option.any_eq_true]

end Constraint

/-- Whether a reading is of the sort that a kind of dimension asks for: a number, a truth value, or
anything. -/
def Reading.Suits (v : Reading Float) : DimensionKind → Prop
  | .numeric => ∃ x, v.ordinal? = some x ∧ le x x = true
  | .boolean => v.isBool = true
  | .nominal => True

namespace Brush

variable {b : Brush Float} {d : Dimension Float} {c : Constraint Float} {key : String}
  {lo hi : Float}

/-- Whether a constraint is judged to be full: on a numeric dimension a range that admits the
numbers that are shown, if there are any; on a boolean one whatever admits both truth values; and on
a nominal one labels that are all that are shown. -/
def Full (b : Brush Float) (d : Dimension Float) (c : Constraint Float) : Prop :=
  match d.kind with
  | .numeric => c.isRange = true ∧ (∃ v ∈ b.readings d.key, v.Suits .numeric) ∧
      ∀ v ∈ b.readings d.key, v.Suits .numeric → c.admits v = true
  | .boolean => ∀ t, c.admits (.bool t) = true
  | .nominal => c.isRange = false ∧ ∀ v ∈ b.readings d.key, c.admits v = true

/-- Whether a constraint admits every row that holds a value on a dimension. -/
def AdmitsAll (b : Brush Float) (d : Dimension Float) (c : Constraint Float) : Prop :=
  ∀ r ∈ b.rows, ∀ v, r.values.get? d.key = some v → c.admits v = true

theorem admitsAll_iff : b.AdmitsAll d c ↔ ∀ v ∈ b.readings d.key, c.admits v = true := by
  simp only [AdmitsAll, mem_readings_iff, forall_exists_index, and_imp]
  exact ⟨fun h v r hr hv => h r hr v hv, fun h r hr v hv => h v r hr hv⟩

/-- A range covers the rows if some number is shown and all of them lie in the range. -/
theorem coversRows_iff : b.coversRows key lo hi = true ↔
    (∃ x ∈ b.ordinals key, le x x = true) ∧
      ∀ x ∈ b.ordinals key, le x x = true → le lo x = true ∧ le x hi = true := by
  unfold coversRows
  constructor
  · intro h
    split at h
    next first last hfirst hlast =>
      obtain ⟨hlo, hhi⟩ := Bool.and_eq_true_iff.1 h
      change leader? .least (b.ordinals key) = some first at hfirst
      change leader? .greatest (b.ordinals key) = some last at hlast
      obtain ⟨hmem, hleast⟩ := isEnd_of_leader? hfirst
      obtain ⟨-, hgreatest⟩ := isEnd_of_leader? hlast
      exact ⟨⟨first, hmem, hleast.number⟩, fun x hx hnumber =>
        ⟨le_trans_float hlo (hleast.leads x hx hnumber),
          le_trans_float (hgreatest.leads x hx hnumber) hhi⟩⟩
    next => cases h
  · rintro ⟨⟨x, hx, hnumber⟩, hall⟩
    obtain ⟨first, hfirst⟩ := exists_leader? .least hx hnumber
    obtain ⟨last, hlast⟩ := exists_leader? .greatest hx hnumber
    obtain ⟨hmem, hleast⟩ := isEnd_of_leader? hfirst
    obtain ⟨hmem', hgreatest⟩ := isEnd_of_leader? hlast
    rw [show least? (b.ordinals key) = some first from hfirst,
      show greatest? (b.ordinals key) = some last from hlast]
    exact Bool.and_eq_true_iff.2
      ⟨(hall first hmem hleast.number).1, (hall last hmem' hgreatest.number).2⟩

theorem coversRows_iff_admits (pinned : Bool) : b.coversRows key lo hi = true ↔
    (∃ v ∈ b.readings key, v.Suits .numeric) ∧
      ∀ v ∈ b.readings key, v.Suits .numeric → (Constraint.range lo hi pinned).admits v = true := by
  have hordinal {x : Float} : x ∈ b.ordinals key ↔ ∃ v ∈ b.readings key, v.ordinal? = some x := by
    rw [ordinals_eq, List.mem_filterMap]
  rw [coversRows_iff]
  constructor
  · rintro ⟨⟨x, hx, hnumber⟩, hall⟩
    obtain ⟨v, hv, hvx⟩ := hordinal.1 hx
    refine ⟨⟨v, hv, x, hvx, hnumber⟩, ?_⟩
    rintro v hv ⟨x, hvx, hnumber⟩
    exact Constraint.admits_range_iff.2 ⟨x, hvx, hall x (hordinal.2 ⟨v, hv, hvx⟩) hnumber⟩
  · rintro ⟨⟨v, hv, x, hvx, hnumber⟩, hall⟩
    refine ⟨⟨x, hordinal.2 ⟨v, hv, hvx⟩, hnumber⟩, fun x hx hnumber => ?_⟩
    obtain ⟨v, hv, hvx⟩ := hordinal.1 hx
    obtain ⟨y, hvy, hbetween⟩ := Constraint.admits_range_iff.1 (hall v hv ⟨x, hvx, hnumber⟩)
    obtain rfl : x = y := Option.some.inj (hvx.symm.trans hvy)
    exact hbetween

/-- A range admits both truth values if they lie between its bounds. -/
theorem forall_admits_bool_iff (pinned : Bool) :
    (∀ t, (Constraint.range lo hi pinned).admits (.bool t) = true) ↔
      le lo (truthNumber false) = true ∧ le (truthNumber true) hi = true := by
  have hadmits (t : Bool) : (Constraint.range lo hi pinned).admits (.bool t) = true ↔
      le lo (truthNumber t) = true ∧ le (truthNumber t) hi = true := Bool.and_eq_true_iff
  have hbetween : le (truthNumber false) (truthNumber true) = true := le_truthNumber false true
  simp only [hadmits]
  constructor
  · exact fun h => ⟨(h false).1, (h true).2⟩
  · rintro ⟨hlo, hhi⟩ t
    cases t with
    | false => exact ⟨hlo, le_trans_float hbetween hhi⟩
    | true => exact ⟨le_trans_float hlo hbetween, hhi⟩

/-! ## What is dropped -/

section

variable {pinned : Bool} {values : OrderedSet String} (hb : b.LaidOut) (hd : d ∈ b.dimensions)

include hb hd

/-- The kind of a dimension tells what its scale is. -/
theorem dimension?_cases :
    (d.kind = .numeric ∧ ∃ name category lo hi,
      b.dimension? d.key = some ⟨name, category, .numeric, .linear lo hi⟩) ∨
    (d.kind = .boolean ∧ ∃ name category,
      b.dimension? d.key = some ⟨name, category, .boolean, .point ["false", "true"]⟩) ∨
    (d.kind = .nominal ∧ ∃ name category,
      b.dimension? d.key = some ⟨name, category, .nominal, .point (b.labels d.key)⟩) := by
  have hfound := hb.dimension?_key hd
  cases hkind : d.kind with
  | numeric =>
    obtain ⟨declared, hnumeric⟩ := hb.scale_numeric hd hkind
    obtain ⟨lo, hi, hscale⟩ : ∃ lo hi, d.scale = .linear lo hi := ⟨_, _, hnumeric⟩
    exact .inl ⟨rfl, d.name, d.category, lo, hi, by rw [hfound, ← hkind, ← hscale]⟩
  | boolean =>
    refine .inr (.inl ⟨rfl, d.name, d.category, ?_⟩)
    rw [hfound, ← hkind, ← show d.scale = .point ["false", "true"] from hb.scale_boolean hd hkind]
  | nominal =>
    refine .inr (.inr ⟨rfl, d.name, d.category, ?_⟩)
    rw [hfound, ← hkind, ← hb.scale_nominal hd hkind]

/-- Of the ranges that ask for anything those are dropped that cover the numbers shown on a numeric
dimension, or both truth values on a boolean one. -/
theorem normalize?_range_eq_none_iff (hc : (Constraint.range lo hi pinned).Asks) :
    b.normalize? d.key (.range lo hi pinned) = none ↔
      (d.kind = .numeric ∧ b.coversRows d.key (least lo hi) (greatest lo hi) = true) ∨
      (d.kind = .boolean ∧ le (least lo hi) (truthNumber false) = true ∧
        le (truthNumber true) (greatest lo hi) = true) := by
  obtain ⟨hlo, hhi, hwidth⟩ := hc
  have hkept : (equal (least lo hi) (greatest lo hi) && !pinned) = false := by
    rw [equal_least_greatest (le_self_of_isFinite hlo) (le_self_of_isFinite hhi)]
    rcases hwidth with rfl | hne
    · exact Bool.and_false _
    · rw [hne, Bool.false_and]
  rcases dimension?_cases hb hd with
      ⟨hkind, name, category, lo', hi', hfound⟩ | ⟨hkind, name, category, hfound⟩ |
      ⟨hkind, name, category, hfound⟩ <;>
    simp [normalize?, hfound, hkind, hlo, hhi, hkept, truthNumber]

theorem normalize?_categories_eq_none_iff (hc : (Constraint.categories values).Asks) :
    b.normalize? d.key (.categories values) = none ↔
      (d.kind = .boolean ∧ values.contains "false" = true ∧ values.contains "true" = true) ∨
      (d.kind = .nominal ∧ ∀ v ∈ b.readings d.key, values.contains v.label = true) := by
  have hempty : values.isEmpty = false := hc
  rcases dimension?_cases hb hd with
      ⟨hkind, name, category, lo', hi', hfound⟩ | ⟨hkind, name, category, hfound⟩ |
      ⟨hkind, name, category, hfound⟩ <;>
    simp [normalize?, hfound, hkind, hempty, labels]

/-- **What is dropped is what is judged to be full.** -/
theorem normalize?_eq_none_iff (hc : c.Asks) :
    b.normalize? d.key c = none ↔ b.Full d c.ordered := by
  cases c with
  | range lo hi pinned =>
    rw [normalize?_range_eq_none_iff hb hd hc, Constraint.ordered, Full]
    cases hkind : d.kind with
    | numeric => simp [Constraint.isRange, coversRows_iff_admits pinned]
    | boolean =>
      dsimp only
      rw [forall_admits_bool_iff]
      simp
    | nominal => simp [Constraint.isRange]
  | categories values =>
    rw [normalize?_categories_eq_none_iff hb hd hc, Constraint.ordered, Full]
    cases hkind : d.kind with
    | numeric => simp [Constraint.isRange]
    | boolean => simp [Constraint.admits, Reading.label]
    | nominal => simp [Constraint.isRange, Constraint.admits]

end

/-- What is full admits the readings of the sort that the kind asks for. -/
theorem Full.admits (h : b.Full d c) {v : Reading Float} (hv : v ∈ b.readings d.key)
    (hsuits : v.Suits d.kind) : c.admits v = true := by
  rw [Full] at h
  cases hkind : d.kind with
  | numeric =>
    rw [hkind] at h hsuits
    exact h.2.2 v hv hsuits
  | boolean =>
    rw [hkind] at h hsuits
    cases v with
    | bool t => exact h t
    | _ => cases hsuits
  | nominal =>
    rw [hkind] at h
    exact h.2 v hv

/-- Of other readings none is admitted on a numeric dimension. -/
theorem Full.suits_or (h : b.Full d c) {v : Reading Float} (hadmits : c.admits v = true) :
    v.Suits d.kind ∨ d.kind = .boolean ∧ c.admits v = true := by
  rw [Full] at h
  cases hkind : d.kind with
  | numeric =>
    rw [hkind] at h
    cases c with
    | range lo hi pinned =>
      obtain ⟨x, hx, -, hhi⟩ := Constraint.admits_range_iff.1 hadmits
      have hnumber : x.isNaN = false := (isNaN_of_le hhi).1
      exact .inl ⟨x, hx, (le_or_le_of_isNaN hnumber hnumber).elim id id⟩
    | categories values => cases h.1
  | boolean => exact .inr ⟨rfl, hadmits⟩
  | nominal => exact .inl trivial

/-- **Constraints that are dropped as full admit every row, as long as readings are of the sort that
is looked at.**  Whatever was asked of a brush: let a constraint that asks for anything be put on a
dimension.  It is dropped just when it is judged to be full with its bounds in order.  Then it
admits every reading on the dimension that is of the sort that the kind of the dimension asks for,
and so every row that holds a value there, if and only if every reading is of that sort or, on a
boolean dimension, is admitted anyway.  The rows that are selected then are those that every other
constraint admits. -/
theorem drops_full (pane : PaneId) (state : BrushState Float) (window : Nat)
    (commands : List BrushCommand) :
    let b := (start pane state window).run commands
    ∀ name d, b.dimension? name = some d → ∀ c : Constraint Float, c.Asks →
      let b' := b.brush name (some c)
      (b'.constraint? name = none ↔ b.Full d c.ordered) ∧
      (b'.constraint? name = none →
        (∀ v ∈ b.readings d.key, v.Suits d.kind → c.ordered.admits v = true) ∧
        (b.AdmitsAll d c.ordered ↔ ∀ v ∈ b.readings d.key,
          v.Suits d.kind ∨ d.kind = .boolean ∧ c.ordered.admits v = true) ∧
        ∀ r, r ∈ b'.linked.rows ↔ r ∈ b.rows ∧ b.AdmitsElse d r) := by
  intro b name d hname c hc b'
  have hb : b.LaidOut := ((Reached.start pane state window).run commands).laidOut
  have hd : d ∈ b.dimensions := mem_of_dimension? hname
  -- Only what is left of a constraint once it is normalized is stored.
  have hstored : b'.constraint? name = b.normalize? d.key c := constraint?_brush hname (some c)
  have hdropped : b'.constraint? name = none ↔ b.Full d c.ordered := by
    rw [hstored]
    exact normalize?_eq_none_iff hb hd hc
  refine ⟨hdropped, fun hnone => ?_⟩
  have hfull : b.Full d c.ordered := hdropped.1 hnone
  refine ⟨fun v hv => hfull.admits hv, ?_, fun r => ?_⟩
  · rw [admitsAll_iff]
    refine forall₂_congr fun v hv => ⟨hfull.suits_or, ?_⟩
    rintro (hsuits | ⟨-, hadmits⟩)
    · exact hfull.admits hv hsuits
    · exact hadmits
  · have hnodup : (b.rows.map Row.id).Nodup :=
      nodup_rows_run (b := start pane state window) List.nodup_nil commands
    rw [hstored] at hnone
    have herased : b' = ({ b with
        state := { b.state with constraints := b.state.constraints.erase d.key } } :
          Brush Float).recompute := by
      simp only [b', brush, store, keyFor_eq hname, Option.bind_some, hnone]
    rw [herased]
    exact mem_linked_erase hnodup d

/-- A numeric axis that shows the numbers 1 and 2: the range from 3 to 0 is dropped, and it admits
both. -/
theorem drops_covering :
    let n (id : String) (x : AttrValue) : Node :=
      { id := ⟨id⟩, kind := .state, attributes := .ofList [("v", .ofList [("cost", x)])] }
    let c : Constraint Float := .range 3 0 false
    let b := (start ⟨"pane-0"⟩ {} 0).run
      [.project (.ofFragment ⟨[n "x" (.number 1), n "y" (.number 2)], []⟩) .states {} {}]
    ∃ d, b.dimension? "cost" = some d ∧ d.kind = .numeric ∧
      (b.brush "cost" (some c)).constraint? "cost" = none ∧ b.AdmitsAll d c.ordered := by
  intro n c b
  have hshown : ((b.dimension? "cost").any fun d => d.kind = .numeric &&
      (b.readings d.key).all fun v => v.ordinal?.any fun x => le x x) = true := by
    decide +kernel
  simp only [Option.any_eq_true, List.all_eq_true, Bool.and_eq_true, decide_eq_true_eq] at hshown
  obtain ⟨d, hd, hkind, hsuits⟩ := hshown
  have hdropped : ((b.brush "cost" (some c)).constraint? "cost").isNone = true := by
    decide +kernel
  have hnone := Option.isNone_iff_eq_none.1 hdropped
  have hasks : c.Asks := ⟨by decide +kernel, by decide +kernel, .inr (by decide +kernel)⟩
  obtain ⟨-, hadmits⟩ := drops_full ⟨"pane-0"⟩ {} 0 _ "cost" d hd c hasks
  refine ⟨d, hd, hkind, hnone, (hadmits hnone).2.1.2 fun v hv => .inl ?_⟩
  rw [hkind]
  exact hsuits v hv

/-- A boolean axis that shows a truth value and the number 2: the range from 0 to 1 is dropped, and
the row of the number is selected although the range rejects it. -/
theorem drops_rejecting :
    let x : Node :=
      { id := ⟨"x"⟩, kind := .state
        attributes := .ofList [("v", .ofList [("on", .bool true)])] }
    let y : Node :=
      { id := ⟨"y"⟩, kind := .state
        attributes := .ofList [("v", .ofList [("on", .number 2)])] }
    let schema : Schema := .ofList [("v", .ofList [("on", { type := some "boolean" })])]
    let c : Constraint Float := .range 0 1 false
    let b := (start ⟨"pane-0"⟩ {} 0).run [.project (.ofFragment ⟨[x, y], []⟩) .states {} schema]
    c.Asks ∧ ∃ d, b.dimension? "on" = some d ∧ (b.brush "on" (some c)).constraint? "on" = none ∧
      ¬b.AdmitsAll d c ∧ (b.brush "on" (some c)).selected = [⟨"x"⟩, ⟨"y"⟩] := by
  intro x y schema c b
  have hrejected : ((b.dimension? "on").any fun d =>
      b.rows.any fun r => (r.values.get? d.key).any fun v => !c.admits v) = true := by
    decide +kernel
  simp only [Option.any_eq_true, List.any_eq_true, Bool.not_eq_true'] at hrejected
  obtain ⟨d, hd, r, hr, v, hv, hrejects⟩ := hrejected
  have hdropped : ((b.brush "on" (some c)).constraint? "on").isNone = true := by decide +kernel
  refine ⟨⟨by decide +kernel, by decide +kernel, .inr (by decide +kernel)⟩, d, hd,
    Option.isNone_iff_eq_none.1 hdropped, fun h => ?_, by decide +kernel⟩
  rw [h r hr v hv] at hrejects
  cases hrejects

end Brush

end StateAtlas
