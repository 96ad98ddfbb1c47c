import StateAtlas.Proofs.Brush.Growth
import StateAtlas.Proofs.Decimal.Order
/-!
How the axes of a brush are laid out.

Rows and dimensions come from the last projection, over whatever type of numbers.  A dimension is
then laid out by what the rows show under its key, and by what is declared for it: a linear scale is
that of the numbers shown, a boolean scale is that of the truth values, and a nominal one is that of
the labels shown.  The axes have a positive finite length from the first resizing on, and length one
before.

What is stored when a dimension is brushed is the constraint that was asked for, its bounds in
order, or nothing.

Main statements: `Reached.laidOut`, `constraint?_brush`.
-/

namespace StateAtlas

open AxisNumber

/-! ## Doubles on an axis -/

section

variable {x y z : Float}

theorem isNaN_of_le (h : le x y = true) : x.isNaN = false ∧ y.isNaN = false :=
  let h := Decimal.float_le_iff.1 (of_decide_eq_true h)
  ⟨h.1, h.2.1⟩

theorem le_or_le_of_isNaN (hx : x.isNaN = false) (hy : y.isNaN = false) :
    le x y = true ∨ le y x = true :=
  (Decimal.le_or_le hx hy).imp decide_eq_true decide_eq_true

theorem le_trans_float (h : le x y = true) (h' : le y z = true) : le x z = true :=
  decide_eq_true (Decimal.le_of_le_of_le (of_decide_eq_true h) (of_decide_eq_true h'))

end

namespace Brush

/-! ## Brushes that come about -/

section

variable {α : Type} [AxisNumber α]

/-- The brushes that come about by all that can be done with a brush. -/
inductive Reached : Brush α → Prop
  | start (pane : PaneId) (state : BrushState α) (window : Nat) : Reached (start pane state window)
  | project {b : Brush α} (h : Reached b) (profiles : List (Profile α))
      (declared : String → String → Option (AxisDeclaration α)) :
      Reached (b.project profiles declared)
  | replaceState {b : Brush α} (h : Reached b) (state : BrushState α) :
      Reached (b.replaceState state)
  | brush {b : Brush α} (h : Reached b) (name : String) (c : Option (Constraint α)) :
      Reached (b.brush name c)
  | clearAll {b : Brush α} (h : Reached b) : Reached b.clearAll
  | brushCoalesced {b : Brush α} (h : Reached b) (name : String) (c : Option (Constraint α))
      (now : Nat) : Reached (b.brushCoalesced name c now).1
  | poll {b : Brush α} (h : Reached b) (now : Nat) : Reached (b.poll now).1
  | flush {b : Brush α} (h : Reached b) (now : Nat) : Reached (b.flush now).1
  | selectExtreme {b b' : Brush α} (h : Reached b) (name : String) (which : Extreme)
      (hselect : b.selectExtreme? name which = some b') : Reached b'
  | reorder {b : Brush α} (h : Reached b) (name : String) (position : Nat) :
      Reached (b.reorder name position).1
  | resize {b : Brush α} (h : Reached b) (length : α) : Reached (b.resize length)

theorem Reached.projectStore {b : Brush Float} (h : b.Reached) (s : Store) (mode : DisplayMode)
    (details : DetailSelection) (schema : Schema) :
    (b.projectStore s mode details schema).Reached := by
  rw [Brush.projectStore]
  exact h.project _ _

theorem Reached.brushPixels {b : Brush α} (h : b.Reached) (name : String) (p q : α) :
    (b.brushPixels name p q).Reached := by
  rw [Brush.brushPixels]
  exact h.brush name _

/-- Commands reach nothing else. -/
theorem Reached.execute {b : Brush Float} (h : b.Reached) (c : BrushCommand) :
    (b.execute c).1.Reached := by
  cases c <;> rw [Brush.execute]
  case project s mode details schema => exact h.projectStore s mode details schema
  case replaceState state => exact h.replaceState state
  case brush name c => exact h.brush name c
  case clear name => exact h.brush name none
  case clearAll => exact h.clearAll
  case brushCoalesced name c now => exact h.brushCoalesced name c now
  case poll now => exact h.poll now
  case flush now => exact h.flush now
  case selectExtreme name which =>
    split
    next b' hselect => exact h.selectExtreme name which hselect
    next => exact h
  case brushPixels name p q => exact h.brushPixels name p q
  case reorder name position => exact h.reorder name position
  case resize length => exact h.resize length

theorem Reached.run {b : Brush Float} (h : b.Reached) (commands : List BrushCommand) :
    (b.run commands).Reached := by
  induction commands generalizing b with
  | nil => exact h
  | cons c commands ih => exact ih (h.execute c)

end

/-! ## Layout -/

section

variable {α : Type} [AxisNumber α] {b b' : Brush α} {d : Dimension α} {name key : String}

omit [AxisNumber α] in
/-- The readings that the rows show under a key. -/
def readings (b : Brush α) (key : String) : List (Reading α) :=
  b.rows.filterMap fun r => r.values.get? key

omit [AxisNumber α] in
theorem mem_readings_iff {v : Reading α} :
    v ∈ b.readings key ↔ ∃ r ∈ b.rows, r.values.get? key = some v := List.mem_filterMap

/-- The labels that the rows show under a key, in first-seen order. -/
def labels (b : Brush α) (key : String) : List String :=
  ((b.readings key).map Reading.label).eraseDups

theorem ordinals_eq (b : Brush α) (key : String) :
    b.ordinals key = (b.readings key).filterMap Reading.ordinal? := List.filterMap_filterMap.symm

/-- Whether axes can have a length. -/
def IsLength (length : α) : Prop := (isFinite length && lt (ofNat 0) length) = true

/-- Dimensions have distinct keys and are laid out by the rows, and axes have a length. -/
structure LaidOut (b : Brush α) : Prop where
  nodup_keys : (b.dimensions.map Dimension.key).Nodup
  eq_dimensionOf : ∀ d ∈ b.dimensions,
    ∃ declared, d = dimensionOf b.rows declared d.category d.name
  axisLength : b.axisLength = ofNat 1 ∨ IsLength b.axisLength

theorem LaidOut.of_same (h : b.LaidOut) (hrows : b'.rows = b.rows)
    (hdimensions : b'.dimensions = b.dimensions) (hlength : b'.axisLength = b.axisLength) :
    b'.LaidOut := by
  obtain ⟨hnodup, hof, haxis⟩ := h
  constructor <;> simp only [hrows, hdimensions, hlength] <;> assumption

theorem LaidOut.runIf (h : b.LaidOut) (asked : Debounce × Bool) : (b.runIf asked).1.LaidOut := by
  rcases b.runIf_cases asked with ⟨-, heq⟩ | ⟨-, heq⟩ <;> rw [heq] <;>
    exact h.of_same rfl rfl rfl

/-- A projection lays out its dimensions anew. -/
theorem LaidOut.project (h : b.LaidOut) (profiles : List (Profile α))
    (declared : String → String → Option (AxisDeclaration α)) :
    (b.project profiles declared).LaidOut where
  nodup_keys := by
    rw [map_key_eq_attributes]
    exact b.nodup_keys_project profiles declared
  eq_dimensionOf d hd := by
    obtain ⟨a, -, rfl⟩ := List.mem_map.1 hd
    exact ⟨declared a.1 a.2, rfl⟩
  axisLength := h.axisLength

theorem LaidOut.resize (h : b.LaidOut) (length : α) : (b.resize length).LaidOut := by
  unfold Brush.resize
  split
  next hlength => exact ⟨h.nodup_keys, h.eq_dimensionOf, .inr hlength⟩
  next => exact h

/-- **Whatever was done with a brush, its dimensions are laid out by its rows.** -/
theorem Reached.laidOut (h : b.Reached) : b.LaidOut := by
  induction h with
  | start pane state window => exact ⟨List.nodup_nil, nofun, .inl rfl⟩
  | project h profiles declared ih => exact ih.project profiles declared
  | replaceState h state ih => exact ih.of_same rfl rfl rfl
  | brush h name c ih => exact ih.of_same rfl rfl rfl
  | clearAll h ih => exact ih.of_same rfl rfl rfl
  | brushCoalesced h name c now ih =>
    have hstored : (store _ name c).LaidOut := ih.of_same rfl rfl rfl
    exact hstored.runIf _
  | poll h now ih => exact ih.runIf _
  | flush h now ih => exact ih.runIf _
  | selectExtreme h name which hselect ih =>
    obtain ⟨d, c, -, -, rfl⟩ := selectExtreme?_eq_some hselect
    exact ih.of_same rfl rfl rfl
  | reorder h name position ih =>
    obtain ⟨order, heq⟩ := reorder_cases _ name position
    rw [heq]
    exact ih.of_same rfl rfl rfl
  | resize h length ih => exact ih.resize length

namespace LaidOut

/-- A dimension goes by its key. -/
theorem dimension?_key (h : b.LaidOut) (hd : d ∈ b.dimensions) : b.dimension? d.key = some d := by
  obtain ⟨d', hfound, hkey⟩ := Brush.dimension?_key hd
  obtain rfl : d' = d :=
    List.inj_on_of_nodup_map h.nodup_keys (mem_of_dimension? hfound) hd hkey
  exact hfound

variable (h : b.LaidOut) (hd : d ∈ b.dimensions)

include h hd

/-- The scale of a dimension is that of its kind, from what the rows show under its key. -/
theorem exists_scale : ∃ declared, d.scale = match d.kind with
    | .numeric => .numeric (b.ordinals d.key) declared
    | .boolean => .boolean
    | .nominal => .point (b.labels d.key) := by
  obtain ⟨declared, heq⟩ := h.eq_dimensionOf d hd
  refine ⟨declared.getD {}, ?_⟩
  have hkey : dimensionKey d.category d.name = d.key := rfl
  rw [ordinals_eq, labels, congrArg Dimension.scale heq, congrArg Dimension.kind heq, dimensionOf,
    hkey]
  rfl

theorem scale_numeric (hkind : d.kind = .numeric) :
    ∃ declared, d.scale = .numeric (b.ordinals d.key) declared := by
  obtain ⟨declared, hscale⟩ := h.exists_scale hd
  rw [hkind] at hscale
  exact ⟨declared, hscale⟩

theorem scale_boolean (hkind : d.kind = .boolean) : d.scale = .boolean := by
  obtain ⟨declared, hscale⟩ := h.exists_scale hd
  rwa [hkind] at hscale

theorem scale_nominal (hkind : d.kind = .nominal) : d.scale = .point (b.labels d.key) := by
  obtain ⟨declared, hscale⟩ := h.exists_scale hd
  rwa [hkind] at hscale

end LaidOut

/-! ## What is stored -/

omit [AxisNumber α] in
theorem keyFor_eq (hname : b.dimension? name = some d) : b.keyFor name = d.key := by
  rw [keyFor, hname]
  rfl

/-- A constraint is stored in its normal form or not at all. -/
theorem constraint?_brush (hname : b.dimension? name = some d) (c : Option (Constraint α)) :
    (b.brush name c).constraint? name = c.bind (b.normalize? d.key) := by
  have hkey : (b.brush name c).keyFor name = d.key := keyFor_eq hname
  rw [constraint?, hkey]
  simp only [brush, store, keyFor_eq hname, recompute]
  cases c.bind (b.normalize? d.key) with
  | none =>
    dsimp only
    rw [Dictionary.get?_erase, if_pos rfl]
  | some c => exact Dictionary.get?_insert_self ..

/-- Brushing two distinct pixels asks for the constraint between their positions. -/
theorem constraint?_brushPixels (hname : b.dimension? name = some d) {p q : α}
    (hne : equal p q = false) :
    (b.brushPixels name p q).constraint? name =
      (constraintBetween? d (p / b.axisLength) (q / b.axisLength)).bind (b.normalize? d.key) := by
  rw [brushPixels, constraint?_brush hname, hname, Option.bind_some, hne]
  rfl

/-- A range is stored with its bounds in order, and without width only if it is pinned. -/
theorem normalize?_range_eq_some {lo hi : α} {pinned : Bool} {c : Constraint α}
    (h : b.normalize? key (.range lo hi pinned) = some c) :
    c = .range (least lo hi) (greatest lo hi) pinned ∧
      (pinned = false → equal (least lo hi) (greatest lo hi) = false) := by
  rw [normalize?] at h
  dsimp only at h
  split at h
  next => cases h
  next =>
    split at h
    next => cases h
    next hwidth =>
      split at h
      all_goals
        split at h
        · cases h
        · cases h
          refine ⟨rfl, ?_⟩
          rintro rfl
          simpa using hwidth

/-- A set of labels is stored as it is. -/
theorem normalize?_categories_eq_some {values : OrderedSet String} {c : Constraint α}
    (h : b.normalize? key (.categories values) = some c) : c = .categories values := by
  rw [normalize?] at h
  split at h
  next => cases h
  next =>
    dsimp only at h
    split at h
    all_goals
      split at h
      · cases h
      · exact (Option.some.inj h).symm

end

end Brush

end StateAtlas
