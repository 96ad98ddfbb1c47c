import StateAtlas.Brush.Basic
/-!
What a person does with a brush: setting and clearing constraints, dragging, picking extremes,
moving axes, and working in pixels.

A constraint that admits every reading of its dimension, or none at all, is not stored but clears
the dimension.  While dragging, constraints are stored at once but the selection is recomputed at
most once per window.
-/

namespace StateAtlas.Brush

open AxisNumber

variable {α : Type} [AxisNumber α]

/-! ## Storing constraints -/

/-- The numbers that the rows show under a key. -/
def ordinals (b : Brush α) (key : String) : List α :=
  b.rows.filterMap fun r => (r.values.get? key).bind Reading.ordinal?

/-- Whether a range covers every reading that the rows show under a key. -/
def coversRows (b : Brush α) (key : String) (lo hi : α) : Bool :=
  match least? (b.ordinals key), greatest? (b.ordinals key) with
  | some least, some greatest => le lo least && le greatest hi
  | _, _ => false

/-- The constraint in the form in which it is stored, or nothing if it clears the dimension. -/
def normalize? (b : Brush α) (key : String) : Constraint α → Option (Constraint α)
  | .range lo hi pinned =>
    if !isFinite lo || !isFinite hi then none
    else
      let (lo, hi) := (least lo hi, greatest lo hi)
      if equal lo hi && !pinned then none
      else
        let full := match b.dimension? key with
          | some { scale := .linear _ _, .. } => b.coversRows key lo hi
          | some { kind := .boolean, .. } => le lo (ofNat 0) && le (ofNat 1) hi
          | _ => false
        if full then none else some (.range lo hi pinned)
  | .categories values =>
    if values.isEmpty then none
    else
      let full := match b.dimension? key with
        | some { scale := .point all, .. } => all.all values.contains
        | _ => false
      if full then none else some (.categories values)

/-- Stores the constraint of a dimension, or clears the dimension. -/
def store (b : Brush α) (name : String) (c : Option (Constraint α)) : Brush α :=
  let key := b.keyFor name
  let constraints := match c.bind (b.normalize? key) with
    | some c => b.state.constraints.insert key c
    | none => b.state.constraints.erase key
  { b with state := { b.state with constraints } }

/-- Sets or clears the constraint of a dimension. -/
def brush (b : Brush α) (name : String) (c : Option (Constraint α)) : Brush α :=
  (b.store name c).recompute

/-- Clears the constraint of a dimension. -/
def clear (b : Brush α) (name : String) : Brush α := b.brush name none

/-- Clears all constraints. -/
def clearAll (b : Brush α) : Brush α :=
  { b with state := { b.state with constraints := {} } }.recompute

/-! ## Coalescing -/

/-- The brush after the clock was asked; the selection is recomputed if it said so. -/
def runIf (b : Brush α) (asked : Debounce × Bool) : Brush α × Bool :=
  let b := { b with debounce := asked.1 }
  if asked.2 then (b.recompute, true) else (b, false)

/-- Stores a constraint now and recomputes at most once per window; tells whether it did. -/
def brushCoalesced (b : Brush α) (name : String) (c : Option (Constraint α)) (now : Nat) :
    Brush α × Bool :=
  let b := b.store name c
  b.runIf (b.debounce.hit now)

/-- Recomputes if that is pending and its window has passed. -/
def poll (b : Brush α) (now : Nat) : Brush α × Bool := b.runIf (b.debounce.due now)

/-- Recomputes if that is pending. -/
def flush (b : Brush α) (now : Nat) : Brush α × Bool := b.runIf (b.debounce.take now)

/-! ## Extremes -/

/-- The first or the last of a list. -/
def endOf? {β : Type} (which : Extreme) (xs : List β) : Option β :=
  match which with
  | .least => xs.head?
  | .greatest => xs.getLast?

/-- The positions of the points of a boolean axis that the rows show. -/
def shownPoints (b : Brush α) (key : String) (points : List String) : List Nat :=
  (points.zipIdx.filter fun (label, _) =>
    b.rows.any fun r => (r.values.get? key).any fun v => v.label = label).map Prod.snd

/-- The constraint that selects the rows at one end of a dimension. -/
def extreme? (b : Brush α) (d : Dimension α) (which : Extreme) : Option (Constraint α) :=
  match d.scale, d.kind with
  | .linear _ _, _ =>
    let shown := b.ordinals d.key
    let v := match which with
      | .least => least? shown
      | .greatest => greatest? shown
    v.bind fun v => if isFinite v then some (.range v v true) else none
  | .point points, .boolean =>
    (endOf? which (b.shownPoints d.key points)).map fun i => .range (ofNat i) (ofNat i) true
  | .point points, _ => (endOf? which points).map fun label => .oneOf [label]

/-- Constrains a dimension to one of its ends, if the rows show anything there. -/
def selectExtreme? (b : Brush α) (name : String) (which : Extreme) : Option (Brush α) := do
  let d ← b.dimension? name
  let c ← b.extreme? d which
  some { b with
    state := { b.state with constraints := b.state.constraints.insert d.key c } }.recompute

/-! ## Axes -/

omit [AxisNumber α] in
/-- Moves a dimension in the display order; tells whether it is there. -/
def reorder (b : Brush α) (name : String) (position : Nat) : Brush α × Bool :=
  let key := b.keyFor name
  if b.state.order.contains key then
    let rest := b.state.order.erase key
    ({ b with state := { b.state with
        order := rest.insertIdx (min position rest.length) key } }, true)
  else (b, false)

/-- Sets the length of the axes; a length that is not positive and finite is passed over. -/
def resize (b : Brush α) (length : α) : Brush α :=
  if isFinite length && lt (ofNat 0) length then { b with axisLength := length } else b

/-! ## Pixels -/

/-- The constraint of an interval of positions on a dimension. -/
def constraintBetween? (d : Dimension α) (p q : α) : Option (Constraint α) :=
  match d.scale.invert p q, d.kind with
  | .range lo hi, _ => some (.between lo hi)
  | .values labels, .boolean =>
    let ordinals : List α := labels.map fun label => ofNat (if label = "true" then 1 else 0)
    match least? ordinals, greatest? ordinals with
    | some lo, some hi => some (.range lo hi (equal lo hi))
    | _, _ => none
  | .values labels, _ => some (.oneOf labels)

/-- Brushes a dimension by an interval of pixels on its axis; one without width clears it. -/
def brushPixels (b : Brush α) (name : String) (p q : α) : Brush α :=
  b.brush name <| (b.dimension? name).bind fun d =>
    if equal p q then none else constraintBetween? d (p / b.axisLength) (q / b.axisLength)

/-- The interval of positions that a constraint covers on a scale. -/
def positions? (scale : Scale α) : Constraint α → Option (α × α)
  | .range lo hi _ =>
    match scale with
    | .linear _ _ => do return (← scale.positionOf? hi, ← scale.positionOf? lo)
    | .point values => do
      let first ← values[index lo]?
      let last ← values[index hi]?
      return (← scale.pointPosition? first, ← scale.pointPosition? last)
  | .categories values => do
    let shown := values.toList.filterMap scale.pointPosition?
    return (← least? shown, ← greatest? shown)

/-- The interval of pixels that the constraint of a dimension covers. -/
def constraintPixels? (b : Brush α) (name : String) : Option (α × α) := do
  let d ← b.dimension? name
  let c ← b.state.constraints.get? d.key
  let (p, q) ← positions? d.scale c
  return (p * b.axisLength, q * b.axisLength)

/-- The selected nodes that stand within a distance of a cursor on a dimension's axis. -/
def probe (b : Brush α) (name : String) (cursor radius : α) : List NodeId :=
  match b.dimension? name with
  | none => []
  | some d =>
    (b.linked.rows.filter fun r =>
      ((r.values.get? d.key).bind d.scale.position?).any fun p =>
        let distance := p * b.axisLength - cursor
        le distance radius && le (ofNat 0 - radius) distance).map Row.id

end StateAtlas.Brush
