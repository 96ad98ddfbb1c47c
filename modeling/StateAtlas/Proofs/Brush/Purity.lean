import StateAtlas.Proofs.Brush.Normal
/-!
What a projection depends on.

A projection rebuilds the rows and the dimensions of a brush, and rewrites its state by them: keys are
put for bare names and added to the display order.  Nothing but the state is carried over from the
brush as it was.  Once the state is rewritten it is normal, so another projection of the same store
finds the same rows and dimensions and nothing to rewrite.

Main statement: `projects_purely`.
-/

namespace StateAtlas.Brush

/-- Two brushes show the same: rows, dimensions, state and selection are the same in both. -/
structure ShowsSame {α : Type} (b b' : Brush α) : Prop where
  rows_eq : b'.rows = b.rows
  dimensions_eq : b'.dimensions = b.dimensions
  state_eq : b'.state = b.state
  selected_eq : b'.selected = b.selected
  linked_eq : b'.linked.rows = b.linked.rows

variable {α : Type} [AxisNumber α]

/-- Recomputing once is enough. -/
theorem recompute_recompute (b : Brush α) : b.recompute.recompute = b.recompute := rfl

/-- What a projection shows depends on the profiles, the declarations and the state of the brush. -/
theorem showsSame_project {b b' : Brush α} (h : b'.state = b.state) (profiles : List (Profile α))
    (declared : String → String → Option (AxisDeclaration α)) :
    (b.project profiles declared).ShowsSame (b'.project profiles declared) := by
  obtain ⟨pane, state, dimensions, rows, selected, axisLength, debounce⟩ := b
  obtain ⟨pane', state', dimensions', rows', selected', axisLength', debounce'⟩ := b'
  obtain rfl : state' = state := h
  -- A projection reads no other field, so both sides compute to the same.
  exact ⟨rfl, rfl, rfl, rfl, rfl⟩

omit [AxisNumber α] in
/-- A normal brush that takes over its own state stays as it is. -/
theorem Normal.adopt_state {b : Brush α} (h : b.Normal) : b.adopt b.state = b := by
  have hstate : (b.adopt b.state).state = b.state := h.state_adopt rfl
  calc b.adopt b.state = { b with state := (b.adopt b.state).state } := rfl
    _ = b := by rw [hstate]

/-- A second projection finds the rows and the dimensions in place, and so only takes over the
state. -/
theorem projectStore_projectStore_eq (b : Brush Float) (s : Store) (mode : DisplayMode)
    (details : DetailSelection) (schema : Schema) :
    let once := b.projectStore s mode details schema
    once.projectStore s mode details schema = (once.adopt once.state).recompute := rfl

/-- **A projection is pure and idempotent.**  Whatever a brush held before, what it shows after a
projection is what every brush with the same state shows after it.  A second projection of the same
store changes nothing in the brush, and answers as the first did. -/
theorem projects_purely (b : Brush Float) (s : Store) (mode : DisplayMode)
    (details : DetailSelection) (schema : Schema) :
    let once := b.projectStore s mode details schema
    (∀ other : Brush Float,
      once.ShowsSame ({ other with state := b.state }.projectStore s mode details schema)) ∧
    once.projectStore s mode details schema = once ∧
    (once.execute (.project s mode details schema)).2 =
      (b.execute (.project s mode details schema)).2 := by
  intro once
  have hnormal : once.Normal := b.normal_projectStore s mode details schema
  have htwice : once.projectStore s mode details schema = once :=
    calc once.projectStore s mode details schema
      _ = (once.adopt once.state).recompute := b.projectStore_projectStore_eq s mode details schema
      _ = once.recompute := by rw [hnormal.adopt_state]
      _ = once := recompute_recompute _
  refine ⟨fun other => ?_, htwice, ?_⟩
  · have hstate : ({ other with state := b.state } : Brush Float).state = b.state := rfl
    exact showsSame_project hstate _ _
  · calc (once.execute (.project s mode details schema)).2
      _ = some (once.projectStore s mode details schema).linked := rfl
      _ = some once.linked := by rw [htwice]

end StateAtlas.Brush
