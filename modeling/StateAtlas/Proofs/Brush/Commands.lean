import Mathlib.Data.List.Nodup
import StateAtlas.Brush.Interaction
/-!
Brushes under commands.

A brush is asked to project a store, to take over a state, to store constraints and to recompute,
and to move and resize its axes.  A command that recomputes the selection answers with it.

The lemmas say which parts of a brush a command can touch.  The rows and the dimensions come from
the last projection alone, and what is recomputed is always the rows that every constraint admits.
-/

namespace StateAtlas

/-- What can be asked of a brush. -/
inductive BrushCommand
  | project (store : Store) (mode : DisplayMode) (details : DetailSelection) (schema : Schema)
  | replaceState (state : BrushState Float)
  | brush (name : String) (c : Option (Constraint Float))
  | clear (name : String)
  | clearAll
  | brushCoalesced (name : String) (c : Option (Constraint Float)) (now : Nat)
  | poll (now : Nat)
  | flush (now : Nat)
  | selectExtreme (name : String) (which : Extreme)
  | brushPixels (name : String) (p q : Float)
  | reorder (name : String) (position : Nat)
  | resize (length : Float)

/-- The time on the clock that a command is told. -/
def BrushCommand.clock? : BrushCommand → Option Nat
  | .brushCoalesced _ _ now => some now
  | .poll now => some now
  | .flush now => some now
  | _ => none

/-- Whether a command projects a store. -/
def BrushCommand.isProjection : BrushCommand → Bool
  | .project .. => true
  | _ => false

/-- Whether a state that a command brings, if it brings one, is of a kind. -/
def BrushCommand.Brings (Q : BrushState Float → Prop) (c : BrushCommand) : Prop :=
  ∀ s, c = .replaceState s → Q s

namespace Brush

/-! ## The rows that are admitted -/

section

variable {α : Type} [AxisNumber α] {b : Brush α}

/-- Every constraint finds a reading of the row and admits it. -/
def Admits (b : Brush α) (r : Row α) : Prop :=
  ∀ key c, (key, c) ∈ b.state.constraints.entries →
    ∃ v, r.values.get? key = some v ∧ c.admits v = true

theorem admitsRow_iff {r : Row α} : b.admitsRow r = true ↔ b.Admits r := by
  simp only [admitsRow, Admits, List.all_eq_true, Prod.forall, Option.any_eq_true]

instance : DecidablePred b.Admits := fun _ => decidable_of_iff _ admitsRow_iff

@[simp] theorem decide_admits (b : Brush α) (r : Row α) : decide (b.Admits r) = b.admitsRow r := by
  rw [Bool.eq_iff_iff, decide_eq_true_iff, admitsRow_iff]

/-- The names of the rows that every constraint admits, in the order of the rows. -/
def admitted (b : Brush α) : List NodeId := (b.rows.filter fun r => b.Admits r).map Row.id

theorem admitted_eq (b : Brush α) : b.admitted = (b.rows.filter b.admitsRow).map Row.id := by
  simp only [admitted, decide_admits]

/-- Unless a recomputation is pending, the selection holds the rows that every constraint admits. -/
def Current (b : Brush α) : Prop := b.debounce.pending = false → b.selected = b.admitted

@[simp] theorem dimensions_recompute (b : Brush α) : b.recompute.dimensions = b.dimensions := rfl

@[simp] theorem debounce_recompute (b : Brush α) : b.recompute.debounce = b.debounce.settle := rfl

theorem selected_recompute (b : Brush α) : b.recompute.selected = b.recompute.admitted :=
  b.recompute.admitted_eq.symm

theorem current_recompute (b : Brush α) : b.recompute.Current := fun _ => b.selected_recompute

theorem current_start (pane : PaneId) (state : BrushState α) (window : Nat) :
    (start pane state window).Current := fun _ => rfl

/-- What is admitted depends on the rows and the constraints alone. -/
theorem admitted_congr {b' : Brush α} (hrows : b'.rows = b.rows)
    (hconstraints : b'.state.constraints = b.state.constraints) : b'.admitted = b.admitted := by
  rw [admitted_eq, admitted_eq, hrows, show b'.admitsRow = b.admitsRow from
    funext fun r => by rw [admitsRow, admitsRow, hconstraints]]

/-- As rows bear distinct names, the selection lists the name of a row just when the row is
admitted. -/
theorem contains_selected (hnodup : (b.rows.map Row.id).Nodup) (hselected : b.selected = b.admitted)
    {r : Row α} (hr : r ∈ b.rows) : b.selected.contains r.id = b.admitsRow r := by
  rw [Bool.eq_iff_iff, List.contains_iff_mem, hselected, admitted_eq, List.mem_map]
  constructor
  · rintro ⟨r', hr', hid⟩
    obtain ⟨hmem', hadmits⟩ := List.mem_filter.1 hr'
    exact List.inj_on_of_nodup_map hnodup hmem' hr hid ▸ hadmits
  · exact fun hadmits => ⟨r, List.mem_filter.2 ⟨hr, hadmits⟩, rfl⟩

/-- The selected rows are those that the selection lists. -/
theorem ids_linked (hnodup : (b.rows.map Row.id).Nodup) (hselected : b.selected = b.admitted) :
    b.linked.ids = b.selected := by
  have hcontains := fun r => contains_selected (r := r) hnodup hselected
  rw [LinkedSelection.ids, linked, List.filter_congr hcontains, hselected, admitted_eq]

theorem ids_linked_recompute (hnodup : (b.rows.map Row.id).Nodup) :
    b.recompute.linked.ids = b.recompute.selected :=
  ids_linked (b := b.recompute) hnodup b.selected_recompute

/-! ## What operations touch -/

omit [AxisNumber α] in
@[simp] theorem dimensions_adopt (b : Brush α) (state : BrushState α) :
    (b.adopt state).dimensions = b.dimensions := rfl

@[simp] theorem dimensions_store (b : Brush α) (name : String) (c : Option (Constraint α)) :
    (b.store name c).dimensions = b.dimensions := rfl

@[simp] theorem debounce_store (b : Brush α) (name : String) (c : Option (Constraint α)) :
    (b.store name c).debounce = b.debounce := rfl

/-- What is recomputed if the clock says so is recomputed; otherwise only the clock has moved. -/
theorem runIf_cases (b : Brush α) (asked : Debounce × Bool) :
    (asked.2 = true ∧ b.runIf asked = ({ b with debounce := asked.1 }.recompute, true)) ∨
      asked.2 = false ∧ b.runIf asked = ({ b with debounce := asked.1 }, false) := by
  unfold runIf
  cases h : asked.2 with
  | true => exact .inl ⟨rfl, rfl⟩
  | false => exact .inr ⟨rfl, rfl⟩

/-- Picking an extreme stores a constraint on a dimension and recomputes. -/
theorem selectExtreme?_eq_some {b' : Brush α} {name : String} {which : Extreme}
    (h : b.selectExtreme? name which = some b') :
    ∃ d c, b.dimension? name = some d ∧ b.extreme? d which = some c ∧ b' = { b with
      state := { b.state with constraints := b.state.constraints.insert d.key c } }.recompute := by
  obtain ⟨d, hd, h⟩ := Option.bind_eq_some_iff.1 h
  obtain ⟨c, hc, h⟩ := Option.bind_eq_some_iff.1 h
  exact ⟨d, c, hd, hc, (Option.some.inj h).symm⟩

omit [AxisNumber α] in
theorem reorder_cases (b : Brush α) (name : String) (position : Nat) :
    ∃ order, (b.reorder name position).1 = { b with state := { b.state with order } } := by
  unfold reorder
  dsimp only
  split
  · exact ⟨_, rfl⟩
  · exact ⟨b.state.order, rfl⟩

theorem resize_cases (b : Brush α) (length : α) :
    ∃ axisLength, b.resize length = { b with axisLength } := by
  unfold resize
  split
  · exact ⟨_, rfl⟩
  · exact ⟨b.axisLength, rfl⟩

end

/-! ## Rows of a store -/

end Brush

/-- The rows of the nodes of a store that a mode admits. -/
def Store.rows (s : Store) (mode : DisplayMode) (details : DetailSelection) : List (Row Float) :=
  (s.nodes.filter fun n => mode.admits n.kind).map fun n => Row.ofProfile (n.profile details)

theorem Store.map_id_rows (s : Store) (mode : DisplayMode) (details : DetailSelection) :
    (s.rows mode details).map Row.id =
      (s.nodes.filter fun n => mode.admits n.kind).map Node.id := by
  rw [rows, List.map_map]
  rfl

/-- As nodes bear distinct names, so do their rows. -/
theorem Store.nodup_rows (s : Store) (mode : DisplayMode) (details : DetailSelection) :
    ((s.rows mode details).map Row.id).Nodup := by
  rw [map_id_rows]
  exact s.nodup_nodeIds.sublist (List.filter_sublist.map Node.id)

namespace Brush

theorem rows_projectStore (b : Brush Float) (s : Store) (mode : DisplayMode)
    (details : DetailSelection) (schema : Schema) :
    (b.projectStore s mode details schema).rows = s.rows mode details :=
  List.map_map

/-! ## Carrying out commands -/

/-- A brush with its selection as the answer. -/
def shown (b : Brush Float) : Brush Float × Option (LinkedSelection Float) := (b, some b.linked)

/-- A brush with its selection as the answer if it was recomputed. -/
def shownIf (r : Brush Float × Bool) : Brush Float × Option (LinkedSelection Float) :=
  (r.1, if r.2 then some r.1.linked else none)

/-- Carries out a command; the answer is the selection if it was recomputed. -/
def execute (b : Brush Float) : BrushCommand → Brush Float × Option (LinkedSelection Float)
  | .project s mode details schema => (b.projectStore s mode details schema).shown
  | .replaceState state => (b.replaceState state).shown
  | .brush name c => (b.brush name c).shown
  | .clear name => (b.clear name).shown
  | .clearAll => b.clearAll.shown
  | .brushCoalesced name c now => shownIf (b.brushCoalesced name c now)
  | .poll now => shownIf (b.poll now)
  | .flush now => shownIf (b.flush now)
  | .selectExtreme name which =>
    match b.selectExtreme? name which with
    | some b => b.shown
    | none => (b, none)
  | .brushPixels name p q => (b.brushPixels name p q).shown
  | .reorder name position => ((b.reorder name position).1, none)
  | .resize length => (b.resize length, none)

/-- The brush after commands, one after the other. -/
def run (b : Brush Float) (commands : List BrushCommand) : Brush Float :=
  commands.foldl (fun b c => (b.execute c).1) b

/-- What stays where it is when no store is projected. -/
structure SameRows (b b' : Brush Float) : Prop where
  rows_eq : b'.rows = b.rows
  dimensions_eq : b'.dimensions = b.dimensions

theorem sameRows_runIf (b : Brush Float) (asked : Debounce × Bool) :
    b.SameRows (b.runIf asked).1 := by
  rcases b.runIf_cases asked with ⟨-, h⟩ | ⟨-, h⟩ <;> rw [h] <;> exact ⟨rfl, rfl⟩

/-- **Only a projection touches rows and dimensions.** -/
theorem sameRows_execute (b : Brush Float) {c : BrushCommand} (hc : c.isProjection = false) :
    b.SameRows (b.execute c).1 := by
  cases c with
  | project => cases hc
  | replaceState state => exact ⟨rfl, rfl⟩
  | brush name c => exact ⟨rfl, rfl⟩
  | clear name => exact ⟨rfl, rfl⟩
  | clearAll => exact ⟨rfl, rfl⟩
  | brushCoalesced name c now =>
    obtain ⟨hrows, hdimensions⟩ :=
      (b.store name c).sameRows_runIf ((b.store name c).debounce.hit now)
    exact ⟨hrows, hdimensions⟩
  | poll now => exact b.sameRows_runIf _
  | flush now => exact b.sameRows_runIf _
  | selectExtreme name which =>
    rw [execute]
    split
    next b' h =>
      obtain ⟨d, c, -, -, rfl⟩ := selectExtreme?_eq_some h
      exact ⟨rfl, rfl⟩
    next => exact ⟨rfl, rfl⟩
  | brushPixels name p q => exact ⟨rfl, rfl⟩
  | reorder name position =>
    obtain ⟨order, h⟩ := b.reorder_cases name position
    rw [execute, h]
    exact ⟨rfl, rfl⟩
  | resize length =>
    obtain ⟨axisLength, h⟩ := b.resize_cases length
    rw [execute, h]
    exact ⟨rfl, rfl⟩

/-- **A brush stays with its pane.** -/
@[simp] theorem pane_execute (b : Brush Float) (c : BrushCommand) :
    (b.execute c).1.pane = b.pane := by
  have hrunIf : ∀ (b : Brush Float) asked, (b.runIf asked).1.pane = b.pane := by
    intro b asked
    unfold runIf
    dsimp only
    split <;> rfl
  cases c with
  | brushCoalesced name c now => exact hrunIf (b.store name c) ((b.store name c).debounce.hit now)
  | poll now => exact hrunIf b _
  | flush now => exact hrunIf b _
  | selectExtreme name which =>
    rw [execute]
    split
    next b' h =>
      obtain ⟨d, c, -, -, rfl⟩ := selectExtreme?_eq_some h
      rfl
    next => rfl
  | reorder name position =>
    obtain ⟨order, h⟩ := b.reorder_cases name position
    rw [execute, h]
  | resize length =>
    obtain ⟨axisLength, h⟩ := b.resize_cases length
    rw [execute, h]
  | _ => rfl

end Brush

end StateAtlas
