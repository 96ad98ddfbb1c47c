import StateAtlas.Proofs.Brush.Commands
import StateAtlas.Proofs.Sync.Debounce
/-!
What is stored while dragging is not lost.

While a constraint is dragged it is stored at once, but the selection is recomputed at most once per
window.  In between, the selection lags behind the constraints.  It never lags unnoticed: unless a
recomputation is pending, the selection holds just the rows that every constraint admits, and a
recomputation that is pending stays so until one is made, at the latest when it is asked for a
window after the last one.

A command either recomputes the selection and answers with it, or it leaves rows and selection as
they are and the clock unread; then either a recomputation is pending afterwards, or the constraints
are as they were, too.  Everything else follows from this case distinction.

Main statement: `no_update_lost`.
-/

namespace StateAtlas

namespace Debounce

/-- The state after a run at a time, or after one that reads no clock. -/
def ranAt (d : Debounce) (clock : Option Nat) : Debounce := clock.elim d d.ran

end Debounce

namespace Brush

variable {b : Brush Float}

/-- Leaves the rows, the selection and the time of the last run as they are; what changes in the
constraints makes a recomputation pending. -/
structure Postpones (b b' : Brush Float) : Prop where
  rows_eq : b'.rows = b.rows
  selected_eq : b'.selected = b.selected
  last_eq : b'.debounce.last = b.debounce.last
  window_eq : b'.debounce.window = b.debounce.window
  pending_of_pending : b.debounce.pending = true → b'.debounce.pending = true
  pending_or_eq : b'.debounce.pending = true ∧ b.debounce.last ≠ none ∨
    b'.debounce.pending = b.debounce.pending ∧ b'.state.constraints = b.state.constraints

theorem postpones_self (b : Brush Float) : b.Postpones b :=
  ⟨rfl, rfl, rfl, rfl, id, .inr ⟨rfl, rfl⟩⟩

/-- **A command recomputes and answers, or it postpones.**  What recomputes is the brush with what
the command stores, and only the commands that read the clock note the time of a run. -/
theorem execute_cases (b : Brush Float) (c : BrushCommand) :
    (∃ b₀ : Brush Float, b.execute c = b₀.recompute.shown ∧
      b₀.debounce = b.debounce.ranAt c.clock? ∧
      (c.isProjection = false → b₀.rows = b.rows)) ∨
    (b.execute c).2 = none ∧ b.Postpones (b.execute c).1 := by
  cases c with
  | project s mode details schema => exact .inl ⟨_, rfl, rfl, fun h => by cases h⟩
  | replaceState state => exact .inl ⟨_, rfl, rfl, fun _ => rfl⟩
  | brush name c => exact .inl ⟨_, rfl, rfl, fun _ => rfl⟩
  | clear name => exact .inl ⟨_, rfl, rfl, fun _ => rfl⟩
  | clearAll => exact .inl ⟨_, rfl, rfl, fun _ => rfl⟩
  | brushPixels name p q => exact .inl ⟨_, rfl, rfl, fun _ => rfl⟩
  | brushCoalesced name c now =>
    have hasked := b.debounce.hit_cases now
    rw [execute, brushCoalesced, debounce_store]
    rcases hasked with h | ⟨h, hlast⟩
    · exact .inl ⟨{ b.store name c with debounce := b.debounce.ran now }, by rw [h]; rfl, rfl,
        fun _ => rfl⟩
    · rw [h]
      exact .inr ⟨rfl, rfl, rfl, rfl, rfl, fun _ => rfl, .inl ⟨rfl, hlast⟩⟩
  | poll now =>
    rw [execute, poll]
    rcases b.debounce.due_cases now with h | h <;> rw [h]
    · exact .inl ⟨{ b with debounce := b.debounce.ran now }, rfl, rfl, fun _ => rfl⟩
    · exact .inr ⟨rfl, b.postpones_self⟩
  | flush now =>
    rw [execute, flush]
    rcases b.debounce.take_cases now with h | ⟨h, -⟩ <;> rw [h]
    · exact .inl ⟨{ b with debounce := b.debounce.ran now }, rfl, rfl, fun _ => rfl⟩
    · exact .inr ⟨rfl, b.postpones_self⟩
  | selectExtreme name which =>
    rw [execute]
    split
    next b' h =>
      obtain ⟨d, c, -, -, rfl⟩ := selectExtreme?_eq_some h
      exact .inl ⟨_, rfl, rfl, fun _ => rfl⟩
    next => exact .inr ⟨rfl, b.postpones_self⟩
  | reorder name position =>
    obtain ⟨order, h⟩ := b.reorder_cases name position
    rw [execute, h]
    exact .inr ⟨rfl, rfl, rfl, rfl, rfl, id, .inr ⟨rfl, rfl⟩⟩
  | resize length =>
    obtain ⟨axisLength, h⟩ := b.resize_cases length
    rw [execute, h]
    exact .inr ⟨rfl, rfl, rfl, rfl, rfl, id, .inr ⟨rfl, rfl⟩⟩

/-- **A selection that is current stays so, whatever the command.** -/
theorem Current.execute (h : b.Current) (c : BrushCommand) : (b.execute c).1.Current := by
  rcases b.execute_cases c with ⟨b₀, hexecute, -, -⟩ | ⟨-, hpostpones⟩
  · rw [hexecute]
    exact b₀.current_recompute
  · intro hidle
    rcases hpostpones.pending_or_eq with ⟨hpending, -⟩ | ⟨hsame, hconstraints⟩
    · exact absurd (hidle.symm.trans hpending) Bool.false_ne_true
    · rw [hpostpones.selected_eq, h (hsame ▸ hidle),
        admitted_congr hpostpones.rows_eq hconstraints]

end Brush

/-! ## The time of the last run -/

/-- A brush, and when a command that reads the clock last recomputed its selection. -/
structure BrushLog where
  brush : Brush Float
  lastRun : Option Nat := none

namespace BrushLog

variable {l : BrushLog} {window : Nat}

/-- A brush without rows, of which nothing was asked. -/
def start (pane : PaneId) (state : BrushState Float) (window : Nat) : BrushLog :=
  { brush := .start pane state window }

/-- The log after a command. -/
def perform (l : BrushLog) (c : BrushCommand) : BrushLog :=
  let after := l.brush.execute c
  { brush := after.1, lastRun := if after.2.isSome then c.clock?.or l.lastRun else l.lastRun }

/-- The log after commands, one after the other. -/
def run (l : BrushLog) (commands : List BrushCommand) : BrushLog := commands.foldl perform l

/-- The facts that every command keeps: the clock of the brush has the window it was given and knows
the last run, only after a run is anything pending, and the selection is current. -/
structure Sound (window : Nat) (l : BrushLog) : Prop where
  nodup_rows : (l.brush.rows.map Row.id).Nodup
  window_eq : l.brush.debounce.window = window
  last_eq : l.brush.debounce.last = l.lastRun
  lastRun_of_pending : l.brush.debounce.pending = true → l.lastRun ≠ none
  current : l.brush.Current

theorem sound_start (pane : PaneId) (state : BrushState Float) (window : Nat) :
    (start pane state window).Sound window where
  nodup_rows := List.nodup_nil
  window_eq := rfl
  last_eq := rfl
  lastRun_of_pending h := by cases h
  current := Brush.current_start pane state window

theorem nodup_rows_execute {b : Brush Float} (h : (b.rows.map Row.id).Nodup) (c : BrushCommand) :
    ((b.execute c).1.rows.map Row.id).Nodup := by
  cases hc : c.isProjection with
  | false => rwa [(b.sameRows_execute hc).rows_eq]
  | true =>
    cases c with
    | project s mode details schema =>
      rw [Brush.execute, Brush.shown, Brush.rows_projectStore]
      exact s.nodup_rows mode details
    | _ => cases hc

theorem Sound.perform (h : l.Sound window) (c : BrushCommand) : (l.perform c).Sound window := by
  have hnodup := nodup_rows_execute h.nodup_rows c
  have hcurrent := h.current.execute c
  dsimp only [BrushLog.perform]
  rcases l.brush.execute_cases c with ⟨b₀, hexecute, hclock, -⟩ | ⟨hnone, hpostpones⟩
  case inl =>
    rw [hexecute] at hnodup hcurrent ⊢
    refine ⟨hnodup, ?window, ?last, nofun, hcurrent⟩
    all_goals
      simp only [Brush.shown, Brush.debounce_recompute, Debounce.settle, hclock, Option.isSome_some]
      cases c.clock?
    · exact h.window_eq
    · exact h.window_eq
    · exact h.last_eq
    · rfl
  case inr =>
    rw [hnone]
    refine ⟨hnodup, hpostpones.window_eq.trans h.window_eq, hpostpones.last_eq.trans h.last_eq,
      fun hpending => ?_, hcurrent⟩
    rcases hpostpones.pending_or_eq with ⟨-, hlast⟩ | ⟨hsame, -⟩
    · exact h.last_eq ▸ hlast
    · exact h.lastRun_of_pending (hsame ▸ hpending)

theorem Sound.run (h : l.Sound window) (commands : List BrushCommand) :
    (l.run commands).Sound window := by
  induction commands generalizing l with
  | nil => exact h
  | cons c commands ih => exact ih (h.perform c)

end BrushLog

namespace Brush

variable {b : Brush Float}

/-- A command makes the selection current, answers with it, and leaves the constraints alone. -/
structure CatchesUp (b : Brush Float) (c : BrushCommand) : Prop where
  answers : ∃ l, (b.execute c).2 = some l ∧ l.ids = b.admitted
  selected_eq : (b.execute c).1.selected = b.admitted
  state_eq : (b.execute c).1.state = b.state
  idle : (b.execute c).1.debounce.pending = false

/-- Recomputing at a time on the clock is catching up. -/
theorem CatchesUp.of_ran {c : BrushCommand} (now : Nat) (hnodup : (b.rows.map Row.id).Nodup)
    (h : b.execute c = ({ b with debounce := b.debounce.ran now } : Brush Float).recompute.shown) :
    b.CatchesUp c := by
  refine ⟨⟨_, by rw [h, shown], ?ids⟩, ?selected, ?_, ?_⟩
  case ids =>
    have hlinked := ids_linked_recompute (b := { b with debounce := b.debounce.ran now }) hnodup
    exact hlinked.trans (selected_recompute _)
  case selected => rw [h]; exact selected_recompute _
  all_goals rw [h]; rfl

theorem catchesUp_flush (hnodup : (b.rows.map Row.id).Nodup) (hpending : b.debounce.pending = true)
    (now : Nat) : b.CatchesUp (.flush now) := by
  refine .of_ran now hnodup ?_
  rcases b.debounce.take_cases now with h | ⟨-, hidle⟩
  · rw [execute, flush, h]
    rfl
  · exact absurd (hidle.symm.trans hpending) Bool.false_ne_true

theorem catchesUp_poll (hnodup : (b.rows.map Row.id).Nodup) (hpending : b.debounce.pending = true)
    {now : Nat} (helapsed : ∀ t ∈ b.debounce.last, t + b.debounce.window ≤ now) :
    b.CatchesUp (.poll now) := by
  refine .of_ran now hnodup ?_
  rw [execute, poll, Debounce.due_of_pending hpending helapsed]
  rfl

end Brush

/-- **No update is lost while dragging.**  Whatever was asked of a brush, at whatever times: if no
recomputation is pending, the selection lists just the rows that every constraint admits, in the
order of the rows, and the selected rows bear these names.  If some constraint is not reflected in
the selection, a recomputation is pending.  It stays pending through every command that does not
recompute.  To flush, or to poll a window after the last run, makes it and answers with the rows
that every constraint admits. -/
theorem no_update_lost (pane : PaneId) (state : BrushState Float) (window : Nat)
    (commands : List BrushCommand) :
    let log := (BrushLog.start pane state window).run commands
    let b := log.brush
    (b.debounce.pending = false →
      b.selected = (b.rows.filter fun r => b.Admits r).map Row.id ∧ b.linked.ids = b.selected) ∧
    (b.selected ≠ (b.rows.filter fun r => b.Admits r).map Row.id → b.debounce.pending = true) ∧
    (b.debounce.pending = true →
      (∃ t, log.lastRun = some t) ∧
      (∀ c, (b.execute c).2 = none → (b.execute c).1.debounce.pending = true) ∧
      (∀ now, b.CatchesUp (.flush now)) ∧
      ∀ now, (∀ t ∈ log.lastRun, t + window ≤ now) → b.CatchesUp (.poll now)) := by
  intro log b
  have h : log.Sound window := (BrushLog.sound_start pane state window).run commands
  refine ⟨fun hidle => ⟨h.current hidle, b.ids_linked h.nodup_rows (h.current hidle)⟩, ?lag,
    ?catchUp⟩
  case lag =>
    intro hne
    by_contra hidle
    exact hne (h.current (Bool.eq_false_iff.2 hidle))
  case catchUp =>
    intro hpending
    refine ⟨Option.ne_none_iff_exists'.1 (h.lastRun_of_pending hpending), ?stays,
      b.catchesUp_flush h.nodup_rows hpending, ?poll⟩
    case stays =>
      intro c hnone
      -- A command that recomputes answers, so this one postpones.
      rcases b.execute_cases c with ⟨b₀, hexecute, -, -⟩ | ⟨-, hpostpones⟩
      · rw [hexecute] at hnone
        cases hnone
      · exact hpostpones.pending_of_pending hpending
    case poll =>
      intro now helapsed
      refine b.catchesUp_poll h.nodup_rows hpending ?_
      rwa [h.last_eq, h.window_eq]

end StateAtlas
