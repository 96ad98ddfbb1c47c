/-!
Running at most once per window of time.

A request runs at once if a window has passed since the last run; otherwise it stays pending until
it is found due, is taken, or is settled by other means.  Times are milliseconds on a clock of the
caller's; a clock that goes back counts as standing still.
-/

namespace StateAtlas

/-- When the last run was, and whether a request waits. -/
structure Debounce where
  /-- The least time between two runs. -/
  window : Nat
  last : Option Nat := none
  pending : Bool := false
deriving DecidableEq, Repr, Inhabited

namespace Debounce

/-- Whether a window has passed since the last run. -/
def elapsed (d : Debounce) (now : Nat) : Bool :=
  match d.last with
  | none => true
  | some t => d.window ≤ now - t

/-- The state after a run. -/
def ran (d : Debounce) (now : Nat) : Debounce := { d with last := some now, pending := false }

/-- Makes a request; `true` means to run now. -/
def hit (d : Debounce) (now : Nat) : Debounce × Bool :=
  if d.elapsed now then (d.ran now, true) else ({ d with pending := true }, false)

/-- Runs a pending request whose window has passed. -/
def due (d : Debounce) (now : Nat) : Debounce × Bool :=
  if d.pending && d.elapsed now then (d.ran now, true) else (d, false)

/-- Runs a pending request whatever the window. -/
def take (d : Debounce) (now : Nat) : Debounce × Bool :=
  if d.pending then (d.ran now, true) else (d, false)

/-- Forgets a pending request. -/
def settle (d : Debounce) : Debounce := { d with pending := false }

end Debounce

end StateAtlas
