import StateAtlas.Brush.Details
import StateAtlas.Graph.Mode
/-!
View settings of a pane, which copies and documents take along, and the log of its selections,
which they do not.
-/

namespace StateAtlas

/-- Where a new pane stands in the row. -/
inductive InsertPolicy
  /-- Right after the pane that spawned it. -/
  | afterSpawner
  | atEnd
deriving DecidableEq, Repr

namespace InsertPolicy

instance : Inhabited InsertPolicy := ⟨.afterSpawner⟩

/-- The policy's name in data. -/
def name : InsertPolicy → String
  | .afterSpawner => "after_spawner"
  | .atEnd => "at_end"

/-- The policy of that name. -/
def ofName? : String → Option InsertPolicy
  | "after_spawner" => some .afterSpawner
  | "at_end" => some .atEnd
  | _ => none

/-- The policy that a person asks for, by its name in data or by a short word. -/
def ofWord? : String → Option InsertPolicy
  | "after" => some .afterSpawner
  | "end" => some .atEnd
  | s => ofName? s

theorem ofName?_name (p : InsertPolicy) : ofName? p.name = some p := by
  cases p <;> rfl

theorem ofWord?_name (p : InsertPolicy) : ofWord? p.name = some p := by
  cases p <;> rfl

def toJson (p : InsertPolicy) : Json := .text p.name

instance : ToJson InsertPolicy := ⟨InsertPolicy.toJson⟩

def ofJson? : Json → Option InsertPolicy := Json.word? ofName?

end InsertPolicy

/-- The settings of a pane. -/
structure ViewState where
  mode : DisplayMode := .states
  /-- The policy that guides the best path; without one every successor is followed. -/
  policy : Option String := none
  details : DetailSelection := {}
  /-- Whether the brush's selection becomes the pane's own. -/
  autoSync : Bool := false
  insertPolicy : InsertPolicy := .afterSpawner
deriving Inhabited

namespace ViewState

def toJson (v : ViewState) : Json :=
  .record [("mode", v.mode.toJson), ("policy", .optional .text v.policy),
    ("details", v.details.toJson), ("auto_sync", .bool v.autoSync),
    ("insert_policy", v.insertPolicy.toJson)]

instance : ToJson ViewState := ⟨ViewState.toJson⟩

def ofJson? (j : Json) : Option ViewState := do
  let f ← j.fields? ["mode", "policy", "details", "auto_sync", "insert_policy"]
  let mode ← Json.orElse .states DisplayMode.ofJson? (f "mode")
  let policy ← Json.maybe Json.text? (f "policy")
  let details ← Json.orElse {} DetailSelection.ofJson? (f "details")
  let autoSync ← Json.orElse false Json.bool? (f "auto_sync")
  let insertPolicy ← Json.orElse .afterSpawner InsertPolicy.ofJson? (f "insert_policy")
  some { mode, policy, details, autoSync, insertPolicy }

end ViewState

/-- Selections to go back to and to go forward to, the next one first. -/
structure History where
  past : List (List NodeId) := []
  future : List (List NodeId) := []
deriving DecidableEq, Repr, Inhabited

namespace History

/-- How many past selections are kept when one is recorded. -/
def depth : Nat := 64

/-- Records the selection that a new one replaces, unless it is the one recorded last; if there are
too many, the oldest one is dropped. -/
def record (h : History) (previous : List NodeId) : History :=
  if h.past.head? = some previous then h
  else
    let past := previous :: h.past
    { past := if depth < past.length then past.dropLast else past, future := [] }

/-- Where no more than the depth is kept, recording keeps that many. -/
theorem record_eq_take {h : History} {previous : List NodeId}
    (hfresh : h.past.head? ≠ some previous) (hlength : h.past.length ≤ depth) :
    h.record previous = ⟨(previous :: h.past).take depth, []⟩ := by
  rw [record, if_neg hfresh]
  dsimp only
  split
  next hfull =>
    have hdepth : h.past.length = depth := by
      rw [List.length_cons] at hfull
      omega
    rw [List.dropLast_eq_take, List.length_cons, hdepth, Nat.add_sub_cancel]
  next hroom => rw [List.take_of_length_le (Nat.not_lt.1 hroom)]

/-- Goes back from the current selection. -/
def undo? (h : History) (current : List NodeId) : Option (History × List NodeId) :=
  match h.past with
  | [] => none
  | previous :: past => some (⟨past, current :: h.future⟩, previous)

/-- Goes forward from the current selection. -/
def redo? (h : History) (current : List NodeId) : Option (History × List NodeId) :=
  match h.future with
  | [] => none
  | next :: future => some (⟨current :: h.past, future⟩, next)

/-- Whether there is nothing to go back or forward to. -/
def isEmpty (h : History) : Bool := h.past.isEmpty && h.future.isEmpty

end History

end StateAtlas
