import StateAtlas.Graph.Whole
/-!
A backend in memory that plays a script and keeps a log.

Cues stand in a queue, and a request looks at the first of them only.  A cue that waits for another
request stays where it is; any other is used up by the request, and whatever it does not say is
answered from the whole system.
-/

namespace StateAtlas

/-- What the backend is to answer once. -/
structure Cue where
  /-- The name of the request that the cue waits for, if it is not good for all. -/
  waitsFor : Option String := none
  failure : Option ExploreError := none
  fragment : Option Fragment := none
  project : Option Project := none

namespace Cue

/-- Whether a request uses up the cue. -/
def isFor (c : Cue) (e : Endpoint) : Bool := c.waitsFor.all (· = e.name)

/-- The error that a record with a kind stands for. -/
def errorOfJson? (j : Json) : Option ExploreError := do
  let f ← j.fields? ["kind", "message", "status", "body"]
  let message ← Json.orElse "" Json.text? (f "message")
  match ← Json.required Json.text? (f "kind") with
  | "network" => some (.network message)
  | "decode" => some (.decode message)
  | "status" =>
    let code ← Json.required (Json.count? 16) (f "status")
    let body ← Json.orElse "" Json.text? (f "body")
    some (.status code body)
  | _ => none

def ofJson? (j : Json) : Option Cue := do
  let f ← j.fields? ["on", "error", "payload", "info"]
  let waitsFor ← Json.maybe Json.text? (f "on")
  let failure ← Json.maybe errorOfJson? (f "error")
  let fragment ← Json.maybe Fragment.ofJson? (f "payload")
  let project ← Json.maybe Project.ofJson? (f "info")
  some { waitsFor, failure, fragment, project }

end Cue

/-- A whole system, the cues that are left, and the requests made so far. -/
structure Rehearsal where
  whole : WholeGraph := {}
  cues : List Cue := []
  /-- Every request with the nodes that it named. -/
  log : List (Endpoint × List (List NodeId)) := []

namespace Rehearsal

/-- The first cue, if a request uses it up, and the cues that are left. -/
def takeCue (r : Rehearsal) (e : Endpoint) : Cue × List Cue :=
  match r.cues with
  | [] => ({}, [])
  | c :: rest => if c.isFor e then (c, rest) else ({}, r.cues)

/-- Logs a request and answers it as a cue says, or else from the whole system. -/
def answer {α : Type} (e : Endpoint) (named : List (List NodeId)) (scripted : Cue → Option α)
    (usual : WholeGraph → α) : StateM Rehearsal (Except ExploreError α) := do
  let r ← get
  let (cue, cues) := r.takeCue e
  set { r with cues, log := r.log ++ [(e, named)] }
  match cue.failure with
  | some error => return .error error
  | none => return .ok ((scripted cue).getD (usual r.whole))

/-- The backend that plays the script. -/
def backend : Backend (StateM Rehearsal) where
  initial := answer .initial [] Cue.fragment WholeGraph.initial
  status := answer .status [] Cue.project WholeGraph.project
  outgoing ids := answer .outgoing [ids] Cue.fragment fun w => w.outgoing ids
  reset opened closed :=
    answer .reset [opened, closed] Cue.fragment fun w => w.reset (opened ++ closed)

/-- The requests made so far; the log starts anew. -/
def takeLog (r : Rehearsal) : Rehearsal × List (Endpoint × List (List NodeId)) :=
  ({ r with log := [] }, r.log)

end Rehearsal

/-- A logged request: its name and the nodes that it named. -/
def Endpoint.requestToJson (e : Endpoint) (named : List (List NodeId)) : Json :=
  .list (.text e.name :: named.map NodeId.listToJson)

end StateAtlas
