import StateAtlas.Dictionary
import StateAtlas.Session.BestPath
/-!
A session with the work that is under way.

A desk keeps tickets, what was fetched for them, expansions that were held back and runs along best
paths, each under a name.  A name that is taken anew lets go of what it stood for; a ticket that is
let go of frees its pane.  Finishing an expansion and moving a run on use up the ticket, whether or
not that goes well.
-/

namespace StateAtlas

/-- What came of a fetch. -/
abbrev Fetched := Except ExploreError Fragment

/-- A session and the work that is under way, by name. -/
structure Desk where
  session : Session
  tickets : Dictionary String (Ticket × Option Fetched) := {}
  pendings : Dictionary String Pending := {}
  runs : Dictionary String BestPathRun := {}

/-- Why work on a desk fails. -/
inductive DeskError
  /-- There is nothing under the name. -/
  | noSlot
  | session (error : SessionError)
deriving DecidableEq, Repr

def DeskError.toJson : DeskError → Json
  | .noSlot => .failure "NoSlot"
  | .session e => e.toJson

instance : ToJson DeskError := ⟨DeskError.toJson⟩

namespace Desk

/-! ## Tickets -/

/-- Lets go of the ticket under a name; tells whether there was one. -/
def drop (d : Desk) (name : String) : Desk × Bool :=
  match d.tickets.get? name with
  | none => (d, false)
  | some (t, _) => ({ d with session := d.session.drop t, tickets := d.tickets.erase name }, true)

/-- Puts a ticket under a name. -/
def put (d : Desk) (name : String) (t : Ticket) : Desk :=
  let d := (d.drop name).1
  { d with tickets := d.tickets.insert name (t, none) }

/-- Plans an expansion of a pane and keeps the ticket. -/
def begin (d : Desk) (name : String) (pane : PaneId) (frontier : List NodeId) :
    Except DeskError (Desk × Ticket) := do
  let (session, t) ← (d.session.beginExpansion pane frontier).mapError .session
  return ({ d with session }.put name t, t)

/-- Keeps an expansion that was held back. -/
def keepPending (d : Desk) (name : String) : Option Pending → Desk
  | none => d
  | some p => { d with pendings := d.pendings.insert name p }

/-- Takes over the session after an expansion; keeps the expansion if it was held back. -/
def settled (d : Desk) (name : String) :
    Session × Except SessionError Outcome → Desk × Except DeskError Outcome
  | (session, .error e) => ({ d with session }, .error (.session e))
  | (session, .ok outcome) => ({ d with session }.keepPending name outcome.pending?, .ok outcome)

/-- Settles an expansion that was held back, which is then no longer kept. -/
def resolve (d : Desk) (name : String) (pane : PaneId) (decision : CapacityDecision) :
    Desk × Except DeskError Resolution :=
  match d.pendings.get? name with
  | none => (d, .error .noSlot)
  | some p =>
    let d := { d with pendings := d.pendings.erase name }
    match d.session.resolve pane p decision with
    | .error e => (d, .error (.session e))
    | .ok (session, resolution) => ({ d with session }, .ok resolution)

/-! ## With a backend -/

variable {m : Type → Type} [Monad m]

/-- Fetches for the ticket under a name and keeps what came of it. -/
def fetch (d : Desk) (backend : Backend m) (name : String) :
    m (Desk × Except DeskError Fragment) := do
  match d.tickets.get? name with
  | none => return (d, .error .noSlot)
  | some (t, _) =>
    let fetched ← backend.fetch t.planned
    return ({ d with tickets := d.tickets.insert name (t, some fetched) },
      fetched.mapError fun e => .session (.explore e))

/-- Takes the ticket under a name off the desk together with what was fetched for it: what is given
instead, or else what was kept, or else what a fetch brings now. -/
def collect (d : Desk) (backend : Backend m) (name : String) (instead : Option Fetched) :
    m (Desk × Option (Ticket × Fetched)) := do
  match d.tickets.get? name with
  | none => return (d, none)
  | some (t, kept) =>
    let d := { d with tickets := d.tickets.erase name }
    match instead <|> kept with
    | some fetched => return (d, some (t, fetched))
    | none => return (d, some (t, ← backend.fetch t.planned))

/-- Finishes the expansion of the ticket under a name. -/
def finish (d : Desk) (backend : Backend m) (name : String) (instead : Option Fetched) :
    m (Desk × Except DeskError Outcome) := do
  match ← d.collect backend name instead with
  | (d, none) => return (d, .error .noSlot)
  | (d, some (t, fetched)) => return d.settled name (d.session.finish t fetched)

/-- Plans, fetches and finishes an expansion in one go. -/
def expand (d : Desk) (backend : Backend m) (name : String) (pane : PaneId)
    (frontier : List NodeId) : m (Desk × Except DeskError Outcome) := do
  return d.settled name (← d.session.expand backend pane frontier)

/-! ## Best paths -/

/-- Keeps a run. -/
def keepRun (d : Desk) (name : String) (run : BestPathRun) : Desk :=
  { d with runs := d.runs.insert name run }

/-- Begins a run from nodes of a pane. -/
def beginRun (d : Desk) (name : String) (pane : PaneId) (sources : List NodeId)
    (maxSteps : Option Nat) : Except DeskError (Desk × BestPathRun) := do
  let run ← (d.session.beginBestPath pane sources maxSteps).mapError .session
  return (d.keepRun name run, run)

/-- Asks a run what it needs next, and keeps the ticket that it then holds or the expansion that
stopped it. -/
def stepRun (d : Desk) (runName ticketName : String) (pane : PaneId) :
    Desk × Except DeskError PathStep :=
  match d.runs.get? runName with
  | none => (d, .error .noSlot)
  | some run =>
    let (run, r) := d.session.bestPathStep pane run
    let d := d.keepRun runName run
    match r with
    | .error e => (d, .error (.session e))
    | .ok (session, .fetch t) => ({ d with session }.put ticketName t, .ok (.fetch t))
    | .ok (session, .done report) =>
      ({ d with session }.keepPending ticketName report.pending?, .ok (.done report))

/-- Moves a run on by what was fetched for a ticket. -/
def advanceRun (d : Desk) (backend : Backend m) (runName ticketName : String)
    (instead : Option Fetched) : m (Desk × Except DeskError BestPathRun) := do
  match ← d.collect backend ticketName instead with
  | (d, none) => return (d, .error .noSlot)
  | (d, some (t, fetched)) =>
    match d.runs.get? runName with
    | none => return ({ d with session := d.session.drop t }, .error .noSlot)
    | some run =>
      match d.session.advanceBestPath run t fetched with
      | .error e => return ({ d with session := d.session.drop t }, .error (.session e))
      | .ok (session, run) => return ({ d with session }.keepRun runName run, .ok run)

/-- Follows the best path from nodes of a pane. -/
def bestPath (d : Desk) (backend : Backend m) (name : String) (pane : PaneId)
    (sources : List NodeId) (maxSteps : Option Nat) :
    m (Desk × Except DeskError BestPathReport) := do
  match ← d.session.bestPath backend pane sources maxSteps with
  | (session, .error e) => return ({ d with session }, .error (.session e))
  | (session, .ok report) =>
    return ({ d with session }.keepPending name report.pending?, .ok report)

end Desk

end StateAtlas
