import StateAtlas.Proofs.Pane.Commands
import StateAtlas.Session.Annotation
import StateAtlas.Session.Desk
import StateAtlas.Session.Lifecycle
import StateAtlas.Session.Selection
/-!
Desks under operations, and what the operations answer.

An operation names the tickets, expansions and runs that it works on, so one list of operations can
be carried out at different desks.  What is answered is what a caller can tell apart: of a ticket
the pane and the planned nodes, but not the lease.
-/

namespace StateAtlas

/-- What can be asked of a desk. -/
inductive Operation
  | start
  | teardown
  | openDocuments (docs : List PaneDocument)
  | primary
  | documents (panes : List PaneId) (selectionOnly : Bool)
  | begin (name : String) (pane : PaneId) (frontier : List NodeId)
  | fetch (name : String)
  | finish (name : String) (instead : Option Fetched)
  | drop (name : String)
  | expand (name : String) (pane : PaneId) (frontier : List NodeId)
  | resolve (name : String) (pane : PaneId) (decision : CapacityDecision)
  | explore (pane : PaneId) (nodes : List NodeId) (force : Bool)
  | refresh (pane : PaneId)
  | beginRun (name : String) (pane : PaneId) (sources : List NodeId) (maxSteps : Option Nat)
  | stepRun (runName ticketName : String) (pane : PaneId)
  | advanceRun (runName ticketName : String) (instead : Option Fetched)
  | bestPath (name : String) (pane : PaneId) (sources : List NodeId) (maxSteps : Option Nat)
  | mark (ids : List NodeId)
  | unmark (ids : List NodeId)
  | propagate
  | strategy
  | select (pane : PaneId) (ids : List NodeId)
  | undo (pane : PaneId)
  | redo (pane : PaneId)
  | selectWhere (pane : PaneId) (proposition : String)
  | sync (linked : LinkedSelection Float)
  | brush (pane : PaneId) (dimension : String) (c : Option (Constraint Float))
  | brushCoalesced (pane : PaneId) (dimension : String) (c : Option (Constraint Float)) (now : Nat)
  | pollBrushes (now : Nat)
  | selectExtreme (pane : PaneId) (dimension : String) (which : Extreme)
  | setMode (pane : PaneId) (mode : DisplayMode)
  | setPolicy (pane : PaneId) (policy : Option String)
  | setDetails (pane : PaneId) (details : DetailSelection)
  | setAutoSync (pane : PaneId) (on : Bool)
  | detectRecurrence
  | watchRecurrence (ids : List NodeId)
  | clearRecurrence
  | destroy (pane : PaneId) (cascade : Bool)
  | merge (panes : List PaneId) (keep : Bool)
  | duplicate (pane : PaneId)
  | duplicateMany (panes : List PaneId)
  | receive (message : RegistryMessage)
  /-- A command to the table, past the session. -/
  | table (c : PaneCommand)

/-- What an operation answers. -/
inductive Reply
  | done
  | pane (id : PaneId)
  | panes (ids : List PaneId)
  | nodes (ids : List NodeId)
  | told (answer : Bool)
  | count (n : Nat)
  /-- A ticket: the pane that it expands and the nodes to fetch. -/
  | planned (pane : PaneId) (nodes : List NodeId)
  | fragment (g : Fragment)
  | outcome (outcome : Outcome)
  | resolution (resolution : Resolution)
  | explored (explored : Explored)
  | run (run : BestPathRun)
  | report (report : BestPathReport)
  | recurrence (r : Recurrence)
  | documents (docs : List PaneDocument)

namespace Reply

/-- Of a ticket that is given out. -/
def ofTicket (t : Ticket) : Reply := .planned t.pane t.planned

/-- Of what a run needs next. -/
def ofStep : PathStep → Reply
  | .fetch t => ofTicket t
  | .done account => .report account

end Reply

/-- What comes of an operation at a desk. -/
abbrev Answer := Except DeskError Reply

/-- What a question was answered. -/
def Answer.told? : Answer → Option Bool
  | .ok (.told answer) => some answer
  | _ => none

namespace Desk

variable {α : Type}

/-- A result at a desk, as an answer. -/
def answered (reply : α → Reply) (r : Desk × Except DeskError α) : Desk × Answer :=
  (r.1, r.2.map reply)

/-- Takes over the desk that an operation left; if it was refused, the desk is as it was. -/
def kept (d : Desk) (reply : α → Reply) : Except DeskError (Desk × α) → Desk × Answer
  | .ok (d, a) => (d, .ok (reply a))
  | .error e => (d, .error e)

/-- Takes over the session that an operation left, also where it failed. -/
def adopt (d : Desk) (reply : α → Reply) (r : Session × Except SessionError α) : Desk × Answer :=
  ({ d with session := r.1 }, (r.2.map reply).mapError .session)

/-- Takes over the session that an operation left; if it was refused, the desk is as it was. -/
def take (d : Desk) (reply : α → Reply) : Except SessionError (Session × α) → Desk × Answer
  | .ok (session, a) => ({ d with session }, .ok (reply a))
  | .error e => (d, .error (.session e))

/-- Takes over the session that an operation left which answers nothing. -/
def changed (d : Desk) (r : Except SessionError Session) : Desk × Answer :=
  d.take (fun _ => .done) (r.map fun session => (session, ()))

/-- What can be read off the session. -/
def read (d : Desk) (reply : α → Reply) (r : Except SessionError α) : Desk × Answer :=
  (d, (r.map reply).mapError .session)

/-- What comes of an operation which cannot fail. -/
def made (d : Desk) (reply : α → Reply) (r : Session × α) : Desk × Answer :=
  d.take reply (.ok r)

variable {m : Type → Type} [Monad m]

/-- Carries out an operation. -/
def serve (backend : Backend m) (d : Desk) : Operation → m (Desk × Answer)
  | .start => return d.adopt .pane (← d.session.start backend)
  | .teardown => return d.changed (.ok d.session.teardown)
  | .openDocuments docs => return d.made .panes (d.session.openDocuments docs)
  | .primary => return d.read .pane d.session.primary
  | .documents panes selectionOnly =>
    return d.read .documents (d.session.documents panes selectionOnly)
  | .begin name pane frontier => return d.kept .ofTicket (d.begin name pane frontier)
  | .fetch name => return answered .fragment (← d.fetch backend name)
  | .finish name instead => return answered .outcome (← d.finish backend name instead)
  | .drop name => return ((d.drop name).1, .ok (.told (d.drop name).2))
  | .expand name pane frontier => return answered .outcome (← d.expand backend name pane frontier)
  | .resolve name pane decision => return answered .resolution (d.resolve name pane decision)
  | .explore pane nodes force =>
    return d.adopt .explored (← d.session.explore backend pane nodes force)
  | .refresh pane => return d.adopt .count (← d.session.refresh backend pane)
  | .beginRun name pane sources maxSteps =>
    return d.kept .run (d.beginRun name pane sources maxSteps)
  | .stepRun runName ticketName pane => return answered .ofStep (d.stepRun runName ticketName pane)
  | .advanceRun runName ticketName instead =>
    return answered .run (← d.advanceRun backend runName ticketName instead)
  | .bestPath name pane sources maxSteps =>
    return answered .report (← d.bestPath backend name pane sources maxSteps)
  | .mark ids => return d.made .nodes (d.session.mark ids)
  | .unmark ids => return d.made .nodes (d.session.unmark ids)
  | .propagate => return d.changed (.ok d.session.propagate)
  | .strategy => return d.read .fragment (.ok d.session.strategy)
  | .select pane ids => return d.changed (d.session.select pane ids)
  | .undo pane => return d.take .told (d.session.undo pane)
  | .redo pane => return d.take .told (d.session.redo pane)
  | .selectWhere pane proposition => return d.changed (d.session.selectWhere pane proposition)
  | .sync l => return d.take .told (d.session.sync l)
  | .brush pane dimension c => return d.changed (d.session.brush pane dimension c)
  | .brushCoalesced pane dimension c now =>
    return d.take .told (d.session.brushCoalesced pane dimension c now)
  | .pollBrushes now => return d.made .count (d.session.pollBrushes now)
  | .selectExtreme pane dimension which =>
    return d.take .told (d.session.selectExtreme pane dimension which)
  | .setMode pane mode => return d.changed (d.session.setMode pane mode)
  | .setPolicy pane policy => return d.changed (d.session.setPolicy pane policy)
  | .setDetails pane details => return d.changed (d.session.setDetails pane details)
  | .setAutoSync pane on => return d.changed (d.session.setAutoSync pane on)
  | .detectRecurrence => return d.made .recurrence d.session.detectRecurrence
  | .watchRecurrence ids => return d.made .recurrence (d.session.watchRecurrence ids)
  | .clearRecurrence => return d.changed (.ok d.session.clearRecurrence)
  | .destroy pane cascade => return d.take .panes (d.session.destroy pane cascade)
  | .merge panes keep => return d.take .pane (d.session.merge panes keep)
  | .duplicate pane => return d.take .pane (d.session.duplicate pane)
  | .duplicateMany panes => return d.take .panes (d.session.duplicateMany panes)
  | .receive message => return d.changed (d.session.receive message)
  | .table c => return d.take .panes (d.session.withTable (d.session.table.execute c))

/-- Carries out operations, one after the other; tells what each of them answers. -/
def serveAll (backend : Backend m) (d : Desk) : List Operation → m (Desk × List Answer)
  | [] => return (d, [])
  | o :: operations => do
    let (d, answer) ← d.serve backend o
    let (d, answers) ← d.serveAll backend operations
    return (d, answer :: answers)

end Desk

end StateAtlas
