import StateAtlas.Proofs.Session.Tickets
import StateAtlas.Session.Annotation
import StateAtlas.Session.Selection
/-!
Sessions under commands.

A command is what can be asked of a session, except for reading from it.  Tickets, runs and
expansions that were held back are values that outlive the call that gave them out, so a command may
bring any of them.  The backend answers in an environment of its own, about which nothing is known:
each answer may depend on all that was asked before.

What is refused leaves the session as it was; where an operation fails half-way, the session is what
it had become by then.
-/

namespace StateAtlas

/-- What can be asked of a session. -/
inductive SessionCommand
  | start
  | teardown
  | openDocuments (docs : List PaneDocument)
  | begin (pane : PaneId) (frontier : List NodeId)
  | finish (ticket : Ticket) (fetched : Except ExploreError Fragment)
  | drop (ticket : Ticket)
  | expand (pane : PaneId) (frontier : List NodeId)
  | resolve (pane : PaneId) (pending : Pending) (decision : CapacityDecision)
  | explore (pane : PaneId) (nodes : List NodeId) (force : Bool)
  | step (pane : PaneId) (run : BestPathRun)
  | advance (run : BestPathRun) (ticket : Ticket) (fetched : Except ExploreError Fragment)
  | bestPath (pane : PaneId) (sources : List NodeId) (maxSteps : Option Nat)
  | refresh (pane : PaneId)
  | mark (ids : List NodeId)
  | unmark (ids : List NodeId)
  | propagate
  | select (pane : PaneId) (ids : List NodeId)
  | undo (pane : PaneId)
  | redo (pane : PaneId)
  | selectWhere (pane : PaneId) (proposition : String)
  | sync (linked : LinkedSelection Float)
  | brush (pane : PaneId) (dimension : String) (c : Option (Constraint Float))
  | brushCoalesced (pane : PaneId) (dimension : String) (c : Option (Constraint Float)) (now : Nat)
  | pollBrushes (now : Nat)
  | selectExtreme (pane : PaneId) (dimension : String) (which : Extreme)
  | setMode (pane : PaneId) (mode : DisplayMode)
  | setPolicy (pane : PaneId) (policy : Option String)
  | setDetails (pane : PaneId) (details : DetailSelection)
  | setAutoSync (pane : PaneId) (on : Bool)
  | detectRecurrence
  | watchRecurrence (ids : List NodeId)
  | clearRecurrence
  | destroy (pane : PaneId) (cascade : Bool)
  | merge (panes : List PaneId) (keep : Bool)
  | duplicate (pane : PaneId)
  | duplicateMany (panes : List PaneId)
  | receive (message : RegistryMessage)

/-- What a command may change beside what panes hold and what is derived from that. -/
inductive CommandKind
  | working
  /-- May open and close panes. -/
  | opening
  /-- May change how a pane is shown or followed. -/
  | viewing
  | marking
  | selecting
  /-- Closes every pane and forgets the marks. -/
  | ending
deriving DecidableEq

def SessionCommand.kind : SessionCommand → CommandKind
  | .start | .openDocuments _ | .resolve _ _ .redirect | .explore .. | .destroy .. | .merge ..
  | .duplicate _ | .duplicateMany _ => .opening
  | .teardown => .ending
  | .mark _ | .unmark _ => .marking
  | .select .. | .undo _ | .redo _ | .selectWhere .. => .selecting
  | .setPolicy .. | .setAutoSync .. => .viewing
  | _ => .working

namespace Session

/-- What an operation made of the session; the session itself if the operation was refused. -/
def after {α : Type} (s : Session) (made : α → Session) : Except SessionError α → Session
  | .ok a => made a
  | .error _ => s

variable {σ : Type}

/-- The session after a command. -/
def perform (backend : Backend (StateM σ)) (s : Session) : SessionCommand → StateM σ Session
  | .start => do return (← s.start backend).1
  | .teardown => return s.teardown
  | .openDocuments docs => return (s.openDocuments docs).1
  | .begin pane frontier => return s.after Prod.fst (s.beginExpansion pane frontier)
  | .finish t fetched => return (s.finish t fetched).1
  | .drop t => return s.drop t
  | .expand pane frontier => do return (← s.expand backend pane frontier).1
  | .resolve pane pending decision => return s.after Prod.fst (s.resolve pane pending decision)
  | .explore pane nodes force => do return (← s.explore backend pane nodes force).1
  | .step pane run => return s.after Prod.fst (s.bestPathStep pane run).2
  | .advance run t fetched => return s.advance run t fetched
  | .bestPath pane sources maxSteps => do return (← s.bestPath backend pane sources maxSteps).1
  | .refresh pane => do return (← s.refresh backend pane).1
  | .mark ids => return (s.mark ids).1
  | .unmark ids => return (s.unmark ids).1
  | .propagate => return s.propagate
  | .select pane ids => return s.after id (s.select pane ids)
  | .undo pane => return s.after Prod.fst (s.undo pane)
  | .redo pane => return s.after Prod.fst (s.redo pane)
  | .selectWhere pane proposition => return s.after id (s.selectWhere pane proposition)
  | .sync l => return s.after Prod.fst (s.sync l)
  | .brush pane dimension c => return s.after id (s.brush pane dimension c)
  | .brushCoalesced pane dimension c now =>
    return s.after Prod.fst (s.brushCoalesced pane dimension c now)
  | .pollBrushes now => return (s.pollBrushes now).1
  | .selectExtreme pane dimension which =>
    return s.after Prod.fst (s.selectExtreme pane dimension which)
  | .setMode pane mode => return s.after id (s.setMode pane mode)
  | .setPolicy pane policy => return s.after id (s.setPolicy pane policy)
  | .setDetails pane details => return s.after id (s.setDetails pane details)
  | .setAutoSync pane on => return s.after id (s.setAutoSync pane on)
  | .detectRecurrence => return s.detectRecurrence.1
  | .watchRecurrence ids => return (s.watchRecurrence ids).1
  | .clearRecurrence => return s.clearRecurrence
  | .destroy pane cascade => return s.after Prod.fst (s.destroy pane cascade)
  | .merge panes keep => return s.after Prod.fst (s.merge panes keep)
  | .duplicate pane => return s.after Prod.fst (s.duplicate pane)
  | .duplicateMany panes => return s.after Prod.fst (s.duplicateMany panes)
  | .receive message => return s.after id (s.receive message)

/-- The session after commands, one after the other. -/
def run (backend : Backend (StateM σ)) (s : Session) (commands : List SessionCommand) :
    StateM σ Session :=
  commands.foldlM (perform backend) s

/-- A session without panes. -/
def vacant (options : SessionOptions) (bus : Bus) : Session :=
  { options, table := { PaneTable.start options.maxPanes options.brushWindow with bus } }

end Session

end StateAtlas
