import StateAtlas.Session.Basic
/-!
Expanding panes.

Who expands a pane holds a ticket: the planned nodes together with the lease on the pane.  Fetching
needs the ticket alone, so several panes can be expanded side by side; a pane gives out one ticket
at a time.  Finishing a ticket merges what was fetched and gives the lease back, also when the fetch
failed; a ticket that is dropped frees its pane.
-/

namespace StateAtlas

/-- A planned expansion. -/
structure Ticket where
  lease : Lease
  /-- The nodes to fetch. -/
  planned : List NodeId
deriving DecidableEq, Repr

/-- The pane that a ticket expands. -/
def Ticket.pane (t : Ticket) : PaneId := t.lease.pane

/-- What became of an expansion that was held back. -/
inductive Resolution
  | merged (delta : Delta)
  | redirected (pane : PaneId) (delta : Delta)
  | cancelled

/-- The pane in which nodes are explored. -/
inductive Explored
  | spawned (pane : PaneId)
  /-- A live pane was already spawned for one of the nodes. -/
  | already (pane : PaneId)

def Resolution.toJson : Resolution → Json
  | .merged delta => .record [("merged", delta.toJson)]
  | .redirected pane delta => .record [("redirected", pane.toJson), ("delta", delta.toJson)]
  | .cancelled => .text "cancelled"

instance : ToJson Resolution := ⟨Resolution.toJson⟩

def Explored.toJson : Explored → Json
  | .spawned pane => .record [("spawned", pane.toJson)]
  | .already pane => .record [("already", pane.toJson)]

instance : ToJson Explored := ⟨Explored.toJson⟩

namespace Session

/-! ## Tickets -/

/-- Gives out the ticket for planned nodes of an open pane. -/
def issue (s : Session) (p : Pane) (planned : List NodeId) :
    Except SessionError (Session × Ticket) := do
  if p.entered = .closed then throw (.pane (.closed p.id))
  let (table, lease) ← (s.table.beginExpansion p).mapError .explore
  return ({ s with table }, { lease, planned })

/-- Plans an expansion of a pane. -/
def beginExpansion (s : Session) (pane : PaneId) (frontier : List NodeId) :
    Except SessionError (Session × Ticket) := do
  let p ← s.get pane
  s.issue p (p.store.plan frontier)

/-- Lets go of a ticket. -/
def drop (s : Session) (t : Ticket) : Session := { s with table := s.table.release t.lease }

/-- What merging a fragment into a pane makes of the pane, and how that went; the expansion of the
pane is over. -/
def mergeInto (s : Session) (p : Pane) (planned : List NodeId) (g : Fragment) : Pane × Outcome :=
  let (store, outcome) := p.store.commit planned g (some (p.capacity s.options.paneNodeCeiling))
  ({ p with store }.endExpansion, outcome)

/-- Finishes an expansion with what was fetched or with the failure to fetch it. -/
def finish (s : Session) (t : Ticket) (fetched : Except ExploreError Fragment) :
    Session × Except SessionError Outcome :=
  match s.get t.pane, fetched with
  | .error e, _ => (s, .error e)
  | .ok _, .error e =>
    let s := s.modify t.pane Pane.endExpansion
    (s.warn (some t.pane) s!"expansion failed: {e.message}", .error (.explore e))
  | .ok p, .ok g =>
    let (grown, outcome) := s.mergeInto p t.planned g
    let s := s.modify t.pane fun _ => grown
    match outcome with
    | .merged delta => (s.afterGrowth t.pane delta.nodes, .ok outcome)
    | .capacityExceeded _ => (s, .ok outcome)

/-! ## Held back expansions -/

/-- The nodes of a pane that a list names, as a fragment. -/
def seedOf (p : Pane) (ids : List NodeId) : Fragment := ⟨ids.filterMap p.store.node?, []⟩

/-- Opens a pane from another to explore nodes. -/
def spawnFor (s : Session) (source : Pane) (nodes : List NodeId) : Session × PaneId :=
  let request := (SpawnRequest.seeded (seedOf source nodes) source.view).fromPane source.id nodes
  let (table, id) := s.table.openPane request
  ({ s with table }, id)

/-- Merges an expansion that was held back into a pane. -/
def applyPending (s : Session) (p : Pane) (pending : Pending) : Session × Delta :=
  let (store, delta) := p.store.apply pending
  ((s.modify p.id fun p => { p with store }).afterGrowth p.id delta.nodes, delta)

theorem fst_applyPending (s : Session) (p : Pane) (pending : Pending) :
    (s.applyPending p pending).1 =
      (s.modify p.id fun q => { q with
        store := p.store.merge pending.frontier pending.fetched }).afterGrowth p.id
          (p.store.apply pending).2.nodes := by
  rw [applyPending, ← Store.fst_apply]

/-- Settles an expansion of a pane that was held back. -/
def resolve (s : Session) (pane : PaneId) (pending : Pending) :
    CapacityDecision → Except SessionError (Session × Resolution)
  | .cancel => .ok (s, .cancelled)
  | .proceed => do
    let p ← s.get pane
    let (s, delta) := s.applyPending p pending
    return (s, .merged delta)
  | .redirect => do
    let source ← s.get pane
    let (s, id) := s.spawnFor source pending.frontier
    let p ← s.get id
    let (s, delta) := s.applyPending p pending
    return (s, .redirected id delta)

/-! ## With a backend -/

variable {m : Type → Type} [Monad m]

/-- Plans, fetches and finishes an expansion in one go. -/
def expand (s : Session) (backend : Backend m) (pane : PaneId) (frontier : List NodeId) :
    m (Session × Except SessionError Outcome) := do
  match s.beginExpansion pane frontier with
  | .error e => return (s, .error e)
  | .ok (s, t) => return s.finish t (← backend.fetch t.planned)

/-- Opens a pane for nodes and expands it, regardless of the ceiling.  Unless that is forced, a live
pane that was spawned for one of the nodes is named instead. -/
def explore (s : Session) (backend : Backend m) (pane : PaneId) (nodes : List NodeId)
    (force : Bool) : m (Session × Except SessionError Explored) := do
  match if force then none else s.table.explored? nodes with
  | some id => return (s, .ok (.already id))
  | none =>
    match s.get pane with
    | .error e => return (s, .error e)
    | .ok source =>
      let (s, id) := s.spawnFor source nodes
      let (s, outcome) ← (s.afterGrowth id []).expand backend id nodes
      match outcome with
      | .error e => return (s, .error e)
      | .ok (.merged _) => return (s, .ok (.spawned id))
      | .ok (.capacityExceeded pending) =>
        match s.resolve id pending .proceed with
        | .error e => return (s, .error e)
        | .ok (s, _) => return (s, .ok (.spawned id))

/-- Takes over fresh copies of all states of a pane; tells how many there were. -/
def refresh (s : Session) (backend : Backend m) (pane : PaneId) :
    m (Session × Except SessionError Nat) := do
  match s.get pane with
  | .error e => return (s, .error e)
  | .ok p =>
    let (store, updated) ← backend.refresh p.store
    match updated with
    | .error e =>
      return (s.warn (some pane) s!"refresh failed: {e.message}", .error (.explore e))
    | .ok n => return ((s.modify pane fun p => { p with store }).reproject pane, .ok n)

end Session

end StateAtlas
