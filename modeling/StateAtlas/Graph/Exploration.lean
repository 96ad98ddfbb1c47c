import StateAtlas.Graph.Store
import StateAtlas.Model.Schema
/-!
Growing a store by fetched neighbourhoods.

An expansion goes in three steps.  `Store.plan` picks the nodes of a frontier whose neighbourhood
is not known yet; the backend is asked for those; `Store.commit` merges the answer, unless that
would push the number of nodes on display past a ceiling.  An answer that is held back is kept in a
`Pending` and merged later by `Store.apply`, or not at all.

The backend is anything that answers the four requests of `Backend`, in any monad.
-/

namespace StateAtlas

/-! ## The backend -/

/-- Why a request or an expansion failed. -/
inductive ExploreError
  | network (detail : String)
  | status (code : Nat) (body : String)
  | decode (detail : String)
  | busy (pane : PaneId)
deriving DecidableEq, Repr

/-- What a person is told. -/
def ExploreError.message : ExploreError → String
  | .network detail => s!"backend request failed: {detail}"
  | .status code body => s!"backend answered {code}: {body}"
  | .decode detail => s!"malformed backend payload: {detail}"
  | .busy pane => s!"pane {pane.text} already has an expansion in flight"

/-- The kind of the error in one word. -/
def ExploreError.kindName : ExploreError → String
  | .network _ => "Network"
  | .status .. => "Status"
  | .decode _ => "Decode"
  | .busy _ => "Busy"

def ExploreError.toJson (e : ExploreError) : Json := .failure e.kindName (some e.message)

instance : ToJson ExploreError := ⟨ExploreError.toJson⟩

/-- The requests that the backend answers. -/
inductive Endpoint
  | initial
  | status
  | outgoing
  | reset
deriving DecidableEq, Repr

namespace Endpoint

/-- The last part of the endpoint's address. -/
def name : Endpoint → String
  | .initial => "initial"
  | .status => "status"
  | .outgoing => "outgoing"
  | .reset => "reset"

/-- The endpoint of that name. -/
def ofName? : String → Option Endpoint
  | "initial" => some .initial
  | "status" => some .status
  | "outgoing" => some .outgoing
  | "reset" => some .reset
  | _ => none

theorem ofName?_name (e : Endpoint) : ofName? e.name = some e := by
  cases e <;> rfl

end Endpoint

/-- The service that knows the whole system. -/
structure Backend (m : Type → Type) where
  /-- The fragment a session starts from. -/
  initial : m (Except ExploreError Fragment)
  /-- The project and its attribute declarations. -/
  status : m (Except ExploreError Project)
  /-- The neighbourhoods of nodes. -/
  outgoing : List NodeId → m (Except ExploreError Fragment)
  /-- Fresh copies of open and of closed states. -/
  reset : List NodeId → List NodeId → m (Except ExploreError Fragment)

/-! ## Planning and merging -/

/-- The greatest number of nodes on display in a mode. -/
structure Capacity where
  ceiling : Nat
  mode : DisplayMode
deriving DecidableEq, Repr

/-- A fetched neighbourhood that is held back. -/
structure Pending where
  /-- The nodes whose neighbourhood it is. -/
  frontier : List NodeId
  fetched : Fragment
  /-- Nodes on display before merging. -/
  visible : Nat
  /-- Nodes on display that merging would add. -/
  incoming : Nat
  ceiling : Nat
deriving Inhabited

/-- How merging a neighbourhood went. -/
inductive Outcome
  | merged (delta : Delta)
  | capacityExceeded (pending : Pending)

instance : Inhabited Outcome := ⟨.merged {}⟩

/-- What to do with a neighbourhood that is held back. -/
inductive CapacityDecision
  /-- Merge it into a new pane. -/
  | redirect
  /-- Merge it regardless. -/
  | proceed
  /-- Forget it. -/
  | cancel
deriving DecidableEq, Repr

/-- The delta of a merge that was not held back. -/
def Outcome.delta? : Outcome → Option Delta
  | .merged delta => some delta
  | .capacityExceeded _ => none

/-- The neighbourhood that was held back. -/
def Outcome.pending? : Outcome → Option Pending
  | .merged _ => none
  | .capacityExceeded pending => some pending

namespace Store

/-- The collapsed nodes of a frontier, each once. -/
def plan (s : Store) (frontier : List NodeId) : List NodeId :=
  (frontier.filter fun id => s.hasNode id && s.isCollapsed id).eraseDups

/-- How many nodes on display merging a fragment would add. -/
def incomingCount (s : Store) (g : Fragment) (mode : DisplayMode) : Nat :=
  (((g.nodes.filter fun n => mode.admits n.kind).map Node.id).filter
    fun id => !s.hasNode id).eraseDups.length

/-- The nodes on display now and those that merging a fragment would add, if it would add some and
exceed the ceiling. -/
def exceeds? (s : Store) (g : Fragment) (capacity : Capacity) : Option (Nat × Nat) :=
  let visible := s.count capacity.mode
  let incoming := s.incomingCount g capacity.mode
  if 0 < incoming ∧ capacity.ceiling < visible + incoming then some (visible, incoming) else none

/-- The store with the neighbourhoods of a frontier. -/
def merge (s : Store) (frontier : List NodeId) (g : Fragment) : Store :=
  (s.add g).markExpanded frontier

/-- Merges the neighbourhoods of a frontier unless a capacity forbids it. -/
def commit (s : Store) (frontier : List NodeId) (g : Fragment) (capacity : Option Capacity) :
    Store × Outcome :=
  match capacity.bind fun c => (s.exceeds? g c).map fun v => (c, v) with
  | some (c, visible, incoming) =>
    (s, .capacityExceeded { frontier, fetched := g, visible, incoming, ceiling := c.ceiling })
  | none =>
    let (grown, delta) := s.addReporting g
    (grown.markExpanded frontier, .merged delta)

/-- Without a ceiling nothing is held back. -/
theorem commit_none (s : Store) (frontier : List NodeId) (g : Fragment) :
    s.commit frontier g none =
      (s.merge frontier g, .merged (.between s (s.merge frontier g))) := by
  rw [commit, Option.bind_none, addReporting_eq]
  rfl

/-- A merge is held back and leaves the store alone, or it grows the store by what its delta
tells. -/
theorem commit_cases (s : Store) (frontier : List NodeId) (g : Fragment)
    (capacity : Option Capacity) :
    (∃ pending, s.commit frontier g capacity = (s, .capacityExceeded pending) ∧
      pending.frontier = frontier ∧ pending.fetched = g) ∨
    s.commit frontier g capacity =
      (s.merge frontier g, .merged (.between s (s.merge frontier g))) := by
  unfold commit
  split
  · exact .inl ⟨_, rfl, rfl, rfl⟩
  · rw [addReporting_eq]
    exact .inr rfl

/-- Merges a neighbourhood that was held back. -/
def apply (s : Store) (p : Pending) : Store × Delta :=
  let (grown, delta) := s.addReporting p.fetched
  (grown.markExpanded p.frontier, delta)

theorem apply_eq (s : Store) (p : Pending) : s.apply p =
    (s.merge p.frontier p.fetched, .between s (s.merge p.frontier p.fetched)) := by
  rw [apply, addReporting_eq]
  rfl

@[simp] theorem fst_apply (s : Store) (p : Pending) :
    (s.apply p).1 = s.merge p.frontier p.fetched := congrArg Prod.fst (s.apply_eq p)

theorem nodeIds_apply (s : Store) (p : Pending) :
    (s.apply p).1.nodeIds = s.nodeIds ++ (s.apply p).2.nodes := by
  rw [apply_eq]
  exact s.nodeIds_add p.fetched

theorem edgeIds_apply (s : Store) (p : Pending) :
    (s.apply p).1.edgeIds = s.edgeIds ++ (s.apply p).2.edges := by
  rw [apply_eq]
  exact s.edgeIds_add p.fetched

end Store

/-! ## Asking the backend -/

namespace Backend

variable {m : Type → Type} [Monad m]

/-- The neighbourhoods of planned nodes; nothing is asked when there are none. -/
def fetch (backend : Backend m) (planned : List NodeId) : m (Except ExploreError Fragment) :=
  if planned.isEmpty then pure (.ok {}) else backend.outgoing planned

/-- Plans, fetches and commits in one go. -/
def expand (backend : Backend m) (s : Store) (frontier : List NodeId)
    (capacity : Option Capacity) : m (Store × Except ExploreError Outcome) := do
  let planned := s.plan frontier
  if planned.isEmpty then return (s, .ok (.merged {}))
  match ← backend.fetch planned with
  | .error e => return (s, .error e)
  | .ok g =>
    let (s, outcome) := s.commit planned g capacity
    return (s, .ok outcome)

/-- Takes over fresh copies of all states of a store; tells how many there were. -/
def refresh (backend : Backend m) (s : Store) : m (Store × Except ExploreError Nat) := do
  let (opened, closed) := s.openAndClosed
  if opened.isEmpty && closed.isEmpty then return (s, .ok 0)
  match ← backend.reset opened closed with
  | .error e => return (s, .error e)
  | .ok g => return (s.refresh g.nodes, .ok (s.refreshCount g.nodes))

end Backend

/-! ## Reports -/

/-- What an inspector shows of a neighbourhood that is held back. -/
def Pending.toJson (p : Pending) : Json :=
  .record [("frontier", NodeId.listToJson p.frontier),
    ("payload_nodes", NodeId.listToJson (p.fetched.nodes.map Node.id)),
    ("payload_edges", .count p.fetched.edges.length), ("visible", .count p.visible),
    ("incoming", .count p.incoming), ("ceiling", .count p.ceiling)]

def Outcome.toJson : Outcome → Json
  | .merged delta => .record [("merged", delta.toJson)]
  | .capacityExceeded p => .record [("capacity", p.toJson)]

instance : ToJson Outcome := ⟨Outcome.toJson⟩

end StateAtlas
