import StateAtlas.Graph.Store
/-!
From states to states by way of one action, forward, backward and along the best weights.
-/

namespace StateAtlas

namespace Store

/-- The states that sources lead to by one action, each once, in first-reached order. -/
def nextStates (s : Store) (sources : List NodeId) : List NodeId :=
  (sources.flatMap fun source =>
    (s.successors source .action).flatMap fun action =>
      (s.successors action.id .state).map Node.id).eraseDups

/-- The states that lead to targets by one action, each once, in first-reached order. -/
def previousStates (s : Store) (targets : List NodeId) : List NodeId :=
  (targets.flatMap fun target =>
    (s.predecessors target .action).flatMap fun action =>
      (s.predecessors action.id .state).map Node.id).eraseDups

/-- Whether a run ends in a node. -/
def isTerminal (s : Store) (id : NodeId) : Bool :=
  ((s.node? id).map fun n => n.satisfies Proposition.finished).getD false

end Store

/-- The weight of a node under a policy, zero where it has none. -/
def Node.weight (n : Node) (policy : String) : Float := (n.weight? policy).getD 0

/-- Of two nodes the one to prefer: the first, unless the second is heavier. -/
def heavier (policy : String) (best n : Node) : Node :=
  if n.weight policy ≤ best.weight policy then best else n

/-- The first heaviest node of a list. -/
def heaviest? (policy : String) : List Node → Option Node
  | [] => none
  | n :: rest => some (rest.foldl (heavier policy) n)

namespace Store

/-- The state that a source leads to by its heaviest action and that action's heaviest state. -/
def bestNext? (s : Store) (source : NodeId) (policy : String) : Option NodeId := do
  let action ← heaviest? policy (s.successors source .action)
  let state ← heaviest? policy (s.successors action.id .state)
  some state.id

end Store

end StateAtlas
