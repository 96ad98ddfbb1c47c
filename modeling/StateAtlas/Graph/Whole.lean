import StateAtlas.Graph.Exploration
/-!
A backend in memory, which knows a whole system.

The neighbourhood of a state reaches to the actions that leave it and on to the states that those
lead to; the neighbourhood of an action reaches to the states that it leads to.  A fragment that
answers a request holds every node once, in the order of first mention, while an edge is there as
often as it was met.
-/

namespace StateAtlas

/-- A whole system, and what is said about it. -/
structure WholeGraph where
  graph : Fragment := {}
  /-- The nodes that a session starts from, if these are not the first state alone. -/
  sources : Option (List NodeId) := none
  project : Project := {}
  /-- Fresh copies of nodes. -/
  refreshed : List Node := []

namespace WholeGraph

/-- The node of an identifier. -/
def node? (w : WholeGraph) (id : NodeId) : Option Node := w.graph.nodes.find? fun n => n.id = id

/-- The edges that leave a node. -/
def leaving (w : WholeGraph) (id : NodeId) : List Edge :=
  w.graph.edges.filter fun e => e.source = id

/-- An edge with its target, if that is known. -/
def step (w : WholeGraph) (e : Edge) : Fragment := ⟨(w.node? e.target).toList, [e]⟩

/-- An edge with its target and, if that is an action, with the steps that follow. -/
def reach (w : WholeGraph) (e : Edge) : List Fragment :=
  w.step e :: match w.node? e.target with
    | some n => if n.isState then [] else (w.leaving n.id).map w.step
    | none => []

/-- A node with everything that it reaches. -/
def around (w : WholeGraph) (id : NodeId) : List Fragment :=
  match w.node? id with
  | none => []
  | some n => ⟨[n], []⟩ :: (w.leaving n.id).flatMap w.reach

/-- The nodes of a list without those whose identifier came before. -/
def distinct (nodes : List Node) : List Node :=
  nodes.foldl (fun seen n => if seen.any fun m => m.id = n.id then seen else seen ++ [n]) []

/-- What a session starts from. -/
def initial (w : WholeGraph) : Fragment :=
  ⟨(w.sources.getD (w.graph.stateIds.take 1)).filterMap w.node?, []⟩

/-- The neighbourhoods of nodes. -/
def outgoing (w : WholeGraph) (ids : List NodeId) : Fragment :=
  let parts := ids.flatMap w.around
  ⟨distinct (parts.flatMap Fragment.nodes), parts.flatMap Fragment.edges⟩

/-- Fresh copies of nodes, or else the nodes as they are. -/
def reset (w : WholeGraph) (ids : List NodeId) : Fragment :=
  ⟨ids.filterMap fun id => (w.refreshed.find? fun n => n.id = id) <|> w.node? id, []⟩

/-- The backend that answers from the whole system at once. -/
def backend (w : WholeGraph) : Backend Id where
  initial := .ok w.initial
  status := .ok w.project
  outgoing ids := .ok (w.outgoing ids)
  reset opened closed := .ok (w.reset (opened ++ closed))

def ofJson? (j : Json) : Option WholeGraph := do
  let f ← j.fields? ["graph", "initial", "info", "refreshed"]
  let graph ← Json.maybe Fragment.ofJson? (f "graph")
  let sources ← Json.maybe (Json.list? NodeId.ofJson?) (f "initial")
  let project ← Json.maybe Project.ofJson? (f "info")
  let refreshed ← Json.maybe (Json.list? Node.ofJson?) (f "refreshed")
  some { graph := graph.getD {}, sources, project := project.getD {}
         refreshed := refreshed.getD [] }

end WholeGraph

end StateAtlas
