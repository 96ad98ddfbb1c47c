import StateAtlas.Document.Basic
import StateAtlas.Sync.Marks
/-!
The strategy that marks describe: the marked states of all panes, the actions that lead from a
marked state to a marked state within one pane, and the edges between those.
-/

namespace StateAtlas.MarkSet

/-- Whether a node of a store belongs to the strategy. -/
def keeps (m : MarkSet) (s : Store) (n : Node) : Bool :=
  let marked (n : Node) : Bool := m.contains n.id
  match n.kind with
  | .state => marked n
  | .action =>
    (s.predecessors n.id .state).any marked && (s.successors n.id .state).any marked

/-- The part of a store that belongs to the strategy. -/
def strategyOf (m : MarkSet) (s : Store) : Fragment :=
  let nodes := s.nodes.filter (m.keeps s)
  ⟨nodes, PaneDocument.edgesBetween nodes s.edges⟩

/-- The strategy over several stores. -/
def strategy (m : MarkSet) (stores : List Store) : Fragment :=
  (stores.foldl (fun out s => out.add (m.strategyOf s)) Store.empty).fragment

end StateAtlas.MarkSet
