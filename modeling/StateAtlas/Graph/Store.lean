import StateAtlas.Graph.Mode
import StateAtlas.Graph.Tables
/-!
The part of the system that a pane has materialized.

A store is a set of tables that are in step.  It lists its nodes and edges in the order in which
they came and only ever grows: adding a fragment appends the nodes whose name is new, then the edges
whose name is new and whose two ends are held.  An addition reports what it brings as it goes, and as
that stands behind the old lists afterwards, `Delta.between` can read it off there.

The lemmas say what each operation does to `nodes` and `edges` and how every other way of looking at
a store follows from these two; nothing else needs to look at the tables.

A node is *collapsed* while its neighbourhood has neither been merged nor shows in an outgoing
edge.
-/

namespace StateAtlas

/-- Names of nodes and edges newly held, in the order in which they came. -/
structure Delta where
  nodes : List NodeId := []
  edges : List EdgeId := []
deriving DecidableEq, Repr, Inhabited

namespace Delta

/-- Whether nothing is new. -/
def isEmpty (d : Delta) : Bool := d.nodes.isEmpty && d.edges.isEmpty

/-- The number of new nodes and edges. -/
def size (d : Delta) : Nat := d.nodes.length + d.edges.length

/-- What one addition and then another brought. -/
def append (d e : Delta) : Delta := ⟨d.nodes ++ e.nodes, d.edges ++ e.edges⟩

instance : Append Delta := ⟨append⟩

def toJson (d : Delta) : Json :=
  .record [("nodes", NodeId.listToJson d.nodes), ("edges", .list (d.edges.map EdgeId.toJson))]

instance : ToJson Delta := ⟨Delta.toJson⟩

end Delta

/-- Nodes and edges without repetition, and which nodes have had their neighbourhood merged. -/
@[ext] structure Store where
  tables : StoreTables := {}
  consistent : tables.Consistent := by exact StoreTables.consistent_empty

namespace Store

/-- The store that holds nothing. -/
def empty : Store := {}

instance : Inhabited Store := ⟨empty⟩

/-! ## What is held -/

/-- The nodes, in the order in which they came. -/
def nodes (s : Store) : List Node := s.tables.nodes

/-- The edges, in the order in which they came. -/
def edges (s : Store) : List Edge := s.tables.edges

/-- The node of a name. -/
def node? (s : Store) (id : NodeId) : Option Node := s.tables.nodeTable.get? id

/-- The edge of a name. -/
def edge? (s : Store) (id : EdgeId) : Option Edge := s.tables.edgeTable.get? id

/-- Whether a node of that name is held. -/
def hasNode (s : Store) (id : NodeId) : Bool := s.tables.nodeTable.contains id

/-- Whether an edge of that name is held. -/
def hasEdge (s : Store) (id : EdgeId) : Bool := s.tables.edgeTable.contains id

/-- Whether a node or an edge of that name is held. -/
def has (s : Store) (name : String) : Bool := s.hasNode ⟨name⟩ || s.hasEdge ⟨name⟩

/-- The node of a name, or else the edge of that name. -/
def element? (s : Store) (name : String) : Option (Node ⊕ Edge) :=
  match s.node? ⟨name⟩ with
  | some n => some (.inl n)
  | none => (s.edge? ⟨name⟩).map .inr

/-- The names of the nodes. -/
def nodeIds (s : Store) : List NodeId := s.nodes.map Node.id

/-- The names of the edges. -/
def edgeIds (s : Store) : List EdgeId := s.edges.map Edge.id

/-- Whether the store holds no node. -/
def isEmpty (s : Store) : Bool := s.nodes.isEmpty

/-- The number of nodes on display in a mode. -/
def count (s : Store) (mode : DisplayMode) : Nat := s.nodes.countP fun n => mode.admits n.kind

theorem nodeIds_eq_nodeOrder (s : Store) : s.nodeIds = s.tables.nodeOrder :=
  s.consistent.map_id_nodes

theorem edgeIds_eq_edgeOrder (s : Store) : s.edgeIds = s.tables.edgeOrder :=
  s.consistent.map_id_edges

theorem hasNode_iff {s : Store} {id : NodeId} : s.hasNode id = true ↔ id ∈ s.nodeIds := by
  rw [nodeIds_eq_nodeOrder]
  exact (s.consistent.mem_nodeOrder id).symm

theorem hasEdge_iff {s : Store} {id : EdgeId} : s.hasEdge id = true ↔ id ∈ s.edgeIds := by
  rw [edgeIds_eq_edgeOrder]
  exact (s.consistent.mem_edgeOrder id).symm

theorem node?_eq_find? (s : Store) (id : NodeId) :
    s.node? id = s.nodes.find? fun n => n.id = id :=
  (s.consistent.find?_nodes id).symm

theorem edge?_eq_find? (s : Store) (id : EdgeId) :
    s.edge? id = s.edges.find? fun e => e.id = id :=
  (s.consistent.find?_edges id).symm

theorem nodup_nodeIds (s : Store) : s.nodeIds.Nodup :=
  s.nodeIds_eq_nodeOrder ▸ s.consistent.nodup_nodeOrder

theorem nodup_edgeIds (s : Store) : s.edgeIds.Nodup :=
  s.edgeIds_eq_edgeOrder ▸ s.consistent.nodup_edgeOrder

/-- An edge carries the name that follows from its ends and label. -/
theorem id_eq_key_of_mem_edges {s : Store} {e : Edge} (h : e ∈ s.edges) : e.id = e.key := by
  obtain ⟨k, -, hk⟩ := List.mem_filterMap.1 h
  rw [(s.consistent.key_edge hk).1, (s.consistent.key_edge hk).2]

/-- Both ends of an edge are held. -/
theorem hasNode_ends_of_mem_edges {s : Store} {e : Edge} (h : e ∈ s.edges) :
    s.hasNode e.source = true ∧ s.hasNode e.target = true := by
  obtain ⟨k, -, hk⟩ := List.mem_filterMap.1 h
  exact Bool.and_eq_true_iff.1 (s.consistent.holdsEnds_edge hk)

/-! ## Growth -/

/-- The store with a node, unless one of that name is held. -/
def insertNode (s : Store) (n : Node) : Store := ⟨s.tables.insertNode n, s.consistent.insertNode n⟩

/-- The store with an edge under its derived name, unless one of that name is held or one of the
edge's ends is not. -/
def insertEdge (s : Store) (e : Edge) : Store := ⟨s.tables.insertEdge e, s.consistent.insertEdge e⟩

/-- The union of the store and a fragment: first its nodes, then its edges. -/
def add (s : Store) (g : Fragment) : Store := ⟨s.tables.add g, s.consistent.add g⟩

/-- The store's nodes and edges. -/
def fragment (s : Store) : Fragment := ⟨s.nodes, s.edges⟩

/-- The union of two stores' nodes and edges. -/
def absorb (s other : Store) : Store :=
  ⟨s.tables.absorb other.tables, s.consistent.absorb other.tables⟩

/-- The store of a fragment. -/
def ofFragment (g : Fragment) : Store := empty.add g

theorem absorb_eq_add (s other : Store) : s.absorb other = s.add other.fragment := rfl

/-- An addition puts in the nodes one after the other and then the edges. -/
theorem add_eq_foldl (s : Store) (g : Fragment) :
    s.add g = g.edges.foldl insertEdge (g.nodes.foldl insertNode s) := by
  have hnodes : ∀ (ns : List Node) (s : Store),
      (ns.foldl insertNode s).tables = ns.foldl StoreTables.insertNode s.tables := by
    intro ns
    induction ns with
    | nil => exact fun _ => rfl
    | cons n ns ih => exact fun s => ih (s.insertNode n)
  have hedges : ∀ (es : List Edge) (s : Store),
      (es.foldl insertEdge s).tables = es.foldl StoreTables.insertEdge s.tables := by
    intro es
    induction es with
    | nil => exact fun _ => rfl
    | cons e es ih => exact fun s => ih (s.insertEdge e)
  ext1
  rw [hedges, hnodes]
  rfl

/-- A node is passed over if its name is held. -/
theorem insertNode_of_held {s : Store} {n : Node} (h : s.hasNode n.id = true) :
    s.insertNode n = s := by
  ext1
  exact if_pos h

/-- An edge is passed over if its name is held or one of its ends is not. -/
theorem insertEdge_of_skipped {s : Store} {e : Edge}
    (h : (s.hasEdge e.key || !(s.hasNode e.source && s.hasNode e.target)) = true) :
    s.insertEdge e = s := by
  ext1
  exact if_pos h

theorem nodes_insertNode (s : Store) (n : Node) :
    (s.insertNode n).nodes = if s.hasNode n.id then s.nodes else s.nodes ++ [n] := by
  unfold insertNode StoreTables.insertNode nodes hasNode
  split
  · rfl
  next hnew => exact s.consistent.nodes_appendNode hnew

@[simp] theorem edges_insertNode (s : Store) (n : Node) : (s.insertNode n).edges = s.edges := by
  unfold insertNode StoreTables.insertNode edges
  split <;> rfl

@[simp] theorem nodes_insertEdge (s : Store) (e : Edge) : (s.insertEdge e).nodes = s.nodes := by
  unfold insertEdge StoreTables.insertEdge nodes
  split <;> rfl

theorem edges_insertEdge (s : Store) (e : Edge) :
    (s.insertEdge e).edges =
      if s.hasEdge e.key || !(s.hasNode e.source && s.hasNode e.target) then s.edges
      else s.edges ++ [e.normalized] := by
  unfold insertEdge StoreTables.insertEdge edges hasEdge hasNode StoreTables.holdsEnds
  split
  · rfl
  next hcond =>
    simp only [Bool.or_eq_true, not_or] at hcond
    exact s.consistent.edges_appendEdge hcond.1

theorem nodes_isPrefix_insertNode (s : Store) (n : Node) : s.nodes <+: (s.insertNode n).nodes := by
  rw [nodes_insertNode]
  split
  · exact List.prefix_rfl
  · exact List.prefix_append _ _

theorem edges_isPrefix_insertEdge (s : Store) (e : Edge) : s.edges <+: (s.insertEdge e).edges := by
  rw [edges_insertEdge]
  split
  · exact List.prefix_rfl
  · exact List.prefix_append _ _

@[simp] theorem edges_foldl_insertNode (ns : List Node) (s : Store) :
    (ns.foldl insertNode s).edges = s.edges := by
  induction ns generalizing s with
  | nil => rfl
  | cons n ns ih => simp [ih]

@[simp] theorem nodes_foldl_insertEdge (es : List Edge) (s : Store) :
    (es.foldl insertEdge s).nodes = s.nodes := by
  induction es generalizing s with
  | nil => rfl
  | cons e es ih => simp [ih]

/-- An addition leaves the nodes held where they are. -/
theorem nodes_isPrefix_add (s : Store) (g : Fragment) : s.nodes <+: (s.add g).nodes := by
  simp only [add_eq_foldl, nodes_foldl_insertEdge]
  induction g.nodes generalizing s with
  | nil => exact List.prefix_rfl
  | cons n ns ih => exact (nodes_isPrefix_insertNode s n).trans (ih _)

/-- An addition leaves the edges held where they are. -/
theorem edges_isPrefix_add (s : Store) (g : Fragment) : s.edges <+: (s.add g).edges := by
  suffices ∀ (es : List Edge) (t : Store), t.edges <+: (es.foldl insertEdge t).edges by
    simpa [add_eq_foldl] using this g.edges (g.nodes.foldl insertNode s)
  intro es
  induction es with
  | nil => exact fun _ => List.prefix_rfl
  | cons e es ih => exact fun t => (edges_isPrefix_insertEdge t e).trans (ih _)

/-- Records that the neighbourhoods of nodes have been merged; names not held are passed over. -/
def markExpanded (s : Store) (ids : List NodeId) : Store :=
  ⟨s.tables.markExpanded ids, s.consistent.markExpanded ids⟩

/-- The store with fresher copies of nodes taken over; copies of nodes not held are passed over. -/
def refresh (s : Store) (fresh : List Node) : Store :=
  ⟨s.tables.refresh fresh, s.consistent.refresh fresh⟩

/-- How many of the fresher copies are of nodes held. -/
def refreshCount (s : Store) (fresh : List Node) : Nat := fresh.countP fun f => s.hasNode f.id

@[simp] theorem nodes_markExpanded (s : Store) (ids : List NodeId) :
    (s.markExpanded ids).nodes = s.nodes := rfl

@[simp] theorem edges_markExpanded (s : Store) (ids : List NodeId) :
    (s.markExpanded ids).edges = s.edges := rfl

/-! ## Neighbours -/

/-- The edges that leave a node. -/
def outgoing (s : Store) (id : NodeId) : List Edge := s.tables.outgoing id

/-- The edges that enter a node. -/
def incoming (s : Store) (id : NodeId) : List Edge := s.tables.incoming id

theorem outgoing_eq_filter (s : Store) (id : NodeId) :
    s.outgoing id = s.edges.filter fun e => e.source = id :=
  s.consistent.lists_leaving.listed_eq id

theorem incoming_eq_filter (s : Store) (id : NodeId) :
    s.incoming id = s.edges.filter fun e => e.target = id :=
  s.consistent.lists_entering.listed_eq id

/-- The nodes of a kind among names, each once, in the order of the names. -/
def pick (s : Store) (kind : NodeKind) (ids : List NodeId) : List Node :=
  (ids.eraseDups.filterMap s.node?).filter fun n => n.kind = kind

/-- The targets of a node's outgoing edges that have a kind, in first-seen order. -/
def successors (s : Store) (id : NodeId) (kind : NodeKind) : List Node :=
  s.pick kind ((s.outgoing id).map Edge.target)

/-- The sources of a node's incoming edges that have a kind, in first-seen order. -/
def predecessors (s : Store) (id : NodeId) (kind : NodeKind) : List Node :=
  s.pick kind ((s.incoming id).map Edge.source)

/-- Whether a node's neighbourhood has neither been merged nor shows in an outgoing edge. -/
def isCollapsed (s : Store) (id : NodeId) : Bool :=
  !s.tables.expanded.contains id && ((s.tables.leaving.get? id).getD []).isEmpty

/-- The names of the states, those with a known neighbourhood apart from the collapsed ones. -/
def openAndClosed (s : Store) : List NodeId × List NodeId :=
  ((s.nodes.filter Node.isState).map Node.id).partition fun id => !s.isCollapsed id

end Store

/-- What `after` holds beyond `before`, provided that it grew out of it. -/
def Delta.between (before after : Store) : Delta :=
  { nodes := after.nodeIds.drop before.nodes.length
    edges := after.edgeIds.drop before.edges.length }

/-- The nodes held after an addition are those from before and those that it brought. -/
theorem Store.nodeIds_add (s : Store) (g : Fragment) :
    (s.add g).nodeIds = s.nodeIds ++ (Delta.between s (s.add g)).nodes := by
  obtain ⟨rest, h⟩ := s.nodes_isPrefix_add g
  simp [Delta.between, Store.nodeIds, ← h]

/-- The edges held after an addition are those from before and those that it brought. -/
theorem Store.edgeIds_add (s : Store) (g : Fragment) :
    (s.add g).edgeIds = s.edgeIds ++ (Delta.between s (s.add g)).edges := by
  obtain ⟨rest, h⟩ := s.edges_isPrefix_add g
  simp [Delta.between, Store.edgeIds, ← h]

/-! ## Reports -/

namespace Store

/-- Puts in a node and reports its name, unless one of that name is held. -/
def reportNode (r : Store × Delta) (n : Node) : Store × Delta :=
  if r.1.hasNode n.id then r
  else (r.1.insertNode n, { r.2 with nodes := r.2.nodes ++ [n.id] })

/-- Puts in an edge and reports its derived name, unless one of that name is held or one of the
edge's ends is not. -/
def reportEdge (r : Store × Delta) (e : Edge) : Store × Delta :=
  if r.1.hasEdge e.key || !(r.1.hasNode e.source && r.1.hasNode e.target) then r
  else (r.1.insertEdge e, { r.2 with edges := r.2.edges ++ [e.key] })

/-- The union of the store and a fragment, and the names that were new, collected on the way. -/
def addReporting (s : Store) (g : Fragment) : Store × Delta :=
  g.edges.foldl reportEdge (g.nodes.foldl reportNode (s, {}))

theorem reportNode_eq (s : Store) (d : Delta) (n : Node) :
    ∃ ids, reportNode (s, d) n = (s.insertNode n, { d with nodes := d.nodes ++ ids }) ∧
      (s.insertNode n).nodeIds = s.nodeIds ++ ids := by
  unfold reportNode
  split
  next hheld =>
    have hsame : s.insertNode n = s := insertNode_of_held hheld
    exact ⟨[], by simp [hsame], by simp [hsame]⟩
  next hnew => exact ⟨[n.id], rfl, by simp [nodeIds, nodes_insertNode, hnew]⟩

theorem reportEdge_eq (s : Store) (d : Delta) (e : Edge) :
    ∃ ids, reportEdge (s, d) e = (s.insertEdge e, { d with edges := d.edges ++ ids }) ∧
      (s.insertEdge e).edgeIds = s.edgeIds ++ ids := by
  unfold reportEdge
  split
  next hskipped =>
    have hsame : s.insertEdge e = s := insertEdge_of_skipped hskipped
    exact ⟨[], by simp [hsame], by simp [hsame]⟩
  next hnew =>
    refine ⟨[e.key], rfl, ?_⟩
    rw [edgeIds, edges_insertEdge, if_neg hnew, List.map_append]
    rfl

/-- If each insertion reports the names that come to stand behind the old ones, then so do any number
of them. -/
theorem foldl_report {α ι : Type} {insert : Store → α → Store}
    {report : Store × Delta → α → Store × Delta} {names : Store → List ι}
    {put : Delta → List ι → Delta} (hnil : ∀ d, put d [] = d)
    (happend : ∀ d ids more, put (put d ids) more = put d (ids ++ more))
    (hreport : ∀ s d a, ∃ ids, report (s, d) a = (insert s a, put d ids) ∧
      names (insert s a) = names s ++ ids) (as : List α) (s : Store) (d : Delta) :
    ∃ ids, as.foldl report (s, d) = (as.foldl insert s, put d ids) ∧
      names (as.foldl insert s) = names s ++ ids := by
  induction as generalizing s d with
  | nil => exact ⟨[], by simp [hnil], by simp⟩
  | cons a as ih =>
    obtain ⟨ids, hfirst, hids⟩ := hreport s d a
    obtain ⟨more, hrest, hmore⟩ := ih (insert s a) (put d ids)
    refine ⟨ids ++ more, ?_, by rw [List.foldl_cons, hmore, hids, List.append_assoc]⟩
    rw [List.foldl_cons, hfirst, hrest, List.foldl_cons, happend]

/-- **What an addition reports is what stands behind the old lists.** -/
theorem addReporting_eq (s : Store) (g : Fragment) :
    s.addReporting g = (s.add g, .between s (s.add g)) := by
  obtain ⟨ids, hnodes, hids⟩ := foldl_report (by simp) (by simp) reportNode_eq g.nodes s {}
  obtain ⟨keys, hedges, hkeys⟩ := foldl_report (by simp) (by simp) reportEdge_eq g.edges
    (g.nodes.foldl insertNode s) { nodes := ids }
  have hreport : s.addReporting g = (s.add g, ⟨ids, keys⟩) := by
    rw [addReporting, hnodes, add_eq_foldl]
    exact hedges
  have hnodeIds : (s.add g).nodeIds = s.nodeIds ++ ids := by
    rw [← hids, nodeIds, nodeIds, add_eq_foldl, nodes_foldl_insertEdge]
  have hedgeIds : (s.add g).edgeIds = s.edgeIds ++ keys := by
    rw [add_eq_foldl, hkeys, edgeIds, edges_foldl_insertNode, edgeIds]
  rw [nodeIds_add] at hnodeIds
  rw [edgeIds_add] at hedgeIds
  obtain rfl := List.append_cancel_left hnodeIds
  obtain rfl := List.append_cancel_left hedgeIds
  exact hreport

end Store

end StateAtlas
