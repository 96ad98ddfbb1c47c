import StateAtlas.Model.Fragment
/-!
The tables that a store keeps.

Nodes and edges are kept under their names, and beside that in the order in which they came; for
each node the names of the edges that leave it and of those that enter it are kept as well, and which
nodes have had their neighbourhood merged.  All of this could be read off the nodes and edges in
their order, so the tables have to be kept in step.  `StoreTables.Consistent` says what that means,
and each way in which tables change keeps it.
-/

namespace StateAtlas

/-- What a store keeps of its nodes and edges. -/
structure StoreTables where
  nodeTable : Dictionary NodeId Node := {}
  /-- The names of the nodes, in the order in which they came. -/
  nodeOrder : List NodeId := []
  edgeTable : Dictionary EdgeId Edge := {}
  /-- The names of the edges, in the order in which they came. -/
  edgeOrder : List EdgeId := []
  /-- For each node, the edges that leave it. -/
  leaving : Dictionary NodeId (List EdgeId) := {}
  /-- For each node, the edges that enter it. -/
  entering : Dictionary NodeId (List EdgeId) := {}
  /-- The nodes whose neighbourhood has been merged, with successors or without. -/
  expanded : OrderedSet NodeId := {}

/-- The node with the attributes and the weights of a fresher copy, where that has any. -/
def Node.refreshed (n fresh : Node) : Node :=
  { n with
    attributes := if fresh.attributes.isEmpty then n.attributes else fresh.attributes
    weights := if fresh.weights.isEmpty then n.weights else fresh.weights }

namespace StoreTables

/-! ## Reading -/

/-- The nodes, in the order in which they came. -/
def nodes (t : StoreTables) : List Node := t.nodeOrder.filterMap t.nodeTable.get?

/-- The edges, in the order in which they came. -/
def edges (t : StoreTables) : List Edge := t.edgeOrder.filterMap t.edgeTable.get?

/-- The edges that a table of neighbours lists under a node. -/
def listed (t : StoreTables) (neighbours : Dictionary NodeId (List EdgeId)) (id : NodeId) :
    List Edge :=
  ((neighbours.get? id).getD []).filterMap t.edgeTable.get?

/-- The edges that leave a node. -/
def outgoing (t : StoreTables) (id : NodeId) : List Edge := t.listed t.leaving id

/-- The edges that enter a node. -/
def incoming (t : StoreTables) (id : NodeId) : List Edge := t.listed t.entering id

/-- Whether both ends of an edge are held. -/
def holdsEnds (t : StoreTables) (e : Edge) : Bool :=
  t.nodeTable.contains e.source && t.nodeTable.contains e.target

/-! ## Writing -/

/-- The tables with one more node. -/
def appendNode (t : StoreTables) (n : Node) : StoreTables :=
  { t with
    nodeTable := t.nodeTable.insert n.id n
    nodeOrder := t.nodeOrder ++ [n.id] }

/-- The tables with a node, unless one of that name is held. -/
def insertNode (t : StoreTables) (n : Node) : StoreTables :=
  if t.nodeTable.contains n.id then t else t.appendNode n

/-- The tables with one more edge, under its derived name. -/
def appendEdge (t : StoreTables) (e : Edge) : StoreTables :=
  { t with
    edgeTable := t.edgeTable.insert e.key e.normalized
    edgeOrder := t.edgeOrder ++ [e.key]
    leaving := t.leaving.update e.source [] fun ids => ids ++ [e.key]
    entering := t.entering.update e.target [] fun ids => ids ++ [e.key] }

/-- The tables with an edge under its derived name, unless one of that name is held or one of the
edge's ends is not. -/
def insertEdge (t : StoreTables) (e : Edge) : StoreTables :=
  if t.edgeTable.contains e.key || !t.holdsEnds e then t else t.appendEdge e

/-- First the nodes of a fragment are put in, then its edges. -/
def add (t : StoreTables) (g : Fragment) : StoreTables :=
  g.edges.foldl insertEdge (g.nodes.foldl insertNode t)

/-- Takes over the nodes and edges of other tables. -/
def absorb (t other : StoreTables) : StoreTables := t.add ⟨other.nodes, other.edges⟩

/-- Records that the neighbourhoods of nodes have been merged; names not held are passed over. -/
def markExpanded (t : StoreTables) (ids : List NodeId) : StoreTables :=
  { t with expanded := t.expanded.insertMany (ids.filter t.nodeTable.contains) }

/-- Takes over a fresher copy of a node, if one of that name is held. -/
def refreshNode (t : StoreTables) (fresh : Node) : StoreTables :=
  match t.nodeTable.get? fresh.id with
  | none => t
  | some n => { t with nodeTable := t.nodeTable.insert fresh.id (n.refreshed fresh) }

/-- Takes over fresher copies of nodes. -/
def refresh (t : StoreTables) (fresh : List Node) : StoreTables := fresh.foldl refreshNode t

/-! ## Tables in step -/

/-- A table of neighbours lists under each node the edges that have it at one end, in the order in
which they came. -/
def Lists (t : StoreTables) (neighbours : Dictionary NodeId (List EdgeId))
    (anchor : Edge → NodeId) : Prop :=
  ∀ id, (neighbours.get? id).getD [] =
    t.edgeOrder.filter fun k => (t.edgeTable.get? k).any fun e => anchor e = id

/-- The tables are in step. -/
structure Consistent (t : StoreTables) : Prop where
  nodup_nodeOrder : t.nodeOrder.Nodup
  mem_nodeOrder : ∀ id, id ∈ t.nodeOrder ↔ t.nodeTable.contains id = true
  /-- A node is kept under its own name. -/
  id_node : ∀ {id n}, t.nodeTable.get? id = some n → n.id = id
  nodup_edgeOrder : t.edgeOrder.Nodup
  mem_edgeOrder : ∀ k, k ∈ t.edgeOrder ↔ t.edgeTable.contains k = true
  /-- An edge carries the name that follows from its ends and label, and is kept under it. -/
  key_edge : ∀ {k e}, t.edgeTable.get? k = some e → e.key = k ∧ e.id = k
  holdsEnds_edge : ∀ {k e}, t.edgeTable.get? k = some e → t.holdsEnds e = true
  lists_leaving : t.Lists t.leaving Edge.source
  lists_entering : t.Lists t.entering Edge.target
  expanded_held : ∀ {id}, t.expanded.contains id = true → t.nodeTable.contains id = true

variable {t : StoreTables}

theorem consistent_empty : ({} : StoreTables).Consistent where
  nodup_nodeOrder := List.nodup_nil
  mem_nodeOrder _ := by simp [Dictionary.contains]
  id_node h := by simp at h
  nodup_edgeOrder := List.nodup_nil
  mem_edgeOrder _ := by simp [Dictionary.contains]
  key_edge h := by simp at h
  holdsEnds_edge h := by simp at h
  lists_leaving _ := rfl
  lists_entering _ := rfl
  expanded_held h := by simp at h

/-! ### Nodes -/

/-- What holds of the nodes of consistent tables after one more node is put in. -/
theorem Consistent.appendNode (h : t.Consistent) {n : Node}
    (hnew : ¬t.nodeTable.contains n.id = true) : (t.appendNode n).Consistent := by
  have hgrow : ∀ id, t.nodeTable.contains id = true →
      (t.nodeTable.insert n.id n).contains id = true :=
    fun id hid => (Dictionary.contains_insert ..).2 (.inr hid)
  constructor
  case nodup_nodeOrder =>
    have hnot : n.id ∉ t.nodeOrder := fun hmem => hnew ((h.mem_nodeOrder _).1 hmem)
    exact List.nodup_append.2 ⟨h.nodup_nodeOrder, by simp, by
      intro a ha b hb
      obtain rfl := List.mem_singleton.1 hb
      exact fun hab => hnot (hab ▸ ha)⟩
  case mem_nodeOrder =>
    intro id
    simp only [StoreTables.appendNode, List.mem_append, List.mem_singleton, h.mem_nodeOrder,
      Dictionary.contains_insert]
    exact or_comm.trans (or_congr_left eq_comm)
  case id_node =>
    intro id m hm
    simp only [StoreTables.appendNode, Dictionary.get?_insert] at hm
    split at hm
    next hid => exact Option.some.inj hm ▸ hid
    next => exact h.id_node hm
  case holdsEnds_edge =>
    intro k e he
    have hends := h.holdsEnds_edge he
    simp only [holdsEnds, Bool.and_eq_true] at hends ⊢
    exact ⟨hgrow _ hends.1, hgrow _ hends.2⟩
  case expanded_held => exact fun hid => hgrow _ (h.expanded_held hid)
  case nodup_edgeOrder => exact h.nodup_edgeOrder
  case mem_edgeOrder => exact h.mem_edgeOrder
  case key_edge => exact h.key_edge
  case lists_leaving => exact h.lists_leaving
  case lists_entering => exact h.lists_entering

theorem Consistent.insertNode (h : t.Consistent) (n : Node) : (t.insertNode n).Consistent := by
  unfold StoreTables.insertNode
  split
  · exact h
  next hnew => exact h.appendNode hnew

/-! ### Edges -/

@[simp] theorem get?_appendEdge_self (e : Edge) :
    (t.appendEdge e).edgeTable.get? e.key = some e.normalized :=
  Dictionary.get?_insert_self ..

theorem get?_appendEdge {e : Edge} {k : EdgeId} (hk : k ≠ e.key) :
    (t.appendEdge e).edgeTable.get? k = t.edgeTable.get? k := by
  simp only [StoreTables.appendEdge, Dictionary.get?_insert, if_neg (Ne.symm hk)]

/-- A table of neighbours keeps listing the edges at one of their ends if the new edge is put behind
those listed under its own end. -/
theorem Lists.appendEdge {neighbours : Dictionary NodeId (List EdgeId)} {anchor : Edge → NodeId}
    (h : t.Lists neighbours anchor) {e : Edge} (hnew : e.key ∉ t.edgeOrder)
    (hanchor : anchor e.normalized = anchor e) :
    (t.appendEdge e).Lists (neighbours.update (anchor e) [] fun ids => ids ++ [e.key]) anchor := by
  intro id
  have hold : t.edgeOrder.filter
        (fun k => ((t.appendEdge e).edgeTable.get? k).any fun e => anchor e = id) =
      (neighbours.get? id).getD [] := by
    rw [h id]
    refine List.filter_congr fun k hk => ?_
    rw [get?_appendEdge (ne_of_mem_of_not_mem hk hnew)]
  have hlast : ((t.appendEdge e).edgeTable.get? e.key).any (fun e => anchor e = id) =
      decide (anchor e = id) := by
    simp [hanchor]
  have hsplit : (t.appendEdge e).edgeOrder = t.edgeOrder ++ [e.key] := rfl
  rw [hsplit, List.filter_append, hold, List.filter_cons, hlast, List.filter_nil,
    Dictionary.get?_update]
  by_cases hid : anchor e = id
  · subst hid
    simp
  · simp [hid]

theorem Consistent.appendEdge (h : t.Consistent) {e : Edge}
    (hnew : ¬t.edgeTable.contains e.key = true) (hends : t.holdsEnds e = true) :
    (t.appendEdge e).Consistent := by
  have hnot : e.key ∉ t.edgeOrder := fun hmem => hnew ((h.mem_edgeOrder _).1 hmem)
  have hcases : ∀ {k e'}, (t.appendEdge e).edgeTable.get? k = some e' →
      k = e.key ∧ e' = e.normalized ∨ t.edgeTable.get? k = some e' := by
    intro k e' he'
    by_cases hk : k = e.key
    · subst hk
      rw [get?_appendEdge_self, Option.some.injEq] at he'
      exact .inl ⟨rfl, he'.symm⟩
    · exact .inr (get?_appendEdge hk ▸ he')
  constructor
  case nodup_nodeOrder => exact h.nodup_nodeOrder
  case mem_nodeOrder => exact h.mem_nodeOrder
  case id_node => exact h.id_node
  case nodup_edgeOrder =>
    exact List.nodup_append.2 ⟨h.nodup_edgeOrder, by simp, by
      intro a ha b hb
      obtain rfl := List.mem_singleton.1 hb
      exact fun hab => hnot (hab ▸ ha)⟩
  case mem_edgeOrder =>
    intro k
    simp only [StoreTables.appendEdge, List.mem_append, List.mem_singleton, h.mem_edgeOrder,
      Dictionary.contains_insert]
    exact or_comm.trans (or_congr_left eq_comm)
  case key_edge =>
    intro k e' he'
    rcases hcases he' with ⟨rfl, rfl⟩ | hold
    · exact ⟨rfl, rfl⟩
    · exact h.key_edge hold
  case holdsEnds_edge =>
    intro k e' he'
    rcases hcases he' with ⟨-, rfl⟩ | hold
    · exact hends
    · exact h.holdsEnds_edge hold
  case lists_leaving => exact h.lists_leaving.appendEdge hnot rfl
  case lists_entering => exact h.lists_entering.appendEdge hnot rfl
  case expanded_held => exact h.expanded_held

theorem Consistent.insertEdge (h : t.Consistent) (e : Edge) : (t.insertEdge e).Consistent := by
  unfold StoreTables.insertEdge
  split
  · exact h
  next hcond =>
    simp only [Bool.or_eq_true, Bool.not_eq_true', not_or, Bool.not_eq_false] at hcond
    exact h.appendEdge hcond.1 hcond.2

/-! ### Whole operations -/

theorem Consistent.foldl {α : Type} {f : StoreTables → α → StoreTables}
    (hf : ∀ {t : StoreTables}, t.Consistent → ∀ a, (f t a).Consistent) (h : t.Consistent)
    (as : List α) : (as.foldl f t).Consistent := by
  induction as generalizing t with
  | nil => exact h
  | cons a as ih => exact ih (hf h a)

theorem Consistent.add (h : t.Consistent) (g : Fragment) : (t.add g).Consistent :=
  (h.foldl Consistent.insertNode g.nodes).foldl Consistent.insertEdge g.edges

theorem Consistent.absorb (h : t.Consistent) (other : StoreTables) : (t.absorb other).Consistent :=
  h.add _

theorem Consistent.markExpanded (h : t.Consistent) (ids : List NodeId) :
    (t.markExpanded ids).Consistent where
  nodup_nodeOrder := h.nodup_nodeOrder
  mem_nodeOrder := h.mem_nodeOrder
  id_node := h.id_node
  nodup_edgeOrder := h.nodup_edgeOrder
  mem_edgeOrder := h.mem_edgeOrder
  key_edge := h.key_edge
  holdsEnds_edge := h.holdsEnds_edge
  lists_leaving := h.lists_leaving
  lists_entering := h.lists_entering
  expanded_held hid := by
    rcases (OrderedSet.contains_insertMany ..).1 hid with hmem | hold
    · exact (List.mem_filter.1 hmem).2
    · exact h.expanded_held hold

@[simp] theorem nodeOrder_refreshNode (fresh : Node) :
    (t.refreshNode fresh).nodeOrder = t.nodeOrder := by
  unfold refreshNode
  split <;> rfl

/-- A node that is replaced under its own name leaves all names where they are. -/
theorem Consistent.refreshNode (h : t.Consistent) (fresh : Node) :
    (t.refreshNode fresh).Consistent := by
  unfold StoreTables.refreshNode
  split
  · exact h
  next n hn =>
    have hid := h.id_node hn
    have hsame : ∀ id, (t.nodeTable.insert fresh.id (n.refreshed fresh)).contains id =
        t.nodeTable.contains id := by
      intro id
      rw [Bool.eq_iff_iff, Dictionary.contains_insert]
      refine or_iff_right_of_imp ?_
      rintro rfl
      simp [Dictionary.contains, hn]
    constructor
    case nodup_nodeOrder => exact h.nodup_nodeOrder
    case mem_nodeOrder => exact fun id => (h.mem_nodeOrder id).trans (by rw [hsame])
    case id_node =>
      intro id m hm
      simp only [Dictionary.get?_insert] at hm
      split at hm
      next heq => exact Option.some.inj hm ▸ hid.trans heq
      next => exact h.id_node hm
    case nodup_edgeOrder => exact h.nodup_edgeOrder
    case mem_edgeOrder => exact h.mem_edgeOrder
    case key_edge => exact h.key_edge
    case holdsEnds_edge =>
      intro k e he
      have hends := h.holdsEnds_edge he
      simp only [holdsEnds, hsame] at hends ⊢
      exact hends
    case lists_leaving => exact h.lists_leaving
    case lists_entering => exact h.lists_entering
    case expanded_held => exact fun hexp => (hsame _).trans (h.expanded_held hexp)

theorem Consistent.refresh (h : t.Consistent) (fresh : List Node) : (t.refresh fresh).Consistent :=
  h.foldl Consistent.refreshNode fresh

/-! ## Reading tables in step -/

theorem Consistent.map_id_nodes (h : t.Consistent) : t.nodes.map Node.id = t.nodeOrder :=
  Dictionary.map_filterMap_get? h.id_node fun _ hid => (h.mem_nodeOrder _).1 hid

theorem Consistent.map_id_edges (h : t.Consistent) : t.edges.map Edge.id = t.edgeOrder :=
  Dictionary.map_filterMap_get? (fun he => (h.key_edge he).2) fun _ hk => (h.mem_edgeOrder _).1 hk

theorem Consistent.find?_nodes (h : t.Consistent) (id : NodeId) :
    t.nodes.find? (fun n => n.id = id) = t.nodeTable.get? id :=
  Dictionary.find?_filterMap_get? h.id_node h.mem_nodeOrder id

theorem Consistent.find?_edges (h : t.Consistent) (k : EdgeId) :
    t.edges.find? (fun e => e.id = k) = t.edgeTable.get? k :=
  Dictionary.find?_filterMap_get? (fun he => (h.key_edge he).2) h.mem_edgeOrder k

/-- What a table of neighbours lists under a node are the edges that have it at one end. -/
theorem Lists.listed_eq {neighbours : Dictionary NodeId (List EdgeId)} {anchor : Edge → NodeId}
    (h : t.Lists neighbours anchor) (id : NodeId) :
    t.listed neighbours id = t.edges.filter fun e => anchor e = id := by
  rw [listed, h id, edges, List.filter_filterMap, List.filterMap_filter]
  refine congrArg (fun f => t.edgeOrder.filterMap f) (funext fun k => ?_)
  cases t.edgeTable.get? k with
  | none => rfl
  | some e => by_cases he : anchor e = id <;> simp [Option.filter, he]

theorem Consistent.nodes_appendNode (h : t.Consistent) {n : Node}
    (hnew : ¬t.nodeTable.contains n.id = true) : (t.appendNode n).nodes = t.nodes ++ [n] := by
  have hold : t.nodeOrder.filterMap (t.nodeTable.insert n.id n).get? = t.nodes.map id := by
    refine Dictionary.filterMap_eq_map_filterMap_get? fun k hk => ?_
    have hne : n.id ≠ k := fun heq => hnew (heq ▸ (h.mem_nodeOrder _).1 hk)
    rw [Dictionary.get?_insert, if_neg hne, Option.map_id]
    rfl
  rw [List.map_id] at hold
  have hsplit : (t.appendNode n).nodes =
      (t.nodeOrder ++ [n.id]).filterMap (t.nodeTable.insert n.id n).get? := rfl
  rw [hsplit, List.filterMap_append, hold]
  simp

theorem Consistent.edges_appendEdge (h : t.Consistent) {e : Edge}
    (hnew : ¬t.edgeTable.contains e.key = true) :
    (t.appendEdge e).edges = t.edges ++ [e.normalized] := by
  have hold : t.edgeOrder.filterMap (t.appendEdge e).edgeTable.get? = t.edges.map id := by
    refine Dictionary.filterMap_eq_map_filterMap_get? fun k hk => ?_
    rw [get?_appendEdge fun heq => hnew (heq ▸ (h.mem_edgeOrder _).1 hk), Option.map_id]
    rfl
  rw [List.map_id] at hold
  have hsplit : (t.appendEdge e).edges =
      (t.edgeOrder ++ [e.key]).filterMap (t.appendEdge e).edgeTable.get? := rfl
  rw [hsplit, List.filterMap_append, hold]
  simp

theorem Consistent.nodes_refreshNode (h : t.Consistent) (fresh : Node) :
    (t.refreshNode fresh).nodes =
      t.nodes.map fun n => if n.id = fresh.id then n.refreshed fresh else n := by
  rw [nodes, nodeOrder_refreshNode]
  refine Dictionary.filterMap_eq_map_filterMap_get? fun id _ => ?_
  unfold StoreTables.refreshNode
  cases hm : t.nodeTable.get? fresh.id with
  | none =>
    cases hn : t.nodeTable.get? id with
    | none => simp
    | some n =>
      have hne : n.id ≠ fresh.id := by
        intro heq
        rw [← heq, h.id_node hn, hn] at hm
        simp at hm
      simp [hne]
  | some m =>
    simp only [Dictionary.get?_insert]
    by_cases heq : fresh.id = id
    · subst heq
      simp [hm, h.id_node hm]
    · cases hn : t.nodeTable.get? id with
      | none => simp [heq]
      | some n =>
        have hne : n.id ≠ fresh.id := fun hid => heq (hid ▸ h.id_node hn)
        simp [heq, hne]

end StoreTables

end StateAtlas
