import StateAtlas.Proofs.Dictionary
import StateAtlas.Proofs.Graph.EdgeNames
import StateAtlas.Proofs.Graph.Hops
/-!
What a store holds after additions and unions.

Of the nodes or edges that have one name a store keeps the one that came first, and it lists names
in the order in which they first came.  So a union of stores holds under each name the copy of the
first store that has one, and it loses no name: the ends of every edge come along with it.
-/

namespace StateAtlas

/-! ## First occurrences -/

section

variable {α : Type} [BEq α] [LawfulBEq α] {as : List α}

theorem eraseDups_of_nodup (h : as.Nodup) : as.eraseDups = as := by
  induction as with
  | nil => rfl
  | cons a as ih =>
    obtain ⟨hnot, hnodup⟩ := List.nodup_cons.1 h
    have hkept : as.filter (fun b => !b == a) = as := by
      refine List.filter_eq_self.2 fun b hb => ?_
      simpa using ne_of_mem_of_not_mem hb hnot
    rw [List.eraseDups_cons, hkept, ih hnodup]

/-- An element behind a list is listed if it was not listed before. -/
theorem eraseDups_concat [DecidableEq α] (as : List α) (a : α) :
    (as ++ [a]).eraseDups = if a ∈ as then as.eraseDups else as.eraseDups ++ [a] := by
  rw [List.eraseDups_append]
  split
  next hmem => simp [List.removeAll, hmem]
  next hnot => simp [List.removeAll, hnot, List.eraseDups_cons]

/-- Repetitions may be left out of the first part beforehand. -/
theorem eraseDups_append_left (as bs : List α) :
    (as.eraseDups ++ bs).eraseDups = (as ++ bs).eraseDups := by
  have hsame : bs.removeAll as.eraseDups = bs.removeAll as := by
    refine List.filter_congr fun b _ => ?_
    rw [Bool.eq_iff_iff]
    simp
  rw [List.eraseDups_append, List.eraseDups_append, eraseDups_of_nodup (nodup_eraseDups as), hsame]

end

namespace Store

variable {s : Store}

theorem node?_of_mem_nodes {n : Node} (h : n ∈ s.nodes) : s.node? n.id = some n := by
  obtain ⟨k, -, hk⟩ := List.mem_filterMap.1 h
  rw [s.consistent.id_node hk]
  exact hk

theorem mem_nodes_of_node? {id : NodeId} {n : Node} (h : s.node? id = some n) : n ∈ s.nodes := by
  rw [node?_eq_find?] at h
  exact List.mem_of_find?_eq_some h

/-! ## Additions -/

theorem nodeIds_insertNode (s : Store) (n : Node) :
    (s.insertNode n).nodeIds = (s.nodeIds ++ [n.id]).eraseDups := by
  rw [eraseDups_concat, eraseDups_of_nodup s.nodup_nodeIds, nodeIds, nodes_insertNode]
  by_cases hheld : s.hasNode n.id = true
  · rw [if_pos hheld, if_pos (hasNode_iff.1 hheld), nodeIds]
  · rw [if_neg hheld, if_neg fun hmem => hheld (hasNode_iff.2 hmem), List.map_append]
    rfl

theorem nodeIds_foldl_insertNode (ns : List Node) (s : Store) :
    (ns.foldl insertNode s).nodeIds = (s.nodeIds ++ ns.map Node.id).eraseDups := by
  induction ns generalizing s with
  | nil => simp [eraseDups_of_nodup s.nodup_nodeIds]
  | cons n ns ih =>
    rw [List.foldl_cons, ih, nodeIds_insertNode, eraseDups_append_left, List.append_assoc]
    rfl

theorem node?_insertNode (s : Store) (n : Node) (id : NodeId) :
    (s.insertNode n).node? id = (s.node? id).or (if n.id = id then some n else none) := by
  unfold insertNode StoreTables.insertNode node?
  split
  next hheld =>
    obtain ⟨m, hm⟩ := Option.isSome_iff_exists.1 hheld
    by_cases hid : n.id = id
    · subst hid
      simp [hm]
    · simp [hid]
  next hnew =>
    simp only [StoreTables.appendNode, Dictionary.get?_insert]
    by_cases hid : n.id = id
    · subst hid
      have hnone : s.tables.nodeTable.get? n.id = none := by
        simpa [Dictionary.contains] using hnew
      simp [hnone]
    · simp [hid]

theorem node?_foldl_insertNode (ns : List Node) (s : Store) (id : NodeId) :
    (ns.foldl insertNode s).node? id = (s.node? id).or (ns.find? fun n => n.id = id) := by
  induction ns generalizing s with
  | nil => simp
  | cons n ns ih =>
    rw [List.foldl_cons, ih, node?_insertNode, Option.or_assoc]
    congr 1
    by_cases hid : n.id = id <;> simp [hid]

theorem node?_congr {t : Store} (h : t.nodes = s.nodes) (id : NodeId) : t.node? id = s.node? id := by
  rw [node?_eq_find?, node?_eq_find?, h]

/-- **An addition keeps the first node of each name**, among those held before and those brought. -/
theorem node?_add (s : Store) (g : Fragment) (id : NodeId) :
    (s.add g).node? id = (s.node? id).or (g.nodes.find? fun n => n.id = id) := by
  rw [add_eq_foldl, node?_congr (nodes_foldl_insertEdge ..), node?_foldl_insertNode]

theorem nodeIds_add_eq (s : Store) (g : Fragment) :
    (s.add g).nodeIds = (s.nodeIds ++ g.nodes.map Node.id).eraseDups := by
  rw [add_eq_foldl, nodeIds, nodes_foldl_insertEdge, ← nodeIds, nodeIds_foldl_insertNode]

theorem edgeIds_insertEdge (s : Store) (e : Edge) :
    (s.insertEdge e).edgeIds =
      if s.joins e then (s.edgeIds ++ [e.key]).eraseDups else s.edgeIds := by
  rw [eraseDups_concat, eraseDups_of_nodup s.nodup_edgeIds, edgeIds, edges_insertEdge, ← joins]
  by_cases hjoins : s.joins e = true
  · by_cases hheld : s.hasEdge e.key = true
    · rw [if_pos (by simp [hheld]), if_pos hjoins, if_pos (hasEdge_iff.1 hheld)]
      rfl
    · rw [if_neg (by simp [hheld, hjoins]), if_pos hjoins,
        if_neg fun hmem => hheld (hasEdge_iff.2 hmem), List.map_append]
      rfl
  · rw [if_pos (by simp [hjoins]), if_neg hjoins]
    rfl

theorem edgeIds_foldl_insertEdge (es : List Edge) (s : Store) :
    (es.foldl insertEdge s).edgeIds =
      (s.edgeIds ++ (es.filter s.joins).map Edge.key).eraseDups := by
  induction es generalizing s with
  | nil => simp [eraseDups_of_nodup s.nodup_edgeIds]
  | cons e es ih =>
    -- Edges bring no nodes, so the ends that are held stay the same on the way.
    rw [List.foldl_cons, ih, joins_insertEdge, edgeIds_insertEdge, List.filter_cons]
    by_cases hjoins : s.joins e = true
    · rw [if_pos hjoins, if_pos hjoins, eraseDups_append_left, List.append_assoc]
      rfl
    · rw [if_neg hjoins, if_neg hjoins]

theorem edgeIds_add_eq (s : Store) (g : Fragment) :
    (s.add g).edgeIds = (s.edgeIds ++ (s.joined g).map Edge.key).eraseDups := by
  have hsame : (s.putNodes g.nodes).edgeIds = s.edgeIds := by
    rw [edgeIds, putNodes, edges_foldl_insertNode, ← edgeIds]
  rw [add_eq_foldl, ← putNodes, edgeIds_foldl_insertEdge, hsame, joined]

theorem nodes_eq_filterMap (s : Store) : s.nodes = s.nodeIds.filterMap s.node? := by
  rw [nodeIds_eq_nodeOrder]
  rfl

theorem edges_eq_filterMap (s : Store) : s.edges = s.edgeIds.filterMap s.edge? := by
  rw [edgeIds_eq_edgeOrder]
  rfl

/-! ## Fragments that are held as they are -/

end Store

/-- A fragment that is a graph: names are distinct, edges bear the names that follow from their ends
and labels, and both ends of every edge are there. -/
structure Fragment.Closed (g : Fragment) : Prop where
  nodup_nodes : (g.nodes.map Node.id).Nodup
  nodup_edges : (g.edges.map Edge.id).Nodup
  id_eq_key : ∀ e ∈ g.edges, e.id = e.key
  source_mem : ∀ e ∈ g.edges, e.source ∈ g.nodes.map Node.id
  target_mem : ∀ e ∈ g.edges, e.target ∈ g.nodes.map Node.id

namespace Fragment.Closed

variable {g : Fragment}

/-- Any part of a graph is one if it has the ends of its edges. -/
theorem of_sublist (h : g.Closed) {nodes : List Node} {edges : List Edge}
    (hnodes : nodes.Sublist g.nodes) (hedges : edges.Sublist g.edges)
    (hends : ∀ e ∈ edges, e.source ∈ nodes.map Node.id ∧ e.target ∈ nodes.map Node.id) :
    Closed ⟨nodes, edges⟩ where
  nodup_nodes := h.nodup_nodes.sublist (hnodes.map Node.id)
  nodup_edges := h.nodup_edges.sublist (hedges.map Edge.id)
  id_eq_key e he := h.id_eq_key e (hedges.subset he)
  source_mem e he := (hends e he).1
  target_mem e he := (hends e he).2

theorem map_key_edges (h : g.Closed) : g.edges.map Edge.key = g.edges.map Edge.id :=
  List.map_congr_left fun e he => (h.id_eq_key e he).symm

/-- An empty store passes over no node of a graph. -/
theorem nodes_ofFragment (h : g.Closed) : (Store.ofFragment g).nodes = g.nodes := by
  have hids : (Store.ofFragment g).nodeIds = g.nodes.map Node.id :=
    (Store.nodeIds_add_eq Store.empty g).trans (eraseDups_of_nodup h.nodup_nodes)
  have hnode : (Store.ofFragment g).node? = fun id => g.nodes.find? fun n => n.id = id :=
    funext fun id => (Store.node?_add Store.empty g id).trans (Option.none_or ..)
  rw [Store.nodes_eq_filterMap, hids, hnode]
  exact filterMap_find?_names h.nodup_nodes (List.Subset.refl _)

/-- The ends of every edge are held once the nodes are in. -/
theorem joined (h : g.Closed) (s : Store) : s.joined g = g.edges := by
  have hheld : ∀ id ∈ g.nodes.map Node.id, (s.putNodes g.nodes).hasNode id = true := by
    intro id hid
    rw [Store.hasNode_iff, Store.putNodes, Store.nodeIds_foldl_insertNode, List.mem_eraseDups,
      List.mem_append]
    exact .inr hid
  refine List.filter_eq_self.2 fun e he => ?_
  rw [Store.joins, hheld _ (h.source_mem e he), hheld _ (h.target_mem e he)]
  rfl

/-- An empty store passes over no edge of a graph. -/
theorem edges_ofFragment (h : g.Closed) : (Store.ofFragment g).edges = g.edges := by
  have hids : (Store.ofFragment g).edgeIds = g.edges.map Edge.id := by
    refine (Store.edgeIds_add_eq Store.empty g).trans ?_
    rw [h.joined, h.map_key_edges]
    exact eraseDups_of_nodup h.nodup_edges
  have hedge : ∀ e ∈ g.edges, (Store.ofFragment g).edge? e.id = some e := by
    intro e he
    have hnodup : (g.edges.map Edge.key).Nodup := h.map_key_edges ▸ h.nodup_edges
    rw [h.id_eq_key e he]
    refine (Store.edge?_add_eq_or Store.empty g e.key).trans ?_
    rw [h.joined, find?_name hnodup he, Option.map_some, Edge.normalized, ← h.id_eq_key e he]
    rfl
  rw [Store.edges_eq_filterMap, hids, List.filterMap_map]
  exact (List.filterMap_congr hedge).trans List.filterMap_some

end Fragment.Closed

namespace Store

/-- What a store holds is a graph. -/
theorem closed_fragment (s : Store) : s.fragment.Closed where
  nodup_nodes := s.nodup_nodeIds
  nodup_edges := s.nodup_edgeIds
  id_eq_key _ he := id_eq_key_of_mem_edges he
  source_mem _ he := hasNode_iff.1 (hasNode_ends_of_mem_edges he).1
  target_mem _ he := hasNode_iff.1 (hasNode_ends_of_mem_edges he).2

/-! ## Unions -/

/-- A store brings the ends of its edges along. -/
theorem joined_fragment (s other : Store) : s.joined other.fragment = other.edges :=
  other.closed_fragment.joined s

theorem map_key_edges (s : Store) : s.edges.map Edge.key = s.edgeIds :=
  s.closed_fragment.map_key_edges

theorem node?_absorb (s other : Store) (id : NodeId) :
    (s.absorb other).node? id = (s.node? id).or (other.node? id) := by
  rw [absorb_eq_add, node?_add, node?_eq_find? other]
  rfl

theorem nodeIds_absorb (s other : Store) :
    (s.absorb other).nodeIds = (s.nodeIds ++ other.nodeIds).eraseDups :=
  nodeIds_add_eq s other.fragment

theorem edge?_absorb (s other : Store) (k : EdgeId) :
    (s.absorb other).edge? k = (s.edge? k).or (other.edge? k) := by
  rw [absorb_eq_add, edge?_add_eq_or, joined_fragment, find?_key_edges]

theorem edgeIds_absorb (s other : Store) :
    (s.absorb other).edgeIds = (s.edgeIds ++ other.edgeIds).eraseDups := by
  rw [absorb_eq_add, edgeIds_add_eq, joined_fragment, map_key_edges]

/-- A store that is filled with all that another holds lists the same nodes. -/
theorem nodes_ofFragment (s : Store) : (ofFragment s.fragment).nodes = s.nodes :=
  s.closed_fragment.nodes_ofFragment

/-- A store that is filled with all that another holds lists the same edges. -/
theorem edges_ofFragment (s : Store) : (ofFragment s.fragment).edges = s.edges :=
  s.closed_fragment.edges_ofFragment

/-- What several stores hold, earlier ones first. -/
def union (stores : List Store) : Store := stores.foldl absorb empty

/-- Names that come with the first store that has them. -/
theorem names_foldl_absorb {κ : Type} [BEq κ] [LawfulBEq κ] {names : Store → List κ}
    (hnodup : ∀ s, (names s).Nodup)
    (habsorb : ∀ s other, names (s.absorb other) = (names s ++ names other).eraseDups)
    (stores : List Store) (s : Store) :
    names (stores.foldl absorb s) = (names s ++ stores.flatMap names).eraseDups := by
  induction stores generalizing s with
  | nil => simp [eraseDups_of_nodup (hnodup s)]
  | cons other stores ih =>
    rw [List.foldl_cons, ih, habsorb, eraseDups_append_left, List.append_assoc, List.flatMap_cons]

/-- What is found in the first store that has it. -/
theorem found_foldl_absorb {β : Type} (find : Store → Option β)
    (habsorb : ∀ s other, find (s.absorb other) = (find s).or (find other)) (stores : List Store)
    (s : Store) : find (stores.foldl absorb s) = (find s).or (stores.findSome? find) := by
  induction stores generalizing s with
  | nil => simp
  | cons other stores ih =>
    rw [List.foldl_cons, ih, habsorb, Option.or_assoc, List.findSome?_cons]
    cases find other <;> rfl

theorem nodeIds_union (stores : List Store) :
    (union stores).nodeIds = (stores.flatMap nodeIds).eraseDups :=
  names_foldl_absorb nodup_nodeIds nodeIds_absorb stores empty

theorem edgeIds_union (stores : List Store) :
    (union stores).edgeIds = (stores.flatMap edgeIds).eraseDups :=
  names_foldl_absorb nodup_edgeIds edgeIds_absorb stores empty

/-- Of the nodes of one name the first store's is kept. -/
theorem node?_union (stores : List Store) (id : NodeId) :
    (union stores).node? id = stores.findSome? fun s => s.node? id :=
  (found_foldl_absorb (fun s => s.node? id) (node?_absorb · · id) stores empty).trans
    (Option.none_or ..)

/-- Of the edges of one name the first store's is kept. -/
theorem edge?_union (stores : List Store) (k : EdgeId) :
    (union stores).edge? k = stores.findSome? fun s => s.edge? k :=
  (found_foldl_absorb (fun s => s.edge? k) (edge?_absorb · · k) stores empty).trans
    (Option.none_or ..)

end Store

end StateAtlas
