import StateAtlas.Proofs.Graph.Union
/-!
Where the nodes of a store come from.

A fragment brings nodes into a store as they are.  A fresh copy of a node leaves it in its place, but
may replace its attributes or its weights.  So of every node that a store holds, each part was brought
by some node, though not all by the same one.

Main statements: `Store.mem_nodes_add`, `Store.mem_nodes_union` and `Store.forall_nodes_refresh`.
-/

namespace StateAtlas

/-- Every part of a node is that of a node of a kind. -/
structure Node.From (P : Node → Prop) (n : Node) : Prop where
  identity : ∃ m, P m ∧ n.id = m.id ∧ n.kind = m.kind ∧ n.name = m.name
  attributes : ∃ m, P m ∧ n.attributes = m.attributes
  weights : ∃ m, P m ∧ n.weights = m.weights

namespace Node

variable {P : Node → Prop} {n fresh : Node}

theorem from_of (h : P n) : n.From P :=
  ⟨⟨n, h, rfl, rfl, rfl⟩, ⟨n, h, rfl⟩, ⟨n, h, rfl⟩⟩

theorem From.refreshed (h : n.From P) (hfresh : P fresh) : (n.refreshed fresh).From P where
  identity := h.identity
  attributes := by
    unfold Node.refreshed
    dsimp only
    split
    · exact h.attributes
    · exact ⟨fresh, hfresh, rfl⟩
  weights := by
    unfold Node.refreshed
    dsimp only
    split
    · exact h.weights
    · exact ⟨fresh, hfresh, rfl⟩

end Node

namespace Store

variable {P : Node → Prop} {s : Store} {g : Fragment} {n : Node}

theorem mem_nodes_add (h : n ∈ (s.add g).nodes) : n ∈ s.nodes ∨ n ∈ g.nodes := by
  have hnode := node?_of_mem_nodes h
  rw [node?_add] at hnode
  rcases Option.or_eq_some_iff.1 hnode with hold | ⟨-, hnew⟩
  · exact .inl (mem_nodes_of_node? hold)
  · exact .inr (List.mem_of_find?_eq_some hnew)

theorem mem_nodes_merge {frontier : List NodeId} (h : n ∈ (s.merge frontier g).nodes) :
    n ∈ s.nodes ∨ n ∈ g.nodes := mem_nodes_add h

theorem mem_nodes_ofFragment (h : n ∈ (ofFragment g).nodes) : n ∈ g.nodes :=
  (mem_nodes_add h).resolve_left List.not_mem_nil

theorem mem_nodes_union {stores : List Store} (h : n ∈ (union stores).nodes) :
    ∃ s ∈ stores, n ∈ s.nodes := by
  have hnode := node?_of_mem_nodes h
  rw [node?_union] at hnode
  obtain ⟨s, hs, hn⟩ := List.exists_of_findSome?_eq_some hnode
  exact ⟨s, hs, mem_nodes_of_node? hn⟩

/-- Fresh copies replace parts of nodes by their own at most. -/
theorem forall_nodes_refresh (h : ∀ n ∈ s.nodes, n.From P) {fresh : List Node}
    (hfresh : ∀ n ∈ fresh, P n) : ∀ n ∈ (s.refresh fresh).nodes, n.From P := by
  refine (List.foldlRecOn (motive := fun t : StoreTables =>
    t.Consistent ∧ ∀ n ∈ t.nodes, n.From P) fresh _ ⟨s.consistent, h⟩ ?_).2
  rintro t ⟨ht, hnodes⟩ m hm
  refine ⟨ht.refreshNode m, fun n hn => ?_⟩
  rw [ht.nodes_refreshNode] at hn
  obtain ⟨old, hold, rfl⟩ := List.mem_map.1 hn
  split
  · exact (hnodes old hold).refreshed (hfresh m hm)
  · exact hnodes old hold

end Store

end StateAtlas
