import StateAtlas.Graph.Store
/-!
How the tables of a store grow.

Tables change in four ways: a fragment is added, other tables are absorbed, nodes are recorded as
expanded, and fresher copies of nodes are taken over.  Whatever the order of such changes, tables
that started empty stay in step, and nothing that they once held is lost, moved or changed, except
that nodes take over fresher attributes and weights.

Main statement: `grown_in_step`.
-/

namespace StateAtlas

/-- A change of the tables of a store. -/
inductive Growth
  | add (g : Fragment)
  | absorb (other : StoreTables)
  | markExpanded (ids : List NodeId)
  | refresh (fresh : List Node)

namespace StoreTables

/-- Carries out a change. -/
def grow (t : StoreTables) : Growth → StoreTables
  | .add g => t.add g
  | .absorb other => t.absorb other
  | .markExpanded ids => t.markExpanded ids
  | .refresh fresh => t.refresh fresh

/-- The tables that come of changes, one after the other, starting from empty ones. -/
def grown (changes : List Growth) : StoreTables := changes.foldl grow {}

/-- Everything that was held before is held after, where it was: the orders are continued, edges are
the same, nodes are of the same kind and expanded nodes still count as expanded. -/
structure ContinuedBy (before after : StoreTables) : Prop where
  nodeOrder : before.nodeOrder <+: after.nodeOrder
  edgeOrder : before.edgeOrder <+: after.edgeOrder
  edge : ∀ {k e}, before.edgeTable.get? k = some e → after.edgeTable.get? k = some e
  node : ∀ {id n}, before.nodeTable.get? id = some n →
    ∃ n', after.nodeTable.get? id = some n' ∧ n'.kind = n.kind
  expanded : ∀ {id}, before.expanded.contains id = true → after.expanded.contains id = true

namespace ContinuedBy

variable {t t' t'' : StoreTables}

theorem rfl (t : StoreTables) : t.ContinuedBy t :=
  ⟨List.prefix_rfl, List.prefix_rfl, id, fun h => ⟨_, h, Eq.refl _⟩, id⟩

theorem trans (h : t.ContinuedBy t') (h' : t'.ContinuedBy t'') : t.ContinuedBy t'' where
  nodeOrder := h.nodeOrder.trans h'.nodeOrder
  edgeOrder := h.edgeOrder.trans h'.edgeOrder
  edge he := h'.edge (h.edge he)
  node hn := by
    obtain ⟨n', hn', hkind⟩ := h.node hn
    obtain ⟨n'', hn'', hkind'⟩ := h'.node hn'
    exact ⟨n'', hn'', hkind'.trans hkind⟩
  expanded hid := h'.expanded (h.expanded hid)

/-- What each of several changes continues is continued by all of them. -/
theorem foldl {α : Type} {f : StoreTables → α → StoreTables}
    (hf : ∀ t a, ContinuedBy t (f t a)) (t : StoreTables) (as : List α) :
    t.ContinuedBy (as.foldl f t) := by
  induction as generalizing t with
  | nil => exact rfl t
  | cons a as ih => exact (hf t a).trans (ih _)

theorem insertNode (t : StoreTables) (n : Node) : t.ContinuedBy (t.insertNode n) := by
  unfold StoreTables.insertNode
  split
  · exact rfl t
  next hnew =>
    -- A node that was held before has another name, or the new one would have been passed over.
    refine ⟨List.prefix_append _ _, List.prefix_rfl, id, fun {id m} hm => ⟨m, ?_, Eq.refl _⟩, id⟩
    have hne : n.id ≠ id := by
      rintro rfl
      exact hnew (by simp [Dictionary.contains, hm])
    simpa only [appendNode, Dictionary.get?_insert, if_neg hne] using hm

theorem insertEdge (t : StoreTables) (e : Edge) : t.ContinuedBy (t.insertEdge e) := by
  unfold StoreTables.insertEdge
  split
  · exact rfl t
  next hcond =>
    refine ⟨List.prefix_rfl, List.prefix_append _ _, fun {k e'} he' => ?_,
      fun h => ⟨_, h, Eq.refl _⟩, id⟩
    have hne : k ≠ e.key := by
      rintro rfl
      exact hcond (by simp [Dictionary.contains, he'])
    rwa [get?_appendEdge hne]

theorem add (t : StoreTables) (g : Fragment) : t.ContinuedBy (t.add g) :=
  (foldl insertNode t g.nodes).trans (foldl insertEdge _ g.edges)

theorem markExpanded (t : StoreTables) (ids : List NodeId) : t.ContinuedBy (t.markExpanded ids) :=
  ⟨List.prefix_rfl, List.prefix_rfl, id, fun h => ⟨_, h, Eq.refl _⟩,
    fun hid => (OrderedSet.contains_insertMany ..).2 (.inr hid)⟩

/-- A fresher copy brings attributes and weights, but no other kind. -/
theorem refreshNode (t : StoreTables) (fresh : Node) : t.ContinuedBy (t.refreshNode fresh) := by
  unfold StoreTables.refreshNode
  split
  · exact rfl t
  next n hn =>
    refine ⟨List.prefix_rfl, List.prefix_rfl, id, fun {id m} hm => ?_, id⟩
    simp only [Dictionary.get?_insert]
    split
    next heq =>
      rw [heq, hm] at hn
      exact ⟨_, Eq.refl _, (Option.some.inj hn) ▸ Eq.refl _⟩
    next => exact ⟨m, hm, Eq.refl _⟩

theorem grow (t : StoreTables) (c : Growth) : t.ContinuedBy (t.grow c) := by
  cases c with
  | add g => exact add t g
  | absorb other => exact add t _
  | markExpanded ids => exact markExpanded t ids
  | refresh fresh => exact foldl refreshNode t fresh

/-- The edges held before come first, in their order. -/
theorem edges_isPrefix (h : t.ContinuedBy t') (ht : t.Consistent) : t.edges <+: t'.edges := by
  obtain ⟨rest, hrest⟩ := h.edgeOrder
  -- The old names come first, and each still leads to the edge that it led to.
  refine ⟨rest.filterMap t'.edgeTable.get?, ?_⟩
  have hold : t.edgeOrder.filterMap t'.edgeTable.get? = t.edges.map id := by
    refine Dictionary.filterMap_eq_map_filterMap_get? fun k hk => ?_
    obtain ⟨e, he⟩ := Option.isSome_iff_exists.1 ((ht.mem_edgeOrder k).1 hk)
    rw [he, h.edge he]
    rfl
  rw [List.map_id] at hold
  have hsplit : t'.edges = (t.edgeOrder ++ rest).filterMap t'.edgeTable.get? := by rw [hrest]; rfl
  rw [hsplit, List.filterMap_append, hold]

end ContinuedBy

theorem Consistent.grow {t : StoreTables} (h : t.Consistent) (c : Growth) :
    (t.grow c).Consistent := by
  cases c with
  | add g => exact h.add g
  | absorb other => exact h.absorb other
  | markExpanded ids => exact h.markExpanded ids
  | refresh fresh => exact h.refresh fresh

theorem consistent_grown (changes : List Growth) : (grown changes).Consistent :=
  consistent_empty.foldl Consistent.grow changes

/-- **Tables stay in step however they grow.**  Of nodes and of edges the order lists exactly the
keys of the table, each once, and each is kept under its own name, which for an edge follows from its
ends and label.  The ends of edges are held.  The edges listed for a node are those that have it at
the end in question, in the order in which they came.  Expanded nodes are held.  And whatever changes
follow, nothing held is lost, moved or, apart from attributes and weights, changed. -/
theorem grown_in_step (changes : List Growth) :
    let t := grown changes
    (t.nodeOrder.Nodup ∧ (∀ id, id ∈ t.nodeOrder ↔ t.nodeTable.contains id = true) ∧
      ∀ id n, t.nodeTable.get? id = some n → n.id = id) ∧
    (t.edgeOrder.Nodup ∧ (∀ k, k ∈ t.edgeOrder ↔ t.edgeTable.contains k = true) ∧
      ∀ k e, t.edgeTable.get? k = some e → e.id = k ∧ k = .derive e.source e.label e.target) ∧
    (∀ k e, t.edgeTable.get? k = some e →
      t.nodeTable.contains e.source = true ∧ t.nodeTable.contains e.target = true) ∧
    (∀ id, t.outgoing id = (t.edges.filter fun e => e.source = id) ∧
      t.incoming id = t.edges.filter fun e => e.target = id) ∧
    (∀ id, t.expanded.contains id = true → t.nodeTable.contains id = true) ∧
    ∀ more, t.ContinuedBy (grown (changes ++ more)) ∧ t.edges <+: (grown (changes ++ more)).edges ∧
      ∀ id, t.outgoing id <+: (grown (changes ++ more)).outgoing id ∧
        t.incoming id <+: (grown (changes ++ more)).incoming id := by
  intro t
  have ht : t.Consistent := consistent_grown changes
  have hout : ∀ {u : StoreTables}, u.Consistent → ∀ id,
      u.outgoing id = (u.edges.filter fun e => e.source = id) ∧
        u.incoming id = u.edges.filter fun e => e.target = id :=
    fun hu id => ⟨hu.lists_leaving.listed_eq id, hu.lists_entering.listed_eq id⟩
  refine ⟨⟨ht.nodup_nodeOrder, ht.mem_nodeOrder, fun _ _ => ht.id_node⟩,
    ⟨ht.nodup_edgeOrder, ht.mem_edgeOrder, fun k e he => ?_⟩, fun k e he => ?_, hout ht,
    fun _ => ht.expanded_held, fun more => ?_⟩
  · exact ⟨(ht.key_edge he).2, (ht.key_edge he).1.symm⟩
  · exact Bool.and_eq_true_iff.1 (ht.holdsEnds_edge he)
  · have hmore : t.ContinuedBy (grown (changes ++ more)) := by
      rw [grown, List.foldl_append]
      exact ContinuedBy.foldl ContinuedBy.grow t more
    have hedges := hmore.edges_isPrefix ht
    refine ⟨hmore, hedges, fun id => ?_⟩
    -- What is listed for a node is a part of the edges, before and after.
    rw [(hout ht id).1, (hout ht id).2, (hout (consistent_grown _) id).1,
      (hout (consistent_grown _) id).2]
    exact ⟨hedges.filter _, hedges.filter _⟩

end StoreTables

end StateAtlas
