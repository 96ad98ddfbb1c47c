import StateAtlas.Proofs.Graph.Expanded
import StateAtlas.Proofs.Graph.Union
/-!
What an addition reports.

An addition brings the nodes of a fragment whose names are not held, and then those of its edges whose
names are not held and whose ends are.  What it reports is what it brought: each new name once, where
it first comes.  A fragment brings nothing where all of that is held, so the same addition made again
changes nothing, and neither does a store that has been absorbed before, however the absorbing store
has grown since.

Main statement: `add_unites_in_order`.
-/

namespace StateAtlas

namespace Store

variable {s t u : Store} {g : Fragment} {n : Node} {e : Edge}

/-! ## The report -/

/-- Behind the names that are held, each new name is listed where it first comes. -/
theorem eraseDups_append_of_nodup {α : Type} [BEq α] [LawfulBEq α] {held : List α} (h : held.Nodup)
    {isHeld : α → Bool} (hiff : ∀ a, isHeld a = true ↔ a ∈ held) (as : List α) :
    (held ++ as).eraseDups = held ++ (as.filter fun a => !isHeld a).eraseDups := by
  have hnew : as.removeAll held = as.filter fun a => !isHeld a := by
    refine List.filter_congr fun a _ => ?_
    rw [Bool.eq_iff_iff]
    simp [← hiff]
  rw [List.eraseDups_append, eraseDups_of_nodup h, hnew]

theorem nodes_between_add (s : Store) (g : Fragment) :
    (Delta.between s (s.add g)).nodes =
      ((g.nodes.map Node.id).filter fun id => !s.hasNode id).eraseDups := by
  refine List.append_cancel_left ((nodeIds_add s g).symm.trans ?_)
  rw [nodeIds_add_eq]
  exact eraseDups_append_of_nodup s.nodup_nodeIds (fun _ => hasNode_iff) _

theorem edges_between_add (s : Store) (g : Fragment) :
    (Delta.between s (s.add g)).edges =
      (((s.joined g).map Edge.key).filter fun k => !s.hasEdge k).eraseDups := by
  refine List.append_cancel_left ((edgeIds_add s g).symm.trans ?_)
  rw [edgeIds_add_eq]
  exact eraseDups_append_of_nodup s.nodup_edgeIds (fun _ => hasEdge_iff) _

theorem between_self (s : Store) : Delta.between s s = {} := by
  simp [Delta.between, nodeIds, edgeIds]

/-- A name that an addition reports was not held. -/
theorem node?_eq_none_of_mem {id : NodeId} (h : id ∈ (Delta.between s (s.add g)).nodes) :
    s.node? id = none := by
  rw [nodes_between_add, List.mem_eraseDups, List.mem_filter, Bool.not_eq_true'] at h
  exact Option.not_isSome_iff_eq_none.1 (Bool.eq_false_iff.1 h.2)

theorem edge?_eq_none_of_mem {k : EdgeId} (h : k ∈ (Delta.between s (s.add g)).edges) :
    s.edge? k = none := by
  rw [edges_between_add, List.mem_eraseDups, List.mem_filter, Bool.not_eq_true'] at h
  exact Option.not_isSome_iff_eq_none.1 (Bool.eq_false_iff.1 h.2)

/-! ## What is held stays as it is -/

theorem node?_add_of_hasNode {id : NodeId} (h : s.hasNode id = true) :
    (s.add g).node? id = s.node? id := by
  obtain ⟨m, hm⟩ := Option.isSome_iff_exists.1 h
  change s.node? id = some m at hm
  rw [node?_add, hm, Option.some_or]

theorem edge?_add_of_hasEdge {k : EdgeId} (h : s.hasEdge k = true) :
    (s.add g).edge? k = s.edge? k := by
  obtain ⟨e, he⟩ := Option.isSome_iff_exists.1 h
  change s.edge? k = some e at he
  rw [edge?_add_eq_or, he, Option.some_or]

theorem expanded_insertNode (t : StoreTables) (n : Node) :
    (t.insertNode n).expanded = t.expanded := by
  unfold StoreTables.insertNode
  split <;> rfl

theorem expanded_insertEdge (t : StoreTables) (e : Edge) :
    (t.insertEdge e).expanded = t.expanded := by
  unfold StoreTables.insertEdge
  split <;> rfl

/-- An addition expands nothing. -/
theorem expanded_add (t : StoreTables) (g : Fragment) : (t.add g).expanded = t.expanded := by
  have hnodes : (g.nodes.foldl StoreTables.insertNode t).expanded = t.expanded :=
    List.foldlRecOn (motive := fun u => u.expanded = t.expanded) g.nodes _ rfl
      fun u hu n _ => (expanded_insertNode u n).trans hu
  exact List.foldlRecOn (motive := fun u => u.expanded = t.expanded) g.edges _ hnodes
    fun u hu e _ => (expanded_insertEdge u e).trans hu

/-! ## Additions that bring nothing -/

theorem insertEdge_of_held (h : s.joins e = true → s.hasEdge e.key = true) : s.insertEdge e = s := by
  refine insertEdge_of_skipped ?_
  by_cases hjoins : s.joins e = true
  · exact Bool.or_eq_true_iff.2 (.inl (h hjoins))
  · have hends : (s.hasNode e.source && s.hasNode e.target) = false := Bool.eq_false_iff.2 hjoins
    rw [hends, Bool.not_false, Bool.or_true]

/-- The nodes of a fragment leave the same edges joined as the whole of it. -/
theorem joins_add (s : Store) (g : Fragment) : (s.add g).joins = (s.putNodes g.nodes).joins := by
  rw [add_eq_foldl, ← putNodes]
  exact List.foldlRecOn (motive := fun u : Store => u.joins = (s.putNodes g.nodes).joins) g.edges _
    rfl fun u hu e _ => (joins_insertEdge u e).trans hu

/-- **A fragment brings nothing just when** the names of its nodes are held, and those of its edges
whose ends are held. -/
theorem add_eq_self_iff :
    s.add g = s ↔ (∀ n ∈ g.nodes, s.hasNode n.id = true) ∧
      ∀ e ∈ g.edges, s.joins e = true → s.hasEdge e.key = true := by
  constructor
  · intro h
    constructor
    · intro n hn
      rw [← h, hasNode_iff, nodeIds_add_eq, List.mem_eraseDups, List.mem_append]
      exact .inr (List.mem_map_of_mem hn)
    · intro e he hjoins
      have hjoined : e ∈ s.joined g := by
        refine List.mem_filter.2 ⟨he, ?_⟩
        rw [← joins_add, h, hjoins]
      rw [← h, hasEdge_iff, edgeIds_add_eq, List.mem_eraseDups, List.mem_append]
      exact .inr (List.mem_map_of_mem hjoined)
  · rintro ⟨hnodes, hedges⟩
    have hput : g.nodes.foldl insertNode s = s :=
      List.foldlRecOn (motive := fun u : Store => u = s) g.nodes _ rfl
        fun u hu n hn => by rw [hu, insertNode_of_held (hnodes n hn)]
    rw [add_eq_foldl, hput]
    exact List.foldlRecOn (motive := fun u : Store => u = s) g.edges _ rfl
      fun u hu e he => by rw [hu, insertEdge_of_held (hedges e he)]

/-- **The same addition made again brings nothing.** -/
theorem add_add (s : Store) (g : Fragment) : (s.add g).add g = s.add g := by
  refine add_eq_self_iff.2 ⟨fun n hn => ?_, fun e he hjoins => ?_⟩
  · rw [hasNode_iff, nodeIds_add_eq, List.mem_eraseDups, List.mem_append]
    exact .inr (List.mem_map_of_mem hn)
  · have hjoined : e ∈ s.joined g := List.mem_filter.2 ⟨he, by rw [← joins_add, hjoins]⟩
    rw [hasEdge_iff, edgeIds_add_eq, List.mem_eraseDups, List.mem_append]
    exact .inr (List.mem_map_of_mem hjoined)

/-- Absorbing a store brings nothing just when all of its names are held. -/
theorem absorb_eq_self_iff :
    s.absorb t = s ↔ t.nodeIds ⊆ s.nodeIds ∧ t.edgeIds ⊆ s.edgeIds := by
  constructor
  · intro h
    rw [← h, nodeIds_absorb, edgeIds_absorb]
    constructor <;> intro id hid <;> simp [hid]
  · rintro ⟨hnodes, hedges⟩
    rw [absorb_eq_add, add_eq_self_iff]
    constructor
    · exact fun n hn => hasNode_iff.2 (hnodes (List.mem_map_of_mem hn))
    · intro e he _
      rw [hasEdge_iff, ← id_eq_key_of_mem_edges he]
      exact hedges (List.mem_map_of_mem he)

/-- A store that was absorbed brings nothing once more, as long as nothing is lost. -/
theorem absorb_of_continuedBy (h : (s.absorb t).tables.ContinuedBy u.tables) : u.absorb t = u := by
  have hnodes := h.nodeOrder.subset
  have hedges := h.edgeOrder.subset
  rw [← nodeIds_eq_nodeOrder, ← nodeIds_eq_nodeOrder, nodeIds_absorb] at hnodes
  rw [← edgeIds_eq_edgeOrder, ← edgeIds_eq_edgeOrder, edgeIds_absorb] at hedges
  refine absorb_eq_self_iff.2 ⟨fun id hid => hnodes ?_, fun k hk => hedges ?_⟩
  · simp [hid]
  · simp [hk]

/-- **An addition is an ordered union, and reports just what it brought.**  It reports, each once and
where it first comes, the names of nodes that were not held, and the derived names that were not held
of the edges whose ends are held once the nodes are in.  These names follow behind those held before.
What was held stays as it is, and of several nodes or edges that bring one name the first is kept.
The same addition made again brings nothing, reports nothing and leaves the store as it is.  Nor does
absorbing a store bring anything if it was absorbed before, whatever became of the absorbing store
since then, or if a store that had absorbed it is absorbed. -/
theorem add_unites_in_order (s : Store) (g : Fragment) :
    let t := s.add g
    let d := Delta.between s t
    s.addReporting g = (t, d) ∧
    (d.nodes = ((g.nodes.map Node.id).filter fun id => !s.hasNode id).eraseDups ∧
      d.edges = (((s.joined g).map Edge.key).filter fun k => !s.hasEdge k).eraseDups) ∧
    (t.nodeIds = s.nodeIds ++ d.nodes ∧ t.edgeIds = s.edgeIds ++ d.edges) ∧
    ((∀ id, s.hasNode id = true → t.node? id = s.node? id) ∧
      (∀ k, s.hasEdge k = true → t.edge? k = s.edge? k) ∧
      t.tables.expanded = s.tables.expanded) ∧
    ((∀ id ∈ d.nodes, t.node? id = g.nodes.find? fun n => n.id = id) ∧
      ∀ k ∈ d.edges, t.edge? k = ((s.joined g).find? fun e => e.key = k).map Edge.normalized) ∧
    (t.add g = t ∧ Delta.between t (t.add g) = {}) ∧
    ∀ (other : Store) (changes : List StoreChange),
      let u := (s.absorb other).changeAll changes
      (u.absorb other = u ∧ Delta.between u (u.absorb other) = {}) ∧
        ∀ v : Store, (v.absorb u).absorb other = v.absorb u := by
  intro t d
  refine ⟨addReporting_eq s g, ⟨nodes_between_add s g, edges_between_add s g⟩,
    ⟨nodeIds_add s g, edgeIds_add s g⟩,
    ⟨fun _ => node?_add_of_hasNode, fun _ => edge?_add_of_hasEdge, expanded_add s.tables g⟩,
    ⟨fun id hid => ?_, fun k hk => ?_⟩, ⟨add_add s g, ?_⟩, fun other changes => ?_⟩
  · rw [node?_add, node?_eq_none_of_mem hid, Option.none_or]
  · rw [edge?_add_eq_or, edge?_eq_none_of_mem hk, Option.none_or]
  · rw [add_add, between_self]
  · intro u
    have habsorbed : u.absorb other = u := absorb_of_continuedBy (continuedBy_changeAll _ changes)
    refine ⟨⟨habsorbed, by rw [habsorbed, between_self]⟩, fun v => ?_⟩
    -- All names of the one store are names of the other, and so of whatever absorbs that.
    obtain ⟨hnodes, hedges⟩ := absorb_eq_self_iff.1 habsorbed
    rw [absorb_eq_self_iff, nodeIds_absorb, edgeIds_absorb]
    exact ⟨fun id hid => by simp [hnodes hid], fun k hk => by simp [hedges hk]⟩

end Store

end StateAtlas
