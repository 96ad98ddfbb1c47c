import StateAtlas.Proofs.Graph.Union
/-!
When each element of a store is found under its name.

Nodes and edges are looked up by the same texts, nodes first, but an addition compares names within
each kind only.  A node that goes by the derived name of an edge is held beside it, whichever came
first, and the edge is found no more.  So every element is found under its name if and only if no
node that was brought goes by the name of an edge whose ends were held when it came.

Main statement: `finds_each_iff`.
-/

namespace StateAtlas

/-- An addition to a store: of nodes and edges, or of all that another store holds. -/
inductive StoreAddition
  | add (g : Fragment)
  | absorb (other : Store)

/-- What an addition brings. -/
def StoreAddition.fragment : StoreAddition → Fragment
  | .add g => g
  | .absorb other => other.fragment

namespace Store

variable {s : Store} {n : Node} {e : Edge}

/-- Carries out an addition. -/
def receive (s : Store) : StoreAddition → Store
  | .add g => s.add g
  | .absorb other => s.absorb other

/-- Carries out additions, one after the other. -/
def receiveAll (s : Store) (additions : List StoreAddition) : Store := additions.foldl receive s

theorem receive_eq_add (s : Store) (a : StoreAddition) : s.receive a = s.add a.fragment := by
  cases a <;> rfl

/-! ## Looking up -/

/-- A node is always found under its name. -/
theorem element?_of_mem_nodes (h : n ∈ s.nodes) : s.element? n.id.text = some (.inl n) := by
  rw [element?, node?_of_mem_nodes h]

/-- An edge is found under its name unless a node goes by it. -/
theorem element?_eq_edge_iff (h : e ∈ s.edges) :
    s.element? e.id.text = some (.inr e) ↔ ∀ n ∈ s.nodes, n.id.text ≠ e.id.text := by
  have hedge : s.edge? e.id = some e := id_eq_key_of_mem_edges h ▸ edge?_of_mem_edges h
  constructor
  · intro hfound n hn hname
    rw [← hname, element?_of_mem_nodes hn] at hfound
    cases hfound
  · intro hnone
    rw [element?]
    cases hnode : s.node? ⟨e.id.text⟩ with
    | none => exact congrArg (Option.map Sum.inr) hedge
    | some n =>
      rw [node?_eq_find?] at hnode
      have hname : n.id = ⟨e.id.text⟩ := by simpa using List.find?_some hnode
      exact absurd (congrArg NodeId.text hname) (hnone n (List.mem_of_find?_eq_some hnode))

/-- No node goes by the name of an edge. -/
def NamesApart (s : Store) : Prop := ∀ n ∈ s.nodes, ∀ e ∈ s.edges, n.id.text ≠ e.id.text

theorem namesApart_iff_found :
    s.NamesApart ↔ ∀ e ∈ s.edges, s.element? e.id.text = some (.inr e) := by
  constructor
  · exact fun h e he => (element?_eq_edge_iff he).2 fun n hn => h n hn e he
  · exact fun h n hn e he => (element?_eq_edge_iff he).1 (h e he) n hn

theorem namesApart_iff_ids :
    s.NamesApart ↔ ∀ id ∈ s.nodeIds, ∀ k ∈ s.edgeIds, id.text ≠ k.text := by
  simp only [NamesApart, nodeIds, edgeIds, List.forall_mem_map]

/-! ## Additions -/

/-- The nodes that additions bring. -/
def broughtNodes (additions : List StoreAddition) : List Node :=
  additions.flatMap fun a => a.fragment.nodes

/-- The edges that additions bring when both of their ends are held. -/
def joinedAll (s : Store) : List StoreAddition → List Edge
  | [] => []
  | a :: additions => s.joined a.fragment ++ (s.receive a).joinedAll additions

theorem nodeIds_receiveAll (s : Store) (additions : List StoreAddition) :
    (s.receiveAll additions).nodeIds =
      (s.nodeIds ++ (broughtNodes additions).map Node.id).eraseDups := by
  induction additions generalizing s with
  | nil => simp [receiveAll, broughtNodes, eraseDups_of_nodup s.nodup_nodeIds]
  | cons a additions ih =>
    have hbrought : broughtNodes (a :: additions) = a.fragment.nodes ++ broughtNodes additions :=
      List.flatMap_cons
    show ((s.receive a).receiveAll additions).nodeIds = _
    rw [ih, receive_eq_add, nodeIds_add_eq, eraseDups_append_left, List.append_assoc, hbrought,
      List.map_append]

theorem edgeIds_receiveAll (s : Store) (additions : List StoreAddition) :
    (s.receiveAll additions).edgeIds =
      (s.edgeIds ++ (s.joinedAll additions).map Edge.key).eraseDups := by
  induction additions generalizing s with
  | nil => simp [receiveAll, joinedAll, eraseDups_of_nodup s.nodup_edgeIds]
  | cons a additions ih =>
    have hreceived : (s.receive a).edgeIds =
        (s.edgeIds ++ (s.joined a.fragment).map Edge.key).eraseDups := by
      rw [receive_eq_add, edgeIds_add_eq]
    show ((s.receive a).receiveAll additions).edgeIds = _
    rw [ih, hreceived, eraseDups_append_left, List.append_assoc, joinedAll, List.map_append]

/-- **Names stay apart just when no node that is brought goes by the name of an edge that is
joined**, whichever of the two comes first. -/
theorem namesApart_receiveAll_iff (additions : List StoreAddition) :
    (empty.receiveAll additions).NamesApart ↔
      ∀ n ∈ broughtNodes additions, ∀ e ∈ empty.joinedAll additions, n.id.text ≠ e.key.text := by
  have hnodes : ∀ id, id ∈ (empty.receiveAll additions).nodeIds ↔
      id ∈ (broughtNodes additions).map Node.id := by
    intro id
    rw [nodeIds_receiveAll, List.mem_eraseDups]
    rfl
  have hedges : ∀ k, k ∈ (empty.receiveAll additions).edgeIds ↔
      k ∈ (empty.joinedAll additions).map Edge.key := by
    intro k
    rw [edgeIds_receiveAll, List.mem_eraseDups]
    rfl
  simp only [namesApart_iff_ids, hnodes, hedges, List.forall_mem_map]

/-- An arrow stands in the name of every edge. -/
theorem arrow_infix_key (e : Edge) : ['-', '>'] <:+: e.key.text.toList := by
  rw [Edge.toList_key]
  exact ⟨e.source.text.toList ++ '-' :: e.label.toList, e.target.text.toList, by simp⟩

/-- **Each element is found under its name if and only if no two that are brought share one.**  Let
a store have received any additions, starting with nothing.  No two of its nodes have one name, nor
have two of its edges, and each node is found under its name.  An edge is found under its name just
when no node goes by it.  That no node goes by the name of an edge, and that each edge is found
under its name, are the same, and both hold if and only if no node that was brought goes by the name
of an edge that was brought when its ends were held; in particular they hold if no node that was
brought has an arrow in its name. -/
theorem finds_each_iff (additions : List StoreAddition) :
    let s := empty.receiveAll additions
    (s.nodeIds.Nodup ∧ s.edgeIds.Nodup ∧ ∀ n ∈ s.nodes, s.element? n.id.text = some (.inl n)) ∧
    (∀ e ∈ s.edges, s.element? e.id.text = some (.inr e) ↔ ∀ n ∈ s.nodes, n.id.text ≠ e.id.text) ∧
    (((∀ n ∈ s.nodes, ∀ e ∈ s.edges, n.id.text ≠ e.id.text) ∧
        ∀ e ∈ s.edges, s.element? e.id.text = some (.inr e)) ↔
      ∀ n ∈ broughtNodes additions, ∀ e ∈ empty.joinedAll additions, n.id.text ≠ e.key.text) ∧
    ((∀ n ∈ broughtNodes additions, ¬['-', '>'] <:+: n.id.text.toList) → s.NamesApart) := by
  intro s
  refine ⟨⟨s.nodup_nodeIds, s.nodup_edgeIds, fun n => element?_of_mem_nodes⟩,
    fun e => element?_eq_edge_iff, ?_, fun hplain => ?_⟩
  · rw [← namesApart_receiveAll_iff]
    exact ⟨And.left, fun h => ⟨h, namesApart_iff_found.1 h⟩⟩
  · refine (namesApart_receiveAll_iff additions).2 fun n hn e _ hname => hplain n hn ?_
    rw [hname]
    exact arrow_infix_key e

/-- An edge is held and found, and then a node comes that goes by its name: both are held, and the
edge is found no more. -/
theorem node_hides_edge :
    let a : Node := { id := ⟨"a"⟩, kind := .state }
    let b : Node := { id := ⟨"b"⟩, kind := .state }
    let e := Edge.between a.id "go" b.id
    let n : Node := { id := ⟨"a-go->b"⟩, kind := .state }
    let first := StoreAddition.add { nodes := [a, b], edges := [e] }
    let second := StoreAddition.add { nodes := [n] }
    (empty.receiveAll [first]).element? e.id.text = some (.inr e) ∧
      e ∈ (empty.receiveAll [first, second]).edges ∧ n ∈ (empty.receiveAll [first, second]).nodes ∧
      n.id.text = e.id.text ∧
      (empty.receiveAll [first, second]).element? e.id.text = some (.inl n) := by
  intro a b e n first second
  have hbefore : (empty.receiveAll [first]).nodes = [a, b] := by
    subst first e b a
    rfl
  have hafter : (empty.receiveAll [first, second]).nodes = [a, b, n] := by
    subst first second e n b a
    rfl
  have he : e ∈ (empty.receiveAll [first]).edges := by decide
  have he' : e ∈ (empty.receiveAll [first, second]).edges := by decide
  have hn : n ∈ (empty.receiveAll [first, second]).nodes := by simp [hafter]
  have hfound : (empty.receiveAll [first]).element? e.id.text = some (.inr e) := by
    refine (element?_eq_edge_iff he).2 ?_
    rw [hbefore]
    decide
  have hname : n.id.text = e.id.text := by decide
  refine ⟨hfound, he', hn, hname, ?_⟩
  rw [← hname]
  exact element?_of_mem_nodes hn

end Store

end StateAtlas
