import StateAtlas.Document.Strategy
import StateAtlas.Proofs.Graph.Union
/-!
The strategy over several stores against the strategy of their union.

The strategy is put together store by store, so an action that is entered in one store and left in
another is passed over, and so is an edge whose store does not itself choose both of its ends.  In
the union they are there.  Stores that agree on what their names mean never choose more than their
union does, and they choose the same just when no such action and no such edge exists.

Of the marked nodes a store chooses the states alone.  A marked action comes along only where it
leads from a marked state to a marked state.

Main statements: `sameNames_strategy_iff`, `strategy_leaves_out`.
-/

namespace StateAtlas

/-- Two fragments bring nodes of the same names and edges of the same names. -/
structure Fragment.SameNames (g h : Fragment) : Prop where
  nodes : ∀ id, id ∈ g.nodes.map Node.id ↔ id ∈ h.nodes.map Node.id
  edges : ∀ k, k ∈ g.edges.map Edge.id ↔ k ∈ h.edges.map Edge.id

namespace Store

variable {stores : List Store} {s t : Store}

/-! ## Stores that agree -/

/-- What a name means in one store it means in the other: nodes of one name are of one kind, and
edges of one name have the same ends. -/
structure Agrees (s t : Store) : Prop where
  kind : ∀ m ∈ s.nodes, ∀ n ∈ t.nodes, m.id = n.id → m.kind = n.kind
  ends : ∀ e ∈ s.edges, ∀ e' ∈ t.edges, e.key = e'.key → e.source = e'.source ∧ e.target = e'.target

instance : Decidable (s.Agrees t) :=
  decidable_of_iff
    ((∀ m ∈ s.nodes, ∀ n ∈ t.nodes, m.id = n.id → m.kind = n.kind) ∧
      ∀ e ∈ s.edges, ∀ e' ∈ t.edges, e.key = e'.key → e.source = e'.source ∧ e.target = e'.target)
    ⟨fun h => ⟨h.1, h.2⟩, fun h => ⟨h.kind, h.ends⟩⟩

theorem exists_node?_of_union {id : NodeId} {n : Node} (h : (union stores).node? id = some n) :
    ∃ s ∈ stores, s.node? id = some n := by
  rw [node?_union] at h
  exact List.exists_of_findSome?_eq_some h

theorem exists_mem_edges_of_union {e : Edge} (h : e ∈ (union stores).edges) :
    ∃ s ∈ stores, e ∈ s.edges := by
  have hedge := edge?_of_mem_edges h
  rw [edge?_union] at hedge
  obtain ⟨s, hs, he⟩ := List.exists_of_findSome?_eq_some hedge
  exact ⟨s, hs, mem_edges_of_edge? he⟩

theorem exists_mem_edges_union (hs : s ∈ stores) {e : Edge} (he : e ∈ s.edges) :
    ∃ e' ∈ (union stores).edges, e'.key = e.key := by
  have hid : e.key ∈ (union stores).edgeIds := by
    rw [edgeIds_union, List.mem_eraseDups, List.mem_flatMap]
    exact ⟨s, hs, s.map_key_edges ▸ List.mem_map_of_mem he⟩
  rw [← map_key_edges] at hid
  simpa using hid

theorem Holds.kind_eq {kind kind' : NodeKind} {id : NodeId} (h : s.Holds kind id)
    (h' : s.Holds kind' id) : kind = kind' := by
  obtain ⟨n, hn, rfl⟩ := h
  obtain ⟨n', hn', rfl⟩ := h'
  rw [Option.some.inj (hn.symm.trans hn')]

/-- Under a name stands the same kind of node in the union as in any of the stores. -/
theorem holds_union_iff (hagree : ∀ s ∈ stores, ∀ t ∈ stores, s.Agrees t) {kind : NodeKind}
    {id : NodeId} : (union stores).Holds kind id ↔ ∃ s ∈ stores, s.Holds kind id := by
  constructor
  · rintro ⟨n, hn, hkind⟩
    obtain ⟨s, hs, hn'⟩ := exists_node?_of_union hn
    exact ⟨s, hs, n, hn', hkind⟩
  · rintro ⟨s, hs, n, hn, hkind⟩
    have hheld : id ∈ (union stores).nodeIds := by
      rw [nodeIds_union, List.mem_eraseDups, List.mem_flatMap]
      exact ⟨s, hs, id_of_node? hn ▸ List.mem_map_of_mem (mem_nodes_of_node? hn)⟩
    obtain ⟨m, hm⟩ := Option.isSome_iff_exists.1 (hasNode_iff.2 hheld)
    obtain ⟨t, ht, hm'⟩ := exists_node?_of_union hm
    have hid : m.id = n.id := (id_of_node? hm).trans (id_of_node? hn).symm
    have hsame : m.kind = n.kind := (hagree t ht s hs).kind m (mem_nodes_of_node? hm') n
      (mem_nodes_of_node? hn) hid
    exact ⟨m, hm, hsame.trans hkind⟩

/-- An edge leads from one node to another in the union just when one does in some store. -/
theorem links_union_iff (hagree : ∀ s ∈ stores, ∀ t ∈ stores, s.Agrees t) {x y : NodeId} :
    (union stores).Links x y ↔ ∃ s ∈ stores, s.Links x y := by
  constructor
  · rintro ⟨e, he, hends⟩
    obtain ⟨s, hs, he'⟩ := exists_mem_edges_of_union he
    exact ⟨s, hs, e, he', hends⟩
  · rintro ⟨s, hs, e, he, rfl, rfl⟩
    obtain ⟨e', he', hkey⟩ := exists_mem_edges_union hs he
    obtain ⟨t, ht, het⟩ := exists_mem_edges_of_union he'
    exact ⟨e', he', (hagree t ht s hs).ends e' het e he hkey⟩

end Store

namespace MarkSet

variable {m : MarkSet} {s : Store} {stores : List Store} {id : NodeId} {k : EdgeId}

/-! ## What one store chooses -/

/-- An action leads from a marked state to a marked state. -/
structure Connects (m : MarkSet) (s : Store) (a : NodeId) : Prop where
  action : s.Holds .action a
  source : ∃ x, m.contains x = true ∧ s.Holds .state x ∧ s.Links x a
  target : ∃ y, m.contains y = true ∧ s.Holds .state y ∧ s.Links a y

/-- A node is a marked state or an action between marked states. -/
def Chooses (m : MarkSet) (s : Store) (id : NodeId) : Prop :=
  (s.Holds .state id ∧ m.contains id = true) ∨ m.Connects s id

theorem any_predecessors_iff :
    ((s.predecessors id .state).any fun n => m.contains n.id) = true ↔
      ∃ x, m.contains x = true ∧ s.Holds .state x ∧ s.Links x id := by
  simp only [List.any_eq_true, Store.mem_predecessors_iff]
  constructor
  · rintro ⟨n, ⟨hlinks, hn, hkind⟩, hmarked⟩
    exact ⟨n.id, hmarked, ⟨n, hn, hkind⟩, hlinks⟩
  · rintro ⟨x, hmarked, ⟨n, hn, hkind⟩, hlinks⟩
    obtain rfl := Store.id_of_node? hn
    exact ⟨n, ⟨hlinks, hn, hkind⟩, hmarked⟩

theorem any_successors_iff :
    ((s.successors id .state).any fun n => m.contains n.id) = true ↔
      ∃ y, m.contains y = true ∧ s.Holds .state y ∧ s.Links id y := by
  simp only [List.any_eq_true, Store.mem_successors_iff]
  constructor
  · rintro ⟨n, ⟨hlinks, hn, hkind⟩, hmarked⟩
    exact ⟨n.id, hmarked, ⟨n, hn, hkind⟩, hlinks⟩
  · rintro ⟨y, hmarked, ⟨n, hn, hkind⟩, hlinks⟩
    obtain rfl := Store.id_of_node? hn
    exact ⟨n, ⟨hlinks, hn, hkind⟩, hmarked⟩

theorem keeps_iff {n : Node} (hn : s.node? n.id = some n) :
    m.keeps s n = true ↔ m.Chooses s n.id := by
  have hholds : ∀ kind, s.Holds kind n.id ↔ n.kind = kind := fun kind =>
    ⟨fun h => Store.Holds.kind_eq ⟨n, hn, rfl⟩ h, fun h => ⟨n, hn, h⟩⟩
  unfold keeps Chooses
  cases hkind : n.kind with
  | state =>
    have hnot : ¬m.Connects s n.id := by
      intro h
      exact absurd (hkind.symm.trans ((hholds _).1 h.action)) (by decide)
    simp [hholds, hkind, hnot]
  | action =>
    have hstate : ¬s.Holds .state n.id := by
      intro h
      exact absurd (hkind.symm.trans ((hholds _).1 h)) (by decide)
    simp only [Bool.and_eq_true, any_predecessors_iff, any_successors_iff, hstate, false_and,
      false_or]
    exact ⟨fun ⟨hsource, htarget⟩ => ⟨(hholds _).2 hkind, hsource, htarget⟩,
      fun h => ⟨h.source, h.target⟩⟩

theorem mem_nodeIds_strategyOf : id ∈ (m.strategyOf s).nodes.map Node.id ↔ m.Chooses s id := by
  simp only [strategyOf, List.mem_map, List.mem_filter]
  constructor
  · rintro ⟨n, ⟨hn, hkept⟩, rfl⟩
    exact (keeps_iff (Store.node?_of_mem_nodes hn)).1 hkept
  · intro h
    have hheld : ∃ n, s.node? id = some n := by
      rcases h with ⟨⟨n, hn, -⟩, -⟩ | ⟨⟨n, hn, -⟩, -, -⟩
      · exact ⟨n, hn⟩
      · exact ⟨n, hn⟩
    obtain ⟨n, hn⟩ := hheld
    obtain rfl := Store.id_of_node? hn
    exact ⟨n, ⟨Store.mem_nodes_of_node? hn, (keeps_iff hn).2 h⟩, rfl⟩

theorem mem_edges_strategyOf {e : Edge} :
    e ∈ (m.strategyOf s).edges ↔ e ∈ s.edges ∧ m.Chooses s e.source ∧ m.Chooses s e.target := by
  rw [← mem_nodeIds_strategyOf, ← mem_nodeIds_strategyOf]
  simp only [strategyOf, PaneDocument.edgesBetween, List.mem_filter, Bool.and_eq_true,
    List.any_eq_true, List.mem_map, decide_eq_true_eq]

/-- An edge of a store is chosen if both its ends are. -/
def ChoosesEdge (m : MarkSet) (s : Store) (k : EdgeId) : Prop :=
  ∃ e ∈ s.edges, e.key = k ∧ m.Chooses s e.source ∧ m.Chooses s e.target

theorem mem_keys_strategyOf : k ∈ (m.strategyOf s).edges.map Edge.key ↔ m.ChoosesEdge s k := by
  simp only [List.mem_map, mem_edges_strategyOf, ChoosesEdge, and_assoc, and_comm]

/-! ## What several stores choose -/

/-- The ends of the edges that a store chooses come along with them. -/
theorem joined_strategyOf (t : Store) : t.joined (m.strategyOf s) = (m.strategyOf s).edges := by
  have hheld : ∀ id, m.Chooses s id →
      (t.putNodes (m.strategyOf s).nodes).hasNode id = true := by
    intro id hid
    rw [Store.hasNode_iff, Store.putNodes, Store.nodeIds_foldl_insertNode, List.mem_eraseDups,
      List.mem_append]
    exact .inr (mem_nodeIds_strategyOf.2 hid)
  refine List.filter_eq_self.2 fun e he => ?_
  obtain ⟨-, hsource, htarget⟩ := mem_edges_strategyOf.1 he
  rw [Store.joins, hheld _ hsource, hheld _ htarget]
  rfl

theorem mem_nodeIds_foldl_strategyOf (stores : List Store) (t : Store) :
    id ∈ (stores.foldl (fun out s => out.add (m.strategyOf s)) t).nodeIds ↔
      id ∈ t.nodeIds ∨ ∃ s ∈ stores, m.Chooses s id := by
  induction stores generalizing t with
  | nil => simp
  | cons s stores ih =>
    rw [List.foldl_cons, ih, Store.nodeIds_add_eq, List.mem_eraseDups, List.mem_append,
      mem_nodeIds_strategyOf, or_assoc]
    simp only [List.mem_cons, exists_eq_or_imp]

theorem mem_edgeIds_foldl_strategyOf (stores : List Store) (t : Store) :
    k ∈ (stores.foldl (fun out s => out.add (m.strategyOf s)) t).edgeIds ↔
      k ∈ t.edgeIds ∨ ∃ s ∈ stores, m.ChoosesEdge s k := by
  induction stores generalizing t with
  | nil => simp
  | cons s stores ih =>
    rw [List.foldl_cons, ih, Store.edgeIds_add_eq, List.mem_eraseDups, List.mem_append,
      joined_strategyOf, mem_keys_strategyOf, or_assoc]
    simp only [List.mem_cons, exists_eq_or_imp]

theorem mem_nodeIds_strategy :
    id ∈ (m.strategy stores).nodes.map Node.id ↔ ∃ s ∈ stores, m.Chooses s id :=
  (mem_nodeIds_foldl_strategyOf stores .empty).trans (or_iff_right List.not_mem_nil)

theorem mem_edgeIds_strategy :
    k ∈ (m.strategy stores).edges.map Edge.id ↔ ∃ s ∈ stores, m.ChoosesEdge s k :=
  (mem_edgeIds_foldl_strategyOf stores .empty).trans (or_iff_right List.not_mem_nil)

theorem mem_nodeIds_strategy_singleton :
    id ∈ (m.strategy [s]).nodes.map Node.id ↔ m.Chooses s id := by
  rw [mem_nodeIds_strategy]
  simp

theorem mem_edgeIds_strategy_singleton :
    k ∈ (m.strategy [s]).edges.map Edge.id ↔ m.ChoosesEdge s k := by
  rw [mem_edgeIds_strategy]
  simp

/-! ## Against the union -/

/-- Whatever the union has of a strategy lies together in one store: an action between marked states
is between marked states in some store, and an edge between chosen nodes is held by some store that
chooses both its ends. -/
structure Gathered (m : MarkSet) (stores : List Store) : Prop where
  actions : ∀ a, m.Connects (.union stores) a → ∃ s ∈ stores, m.Connects s a
  edges : ∀ k, m.ChoosesEdge (.union stores) k → ∃ s ∈ stores, m.ChoosesEdge s k

/-- A store chooses no node that the union would not. -/
theorem chooses_union (hagree : ∀ s ∈ stores, ∀ t ∈ stores, s.Agrees t) (hs : s ∈ stores)
    (h : m.Chooses s id) : m.Chooses (.union stores) id := by
  have hholds : ∀ {kind id}, s.Holds kind id → (Store.union stores).Holds kind id :=
    fun h => (Store.holds_union_iff hagree).2 ⟨s, hs, h⟩
  have hlinks : ∀ {x y}, s.Links x y → (Store.union stores).Links x y :=
    fun h => (Store.links_union_iff hagree).2 ⟨s, hs, h⟩
  rcases h with ⟨hstate, hmarked⟩ | ⟨haction, ⟨x, hx, hxs, hxa⟩, y, hy, hys, hay⟩
  · exact .inl ⟨hholds hstate, hmarked⟩
  · exact .inr ⟨hholds haction, ⟨x, hx, hholds hxs, hlinks hxa⟩, y, hy, hholds hys, hlinks hay⟩

theorem choosesEdge_union (hagree : ∀ s ∈ stores, ∀ t ∈ stores, s.Agrees t) (hs : s ∈ stores)
    (h : m.ChoosesEdge s k) : m.ChoosesEdge (.union stores) k := by
  obtain ⟨e, he, rfl, hsource, htarget⟩ := h
  obtain ⟨e', he', hkey⟩ := Store.exists_mem_edges_union hs he
  obtain ⟨t, ht, het⟩ := Store.exists_mem_edges_of_union he'
  obtain ⟨hsource', htarget'⟩ := (hagree t ht s hs).ends e' het e he hkey
  exact ⟨e', he', hkey, hsource' ▸ chooses_union hagree hs hsource,
    htarget' ▸ chooses_union hagree hs htarget⟩

/-- **Stores that agree describe the strategy of their union just when it lies together in them**:
when no action is entered from a marked state in one store only and left to one in another only, and
no edge between chosen nodes lies apart from where both its ends are chosen. -/
theorem sameNames_strategy_iff (m : MarkSet) (stores : List Store)
    (hagree : ∀ s ∈ stores, ∀ t ∈ stores, s.Agrees t) :
    (m.strategy stores).SameNames (m.strategy [.union stores]) ↔ m.Gathered stores := by
  -- What some store chooses is chosen in the union as well; only the converse takes a condition.
  have hnodes : ∀ id, (∃ s ∈ stores, m.Chooses s id) → m.Chooses (.union stores) id :=
    fun id ⟨s, hs, h⟩ => chooses_union hagree hs h
  have hedges : ∀ k, (∃ s ∈ stores, m.ChoosesEdge s k) → m.ChoosesEdge (.union stores) k :=
    fun k ⟨s, hs, h⟩ => choosesEdge_union hagree hs h
  constructor
  · rintro ⟨hsameNodes, hsameEdges⟩
    refine ⟨fun a ha => ?_, fun k hk => ?_⟩
    · have hchosen := (hsameNodes a).2 (mem_nodeIds_strategy_singleton.2 (.inr ha))
      obtain ⟨s, hs, ⟨hstate, -⟩ | hconnects⟩ := mem_nodeIds_strategy.1 hchosen
      · -- What is an action in the union is a state in no store.
        have hunion := (Store.holds_union_iff hagree).2 ⟨s, hs, hstate⟩
        exact absurd (hunion.kind_eq ha.action) (by decide)
      · exact ⟨s, hs, hconnects⟩
    · exact mem_edgeIds_strategy.1 ((hsameEdges k).2 (mem_edgeIds_strategy_singleton.2 hk))
  · rintro ⟨hactions, hsame⟩
    refine ⟨fun id => ?_, fun k => ?_⟩
    · rw [mem_nodeIds_strategy, mem_nodeIds_strategy_singleton]
      refine ⟨hnodes id, ?_⟩
      rintro (⟨hstate, hmarked⟩ | hconnects)
      · obtain ⟨s, hs, hheld⟩ := (Store.holds_union_iff hagree).1 hstate
        exact ⟨s, hs, .inl ⟨hheld, hmarked⟩⟩
      · obtain ⟨s, hs, h⟩ := hactions id hconnects
        exact ⟨s, hs, .inr h⟩
    · rw [mem_edgeIds_strategy, mem_edgeIds_strategy_singleton]
      exact ⟨hedges k, hsame k⟩

/-- Two stores share a marked state; each holds an action between two marked states whole. -/
theorem sameNames_strategy_shared :
    let first := Store.ofFragment
      { nodes := [{ id := ⟨"a"⟩, kind := .state }, { id := ⟨"t0"⟩, kind := .action },
          { id := ⟨"b"⟩, kind := .state }]
        edges := [{ source := ⟨"a"⟩, label := "go", target := ⟨"t0"⟩ },
          { source := ⟨"t0"⟩, label := "go", target := ⟨"b"⟩ }] }
    let second := Store.ofFragment
      { nodes := [{ id := ⟨"b"⟩, kind := .state }, { id := ⟨"t1"⟩, kind := .action },
          { id := ⟨"c"⟩, kind := .state }]
        edges := [{ source := ⟨"b"⟩, label := "go", target := ⟨"t1"⟩ },
          { source := ⟨"t1"⟩, label := "go", target := ⟨"c"⟩ }] }
    let m : MarkSet := ⟨.ofList [⟨"a"⟩, ⟨"b"⟩, ⟨"c"⟩]⟩
    (∀ s ∈ [first, second], ∀ t ∈ [first, second], s.Agrees t) ∧ m.Gathered [first, second] := by
  intro first second m
  have hagree : ∀ s ∈ [first, second], ∀ t ∈ [first, second], s.Agrees t := by decide
  refine ⟨hagree, (sameNames_strategy_iff m [first, second] hagree).1 ?_⟩
  have hnodes : (m.strategy [.union [first, second]]).nodes.map Node.id =
      (m.strategy [first, second]).nodes.map Node.id := by decide
  have hedges : (m.strategy [.union [first, second]]).edges.map Edge.id =
      (m.strategy [first, second]).edges.map Edge.id := by decide
  constructor
  · intro id
    rw [hnodes]
  · intro k
    rw [hedges]

/-- One store holds the way from a marked state to an action, another the way on to a marked state.
Together they lead from marked state to marked state, but neither chooses the action. -/
theorem strategy_misses_split_action :
    let first := Store.ofFragment
      { nodes := [{ id := ⟨"a"⟩, kind := .state }, { id := ⟨"t0"⟩, kind := .action }]
        edges := [{ source := ⟨"a"⟩, label := "go", target := ⟨"t0"⟩ }] }
    let second := Store.ofFragment
      { nodes := [{ id := ⟨"t0"⟩, kind := .action }, { id := ⟨"b"⟩, kind := .state }]
        edges := [{ source := ⟨"t0"⟩, label := "go", target := ⟨"b"⟩ }] }
    let m : MarkSet := ⟨.ofList [⟨"a"⟩, ⟨"b"⟩]⟩
    ¬(m.strategy [first, second]).SameNames (m.strategy [.union [first, second]]) := by
  intro first second m h
  have hunion : (⟨"t0"⟩ : NodeId) ∈
      (m.strategy [.union [first, second]]).nodes.map Node.id := by decide
  have hpanes : (⟨"t0"⟩ : NodeId) ∉ (m.strategy [first, second]).nodes.map Node.id := by decide
  exact hpanes ((h.nodes _).2 hunion)

/-! ## Marked actions -/

/-- The nodes that marks name in stores, and the actions between marked states of one store. -/
def Promises (m : MarkSet) (stores : List Store) (id : NodeId) : Prop :=
  (m.contains id = true ∧ ∃ s ∈ stores, s.hasNode id = true) ∨ ∃ s ∈ stores, m.Connects s id

/-- A marked node that is nowhere a state and nowhere leads from a marked state to a marked state. -/
structure LeavesOut (m : MarkSet) (stores : List Store) (id : NodeId) : Prop where
  marked : m.contains id = true
  held : ∃ s ∈ stores, s.hasNode id = true
  noState : ∀ s ∈ stores, ¬s.Holds .state id
  loose : ∀ s ∈ stores, ¬m.Connects s id

theorem chooses_of_promises (h : m.Promises stores id) (hkept : ¬m.LeavesOut stores id) :
    ∃ s ∈ stores, m.Chooses s id := by
  rcases h with ⟨hmarked, hheld⟩ | ⟨s, hs, hconnects⟩
  · refine Classical.byContradiction fun hnone => ?_
    refine hkept ⟨hmarked, hheld, fun s hs hstate => ?_, fun s hs hconnects => ?_⟩
    · exact hnone ⟨s, hs, .inl ⟨hstate, hmarked⟩⟩
    · exact hnone ⟨s, hs, .inr hconnects⟩
  · exact ⟨s, hs, .inr hconnects⟩

theorem promises_of_chooses {s : Store} (hs : s ∈ stores) (h : m.Chooses s id) :
    m.Promises stores id := by
  rcases h with ⟨⟨n, hn, -⟩, hmarked⟩ | hconnects
  · exact .inl ⟨hmarked, s, hs, Option.isSome_iff_exists.2 ⟨n, hn⟩⟩
  · exact .inr ⟨s, hs, hconnects⟩

theorem not_leavesOut_of_chooses {s : Store} (hs : s ∈ stores) (h : m.Chooses s id) :
    ¬m.LeavesOut stores id := by
  intro hout
  rcases h with ⟨hstate, -⟩ | hconnects
  · exact hout.noState s hs hstate
  · exact hout.loose s hs hconnects

theorem LeavesOut.promises (h : m.LeavesOut stores id) : m.Promises stores id :=
  .inl ⟨h.marked, h.held⟩

/-- **Of what marks promise, the strategy brings along all but the marked actions that lead nowhere
from a marked state to a marked state.**  It keeps the promise in full just when there are none. -/
theorem strategy_leaves_out (m : MarkSet) (stores : List Store) :
    (∀ id, id ∈ (m.strategy stores).nodes.map Node.id ↔
      m.Promises stores id ∧ ¬m.LeavesOut stores id) ∧
    ((∀ id, id ∈ (m.strategy stores).nodes.map Node.id ↔ m.Promises stores id) ↔
      ∀ id, ¬m.LeavesOut stores id) := by
  have hbrings : ∀ id, id ∈ (m.strategy stores).nodes.map Node.id ↔
      m.Promises stores id ∧ ¬m.LeavesOut stores id := by
    intro id
    rw [mem_nodeIds_strategy]
    constructor
    · rintro ⟨s, hs, hchosen⟩
      exact ⟨promises_of_chooses hs hchosen, not_leavesOut_of_chooses hs hchosen⟩
    · exact fun ⟨hpromised, hkept⟩ => chooses_of_promises hpromised hkept
  refine ⟨hbrings, fun hall id hout => ?_, fun hnone id => ?_⟩
  · exact ((hbrings id).1 ((hall id).2 hout.promises)).2 hout
  · rw [hbrings]
    exact and_iff_left (hnone id)

/-- An action between two states is marked and neither of them is: nothing is brought along. -/
theorem strategy_leaves_out_marked_action :
    let s := Store.ofFragment
      { nodes := [{ id := ⟨"s0"⟩, kind := .state }, { id := ⟨"t0"⟩, kind := .action },
          { id := ⟨"s1"⟩, kind := .state }]
        edges := [{ source := ⟨"s0"⟩, label := "go", target := ⟨"t0"⟩ },
          { source := ⟨"t0"⟩, label := "go", target := ⟨"s1"⟩ }] }
    let m : MarkSet := ⟨.ofList [⟨"t0"⟩]⟩
    ¬∀ id, id ∈ (m.strategy [s]).nodes.map Node.id ↔ m.Promises [s] id := by
  intro s m hall
  have hheld : s.hasNode ⟨"t0"⟩ = true := by decide
  have hpromised : m.Promises [s] ⟨"t0"⟩ := .inl ⟨by decide, s, List.mem_singleton_self s, hheld⟩
  have hmissing : (⟨"t0"⟩ : NodeId) ∉ (m.strategy [s]).nodes.map Node.id := by decide
  exact hmissing ((hall _).2 hpromised)

end MarkSet

end StateAtlas
