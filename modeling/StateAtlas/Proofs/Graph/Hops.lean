import StateAtlas.Graph.Exploration
import StateAtlas.Graph.Navigation
/-!
Hops: from a state by an action to a state.

What the ways of navigating a store find is told here by its edges: the next states of sources are
those one hop away from one of them, and the best next state is one hop away.  A trail is a number
of hops in a row that leave only states in which no run of the system ends.

Merging neighbourhoods only adds to a store, so hops, trails and the ends of runs outlast it.
-/

namespace StateAtlas

/-! ## The heaviest of a list -/

theorem heavier_eq (policy : String) (best n : Node) :
    heavier policy best n = best ∨ heavier policy best n = n := by
  unfold heavier
  split
  · exact .inl rfl
  · exact .inr rfl

theorem foldl_heavier_mem (policy : String) (n : Node) (ns : List Node) :
    ns.foldl (heavier policy) n ∈ n :: ns := by
  induction ns generalizing n with
  | nil => exact List.mem_singleton_self n
  | cons m ns ih =>
    rw [List.foldl_cons]
    rcases heavier_eq policy n m with h | h
    · rw [h]
      exact List.cons_subset_cons n (List.subset_cons_self m ns) (ih n)
    · rw [h]
      exact List.mem_cons_of_mem n (ih m)

theorem mem_of_heaviest? {policy : String} {n : Node} {ns : List Node}
    (h : heaviest? policy ns = some n) :
    n ∈ ns := by
  cases ns with
  | nil => nomatch h
  | cons m ns => exact Option.some.inj h ▸ foldl_heavier_mem policy m ns

namespace Store

variable {s t u : Store} {kind : NodeKind} {id x y z : NodeId} {n : Node}

theorem id_of_node? (h : s.node? id = some n) : n.id = id := by
  rw [node?_eq_find?] at h
  simpa using List.find?_some h

/-- Under a name stands a node of a kind. -/
def Holds (s : Store) (kind : NodeKind) (id : NodeId) : Prop :=
  ∃ n, s.node? id = some n ∧ n.kind = kind

theorem holds_state_iff : s.Holds .state id ↔ (s.node? id).any Node.isState = true := by
  simp [Holds, Option.any_eq_true, Node.isState]

/-! ## Edges and hops -/

/-- An edge leads from one node to another. -/
def Links (s : Store) (x y : NodeId) : Prop := ∃ e ∈ s.edges, e.source = x ∧ e.target = y

/-- A state leads by an action to a state. -/
structure Hop (s : Store) (x y : NodeId) : Prop where
  source : s.Holds .state x
  action : ∃ a, s.Links x a ∧ s.Holds .action a ∧ s.Links a y
  target : s.Holds .state y

theorem mem_successors_iff :
    n ∈ s.successors id kind ↔ s.Links id n.id ∧ s.node? n.id = some n ∧ n.kind = kind := by
  simp only [successors, pick, outgoing_eq_filter, List.mem_filter, List.mem_filterMap,
    List.mem_eraseDups, List.mem_map, decide_eq_true_eq]
  constructor
  · rintro ⟨⟨y, ⟨e, ⟨he, hsource⟩, htarget⟩, hn⟩, hkind⟩
    obtain rfl := id_of_node? hn
    exact ⟨⟨e, he, hsource, htarget⟩, hn, hkind⟩
  · rintro ⟨⟨e, he, hsource, htarget⟩, hn, hkind⟩
    exact ⟨⟨n.id, ⟨e, ⟨he, hsource⟩, htarget⟩, hn⟩, hkind⟩

theorem mem_predecessors_iff :
    n ∈ s.predecessors id kind ↔ s.Links n.id id ∧ s.node? n.id = some n ∧ n.kind = kind := by
  simp only [predecessors, pick, incoming_eq_filter, List.mem_filter, List.mem_filterMap,
    List.mem_eraseDups, List.mem_map, decide_eq_true_eq]
  constructor
  · rintro ⟨⟨x, ⟨e, ⟨he, htarget⟩, hsource⟩, hn⟩, hkind⟩
    obtain rfl := id_of_node? hn
    exact ⟨⟨e, he, hsource, htarget⟩, hn, hkind⟩
  · rintro ⟨⟨e, he, hsource, htarget⟩, hn, hkind⟩
    exact ⟨⟨n.id, ⟨e, ⟨he, htarget⟩, hsource⟩, hn⟩, hkind⟩

/-- Whatever stands two successors down from a state is one hop away. -/
theorem hop_of_mem_successors (hx : s.Holds .state x) {a n : Node}
    (ha : a ∈ s.successors x .action) (hn : n ∈ s.successors a.id .state) : s.Hop x n.id := by
  obtain ⟨hxa, hheld, hkind⟩ := mem_successors_iff.1 ha
  obtain ⟨han, hn, hstate⟩ := mem_successors_iff.1 hn
  exact ⟨hx, ⟨a.id, hxa, ⟨a, hheld, hkind⟩, han⟩, ⟨n, hn, hstate⟩⟩

/-- The next states of sources are those one hop away from one of them. -/
theorem mem_nextStates_iff {sources : List NodeId} (h : ∀ x ∈ sources, s.Holds .state x) :
    y ∈ s.nextStates sources ↔ ∃ x ∈ sources, s.Hop x y := by
  simp only [nextStates, List.mem_eraseDups, List.mem_flatMap, List.mem_map]
  constructor
  · rintro ⟨x, hx, a, ha, n, hn, rfl⟩
    exact ⟨x, hx, hop_of_mem_successors (h x hx) ha hn⟩
  · rintro ⟨x, hx, -, ⟨b, hxb, ⟨a, ha, hkind⟩, hby⟩, n, hn, hstate⟩
    obtain rfl := id_of_node? ha
    obtain rfl := id_of_node? hn
    exact ⟨x, hx, a, mem_successors_iff.2 ⟨hxb, ha, hkind⟩, n,
      mem_successors_iff.2 ⟨hby, hn, hstate⟩, rfl⟩

/-! ## Best successors -/

/-- The best next state is one hop away. -/
theorem hop_of_bestNext? {policy : String} (hx : s.Holds .state x)
    (h : s.bestNext? x policy = some y) : s.Hop x y := by
  simp only [bestNext?, Option.bind_eq_bind, Option.bind_eq_some_iff] at h
  obtain ⟨a, ha, n, hn, hy⟩ := h
  obtain rfl := Option.some.inj hy
  exact hop_of_mem_successors hx (mem_of_heaviest? ha) (mem_of_heaviest? hn)

/-! ## Live nodes -/

/-- A node is held and no run of the system ends in it. -/
def Live (s : Store) (id : NodeId) : Prop :=
  ∃ n, s.node? id = some n ∧ n.satisfies Proposition.finished = false

theorem Holds.live_iff (h : s.Holds kind id) : s.Live id ↔ s.isTerminal id = false := by
  obtain ⟨n, hn, -⟩ := h
  simp [Live, isTerminal, hn]

/-! ## Growth -/

/-- Nodes and edges are appended at most. -/
structure GrowsTo (s t : Store) : Prop where
  nodes : s.nodes <+: t.nodes
  edges : s.edges <+: t.edges

namespace GrowsTo

theorem refl (s : Store) : s.GrowsTo s := ⟨List.prefix_rfl, List.prefix_rfl⟩

theorem trans (h : s.GrowsTo t) (h' : t.GrowsTo u) : s.GrowsTo u :=
  ⟨h.nodes.trans h'.nodes, h.edges.trans h'.edges⟩

theorem node? (h : s.GrowsTo t) (hn : s.node? id = some n) : t.node? id = some n := by
  rw [node?_eq_find?] at hn ⊢
  exact h.nodes.find?_eq_some hn

theorem holds (h : s.GrowsTo t) (hid : s.Holds kind id) : t.Holds kind id := by
  obtain ⟨n, hn, hkind⟩ := hid
  exact ⟨n, h.node? hn, hkind⟩

theorem links (h : s.GrowsTo t) (hxy : s.Links x y) : t.Links x y := by
  obtain ⟨e, he, hends⟩ := hxy
  exact ⟨e, h.edges.subset he, hends⟩

theorem hop (h : s.GrowsTo t) (hxy : s.Hop x y) : t.Hop x y := by
  obtain ⟨hx, ⟨a, hxa, ha, hay⟩, hy⟩ := hxy
  exact ⟨h.holds hx, ⟨a, h.links hxa, h.holds ha, h.links hay⟩, h.holds hy⟩

/-- Whether a run of the system ends in a node is settled once the node is held. -/
theorem live_iff (h : s.GrowsTo t) (hid : s.Holds kind id) : t.Live id ↔ s.Live id := by
  obtain ⟨n, hn, -⟩ := hid
  simp only [Live, hn, h.node? hn]

theorem merge (s : Store) (frontier : List NodeId) (g : Fragment) :
    s.GrowsTo (s.merge frontier g) :=
  ⟨s.nodes_isPrefix_add g, s.edges_isPrefix_add g⟩

end GrowsTo

/-! ## Trails -/

/-- A state can be reached from another by a number of hops that leave only states in which no run
of the system ends. -/
inductive Trail (s : Store) (x : NodeId) : Nat → NodeId → Prop
  | start : s.Trail x 0 x
  | hop {k : Nat} {y z : NodeId} :
    s.Trail x k y → s.Live y → s.Hop y z → s.Trail x (k + 1) z

theorem Trail.grow {k : Nat} (h : s.GrowsTo t) (htrail : s.Trail x k y) : t.Trail x k y := by
  induction htrail with
  | start => exact .start
  | hop _ hlive hhop ih => exact .hop ih ((h.live_iff hhop.source).2 hlive) (h.hop hhop)

end Store

end StateAtlas
