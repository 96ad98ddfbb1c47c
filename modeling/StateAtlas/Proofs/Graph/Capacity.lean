import Mathlib.Data.List.Perm.Subperm
import StateAtlas.Proofs.Graph.Union
/-!
The guard of a store's capacity.

Whether a merge would push the nodes on display past the ceiling is foretold from the fragment, before
anything is merged: each new name under which the fragment has a node on display counts once.  In the
store the first node of a name is kept, whatever its kind.  So the forecast is too high where a fragment
has nodes of several kinds under one name, but it is never too low, and it is exact otherwise.

What is held back can be merged later, and comes to what merging it without a ceiling comes to.

Main statement: `commit_within_ceiling_or_held_back`.
-/

namespace StateAtlas

/-- Whether a fragment has nodes of one kind only under each name. -/
def Fragment.Unequivocal (g : Fragment) : Prop :=
  ∀ n ∈ g.nodes, ∀ n' ∈ g.nodes, n.id = n'.id → n.kind = n'.kind

namespace Store

variable {s : Store} {g : Fragment} {mode : DisplayMode}

/-! ## New nodes -/

/-- The nodes that an addition brings. -/
def newNodes (s : Store) (g : Fragment) : List Node := (s.add g).nodes.drop s.nodes.length

theorem nodes_add_eq (s : Store) (g : Fragment) : (s.add g).nodes = s.nodes ++ s.newNodes g := by
  obtain ⟨rest, h⟩ := s.nodes_isPrefix_add g
  rw [newNodes, ← h, List.drop_left]

theorem nodup_newNodes (s : Store) (g : Fragment) : ((s.newNodes g).map Node.id).Nodup := by
  have hall := (s.add g).nodup_nodeIds
  rw [nodeIds, nodes_add_eq, List.map_append] at hall
  exact (List.nodup_append.1 hall).2.1

theorem hasNode_of_mem_nodes {n : Node} (h : n ∈ s.nodes) : s.hasNode n.id = true :=
  hasNode_iff.2 (List.mem_map_of_mem h)

/-- A name is new if the fragment has a node of that name and the store has none; the first such node
comes in. -/
theorem mem_newNodes_iff {n : Node} :
    n ∈ s.newNodes g ↔ s.hasNode n.id = false ∧ g.nodes.find? (fun m => m.id = n.id) = some n := by
  have hnone : s.hasNode n.id = false → s.node? n.id = none := Option.not_isSome_iff_eq_none.1 ∘ by
    rw [Bool.not_eq_true]
    exact id
  constructor
  · intro h
    have hmem : n ∈ (s.add g).nodes := nodes_add_eq s g ▸ List.mem_append_right _ h
    -- The names of a store are distinct, so the new ones are not among the old ones.
    have hnew : s.hasNode n.id = false := by
      rw [Bool.eq_false_iff]
      intro hheld
      have hall := (s.add g).nodup_nodeIds
      rw [nodeIds, nodes_add_eq, List.map_append] at hall
      exact (List.nodup_append.1 hall).2.2 _ (hasNode_iff.1 hheld) _ (List.mem_map_of_mem h) rfl
    have hfound := node?_of_mem_nodes hmem
    rw [node?_add, hnone hnew, Option.none_or] at hfound
    exact ⟨hnew, hfound⟩
  · rintro ⟨hnew, hfound⟩
    have hadded : (s.add g).node? n.id = some n := by
      rw [node?_add, hnone hnew, Option.none_or, hfound]
    have hmem := mem_nodes_of_node? hadded
    rw [nodes_add_eq] at hmem
    refine (List.mem_append.1 hmem).resolve_left fun hheld => ?_
    rw [hasNode_of_mem_nodes hheld] at hnew
    exact absurd hnew (by simp)

/-! ## The forecast -/

/-- The names that a merge is foretold to put on display. -/
def incomingIds (s : Store) (g : Fragment) (mode : DisplayMode) : List NodeId :=
  (((g.nodes.filter fun n => mode.admits n.kind).map Node.id).filter
    fun id => !s.hasNode id).eraseDups

theorem incomingCount_eq (s : Store) (g : Fragment) (mode : DisplayMode) :
    s.incomingCount g mode = (s.incomingIds g mode).length := rfl

theorem mem_incomingIds_iff {id : NodeId} :
    id ∈ s.incomingIds g mode ↔
      s.hasNode id = false ∧ ∃ n ∈ g.nodes, mode.admits n.kind = true ∧ n.id = id := by
  simp only [incomingIds, List.mem_eraseDups, List.mem_filter, List.mem_map, Bool.not_eq_true',
    and_assoc]
  exact and_comm

/-- The names that a merge does put on display. -/
def displayedIds (s : Store) (g : Fragment) (mode : DisplayMode) : List NodeId :=
  ((s.newNodes g).filter fun n => mode.admits n.kind).map Node.id

theorem count_add (s : Store) (g : Fragment) (mode : DisplayMode) :
    (s.add g).count mode = s.count mode + (s.displayedIds g mode).length := by
  rw [count, count, nodes_add_eq, List.countP_append, displayedIds, List.length_map,
    ← List.countP_eq_length_filter]

theorem nodup_displayedIds (s : Store) (g : Fragment) (mode : DisplayMode) :
    (s.displayedIds g mode).Nodup :=
  (s.nodup_newNodes g).sublist (List.filter_sublist.map Node.id)

theorem displayedIds_subset (s : Store) (g : Fragment) (mode : DisplayMode) :
    s.displayedIds g mode ⊆ s.incomingIds g mode := by
  intro id hid
  obtain ⟨n, hn, rfl⟩ := List.mem_map.1 hid
  obtain ⟨hn, hadmits⟩ := List.mem_filter.1 hn
  obtain ⟨hnew, hfound⟩ := mem_newNodes_iff.1 hn
  exact mem_incomingIds_iff.2 ⟨hnew, n, List.mem_of_find?_eq_some hfound, hadmits, rfl⟩

/-- If each name has one kind, the first node of a name is on display if any of them is. -/
theorem incomingIds_subset (hg : g.Unequivocal) (s : Store) (mode : DisplayMode) :
    s.incomingIds g mode ⊆ s.displayedIds g mode := by
  intro id hid
  obtain ⟨hnew, n, hn, hadmits, rfl⟩ := mem_incomingIds_iff.1 hid
  have hsome : (g.nodes.find? fun m => m.id = n.id).isSome = true :=
    List.find?_isSome.2 ⟨n, hn, by simp⟩
  obtain ⟨m, hm⟩ := Option.isSome_iff_exists.1 hsome
  have hid : m.id = n.id := by simpa using List.find?_some hm
  have hkind : m.kind = n.kind := hg m (List.mem_of_find?_eq_some hm) n hn hid
  rw [← hid] at hnew hm ⊢
  exact List.mem_map_of_mem (List.mem_filter.2 ⟨mem_newNodes_iff.2 ⟨hnew, hm⟩, hkind ▸ hadmits⟩)

/-- **The forecast is never too low.** -/
theorem count_add_le (s : Store) (g : Fragment) (mode : DisplayMode) :
    (s.add g).count mode ≤ s.count mode + s.incomingCount g mode := by
  rw [count_add, incomingCount_eq]
  have hle := ((s.nodup_displayedIds g mode).subperm (s.displayedIds_subset g mode)).length_le
  omega

/-- **The forecast is exact** if each name has one kind. -/
theorem count_add_of_unequivocal (hg : g.Unequivocal) (s : Store) (mode : DisplayMode) :
    (s.add g).count mode = s.count mode + s.incomingCount g mode := by
  refine Nat.le_antisymm (s.count_add_le g mode) ?_
  rw [count_add, incomingCount_eq]
  have hnodup : (s.incomingIds g mode).Nodup := nodup_eraseDups _
  have hle := (hnodup.subperm (incomingIds_subset hg s mode)).length_le
  omega

/-! ## Committing -/

/-- A merge is held back if it is foretold to put nodes on display that exceed the ceiling. -/
theorem commit_some_cases (s : Store) (frontier : List NodeId) (g : Fragment) (c : Capacity) :
    (c.ceiling < s.count c.mode + s.incomingCount g c.mode ∧
      s.commit frontier g (some c) = (s, .capacityExceeded ⟨frontier, g, s.count c.mode,
        s.incomingCount g c.mode, c.ceiling⟩)) ∨
    ((s.incomingCount g c.mode = 0 ∨ s.count c.mode + s.incomingCount g c.mode ≤ c.ceiling) ∧
      s.commit frontier g (some c) =
        (s.merge frontier g, .merged (.between s (s.merge frontier g)))) := by
  by_cases h : 0 < s.incomingCount g c.mode ∧
      c.ceiling < s.count c.mode + s.incomingCount g c.mode
  · refine .inl ⟨h.2, ?_⟩
    simp only [commit, exceeds?, Option.bind_some, if_pos h, Option.map_some]
  · refine .inr ⟨by omega, ?_⟩
    simp only [commit, exceeds?, Option.bind_some, if_neg h, Option.map_none, addReporting_eq]
    rfl

/-- **A merge stays within the ceiling or is held back, and then nothing is lost.**  A merge adds the
fragment, records that the frontier is expanded and reports what was added.  After it either there
are no more nodes on display than before, or no more than the ceiling allows.  What is held back
leaves the store as it was and carries the whole frontier and fragment, so that merging it later
comes, in any store, to what committing it there without a ceiling comes to.  And if each name in the
fragment has one kind, nothing is held back without need: merging it would exceed the ceiling. -/
theorem commit_within_ceiling_or_held_back (s : Store) (frontier : List NodeId) (g : Fragment)
    (capacity : Option Capacity) :
    let after := (s.commit frontier g capacity).1
    let outcome := (s.commit frontier g capacity).2
    (∀ delta, outcome = .merged delta →
      after = (s.add g).markExpanded frontier ∧ delta = .between s (s.add g) ∧
      ∀ c ∈ capacity, after.count c.mode ≤ s.count c.mode ∨ after.count c.mode ≤ c.ceiling) ∧
    ∀ pending, outcome = .capacityExceeded pending →
      after = s ∧ pending.frontier = frontier ∧ pending.fetched = g ∧
      (∀ later : Store, later.commit frontier g none =
        ((later.apply pending).1, .merged (later.apply pending).2)) ∧
      ∃ c ∈ capacity, pending.ceiling = c.ceiling ∧
        (g.Unequivocal → c.ceiling < (s.apply pending).1.count c.mode) := by
  intro after outcome
  cases capacity with
  | none =>
    have hcommit : s.commit frontier g none =
        (s.merge frontier g, .merged (.between s (s.merge frontier g))) := s.commit_none frontier g
    have houtcome := congrArg Prod.snd hcommit
    refine ⟨fun delta hdelta => ⟨congrArg Prod.fst hcommit, ?_, fun c hc => absurd hc (by simp)⟩,
      fun pending hpending => absurd (houtcome.symm.trans hpending) (by simp)⟩
    exact (Outcome.merged.inj (houtcome.symm.trans hdelta)).symm
  | some c =>
    -- The forecast is never too low, so what it lets pass stays within the ceiling.
    have hcount : (s.merge frontier g).count c.mode ≤ s.count c.mode + s.incomingCount g c.mode :=
      s.count_add_le g c.mode
    rcases s.commit_some_cases frontier g c with ⟨hexceeds, hcommit⟩ | ⟨hfits, hcommit⟩
    · have hafter : after = s := congrArg Prod.fst hcommit
      have houtcome := congrArg Prod.snd hcommit
      refine ⟨fun delta hdelta => absurd (houtcome.symm.trans hdelta) (by simp),
        fun pending hpending => ?_⟩
      obtain rfl := Outcome.capacityExceeded.inj (houtcome.symm.trans hpending)
      refine ⟨hafter, rfl, rfl, fun _ => rfl, c, rfl, rfl, fun hg => ?_⟩
      -- Where each name has one kind, the forecast is exact.
      have hexact : (s.merge frontier g).count c.mode =
          s.count c.mode + s.incomingCount g c.mode := count_add_of_unequivocal hg s c.mode
      rw [fst_apply, hexact]
      exact hexceeds
    · have hafter : after = s.merge frontier g := congrArg Prod.fst hcommit
      have houtcome := congrArg Prod.snd hcommit
      refine ⟨fun delta hdelta => ⟨hafter, ?_, fun c' hc' => ?_⟩, fun pending hpending => ?_⟩
      · exact (Outcome.merged.inj (houtcome.symm.trans hdelta)).symm
      · obtain rfl := Option.some.inj (Option.mem_def.1 hc')
        rw [hafter]
        omega
      · exact absurd (houtcome.symm.trans hpending) (by simp)

/-- A second state is held back where one may be on display, and the store stays as it is. -/
example :
    let s := ofFragment ⟨[{ id := ⟨"s0"⟩, kind := .state }], []⟩
    let g : Fragment := ⟨[{ id := ⟨"t0"⟩, kind := .action }, { id := ⟨"s1"⟩, kind := .state }], []⟩
    let (after, outcome) := s.commit [⟨"s0"⟩] g (some ⟨1, .states⟩)
    after.nodeIds = [⟨"s0"⟩] ∧
      (outcome.pending?.map fun p => (p.frontier, p.visible, p.incoming)) =
        some ([⟨"s0"⟩], 1, 1) := by
  decide +kernel

end Store

end StateAtlas
