import StateAtlas.Proofs.Graph.Growth
import StateAtlas.Graph.Exploration
/-!
Nodes whose neighbourhood is known.

A node is collapsed as long as its neighbourhood was not merged and no edge leaves it.  Both are
matters of what the tables hold, and every change of a store comes down to changes of its tables
that lose nothing.  So a node that is not collapsed never is again, whatever happens to the store
in the meantime, and no plan contains it: its neighbourhood is fetched once, even if there was
nothing to be found.

Main statement: `never_fetched_again`.
-/

namespace StateAtlas

/-- A change of a store. -/
inductive StoreChange
  | add (g : Fragment)
  | absorb (other : Store)
  | markExpanded (ids : List NodeId)
  | refresh (fresh : List Node)
  | commit (frontier : List NodeId) (g : Fragment) (capacity : Option Capacity)
  | apply (pending : Pending)

namespace Store

variable {s t : Store} {id : NodeId}

/-- Carries out a change. -/
def change (s : Store) : StoreChange → Store
  | .add g => s.add g
  | .absorb other => s.absorb other
  | .markExpanded ids => s.markExpanded ids
  | .refresh fresh => s.refresh fresh
  | .commit frontier g capacity => (s.commit frontier g capacity).1
  | .apply pending => (s.apply pending).1

/-- Carries out changes, one after the other. -/
def changeAll (s : Store) (changes : List StoreChange) : Store := changes.foldl change s

/-! ## What is held stays held -/

theorem continuedBy_merge (s : Store) (frontier : List NodeId) (g : Fragment) :
    s.tables.ContinuedBy (s.merge frontier g).tables :=
  (StoreTables.ContinuedBy.grow s.tables (.add g)).trans
    (StoreTables.ContinuedBy.grow _ (.markExpanded frontier))

/-- One change of a store loses nothing. -/
theorem continuedBy_change (s : Store) (c : StoreChange) :
    s.tables.ContinuedBy (s.change c).tables := by
  cases c with
  | add g => exact .grow s.tables (.add g)
  | absorb other => exact .grow s.tables (.absorb other.tables)
  | markExpanded ids => exact .grow s.tables (.markExpanded ids)
  | refresh fresh => exact .grow s.tables (.refresh fresh)
  | commit frontier g capacity =>
    rcases s.commit_cases frontier g capacity with ⟨p, h, -, -⟩ | h
    · rw [change, h]
      exact .rfl s.tables
    · rw [change, h]
      exact s.continuedBy_merge frontier g
  | apply pending =>
    rw [change, fst_apply]
    exact s.continuedBy_merge pending.frontier pending.fetched

theorem continuedBy_changeAll (s : Store) (changes : List StoreChange) :
    s.tables.ContinuedBy (s.changeAll changes).tables := by
  induction changes generalizing s with
  | nil => exact .rfl s.tables
  | cons c changes ih => exact (s.continuedBy_change c).trans (ih (s.change c))

theorem hasNode_of_continuedBy (h : s.tables.ContinuedBy t.tables) (hid : s.hasNode id = true) :
    t.hasNode id = true := by
  obtain ⟨n, hn⟩ := Option.isSome_iff_exists.1 hid
  obtain ⟨n', hn', -⟩ := h.node hn
  exact Option.isSome_iff_exists.2 ⟨n', hn'⟩

/-! ## Collapsed nodes -/

/-- A node is not collapsed if its neighbourhood was merged or an edge leaves it. -/
theorem isCollapsed_eq_false_iff :
    s.isCollapsed id = false ↔
      s.tables.expanded.contains id = true ∨ ∃ e ∈ s.edges, e.source = id := by
  have hleaving : ((s.tables.leaving.get? id).getD []).isEmpty = false ↔
      ∃ e ∈ s.edges, e.source = id := by
    rw [s.consistent.lists_leaving id, List.isEmpty_eq_false_iff_exists_mem]
    constructor
    · rintro ⟨k, hk⟩
      obtain ⟨hk, hsource⟩ := List.mem_filter.1 hk
      obtain ⟨e, he, hsource⟩ := (Option.any_eq_true _ _).1 hsource
      exact ⟨e, List.mem_filterMap.2 ⟨k, hk, he⟩, by simpa using hsource⟩
    · rintro ⟨e, he, rfl⟩
      obtain ⟨k, hk, hget⟩ := List.mem_filterMap.1 he
      exact ⟨k, List.mem_filter.2 ⟨hk, by simp [hget]⟩⟩
  rw [isCollapsed, Bool.and_eq_false_iff, Bool.not_eq_false', hleaving]

/-- A node that is not collapsed stays so while nothing is lost. -/
theorem isCollapsed_of_continuedBy (h : s.tables.ContinuedBy t.tables)
    (hid : s.isCollapsed id = false) : t.isCollapsed id = false := by
  rcases isCollapsed_eq_false_iff.1 hid with hmarked | ⟨e, he, hsource⟩
  · exact isCollapsed_eq_false_iff.2 (.inl (h.expanded hmarked))
  · have hedges := h.edges_isPrefix s.consistent
    exact isCollapsed_eq_false_iff.2 (.inr ⟨e, hedges.subset he, hsource⟩)

/-- Only a node that is held can have been expanded or be left by an edge. -/
theorem hasNode_of_isCollapsed_eq_false (h : s.isCollapsed id = false) : s.hasNode id = true := by
  rcases isCollapsed_eq_false_iff.1 h with hmarked | ⟨e, he, rfl⟩
  · exact s.consistent.expanded_held hmarked
  · exact (hasNode_ends_of_mem_edges he).1

/-- **Of the nodes of a frontier, merging their neighbourhoods leaves just those collapsed that are not
held** even then. -/
theorem isCollapsed_merge_iff {frontier : List NodeId} (hmem : id ∈ frontier) (g : Fragment) :
    (s.merge frontier g).isCollapsed id = false ↔ (s.merge frontier g).hasNode id = true := by
  refine ⟨hasNode_of_isCollapsed_eq_false, fun hheld => isCollapsed_eq_false_iff.2 (.inl ?_)⟩
  exact (OrderedSet.contains_insertMany ..).2 (.inl (List.mem_filter.2 ⟨hmem, hheld⟩))

/-- Merging neighbourhoods leaves none of the held nodes of the frontier collapsed. -/
theorem isCollapsed_merge {frontier : List NodeId} (hmem : id ∈ frontier)
    (hheld : s.hasNode id = true) (g : Fragment) : (s.merge frontier g).isCollapsed id = false :=
  (isCollapsed_merge_iff hmem g).2 (hasNode_of_continuedBy (s.continuedBy_merge frontier g) hheld)

/-! ## Plans -/

theorem mem_plan_iff {frontier : List NodeId} :
    id ∈ s.plan frontier ↔ id ∈ frontier ∧ s.hasNode id = true ∧ s.isCollapsed id = true := by
  simp [plan]

theorem plan_eq_nil {frontier : List NodeId} (h : ∀ id ∈ frontier, s.isCollapsed id = false) :
    s.plan frontier = [] := by
  refine List.eq_nil_iff_forall_not_mem.2 fun id hid => ?_
  obtain ⟨hmem, -, hcollapsed⟩ := mem_plan_iff.1 hid
  simp [h id hmem] at hcollapsed

/-- An expansion with nothing to plan asks for nothing and changes nothing. -/
theorem expand_of_plan_eq_nil {m : Type → Type} [Monad m] (backend : Backend m)
    {frontier : List NodeId} (h : s.plan frontier = []) (capacity : Option Capacity) :
    backend.expand s frontier capacity = pure (s, .ok (.merged {})) := by
  simp [Backend.expand, h]

theorem fst_commit_of_merged {frontier : List NodeId} {g : Fragment} {capacity : Option Capacity}
    {delta : Delta} (h : (s.commit frontier g capacity).2 = .merged delta) :
    (s.commit frontier g capacity).1 = s.merge frontier g := by
  rcases s.commit_cases frontier g capacity with ⟨p, hcommit, -, -⟩ | hcommit
  · rw [hcommit] at h
    nomatch h
  · rw [hcommit]

/-- **A merged neighbourhood is never fetched again.**  Whatever changes a store goes through, a node
that was not collapsed stays so, and expanding any frontier of such nodes asks the backend for nothing,
whatever the backend, leaves the store alone and reports nothing new.  In particular, once the answer
for planned nodes has been merged, even if it was empty and even if the store changed while the answer
was on its way, none of them is collapsed or planned ever after. -/
theorem never_fetched_again (s : Store) (changes : List StoreChange) :
    let met := s.changeAll changes
    (∀ id, s.isCollapsed id = false → met.isCollapsed id = false) ∧
    (∀ frontier : List NodeId, (∀ id ∈ frontier, s.isCollapsed id = false) →
      ∀ {m : Type → Type} [Monad m] (backend : Backend m) (capacity : Option Capacity),
        backend.expand met frontier capacity = pure (met, .ok (.merged {}))) ∧
    ∀ (frontier : List NodeId) (g : Fragment) (capacity : Option Capacity) (delta : Delta),
      (met.commit (s.plan frontier) g capacity).2 = .merged delta →
      ∀ more : List StoreChange,
        let later := (met.commit (s.plan frontier) g capacity).1.changeAll more
        (∀ id ∈ s.plan frontier, later.hasNode id = true ∧ later.isCollapsed id = false ∧
          ∀ frontier', id ∉ later.plan frontier') ∧
        ∀ again ⊆ s.plan frontier,
          ∀ {m : Type → Type} [Monad m] (backend : Backend m) (capacity : Option Capacity),
            backend.expand later again capacity = pure (later, .ok (.merged {})) := by
  intro met
  have hmet : s.tables.ContinuedBy met.tables := s.continuedBy_changeAll changes
  have hstays : ∀ id, s.isCollapsed id = false → met.isCollapsed id = false :=
    fun id => isCollapsed_of_continuedBy hmet
  refine ⟨hstays, fun frontier hfrontier _ _ backend capacity => ?_,
    fun frontier g capacity delta hmerged more => ?_⟩
  · have hopen : ∀ id ∈ frontier, met.isCollapsed id = false :=
      fun id hid => hstays id (hfrontier id hid)
    exact expand_of_plan_eq_nil backend (plan_eq_nil hopen) capacity
  intro later
  have hlater : later = (met.merge (s.plan frontier) g).changeAll more := by
    rw [← fst_commit_of_merged hmerged]
  have hmore : (met.merge (s.plan frontier) g).tables.ContinuedBy later.tables := by
    rw [hlater]
    exact continuedBy_changeAll _ more
  have hknown : ∀ id ∈ s.plan frontier, later.hasNode id = true ∧ later.isCollapsed id = false := by
    intro id hid
    obtain ⟨-, hheld, -⟩ := mem_plan_iff.1 hid
    have hheldMet := hasNode_of_continuedBy hmet hheld
    exact ⟨hasNode_of_continuedBy ((met.continuedBy_merge _ g).trans hmore) hheldMet,
      isCollapsed_of_continuedBy hmore (isCollapsed_merge hid hheldMet g)⟩
  refine ⟨fun id hid => ⟨(hknown id hid).1, (hknown id hid).2, fun frontier' hplanned => ?_⟩,
    fun again hagain _ _ backend capacity => ?_⟩
  · obtain ⟨-, -, hcollapsed⟩ := mem_plan_iff.1 hplanned
    exact absurd ((hknown id hid).2.symm.trans hcollapsed) (by simp)
  · exact expand_of_plan_eq_nil backend
      (plan_eq_nil fun id hid => (hknown id (hagain hid)).2) capacity

end Store

end StateAtlas
