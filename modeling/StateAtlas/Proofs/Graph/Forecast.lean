import StateAtlas.Proofs.Graph.Capacity
/-!
How far the forecast of a merge is off.

The forecast drops the nodes that are not on display and then counts the names that are left, each once.
The merge first keeps one node of each name, the first, and only then shows in what kinds it has kept.
The two differ on a name that the fragment *masks*: its first node of that name is not on display, but
a later one is.  The forecast counts such a name and the merge does not display it.

So the forecast and the masked names tell each other exactly, and it is right, as is the decision to
hold a merge back, just where no new name is masked.

Main statement: `forecast_exact_iff`.
-/

namespace StateAtlas

/-- Whether the first node that a fragment has of a name is not on display while a later one is. -/
def Fragment.Masks (g : Fragment) (mode : DisplayMode) (id : NodeId) : Prop :=
  (∃ n, g.nodes.find? (fun m => m.id = id) = some n ∧ mode.admits n.kind = false) ∧
    ∃ n ∈ g.nodes, mode.admits n.kind = true ∧ n.id = id

/-- Nothing is masked where everything is on display. -/
theorem Fragment.not_masks_both (g : Fragment) (id : NodeId) : ¬ g.Masks .both id :=
  fun ⟨⟨_, _, hhidden⟩, _⟩ => Bool.noConfusion hhidden

/-- Nothing is masked where each name has one kind. -/
theorem Fragment.Unequivocal.not_masks {g : Fragment} (hg : g.Unequivocal) (mode : DisplayMode)
    (id : NodeId) : ¬ g.Masks mode id := by
  rintro ⟨⟨n, hfirst, hhidden⟩, m, hm, hshown, rfl⟩
  have hid : n.id = m.id := by simpa using List.find?_some hfirst
  rw [hg n (List.mem_of_find?_eq_some hfirst) m hm hid, hshown] at hhidden
  exact Bool.noConfusion hhidden

namespace Store

variable {s : Store} {g : Fragment} {mode : DisplayMode}

/-- The names that a merge is foretold to put on display and does not. -/
def maskedIds (s : Store) (g : Fragment) (mode : DisplayMode) : List NodeId :=
  (s.incomingIds g mode).filter fun id => id ∉ s.displayedIds g mode

theorem mem_displayedIds_iff {id : NodeId} :
    id ∈ s.displayedIds g mode ↔ s.hasNode id = false ∧
      ∃ n, g.nodes.find? (fun m => m.id = id) = some n ∧ mode.admits n.kind = true := by
  simp only [displayedIds, List.mem_map, List.mem_filter, mem_newNodes_iff]
  constructor
  · rintro ⟨n, ⟨⟨hnew, hfirst⟩, hshown⟩, rfl⟩
    exact ⟨hnew, n, hfirst, hshown⟩
  · rintro ⟨hnew, n, hfirst, hshown⟩
    obtain rfl : n.id = id := by simpa using List.find?_some hfirst
    exact ⟨n, ⟨⟨hnew, hfirst⟩, hshown⟩, rfl⟩

theorem mem_maskedIds_iff {id : NodeId} :
    id ∈ s.maskedIds g mode ↔ s.hasNode id = false ∧ g.Masks mode id := by
  simp only [maskedIds, List.mem_filter, decide_eq_true_eq, mem_incomingIds_iff,
    mem_displayedIds_iff]
  constructor
  · rintro ⟨⟨hnew, n, hn, hshown, rfl⟩, hnot⟩
    refine ⟨hnew, ?_, n, hn, hshown, rfl⟩
    -- There is a node of that name, so there is a first one.
    obtain ⟨m, hfirst⟩ := Option.isSome_iff_exists.1
      (List.find?_isSome.2 ⟨n, hn, decide_eq_true rfl⟩ :
        (g.nodes.find? fun m => m.id = n.id).isSome = true)
    exact ⟨m, hfirst, Bool.eq_false_iff.2 fun hm => hnot ⟨hnew, m, hfirst, hm⟩⟩
  · rintro ⟨hnew, ⟨m, hfirst, hhidden⟩, hlater⟩
    refine ⟨⟨hnew, hlater⟩, fun ⟨_, m', hfirst', hshown⟩ => ?_⟩
    obtain rfl := Option.some.inj (hfirst.symm.trans hfirst')
    exact Bool.noConfusion (hhidden.symm.trans hshown)

/-- What is foretold is what is displayed and what is masked. -/
theorem incomingCount_eq_displayed_add_masked (s : Store) (g : Fragment) (mode : DisplayMode) :
    s.incomingCount g mode = (s.displayedIds g mode).length + (s.maskedIds g mode).length := by
  have hnodup : (s.incomingIds g mode).Nodup := nodup_eraseDups _
  have hshown : ((s.incomingIds g mode).filter fun id => id ∈ s.displayedIds g mode).Perm
      (s.displayedIds g mode) := by
    refine (List.perm_ext_iff_of_nodup (hnodup.filter _) (s.nodup_displayedIds g mode)).2 fun id => ?_
    simpa using fun h => s.displayedIds_subset g mode h
  rw [incomingCount_eq, List.length_eq_length_filter_add fun id => id ∈ s.displayedIds g mode,
    hshown.length_eq]
  simp [maskedIds]

theorem count_add_masked (s : Store) (g : Fragment) (mode : DisplayMode) :
    s.count mode + s.incomingCount g mode =
      (s.add g).count mode + (s.maskedIds g mode).length := by
  rw [count_add, incomingCount_eq_displayed_add_masked, Nat.add_assoc]

theorem maskedIds_eq_nil_iff :
    s.maskedIds g mode = [] ↔ ∀ id, s.hasNode id = false → ¬ g.Masks mode id := by
  simp only [List.eq_nil_iff_forall_not_mem, mem_maskedIds_iff, not_and]

/-- A merge is held back if it displays or masks new names, and what is then on display together with
what is masked exceeds the ceiling. -/
theorem heldBack_commit_iff (s : Store) (frontier : List NodeId) (g : Fragment) (ceiling : Nat)
    (mode : DisplayMode) :
    (s.commit frontier g (some ⟨ceiling, mode⟩)).2.pending?.isSome = true ↔
      s.count mode < (s.add g).count mode + (s.maskedIds g mode).length ∧
        ceiling < (s.add g).count mode + (s.maskedIds g mode).length := by
  have hcount := s.count_add_masked g mode
  by_cases h : 0 < s.incomingCount g mode ∧ ceiling < s.count mode + s.incomingCount g mode
  · simp only [commit, exceeds?, Option.bind_some, if_pos h, Option.map_some, Outcome.pending?,
      Option.isSome_some, true_iff]
    omega
  · simp only [commit, exceeds?, Option.bind_some, if_neg h, Option.map_none, Outcome.pending?,
      Option.isSome_none, Bool.false_eq_true, false_iff]
    omega

/-- **The forecast is exact just where no new name is masked.**  What is on display before a merge and
what is foretold come to what is on display afterwards and the masked names.  So the forecast is the
number by which the merge raises what is on display if and only if the fragment masks no name that is
new to the store.  And that is just when a merge is held back, for each frontier and each ceiling, if and
only if it would raise what is on display and leave it above the ceiling.  In particular this holds in the
mode that displays everything, and for a fragment that has one kind under each name. -/
theorem forecast_exact_iff (s : Store) (g : Fragment) (mode : DisplayMode) :
    s.count mode + s.incomingCount g mode =
      (s.add g).count mode + (s.maskedIds g mode).length ∧
    ((s.add g).count mode = s.count mode + s.incomingCount g mode ↔
      ∀ id, s.hasNode id = false → ¬ g.Masks mode id) ∧
    ((∀ frontier ceiling,
        (s.commit frontier g (some ⟨ceiling, mode⟩)).2.pending?.isSome = true ↔
          s.count mode < (s.merge frontier g).count mode ∧
            ceiling < (s.merge frontier g).count mode) ↔
      ∀ id, s.hasNode id = false → ¬ g.Masks mode id) ∧
    (mode = .both ∨ g.Unequivocal → ∀ id, s.hasNode id = false → ¬ g.Masks mode id) := by
  have hcount := s.count_add_masked g mode
  have hmerge : ∀ frontier, (s.merge frontier g).count mode = (s.add g).count mode := fun _ => rfl
  refine ⟨hcount, ?_, ?_, ?_⟩
  · rw [← maskedIds_eq_nil_iff, ← List.length_eq_zero_iff]
    omega
  · simp only [heldBack_commit_iff, hmerge]
    rw [← maskedIds_eq_nil_iff]
    constructor
    · -- A ceiling that the merge just meets tells whether there are masked names.
      intro h
      have hmet := h [] ((s.add g).count mode)
      rw [← List.length_eq_zero_iff]
      have hgrows : s.count mode ≤ (s.add g).count mode := by
        rw [count_add]
        exact Nat.le_add_right ..
      omega
    · rintro h frontier ceiling
      rw [h, List.length_nil, Nat.add_zero]
  · rintro (rfl | hg) id -
    · exact g.not_masks_both id
    · exact hg.not_masks mode id

/-- A name comes first as an action and then as a state.  The merge puts no state on display, but one is
foretold, and the merge is held back although it would stay at the ceiling. -/
theorem masked_state_held_back :
    let s := ofFragment ⟨[⟨⟨"s0"⟩, .state, none, ∅, ∅⟩], []⟩
    let g : Fragment := ⟨[⟨⟨"x"⟩, .action, none, ∅, ∅⟩, ⟨⟨"x"⟩, .state, none, ∅, ∅⟩], []⟩
    s.count .states = 1 ∧ s.incomingCount g .states = 1 ∧
      (s.merge [⟨"s0"⟩] g).count .states = 1 ∧
      (s.commit [⟨"s0"⟩] g (some ⟨1, .states⟩)).2.pending?.isSome = true := by
  decide +kernel

end Store

end StateAtlas
