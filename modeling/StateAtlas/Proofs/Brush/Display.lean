import StateAtlas.Proofs.Brush.Growth
/-!
Which dimensions are on display, and how often.

The display order is a list of names.  It outlives projections and is taken over with a state, so it
may hold keys of dimensions that are hidden, bare names, and repetitions.  Taking over a state puts
one key for all that stands for a dimension under its bare name and adds the keys that are missing, so
no dimension is left out.  But a key that stands in the order several times stays there as often, and
the dimension is displayed as often.

What is counted here is how often a name stands in the display order.  Nothing makes that more than
once unless the state that was taken over last did.

Main statement: `displays_each`.
-/

namespace StateAtlas

/-- The state that a brush goes on from: the one that the command brings, or else the one before. -/
def BrushCommand.taken (state : BrushState Float) : BrushCommand → BrushState Float
  | .replaceState brought => brought
  | _ => state

namespace Brush

/-! ## What is displayed -/

section

variable {α : Type} {b : Brush α} {d : Dimension α}

theorem mem_displayed_iff (hnodup : (b.dimensions.map Dimension.key).Nodup) :
    d ∈ b.displayed ↔ d ∈ b.dimensions ∧ d.key ∈ b.state.order := by
  rw [displayed, List.mem_filterMap]
  constructor
  · rintro ⟨key, hkey, hfind⟩
    obtain rfl : d.key = key := by simpa using List.find?_some hfind
    exact ⟨List.mem_of_find?_eq_some hfind, hkey⟩
  · rintro ⟨hd, hkey⟩
    exact ⟨d.key, hkey, find?_name hnodup hd⟩

/-- A dimension is displayed as often as its key stands in the display order. -/
theorem count_displayed (hd : d ∈ b.dimensions) :
    (b.displayed.map Dimension.key).count d.key = b.state.order.count d.key := by
  rw [displayed]
  induction b.state.order with
  | nil => rfl
  | cons key order ih =>
    rw [List.filterMap_cons]
    cases hfind : b.dimensions.find? fun d => d.key = key with
    | none =>
      have hne : key ≠ d.key := by
        rintro rfl
        simpa using List.find?_eq_none.1 hfind d hd
      rw [List.count_cons_of_ne hne]
      exact ih
    | some d' =>
      obtain rfl : d'.key = key := by simpa using List.find?_some hfind
      rw [List.map_cons, List.count_cons, List.count_cons, ih]

/-- **The display lists each dimension just once if and only if its key stands in the display order
just once.** -/
theorem displayed_perm_iff (hnodup : (b.dimensions.map Dimension.key).Nodup) :
    b.displayed.Perm b.dimensions ↔ ∀ d ∈ b.dimensions, b.state.order.count d.key = 1 := by
  have honce : ∀ d ∈ b.dimensions, (b.dimensions.map Dimension.key).count d.key = 1 :=
    fun d hd => List.count_eq_one_of_mem hnodup (List.mem_map_of_mem hd)
  constructor
  · intro hperm d hd
    rw [← count_displayed hd, (hperm.map Dimension.key).count_eq, honce d hd]
  · intro hcount
    have hkeys : (b.displayed.map Dimension.key).Perm (b.dimensions.map Dimension.key) := by
      refine List.perm_iff_count.2 fun key => ?_
      by_cases hkey : key ∈ b.dimensions.map Dimension.key
      · obtain ⟨d, hd, rfl⟩ := List.mem_map.1 hkey
        rw [count_displayed hd, hcount d hd, honce d hd]
      · have hshown : key ∉ b.displayed.map Dimension.key := by
          intro hmem
          obtain ⟨d, hd, rfl⟩ := List.mem_map.1 hmem
          exact hkey (List.mem_map_of_mem ((mem_displayed_iff hnodup).1 hd).1)
        rw [List.count_eq_zero.2 hkey, List.count_eq_zero.2 hshown]
    -- Distinct keys tell which dimensions they are of.
    have hfound := hkeys.filterMap fun key => b.dimensions.find? fun d => d.key = key
    rwa [filterMap_find?_names hnodup fun d hd => ((mem_displayed_iff hnodup).1 hd).1,
      filterMap_find?_names hnodup (List.Subset.refl _)] at hfound

end

/-! ## Names in the display order -/

section

variable {α : Type} {b : Brush α} {d : Dimension α} {name : String}

/-- A key that is put for a bare name comes to stand once. -/
theorem count_order_qualify_le (state : BrushState α) (old key : String) :
    (qualify state old key).order.count name ≤ max 1 (state.order.count name) := by
  by_cases hkey : key = name
  · subst hkey
    rw [qualify]
    dsimp only
    split
    next => exact Nat.le_trans (List.filter_sublist.count_le key) (Nat.le_max_right ..)
    next hnot =>
      -- The key stands nowhere, and it takes the place of the first bare name only.
      have hnone : state.order.count key = 0 :=
        List.count_eq_zero.2 fun hmem => hnot (List.contains_iff_mem.2 hmem)
      rw [List.count_replace, hnone]
      split <;> simp
  · exact Nat.le_trans (count_order_qualify hkey)
      (Nat.le_trans (Nat.sub_le ..) (Nat.le_max_right ..))

/-- Putting a key for a bare name takes out that name only. -/
theorem le_count_order_qualify {old : String} (hold : old ≠ name) (state : BrushState α)
    (key : String) : state.order.count name ≤ (qualify state old key).order.count name := by
  rw [qualify]
  dsimp only
  split
  · exact Nat.le_of_eq (List.count_filter (by simpa using hold.symm)).symm
  · rw [List.count_replace]
    split
    · simp [hold]
    · exact Nat.le_refl _

theorem count_order_foldl_qualify_le (names : List (String × String)) (state : BrushState α) :
    (names.foldl (fun s (old, key) => qualify s old key) state).order.count name ≤
      max 1 (state.order.count name) := by
  induction names generalizing state with
  | nil => exact Nat.le_max_right ..
  | cons bare names ih =>
    refine Nat.le_trans (ih (qualify state bare.1 bare.2)) (Nat.max_le.2 ⟨Nat.le_max_left .., ?_⟩)
    exact count_order_qualify_le state bare.1 bare.2

theorem le_count_order_foldl_qualify {names : List (String × String)}
    (hnames : ∀ bare ∈ names, bare.1 ≠ name) (state : BrushState α) :
    state.order.count name ≤
      (names.foldl (fun s (old, key) => qualify s old key) state).order.count name := by
  induction names generalizing state with
  | nil => exact Nat.le_refl _
  | cons bare names ih =>
    obtain ⟨hbare, hnames⟩ := List.forall_mem_cons.1 hnames
    exact Nat.le_trans (le_count_order_qualify hbare state bare.2) (ih hnames _)

/-- A name that is added where it is missing stands once at least. -/
theorem count_addMissing (order : List String) (key : String) :
    (if order.contains key then order else order ++ [key]).count name =
      if key = name then max 1 (order.count name) else order.count name := by
  by_cases hkey : key = name
  · subst hkey
    rw [if_pos rfl]
    split
    next hlisted =>
      have hpos : 0 < order.count key := List.count_pos_iff.2 (List.contains_iff_mem.1 hlisted)
      omega
    next hnot =>
      have hnone : order.count key = 0 :=
        List.count_eq_zero.2 fun hmem => hnot (List.contains_iff_mem.2 hmem)
      simp [hnone]
  · rw [if_neg hkey]
    split <;> simp [hkey]

/-- Keys of dimensions are added where they are missing, and nothing else is. -/
theorem count_orderDimensions (dimensions : List (Dimension α)) (order : List String) :
    (orderDimensions dimensions order).count name =
      if name ∈ dimensions.map Dimension.key then max 1 (order.count name)
      else order.count name := by
  rw [orderDimensions]
  induction dimensions generalizing order with
  | nil => simp
  | cons d dimensions ih =>
    rw [List.foldl_cons, ih, count_addMissing]
    by_cases hd : d.key = name
    · rw [if_pos hd, if_pos (List.mem_map.2 ⟨d, List.mem_cons_self, hd⟩)]
      split <;> omega
    · simp [hd, Ne.symm hd]

/-- The key of a dimension is no bare name. -/
theorem ne_key_of_mem_bareNames (hd : d ∈ b.dimensions) {bare : String × String}
    (h : bare ∈ b.bareNames) : bare.1 ≠ d.key := by
  obtain ⟨name, -, hbare⟩ := List.mem_filterMap.1 h
  obtain ⟨d', hd', hkey⟩ := Option.bind_eq_some_iff.1 hbare
  split at hkey
  next => cases hkey
  next hne =>
    cases hkey
    rintro rfl
    exact hne (isKey_key hd d' hd')

/-- Taking over a state repeats no name that the state does not repeat. -/
theorem count_order_adopt_le (b : Brush α) (state : BrushState α) :
    (b.adopt state).state.order.count name ≤ max 1 (state.order.count name) := by
  have hqualified : _ ≤ max 1 (state.order.count name) :=
    count_order_foldl_qualify_le ({ b with state } : Brush α).bareNames state
  refine Nat.le_trans (Nat.le_of_eq (count_orderDimensions ..)) ?_
  split
  · exact Nat.max_le.2 ⟨Nat.le_max_left .., hqualified⟩
  · exact hqualified

/-- **The key of a dimension stands in the order that is taken over as often as before, but at least
once.** -/
theorem count_order_adopt (state : BrushState α) (hd : d ∈ b.dimensions) :
    (b.adopt state).state.order.count d.key = max 1 (state.order.count d.key) := by
  refine Nat.le_antisymm (b.count_order_adopt_le state) ?_
  have hbare : ∀ bare ∈ ({ b with state } : Brush α).bareNames, bare.1 ≠ d.key :=
    fun bare => ne_key_of_mem_bareNames (b := { b with state }) hd
  have hkept := le_count_order_foldl_qualify hbare state
  rw [adopt]
  dsimp only
  rw [count_orderDimensions, if_pos (List.mem_map_of_mem hd)]
  exact Nat.max_le.2 ⟨Nat.le_max_left .., Nat.le_trans hkept (Nat.le_max_right ..)⟩

end

/-! ## Runs -/

variable {b : Brush Float} {name : String}

/-- **No command repeats a name that the state does not repeat that the brush goes on from.** -/
theorem count_order_execute_le (b : Brush Float) (c : BrushCommand) :
    (b.execute c).1.state.order.count name ≤ max 1 ((c.taken b.state).order.count name) := by
  cases hc : c.isProjection with
  | true =>
    cases c with
    | project s mode details schema => exact count_order_adopt_le _ b.state
    | _ => cases hc
  | false =>
    by_cases hstate : ∃ state, c = .replaceState state
    · obtain ⟨state, rfl⟩ := hstate
      exact b.count_order_adopt_le state
    · have hperm := b.perm_order_execute hc fun state heq => hstate ⟨state, heq⟩
      have htaken : c.taken b.state = b.state := by
        cases c with
        | replaceState state => exact absurd ⟨state, rfl⟩ hstate
        | _ => rfl
      rw [hperm.count_eq, htaken]
      exact Nat.le_max_right ..

theorem count_order_run_le {state : BrushState Float}
    (h : b.state.order.count name ≤ max 1 (state.order.count name))
    (commands : List BrushCommand) :
    (b.run commands).state.order.count name ≤
      max 1 ((commands.foldl BrushCommand.taken state).order.count name) := by
  -- `state` is what was taken over last so far; the bound by it is what a command hands on.
  induction commands generalizing b state with
  | nil => exact h
  | cons c commands ih =>
    refine ih ?_
    have hstep : _ ≤ max 1 ((c.taken b.state).order.count name) := b.count_order_execute_le c
    cases c with
    | replaceState brought => exact hstep
    | _ =>
      simp only [BrushCommand.taken] at hstep ⊢
      omega

/-- What holds of a brush whatever was asked of it: its dimensions have distinct keys, and its state
goes by these. -/
structure Keyed (b : Brush Float) : Prop where
  nodup_keys : (b.dimensions.map Dimension.key).Nodup
  normal : b.Normal

theorem keyed_start (pane : PaneId) (state : BrushState Float) (window : Nat) :
    (start pane state window).Keyed :=
  ⟨List.nodup_nil, normal_of_no_dimensions rfl⟩

theorem Keyed.execute (h : b.Keyed) (c : BrushCommand) : (b.execute c).1.Keyed := by
  cases hc : c.isProjection with
  | true =>
    cases c with
    | project s mode details schema =>
      have hkeys : ((b.projectStore s mode details schema).dimensions.map Dimension.key).Nodup := by
        rw [map_key_eq_attributes]
        exact b.nodup_keys_project _ _
      exact ⟨hkeys, b.normal_projectStore s mode details schema⟩
    | _ => cases hc
  | false => exact ⟨(b.sameRows_execute hc).dimensions_eq.symm ▸ h.nodup_keys, h.normal.execute hc⟩

theorem Keyed.run (h : b.Keyed) (commands : List BrushCommand) : (b.run commands).Keyed := by
  induction commands generalizing b with
  | nil => exact h
  | cons c commands ih => exact ih (h.execute c)

/-- No dimension is left out of the display. -/
theorem Keyed.mem_displayed_iff (h : b.Keyed) {d : Dimension Float} :
    d ∈ b.displayed ↔ d ∈ b.dimensions := by
  rw [Brush.mem_displayed_iff h.nodup_keys]
  exact and_iff_left_of_imp (h.normal.mem_order d)

/-- Each dimension is displayed once, unless its key is repeated in the display order. -/
theorem Keyed.displayed_perm_iff (h : b.Keyed) :
    b.displayed.Perm b.dimensions ↔ ∀ d ∈ b.dimensions, b.state.order.count d.key ≤ 1 := by
  rw [Brush.displayed_perm_iff h.nodup_keys]
  refine forall₂_congr fun d hd => ?_
  have hpos : 0 < b.state.order.count d.key := List.count_pos_iff.2 (h.normal.mem_order d hd)
  omega

/-- **Every dimension is displayed, and just once unless the state that was taken over last repeats
its key.**  Whatever was asked of a brush: the display lists all dimensions and nothing else, none of
them more often than the state taken over last lists its key or than once.  If that state repeats no
key of a dimension, whatever bare or foreign names it repeats, the display lists each dimension just
once.  Right after a state is taken over, the display lists each dimension as often as that state lists
its key, but at least once; so it lists each just once only if the state repeats no key. -/
theorem displays_each (pane : PaneId) (state : BrushState Float) (window : Nat)
    (commands : List BrushCommand) :
    let b := (start pane state window).run commands
    let taken := commands.foldl BrushCommand.taken state
    (∀ d, d ∈ b.displayed ↔ d ∈ b.dimensions) ∧
    (∀ d ∈ b.dimensions,
      (b.displayed.map Dimension.key).count d.key ≤ max 1 (taken.order.count d.key)) ∧
    ((∀ d ∈ b.dimensions, taken.order.count d.key ≤ 1) → b.displayed.Perm b.dimensions) ∧
    ∀ brought : BrushState Float,
      let b' := (b.execute (.replaceState brought)).1
      (∀ d ∈ b'.dimensions,
        (b'.displayed.map Dimension.key).count d.key = max 1 (brought.order.count d.key)) ∧
      (b'.displayed.Perm b'.dimensions ↔ ∀ d ∈ b'.dimensions, brought.order.count d.key ≤ 1) := by
  intro b taken
  have hkeyed : b.Keyed := (keyed_start pane state window).run commands
  -- Only a state that is taken over can bring repeated keys; no command repeats one by itself.
  have hcount : ∀ key, b.state.order.count key ≤ max 1 (taken.order.count key) :=
    fun key => count_order_run_le (b := start pane state window) (Nat.le_max_right ..) commands
  refine ⟨fun d => hkeyed.mem_displayed_iff, fun d hd => ?_, fun honce => ?_, fun brought => ?_⟩
  · rw [count_displayed hd]
    exact hcount d.key
  · refine hkeyed.displayed_perm_iff.2 fun d hd => ?_
    have hle := hcount d.key
    have hone := honce d hd
    omega
  · intro b'
    have hadopted : ∀ d ∈ b'.dimensions,
        b'.state.order.count d.key = max 1 (brought.order.count d.key) :=
      fun d hd => count_order_adopt (b := b) brought hd
    refine ⟨fun d hd => (count_displayed hd).trans (hadopted d hd), ?_⟩
    rw [(hkeyed.execute (.replaceState brought)).displayed_perm_iff]
    refine forall₂_congr fun d hd => ?_
    rw [hadopted d hd]
    omega

/-- A state that lists the key of a dimension twice: the dimension is displayed twice. -/
theorem displays_twice :
    let n : Node :=
      { id := ⟨"a"⟩, kind := .state
        attributes := .ofList [("flags", .ofList [("on", .bool true)])] }
    let b := (start ⟨"pane-0"⟩ {} 0).run
      [.project (.ofFragment ⟨[n], []⟩) .states {} {},
        .replaceState { order := ["flags/on", "flags/on"] }]
    b.dimensions.map Dimension.key = ["flags/on"] ∧
      b.displayed.map Dimension.key = ["flags/on", "flags/on"] ∧
      ¬b.displayed.Perm b.dimensions := by
  intro n b
  have hdimensions : b.dimensions.map Dimension.key = ["flags/on"] := by decide +kernel
  have hdisplayed : b.displayed.map Dimension.key = ["flags/on", "flags/on"] := by decide +kernel
  refine ⟨hdimensions, hdisplayed, fun hperm => ?_⟩
  have hlength := (hperm.map Dimension.key).length_eq
  rw [hdimensions, hdisplayed] at hlength
  exact absurd hlength (by decide)

end Brush

end StateAtlas
