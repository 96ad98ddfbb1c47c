import StateAtlas.Pane.Table
/-!
The lineage of panes.

A pane lists the panes that it was spawned from, and each of those lists it among the panes that it
spawned.  `Linked` says that both sides agree, that both orders of the table list the live panes, and
that there is no cycle: a rank increases from each pane to those spawned from it.  The rank is no
part of the table.  In the order of creation it cannot be found, because of panes that are copied
together a child can be copied before its parent; but a copy can always have the rank of its source.

Removing a pane and putting in a new one keep a table linked.
-/

namespace StateAtlas.PaneTable

variable {t u : PaneTable} {rank : PaneId → Nat}

/-- Whether the second pane was spawned from the first. -/
def Spawns (t : PaneTable) (parent child : PaneId) : Prop :=
  ∃ p, t.pane? child = some p ∧ parent ∈ p.spawners

/-- Both orders list the live panes, spawners and spawned panes agree, and a rank increases along
the lineage. -/
structure Linked (t : PaneTable) (rank : PaneId → Nat) : Prop where
  nodup_ids : t.ids.Nodup
  mem_ids : ∀ id, id ∈ t.ids ↔ t.contains id = true
  nodup_created : t.created.Nodup
  mem_created : ∀ id, id ∈ t.created ↔ t.contains id = true
  /-- A pane is kept under its own name. -/
  id_pane : ∀ {id p}, t.pane? id = some p → p.id = id
  nodup_spawners : ∀ {id p}, t.pane? id = some p → p.spawners.Nodup
  live_of_spawns : ∀ {parent child}, t.Spawns parent child → t.contains parent = true
  mem_spawned : ∀ {id p}, t.pane? id = some p →
    ∀ child, p.spawned.contains child = true ↔ t.Spawns id child
  rank_lt : ∀ {parent child}, t.Spawns parent child → rank parent < rank child

theorem linked_of_no_pane (hids : t.ids = []) (hcreated : t.created = [])
    (hlive : ∀ id, t.pane? id = none) : t.Linked rank := by
  have hspawns : ∀ {parent child}, ¬t.Spawns parent child := by
    rintro parent child ⟨p, hp, -⟩
    rw [hlive] at hp
    exact absurd hp (by simp)
  have hcontains : ∀ id, t.contains id = false := fun id =>
    (congrArg Option.isSome (hlive id)).trans rfl
  constructor
  case nodup_ids => rw [hids]; exact List.nodup_nil
  case mem_ids => simp [hids, hcontains]
  case nodup_created => rw [hcreated]; exact List.nodup_nil
  case mem_created => simp [hcreated, hcontains]
  case live_of_spawns => exact fun h => absurd h hspawns
  case rank_lt => exact fun h => absurd h hspawns
  all_goals
    intro id p hp
    rw [hlive] at hp
    exact absurd hp (by simp)

/-- Only the ranks of live panes matter. -/
theorem Linked.rerank (h : t.Linked rank) {rank' : PaneId → Nat}
    (hsame : ∀ id, t.contains id = true → rank' id = rank id) : t.Linked rank' where
  nodup_ids := h.nodup_ids
  mem_ids := h.mem_ids
  nodup_created := h.nodup_created
  mem_created := h.mem_created
  id_pane := h.id_pane
  nodup_spawners := h.nodup_spawners
  live_of_spawns := h.live_of_spawns
  mem_spawned := h.mem_spawned
  rank_lt := by
    intro parent child hspawns
    obtain ⟨p, hp, -⟩ := id hspawns
    rw [hsame parent (h.live_of_spawns hspawns), hsame child (contains_of_pane? hp)]
    exact h.rank_lt hspawns

/-! ## Tables with the same lineage -/

/-- A pane's place in the lineage. -/
def kin (p : Pane) : PaneId × List PaneId × OrderedSet PaneId := (p.id, p.spawners, p.spawned)

/-- The tables agree in the panes that are live, in their orders and in their lineage. -/
structure SameLineage (t u : PaneTable) : Prop where
  ids : u.ids = t.ids
  created : u.created = t.created
  primary : u.primary = t.primary
  pane : ∀ id, (u.pane? id).map kin = (t.pane? id).map kin

namespace SameLineage

theorem rfl (t : PaneTable) : t.SameLineage t :=
  ⟨Eq.refl _, Eq.refl _, Eq.refl _, fun _ => Eq.refl _⟩

theorem trans {v : PaneTable} (h : t.SameLineage u) (h' : u.SameLineage v) : t.SameLineage v :=
  ⟨h'.ids.trans h.ids, h'.created.trans h.created, h'.primary.trans h.primary,
    fun id => (h'.pane id).trans (h.pane id)⟩

theorem publish (t : PaneTable) (e : Event) : t.SameLineage (t.publish e) :=
  ⟨Eq.refl _, Eq.refl _, Eq.refl _, fun _ => Eq.refl _⟩

theorem setActive (t : PaneTable) (id : PaneId) : t.SameLineage (t.setActive id) := by
  rw [setActive_eq]
  exact ⟨Eq.refl _, Eq.refl _, Eq.refl _, fun _ => Eq.refl _⟩

theorem announce (t : PaneTable) (id : PaneId) : t.SameLineage (t.announce id) := by
  unfold PaneTable.announce
  split
  · exact publish t _
  · exact rfl t

/-- A pane may change as long as it stays in its place. -/
theorem modify_live {id : PaneId} {f : Pane → Pane}
    (hf : ∀ p, t.pane? id = some p → kin (f p) = kin p) : t.SameLineage (t.modify id f) := by
  refine ⟨Eq.refl _, Eq.refl _, Eq.refl _, fun k => ?_⟩
  rw [pane?_modify]
  split
  next hid =>
    rw [Option.map_map]
    exact Option.map_congr fun p hp => hf p (hid ▸ hp)
  next => exact Eq.refl _

theorem modify (t : PaneTable) (id : PaneId) {f : Pane → Pane} (hf : ∀ p, kin (f p) = kin p) :
    t.SameLineage (t.modify id f) :=
  modify_live fun p _ => hf p

theorem modifyAll (t : PaneTable) {f : Pane → Pane} (hf : ∀ p, kin (f p) = kin p) :
    t.SameLineage (t.modifyAll f) := by
  refine ⟨Eq.refl _, Eq.refl _, Eq.refl _, fun k => ?_⟩
  rw [pane?_modifyAll, Option.map_map]
  exact Option.map_congr fun p _ => hf p

theorem reactivate (t : PaneTable) (activate : Bool) : t.SameLineage (t.reactivate activate) := by
  unfold PaneTable.reactivate
  split
  · exact rfl t
  · split
    · exact setActive t _
    · exact ⟨Eq.refl _, Eq.refl _, Eq.refl _, fun _ => Eq.refl _⟩

/-- A pane of the second table has a pane of the first in its place. -/
theorem pane?_left (h : t.SameLineage u) {id : PaneId} {p : Pane} (hp : u.pane? id = some p) :
    ∃ q, t.pane? id = some q ∧ kin q = kin p := by
  have hkin := h.pane id
  rw [hp, Option.map_some] at hkin
  exact Option.map_eq_some_iff.1 hkin.symm

theorem contains (h : t.SameLineage u) (id : PaneId) : u.contains id = t.contains id := by
  have hkin := congrArg Option.isSome (h.pane id)
  rwa [Option.isSome_map, Option.isSome_map] at hkin

theorem spawns_iff (h : t.SameLineage u) (parent child : PaneId) :
    u.Spawns parent child ↔ t.Spawns parent child := by
  constructor
  · rintro ⟨p, hp, hmem⟩
    obtain ⟨q, hq, hkin⟩ := h.pane?_left hp
    simp only [kin, Prod.mk.injEq] at hkin
    exact ⟨q, hq, hkin.2.1 ▸ hmem⟩
  · rintro ⟨q, hq, hmem⟩
    obtain ⟨p, hp, hkin⟩ :=
      Option.map_eq_some_iff.1 ((h.pane child).trans (by rw [hq, Option.map_some]))
    simp only [kin, Prod.mk.injEq] at hkin
    exact ⟨p, hp, hkin.2.1 ▸ hmem⟩

end SameLineage

theorem Linked.of_sameLineage (h : t.Linked rank) (hsame : t.SameLineage u) : u.Linked rank := by
  constructor
  case nodup_ids => exact hsame.ids ▸ h.nodup_ids
  case mem_ids => exact fun id => by rw [hsame.ids, hsame.contains]; exact h.mem_ids id
  case nodup_created => exact hsame.created ▸ h.nodup_created
  case mem_created => exact fun id => by rw [hsame.created, hsame.contains]; exact h.mem_created id
  case live_of_spawns =>
    intro parent child hspawns
    rw [hsame.contains]
    exact h.live_of_spawns ((hsame.spawns_iff ..).1 hspawns)
  case rank_lt => exact fun hspawns => h.rank_lt ((hsame.spawns_iff ..).1 hspawns)
  all_goals
    intro id p hp
    obtain ⟨q, hq, hkin⟩ := hsame.pane?_left hp
    simp only [kin, Prod.mk.injEq] at hkin
    obtain ⟨hid, hspawners, hspawned⟩ := hkin
  case id_pane => exact hid ▸ h.id_pane hq
  case nodup_spawners => exact hspawners ▸ h.nodup_spawners hq
  case mem_spawned =>
    intro child
    rw [← hspawned, h.mem_spawned hq child, hsame.spawns_iff]

/-! ## Removing a pane -/

theorem pane?_removeOne (t : PaneTable) (id k : PaneId) (h : t.contains id = true) :
    (t.removeOne id).pane? k = if id = k then none else (t.pane? k).map (unlinked id) := by
  rw [removeOne, if_pos h]
  exact pane?_erase t id k

theorem removeOne_of_not_contains {id : PaneId} (h : ¬t.contains id = true) :
    t.removeOne id = t := by
  rw [removeOne, if_neg h]

theorem contains_removeOne (t : PaneTable) (id k : PaneId) :
    (t.removeOne id).contains k = true ↔ id ≠ k ∧ t.contains k = true := by
  by_cases h : t.contains id = true
  · rw [contains, Dictionary.contains, ← pane?, pane?_removeOne t id k h]
    by_cases hk : id = k
    · simp [hk]
    · simp [hk, contains, Dictionary.contains, pane?]
  · rw [removeOne_of_not_contains h]
    refine (and_iff_right_of_imp ?_).symm
    rintro hk rfl
    exact h hk

theorem spawns_removeOne {id : PaneId} (h : t.contains id = true) (parent child : PaneId) :
    (t.removeOne id).Spawns parent child ↔ id ≠ parent ∧ id ≠ child ∧ t.Spawns parent child := by
  unfold Spawns
  rw [pane?_removeOne t id child h]
  by_cases hchild : id = child
  · simp [hchild]
  · simp only [hchild, if_false, Option.map_eq_some_iff, ne_eq, not_false_eq_true, true_and]
    constructor
    · rintro ⟨_, ⟨p, hp, rfl⟩, hmem⟩
      obtain ⟨hmem, hne⟩ := List.mem_filter.1 hmem
      exact ⟨(of_decide_eq_true hne).symm, p, hp, hmem⟩
    · rintro ⟨hne, p, hp, hmem⟩
      exact ⟨_, ⟨p, hp, rfl⟩, List.mem_filter.2 ⟨hmem, decide_eq_true (Ne.symm hne)⟩⟩

theorem Linked.removeOne (h : t.Linked rank) (id : PaneId) : (t.removeOne id).Linked rank := by
  by_cases hlive : t.contains id = true
  case neg => rwa [removeOne_of_not_contains hlive]
  have hlists : (t.removeOne id).ids = t.ids.filter (fun other => other ≠ id) ∧
      (t.removeOne id).created = t.created.filter (fun other => other ≠ id) := by
    rw [PaneTable.removeOne, if_pos hlive]
    exact ⟨rfl, rfl⟩
  have hold : ∀ {k p}, (t.removeOne id).pane? k = some p →
      id ≠ k ∧ ∃ q, t.pane? k = some q ∧ unlinked id q = p := by
    intro k p hp
    rw [pane?_removeOne t id k hlive] at hp
    split at hp
    next => simp at hp
    next hne => exact ⟨hne, Option.map_eq_some_iff.1 hp⟩
  constructor
  case nodup_ids => rw [hlists.1]; exact h.nodup_ids.filter _
  case mem_ids =>
    intro k
    rw [hlists.1, List.mem_filter, contains_removeOne, h.mem_ids, decide_eq_true_eq, and_comm,
      ne_comm]
  case nodup_created => rw [hlists.2]; exact h.nodup_created.filter _
  case mem_created =>
    intro k
    rw [hlists.2, List.mem_filter, contains_removeOne, h.mem_created, decide_eq_true_eq, and_comm,
      ne_comm]
  case id_pane =>
    intro k p hp
    obtain ⟨-, q, hq, rfl⟩ := hold hp
    have hid : q.id = k := h.id_pane hq
    exact hid
  case nodup_spawners =>
    intro k p hp
    obtain ⟨-, q, hq, rfl⟩ := hold hp
    exact (h.nodup_spawners hq).filter _
  case live_of_spawns =>
    intro parent child hspawns
    obtain ⟨hne, -, hspawns⟩ := (spawns_removeOne hlive ..).1 hspawns
    exact (contains_removeOne ..).2 ⟨hne, h.live_of_spawns hspawns⟩
  case mem_spawned =>
    intro k p hp child
    obtain ⟨hne, q, hq, rfl⟩ := hold hp
    rw [spawns_removeOne hlive, ← h.mem_spawned hq child, unlinked, OrderedSet.contains_erase]
    exact (and_iff_right hne).symm
  case rank_lt => exact fun hspawns => h.rank_lt ((spawns_removeOne hlive ..).1 hspawns).2.2

theorem Linked.remove (h : t.Linked rank) (victims : List PaneId) (activate : Bool) :
    (t.remove victims activate).1.Linked rank := by
  refine Linked.of_sameLineage ?_ (SameLineage.reactivate _ activate)
  induction victims generalizing t with
  | nil => exact h
  | cons victim victims ih => exact ih (h.removeOne victim)

/-! ## Putting in a new pane -/

/-- Whether a pane can be put into a table as a new one: its name is free, its spawners are live,
and nothing has happened to it yet. -/
structure Admits (t : PaneTable) (p : Pane) : Prop where
  name_free : ¬t.contains p.id = true
  spawners_live : ∀ parent ∈ p.spawners, t.contains parent = true
  nodup_spawners : p.spawners.Nodup
  spawned_none : p.spawned = ∅

theorem Admits.notMem_spawners {p : Pane} (hp : t.Admits p) : p.id ∉ p.spawners :=
  fun hmem => hp.name_free (hp.spawners_live _ hmem)

theorem contains_place {p : Pane} (hp : t.Admits p) (after : Option PaneId) (insert : InsertPolicy)
    (k : PaneId) :
    (t.place p after insert).contains k = true ↔ k = p.id ∨ t.contains k = true := by
  rw [contains, Dictionary.contains, ← pane?,
    pane?_place t after insert hp.nodup_spawners hp.notMem_spawners k]
  by_cases hk : k = p.id
  · simp [hk]
  · by_cases hmem : k ∈ p.spawners <;> simp [hk, hmem, contains, Dictionary.contains, pane?]

theorem spawns_place {p : Pane} (hp : t.Admits p) (after : Option PaneId) (insert : InsertPolicy)
    (parent child : PaneId) :
    (t.place p after insert).Spawns parent child ↔
      if child = p.id then parent ∈ p.spawners else t.Spawns parent child := by
  unfold Spawns
  rw [pane?_place t after insert hp.nodup_spawners hp.notMem_spawners child]
  by_cases hchild : child = p.id
  · simp [hchild]
  · rw [if_neg hchild, if_neg hchild]
    split
    · constructor
      · rintro ⟨_, hmap, hmem⟩
        obtain ⟨q, hq, rfl⟩ := Option.map_eq_some_iff.1 hmap
        exact ⟨q, hq, hmem⟩
      · rintro ⟨q, hq, hmem⟩
        exact ⟨spawning p.id q, by rw [hq, Option.map_some], hmem⟩
    · rfl

/-- A pane that was there keeps everything but what it spawned when a new pane is put in. -/
theorem pane?_place_cases {p q : Pane} (hp : t.Admits p) {after : Option PaneId}
    {insert : InsertPolicy} {k : PaneId} (hq : (t.place p after insert).pane? k = some q) :
    (k = p.id ∧ q = p) ∨ (k ≠ p.id ∧ ∃ q', t.pane? k = some q' ∧ q'.id = q.id ∧
      q'.spawners = q.spawners ∧ ∀ child, q.spawned.contains child = true ↔
        (k ∈ p.spawners ∧ p.id = child) ∨ q'.spawned.contains child = true) := by
  rw [pane?_place t after insert hp.nodup_spawners hp.notMem_spawners] at hq
  split at hq
  next hk => exact .inl ⟨hk, (Option.some.inj hq).symm⟩
  next hk =>
    split at hq
    next hmem =>
      obtain ⟨q', hq', rfl⟩ := Option.map_eq_some_iff.1 hq
      refine .inr ⟨hk, q', hq', rfl, rfl, fun child => ?_⟩
      rw [spawning, OrderedSet.contains_insert, and_iff_right hmem]
    next hmem => exact .inr ⟨hk, q, hq, rfl, rfl, fun child => by simp [hmem]⟩

/-- **A table stays linked when a new pane is put in**, provided that the new pane ranks above its
spawners. -/
theorem Linked.place (h : t.Linked rank) {p : Pane} (hp : t.Admits p) (after : Option PaneId)
    (insert : InsertPolicy) (hrank : ∀ parent ∈ p.spawners, rank parent < rank p.id) :
    (t.place p after insert).Linked rank := by
  have hcontains := contains_place hp after insert
  have hids : (t.place p after insert).ids.Perm (p.id :: t.ids) := by
    rw [place_eq]
    exact listedAfter_perm ..
  have hcreated : (t.place p after insert).created.Perm (p.id :: t.created) := by
    rw [place_eq]
    exact List.perm_append_singleton ..
  constructor
  case nodup_ids =>
    refine hids.nodup_iff.2 (List.nodup_cons.2 ⟨?_, h.nodup_ids⟩)
    exact fun hmem => hp.name_free ((h.mem_ids _).1 hmem)
  case mem_ids =>
    intro k
    rw [hids.mem_iff, List.mem_cons, hcontains, h.mem_ids]
  case nodup_created =>
    refine hcreated.nodup_iff.2 (List.nodup_cons.2 ⟨?_, h.nodup_created⟩)
    exact fun hmem => hp.name_free ((h.mem_created _).1 hmem)
  case mem_created =>
    intro k
    rw [hcreated.mem_iff, List.mem_cons, hcontains, h.mem_created]
  case id_pane =>
    intro k q hq
    rcases pane?_place_cases hp hq with ⟨rfl, rfl⟩ | ⟨-, q', hq', hid, -⟩
    · rfl
    · exact hid ▸ h.id_pane hq'
  case nodup_spawners =>
    intro k q hq
    rcases pane?_place_cases hp hq with ⟨rfl, rfl⟩ | ⟨-, q', hq', -, hspawners, -⟩
    · exact hp.nodup_spawners
    · exact hspawners ▸ h.nodup_spawners hq'
  case live_of_spawns =>
    intro parent child hspawns
    rw [spawns_place hp] at hspawns
    split at hspawns
    next => exact (hcontains _).2 (.inr (hp.spawners_live parent hspawns))
    next => exact (hcontains _).2 (.inr (h.live_of_spawns hspawns))
  case mem_spawned =>
    intro k q hq child
    rw [spawns_place hp]
    -- The new pane is a parent to nobody, as its name was not live.
    have hnew : ¬t.Spawns p.id child := fun hspawns => hp.name_free (h.live_of_spawns hspawns)
    rcases pane?_place_cases hp hq with ⟨rfl, rfl⟩ | ⟨hk, q', hq', -, -, hspawned⟩
    · rw [hp.spawned_none]
      split
      · simp [hp.notMem_spawners]
      · simp [hnew]
    · rw [hspawned, h.mem_spawned hq']
      have hfree : ¬t.Spawns k p.id := by
        rintro ⟨r, hr, -⟩
        exact hp.name_free (contains_of_pane? hr)
      split
      next hchild => subst hchild; simp [hfree]
      next hchild => simp [Ne.symm hchild]
  case rank_lt =>
    intro parent child hspawns
    rw [spawns_place hp] at hspawns
    split at hspawns
    next hchild => exact hchild ▸ hrank parent hspawns
    next => exact h.rank_lt hspawns

end StateAtlas.PaneTable
