import StateAtlas.Proofs.Pane.Evolution
import StateAtlas.Proofs.Pane.Naming
/-!
Well-formed tables.

Besides being linked, a table knows a primary pane just when it has panes at all; the primary pane is
live and was spawned from nobody, and the active pane, if there is one, is live.  Removing panes other
than the primary one, making room and putting in a new pane keep a table so.
-/

namespace StateAtlas.PaneTable

variable {t u : PaneTable} {rank : PaneId → Nat}

/-- The table is linked and has a primary pane unless it is empty. -/
structure Rooted (t : PaneTable) (rank : PaneId → Nat) : Prop where
  linked : t.Linked rank
  empty_of_primary_none : t.primary = none → ∀ id, t.pane? id = none
  /-- The primary pane is live and was spawned from nobody. -/
  primary_root : ∀ id, t.primary = some id → ∃ p, t.pane? id = some p ∧ p.spawners = []

/-- The table is rooted, and only a live pane is active. -/
structure WellFormed (t : PaneTable) (rank : PaneId → Nat) : Prop where
  rooted : t.Rooted rank
  active_live : ∀ id, t.active = some id → t.contains id = true

/-- As long as a pane is live there is a primary one. -/
theorem Rooted.primary_ne_none (h : t.Rooted rank) {id : PaneId} (hid : t.contains id = true) :
    t.primary ≠ none := by
  intro hnone
  obtain ⟨p, hp⟩ := exists_pane?_iff.1 hid
  rw [h.empty_of_primary_none hnone] at hp
  exact absurd hp (by simp)

theorem wellFormed_start (maxPanes brushWindow : Nat) (bus : Bus) (rank : PaneId → Nat) :
    ({ start maxPanes brushWindow with bus } : PaneTable).WellFormed rank where
  rooted := ⟨linked_of_no_pane rfl rfl fun _ => rfl, fun _ _ => rfl, fun _ h => nomatch h⟩
  active_live _ h := nomatch h

/-! ## Changes that leave the lineage alone -/

theorem Rooted.of_sameLineage (h : t.Rooted rank) (hsame : t.SameLineage u) : u.Rooted rank where
  linked := h.linked.of_sameLineage hsame
  empty_of_primary_none hnone id := by
    have hkin := hsame.pane id
    rwa [h.empty_of_primary_none (hsame.primary ▸ hnone), Option.map_none, Option.map_eq_none_iff]
      at hkin
  primary_root id hid := by
    obtain ⟨p, hp, hspawners⟩ := h.primary_root id (hsame.primary ▸ hid)
    have hkin := hsame.pane id
    rw [hp, Option.map_some] at hkin
    obtain ⟨q, hq, hkin⟩ := Option.map_eq_some_iff.1 hkin
    exact ⟨q, hq, (congrArg (fun k => k.2.1) hkin).trans hspawners⟩

theorem WellFormed.of_sameLineage (h : t.WellFormed rank) (hsame : t.SameLineage u)
    (hactive : ∀ id, u.active = some id → t.contains id = true) : u.WellFormed rank where
  rooted := h.rooted.of_sameLineage hsame
  active_live id hid := by
    rw [hsame.contains]
    exact hactive id hid

theorem WellFormed.rerank (h : t.WellFormed rank) {rank' : PaneId → Nat}
    (hsame : ∀ id, t.contains id = true → rank' id = rank id) : t.WellFormed rank' :=
  ⟨⟨h.rooted.linked.rerank hsame, h.rooted.empty_of_primary_none, h.rooted.primary_root⟩,
    h.active_live⟩

theorem WellFormed.publish (h : t.WellFormed rank) (e : Event) : (t.publish e).WellFormed rank :=
  h.of_sameLineage (SameLineage.publish t e) h.active_live

theorem active_setActive (t : PaneTable) (id : PaneId) : (t.setActive id).active = some id := by
  rw [setActive_eq]

theorem WellFormed.setActive (h : t.WellFormed rank) {id : PaneId} (hid : t.contains id = true) :
    (t.setActive id).WellFormed rank := by
  refine h.of_sameLineage (SameLineage.setActive t id) fun other hother => ?_
  rw [active_setActive] at hother
  exact Option.some.inj hother ▸ hid

theorem active_announce (t : PaneTable) (id : PaneId) : (t.announce id).active = t.active := by
  unfold announce
  split <;> rfl

theorem WellFormed.announce (h : t.WellFormed rank) (id : PaneId) :
    (t.announce id).WellFormed rank :=
  h.of_sameLineage (SameLineage.announce t id) (active_announce t id ▸ h.active_live)

theorem WellFormed.reshape (h : t.WellFormed rank) (id : PaneId) (f : Geometry → Geometry) :
    (t.reshape id f).WellFormed rank := by
  refine WellFormed.publish ?_ _
  refine h.of_sameLineage (SameLineage.modify t id ?_) h.active_live
  exact fun _ => rfl

/-! ## Removing panes -/

theorem primary_removeOne (t : PaneTable) (id : PaneId) : (t.removeOne id).primary = t.primary := by
  unfold removeOne
  split <;> rfl

theorem spawns_of_removeOne {id parent child : PaneId} (h : (t.removeOne id).Spawns parent child) :
    t.Spawns parent child := by
  by_cases hid : t.contains id = true
  · exact ((spawns_removeOne hid ..).1 h).2.2
  · rwa [removeOne_of_not_contains hid] at h

theorem Rooted.removeOne (h : t.Rooted rank) {id : PaneId} (hid : t.primary ≠ some id) :
    (t.removeOne id).Rooted rank := by
  by_cases hlive : t.contains id = true
  case neg => rwa [removeOne_of_not_contains hlive]
  constructor
  case linked => exact h.linked.removeOne id
  case empty_of_primary_none =>
    intro hnone
    rw [primary_removeOne] at hnone
    exact absurd hnone (h.primary_ne_none hlive)
  case primary_root =>
    intro root hroot
    rw [primary_removeOne] at hroot
    have hne : id ≠ root := by
      rintro rfl
      exact hid hroot
    obtain ⟨p, hp, hspawners⟩ := h.primary_root root hroot
    refine ⟨unlinked id p, ?_, ?_⟩
    · rw [pane?_removeOne t id root hlive, if_neg hne, hp, Option.map_some]
    · rw [unlinked, hspawners, List.filter_nil]

/-- Whatever was active, afterwards a live pane is active or none. -/
theorem active_reactivate (hids : ∀ id ∈ t.ids, t.contains id = true) (activate : Bool) (id : PaneId)
    (h : (t.reactivate activate).active = some id) : t.contains id = true := by
  unfold reactivate at h
  split at h
  next hlive =>
    rw [h] at hlive
    exact hlive
  next =>
    split at h
    next last hlast =>
      rw [active_setActive] at h
      exact Option.some.inj h ▸ hids _ (List.mem_of_getLast? hlast)
    next => simp at h

/-- **A well-formed table stays so when panes other than the primary one are removed.** -/
theorem WellFormed.remove (h : t.WellFormed rank) {victims : List PaneId}
    (hvictims : ∀ id ∈ victims, t.primary ≠ some id) (activate : Bool) :
    (t.remove victims activate).1.WellFormed rank := by
  have hrooted : (victims.foldl PaneTable.removeOne t).Rooted rank := by
    have hrooted := h.rooted
    clear h
    induction victims generalizing t with
    | nil => exact hrooted
    | cons victim victims ih =>
      obtain ⟨hvictim, hvictims⟩ := List.forall_mem_cons.1 hvictims
      refine ih (fun id hid => ?_) (hrooted.removeOne hvictim)
      rw [primary_removeOne]
      exact hvictims id hid
  have hsame := SameLineage.reactivate (victims.foldl PaneTable.removeOne t) activate
  refine ⟨hrooted.of_sameLineage hsame, fun id hid => ?_⟩
  refine (hsame.contains id).trans (active_reactivate ?_ activate id hid)
  exact fun id hid => (hrooted.linked.mem_ids id).1 hid

/-! ## Making room -/

/-- What an eviction spares: the primary pane, the protected panes, and the lineage of those that
stay. -/
structure Spared (protected_ : List PaneId) (t u : PaneTable) : Prop where
  primary : u.primary = t.primary
  protected_live : ∀ id ∈ protected_, t.contains id = true → u.contains id = true
  spawns : ∀ {parent child}, u.Spawns parent child → t.Spawns parent child

theorem spared_remove {protected_ : List PaneId} {victim : PaneId} (hvictim : victim ∉ protected_) :
    Spared protected_ t (t.remove [victim] false).1 := by
  have hsame := SameLineage.reactivate (t.removeOne victim) false
  constructor
  case primary => exact hsame.primary.trans (primary_removeOne t victim)
  case protected_live =>
    intro id hid hlive
    have hne : victim ≠ id := fun heq => hvictim (heq ▸ hid)
    exact (hsame.contains id).trans ((contains_removeOne ..).2 ⟨hne, hlive⟩)
  case spawns => exact fun hspawns => spawns_of_removeOne ((hsame.spawns_iff ..).1 hspawns)

theorem oldest?_eq_some {protected_ : List PaneId} {victim : PaneId}
    (h : t.oldest? protected_ = some victim) : t.primary ≠ some victim ∧ victim ∉ protected_ := by
  have hvictim := List.find?_some h
  simp only [Bool.and_eq_true, decide_eq_true_eq, Bool.not_eq_true'] at hvictim
  exact ⟨Ne.symm hvictim.1, by simpa using hvictim.2⟩

/-- **Making room keeps a table well-formed**, and spares what it should spare. -/
theorem WellFormed.makeRoom (h : t.WellFormed rank) (protected_ : List PaneId) :
    (t.makeRoom protected_).WellFormed rank ∧ Spared protected_ t (t.makeRoom protected_) := by
  refine makeRoom_induction (P := fun u => u.WellFormed rank ∧ Spared protected_ t u) ?_
    ⟨h, ⟨rfl, fun _ _ => id, id⟩⟩
  rintro u victim ⟨hu, hspared⟩ hvictim
  obtain ⟨hprimary, hprotected⟩ := oldest?_eq_some hvictim
  have hstep : Spared protected_ u (u.remove [victim] false).1 := spared_remove hprotected
  refine ⟨hu.remove (List.forall_mem_singleton.2 hprimary) false,
    hstep.primary.trans hspared.primary, fun id hid hlive => ?_, fun hspawns => ?_⟩
  · exact hstep.protected_live id hid (hspared.protected_live id hid hlive)
  · exact hspared.spawns (hstep.spawns hspawns)

/-! ## New panes -/

theorem freshName_not_live (t : PaneTable) (base : PaneId) :
    ¬t.contains (t.freshName base) = true := by
  intro hlive
  exact Naming.unique_notMem t.live.keys base (Dictionary.mem_keys_iff.2 hlive)

/-- **A well-formed table stays so when a new pane is put in** beside the primary one; the new pane
may have any rank above those of its spawners. -/
theorem WellFormed.place (h : t.WellFormed rank) (hprimary : t.primary ≠ none) {p : Pane}
    (hp : t.Admits p) (after : Option PaneId) (insert : InsertPolicy) {r : Nat}
    (hr : ∀ parent ∈ p.spawners, rank parent < r) :
    (t.place p after insert).WellFormed fun id => if id = p.id then r else rank id := by
  have hrerank : t.WellFormed fun id => if id = p.id then r else rank id := by
    refine h.rerank fun id hid => if_neg ?_
    rintro rfl
    exact hp.name_free hid
  have hlower : ∀ parent ∈ p.spawners, (if parent = p.id then r else rank parent) <
      if p.id = p.id then r else rank p.id := by
    intro parent hmem
    rw [if_neg (ne_of_mem_of_not_mem hmem hp.notMem_spawners), if_pos rfl]
    exact hr parent hmem
  refine ⟨⟨hrerank.rooted.linked.place hp after insert hlower, ?_, ?_⟩, ?_⟩
  · intro hnone
    rw [primary_place] at hnone
    exact absurd hnone hprimary
  · intro id hid
    rw [primary_place] at hid
    obtain ⟨q, hq, hspawners⟩ := h.rooted.primary_root id hid
    have hne : id ≠ p.id := by
      rintro rfl
      exact hp.name_free (contains_of_pane? hq)
    rw [pane?_place t after insert hp.nodup_spawners hp.notMem_spawners, if_neg hne]
    split
    · exact ⟨spawning p.id q, by rw [hq, Option.map_some], hspawners⟩
    · exact ⟨q, hq, hspawners⟩
  · intro id hid
    rw [active_place] at hid
    exact (contains_place hp after insert id).2 (.inr (h.active_live id hid))

/-- **The first pane of an empty table becomes its primary pane.** -/
theorem WellFormed.placeFirst (h : t.WellFormed rank) (hprimary : t.primary = none) {p : Pane}
    (hp : t.Admits p) (after : Option PaneId) (insert : InsertPolicy) :
    ({ t.place p after insert with primary := some p.id } : PaneTable).WellFormed rank := by
  have hnot : ∀ id, ¬t.contains id = true := by
    intro id hid
    exact h.rooted.primary_ne_none hid hprimary
  -- Nobody is live who could have spawned it.
  have hspawners : p.spawners = [] :=
    List.eq_nil_iff_forall_not_mem.2 fun s hs => hnot s (hp.spawners_live s hs)
  have hlinked := h.rooted.linked.place hp after insert (by simp [hspawners])
  have hget := pane?_place t after insert hp.nodup_spawners hp.notMem_spawners
  refine ⟨⟨⟨hlinked.nodup_ids, hlinked.mem_ids, hlinked.nodup_created, hlinked.mem_created,
    hlinked.id_pane, hlinked.nodup_spawners, hlinked.live_of_spawns, hlinked.mem_spawned,
    hlinked.rank_lt⟩, ?_, ?_⟩, ?_⟩
  · exact fun hnone => absurd hnone (by simp)
  · intro id hid
    obtain rfl := Option.some.inj hid
    exact ⟨p, (hget p.id).trans (if_pos rfl), hspawners⟩
  · intro id hid
    have hactive : t.active = some id := (active_place t p after insert).symm.trans hid
    exact absurd (h.active_live id hactive) (hnot id)

end StateAtlas.PaneTable
