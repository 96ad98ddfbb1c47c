import Mathlib.Data.List.Nodup
import StateAtlas.Proofs.Pane.Evolution
/-!
Relinking copies.

When several panes are copied together, each copy first joins the lineage of its source, and is then
relinked to the copies of its source's spawners where there are some.  A copy ranks with its source,
so the rank still increases along the lineage: the new spawners of a copy rank with the old ones.
-/

namespace StateAtlas.PaneTable

variable {t : PaneTable} {rank : PaneId → Nat} {copies : List (PaneId × PaneId)}

/-! ## Copies and their spawners -/

/-- What is known of panes that were copied together, as pairs of a source and its copy: the copies
are different live panes, and each ranks with its source. -/
structure Copied (t : PaneTable) (rank : PaneId → Nat) (copies : List (PaneId × PaneId)) : Prop where
  nodup : (copies.map Prod.snd).Nodup
  live : ∀ c ∈ copies, t.contains c.2 = true
  rank_eq : ∀ c ∈ copies, rank c.2 = rank c.1

theorem mem_of_lookup {s c : PaneId} (h : copies.lookup s = some c) : (s, c) ∈ copies := by
  induction copies with
  | nil => simp at h
  | cons pair copies ih =>
    rw [List.lookup_cons] at h
    split at h
    next heq =>
      obtain rfl : s = pair.1 := by simpa using heq
      exact Option.some.inj h ▸ List.mem_cons_self
    next => exact List.mem_cons_of_mem _ (ih h)

/-- A spawner stays what it is, or gives way to its copy. -/
theorem mem_respawned {spawners : List PaneId} {id : PaneId} (h : id ∈ respawned copies spawners) :
    ∃ s ∈ spawners, id = s ∨ (s, id) ∈ copies := by
  obtain ⟨s, hs, rfl⟩ := List.mem_map.1 h
  refine ⟨s, hs, ?_⟩
  cases hlookup : copies.lookup s with
  | none => exact .inl rfl
  | some c => exact .inr (mem_of_lookup hlookup)

theorem mem_respawned_of_lookup_eq_none {spawners : List PaneId} {id : PaneId} (h : id ∈ spawners)
    (hlookup : copies.lookup id = none) : id ∈ respawned copies spawners :=
  List.mem_map.2 ⟨id, h, by rw [hlookup, Option.getD_none]⟩

/-- The old spawners that give nobody up are among the new ones. -/
theorem mem_respawned_or_kept (spawners : List PaneId) (id : PaneId) :
    (id ∈ respawned copies spawners ∨
      ¬(id ∈ spawners ∧ (copies.lookup id).isSome = true) ∧ id ∈ spawners) ↔
    id ∈ respawned copies spawners := by
  refine or_iff_left_of_imp ?_
  rintro ⟨hkept, hmem⟩
  have hnone : copies.lookup id = none := by
    by_contra hsome
    exact hkept ⟨hmem, Option.isSome_iff_ne_none.2 hsome⟩
  exact mem_respawned_of_lookup_eq_none hmem hnone

/-- Different spawners give way to different ones, as no copy is among them. -/
theorem Copied.nodup_respawned (hc : t.Copied rank copies) {spawners : List PaneId}
    (hnodup : spawners.Nodup) (hold : ∀ s ∈ spawners, s ∉ copies.map Prod.snd) :
    (respawned copies spawners).Nodup := by
  have hnot : ∀ {s c}, copies.lookup s = some c → c ∉ spawners := fun hlookup hmem =>
    hold _ hmem (List.mem_map.2 ⟨_, mem_of_lookup hlookup, rfl⟩)
  refine List.Nodup.map_on ?_ hnodup
  intro s hs s' hs' heq
  cases hl : copies.lookup s with
  | none =>
    cases hl' : copies.lookup s' with
    | none => simpa only [hl, hl', Option.getD_none] using heq
    | some c' =>
      rw [hl, hl', Option.getD_none, Option.getD_some] at heq
      exact absurd (heq ▸ hs) (hnot hl')
  | some c =>
    cases hl' : copies.lookup s' with
    | none =>
      rw [hl, hl', Option.getD_none, Option.getD_some] at heq
      exact absurd (heq ▸ hs') (hnot hl)
    | some c' =>
      rw [hl, hl', Option.getD_some, Option.getD_some] at heq
      have hpair := List.inj_on_of_nodup_map hc.nodup (mem_of_lookup hl) (mem_of_lookup hl') heq
      exact congrArg Prod.fst hpair

/-! ## The table after relinking -/

theorem relink_eq (copies : List (PaneId × PaneId)) (t : PaneTable) (id : PaneId) :
    relink copies t id = { t with live := (relink copies t id).live } := by
  unfold relink
  split
  · rfl
  · rw [link_eq]
    rfl

theorem contains_relink (copies : List (PaneId × PaneId)) (t : PaneTable) (id k : PaneId) :
    (relink copies t id).contains k = t.contains k :=
  (SameWork.relink copies t id).contains k

/-- The spawners of other panes stay as they are. -/
theorem map_spawners_relink_of_ne {id child : PaneId} (hne : child ≠ id) :
    ((relink copies t id).pane? child).map Pane.spawners =
      (t.pane? child).map Pane.spawners := by
  have hlink : ∀ u : PaneTable, ((u.link id).pane? child).map Pane.spawners =
      (u.pane? child).map Pane.spawners := by
    intro u
    unfold link
    split
    · refine Dictionary.map_get?_modifyMany ?_ u.live _ child
      exact fun _ => rfl
    · rfl
  unfold relink
  split
  · rfl
  · rw [hlink, pane?_modify, if_neg (Ne.symm hne)]
    refine Dictionary.map_get?_modifyMany ?_ t.live _ child
    exact fun _ => rfl

theorem spawns_relink_of_ne {id child : PaneId} (hne : child ≠ id) (parent : PaneId) :
    (relink copies t id).Spawns parent child ↔ t.Spawns parent child := by
  have hiff : ∀ u : PaneTable, u.Spawns parent child ↔
      ∃ spawners, (u.pane? child).map Pane.spawners = some spawners ∧ parent ∈ spawners := by
    intro u
    constructor
    · rintro ⟨p, hp, hmem⟩
      exact ⟨p.spawners, by rw [hp, Option.map_some], hmem⟩
    · rintro ⟨spawners, hmap, hmem⟩
      obtain ⟨p, hp, rfl⟩ := Option.map_eq_some_iff.1 hmap
      exact ⟨p, hp, hmem⟩
  rw [hiff, hiff, map_spawners_relink_of_ne hne]

/-- A pane that may give up a child and may take it up again. -/
def resettled (child : PaneId) (gives takes : Bool) (p : Pane) : Pane :=
  let p := if gives then notSpawning child p else p
  if takes then spawning child p else p

theorem id_resettled (child : PaneId) (gives takes : Bool) (p : Pane) :
    (resettled child gives takes p).id = p.id := by
  cases gives <;> cases takes <;> rfl

theorem spawners_resettled (child : PaneId) (gives takes : Bool) (p : Pane) :
    (resettled child gives takes p).spawners = p.spawners := by
  cases gives <;> cases takes <;> rfl

theorem contains_spawned_resettled (child id : PaneId) (gives takes : Bool) (p : Pane) :
    (resettled child gives takes p).spawned.contains id = true ↔
      (takes = true ∧ child = id) ∨
        (¬(gives = true ∧ child = id) ∧ p.spawned.contains id = true) := by
  cases gives <;> cases takes <;>
    simp [resettled, spawning, notSpawning, OrderedSet.contains_insert, OrderedSet.contains_erase]

/-- What relinking a copy does to the panes: the copy gets its new spawners, and of the others those
that gave way to copies of theirs give it up. -/
theorem pane?_relink {id : PaneId} {p : Pane} (hp : t.pane? id = some p) (hnodup : p.spawners.Nodup)
    (hself : id ∉ p.spawners) (hnodup' : (respawned copies p.spawners).Nodup)
    (hself' : id ∉ respawned copies p.spawners) (k : PaneId) :
    (relink copies t id).pane? k =
      if k = id then some { p with spawners := respawned copies p.spawners }
      else (t.pane? k).map (resettled id (p.spawners.contains k && (copies.lookup k).isSome)
        ((respawned copies p.spawners).contains k)) := by
  let replaced := p.spawners.filter fun spawner => (copies.lookup spawner).isSome
  let u : PaneTable := { t with live := t.live.modifyMany replaced (notSpawning id) }
  let v := u.modify id fun p => { p with spawners := respawned copies p.spawners }
  have hrelink : relink copies t id = v.link id := by
    unfold relink
    rw [hp]
  have hu : ∀ k, u.pane? k =
      if k ∈ replaced then (t.pane? k).map (notSpawning id) else t.pane? k :=
    fun k => Dictionary.get?_modifyMany (hnodup.filter _) ..
  have hreplaced : id ∉ replaced := fun hmem => hself (List.mem_filter.1 hmem).1
  have hv : ∀ k, v.pane? k = if id = k
      then (u.pane? k).map fun p => { p with spawners := respawned copies p.spawners }
      else u.pane? k := fun k => pane?_modify ..
  have hcopy : v.pane? id = some { p with spawners := respawned copies p.spawners } := by
    rw [hv, if_pos rfl, hu, if_neg hreplaced, hp]
    rfl
  rw [hrelink, pane?_link hcopy hnodup']
  by_cases hk : k = id
  · subst hk
    rw [if_neg hself', if_pos rfl, hcopy]
  · have hgives : (p.spawners.contains k && (copies.lookup k).isSome) = decide (k ∈ replaced) := by
      rw [Bool.eq_iff_iff, decide_eq_true_eq, List.mem_filter, Bool.and_eq_true,
        List.contains_iff_mem]
    rw [if_neg hk, hv, if_neg (Ne.symm hk), hu, hgives, List.contains_eq_mem]
    cases t.pane? k with
    | none => split <;> split <;> rfl
    | some q =>
      by_cases hg : k ∈ replaced <;> by_cases ht : k ∈ respawned copies p.spawners <;>
        simp [resettled, hg, ht]

/-! ## Linked tables -/

theorem Linked.notMem_spawners (h : t.Linked rank) {id : PaneId} {p : Pane}
    (hp : t.pane? id = some p) : id ∉ p.spawners :=
  fun hmem => absurd (h.rank_lt ⟨p, hp, hmem⟩) (Nat.lt_irrefl _)

section Relinked

variable {id : PaneId} {p : Pane}

/-- A copy ranks with its source, so that the new spawners rank below the copy as the old ones did. -/
theorem Linked.respawned_lt (h : t.Linked rank) (hc : t.Copied rank copies)
    (hp : t.pane? id = some p) {s : PaneId} (hs : s ∈ respawned copies p.spawners) :
    rank s < rank id ∧ t.contains s = true := by
  obtain ⟨s', hs', heq | hmem⟩ := mem_respawned hs
  all_goals have hspawns : t.Spawns s' id := ⟨p, hp, hs'⟩
  · exact heq ▸ ⟨h.rank_lt hspawns, h.live_of_spawns hspawns⟩
  · exact ⟨hc.rank_eq _ hmem ▸ h.rank_lt hspawns, hc.live _ hmem⟩

theorem Linked.notMem_respawned (h : t.Linked rank) (hc : t.Copied rank copies)
    (hp : t.pane? id = some p) : id ∉ respawned copies p.spawners :=
  fun hmem => absurd (h.respawned_lt hc hp hmem).1 (Nat.lt_irrefl _)

theorem Linked.nodup_respawned (h : t.Linked rank) (hc : t.Copied rank copies)
    (hp : t.pane? id = some p) (hold : ∀ s, t.Spawns s id → s ∉ copies.map Prod.snd) :
    (respawned copies p.spawners).Nodup :=
  hc.nodup_respawned (h.nodup_spawners hp) fun s hs => hold s ⟨p, hp, hs⟩

theorem Linked.pane?_relink (h : t.Linked rank) (hc : t.Copied rank copies)
    (hp : t.pane? id = some p) (hold : ∀ s, t.Spawns s id → s ∉ copies.map Prod.snd) (k : PaneId) :
    (PaneTable.relink copies t id).pane? k =
      if k = id then some { p with spawners := respawned copies p.spawners }
      else (t.pane? k).map (resettled id (p.spawners.contains k && (copies.lookup k).isSome)
        ((respawned copies p.spawners).contains k)) :=
  PaneTable.pane?_relink hp (h.nodup_spawners hp) (h.notMem_spawners hp)
    (h.nodup_respawned hc hp hold) (h.notMem_respawned hc hp) k

/-- Only the copy gets other spawners. -/
theorem Linked.spawns_relink (h : t.Linked rank) (hc : t.Copied rank copies)
    (hp : t.pane? id = some p) (hold : ∀ s, t.Spawns s id → s ∉ copies.map Prod.snd)
    (parent child : PaneId) :
    (PaneTable.relink copies t id).Spawns parent child ↔
      if child = id then parent ∈ respawned copies p.spawners else t.Spawns parent child := by
  by_cases hchild : child = id
  · subst hchild
    unfold Spawns
    rw [h.pane?_relink hc hp hold, if_pos rfl, if_pos rfl]
    constructor
    · rintro ⟨q, hq, hmem⟩
      obtain rfl := Option.some.inj hq
      exact hmem
    · exact fun hmem => ⟨_, rfl, hmem⟩
  · rw [if_neg hchild]
    exact spawns_relink_of_ne hchild parent

end Relinked

/-- **A table stays linked when a copy is relinked**, as long as the copy is not spawned from another
copy yet. -/
theorem Linked.relink (h : t.Linked rank) (hc : t.Copied rank copies) {id : PaneId}
    (hold : ∀ s, t.Spawns s id → s ∉ copies.map Prod.snd) :
    (PaneTable.relink copies t id).Linked rank := by
  cases hp : t.pane? id with
  | none =>
    unfold PaneTable.relink
    rwa [hp]
  | some p => ?_
  have hspawns := h.spawns_relink hc hp hold
  constructor
  case nodup_ids => rw [relink_eq]; exact h.nodup_ids
  case mem_ids => intro k; rw [contains_relink, relink_eq]; exact h.mem_ids k
  case nodup_created => rw [relink_eq]; exact h.nodup_created
  case mem_created => intro k; rw [contains_relink, relink_eq]; exact h.mem_created k
  case live_of_spawns =>
    intro parent child hsp
    rw [contains_relink]
    rw [hspawns] at hsp
    split at hsp
    next => exact (h.respawned_lt hc hp hsp).2
    next => exact h.live_of_spawns hsp
  case rank_lt =>
    intro parent child hsp
    rw [hspawns] at hsp
    split at hsp
    next hchild => exact hchild ▸ (h.respawned_lt hc hp hsp).1
    next => exact h.rank_lt hsp
  all_goals
    intro k q hq
    rw [h.pane?_relink hc hp hold] at hq
    split at hq
  case id_pane.isTrue hk =>
    obtain rfl := Option.some.inj hq
    exact (h.id_pane hp).trans hk.symm
  case id_pane.isFalse =>
    obtain ⟨q', hq', rfl⟩ := Option.map_eq_some_iff.1 hq
    rw [id_resettled]
    exact h.id_pane hq'
  case nodup_spawners.isTrue =>
    obtain rfl := Option.some.inj hq
    exact h.nodup_respawned hc hp hold
  case nodup_spawners.isFalse =>
    obtain ⟨q', hq', rfl⟩ := Option.map_eq_some_iff.1 hq
    rw [spawners_resettled]
    exact h.nodup_spawners hq'
  case mem_spawned.isTrue hk =>
    obtain rfl := Option.some.inj hq
    subst hk
    intro child
    rw [hspawns, h.mem_spawned hp child]
    split
    next hchild =>
      subst hchild
      exact iff_of_false (fun hsp => absurd (h.rank_lt hsp) (Nat.lt_irrefl _))
        (h.notMem_respawned hc hp)
    next => rfl
  case mem_spawned.isFalse hk =>
    obtain ⟨q', hq', rfl⟩ := Option.map_eq_some_iff.1 hq
    intro child
    rw [contains_spawned_resettled, h.mem_spawned hq', hspawns]
    split
    next hchild =>
      subst hchild
      have hsp : t.Spawns k child ↔ k ∈ p.spawners := by
        refine ⟨fun ⟨r, hr, hmem⟩ => ?_, fun hmem => ⟨p, hp, hmem⟩⟩
        rw [hp] at hr
        exact Option.some.inj hr ▸ hmem
      -- A spawner without a copy stays one, so that it takes up no child that it did not give up.
      rw [hsp, Bool.and_eq_true, List.contains_iff_mem, List.contains_iff_mem, and_iff_left rfl,
        and_iff_left rfl]
      exact mem_respawned_or_kept p.spawners k
    next hchild => simp [Ne.symm hchild]

end StateAtlas.PaneTable
