import StateAtlas.Proofs.Pane.Batches
import StateAtlas.Proofs.Pane.Descendants
/-!
The lineage of copies that were made together.

Relinking changes nothing of a copy but its spawners: those that were copied as well give way to their
copies.  Among themselves the copies are then linked as their sources are, and to the panes outside as
their sources were, as far as these were not evicted.  Whatever a pane lists as spawned agrees with
that, because the table is linked in the end.

Main statement: `Batch.duplicates`.
-/

namespace StateAtlas

/-- Whether a pane is a copy of another: it holds and shows the same, but selects nothing and has no
history. -/
structure Pane.Replicates (q p : Pane) : Prop where
  store : q.store = p.store
  spawnerNodes : q.spawnerNodes = p.spawnerNodes
  everAdded : q.everAdded = p.everAdded
  view : q.view = p.view
  brush : q.brush.state = p.brush.state
  geometry : q.geometry = p.geometry
  selection : q.selection = []
  history : q.history = {}

/-- The news that a pane was added. -/
def Pane.addition (p : Pane) : Event :=
  .registry (.paneAdded p.id p.color p.store.nodeIds p.spawners p.spawnerNodes)

namespace PaneTable

variable {t u v : PaneTable} {rank : PaneId → Nat} {sources gone : List PaneId}
  {copies : List (PaneId × PaneId)} {id k : PaneId} {p q : Pane}

/-! ## Copies as they are made -/

/-- The pane with copies in the place of its spawners where there are some. -/
def respawn (copies : List (PaneId × PaneId)) (p : Pane) : Pane :=
  { p with spawners := respawned copies p.spawners }

theorem everAdded_copyOf (h : p.Accounted) (t : PaneTable) (id : PaneId) :
    (t.copyOf id p).everAdded = p.everAdded :=
  OrderedSet.ext_contains fun n => (accounted_copyOf h t id n).trans (h n).symm

/-- Nothing that relinking changes tells a copy from its source. -/
theorem replicates_of_childless_eq {color : String} (haccounted : p.Accounted)
    (h : childless q = respawn copies (pruned gone { t.copyOf id p with color })) :
    q.Replicates p := by
  have hcopy : (respawn copies (pruned gone { t.copyOf id p with color })).Replicates p :=
    ⟨rfl, rfl, everAdded_copyOf haccounted t id, rfl, rfl, rfl, rfl, rfl⟩
  rw [← h] at hcopy
  exact ⟨hcopy.store, hcopy.spawnerNodes, hcopy.everAdded, hcopy.view, hcopy.brush, hcopy.geometry,
    hcopy.selection, hcopy.history⟩

/-! ## Relinked panes -/

theorem map_childless_link (t : PaneTable) (child k : PaneId) :
    ((t.link child).pane? k).map childless = (t.pane? k).map childless := by
  unfold link
  split
  · exact Dictionary.map_get?_modifyMany (f := spawning child) (fun _ => rfl) t.live _ k
  · rfl

/-- Relinking a copy changes nothing but its spawners and what panes spawned. -/
theorem map_childless_relink (copies : List (PaneId × PaneId)) (t : PaneTable) (id k : PaneId) :
    ((relink copies t id).pane? k).map childless =
      if id = k then ((t.pane? k).map childless).map (respawn copies)
      else (t.pane? k).map childless := by
  unfold relink
  split
  next hnone =>
    split
    next hk => rw [← hk, hnone]; rfl
    next => rfl
  next p hp =>
    have hgives : ∀ k, (Dictionary.get? (t.live.modifyMany
        (p.spawners.filter fun s => (copies.lookup s).isSome) (notSpawning id)) k).map childless =
        (t.pane? k).map childless :=
      Dictionary.map_get?_modifyMany (f := notSpawning id) (fun _ => rfl) t.live _
    rw [map_childless_link, pane?_modify]
    split
    · rw [← hgives k, Option.map_map, Option.map_map]
      rfl
    · exact hgives k

theorem map_childless_relinkMany {waiting : List PaneId} (hnodup : waiting.Nodup) (t : PaneTable)
    (k : PaneId) :
    ((waiting.foldl (relink copies) t).pane? k).map childless =
      if k ∈ waiting then ((t.pane? k).map childless).map (respawn copies)
      else (t.pane? k).map childless := by
  induction waiting generalizing t with
  | nil => simp
  | cons id waiting ih =>
    obtain ⟨hnot, hnodup⟩ := List.nodup_cons.1 hnodup
    rw [List.foldl_cons, ih hnodup, map_childless_relink]
    by_cases hk : id = k
    · subst hk
      simp [hnot]
    · simp [hk, Ne.symm hk]

theorem map_childless_withCopies (hnodup : (copies.map Prod.snd).Nodup) (k : PaneId) :
    ((t.withCopies copies).pane? k).map childless =
      if k ∈ copies.map Prod.snd then ((t.pane? k).map childless).map (respawn copies)
      else (t.pane? k).map childless := by
  rw [withCopies_eq]
  exact map_childless_relinkMany hnodup t k

/-- Panes are announced one by one, each as it is. -/
theorem bus_foldl_announce (ids : List PaneId) (t : PaneTable) :
    (ids.foldl announce t).bus =
      (ids.filterMap fun id => (t.pane? id).map Pane.addition).foldl Bus.publish t.bus := by
  induction ids generalizing t with
  | nil => rfl
  | cons id ids ih =>
    have hpane : ∀ k, (t.announce id).pane? k = t.pane? k := fun k =>
      congrArg (fun live => live.get? k) (live_announce t id)
    rw [List.foldl_cons, ih]
    simp only [hpane]
    cases hp : t.pane? id with
    | none =>
      rw [List.filterMap_cons_none (by rw [hp]; rfl), announce, hp]
    | some p =>
      rw [List.filterMap_cons_some (by rw [hp]; rfl), announce_eq hp]
      rfl

/-- What is announced of copies: each as it is in the end, and that the last one became active. -/
def copyNews (t : PaneTable) (ids : List PaneId) : List Event :=
  (ids.filterMap fun id => (t.pane? id).map Pane.addition) ++
    ids.getLast?.toList.map fun id => .registry (.activePane id)

theorem bus_withCopies (t : PaneTable) (hinactive : ∀ c ∈ copies, t.active ≠ some c.2) :
    (t.withCopies copies).bus =
      ((t.withCopies copies).copyNews (copies.map Prod.snd)).foldl Bus.publish t.bus := by
  have hnews : (t.withCopies copies).copyNews (copies.map Prod.snd) =
      ((copies.map Prod.snd).foldl (relink copies) t).copyNews (copies.map Prod.snd) := by
    rw [withCopies_eq]
    rfl
  have hactive : ((copies.map Prod.snd).foldl announce
      ((copies.map Prod.snd).foldl (relink copies) t)).active = t.active := by
    rw [foldl_announce_eq, foldl_relink_eq]
  have hbus : ((copies.map Prod.snd).foldl (relink copies) t).bus = t.bus := by
    rw [foldl_relink_eq]
  rw [hnews, copyNews, List.foldl_append, ← hbus, ← bus_foldl_announce, withCopies]
  cases hlast : (copies.map Prod.snd).getLast? with
  | none => rfl
  | some last =>
    obtain ⟨c, hc, rfl⟩ := List.mem_map.1 (List.mem_of_getLast? hlast)
    have hne := fun heq => hinactive c hc (hactive.symm.trans heq)
    exact congrArg PaneTable.bus (setActive_of_ne hne)

/-- The last copy becomes active. -/
theorem active_withCopies (t : PaneTable) {c : PaneId × PaneId} (hc : copies.getLast? = some c) :
    (t.withCopies copies).active = some c.2 := by
  have hlast : (copies.map Prod.snd).getLast? = some c.2 := by
    rw [List.getLast?_map, hc, Option.map_some]
  rw [withCopies_eq]
  show (copies.map Prod.snd).getLast?.or t.active = some c.2
  rw [hlast, Option.some_or]

/-! ## Who spawned a copy -/

theorem lookup_eq_some_iff (hnodup : (copies.map Prod.fst).Nodup) {s c : PaneId} :
    copies.lookup s = some c ↔ (s, c) ∈ copies := by
  refine ⟨mem_of_lookup, fun hmem => ?_⟩
  cases hlookup : copies.lookup s with
  | none =>
    have hne := List.lookup_eq_none_iff.1 hlookup (s, c) hmem
    simp at hne
  | some d =>
    have hpair := List.inj_on_of_nodup_map hnodup (mem_of_lookup hlookup) hmem rfl
    exact congrArg some (congrArg Prod.snd hpair)

theorem lookup_eq_none_iff_notMem {s : PaneId} :
    copies.lookup s = none ↔ s ∉ copies.map Prod.fst := by
  rw [List.lookup_eq_none_iff]
  constructor
  · intro hne hmem
    obtain ⟨c, hc, rfl⟩ := List.mem_map.1 hmem
    simpa using hne c hc
  · intro hnot c hc
    simpa using fun heq : s = c.1 => hnot (heq ▸ List.mem_map_of_mem hc)

/-- The new spawners are the copies of the old ones, and those of the old ones that have no copy. -/
theorem mem_respawned_iff (hnodup : (copies.map Prod.fst).Nodup) {spawners : List PaneId} :
    k ∈ respawned copies spawners ↔
      (∃ s ∈ spawners, (s, k) ∈ copies) ∨ k ∈ spawners ∧ k ∉ copies.map Prod.fst := by
  constructor
  · intro hk
    obtain ⟨s, hs, rfl⟩ := List.mem_map.1 hk
    cases hlookup : copies.lookup s with
    | none => exact .inr ⟨hs, lookup_eq_none_iff_notMem.1 hlookup⟩
    | some c => exact .inl ⟨s, hs, mem_of_lookup hlookup⟩
  · rintro (⟨s, hs, hmem⟩ | ⟨hk, hnot⟩)
    · exact List.mem_map.2 ⟨s, hs, by rw [(lookup_eq_some_iff hnodup).2 hmem, Option.getD_some]⟩
    · exact mem_respawned_of_lookup_eq_none hk (lookup_eq_none_iff_notMem.2 hnot)

theorem spawns_iff_of_map_childless {r : Pane} (h : (u.pane? k).map childless = some r)
    (parent : PaneId) : u.Spawns parent k ↔ parent ∈ r.spawners := by
  obtain ⟨q, hq, rfl⟩ := Option.map_eq_some_iff.1 h
  constructor
  · rintro ⟨q', hq', hmem⟩
    obtain rfl := Option.some.inj (hq.symm.trans hq')
    exact hmem
  · exact fun hmem => ⟨q, hq, hmem⟩

/-! ## The table with its copies -/

/-- The panes that are evicted when several are copied. -/
def evictedFor (t : PaneTable) (sources : List PaneId) : List PaneId :=
  t.evicted sources sources.eraseDups.length

/-- Several live panes of a sound table were copied, and the copies are still to be relinked. -/
structure Batch (t : PaneTable) (sources : List PaneId) (copies : List (PaneId × PaneId))
    (v : PaneTable) : Prop where
  sound : t.Sound
  sources_live : ∀ s ∈ sources, t.contains s = true
  sources_eq : copies.map Prod.fst = sources.eraseDups
  nodup : (copies.map Prod.snd).Nodup
  made : t.Copies (t.evictedFor sources) copies v
  relinked : ∃ rank, (v.withCopies copies).Linked rank

/-- Live panes can always be copied together. -/
theorem Sound.exists_batch (h : t.Sound) (hsources : ∀ s ∈ sources, t.contains s = true) :
    ∃ v copies, t.duplicateMany sources = .ok (v.withCopies copies, copies.map Prod.snd) ∧
      t.Batch sources copies v := by
  obtain ⟨rank, hwf⟩ := h.wellFormed
  obtain ⟨v, copies, hcopies, hduplicate⟩ := hwf.exists_duplicateMany hsources
  obtain ⟨rank', hcopying⟩ := hwf.copyEach hsources hcopies
  obtain ⟨⟨rank'', hreached⟩, -⟩ := hwf.duplicateMany hduplicate
  obtain ⟨hfst, hmade⟩ :=
    hwf.copies_copySome hsources (fun _ hs => List.mem_eraseDups.1 hs) hcopies
  refine ⟨v, copies, hduplicate, h, hsources, hfst, hcopying.copied.nodup, ?_,
    rank'', hreached.rooted.linked⟩
  rwa [evictedFor, ← hfst, List.length_map]

namespace Batch

theorem nodup_sources (h : t.Batch sources copies v) : (copies.map Prod.fst).Nodup :=
  h.sources_eq ▸ nodup_eraseDups sources

theorem mem_sources_iff (h : t.Batch sources copies v) :
    k ∈ copies.map Prod.fst ↔ k ∈ sources := by
  rw [h.sources_eq, List.mem_eraseDups]

theorem source_mem (h : t.Batch sources copies v) {c : PaneId × PaneId} (hc : c ∈ copies) :
    c.1 ∈ sources :=
  h.mem_sources_iff.1 (List.mem_map_of_mem hc)

/-- A pane that stays is no copy. -/
theorem notMem_of_live (h : t.Batch sources copies v) (hk : t.contains k = true)
    (hstays : k ∉ t.evictedFor sources) : k ∉ copies.map Prod.snd := by
  intro hmem
  obtain ⟨c, hc, rfl⟩ := List.mem_map.1 hmem
  exact hstays (h.made.fresh c hc hk)

theorem source_notMem_evictedFor (h : t.Batch sources copies v) (hk : k ∈ sources) :
    k ∉ t.evictedFor sources := by
  obtain ⟨rank, hwf⟩ := h.sound.wellFormed
  exact hwf.rooted.linked.source_notMem_evicted hk

/-- What a copy is in the end, but for what it spawned. -/
theorem map_childless_copy (h : t.Batch sources copies v) {c : PaneId × PaneId} (hc : c ∈ copies) :
    ∃ p color, t.pane? c.1 = some p ∧ ((v.withCopies copies).pane? c.2).map childless =
      some (respawn copies (pruned (t.evictedFor sources) { t.copyOf c.2 p with color })) := by
  obtain ⟨p, color, hp, hcopy⟩ := h.made.copy c hc
  refine ⟨p, color, hp, ?_⟩
  rw [map_childless_withCopies h.nodup, if_pos (List.mem_map_of_mem hc), hcopy]
  rfl

/-- What any other pane is in the end, but for what it spawned. -/
theorem map_childless_other (h : t.Batch sources copies v) (hk : k ∉ copies.map Prod.snd) :
    ((v.withCopies copies).pane? k).map childless = if k ∈ t.evictedFor sources then none
      else (t.pane? k).map (pruned (t.evictedFor sources)) := by
  rw [map_childless_withCopies h.nodup, if_neg hk, h.made.other k hk]

theorem contains_iff (h : t.Batch sources copies v) (k : PaneId) :
    (v.withCopies copies).contains k = true ↔
      k ∈ copies.map Prod.snd ∨ t.contains k = true ∧ k ∉ t.evictedFor sources := by
  by_cases hk : k ∈ copies.map Prod.snd
  · obtain ⟨c, hc, rfl⟩ := List.mem_map.1 hk
    obtain ⟨p, color, -, hcopy⟩ := h.map_childless_copy hc
    obtain ⟨q, hq, -⟩ := Option.map_eq_some_iff.1 hcopy
    exact iff_of_true (contains_of_pane? hq) (.inl hk)
  · rw [or_iff_right hk]
    have hother := congrArg Option.isSome (h.map_childless_other hk)
    rw [Option.isSome_map] at hother
    show ((v.withCopies copies).pane? k).isSome = true ↔ (t.pane? k).isSome = true ∧ _
    rw [hother]
    by_cases hgone : k ∈ t.evictedFor sources
    · simp [hgone]
    · simp [hgone]

/-- **Who spawned a copy**: the copies of those that spawned its source, and those of them that were
not copied and are not gone. -/
theorem spawns_copy_iff (h : t.Batch sources copies v) {c : PaneId × PaneId} (hc : c ∈ copies) :
    (v.withCopies copies).Spawns k c.2 ↔ (∃ s, (s, k) ∈ copies ∧ t.Spawns s c.1) ∨
      k ∉ sources ∧ k ∉ t.evictedFor sources ∧ t.Spawns k c.1 := by
  obtain ⟨p, color, hp, hcopy⟩ := h.map_childless_copy hc
  have hspawns : ∀ s, t.Spawns s c.1 ↔ s ∈ p.spawners := fun s =>
    spawns_iff_of_map_childless (r := childless p) (by rw [hp]; rfl) s
  rw [spawns_iff_of_map_childless hcopy]
  change k ∈ respawned copies (p.spawners.filter _) ↔ _
  rw [mem_respawned_iff h.nodup_sources, h.mem_sources_iff]
  simp only [List.mem_filter, decide_eq_true_eq, hspawns]
  constructor
  · rintro (⟨s, ⟨hs, -⟩, hmem⟩ | ⟨⟨hk, hstays⟩, hnot⟩)
    · exact .inl ⟨s, hmem, hs⟩
    · exact .inr ⟨hnot, hstays, hk⟩
  · rintro (⟨s, hmem, hs⟩ | ⟨hnot, hstays, hk⟩)
    · exact .inl ⟨s, ⟨hs, h.source_notMem_evictedFor (h.source_mem hmem)⟩, hmem⟩
    · exact .inr ⟨⟨hk, hstays⟩, hnot⟩

/-- The other panes keep their spawners, as far as these are not gone. -/
theorem spawns_other_iff (h : t.Batch sources copies v) {child : PaneId}
    (hchild : child ∉ copies.map Prod.snd) :
    (v.withCopies copies).Spawns k child ↔
      k ∉ t.evictedFor sources ∧ child ∉ t.evictedFor sources ∧ t.Spawns k child := by
  have hother := h.map_childless_other hchild
  by_cases hgone : child ∈ t.evictedFor sources
  · rw [if_pos hgone, Option.map_eq_none_iff] at hother
    simp [Spawns, hother, hgone]
  · rw [if_neg hgone] at hother
    cases hp : t.pane? child with
    | none =>
      rw [hp, Option.map_none, Option.map_eq_none_iff] at hother
      simp [Spawns, hother, hp]
    | some p =>
      rw [hp, Option.map_some] at hother
      rw [spawns_iff_of_map_childless hother, pruned, List.mem_filter, decide_eq_true_eq]
      simp [Spawns, hp, hgone, and_comm]

/-- Among themselves the copies are linked as their sources are. -/
theorem spawns_copies_iff (h : t.Batch sources copies v) {c d : PaneId × PaneId} (hc : c ∈ copies)
    (hd : d ∈ copies) : (v.withCopies copies).Spawns c.2 d.2 ↔ t.Spawns c.1 d.1 := by
  obtain ⟨rank, hwf⟩ := h.sound.wellFormed
  rw [h.spawns_copy_iff hd]
  constructor
  · rintro (⟨s, hs, hspawns⟩ | ⟨-, hstays, hspawns⟩)
    · have hpair := List.inj_on_of_nodup_map h.nodup hs hc rfl
      exact congrArg Prod.fst hpair ▸ hspawns
    · -- A pane that stays has not the name of a copy.
      have hlive := hwf.rooted.linked.live_of_spawns hspawns
      exact absurd (List.mem_map_of_mem hc) (h.notMem_of_live hlive hstays)
  · exact fun hspawns => .inl ⟨c.1, hc, hspawns⟩

/-- No source is spawned from a copy. -/
theorem not_spawns_source (h : t.Batch sources copies v) {c : PaneId × PaneId} (hc : c ∈ copies)
    {s : PaneId} (hs : s ∈ sources) : ¬(v.withCopies copies).Spawns c.2 s := by
  obtain ⟨rank, hwf⟩ := h.sound.wellFormed
  have hstays := h.source_notMem_evictedFor hs
  rw [h.spawns_other_iff (h.notMem_of_live (h.sources_live s hs) hstays)]
  rintro ⟨hcopy, -, hspawns⟩
  have hlive := hwf.rooted.linked.live_of_spawns hspawns
  exact h.notMem_of_live hlive hcopy (List.mem_map_of_mem hc)

/-- No copy is spawned from a source. -/
theorem not_spawns_copy (h : t.Batch sources copies v) {c : PaneId × PaneId} (hc : c ∈ copies)
    {s : PaneId} (hs : s ∈ sources) : ¬(v.withCopies copies).Spawns s c.2 := by
  rw [h.spawns_copy_iff hc]
  rintro (⟨r, hr, -⟩ | ⟨hnot, -⟩)
  · have hstays := h.source_notMem_evictedFor hs
    exact h.notMem_of_live (h.sources_live s hs) hstays (List.mem_map_of_mem (f := Prod.snd) hr)
  · exact hnot hs

theorem replicates (h : t.Batch sources copies v) {c : PaneId × PaneId} (hc : c ∈ copies) :
    ∃ p q, t.pane? c.1 = some p ∧ (v.withCopies copies).pane? c.2 = some q ∧ q.Replicates p := by
  obtain ⟨p, color, hp, hcopy⟩ := h.map_childless_copy hc
  obtain ⟨q, hq, hchildless⟩ := Option.map_eq_some_iff.1 hcopy
  exact ⟨p, q, hp, hq, replicates_of_childless_eq (h.sound.accounted c.1 p hp) hchildless⟩

/-- The panes that stay lose from their spawners those that are gone. -/
theorem survivor (h : t.Batch sources copies v) (hp : t.pane? k = some p)
    (hk : k ∉ t.evictedFor sources) :
    ∃ q, (v.withCopies copies).pane? k = some q ∧ bare q = bare p ∧
      q.spawners = p.spawners.filter fun s => s ∉ t.evictedFor sources := by
  have hother := h.map_childless_other (h.notMem_of_live (contains_of_pane? hp) hk)
  rw [if_neg hk, hp, Option.map_some] at hother
  obtain ⟨q, hq, hchildless⟩ := Option.map_eq_some_iff.1 hother
  have hbare : bare (childless q) = bare p := by rw [hchildless]; rfl
  exact ⟨q, hq, hbare, congrArg Pane.spawners hchildless⟩

end Batch

/-! ## Copying several panes -/

/-- What copying several panes makes of a table; the copies are given as pairs of a source and its
copy. -/
structure Duplicates (t : PaneTable) (sources : List PaneId) (copies : List (PaneId × PaneId))
    (u : PaneTable) : Prop where
  /-- Each source is copied once, in the order in which they are first named. -/
  sources_eq : copies.map Prod.fst = sources.eraseDups
  nodup : (copies.map Prod.snd).Nodup
  /-- A copy is a new pane; at most it takes the name of one that was evicted before. -/
  fresh : ∀ c ∈ copies, t.contains c.2 = true → c.2 ∈ t.evictedFor sources
  contains_iff : ∀ k, u.contains k = true ↔
    k ∈ copies.map Prod.snd ∨ t.contains k = true ∧ k ∉ t.evictedFor sources
  replica : ∀ c ∈ copies, ∃ p q, t.pane? c.1 = some p ∧ u.pane? c.2 = some q ∧ q.Replicates p
  /-- What panes list as spawned agrees with what the others list as their spawners. -/
  leads_iff : ∀ parent child, u.Leads parent child ↔ u.Spawns parent child
  inside : ∀ c ∈ copies, ∀ d ∈ copies, (u.Spawns c.2 d.2 ↔ t.Spawns c.1 d.1)
  /-- A spawner that was not copied and is not evicted spawned the copy as well. -/
  outside : ∀ c ∈ copies, ∀ k, k ∉ sources → k ∉ t.evictedFor sources → t.Spawns k c.1 →
    u.Spawns k c.2 ∧ u.Leads k c.2
  apart : ∀ c ∈ copies, ∀ s ∈ sources, ¬u.Leads s c.2 ∧ ¬u.Spawns c.2 s
  survivor : ∀ k p, t.pane? k = some p → k ∉ t.evictedFor sources → ∃ q, u.pane? k = some q ∧
    bare q = bare p ∧ q.spawners = p.spawners.filter fun s => s ∉ t.evictedFor sources
  active : ∀ c, copies.getLast? = some c → u.active = some c.2
  /-- The evictions are announced first, then the copies as they are in the end, then that the last
  one became active. -/
  bus : u.bus = (((t.evictedFor sources).map fun k => Event.registry (.paneRemoved k)) ++
    u.copyNews (copies.map Prod.snd)).foldl Bus.publish t.bus

/-- **Copying several panes copies their lineage.** -/
theorem Batch.duplicates (h : t.Batch sources copies v) :
    t.Duplicates sources copies (v.withCopies copies) := by
  obtain ⟨rank, hlinked⟩ := h.relinked
  constructor
  case sources_eq => exact h.sources_eq
  case nodup => exact h.nodup
  case fresh => exact h.made.fresh
  case contains_iff => exact h.contains_iff
  case replica => exact fun c => h.replicates
  case leads_iff => exact fun parent child => hlinked.leads_iff
  case inside => exact fun c hc d hd => h.spawns_copies_iff hc hd
  case outside =>
    intro c hc k hk hstays hspawns
    have hcopy := (h.spawns_copy_iff hc).2 (.inr ⟨hk, hstays, hspawns⟩)
    exact ⟨hcopy, hlinked.leads_iff.2 hcopy⟩
  case apart =>
    intro c hc s hs
    rw [hlinked.leads_iff]
    exact ⟨h.not_spawns_copy hc hs, h.not_spawns_source hc hs⟩
  case survivor => exact fun k p => h.survivor
  case active => exact fun c => active_withCopies v
  case bus => rw [bus_withCopies v h.made.inactive, h.made.bus, List.foldl_append]

end PaneTable

end StateAtlas
