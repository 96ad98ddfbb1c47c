import StateAtlas.Proofs.Pane.Duplicates
/-!
Panes that are copied together, in another order.

The same panes can be named in any order, and repeatedly, when they are copied.  The copies are then
made in another order, so that each may have another name and another colour.  Otherwise the two tables
agree: what is evicted depends on the number of copies only, and a copy and its counterpart are taken
from the same pane and linked to the same panes.

The rest depends on the order by intent.  The copies are created, shown and announced in the order in
which their sources were named, and the last one becomes active.

Main statement: `Batch.sameButCopies`.
-/

namespace StateAtlas.PaneTable

variable {t u u' v v' : PaneTable} {sources sources' gone : List PaneId}
  {copies copies' : List (PaneId × PaneId)} {id id' k k' : PaneId} {p q p' : Pane}

/-! ## Counterparts -/

/-- A pane in a table with copies and its counterpart where the copies have other names: a copy of the
same source, or the pane itself. -/
inductive Counterpart (copies copies' : List (PaneId × PaneId)) : PaneId → PaneId → Prop
  | copy {source id id' : PaneId} (h : (source, id) ∈ copies) (h' : (source, id') ∈ copies') :
    Counterpart copies copies' id id'
  | other {k : PaneId} (h : k ∉ copies.map Prod.snd) (h' : k ∉ copies'.map Prod.snd) :
    Counterpart copies copies' k k

theorem Counterpart.symm (h : Counterpart copies copies' k k') : Counterpart copies' copies k' k := by
  cases h with
  | copy h h' => exact .copy h' h
  | other h h' => exact .other h' h

/-- No pane has two counterparts. -/
theorem Counterpart.unique (hnodup : (copies.map Prod.snd).Nodup)
    (hnodup' : (copies'.map Prod.fst).Nodup) (h : Counterpart copies copies' k id)
    (h' : Counterpart copies copies' k id') : id = id' := by
  cases h with
  | copy hk hid =>
    cases h' with
    | copy hk' hid' =>
      obtain ⟨rfl, -⟩ := Prod.mk.inj (List.inj_on_of_nodup_map hnodup hk hk' rfl)
      exact congrArg Prod.snd (List.inj_on_of_nodup_map hnodup' hid hid' rfl)
    | other hnot => exact absurd (List.mem_map_of_mem hk) hnot
  | other hnot =>
    cases h' with
    | copy hk => exact absurd (List.mem_map_of_mem hk) hnot
    | other => rfl

/-- The pane without its names, its colour and its links. -/
def anonymous (p : Pane) : Pane :=
  { p with
    id := ⟨""⟩
    color := ""
    brush := { p.brush with pane := ⟨""⟩ }
    spawners := []
    spawned := {} }

/-- Whether panes hold and show the same and were spawned from the same panes, if copies have other
names. -/
structure Akin (copies copies' : List (PaneId × PaneId)) (p p' : Pane) : Prop where
  content : anonymous p' = anonymous p
  spawners : List.Forall₂ (Counterpart copies copies') p.spawners p'.spawners

/-- Whether besides the same panes were spawned from them. -/
structure Alike (copies copies' : List (PaneId × PaneId)) (p p' : Pane) : Prop
    extends Akin copies copies' p p' where
  spawned : ∀ k k', Counterpart copies copies' k k' →
    (p.spawned.contains k = true ↔ p'.spawned.contains k' = true)

/-- What panes spawned has no part in whether they are akin. -/
theorem rel_akin_of_childless {o o' : Option Pane}
    (h : Option.Rel (Akin copies copies') (o.map childless) (o'.map childless)) :
    Option.Rel (Akin copies copies') o o' := by
  cases o with
  | none =>
    cases o' with
    | none => exact .none
    | some p' => nomatch h
  | some p =>
    cases o' with
    | none => nomatch h
    | some p' =>
      cases h with
      | some hakin => exact .some ⟨hakin.content, hakin.spawners⟩

/-- The tables agree but for the copies' names, colours and places and for their order. -/
structure SameButCopies (copies copies' : List (PaneId × PaneId)) (u u' : PaneTable) : Prop where
  forth : ∀ k, u.contains k = true → ∃! k', Counterpart copies copies' k k'
  back : ∀ k', u'.contains k' = true → ∃! k, Counterpart copies copies' k k'
  alike : ∀ k k', Counterpart copies copies' k k' →
    Option.Rel (Alike copies copies') (u.pane? k) (u'.pane? k')
  /-- The panes that are no copies have the same name and colour. -/
  other : ∀ k, k ∉ copies.map Prod.snd → k ∉ copies'.map Prod.snd →
    (u'.pane? k).map bare = (u.pane? k).map bare
  ids : u'.ids.filter (fun k => k ∉ copies'.map Prod.snd) =
    u.ids.filter fun k => k ∉ copies.map Prod.snd
  created : ∃ old, u.created = old ++ copies.map Prod.snd ∧ u'.created = old ++ copies'.map Prod.snd
  primary : u'.primary = u.primary
  naming : u'.naming = u.naming
  nextLease : u'.nextLease = u.nextLease
  maxPanes : u'.maxPanes = u.maxPanes
  brushWindow : u'.brushWindow = u.brushWindow

/-! ## What does not depend on the order -/

theorem length_eraseDups_congr (hsame : ∀ s, s ∈ sources' ↔ s ∈ sources) :
    sources'.eraseDups.length = sources.eraseDups.length := by
  have hperm : sources'.eraseDups.Perm sources.eraseDups :=
    (List.perm_ext_iff_of_nodup (nodup_eraseDups _) (nodup_eraseDups _)).2 fun s => by
      rw [List.mem_eraseDups, List.mem_eraseDups, hsame]
  exact hperm.length_eq

/-- The same panes are evicted. -/
theorem evictedFor_congr (t : PaneTable) (hsame : ∀ s, s ∈ sources' ↔ s ∈ sources) :
    t.evictedFor sources' = t.evictedFor sources := by
  have hstays : t.stays sources' = t.stays sources := by
    funext k
    simp only [stays, List.contains_eq_mem, hsame]
  rw [evictedFor, evictedFor, length_eraseDups_congr hsame, evicted, evicted, evictable, evictable,
    hstays]

namespace Batch

theorem length_eq (h : t.Batch sources copies v) : copies.length = sources.eraseDups.length := by
  rw [← h.sources_eq, List.length_map]

theorem exists_copy (h : t.Batch sources copies v) (hk : k ∈ sources) : ∃ id, (k, id) ∈ copies := by
  obtain ⟨c, hc, rfl⟩ := List.mem_map.1 (h.mem_sources_iff.2 hk)
  exact ⟨c.2, hc⟩

variable (h : t.Batch sources copies v) (h' : t.Batch sources' copies' v')
  (hsame : ∀ s, s ∈ sources' ↔ s ∈ sources)

include h h' hsame

/-- A pane that stays is its own counterpart. -/
theorem counterpart_of_live (hlive : t.contains k = true) (hk : k ∉ t.evictedFor sources) :
    Counterpart copies copies' k k :=
  .other (h.notMem_of_live hlive hk) (h'.notMem_of_live hlive (evictedFor_congr t hsame ▸ hk))

/-- Each live pane has a counterpart. -/
theorem exists_counterpart (hk : (v.withCopies copies).contains k = true) :
    ∃! k', Counterpart copies copies' k k' := by
  refine existsUnique_of_exists_of_unique ?_ fun _ _ =>
    Counterpart.unique h.nodup h'.nodup_sources
  rcases (h.contains_iff k).1 hk with hcopy | ⟨hlive, hstays⟩
  · obtain ⟨⟨source, id⟩, hc, rfl⟩ := List.mem_map.1 hcopy
    obtain ⟨id', hc'⟩ := h'.exists_copy ((hsame source).2 (h.source_mem hc))
    exact ⟨id', .copy hc hc'⟩
  · exact ⟨k, h.counterpart_of_live h' hsame hlive hstays⟩

/-- A spawner of a pane that is copied gives way to its copy, in either table. -/
theorem counterpart_lookup (hlive : t.contains k = true) (hk : k ∉ t.evictedFor sources) :
    Counterpart copies copies' ((copies.lookup k).getD k) ((copies'.lookup k).getD k) := by
  by_cases hsource : k ∈ sources
  · obtain ⟨id, hc⟩ := h.exists_copy hsource
    obtain ⟨id', hc'⟩ := h'.exists_copy ((hsame k).2 hsource)
    rw [(lookup_eq_some_iff h.nodup_sources).2 hc, (lookup_eq_some_iff h'.nodup_sources).2 hc']
    exact .copy hc hc'
  · rw [lookup_eq_none_iff_notMem.2 fun hmem => hsource (h.mem_sources_iff.1 hmem),
      lookup_eq_none_iff_notMem.2 fun hmem => hsource ((hsame k).1 (h'.mem_sources_iff.1 hmem))]
    exact h.counterpart_of_live h' hsame hlive hk

omit h' hsame in
/-- The spawners of a pane that are left after the evictions are live and stay. -/
theorem forall₂_spawners (hp : t.pane? id = some p) {f f' : PaneId → PaneId}
    (hf : ∀ k, t.contains k = true → k ∉ t.evictedFor sources →
      Counterpart copies copies' (f k) (f' k)) :
    List.Forall₂ (Counterpart copies copies')
      ((p.spawners.filter fun s => s ∉ t.evictedFor sources).map f)
      ((p.spawners.filter fun s => s ∉ t.evictedFor sources).map f') := by
  obtain ⟨rank, hwf⟩ := h.sound.wellFormed
  rw [List.forall₂_map_left_iff, List.forall₂_map_right_iff, List.forall₂_same]
  intro s hs
  obtain ⟨hs, hstays⟩ := List.mem_filter.1 hs
  exact hf s (hwf.rooted.linked.live_of_spawns ⟨p, hp, hs⟩) (of_decide_eq_true hstays)

/-- A pane and its counterpart hold the same, and were spawned from the same panes. -/
theorem rel_akin (hk : Counterpart copies copies' k k') :
    Option.Rel (Akin copies copies')
      ((v.withCopies copies).pane? k) ((v'.withCopies copies').pane? k') := by
  have hgone := evictedFor_congr t hsame
  refine rel_akin_of_childless ?_
  cases hk with
  | copy hc hc' =>
    obtain ⟨p, color, hp, hcopy⟩ := h.map_childless_copy hc
    obtain ⟨p', color', hp', hcopy'⟩ := h'.map_childless_copy hc'
    obtain rfl : p = p' := Option.some.inj (hp.symm.trans hp')
    rw [hcopy, hcopy', hgone]
    exact .some ⟨rfl, h.forall₂_spawners hp fun k => h.counterpart_lookup h' hsame⟩
  | other hnot hnot' =>
    rw [h.map_childless_other hnot, h'.map_childless_other hnot', hgone]
    split
    · exact .none
    cases hp : t.pane? k with
    | none => exact .none
    | some p =>
      have hstay : ∀ k, t.contains k = true → k ∉ t.evictedFor sources →
          Counterpart copies copies' (id k) (id k) := fun k => h.counterpart_of_live h' hsame
      have hspawners := h.forall₂_spawners hp hstay
      rw [List.map_id] at hspawners
      exact .some ⟨rfl, hspawners⟩

omit hsame in
theorem biUnique_counterpart : Relator.BiUnique (Counterpart copies copies') where
  left _ _ _ hk hk' := hk.symm.unique h'.nodup h.nodup_sources hk'.symm
  right _ _ _ hk hk' := hk.unique h.nodup h'.nodup_sources hk'

/-- A pane spawned another just when its counterpart spawned the counterpart of the other. -/
theorem spawns_counterpart_iff (hid : Counterpart copies copies' id id')
    (hk : Counterpart copies copies' k k') :
    (v.withCopies copies).Spawns id k ↔ (v'.withCopies copies').Spawns id' k' := by
  have hrel := h.rel_akin h' hsame hk
  unfold Spawns
  generalize (v.withCopies copies).pane? k = o, (v'.withCopies copies').pane? k' = o' at hrel ⊢
  cases hrel with
  | none => simp
  | some hakin => simpa using List.rel_mem (biUnique_counterpart h h') hid hakin.spawners

theorem rel_alike (hid : Counterpart copies copies' id id') :
    Option.Rel (Alike copies copies')
      ((v.withCopies copies).pane? id) ((v'.withCopies copies').pane? id') := by
  obtain ⟨rank, hlinked⟩ := h.relinked
  obtain ⟨rank', hlinked'⟩ := h'.relinked
  have hrel := h.rel_akin h' hsame hid
  cases hp : (v.withCopies copies).pane? id with
  | none =>
    cases hp' : (v'.withCopies copies').pane? id' with
    | none => exact .none
    | some p' => rw [hp, hp'] at hrel; nomatch hrel
  | some p =>
    cases hp' : (v'.withCopies copies').pane? id' with
    | none => rw [hp, hp'] at hrel; nomatch hrel
    | some p' =>
      rw [hp, hp'] at hrel
      cases hrel with
      | some hakin =>
        refine .some ⟨hakin, fun k k' hk => ?_⟩
        rw [hlinked.mem_spawned hp, hlinked'.mem_spawned hp']
        exact h.spawns_counterpart_iff h' hsame hid hk

/-- **The order in which panes are copied matters for the copies' names, colours and places only.** -/
theorem sameButCopies :
    SameButCopies copies copies' (v.withCopies copies) (v'.withCopies copies') := by
  -- Which panes are evicted for the copies does not depend on the order of the sources.
  have hgone := evictedFor_congr t hsame
  have hlength : copies'.length = copies.length := by
    rw [h.length_eq, h'.length_eq, length_eraseDups_congr hsame]
  constructor
  case forth => exact fun k => h.exists_counterpart h' hsame
  case back =>
    intro k' hk'
    obtain ⟨k, hk, hunique⟩ := h'.exists_counterpart h (fun s => (hsame s).symm) hk'
    exact ⟨k, hk.symm, fun other hother => hunique other hother.symm⟩
  case alike => exact fun k k' => h.rel_alike h' hsame
  case other =>
    intro k hnot hnot'
    have hchildless : ((v'.withCopies copies').pane? k).map childless =
        ((v.withCopies copies).pane? k).map childless := by
      rw [h.map_childless_other hnot, h'.map_childless_other hnot', hgone]
    have hbare := congrArg (Option.map bare) hchildless
    rw [Option.map_map, Option.map_map] at hbare
    exact hbare
  all_goals rw [withCopies_eq v, withCopies_eq v']
  case ids => exact (h'.made.ids.trans (by rw [hgone])).trans h.made.ids.symm
  case created =>
    refine ⟨t.created.filter fun k => k ∉ t.evictedFor sources, h.made.created, ?_⟩
    rw [← hgone]
    exact h'.made.created
  case primary => exact h'.made.primary.trans h.made.primary.symm
  case naming =>
    refine h'.made.naming.trans (Eq.trans ?_ h.made.naming.symm)
    rw [hlength]
  case nextLease => exact h'.made.nextLease.trans h.made.nextLease.symm
  case maxPanes => exact h'.made.maxPanes.trans h.made.maxPanes.symm
  case brushWindow => exact h'.made.brushWindow.trans h.made.brushWindow.symm

end Batch

end StateAtlas.PaneTable
