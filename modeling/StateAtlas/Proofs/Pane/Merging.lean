import StateAtlas.Proofs.Graph.Additions
import StateAtlas.Proofs.Pane.Accounting
/-!
What a merge makes of panes.

The merged pane holds the union of what its inputs hold, each node and edge as the first input has it
that holds one of its name.  Making room before, linking the new pane and removing the inputs after it
change nothing of the other panes but their lineage.

The store of the merged pane is put together from nodes and edges alone, so which nodes were expanded
is forgotten: in it a node is expanded just when an edge leaves it.

Main statement: `Sound.mergesInto`.
-/

namespace StateAtlas

namespace Store

/-! ## Unions and expanded nodes -/

theorem expanded_union (stores : List Store) : (union stores).tables.expanded = {} :=
  List.foldlRecOn (motive := fun s => s.tables.expanded = {}) stores _ rfl
    fun (s : Store) hs other _ => (expanded_add s.tables ⟨other.nodes, other.edges⟩).trans hs

/-- In a union a node is expanded just when an edge leaves it that is the first of its name. -/
theorem isCollapsed_union {stores : List Store} {id : NodeId} :
    (union stores).isCollapsed id = false ↔
      ∃ s ∈ stores, ∃ e ∈ s.edges, e.source = id ∧
        stores.findSome? (fun s => s.edge? e.key) = some e := by
  rw [isCollapsed_eq_false_iff, expanded_union]
  constructor
  · rintro (habsurd | ⟨e, he, hsource⟩)
    · nomatch habsurd
    · have hfound := edge?_of_mem_edges he
      rw [edge?_union] at hfound
      obtain ⟨s, hs, hheld⟩ := List.exists_of_findSome?_eq_some hfound
      exact ⟨s, hs, e, mem_edges_of_edge? hheld, hsource, hfound⟩
  · rintro ⟨s, hs, e, he, hsource, hfound⟩
    rw [← edge?_union] at hfound
    exact .inr ⟨e, mem_edges_of_edge? hfound, hsource⟩

end Store

/-- What a pane that was merged from others holds: the union of what they hold, earlier ones first.
Each node and edge is the first of its name; settings and brush are those of the first pane. -/
structure Pane.Unites (merged : Pane) (panes : List Pane) : Prop where
  nodeIds : merged.store.nodeIds = (panes.flatMap fun p => p.store.nodeIds).eraseDups
  edgeIds : merged.store.edgeIds = (panes.flatMap fun p => p.store.edgeIds).eraseDups
  node? : ∀ id, merged.store.node? id = panes.findSome? fun p => p.store.node? id
  edge? : ∀ k, merged.store.edge? k = panes.findSome? fun p => p.store.edge? k
  everAdded : ∀ id, merged.everAdded.contains id = true ↔
    ∃ p ∈ panes, p.everAdded.contains id = true
  spawnerNodes : merged.spawnerNodes = (panes.flatMap Pane.spawnerNodes).eraseDups
  view : panes.head?.map Pane.view = some merged.view
  brush : panes.head?.map (fun p => p.brush.state) = some merged.brush.state

namespace PaneTable

variable {t u v : PaneTable} {rank : PaneId → Nat} {id k : PaneId} {p q : Pane}

/-! ## Panes but for their lineage -/

/-- The pane without its place in the lineage. -/
def bare (p : Pane) : Pane := { p with spawners := [], spawned := {} }

theorem eq_of_bare_eq (h : bare q = bare p) :
    q = { p with spawners := q.spawners, spawned := q.spawned } :=
  congrArg (fun r : Pane => { r with spawners := q.spawners, spawned := q.spawned }) h

/-- What a merged pane holds is no matter of its lineage. -/
theorem unites_of_bare_eq {panes : List Pane} (h : p.Unites panes) (hbare : bare q = bare p) :
    q.Unites panes := by
  rw [eq_of_bare_eq hbare]
  exact ⟨h.nodeIds, h.edgeIds, h.node?, h.edge?, h.everAdded, h.spawnerNodes, h.view, h.brush⟩

theorem live_announce (t : PaneTable) (id : PaneId) : (t.announce id).live = t.live := by
  unfold announce
  split <;> rfl

theorem live_setActive (t : PaneTable) (id : PaneId) : (t.setActive id).live = t.live := by
  rw [setActive_eq]

theorem live_reactivate (t : PaneTable) (activate : Bool) :
    (t.reactivate activate).live = t.live := by
  unfold reactivate
  split
  · rfl
  · split
    · exact live_setActive t _
    · rfl

theorem map_bare_removeOne (t : PaneTable) (victim k : PaneId) :
    ((t.removeOne victim).pane? k).map bare =
      if victim = k then none else (t.pane? k).map bare := by
  by_cases hlive : t.contains victim = true
  · rw [pane?_removeOne t victim k hlive]
    split
    · rfl
    · rw [Option.map_map]
      rfl
  · rw [removeOne_of_not_contains hlive]
    split
    next heq =>
      have hnone : t.pane? k = none := Option.not_isSome_iff_eq_none.1 (heq ▸ hlive)
      rw [hnone, Option.map_none]
    next => rfl

/-- Removing panes leaves the others as they are, apart from the lineage. -/
theorem map_bare_remove (t : PaneTable) (victims : List PaneId) (activate : Bool) (k : PaneId) :
    ((t.remove victims activate).1.pane? k).map bare =
      if k ∈ victims then none else (t.pane? k).map bare := by
  have hfold : (((victims.foldl removeOne t).pane? k).map bare =
      if k ∈ victims then none else (t.pane? k).map bare) := by
    induction victims generalizing t with
    | nil => simp
    | cons victim victims ih =>
      rw [List.foldl_cons, ih, map_bare_removeOne]
      by_cases hk : victim = k
      · simp [hk]
      · simp [hk, Ne.symm hk]
  rw [← hfold, pane?, remove, live_reactivate, pane?]

/-- Making room leaves the panes that stay as they are, apart from the lineage. -/
theorem bare_of_pane?_makeRoom {protected_ : List PaneId}
    (hq : (t.makeRoom protected_).pane? k = some q) : ∃ p, t.pane? k = some p ∧ bare q = bare p := by
  refine makeRoom_induction (P := fun u => ∀ q, u.pane? k = some q →
    ∃ p, t.pane? k = some p ∧ bare q = bare p) ?_ (fun q hq => ⟨q, hq, rfl⟩) q hq
  intro u victim hold _ q hq
  have hremoved := map_bare_remove u [victim] false k
  rw [hq, Option.map_some] at hremoved
  split at hremoved
  · nomatch hremoved
  · obtain ⟨r, hr, heq⟩ := Option.map_eq_some_iff.1 hremoved.symm
    obtain ⟨p, hp, hbare⟩ := hold r hr
    exact ⟨p, hp, heq.symm.trans hbare⟩

theorem map_bare_place (t : PaneTable) (p : Pane) (after : Option PaneId) (insert : InsertPolicy)
    (k : PaneId) :
    ((t.place p after insert).pane? k).map bare =
      if p.id = k then some (bare p) else (t.pane? k).map bare :=
  map_pane?_place (fun _ _ => rfl) t p after insert k

/-! ## The merged pane -/

variable {ids : List PaneId} {panes : List Pane} {keep : Bool}

theorem map_bare_withMerged (t : PaneTable) (ids : List PaneId) (panes : List Pane) (keep : Bool)
    (k : PaneId) :
    ((t.withMerged ids panes keep).pane? k).map bare =
      if (t.merged ids panes keep).id = k then some (bare (t.merged ids panes keep))
      else ((t.roomFor ids keep).pane? k).map bare := by
  rw [← map_bare_place, pane?, withMerged, live_setActive, live_announce, pane?]

theorem store_merged (t : PaneTable) (ids : List PaneId) (panes : List Pane) (keep : Bool) :
    (t.merged ids panes keep).store = Store.union (panes.map Pane.store) :=
  store_union ..

/-- **The merged pane is the union of its inputs** if these account for what they hold. -/
theorem unites_merged (hne : panes ≠ []) (h : ∀ p ∈ panes, p.Accounted) :
    (t.merged ids panes keep).Unites panes := by
  have hstore := store_merged t ids panes keep
  have haccounted : (t.merged ids panes keep).Accounted := accounted_union h _ _ _
  constructor
  case nodeIds => rw [hstore, Store.nodeIds_union, List.flatMap_map]
  case edgeIds => rw [hstore, Store.edgeIds_union, List.flatMap_map]
  case node? =>
    intro id
    rw [hstore, Store.node?_union, List.findSome?_map]
    rfl
  case edge? =>
    intro k
    rw [hstore, Store.edge?_union, List.findSome?_map]
    rfl
  case everAdded =>
    -- Both sides are told by the stores.
    intro id
    rw [haccounted id, hstore, Store.nodeIds_union, List.mem_eraseDups, List.flatMap_map,
      List.mem_flatMap]
    exact exists_congr fun p => and_congr_right fun hp => (h p hp id).symm
  case spawnerNodes => rfl
  all_goals
    obtain ⟨p, panes, rfl⟩ := List.exists_cons_of_ne_nil hne
    rfl

/-! ## What is announced -/

theorem announce_eq (hp : t.pane? id = some p) :
    t.announce id = t.publish
      (.registry (.paneAdded p.id p.color p.store.nodeIds p.spawners p.spawnerNodes)) := by
  unfold announce
  rw [hp]

theorem setActive_of_ne (h : t.active ≠ some id) :
    t.setActive id = ({ t with active := some id } : PaneTable).publish
      (.registry (.activePane id)) := by
  unfold setActive
  rw [if_neg h]

theorem reactivate_of_live (hactive : t.active = some id) (hid : t.contains id = true)
    (activate : Bool) : t.reactivate activate = t := by
  have hlive : t.active.any t.contains = true := by rw [hactive]; exact hid
  unfold reactivate
  rw [if_pos hlive]

theorem bus_removeOne (hid : t.contains id = true) :
    (t.removeOne id).bus = t.bus.publish (.registry (.paneRemoved id)) := by
  rw [removeOne, if_pos hid]
  rfl

theorem active_removeOne (t : PaneTable) (id : PaneId) : (t.removeOne id).active = t.active := by
  unfold removeOne
  split <;> rfl

/-- The removal of live panes is announced in their order. -/
theorem bus_foldl_removeOne {victims : List PaneId} (hnodup : victims.Nodup)
    (hlive : ∀ i ∈ victims, t.contains i = true) :
    (victims.foldl removeOne t).bus =
      (victims.map fun i => Event.registry (.paneRemoved i)).foldl Bus.publish t.bus := by
  induction victims generalizing t with
  | nil => rfl
  | cons victim victims ih =>
    obtain ⟨hnot, hnodup⟩ := List.nodup_cons.1 hnodup
    obtain ⟨hvictim, hvictims⟩ := List.forall_mem_cons.1 hlive
    have hrest : ∀ i ∈ victims, (t.removeOne victim).contains i = true := fun i hi =>
      (contains_removeOne ..).2 ⟨Ne.symm (ne_of_mem_of_not_mem hi hnot), hvictims i hi⟩
    rw [List.foldl_cons, ih hnodup hrest, bus_removeOne hvictim]
    rfl

theorem active_foldl_removeOne (victims : List PaneId) (t : PaneTable) :
    (victims.foldl removeOne t).active = t.active :=
  List.foldlRecOn (motive := fun u => u.active = t.active) victims _ rfl
    fun u hu victim _ => (active_removeOne u victim).trans hu

/-- A pane that is not removed and was spawned from none of those removed keeps its spawners. -/
theorem spawners_foldl_removeOne {victims : List PaneId} (hp : t.pane? k = some p)
    (hk : k ∉ victims) (hspawners : ∀ s ∈ p.spawners, s ∉ victims) :
    ∃ q, (victims.foldl removeOne t).pane? k = some q ∧ bare q = bare p ∧
      q.spawners = p.spawners := by
  induction victims generalizing t p with
  | nil => exact ⟨p, hp, rfl, rfl⟩
  | cons victim victims ih =>
    obtain ⟨hne, hk⟩ := not_or.1 (List.mem_cons.not.1 hk)
    have hsame : p.spawners.filter (fun s => s ≠ victim) = p.spawners :=
      List.filter_eq_self.2 fun s hs =>
        decide_eq_true fun heq => hspawners s hs (heq ▸ List.mem_cons_self)
    by_cases hlive : t.contains victim = true
    · have hget : (t.removeOne victim).pane? k = some (unlinked victim p) := by
        rw [pane?_removeOne t victim k hlive, if_neg (Ne.symm hne), hp, Option.map_some]
      obtain ⟨q, hq, hbare, hqs⟩ := ih hget hk fun s hs => fun hmem =>
        hspawners s (List.mem_filter.1 hs).1 (List.mem_cons_of_mem _ hmem)
      exact ⟨q, hq, hbare, hqs.trans hsame⟩
    · rw [List.foldl_cons, removeOne_of_not_contains hlive]
      exact ih hp hk fun s hs hmem => hspawners s hs (List.mem_cons_of_mem _ hmem)

/-! ## Merges -/

theorem pane?_withMerged (hp : (t.roomFor ids keep).Admits (t.merged ids panes keep)) :
    (t.withMerged ids panes keep).pane? (t.merged ids panes keep).id =
      some (t.merged ids panes keep) := by
  rw [pane?, withMerged, live_setActive, live_announce, ← pane?,
    pane?_place _ none .atEnd hp.nodup_spawners hp.notMem_spawners, if_pos rfl]

/-- The merged pane is announced, and then that it is the active one. -/
theorem bus_withMerged (hp : (t.roomFor ids keep).Admits (t.merged ids panes keep))
    (hactive : (t.roomFor ids keep).active ≠ some (t.merged ids panes keep).id) :
    (t.withMerged ids panes keep).bus =
      let p := t.merged ids panes keep
      [Event.registry (.paneAdded p.id p.color p.store.nodeIds p.spawners p.spawnerNodes),
        .registry (.activePane p.id)].foldl Bus.publish (t.roomFor ids keep).bus := by
  have hget := pane?_place (t.roomFor ids keep) none .atEnd hp.nodup_spawners hp.notMem_spawners
    (t.merged ids panes keep).id
  rw [if_pos rfl] at hget
  rw [withMerged, announce_eq hget, setActive_of_ne]
  · rw [place_eq]
    rfl
  · rw [place_eq]
    exact hactive

/-- In any table a merged pane holds the union of what its inputs hold. -/
theorem store_merge {inputs : List PaneId} (hmerge : t.merge inputs keep = .ok (u, id)) :
    ∃ (panes : List Pane) (merged : Pane), inputs.eraseDups.map t.pane? = panes.map some ∧
      u.pane? id = some merged ∧ merged.store = Store.union (panes.map Pane.store) := by
  obtain ⟨panes, hinputs, -, -, hunion⟩ := merge_eq_ok hmerge
  rw [openUnion_eq] at hunion
  obtain ⟨rfl, rfl⟩ := Prod.mk.inj hunion
  have hput := map_bare_withMerged t inputs.eraseDups panes keep
    (t.merged inputs.eraseDups panes keep).id
  rw [if_pos rfl] at hput
  have hkept : ((if keep then t.withMerged inputs.eraseDups panes keep
      else ((t.withMerged inputs.eraseDups panes keep).remove inputs.eraseDups false).1).pane?
        (t.merged inputs.eraseDups panes keep).id).map bare =
      some (bare (t.merged inputs.eraseDups panes keep)) := by
    cases keep with
    | true => exact hput
    | false =>
      -- The new name is not live, so it is none of the inputs' names.
      have hnot : (t.merged inputs.eraseDups panes false).id ∉ inputs.eraseDups := fun hmem =>
        freshName_not_live t _ ((live_of_inputs hinputs).1 _ hmem)
      refine (map_bare_remove ..).trans ?_
      rw [if_neg hnot, hput]
  obtain ⟨q, hq, hbare⟩ := Option.map_eq_some_iff.1 hkept
  refine ⟨panes, q, hinputs, hq, ?_⟩
  rw [eq_of_bare_eq hbare]
  exact store_merged t inputs.eraseDups panes keep

/-- What a merge comes to. -/
structure MergesInto (t : PaneTable) (ids : List PaneId) (keep : Bool) (u : PaneTable) (id : PaneId)
    (panes : List Pane) (merged : Pane) : Prop where
  /-- The inputs were live. -/
  inputs : ids.map t.pane? = panes.map some
  pane : u.pane? id = some merged
  unites : merged.Unites panes
  /-- The merged pane is spawned from its inputs, or else from the live panes that these were spawned
  from and that are not inputs themselves. -/
  spawners : merged.spawners = if keep then ids else
    ((panes.flatMap Pane.spawners).filter fun s => t.contains s && !ids.contains s).eraseDups
  /-- Inputs that are kept stay live and as they are, apart from the lineage. -/
  kept : keep = true → ∀ i ∈ ids, i ≠ id ∧ u.contains i = true ∧
    (u.pane? i).map bare = (t.pane? i).map bare
  /-- Of discarded inputs none is live; no other pane goes, and the merged pane takes no live name. -/
  discarded : keep = false → t.contains id = false ∧ (∀ i ∈ ids, u.contains i = false) ∧
    ∀ k, t.contains k = true → k ∉ ids →
      u.contains k = true ∧ (u.pane? k).map bare = (t.pane? k).map bare
  /-- The merged pane is announced before it is told that the discarded inputs are gone. -/
  announced : keep = false → u.bus =
    (Event.registry (.paneAdded id merged.color merged.store.nodeIds merged.spawners
        merged.spawnerNodes) :: .registry (.activePane id) ::
      ids.map fun i => .registry (.paneRemoved i)).foldl Bus.publish t.bus

theorem contains_eq_of_map_eq {f : Pane → Pane}
    (h : (u.pane? k).map f = (t.pane? k).map f) : u.contains k = t.contains k := by
  have hsome := congrArg Option.isSome h
  rwa [Option.isSome_map, Option.isSome_map] at hsome

/-- Room is made for a merged pane whose inputs are kept, and these are spared. -/
theorem WellFormed.mergesInto_of_kept (h : t.WellFormed rank) (hnodup : ids.Nodup)
    (hinputs : ids.map t.pane? = panes.map some)
    (hunites : (t.merged ids panes true).Unites panes) :
    t.MergesInto ids true (t.withMerged ids panes true) (t.merged ids panes true).id panes
      (t.merged ids panes true) := by
  obtain ⟨hlive, hpanes⟩ := live_of_inputs hinputs
  obtain ⟨-, hspared, -⟩ := h.roomFor ids true
  have hp := h.admits_merged hnodup hlive hpanes true
  refine ⟨hinputs, pane?_withMerged hp, hunites, rfl, fun _ i hi => ?_, nofun, nofun⟩
  have hroom : (t.roomFor ids true).contains i = true := hspared.protected_live i hi (hlive i hi)
  have hne : i ≠ (t.merged ids panes true).id := fun heq => hp.name_free (heq ▸ hroom)
  have hsame : ((t.withMerged ids panes true).pane? i).map bare = (t.pane? i).map bare := by
    obtain ⟨q, hq⟩ := exists_pane?_iff.1 hroom
    obtain ⟨p, hp, hbare⟩ := bare_of_pane?_makeRoom hq
    rw [map_bare_withMerged, if_neg hne.symm, hq, hp, Option.map_some, Option.map_some, hbare]
  exact ⟨hne, (contains_eq_of_map_eq hsame).trans (hlive i hi), hsame⟩

/-- Discarded inputs go after the merged pane has become the active one. -/
theorem WellFormed.mergesInto_of_discarded (h : t.WellFormed rank) (hnodup : ids.Nodup)
    (hinputs : ids.map t.pane? = panes.map some)
    (hunites : (t.merged ids panes false).Unites panes) :
    ∃ merged, t.MergesInto ids false ((t.withMerged ids panes false).remove ids false).1
      (t.merged ids panes false).id panes merged := by
  obtain ⟨hlive, hpanes⟩ := live_of_inputs hinputs
  have hp := h.admits_merged hnodup hlive hpanes false
  have hnot : (t.merged ids panes false).id ∉ ids := fun hmem => hp.name_free (hlive _ hmem)
  have havoid : ∀ s ∈ (t.merged ids panes false).spawners, s ∉ ids := by
    intro s hs
    obtain ⟨-, hs⟩ := List.mem_filter.1 (List.mem_eraseDups.1 hs)
    simpa using hs
  obtain ⟨q, hq, hbare, hspawners⟩ := spawners_foldl_removeOne (pane?_withMerged hp) hnot havoid
  have hactive : (ids.foldl removeOne (t.withMerged ids panes false)).active =
      some (t.merged ids panes false).id := by
    rw [active_foldl_removeOne, withMerged, active_setActive]
  have hremoved : ((t.withMerged ids panes false).remove ids false).1 =
      ids.foldl removeOne (t.withMerged ids panes false) :=
    reactivate_of_live hactive (contains_of_pane? hq) false
  have hbefore : ∀ k, k ≠ (t.merged ids panes false).id →
      ((t.withMerged ids panes false).pane? k).map bare = (t.pane? k).map bare := by
    intro k hk
    rw [map_bare_withMerged, if_neg hk.symm]
    rfl
  refine ⟨q, hinputs, hremoved ▸ hq, unites_of_bare_eq hunites hbare, ?spawners,
    fun hkeep => absurd hkeep Bool.false_ne_true,
    fun _ => ⟨Bool.eq_false_iff.2 hp.name_free, fun i hi => ?gone, fun k hk hmem => ?others⟩,
    fun _ => ?announced⟩
  case spawners =>
    rw [hspawners, if_neg (by simp)]
    -- Whatever an input was spawned from is live.
    refine congrArg List.eraseDups (List.filter_congr fun s hs => ?_)
    obtain ⟨p, hp, hs⟩ := List.mem_flatMap.1 hs
    obtain ⟨i, hi⟩ := hpanes p hp
    rw [h.rooted.linked.live_of_spawns ⟨p, hi, hs⟩, Bool.true_and]
  case gone =>
    have hgone := map_bare_remove (t.withMerged ids panes false) ids false i
    rw [if_pos hi, Option.map_eq_none_iff] at hgone
    exact Bool.eq_false_iff.2 (Option.not_isSome_iff_eq_none.2 hgone)
  case others =>
    have hsame := map_bare_remove (t.withMerged ids panes false) ids false k
    rw [if_neg hmem, hbefore k fun heq => hp.name_free (heq ▸ hk)] at hsame
    exact ⟨(contains_eq_of_map_eq hsame).trans hk, hsame⟩
  case announced =>
    have hlives : ∀ i ∈ ids, (t.withMerged ids panes false).contains i = true := fun i hi =>
      (contains_eq_of_map_eq (hbefore i fun heq => hnot (heq ▸ hi))).trans (hlive i hi)
    have hinactive : t.active ≠ some (t.merged ids panes false).id := fun hactive =>
      hp.name_free (h.active_live _ hactive)
    rw [hremoved, bus_foldl_removeOne hnodup hlives, bus_withMerged hp hinactive, hspawners,
      eq_of_bare_eq hbare]
    rfl

/-- **A merge makes the union of its inputs**, and leaves everything else alone but for the lineage,
as long as the panes of the table account for what they hold. -/
theorem Sound.mergesInto (h : t.Sound) {inputs : List PaneId}
    (hmerge : t.merge inputs keep = .ok (u, id)) :
    ∃ panes merged, t.MergesInto inputs.eraseDups keep u id panes merged := by
  obtain ⟨panes, hinputs, hne, -, hunion⟩ := merge_eq_ok hmerge
  obtain ⟨rank, hwf⟩ := h.wellFormed
  have hunites : (t.merged inputs.eraseDups panes keep).Unites panes := by
    refine unites_merged ?_ fun p hp => ?_
    · rintro rfl
      exact hne (List.map_eq_nil_iff.1 hinputs)
    · obtain ⟨i, hi⟩ := (live_of_inputs hinputs).2 p hp
      exact h.accounted i p hi
  rw [openUnion_eq] at hunion
  obtain ⟨rfl, rfl⟩ := Prod.mk.inj hunion
  refine ⟨panes, ?_⟩
  cases keep with
  | true => exact ⟨_, hwf.mergesInto_of_kept (nodup_eraseDups inputs) hinputs hunites⟩
  | false => exact hwf.mergesInto_of_discarded (nodup_eraseDups inputs) hinputs hunites

end PaneTable

end StateAtlas
