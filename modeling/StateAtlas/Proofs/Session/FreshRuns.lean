import StateAtlas.Proofs.Session.Freshness
import StateAtlas.Proofs.Session.Steps
/-!
Sessions whose selections are never stale.

Each step leaves every pane fresh: it either has no bearing on what a pane projects, or it projects
the panes that it made stale before it ends.  By induction the panes of a session are fresh after any
commands, whatever the backend answers.

Main statement: `selected_eq_of_idle`.
-/

namespace StateAtlas

open PaneTable

/-! ## Growth of a store -/

namespace Store

/-- Unless nodes are added, the nodes are as they were. -/
theorem nodes_merge_of_nil {s : Store} {frontier : List NodeId} {g : Fragment}
    (hnone : (Delta.between s (s.merge frontier g)).nodes = []) :
    (s.merge frontier g).nodes = s.nodes := by
  have hids : (s.add g).nodeIds = s.nodeIds ++ (Delta.between s (s.merge frontier g)).nodes :=
    s.nodeIds_add g
  rw [hnone, List.append_nil] at hids
  have hlength := congrArg List.length hids
  simp only [nodeIds, List.length_map] at hlength
  exact ((s.nodes_isPrefix_add g).eq_of_length hlength.symm).symm

end Store

namespace Session

variable {s s' : Session} {stale opened : List PaneId} {id pane : PaneId} {p q : Pane}

theorem FreshBut.id_pane (h : FreshBut stale s) (hp : s.table.pane? id = some p) : p.id = id := by
  obtain ⟨rank, hwf⟩ := h.wellFormed
  exact hwf.rooted.linked.id_pane hp

/-! ## Expanding -/

/-- A pane may begin to expand. -/
theorem Fresh.lend (h : s.Fresh) (hp : s.table.pane? id = some p) {number : Nat}
    (hq : p.beginExpansion number = .ok q) : (s.modify p.id fun _ => q).Fresh := by
  obtain ⟨hscene, hkin⟩ := Pane.scene_beginExpansion hq
  exact h.replace (h.id_pane hp ▸ hp) hkin fun hfresh => hfresh.of_scene_eq hscene

/-- An expansion that changed the store ends, and what the pane shows is derived anew. -/
theorem Fresh.grownExpansion (h : s.Fresh) (hp : s.table.pane? id = some p) (store : Store)
    (added : List NodeId) :
    ((s.modify id fun _ => { p with store }.endExpansion).afterGrowth id added).Fresh := by
  refine FreshBut.afterGrowth (h.disturb fun p' hp' => ?_) added
  obtain rfl : p = p' := Option.some.inj (hp.symm.trans hp')
  exact Pane.kin_endExpansion _

/-- No row shows the edges that were added. -/
theorem Fresh.tiedExpansion (h : s.Fresh) (hp : s.table.pane? id = some p) {store : Store}
    (hnodes : store.nodes = p.store.nodes) :
    (s.modify id fun _ => { p with store }.endExpansion).Fresh := by
  refine h.replace hp (Pane.kin_endExpansion _) fun hfresh => hfresh.of_scene_eq ?_
  rw [Pane.scene_endExpansion, Pane.scene, hnodes]
  rfl

/-- A store may change as long as the pane is projected afterwards. -/
theorem FreshBut.withStore (h : FreshBut stale s) (id : PaneId) (store : Store) :
    FreshBut (id :: stale) (s.modify id fun p => { p with store }) :=
  h.disturb fun _ _ => rfl

theorem Fresh.spawnFor (h : s.Fresh) (hp : s.table.pane? pane = some p) (nodes : List NodeId) :
    FreshBut [(s.spawnFor p nodes).2] (s.spawnFor p nodes).1 := by
  obtain ⟨rank, hwf⟩ := h.wellFormed
  refine h.reach (hwf.openPane fun spawner hspawner => ?_)
  obtain rfl : p.id = spawner := Option.some.inj hspawner
  exact contains_of_pane? (h.id_pane hp ▸ hp)

theorem FreshBut.applyPending (h : FreshBut [id] s) (hid : p.id = id) (pending : Pending) :
    (s.applyPending p pending).1.Fresh := by
  subst hid
  exact FreshBut.afterGrowth
    ((h.withStore p.id _).mono (List.cons_subset.2 ⟨List.mem_cons_self, List.Subset.refl _⟩)) _

/-! ## Panes that come and go -/

theorem Fresh.openFirst (h : s.Fresh) (seed : Fragment) : (s.openFirst seed).1.Fresh := by
  obtain ⟨rank, hwf⟩ := h.wellFormed
  refine FreshBut.afterGrowth (h.reach ?_) []
  exact hwf.openPane nofun

theorem Fresh.teardown (h : s.Fresh) : s.teardown.Fresh := by
  obtain ⟨rank, hwf⟩ := h.wellFormed
  let cleared : Session := { s with table := s.table.clear.1 }
  have hcleared : cleared.Fresh := h.reach hwf.clear
  exact hcleared.of_sameLineage ⟨rfl, rfl, rfl, fun _ => rfl⟩ rfl hcleared.fresh

theorem Fresh.unpack (h : s.Fresh) (d : PaneDocument) : (s.unpack d).Fresh := by
  obtain ⟨rank, hwf⟩ := h.wellFormed
  unfold Session.unpack
  dsimp only
  have hopened : FreshBut [(s.table.openPane (documentRequest d)).2]
      { s with table := (s.table.openPane (documentRequest d)).1 } := h.reach (hwf.openPane nofun)
  generalize s.table.openPane (documentRequest d) = r at hopened ⊢
  -- The stored state of the brush is put in before the pane is projected.
  have hrestored : FreshBut [r.2, r.2] ({ s with table := r.1 }.modify r.2 fun p =>
      { p with brush := p.brush.replaceState d.brush }) :=
    hopened.disturb fun p _ => p.kin_withBrush _
  refine FreshBut.settle (hrestored.mono ?_)
  exact List.cons_subset.2 ⟨List.mem_cons_self, List.Subset.refl _⟩

/-! ## Marking and watching -/

theorem Fresh.propagate (h : s.Fresh) : s.propagate.Fresh := by
  refine FreshBut.modifyAll (h.publish _) (fun p => ?_) fun p hp => ?_
  · rfl
  · exact hp.of_scene_eq rfl

theorem Fresh.withMarks (h : s.Fresh) (marks : MarkSet) : { s with marks := marks }.Fresh :=
  ⟨h.wellFormed, h.fresh⟩

theorem Fresh.mark (h : s.Fresh) (ids : List NodeId) : (s.mark ids).1.Fresh := by
  have hmarked := h.withMarks (s.marks.mark ids).1
  simp only [Session.mark]
  split
  · exact hmarked
  · exact Fresh.propagate (hmarked.publish _)

theorem Fresh.unmark (h : s.Fresh) (ids : List NodeId) : (s.unmark ids).1.Fresh := by
  have hmarked := h.withMarks (s.marks.unmark ids).1
  simp only [Session.unmark]
  split
  · exact hmarked
  · exact Fresh.propagate (hmarked.publish _)

theorem Fresh.withWatched (h : s.Fresh) (watched : OrderedSet NodeId) :
    { s with watched := watched }.Fresh :=
  ⟨h.wellFormed, h.fresh⟩

theorem Fresh.clearRecurrence (h : s.Fresh) : s.clearRecurrence.Fresh := by
  refine FreshBut.publish ((h.withWatched {}).modifyAll (fun p => ?_) fun p hp => ?_) _
  · rfl
  · exact hp.of_scene_eq rfl

/-! ## Selecting and brushing -/

theorem Fresh.undo (h : s.Fresh) (hp : s.table.pane? id = some p) (hq : p.undo? = some q) :
    (s.modify id fun _ => q).Fresh := by
  obtain ⟨_, -, rfl⟩ := Option.map_eq_some_iff.1 hq
  exact h.replace hp rfl fun hfresh => hfresh.of_scene_eq rfl

theorem Fresh.redo (h : s.Fresh) (hp : s.table.pane? id = some p) (hq : p.redo? = some q) :
    (s.modify id fun _ => q).Fresh := by
  obtain ⟨_, -, rfl⟩ := Option.map_eq_some_iff.1 hq
  exact h.replace hp rfl fun hfresh => hfresh.of_scene_eq rfl

/-- A brush may be asked anything but to project. -/
theorem FreshBut.modifyBrush (h : FreshBut stale s) (hp : s.table.pane? pane = some p)
    {f : Brush Float → Brush Float} {c : BrushCommand} (hc : c.isProjection = false)
    (hf : f p.brush = (p.brush.execute c).1) : FreshBut stale (s.modifyBrush pane f) := by
  refine h.modify (fun _ _ => rfl) fun p' hp' hfresh => ?_
  obtain rfl : p = p' := Option.some.inj (hp.symm.trans hp')
  rw [hf]
  exact hfresh.execute hc

theorem Fresh.pollBrushes (h : s.Fresh) (now : Nat) : (s.pollBrushes now).1.Fresh := by
  have hpolled : (s.modifyAll fun p => { p with brush := (p.brush.poll now).1 }).Fresh :=
    FreshBut.modifyAll h (fun _ => rfl) fun p hp => hp.execute (c := .poll now) rfl
  exact List.foldlRecOn (motive := Fresh) _ _ hpolled fun _ hs id _ => hs.publishBrush id

theorem Fresh.adjust (h : s.Fresh) (pane : PaneId) {f : ViewState → ViewState}
    (hmode : ∀ v, (f v).mode = v.mode) (hdetails : ∀ v, (f v).details = v.details) :
    (s.modify pane fun p => { p with view := f p.view }).Fresh := by
  refine FreshBut.retouch h (fun _ => rfl) fun p => ?_
  simp only [Pane.scene, hmode, hdetails]

/-! ## Steps and runs -/

/-- **Every step leaves every pane fresh.** -/
theorem Fresh.step (h : s.Fresh) {k : CommandKind} (hstep : s.Step k s') : s'.Fresh := by
  obtain ⟨rank, hwf⟩ := h.wellFormed
  cases hstep with
  | warn pane message => exact FreshBut.warn h pane message
  | load schema => exact ⟨h.wellFormed, h.fresh⟩
  | enter => exact ⟨h.wellFormed, h.fresh⟩
  | teardown => exact h.teardown
  | lend hp hq =>
    have hlent := h.lend hp hq
    exact hlent.of_sameLineage ⟨rfl, rfl, rfl, fun _ => rfl⟩ rfl hlent.fresh
  | drop t => exact FreshBut.retouch h (fun p => p.kin_release _) fun p => p.scene_release _
  | abandon pane => exact FreshBut.retouch h Pane.kin_endExpansion Pane.scene_endExpansion
  | withhold hp =>
    exact h.replace hp (Pane.kin_endExpansion _) fun hfresh =>
      hfresh.of_scene_eq (Pane.scene_endExpansion _)
  | grow hp frontier g => exact h.grownExpansion hp _ _
  | tie hp frontier g hnone => exact h.tiedExpansion hp (Store.nodes_merge_of_nil hnone)
  | proceed hp pending =>
    exact FreshBut.applyPending (h.mono (List.nil_subset _)) rfl pending
  | redirect hsource pending hp =>
    have hspawned := h.spawnFor hsource pending.frontier
    exact hspawned.applyPending (hspawned.id_pane hp) pending
  | renew hp fresh => exact (h.withStore _ _).reproject
  | openFirst seed => exact h.openFirst seed
  | openFor hp nodes => exact (h.spawnFor hp nodes).settle
  | unpack d => exact h.unpack d
  | destroy hdestroy => exact (h.reach (hwf.destroy hdestroy)).recomputeWatched
  | merge hmerge => exact (h.reach (hwf.merge hmerge)).settle
  | duplicate hduplicate => exact (h.reach (hwf.duplicate hduplicate)).settle
  | duplicateMany hduplicate => exact (h.reach (hwf.duplicateMany hduplicate)).settleEach
  | highlight hhighlight => exact h.reach (hwf.highlight hhighlight)
  | mark ids => exact h.mark ids
  | unmark ids => exact h.unmark ids
  | propagate => exact h.propagate
  | detect => exact ((h.withWatched _).applyRecurrence _).publish _
  | watch ids => exact (h.withWatched _).recomputeWatched
  | unwatch => exact h.clearRecurrence
  | select pane ids =>
    exact FreshBut.retouch h (fun p => p.kin_select _) fun p => p.scene_select _
  | undo hp hq => exact h.undo hp hq
  | redo hp hq => exact h.redo hp hq
  | sync l => exact FreshBut.syncSelection h l
  | brush hp hc hf => exact (FreshBut.modifyBrush h hp hc hf).publishBrush _
  | postpone hp hran =>
    exact FreshBut.modifyBrush h hp (c := .brushCoalesced _ _ _) rfl rfl
  | poll now => exact h.pollBrushes now
  | adjust pane hmode hdetails => exact h.adjust pane hmode hdetails
  | view pane hsync => exact FreshBut.reproject (h.disturb fun _ _ => rfl)

theorem Fresh.run {σ : Type} {backend : Backend (StateM σ)} (h : s.Fresh)
    (commands : List SessionCommand) : Always Fresh (s.run backend commands) :=
  always_run (fun hstep h => h.step hstep) h commands

theorem fresh_vacant (options : SessionOptions) (bus : Bus) : (vacant options bus).Fresh :=
  ⟨⟨fun _ => 0, wellFormed_start options.maxPanes options.brushWindow bus _⟩, nofun⟩

end Session

/-- **Selections are never stale.**  Whatever is asked of a session, and whatever the backend
answers: as long as no recomputation is pending for a live pane, the selection of its brush lists,
in the order of the store and without repetition, just the nodes that the pane's mode admits and
whose readings under the pane's details every constraint admits. -/
theorem selected_eq_of_idle {σ : Type} (backend : Backend (StateM σ)) (env : σ)
    (options : SessionOptions) (bus : Bus) (commands : List SessionCommand) :
    let s := ((Session.vacant options bus).run backend commands env).1
    ∀ id p, s.table.pane? id = some p → p.brush.debounce.pending = false →
      p.brush.selected = (p.store.nodes.filter fun n => p.view.mode.admits n.kind &&
        p.brush.Admits (Row.ofProfile (n.profile p.view.details))).map Node.id ∧
      p.brush.selected.Nodup := by
  intro s id p hp hidle
  have hfresh : s.Fresh := (Session.fresh_vacant options bus).run commands env
  obtain ⟨hrows, hcurrent⟩ := hfresh.fresh hp List.not_mem_nil
  have hselected : p.brush.selected = (p.store.nodes.filter fun n => p.view.mode.admits n.kind &&
      p.brush.Admits (Row.ofProfile (n.profile p.view.details))).map Node.id := by
    rw [hcurrent hidle, Brush.admitted, hrows, Store.rows, List.filter_map, List.filter_filter,
      List.map_map]
    simp only [Function.comp_def, Bool.and_comm]
    rfl
  refine ⟨hselected, hselected ▸ ?_⟩
  exact p.store.nodup_nodeIds.sublist (List.filter_sublist.map Node.id)

end StateAtlas
