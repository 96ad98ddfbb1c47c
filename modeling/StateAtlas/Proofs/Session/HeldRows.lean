import StateAtlas.Proofs.Pane.Keeping
import StateAtlas.Proofs.Session.FreshRuns
import StateAtlas.Proofs.Session.Soundness
/-!
Rows of nodes that are held.

A brush has a row for each node that was shown when its pane was projected last.  Panes lose no
nodes, and a pane that is opened has no rows until it is projected, so the rows of every brush are
at all times of nodes that its pane holds, each once.  Unlike freshness this survives everything
that is done to the table past the session; a pane may have been opened there and never been
projected.

Main statement: `Session.HeldRows.serveAll`.
-/

namespace StateAtlas

open PaneTable

/-! ## Panes -/

/-- The rows of the brush are of nodes that the pane holds, each once. -/
structure Pane.HeldRows (p : Pane) : Prop where
  nodup : (p.brush.rows.map Row.id).Nodup
  held : ∀ row ∈ p.brush.rows, row.id ∈ p.store.nodeIds

namespace Pane

variable {p q : Pane}

/-- A pane may come to hold more nodes. -/
theorem HeldRows.grown (h : p.HeldRows) (hrows : q.brush.rows = p.brush.rows)
    (hstore : ∀ n ∈ p.store.nodeIds, n ∈ q.store.nodeIds) : q.HeldRows where
  nodup := hrows ▸ h.nodup
  held row hrow := hstore _ (h.held row (hrows ▸ hrow))

theorem heldRows_of_nil (hrows : p.brush.rows = []) : p.HeldRows where
  nodup := by rw [hrows]; exact List.nodup_nil
  held row hrow := by rw [hrows] at hrow; nomatch hrow

theorem HeldRows.of_scene_eq (h : p.HeldRows) (hscene : q.scene = p.scene) : q.HeldRows := by
  obtain ⟨hnodes, -, -, hbrush⟩ :
      q.store.nodes = p.store.nodes ∧ q.view.mode = p.view.mode ∧
        q.view.details = p.view.details ∧ q.brush = p.brush := by
    simpa only [scene, Prod.mk.injEq] using hscene
  exact h.grown (congrArg Brush.rows hbrush) fun n hn => by rwa [Store.nodeIds, hnodes]

theorem HeldRows.execute (h : p.HeldRows) {c : BrushCommand} (hc : c.isProjection = false) :
    { p with brush := (p.brush.execute c).1 }.HeldRows :=
  h.grown (p.brush.sameRows_execute hc).rows_eq fun _ hn => hn

theorem Fresh.heldRows (h : p.Fresh) : p.HeldRows where
  nodup := by
    rw [h.rows_eq]
    exact p.store.nodup_rows _ _
  held row hrow := by
    have hids : row.id ∈ (p.store.rows p.view.mode p.view.details).map Row.id :=
      List.mem_map_of_mem (h.rows_eq ▸ hrow)
    rw [Store.map_id_rows] at hids
    exact (List.filter_sublist.map Node.id).subset hids

theorem heldRows_project (p : Pane) (schema : Schema) : (p.project schema).HeldRows :=
  (p.fresh_project schema).heldRows

theorem HeldRows.merge (h : p.HeldRows) (frontier : List NodeId) (g : Fragment) :
    { p with store := p.store.merge frontier g }.HeldRows :=
  h.grown rfl fun _ hn => (Store.nodeIds_merge ..).symm ▸ List.mem_append_left _ hn

theorem HeldRows.endExpansion (h : p.HeldRows) : p.endExpansion.HeldRows :=
  h.of_scene_eq p.scene_endExpansion

theorem HeldRows.select (h : p.HeldRows) (ids : List NodeId) : (p.select ids).HeldRows :=
  h.of_scene_eq (p.scene_select ids)

theorem HeldRows.undo (h : p.HeldRows) (hq : p.undo? = some q) : q.HeldRows := by
  obtain ⟨_, -, rfl⟩ := Option.map_eq_some_iff.1 hq
  exact h.of_scene_eq rfl

theorem HeldRows.redo (h : p.HeldRows) (hq : p.redo? = some q) : q.HeldRows := by
  obtain ⟨_, -, rfl⟩ := Option.map_eq_some_iff.1 hq
  exact h.of_scene_eq rfl

/-- A pane that is made from others has yet to be projected. -/
theorem handedOn_heldRows : HandedOn HeldRows where
  of_work_eq h hwork := h.of_scene_eq (congrArg scene hwork :)
  copyOf _ _ _ := heldRows_of_nil rfl
  union _ _ _ _ := heldRows_of_nil rfl

theorem HeldRows.refresh (h : p.HeldRows) (fresh : List Node) :
    { p with store := p.store.refresh fresh }.HeldRows :=
  h.grown rfl fun _ hn => (p.store.nodeIds_refresh fresh).symm ▸ hn

end Pane

/-! ## Sessions -/

namespace Session

variable {s s' : Session} {k : CommandKind} {id pane : PaneId} {p q : Pane}

/-- The rows of every live pane are of nodes that it holds. -/
abbrev HeldRows (s : Session) : Prop := s.table.Each Pane.HeldRows

theorem HeldRows.modify (h : s.HeldRows) {f : Pane → Pane}
    (hf : ∀ p, s.table.pane? id = some p → p.HeldRows → (f p).HeldRows) :
    (s.modify id f).HeldRows := by
  intro k q hq
  rcases modify_cases hq with ⟨rfl, p, hp, rfl⟩ | ⟨-, hq⟩
  · exact hf p hp (h k p hp)
  · exact h k q hq

theorem HeldRows.replace (h : s.HeldRows) (hq : q.HeldRows) (id : PaneId) :
    (s.modify id fun _ => q).HeldRows :=
  h.modify fun _ _ _ => hq

theorem HeldRows.modifyAll (h : s.HeldRows) {f : Pane → Pane}
    (hf : ∀ p, p.HeldRows → (f p).HeldRows) : (s.modifyAll f).HeldRows := by
  intro k q hq
  have hpane : (s.modifyAll f).table.pane? k = (s.table.pane? k).map f := pane?_modifyAll ..
  rw [hpane] at hq
  obtain ⟨p, hp, rfl⟩ := Option.map_eq_some_iff.1 hq
  exact hf p (h k p hp)

/-! ### Deriving what panes show -/

theorem HeldRows.syncSelection (h : s.HeldRows) (l : LinkedSelection Float) :
    (s.syncSelection l).HeldRows := by
  refine h.modify fun p _ hp => ?_
  split
  · exact hp.select l.ids
  · exact hp

theorem HeldRows.publishBrush (h : s.HeldRows) (id : PaneId) : (s.publishBrush id).HeldRows := by
  unfold Session.publishBrush
  split
  · exact HeldRows.syncSelection (s := s.publish _) h _
  · exact h

theorem HeldRows.applyRecurrence (h : s.HeldRows) (r : Recurrence) :
    (s.applyRecurrence r).HeldRows :=
  h.modifyAll (f := fun p => { p with recurring := r.forPane p.id }) fun _ hp => hp.of_scene_eq rfl

theorem HeldRows.recomputeWatched (h : s.HeldRows) : s.recomputeWatched.HeldRows := by
  unfold Session.recomputeWatched
  split
  · exact h
  · exact h.applyRecurrence _

theorem HeldRows.afterGrowth (h : s.HeldRows) (id : PaneId) (added : List NodeId) :
    (s.afterGrowth id added).HeldRows :=
  ((h.modify fun p _ _ => (s.fresh_derived added p).heldRows).publishBrush id).recomputeWatched

theorem HeldRows.settle (h : s.HeldRows) (id : PaneId) : (s.settle id).HeldRows :=
  h.afterGrowth id []

theorem HeldRows.reproject (h : s.HeldRows) (id : PaneId) : (s.reproject id).HeldRows :=
  HeldRows.publishBrush (h.modify fun p _ _ => p.heldRows_project s.schema) id

/-! ### Panes that come and grow -/

theorem HeldRows.applyPending (h : s.HeldRows) (hp : s.table.pane? p.id = some p)
    (pending : Pending) : (s.applyPending p pending).1.HeldRows := by
  rw [fst_applyPending]
  refine HeldRows.afterGrowth (h.modify fun q hq _ => ?_) _ _
  obtain rfl := Option.some.inj (hp.symm.trans hq)
  exact (h _ _ hp).merge pending.frontier pending.fetched

theorem HeldRows.openPane (h : s.HeldRows) (r : SpawnRequest) :
    { s with table := (s.table.openPane r).1 }.HeldRows :=
  Each.openPane h Pane.handedOn_heldRows fun _ _ => Pane.heldRows_of_nil rfl

theorem HeldRows.spawnFor (h : s.HeldRows) (p : Pane) (nodes : List NodeId) :
    (s.spawnFor p nodes).1.HeldRows :=
  h.openPane _

theorem HeldRows.openFirst (h : s.HeldRows) (seed : Fragment) : (s.openFirst seed).1.HeldRows := by
  have hopened : { s with table := _, started := true }.HeldRows :=
    h.openPane (.seeded seed s.defaultView)
  exact hopened.settle _

theorem HeldRows.unpack (h : s.HeldRows) (d : PaneDocument) : (s.unpack d).HeldRows := by
  unfold Session.unpack
  dsimp only
  have hopened : { s with table := (s.table.openPane (documentRequest d)).1 }.HeldRows :=
    h.openPane _
  generalize s.table.openPane (documentRequest d) = r at hopened ⊢
  refine HeldRows.settle (hopened.modify fun p _ hp => ?_) r.2
  exact hp.execute (c := .replaceState d.brush) rfl

/-! ### Selecting, marking and brushing -/

theorem HeldRows.propagate (h : s.HeldRows) : s.propagate.HeldRows :=
  HeldRows.modifyAll (s := s.publish .propagate) h fun _ hp => hp.of_scene_eq rfl

theorem HeldRows.mark (h : s.HeldRows) (ids : List NodeId) : (s.mark ids).1.HeldRows := by
  have hmarked : { s with marks := (s.marks.mark ids).1 }.HeldRows := h
  simp only [Session.mark]
  split
  · exact hmarked
  · exact HeldRows.propagate hmarked

theorem HeldRows.unmark (h : s.HeldRows) (ids : List NodeId) : (s.unmark ids).1.HeldRows := by
  have hmarked : { s with marks := (s.marks.unmark ids).1 }.HeldRows := h
  simp only [Session.unmark]
  split
  · exact hmarked
  · exact HeldRows.propagate hmarked

theorem HeldRows.pollBrushes (h : s.HeldRows) (now : Nat) : (s.pollBrushes now).1.HeldRows := by
  have hpolled : (s.modifyAll fun p => { p with brush := (p.brush.poll now).1 }).HeldRows := by
    exact h.modifyAll fun _ hp => hp.execute (c := .poll now) rfl
  exact List.foldlRecOn (motive := HeldRows) _ _ hpolled fun _ hs id _ => hs.publishBrush id

theorem HeldRows.modifyBrush (h : s.HeldRows) (hp : s.table.pane? pane = some p)
    {f : Brush Float → Brush Float} {c : BrushCommand} (hc : c.isProjection = false)
    (hf : f p.brush = (p.brush.execute c).1) : (s.modifyBrush pane f).HeldRows := by
  refine h.modify fun p' hp' hheld => ?_
  obtain rfl : p = p' := Option.some.inj (hp.symm.trans hp')
  rw [hf]
  exact hheld.execute hc

theorem HeldRows.modifyView (h : s.HeldRows) (pane : PaneId) (f : ViewState → ViewState) :
    (s.modify pane fun p => { p with view := f p.view }).HeldRows :=
  h.modify fun _ _ hp => hp.grown rfl fun _ hn => hn

/-! ### Steps -/

/-- **No step leaves a row of a node that is not held.** -/
theorem HeldRows.step (h : s.HeldRows) (hs : s.Sound) (hstep : Step s k s') : s'.HeldRows := by
  cases hstep with
  | warn pane message => exact h
  | load schema => exact h
  | enter => exact h
  | teardown => exact Each.clear h Pane.handedOn_heldRows
  | lend hp hq => exact h.replace ((h _ _ hp).of_scene_eq (Pane.scene_beginExpansion hq).1) _
  | drop t => exact h.modify fun p _ hp => hp.of_scene_eq (p.scene_release _)
  | abandon pane => exact h.modify fun _ _ hp => hp.endExpansion
  | withhold hp => exact h.replace (h _ _ hp).endExpansion _
  | grow hp frontier g =>
    exact HeldRows.afterGrowth (h.replace ((h _ _ hp).merge frontier g).endExpansion _) _ _
  | tie hp frontier g => exact h.replace ((h _ _ hp).merge frontier g).endExpansion _
  | proceed hp pending => exact h.applyPending (hs.id_pane hp ▸ hp) pending
  | redirect hsource pending hp =>
    have hspawned := hs.spawnFor hsource pending.frontier
    exact (h.spawnFor _ _).applyPending (hspawned.id_pane hp ▸ hp) pending
  | renew hp fresh =>
    refine HeldRows.reproject (h.modify fun q hq hheld => ?_) _
    obtain rfl := Option.some.inj (hp.symm.trans hq)
    exact hheld.refresh fresh
  | openFirst seed => exact h.openFirst seed
  | openFor hp nodes => exact (h.spawnFor _ nodes).settle _
  | unpack d => exact h.unpack d
  | destroy hdestroy =>
    exact HeldRows.recomputeWatched (s := { s with table := _ })
      (Each.destroy h Pane.handedOn_heldRows hdestroy)
  | merge hmerge =>
    exact HeldRows.settle (s := { s with table := _ })
      (Each.merge h Pane.handedOn_heldRows hmerge) _
  | duplicate hduplicate =>
    exact HeldRows.settle (s := { s with table := _ })
      (Each.duplicate h Pane.handedOn_heldRows hduplicate) _
  | duplicateMany hduplicate =>
    have hcopied : { s with table := _ }.HeldRows :=
      Each.duplicateMany h Pane.handedOn_heldRows hduplicate
    exact List.foldlRecOn (motive := HeldRows) _ _ hcopied fun _ hs id _ => hs.settle id
  | highlight hhighlight => exact Each.of_sameWork h Pane.handedOn_heldRows (.highlight hhighlight)
  | mark ids => exact h.mark ids
  | unmark ids => exact h.unmark ids
  | propagate => exact h.propagate
  | detect => exact HeldRows.applyRecurrence (s := s.addWatched _) h _
  | watch ids => exact HeldRows.recomputeWatched (s := s.addWatched ids) h
  | unwatch =>
    exact HeldRows.modifyAll (s := { s with watched := {} }) h fun _ hp => hp.of_scene_eq rfl
  | select pane ids => exact h.modify fun _ _ hp => hp.select _
  | undo hp hq => exact h.replace ((h _ _ hp).undo hq) _
  | redo hp hq => exact h.replace ((h _ _ hp).redo hq) _
  | sync l => exact h.syncSelection l
  | brush hp hc hf => exact (h.modifyBrush hp hc hf).publishBrush _
  | postpone hp => exact h.modifyBrush hp (c := .brushCoalesced ..) rfl rfl
  | poll now => exact h.pollBrushes now
  | adjust pane => exact h.modifyView pane _
  | view pane => exact (h.modifyView pane _).reproject pane

end Session

/-! ## Requests -/

/-- **A command to the table keeps what all panes keep**, if the panes that it asks for have it. -/
theorem PaneTable.Each.execute {t u : PaneTable} {rank : PaneId → Nat} {P : Pane → Prop}
    (h : t.Each P) (hP : HandedOn P) (hwf : t.WellFormed rank)
    (hr : ∀ (r : SpawnRequest) (v : PaneTable) (id : PaneId), P (v.requested r id))
    {c : PaneCommand} {opened : List PaneId} (hexecute : t.execute c = .ok (u, opened)) :
    u.Each P := by
  have hevolves := (hwf.execute hexecute).2
  cases c with
  | spawn r =>
    obtain ⟨id, hspawn, -⟩ := opening_eq_ok hexecute
    exact h.spawn hP (hr r) hspawn
  | merge inputs keep =>
    obtain ⟨id, hmerge, -⟩ := opening_eq_ok hexecute
    exact h.merge hP hmerge
  | duplicate source =>
    obtain ⟨id, hduplicate, -⟩ := opening_eq_ok hexecute
    exact h.duplicate hP hduplicate
  | duplicateMany sources => exact h.duplicateMany hP hexecute
  | destroy id cascade activate =>
    obtain ⟨⟨v, removed⟩, hdestroy, hexecute⟩ := bind_eq_ok.1 hexecute
    obtain ⟨rfl, -⟩ := Prod.mk.inj (Except.ok.inj hexecute)
    exact h.destroy hP hdestroy
  | clear =>
    obtain ⟨rfl, -⟩ := Prod.mk.inj (Except.ok.inj hexecute)
    exact h.clear hP
  | activate | arrange | toggle | highlight =>
    obtain ⟨-, rfl⟩ := arranging_eq_ok hexecute
    exact h.of_evolves hP hevolves

/-- An edit past the session leaves the rows of the brush among what the pane holds. -/
def Request.KeepsRows : Request → Prop
  | .edit _ e => ∀ p, p.HeldRows → (e.apply p).HeldRows
  | _ => True

namespace Session

variable {s : Session} {σ : Type} {backend : Backend (StateM σ)}

theorem HeldRows.table (h : s.HeldRows) (hs : s.Sound) (c : PaneCommand) :
    { s with table := s.table.perform c }.HeldRows := by
  obtain ⟨rank, hwf⟩ := hs.wellFormed
  unfold PaneTable.perform
  split
  next hexecute =>
    exact Each.execute h Pane.handedOn_heldRows hwf (fun _ _ _ => Pane.heldRows_of_nil rfl) hexecute
  next => exact h

theorem HeldRows.serve (h : s.HeldRows) (hs : s.Sound) {r : Request} (hr : r.KeepsRows) :
    Always HeldRows (s.serve backend r) := by
  cases r with
  | session c =>
    exact hs.perform_keeps (fun hs hstep h => h.step hs hstep) h c
  | table c => exact always_pure (h.table hs c)
  | edit pane e => exact always_pure (h.modify fun p _ hp => hr p hp)

/-- **Whatever the requests, the rows of every brush are of nodes that its pane holds**, unless an
edit past the session puts others in. -/
theorem HeldRows.serveAll (h : s.HeldRows) (hs : s.Sound) {requests : List Request}
    (hrequests : ∀ r ∈ requests, r.KeepsRows) : Always HeldRows (s.serveAll backend requests) :=
  hs.serveAll_keeps (fun r hr _ hs h => h.serve hs (hrequests r hr)) h

theorem heldRows_vacant (options : SessionOptions) (bus : Bus) :
    (vacant options bus).HeldRows := by
  intro id p hp
  nomatch hp

end Session

end StateAtlas
