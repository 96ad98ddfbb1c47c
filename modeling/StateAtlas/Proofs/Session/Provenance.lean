import StateAtlas.Proofs.Brush.Finite
import StateAtlas.Proofs.Graph.Origins
import StateAtlas.Proofs.Pane.Keeping
import StateAtlas.Proofs.Session.Freshness
import StateAtlas.Proofs.Session.Steps
/-!
Where it comes from what the panes of a session hold.

A pane is fed if every part of its nodes came in from outside, and its brush took over only states
that came in from outside.  Panes are seeded with nodes that came in or that other panes hold; what
they show is derived from these, and nothing else puts nodes into them.  So all panes of a session are
fed at all times.

Main statement: `always_fed`.
-/

namespace StateAtlas

open PaneTable

/-! ## Panes -/

/-- What a pane holds and brushes came in. -/
structure Pane.Fed (F : Feed) (p : Pane) : Prop where
  nodes : ∀ n ∈ p.store.nodes, n.From F.node
  brush : p.brush.Arises F.state

namespace Pane

variable {F : Feed} {p q : Pane}

theorem Fed.of_scene_eq (h : p.Fed F) (hscene : q.scene = p.scene) : q.Fed F := by
  obtain ⟨hnodes, -, -, hbrush⟩ :
      q.store.nodes = p.store.nodes ∧ q.view.mode = p.view.mode ∧
        q.view.details = p.view.details ∧ q.brush = p.brush := by
    simpa only [scene, Prod.mk.injEq] using hscene
  exact ⟨hnodes ▸ h.nodes, hbrush ▸ h.brush⟩

theorem Fed.execute (h : p.Fed F) {c : BrushCommand} (hc : c.Brings F.state) :
    { p with brush := (p.brush.execute c).1 }.Fed F :=
  ⟨h.nodes, h.brush.execute hc⟩

theorem Fed.project (h : p.Fed F) (schema : Schema) : (p.project schema).Fed F :=
  h.execute (c := .project p.store p.view.mode p.view.details schema) nofun

theorem Fed.merge (h : p.Fed F) {g : Fragment} (hg : F.AdmitsFragment g) (frontier : List NodeId) :
    { p with store := p.store.merge frontier g }.Fed F := by
  refine ⟨fun n hn => ?_, h.brush⟩
  rcases Store.mem_nodes_merge hn with hn | hn
  · exact h.nodes n hn
  · exact Node.from_of (hg n hn)

theorem Fed.endExpansion (h : p.Fed F) : p.endExpansion.Fed F :=
  h.of_scene_eq p.scene_endExpansion

theorem Fed.select (h : p.Fed F) (ids : List NodeId) : (p.select ids).Fed F :=
  h.of_scene_eq (p.scene_select ids)

theorem Fed.undo (h : p.Fed F) (hq : p.undo? = some q) : q.Fed F := by
  obtain ⟨_, -, rfl⟩ := Option.map_eq_some_iff.1 hq
  exact ⟨h.nodes, h.brush⟩

theorem Fed.redo (h : p.Fed F) (hq : p.redo? = some q) : q.Fed F := by
  obtain ⟨_, -, rfl⟩ := Option.map_eq_some_iff.1 hq
  exact ⟨h.nodes, h.brush⟩

theorem Fed.refresh (h : p.Fed F) {fresh : List Node} (hfresh : ∀ n ∈ fresh, F.node n) :
    { p with store := p.store.refresh fresh }.Fed F :=
  ⟨Store.forall_nodes_refresh h.nodes hfresh, h.brush⟩

theorem Fed.derived (h : p.Fed F) (s : Session) (added : List NodeId) :
    (s.derived added p).Fed F := by
  have hnoted : { p with everAdded := p.everAdded.insertMany added }.settle.Fed F :=
    h.of_scene_eq (congrArg scene (still_settle _) :)
  have hprojected := hnoted.project s.schema
  exact ⟨hprojected.nodes, hprojected.brush⟩

theorem fed_requested {r : SpawnRequest} (hr : ∀ n ∈ r.seed.nodes, n.From F.node) (t : PaneTable)
    (id : PaneId) : (t.requested r id).Fed F :=
  ⟨fun n hn => hr n (Store.mem_nodes_ofFragment hn), .fresh id t.brushWindow⟩

theorem Fed.copyOf (h : p.Fed F) (t : PaneTable) (id : PaneId) : (t.copyOf id p).Fed F :=
  ⟨h.nodes, h.brush.copied id t.brushWindow⟩

theorem fed_union {panes : List Pane} (h : ∀ p ∈ panes, p.Fed F) (t : PaneTable) (id : PaneId)
    (spawners : List PaneId) : (t.union id panes spawners).Fed F := by
  constructor
  case nodes =>
    intro n hn
    rw [store_union] at hn
    obtain ⟨s, hs, hn⟩ := Store.mem_nodes_union hn
    obtain ⟨p, hp, rfl⟩ := List.mem_map.1 hs
    exact (h p hp).nodes n hn
  case brush =>
    -- The view and the brush are those of the first pane.
    cases panes with
    | nil => exact .fresh id t.brushWindow
    | cons p panes => exact (h p List.mem_cons_self).brush.copied id t.brushWindow

theorem handedOn_fed : HandedOn (Fed F) where
  of_work_eq h hwork := h.of_scene_eq (congrArg scene hwork :)
  copyOf h t id := h.copyOf t id
  union h t id spawners := fed_union h t id spawners

end Pane

/-! ## Sessions -/

namespace Session

variable {F : Feed} {s s' : Session} {k : CommandKind} {id pane : PaneId} {p q : Pane}

/-- What the live panes hold and brush came in. -/
abbrev Fed (F : Feed) (s : Session) : Prop := s.table.Each (Pane.Fed F)

theorem Fed.modify (h : s.Fed F) {f : Pane → Pane} (hf : ∀ p, p.Fed F → (f p).Fed F) :
    (s.modify id f).Fed F := by
  intro k q hq
  rcases modify_cases hq with ⟨rfl, p, hp, rfl⟩ | ⟨-, hq⟩
  · exact hf p (h k p hp)
  · exact h k q hq

theorem Fed.replace (h : s.Fed F) (hq : q.Fed F) (id : PaneId) : (s.modify id fun _ => q).Fed F :=
  h.modify fun _ _ => hq

theorem Fed.modifyAll (h : s.Fed F) {f : Pane → Pane} (hf : ∀ p, p.Fed F → (f p).Fed F) :
    (s.modifyAll f).Fed F := by
  intro k q hq
  have hpane : (s.modifyAll f).table.pane? k = (s.table.pane? k).map f := pane?_modifyAll ..
  rw [hpane] at hq
  obtain ⟨p, hp, rfl⟩ := Option.map_eq_some_iff.1 hq
  exact hf p (h k p hp)

theorem Fed.publish (h : s.Fed F) (e : Event) : (s.publish e).Fed F := h

/-! ## Deriving what panes show -/

theorem Fed.syncSelection (h : s.Fed F) (l : LinkedSelection Float) : (s.syncSelection l).Fed F := by
  refine h.modify fun p hp => ?_
  split
  · exact hp.select l.ids
  · exact hp

theorem Fed.publishBrush (h : s.Fed F) (id : PaneId) : (s.publishBrush id).Fed F := by
  unfold Session.publishBrush
  split
  · exact (h.publish _).syncSelection _
  · exact h

theorem Fed.applyRecurrence (h : s.Fed F) (r : Recurrence) : (s.applyRecurrence r).Fed F := by
  refine Fed.publish (h.modifyAll fun p hp => ?_) _
  exact ⟨hp.nodes, hp.brush⟩

theorem Fed.recomputeWatched (h : s.Fed F) : s.recomputeWatched.Fed F := by
  unfold Session.recomputeWatched
  split
  · exact h
  · exact h.applyRecurrence _

theorem Fed.afterGrowth (h : s.Fed F) (id : PaneId) (added : List NodeId) :
    (s.afterGrowth id added).Fed F :=
  ((h.modify fun _ hp => hp.derived s added).publishBrush id).recomputeWatched

theorem Fed.settle (h : s.Fed F) (id : PaneId) : (s.settle id).Fed F := h.afterGrowth id []

theorem Fed.reproject (h : s.Fed F) (id : PaneId) : (s.reproject id).Fed F :=
  Fed.publishBrush (h.modify fun _ hp => hp.project s.schema) id

/-! ## Growing panes -/

theorem Fed.applyPending (h : s.Fed F) (hp : p.Fed F) {pending : Pending}
    (hg : F.AdmitsFragment pending.fetched) : (s.applyPending p pending).1.Fed F := by
  rw [fst_applyPending]
  refine Fed.afterGrowth (h.modify fun q hq => ?_) _ _
  exact ⟨(hp.merge hg pending.frontier).nodes, hq.brush⟩

theorem Fed.openPane (h : s.Fed F) {r : SpawnRequest} (hr : ∀ n ∈ r.seed.nodes, n.From F.node) :
    { s with table := (s.table.openPane r).1 }.Fed F :=
  Each.openPane h Pane.handedOn_fed (Pane.fed_requested hr)

/-- A pane that is opened to explore nodes is seeded with nodes of the pane it is opened from. -/
theorem Fed.spawnFor (h : s.Fed F) (hp : p.Fed F) (nodes : List NodeId) :
    (s.spawnFor p nodes).1.Fed F := by
  refine h.openPane fun n hn => ?_
  obtain ⟨id, -, hid⟩ := List.mem_filterMap.1 hn
  exact hp.nodes n (Store.mem_nodes_of_node? hid)

theorem Fed.openFirst (h : s.Fed F) {seed : Fragment} (hg : F.AdmitsFragment seed) :
    (s.openFirst seed).1.Fed F := by
  have hopened : { s with table := _, started := true }.Fed F :=
    h.openPane (r := .seeded seed s.defaultView) fun n hn => Node.from_of (hg n hn)
  exact hopened.settle _

theorem Fed.unpack (h : s.Fed F) {d : PaneDocument} (hd : F.AdmitsDocument d) :
    (s.unpack d).Fed F := by
  unfold Session.unpack
  dsimp only
  have hopened : { s with table := (s.table.openPane (documentRequest d)).1 }.Fed F :=
    h.openPane fun n hn => Node.from_of (hd.nodes n hn)
  generalize s.table.openPane (documentRequest d) = r at hopened ⊢
  refine Fed.settle (hopened.modify fun p hp => ?_) r.2
  refine hp.execute (c := .replaceState d.brush) fun state hstate => ?_
  exact BrushCommand.replaceState.inj hstate ▸ hd.brush

/-! ## Selecting, marking and brushing -/

theorem Fed.propagate (h : s.Fed F) : s.propagate.Fed F := by
  refine Fed.modifyAll (h.publish _) fun p hp => ?_
  exact ⟨hp.nodes, hp.brush⟩

theorem Fed.mark (h : s.Fed F) (ids : List NodeId) : (s.mark ids).1.Fed F := by
  have hmarked : { s with marks := (s.marks.mark ids).1 }.Fed F := h
  simp only [Session.mark]
  split
  · exact hmarked
  · exact Fed.propagate (hmarked.publish _)

theorem Fed.unmark (h : s.Fed F) (ids : List NodeId) : (s.unmark ids).1.Fed F := by
  have hmarked : { s with marks := (s.marks.unmark ids).1 }.Fed F := h
  simp only [Session.unmark]
  split
  · exact hmarked
  · exact Fed.propagate (hmarked.publish _)

theorem Fed.clearRecurrence (h : s.Fed F) : s.clearRecurrence.Fed F := by
  have hcleared : { s with watched := {} }.Fed F := h
  refine Fed.publish (hcleared.modifyAll fun p hp => ?_) _
  exact ⟨hp.nodes, hp.brush⟩

theorem Fed.pollBrushes (h : s.Fed F) (now : Nat) : (s.pollBrushes now).1.Fed F := by
  have hpolled : (s.modifyAll fun p => { p with brush := (p.brush.poll now).1 }).Fed F :=
    h.modifyAll fun _ hp => hp.execute (c := .poll now) nofun
  exact List.foldlRecOn (motive := Fed F) _ _ hpolled fun _ hs id _ => hs.publishBrush id

theorem Fed.modifyBrush (h : s.Fed F) (hp : s.table.pane? pane = some p)
    {f : Brush Float → Brush Float} (hf : (f p.brush).Arises F.state) :
    (s.modifyBrush pane f).Fed F := by
  intro k q hq
  rcases modify_cases hq with ⟨rfl, p', hp', rfl⟩ | ⟨-, hq⟩
  · obtain rfl := Option.some.inj (hp.symm.trans hp')
    exact ⟨(h k p hp).nodes, hf⟩
  · exact h k q hq

theorem Fed.modifyView (h : s.Fed F) (pane : PaneId) (f : ViewState → ViewState) :
    (s.modify pane fun p => { p with view := f p.view }).Fed F := by
  refine h.modify fun p hp => ?_
  exact ⟨hp.nodes, hp.brush⟩

/-! ## Steps -/

/-- **Every step keeps all panes fed** if what it takes in may come in. -/
theorem Fed.step (h : s.Fed F) (hstep : FedStep F s k s') : s'.Fed F := by
  cases hstep with
  | warn pane message => exact h.publish _
  | load schema => exact h
  | enter => exact h
  | teardown => exact Each.clear h Pane.handedOn_fed
  | lend hp hq =>
    exact h.replace ((h _ _ hp).of_scene_eq (Pane.scene_beginExpansion hq).1) _
  | drop t => exact h.modify fun p hp => hp.of_scene_eq (p.scene_release _)
  | abandon pane => exact h.modify fun _ hp => hp.endExpansion
  | withhold hp => exact h.replace (h _ _ hp).endExpansion _
  | grow hp frontier g hg =>
    exact Fed.afterGrowth (h.replace ((h _ _ hp).merge hg frontier).endExpansion _) _ _
  | tie hp frontier g hnone hg =>
    exact h.replace ((h _ _ hp).merge hg frontier).endExpansion _
  | proceed hp pending hg => exact h.applyPending (h _ _ hp) hg
  | redirect hsource pending hp hk hg =>
    have hspawned := h.spawnFor (h _ _ hsource) pending.frontier
    exact hspawned.applyPending (hspawned _ _ hp) hg
  | renew hp fresh hfresh =>
    refine Fed.reproject (h.modify fun q hq => ?_) _
    exact ⟨((h _ _ hp).refresh hfresh).nodes, hq.brush⟩
  | openFirst seed hk hg => exact h.openFirst hg
  | openFor hp nodes hk => exact (h.spawnFor (h _ _ hp) nodes).settle _
  | unpack d hk hd => exact h.unpack hd
  | destroy hdestroy hk =>
    exact Fed.recomputeWatched (s := { s with table := _ })
      (Each.destroy h Pane.handedOn_fed hdestroy)
  | merge hmerge hk =>
    exact Fed.settle (s := { s with table := _ }) (Each.merge h Pane.handedOn_fed hmerge) _
  | duplicate hduplicate hk =>
    exact Fed.settle (s := { s with table := _ }) (Each.duplicate h Pane.handedOn_fed hduplicate) _
  | duplicateMany hduplicate hk =>
    have hcopied : { s with table := _ }.Fed F :=
      Each.duplicateMany h Pane.handedOn_fed hduplicate
    exact List.foldlRecOn (motive := Fed F) _ _ hcopied fun _ hs id _ => hs.settle id
  | highlight hhighlight => exact Each.of_sameWork h Pane.handedOn_fed (.highlight hhighlight)
  | mark ids => exact h.mark ids
  | unmark ids => exact h.unmark ids
  | propagate => exact h.propagate
  | detect => exact Fed.publish (Fed.applyRecurrence (s := s.addWatched _) h _) _
  | watch ids => exact Fed.recomputeWatched (s := s.addWatched ids) h
  | unwatch => exact h.clearRecurrence
  | select pane ids => exact h.modify fun _ hp => hp.select _
  | undo hp hq => exact h.replace ((h _ _ hp).undo hq) _
  | redo hp hq => exact h.replace ((h _ _ hp).redo hq) _
  | sync l => exact h.syncSelection l
  | brush hp hc hf hstate =>
    exact Fed.publishBrush (h.modifyBrush hp (hf ▸ .execute (h _ _ hp).brush hstate)) _
  | postpone hp hran =>
    exact h.modifyBrush hp (.execute (h _ _ hp).brush (c := .brushCoalesced ..) nofun)
  | poll now => exact h.pollBrushes now
  | adjust pane hmode hdetails => exact h.modifyView pane _
  | view pane hsync => exact (h.modifyView pane _).reproject pane

end Session

/-! ## Calls -/

/-- Whether what a call brings may come in. -/
def Feed.AdmitsCall (F : Feed) : Call → Prop
  | .session c => F.Admits c
  | .brush _ c => c.Brings F.state

namespace Session

variable {F : Feed} {s : Session} {σ : Type} {backend : Backend (StateM σ)}

theorem fed_vacant (options : SessionOptions) (bus : Bus) : (vacant options bus).Fed F := by
  intro id p hp
  nomatch hp

theorem Fed.answer (h : s.Fed F) (hbackend : F.Supplies backend) {call : Call}
    (hcall : F.AdmitsCall call) : Always (Fed F) (s.answer backend call) := by
  cases call with
  | session c => exact always_performFed hbackend (fun hstep h => h.step hstep) hcall h
  | brush pane c => exact always_pure (h.modify fun _ hp => hp.execute hcall)

/-- **All panes stay fed**, whatever calls are made, if what the backend answers and the calls bring
may come in. -/
theorem always_fed (h : s.Fed F) (hbackend : F.Supplies backend) {calls : List Call}
    (hcalls : ∀ c ∈ calls, F.AdmitsCall c) : Always (Fed F) (s.answerAll backend calls) := by
  induction calls generalizing s with
  | nil => exact always_pure h
  | cons call calls ih =>
    obtain ⟨hcall, hcalls⟩ := List.forall_mem_cons.1 hcalls
    exact (h.answer hbackend hcall).bind fun s' hs' => ih hs' hcalls

end Session

end StateAtlas
