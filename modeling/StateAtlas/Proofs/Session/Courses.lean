import StateAtlas.Proofs.Pane.Timeline
import StateAtlas.Proofs.Session.Soundness
/-!
What becomes of each pane in the course of a session.

A step of a session does one of a few things to a pane that stays live, which `Pane.Deed` lists.  Most
tend to the pane: they leave alone whose it is and what is selected, and no node is lost.  A pane that
follows its brush takes over what the brush selects.  Only commands for that select, undo and redo,
and only commands for that change how the pane is shown.  A pane that was not live before begins
untouched.

Main statement: `Session.Step.carries`.
-/

namespace StateAtlas

open PaneTable

/-! ## Deeds -/

namespace Pane

variable {p q : Pane} {k : CommandKind}

/-- Whose a pane and its brush are, its selections, and whether it follows its brush. -/
def bearing (p : Pane) : PaneId × PaneId × Timeline × Bool :=
  (p.id, p.brush.pane, p.timeline, p.view.autoSync)

/-- What a command of a kind may do to a pane. -/
inductive Deed (k : CommandKind) (p : Pane) : Pane → Prop
  | tend {q : Pane} (hbearing : q.bearing = p.bearing)
      (hstore : ∀ n ∈ p.store.nodeIds, n ∈ q.store.nodeIds) : Deed k p q
  /-- What the brush selects becomes the pane's own. -/
  | follow (ids : List NodeId) (hauto : p.view.autoSync = true) : Deed k p (p.select ids)
  | select (ids : List NodeId) (hk : k = .selecting) : Deed k p (p.select ids)
  | undo {q : Pane} (hq : p.undo? = some q) (hk : k = .selecting) : Deed k p q
  | redo {q : Pane} (hq : p.redo? = some q) (hk : k = .selecting) : Deed k p q
  | adjust (f : ViewState → ViewState) (hk : k = .viewing) : Deed k p { p with view := f p.view }

/-- Deeds, one after the other. -/
abbrev Course (k : CommandKind) : Pane → Pane → Prop := Relation.ReflTransGen (Deed k)

theorem Deed.course (h : Deed k p q) : Course k p q := .single h

/-- The pane and its brush stay the same ones. -/
theorem Deed.id_brush_eq (h : Deed k p q) : q.id = p.id ∧ q.brush.pane = p.brush.pane := by
  cases h with
  | tend hbearing => exact ⟨congrArg Prod.fst hbearing, congrArg (fun b => b.2.1) hbearing⟩
  | follow ids => simp only [Pane.select]; split <;> exact ⟨rfl, rfl⟩
  | select ids => simp only [Pane.select]; split <;> exact ⟨rfl, rfl⟩
  | undo hq =>
    obtain ⟨_, -, rfl⟩ := Option.map_eq_some_iff.1 hq
    exact ⟨rfl, rfl⟩
  | redo hq =>
    obtain ⟨_, -, rfl⟩ := Option.map_eq_some_iff.1 hq
    exact ⟨rfl, rfl⟩
  | adjust f => exact ⟨rfl, rfl⟩

theorem Deed.timely (h : Deed k p q) (hp : p.Timely) : q.Timely := by
  cases h with
  | tend hbearing hstore => exact hp.grown (congrArg (fun b => b.2.2.1) hbearing) hstore
  | follow ids => exact hp.select ids
  | select ids => exact hp.select ids
  | undo hq => exact hp.undo hq
  | redo hq => exact hp.redo hq
  | adjust f => exact hp.grown rfl fun _ hn => hn

theorem Course.id_brush_eq (h : Course k p q) : q.id = p.id ∧ q.brush.pane = p.brush.pane := by
  induction h with
  | refl => exact ⟨rfl, rfl⟩
  | tail _ hdeed ih =>
    obtain ⟨hid, hbrush⟩ := hdeed.id_brush_eq
    exact ⟨hid.trans ih.1, hbrush.trans ih.2⟩

theorem Course.timely (h : Course k p q) (hp : p.Timely) : q.Timely := by
  induction h with
  | refl => exact hp
  | tail _ hdeed ih => exact hdeed.timely ih

theorem autoSync_select (p : Pane) (ids : List NodeId) :
    (p.select ids).view.autoSync = p.view.autoSync := by
  simp only [Pane.select]
  split <;> rfl

/-- **Unless it is selected in a pane, only what its brush selects moves its timeline on**, and only
if the pane follows its brush. -/
theorem Course.timeline_eq (h : Course k p q) (hp : p.Timely) (hselecting : k ≠ .selecting)
    (hviewing : k ≠ .viewing) :
    ∃ chosen : List (List NodeId), (p.view.autoSync = false → chosen = []) ∧
      q.timeline = chosen.foldl Timeline.select p.timeline := by
  -- Whether the pane follows its brush does not change on the way.
  suffices q.view.autoSync = p.view.autoSync ∧ ∃ chosen : List (List NodeId),
      (p.view.autoSync = false → chosen = []) ∧
      q.timeline = chosen.foldl Timeline.select p.timeline from this.2
  induction h with
  | refl => exact ⟨rfl, [], fun _ => rfl, rfl⟩
  | @tail r q hcourse hdeed ih =>
    obtain ⟨hauto, chosen, hnone, hchosen⟩ := ih
    cases hdeed with
    | tend hbearing =>
      have hsame : q.view.autoSync = r.view.autoSync := congrArg (fun b => b.2.2.2) hbearing
      have htimeline : q.timeline = r.timeline := congrArg (fun b => b.2.2.1) hbearing
      exact ⟨hsame.trans hauto, chosen, hnone, htimeline.trans hchosen⟩
    | follow ids hfollows =>
      refine ⟨(r.autoSync_select ids).trans hauto, chosen ++ [r.held ids], fun hoff => ?_, ?_⟩
      · rw [hauto, hoff] at hfollows
        nomatch hfollows
      · rw [(Course.timely hcourse hp).select_eq, timeline_withTimeline, hchosen,
          List.foldl_append, List.foldl_cons, List.foldl_nil]
    | select ids hk => exact absurd hk hselecting
    | undo hq hk => exact absurd hk hselecting
    | redo hq hk => exact absurd hk hselecting
    | adjust f hk => exact absurd hk hviewing

/-! ### What tends to a pane -/

/-- A change that leaves the store alone. -/
theorem course_of_bearing_eq (hbearing : q.bearing = p.bearing)
    (hstore : q.store.nodeIds = p.store.nodeIds) : Course k p q :=
  (Deed.tend hbearing fun _ hn => hstore ▸ hn).course

theorem course_of_still_eq (h : q.still = p.still) : Course k p q :=
  course_of_bearing_eq (congrArg bearing h :) (congrArg (fun r => r.store.nodeIds) h :)

theorem course_of_work_eq (h : work q = work p) : Course k p q :=
  course_of_bearing_eq (congrArg bearing h :) (congrArg (fun r => r.store.nodeIds) h :)

theorem course_withBrush {b : Brush Float} (hb : b.pane = p.brush.pane) :
    Course k p { p with brush := b } :=
  course_of_bearing_eq (by rw [bearing, hb]; rfl) rfl

/-- A store to which nodes are added. -/
theorem course_merge (p : Pane) (frontier : List NodeId) (g : Fragment) :
    Course k p { p with store := p.store.merge frontier g } := by
  have hstore : ∀ n ∈ p.store.nodeIds, n ∈ (p.store.merge frontier g).nodeIds := fun n hn =>
    (Store.nodeIds_merge ..).symm ▸ List.mem_append_left _ hn
  exact Deed.course (q := { p with store := p.store.merge frontier g }) (.tend rfl hstore)

theorem course_endExpansion (p : Pane) : Course k p p.endExpansion :=
  course_of_still_eq p.still_endExpansion

theorem course_project (p : Pane) (schema : Schema) : Course k p (p.project schema) := by
  unfold project
  exact course_withBrush rfl

theorem course_derived (s : Session) (added : List NodeId) (p : Pane) :
    Course k p (s.derived added p) := by
  have hput : Course k p { p with everAdded := p.everAdded.insertMany added } :=
    course_of_bearing_eq rfl rfl
  refine hput.trans (.trans (course_of_still_eq (still_settle _)) (course_of_bearing_eq ?_ ?_))
  · simp only [Session.derived, Pane.project, Pane.noteAdded, bearing, timeline]
    rfl
  · simp only [Session.derived, Pane.project, Pane.noteAdded]

/-- Nothing was ever selected in a pane that nobody has touched. -/
theorem timeline_of_untouched (h : Untouched p) : p.timeline = {} := by
  rw [timeline, h.selection, h.history]

theorem timely_of_untouched (h : Untouched p) : p.Timely :=
  timely_of_blank (timeline_of_untouched h)

end Pane

/-! ## Sessions -/

namespace Session

variable {s s' s'' : Session} {k : CommandKind} {id pane : PaneId} {p q : Pane}

/-- Where a pane comes from that a command leaves: it was live, or the command opened it. -/
inductive Origin (k : CommandKind) (s : Session) (id : PaneId) (p : Pane) : Prop
  | live (hp : s.table.pane? id = some p)
  | opened (hk : k = .opening) (hid : p.id = id) (huntouched : Untouched p)

/-- Every pane that is live afterwards took its course from where it comes from. -/
def Carries (k : CommandKind) (s s' : Session) : Prop :=
  ∀ id q, s'.table.pane? id = some q → ∃ p, Origin k s id p ∧ Pane.Course k p q

namespace Carries

theorem of_pane?_eq (h : ∀ id, s'.table.pane? id = s.table.pane? id) : Carries k s s' :=
  fun id q hq => ⟨q, .live ((h id).symm.trans hq), .refl⟩

theorem rfl (s : Session) : Carries k s s := of_pane?_eq fun _ => Eq.refl _

theorem trans (h : Carries k s s') (h' : Carries k s' s'') : Carries k s s'' := by
  intro id q hq
  obtain ⟨r, hr, hcourse⟩ := h' id q hq
  cases hr with
  | live hr =>
    obtain ⟨p, hp, hfirst⟩ := h id r hr
    exact ⟨p, hp, hfirst.trans hcourse⟩
  | opened hk hid huntouched => exact ⟨r, .opened hk hid huntouched, hcourse⟩

theorem publish (s : Session) (e : Event) : Carries k s (s.publish e) :=
  of_pane?_eq fun _ => Eq.refl _

theorem modify {f : Pane → Pane} (hf : ∀ p, s.table.pane? id = some p → Pane.Course k p (f p)) :
    Carries k s (s.modify id f) := by
  intro j q hq
  rcases modify_cases hq with ⟨hj, p, hp, heq⟩ | ⟨-, hq⟩
  · exact ⟨p, .live (hj ▸ hp), heq ▸ hf p hp⟩
  · exact ⟨q, .live hq, .refl⟩

theorem replace (hp : s.table.pane? id = some p) (hq : Pane.Course k p q) :
    Carries k s (s.modify id fun _ => q) := by
  refine modify fun p' hp' => ?_
  obtain heq : p = p' := Option.some.inj (hp.symm.trans hp')
  exact heq ▸ hq

theorem modifyAll {f : Pane → Pane} (hf : ∀ p, Pane.Course k p (f p)) :
    Carries k s (s.modifyAll f) := by
  intro id q hq
  have hpane : (s.modifyAll f).table.pane? id = (s.table.pane? id).map f := pane?_modifyAll ..
  rw [hpane] at hq
  obtain ⟨p, hp, heq⟩ := Option.map_eq_some_iff.1 hq
  exact ⟨p, .live hp, heq ▸ hf p⟩

/-- The panes of a table that was reached were live before, or were opened. -/
theorem reach {opened : List PaneId} {u : PaneTable} (hreaches : s.table.Reaches opened u)
    (hk : opened ≠ [] → k = .opening) : Carries k s { s with table := u } := by
  obtain ⟨⟨rank, hwf⟩, hevolves⟩ := hreaches
  intro id q hq
  rcases hevolves.newcomer_or_survivor hq with ⟨hmem, huntouched⟩ | ⟨-, p, hp, hwork⟩
  · exact ⟨q, .opened (hk (List.ne_nil_of_mem hmem)) (hwf.rooted.linked.id_pane hq) huntouched,
      .refl⟩
  · exact ⟨p, .live hp, Pane.course_of_work_eq hwork⟩

theorem syncSelection (s : Session) (l : LinkedSelection Float) :
    Carries k s (s.syncSelection l) := by
  refine modify fun p _ => ?_
  split
  next hauto => exact (Pane.Deed.follow l.ids hauto).course
  next => exact .refl

theorem publishBrush (s : Session) (id : PaneId) : Carries k s (s.publishBrush id) := by
  unfold Session.publishBrush
  split
  · exact (publish s _).trans (syncSelection _ _)
  · exact rfl s

theorem applyRecurrence (s : Session) (r : Recurrence) : Carries k s (s.applyRecurrence r) := by
  have hshown : Carries k s (s.modifyAll fun p => { p with recurring := r.forPane p.id }) :=
    modifyAll fun p => Pane.course_of_bearing_eq (Eq.refl p.bearing) (Eq.refl p.store.nodeIds)
  exact hshown.trans (publish _ _)

theorem recomputeWatched (s : Session) : Carries k s s.recomputeWatched := by
  unfold Session.recomputeWatched
  split
  · exact rfl s
  · exact applyRecurrence s _

theorem afterGrowth (s : Session) (id : PaneId) (added : List NodeId) :
    Carries k s (s.afterGrowth id added) :=
  ((modify fun p _ => Pane.course_derived s added p).trans (publishBrush _ id)).trans
    (recomputeWatched _)

theorem settle (s : Session) (id : PaneId) : Carries k s (s.settle id) := afterGrowth s id []

theorem settleEach (s : Session) (ids : List PaneId) : Carries k s (ids.foldl Session.settle s) :=
  List.foldlRecOn (motive := Carries k s) ids _ (rfl s) fun s' h id _ => h.trans (settle s' id)

theorem reproject (s : Session) (id : PaneId) : Carries k s (s.reproject id) :=
  (modify fun p _ => Pane.course_project p s.schema).trans (publishBrush _ id)

theorem propagate (s : Session) : Carries k s s.propagate := by
  refine (publish s .propagate).trans (modifyAll fun p => ?_)
  exact Pane.course_of_bearing_eq (Eq.refl p.bearing) (Eq.refl p.store.nodeIds)

theorem withMarks (s : Session) (m : MarkSet) : Carries k s { s with marks := m } :=
  of_pane?_eq fun _ => Eq.refl _

theorem withWatched (s : Session) (w : OrderedSet NodeId) : Carries k s { s with watched := w } :=
  of_pane?_eq fun _ => Eq.refl _

theorem mark (s : Session) (ids : List NodeId) : Carries k s (s.mark ids).1 := by
  simp only [Session.mark]
  split
  · exact withMarks s _
  · exact ((withMarks s _).trans (publish _ _)).trans (propagate _)

theorem unmark (s : Session) (ids : List NodeId) : Carries k s (s.unmark ids).1 := by
  simp only [Session.unmark]
  split
  · exact withMarks s _
  · exact ((withMarks s _).trans (publish _ _)).trans (propagate _)

theorem detectRecurrence (s : Session) : Carries k s s.detectRecurrence.1 :=
  ((withWatched s _).trans (applyRecurrence (s.addWatched _) _)).trans (publish _ _)

theorem clearRecurrence (s : Session) : Carries k s s.clearRecurrence := by
  have hcleared : Carries k { s with watched := {} }
      ({ s with watched := {} }.modifyAll fun p => { p with recurring := {} }) :=
    modifyAll fun p => Pane.course_of_bearing_eq (Eq.refl p.bearing) (Eq.refl p.store.nodeIds)
  exact ((withWatched s {}).trans hcleared).trans (publish _ _)

theorem applyPending (s : Session) (hp : s.table.pane? id = some p) (hid : p.id = id)
    (pending : Pending) : Carries k s (s.applyPending p pending).1 := by
  subst hid
  rw [fst_applyPending]
  refine Carries.trans (modify fun p' hp' => ?_) (afterGrowth _ _ _)
  obtain heq : p = p' := Option.some.inj (hp.symm.trans hp')
  subst heq
  exact Pane.course_merge p pending.frontier pending.fetched

theorem pollBrushes (s : Session) (now : Nat) : Carries k s (s.pollBrushes now).1 := by
  have hpolled : Carries k s (s.modifyAll fun p => { p with brush := (p.brush.poll now).1 }) :=
    modifyAll fun p => Pane.course_withBrush (p.brush.pane_execute (.poll now))
  exact List.foldlRecOn (motive := Carries k s) _ _ hpolled fun s' h id _ =>
    h.trans (publishBrush s' id)

end Carries

theorem Sound.carries_spawnFor (hs : s.Sound) (hp : s.table.pane? pane = some p)
    (nodes : List NodeId) (hk : k = .opening) : Carries k s (s.spawnFor p nodes).1 := by
  obtain ⟨rank, hwf⟩ := hs.wellFormed
  refine Carries.reach (hwf.openPane fun spawner hspawner => ?_) fun _ => hk
  obtain rfl : p.id = spawner := Option.some.inj hspawner
  exact contains_of_pane? (hs.id_pane hp ▸ hp)

theorem Sound.carries_openFirst (hs : s.Sound) (seed : Fragment) (hk : k = .opening) :
    Carries k s (s.openFirst seed).1 := by
  obtain ⟨rank, hwf⟩ := hs.wellFormed
  have hopened := Carries.reach (k := k)
    (hwf.openPane (r := .seeded seed s.defaultView) nofun) fun _ => hk
  unfold Session.openFirst
  generalize s.table.openPane (.seeded seed s.defaultView) = r at hopened ⊢
  have hstarted : Carries k s { s with table := r.1, started := true } := fun id q hq =>
    hopened id q hq
  exact hstarted.trans (Carries.afterGrowth _ r.2 [])

theorem Sound.carries_unpack (hs : s.Sound) (d : PaneDocument) (hk : k = .opening) :
    Carries k s (s.unpack d) := by
  obtain ⟨rank, hwf⟩ := hs.wellFormed
  have hopened := Carries.reach (k := k) (hwf.openPane (r := documentRequest d) nofun) fun _ => hk
  unfold Session.unpack
  dsimp only
  generalize s.table.openPane (documentRequest d) = r at hopened ⊢
  refine (hopened.trans (Carries.modify fun p _ => ?_)).trans (Carries.settle _ r.2)
  exact Pane.course_withBrush (p.brush.pane_execute (.replaceState d.brush))

/-- **Every step does to each pane only what its kind allows.** -/
theorem Step.carries (hs : s.Sound) (hstep : s.Step k s') : Carries k s s' := by
  obtain ⟨rank, hwf⟩ := hs.wellFormed
  cases hstep with
  | warn pane message => exact Carries.publish s _
  | load schema => exact Carries.of_pane?_eq fun _ => rfl
  | enter => exact Carries.of_pane?_eq fun _ => rfl
  | teardown =>
    -- No pane is left that anything could have been done to.
    intro id q hq
    obtain ⟨rank', hcleared⟩ := hs.teardown.wellFormed
    rw [hcleared.rooted.empty_of_primary_none rfl] at hq
    nomatch hq
  | lend hp hq =>
    have hlent := Carries.replace (k := k) (hs.id_pane hp ▸ hp)
      (Pane.course_of_still_eq (Pane.still_beginExpansion hq))
    exact fun id q hq => hlent id q hq
  | drop t => exact Carries.modify fun p _ => Pane.course_of_still_eq (p.still_release _)
  | abandon pane => exact Carries.modify fun p _ => Pane.course_of_still_eq p.still_endExpansion
  | withhold hp => exact Carries.replace hp (Pane.course_endExpansion _)
  | grow hp frontier g =>
    have hmerged := Carries.replace (k := k) hp
      ((Pane.course_merge _ frontier g).trans (Pane.course_endExpansion _))
    exact hmerged.trans (Carries.afterGrowth _ _ _)
  | tie hp frontier g hnone =>
    exact Carries.replace hp ((Pane.course_merge _ frontier g).trans (Pane.course_endExpansion _))
  | proceed hp pending => exact Carries.applyPending s (hs.id_pane hp ▸ hp) rfl pending
  | redirect hsource pending hp hk =>
    exact (hs.carries_spawnFor hsource _ hk).trans
      (Carries.applyPending _ hp ((hs.spawnFor hsource _).id_pane hp) pending)
  | renew hp fresh =>
    refine Carries.trans (Carries.modify fun p' hp' => ?_) (Carries.reproject _ _)
    obtain rfl := Option.some.inj (hp.symm.trans hp')
    exact Pane.course_of_bearing_eq rfl (Store.nodeIds_refresh ..)
  | openFirst seed hk => exact hs.carries_openFirst seed hk
  | openFor hp nodes hk => exact (hs.carries_spawnFor hp nodes hk).trans (Carries.settle _ _)
  | unpack d hk => exact hs.carries_unpack d hk
  | destroy hdestroy hk =>
    exact (Carries.reach (hwf.destroy hdestroy) fun _ => hk).trans (Carries.recomputeWatched _)
  | merge hmerge hk =>
    exact (Carries.reach (hwf.merge hmerge) fun _ => hk).trans (Carries.settle _ _)
  | duplicate hduplicate hk =>
    exact (Carries.reach (hwf.duplicate hduplicate) fun _ => hk).trans (Carries.settle _ _)
  | duplicateMany hduplicate hk =>
    exact (Carries.reach (hwf.duplicateMany hduplicate) fun _ => hk).trans
      (Carries.settleEach _ _)
  | highlight hhighlight =>
    exact Carries.reach (hwf.highlight hhighlight) fun hne => absurd rfl hne
  | mark ids => exact Carries.mark s ids
  | unmark ids => exact Carries.unmark s ids
  | propagate => exact Carries.propagate s
  | detect => exact Carries.detectRecurrence s
  | watch ids =>
    exact (Carries.withWatched s _).trans (Carries.recomputeWatched (s.addWatched ids))
  | unwatch => exact Carries.clearRecurrence s
  | select pane ids hk => exact Carries.modify fun p _ => (Pane.Deed.select (ids p) hk).course
  | undo hp hq hk => exact Carries.replace hp (Pane.Deed.undo hq hk).course
  | redo hp hq hk => exact Carries.replace hp (Pane.Deed.redo hq hk).course
  | sync l => exact Carries.syncSelection s l
  | brush hp hc hf =>
    refine Carries.trans (Carries.modify fun p' hp' => ?_) (Carries.publishBrush _ _)
    obtain rfl := Option.some.inj (hp.symm.trans hp')
    exact Pane.course_withBrush (hf ▸ Brush.pane_execute _ _)
  | postpone hp hran =>
    refine Carries.modify fun p' hp' => ?_
    obtain rfl := Option.some.inj (hp.symm.trans hp')
    exact Pane.course_withBrush (Brush.pane_execute _ (.brushCoalesced _ _ _))
  | poll now => exact Carries.pollBrushes s now
  | adjust pane hmode hdetails hk => exact Carries.modify fun p _ => (Pane.Deed.adjust _ hk).course
  | view pane hsync =>
    refine Carries.trans (Carries.modify fun p _ => ?_) (Carries.reproject _ pane)
    refine Pane.course_of_bearing_eq ?_ rfl
    rw [Pane.bearing, hsync]
    rfl

/-- **A command does to each pane only what its kind allows.** -/
theorem Sound.carries {σ : Type} {backend : Backend (StateM σ)} (hs : s.Sound) (c : SessionCommand) :
    Always (Carries c.kind s) (s.perform backend c) := fun env =>
  (always_performOfKind (I := fun s' => s'.Sound ∧ Carries c.kind s s')
    (fun hstep h => ⟨h.1.step hstep, h.2.trans (hstep.carries h.1)⟩) ⟨hs, Carries.rfl s⟩ env).2

end Session

end StateAtlas
