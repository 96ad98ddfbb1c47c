import StateAtlas.Proofs.Pane.Registry
import StateAtlas.Proofs.Session.FinishingOrder
import StateAtlas.Proofs.Session.Freshness
/-!
What is announced of the brushes.

Whatever the brush of a pane selects is announced, so whoever listens knows the selections of all
brushes from the last announcements alone.  An operation that changes what a brush selects has to
announce it before it ends; in between, some panes are *untold*.  A pane that is opened may take the
name of a pane that is gone, of which something was announced; it counts as untold, and is projected
and announced before the operation ends.

Main statement: `linked_selections_mirror`.
-/

namespace StateAtlas

open PaneTable

/-! ## Announced selections -/

/-- What an event announces of the brush of the pane of a name. -/
def Event.linkedOf? (id : PaneId) : Event → Option (LinkedSelection Float)
  | .linkedSelection l => if l.pane = id then some l else none
  | _ => none

theorem Event.linkedOf?_of_topic_ne {e : Event} (h : e.topic ≠ .selection) (id : PaneId) :
    e.linkedOf? id = none := by
  cases e with
  | linkedSelection l => exact absurd rfl h
  | _ => rfl

/-- What was announced last of the brush of the pane of a name. -/
def lastLinked? (id : PaneId) (events : List Event) : Option (LinkedSelection Float) :=
  (events.filterMap (Event.linkedOf? id)).getLast?

theorem lastLinked?_append_of_topic_ne {news : List Event}
    (h : ∀ e ∈ news, e.topic ≠ .selection) (id : PaneId) (events : List Event) :
    lastLinked? id (events ++ news) = lastLinked? id events := by
  have hnone : news.filterMap (Event.linkedOf? id) = [] :=
    List.filterMap_eq_nil_iff.2 fun e he => Event.linkedOf?_of_topic_ne (h e he) id
  rw [lastLinked?, List.filterMap_append, hnone, List.append_nil, lastLinked?]

theorem lastLinked?_concat_linked (id : PaneId) (events : List Event) (l : LinkedSelection Float) :
    lastLinked? id (events ++ [.linkedSelection l]) =
      if l.pane = id then some l else lastLinked? id events := by
  rw [lastLinked?, List.filterMap_append]
  by_cases hid : l.pane = id
  · simp [Event.linkedOf?, hid]
  · simp [Event.linkedOf?, hid, lastLinked?]

/-- To hear of selections is enough. -/
theorem lastLinked?_filter_asked {topics : List Topic} (h : topics = [] ∨ .selection ∈ topics)
    (id : PaneId) (events : List Event) :
    lastLinked? id (events.filter (Bus.asked topics)) = lastLinked? id events := by
  refine congrArg List.getLast? (Bus.filterMap_filter_asked (fun e he => ?_) events)
  refine Event.linkedOf?_of_topic_ne (fun htopic => ?_) id
  rcases h with rfl | h
  · nomatch he
  · simp [Bus.asked, htopic, h] at he

/-! ## Told sessions -/

namespace Session

variable {s s' : Session} {bus : Bus} {untold untold' opened : List PaneId} {id pane : PaneId}
  {p q : Pane} {k : CommandKind}

/-- The brush of every pane is its own.  Of every live pane that is not listed, what was announced
last since the bus was as given is what its brush selects. -/
structure ToldBut (bus : Bus) (untold : List PaneId) (s : Session) : Prop where
  own : s.Own
  told : ∃ events : List Event, s.table.bus = events.foldl Bus.publish bus ∧
    ∀ {id p}, s.table.pane? id = some p → id ∉ untold →
      lastLinked? id events = some p.brush.linked

/-- Of every live pane, what was announced last is what its brush selects. -/
abbrev Told (bus : Bus) (s : Session) : Prop := ToldBut bus [] s

/-- As long as nothing is announced of brushes, all depends on what the panes become. -/
theorem ToldBut.quiet (h : ToldBut bus untold s) (news : List Event)
    (hbus : s'.table.bus = news.foldl Bus.publish s.table.bus)
    (hnews : ∀ e ∈ news, e.topic ≠ .selection)
    (hpanes : ∀ {id q}, s'.table.pane? id = some q → q.brush.pane = id ∧ (id ∉ untold' →
      id ∉ untold ∧ ∃ p, s.table.pane? id = some p ∧ q.brush.linked = p.brush.linked)) :
    ToldBut bus untold' s' := by
  obtain ⟨events, hevents, htold⟩ := h.told
  refine ⟨fun id q hq => (hpanes hq).1, events ++ news, ?_, fun {id q} hq hid => ?_⟩
  · rw [List.foldl_append, ← hevents, hbus]
  · obtain ⟨hmem, p, hp, hlinked⟩ := (hpanes hq).2 hid
    rw [lastLinked?_append_of_topic_ne hnews, htold hp hmem, hlinked]

theorem ToldBut.mono (h : ToldBut bus untold s) (hsub : untold ⊆ untold') :
    ToldBut bus untold' s :=
  h.quiet [] rfl (List.forall_mem_nil _) fun {id p} hp =>
    ⟨h.own id p hp, fun hid => ⟨fun hmem => hid (hsub hmem), p, hp, rfl⟩⟩

theorem ToldBut.publish (h : ToldBut bus untold s) {e : Event} (he : e.topic ≠ .selection) :
    ToldBut bus untold (s.publish e) :=
  h.quiet [e] rfl (List.forall_mem_singleton.2 he) fun {id p} hp =>
    ⟨h.own id p hp, fun hid => ⟨hid, p, hp, rfl⟩⟩

/-! ## Changes of panes -/

/-- Changes that leave alone what brushes select need not be announced. -/
theorem ToldBut.modify (h : ToldBut bus untold s) {f : Pane → Pane}
    (hf : ∀ p, s.table.pane? id = some p → (f p).brush.linked = p.brush.linked) :
    ToldBut bus untold (s.modify id f) := by
  refine h.quiet [] rfl (List.forall_mem_nil _) fun {j q} hq => ?_
  rcases modify_cases hq with ⟨rfl, p, hp, rfl⟩ | ⟨-, hq⟩
  · have hpane : (f p).brush.pane = p.brush.pane := congrArg LinkedSelection.pane (hf p hp)
    exact ⟨hpane.trans (h.own j p hp), fun hj => ⟨hj, p, hp, hf p hp⟩⟩
  · exact ⟨h.own j q hq, fun hj => ⟨hj, q, hq, rfl⟩⟩

theorem ToldBut.replace (h : ToldBut bus untold s) (hp : s.table.pane? id = some p)
    (hq : q.brush = p.brush) : ToldBut bus untold (s.modify id fun _ => q) := by
  refine h.modify fun p' hp' => ?_
  obtain rfl : p = p' := Option.some.inj (hp.symm.trans hp')
  exact congrArg Brush.linked hq

/-- Of an untold pane the brush may change, as long as it stays with its pane. -/
theorem ToldBut.disturb (h : ToldBut bus (id :: untold) s) {f : Pane → Pane}
    (hf : ∀ p, s.table.pane? id = some p → (f p).brush.pane = p.brush.pane) :
    ToldBut bus (id :: untold) (s.modify id f) := by
  refine h.quiet [] rfl (List.forall_mem_nil _) fun {j q} hq => ?_
  rcases modify_cases hq with ⟨rfl, p, hp, rfl⟩ | ⟨-, hq⟩
  · exact ⟨(hf p hp).trans (h.own j p hp), fun hj => absurd List.mem_cons_self hj⟩
  · exact ⟨h.own j q hq, fun hj => ⟨hj, q, hq, rfl⟩⟩

theorem ToldBut.modifyAll (h : ToldBut bus untold s) {f : Pane → Pane}
    (hpane : ∀ p, (f p).brush.pane = p.brush.pane)
    (hf : ∀ {id p}, s.table.pane? id = some p → id ∉ untold' →
      id ∉ untold ∧ (f p).brush.linked = p.brush.linked) :
    ToldBut bus untold' (s.modifyAll f) := by
  refine h.quiet [] rfl (List.forall_mem_nil _) fun {j q} hq => ?_
  have hmap : (s.modifyAll f).table.pane? j = (s.table.pane? j).map f := pane?_modifyAll ..
  obtain ⟨p, hp, rfl⟩ := Option.map_eq_some_iff.1 (hmap.symm.trans hq)
  refine ⟨(hpane p).trans (h.own j p hp), fun hj => ?_⟩
  obtain ⟨hmem, hlinked⟩ := hf hp hj
  exact ⟨hmem, p, hp, hlinked⟩

/-- Every pane may change beside its brush. -/
theorem ToldBut.retouchAll (h : ToldBut bus untold s) {f : Pane → Pane}
    (hf : ∀ p, (f p).brush = p.brush) : ToldBut bus untold (s.modifyAll f) :=
  h.modifyAll (fun p => congrArg Brush.pane (hf p)) fun {_ p} _ hid =>
    ⟨hid, congrArg Brush.linked (hf p)⟩

/-! ## Announcing -/

theorem brush_endExpansion (p : Pane) : p.endExpansion.brush = p.brush :=
  (congrArg Pane.brush p.still_endExpansion :)

theorem brush_release (p : Pane) (number : Nat) : (p.release number).brush = p.brush :=
  (congrArg Pane.brush (p.still_release number) :)

theorem brush_beginExpansion {number : Nat} (h : p.beginExpansion number = .ok q) :
    q.brush = p.brush :=
  (congrArg Pane.brush (Pane.still_beginExpansion h) :)

theorem brush_select (p : Pane) (ids : List NodeId) : (p.select ids).brush = p.brush :=
  congrArg (fun scene => scene.2.2.2) (p.scene_select ids)

theorem ToldBut.syncSelection (h : ToldBut bus untold s) (l : LinkedSelection Float) :
    ToldBut bus untold (s.syncSelection l) := by
  refine h.modify fun p _ => ?_
  split
  · rw [brush_select]
  · rfl

/-- **A pane is told once its brush is announced.** -/
theorem ToldBut.publishBrush (h : ToldBut bus (id :: untold) s) :
    ToldBut bus untold (s.publishBrush id) := by
  unfold Session.publishBrush
  split
  next p hp =>
    refine ToldBut.syncSelection ?_ p.brush.linked
    obtain ⟨events, hevents, htold⟩ := h.told
    refine ⟨h.own, events ++ [.linkedSelection p.brush.linked], ?_, fun {j q} hq hj => ?_⟩
    · rw [List.foldl_append, ← hevents]
      rfl
    · rw [lastLinked?_concat_linked]
      have hpane : p.brush.linked.pane = id := h.own id p hp
      by_cases hid : id = j
      · subst hid
        obtain rfl := Option.some.inj (hp.symm.trans hq)
        rw [if_pos hpane]
      · rw [if_neg fun heq => hid (hpane.symm.trans heq)]
        exact htold hq (List.not_mem_cons_of_ne_of_not_mem (Ne.symm hid) hj)
  next hnone =>
    refine h.quiet [] rfl (List.forall_mem_nil _) fun {j q} hq => ?_
    refine ⟨h.own j q hq, fun hj => ⟨List.not_mem_cons_of_ne_of_not_mem ?_ hj, q, hq, rfl⟩⟩
    rintro rfl
    nomatch hnone.symm.trans hq

theorem ToldBut.publishEach (h : ToldBut bus untold s) :
    Told bus (untold.foldl Session.publishBrush s) := by
  induction untold generalizing s with
  | nil => exact h
  | cons id untold ih => exact ih h.publishBrush

/-- A brush is changed and announced. -/
theorem ToldBut.rebrush (h : ToldBut bus (id :: untold) s) {f : Pane → Pane}
    (hf : ∀ p, s.table.pane? id = some p → (f p).brush.pane = p.brush.pane) :
    ToldBut bus untold ((s.modify id f).publishBrush id) :=
  (h.disturb hf).publishBrush

theorem ToldBut.untell (h : ToldBut bus untold s) (id : PaneId) : ToldBut bus (id :: untold) s :=
  h.mono (List.subset_cons_self id untold)

theorem ToldBut.applyRecurrence (h : ToldBut bus untold s) (r : Recurrence) :
    ToldBut bus untold (s.applyRecurrence r) :=
  (h.retouchAll (f := fun p => { p with recurring := r.forPane p.id }) fun _ => rfl).publish
    (e := .recurringUpdated r.ids r.panes) nofun

theorem ToldBut.recomputeWatched (h : ToldBut bus untold s) :
    ToldBut bus untold s.recomputeWatched := by
  unfold Session.recomputeWatched
  split
  · exact h
  · exact h.applyRecurrence _

/-- **What is derived after a pane has grown is announced.** -/
theorem ToldBut.afterGrowth (h : ToldBut bus (id :: untold) s) (added : List NodeId) :
    ToldBut bus untold (s.afterGrowth id added) :=
  ToldBut.recomputeWatched (h.rebrush fun p _ => s.pane_derived added p)

theorem ToldBut.settle (h : ToldBut bus (id :: untold) s) : ToldBut bus untold (s.settle id) :=
  h.afterGrowth []

theorem ToldBut.settleEach (h : ToldBut bus opened s) :
    Told bus (opened.foldl Session.settle s) := by
  induction opened generalizing s with
  | nil => exact h
  | cons id opened ih => exact ih h.settle

theorem ToldBut.reproject (h : ToldBut bus (id :: untold) s) :
    ToldBut bus untold (s.reproject id) :=
  h.rebrush fun _ _ => rfl

/-! ## Panes that come and go -/

/-- **Of the panes of a table that was reached, only those that were opened are untold.** -/
theorem ToldBut.reach (h : s.Told bus) (hreaches : s.table.Reaches opened s'.table)
    (hreports : s.table.Reports opened s'.table) : ToldBut bus opened s' := by
  obtain ⟨added, ⟨news, hbus, htopics, -⟩, -⟩ := hreports
  obtain ⟨⟨rank, hwf⟩, hevolves⟩ := hreaches
  refine h.quiet news hbus (fun e he htopic => ?_) fun {id q} hq => ?_
  · rcases htopics e he with heq | heq <;> nomatch heq.symm.trans htopic
  · rcases hevolves.newcomer_or_survivor hq with ⟨hmem, huntouched⟩ | ⟨-, p, hp, hwork⟩
    · exact ⟨huntouched.brush.trans (hwf.rooted.linked.id_pane hq), fun hid => absurd hmem hid⟩
    · have hbrush : q.brush = p.brush := (congrArg Pane.brush hwork :)
      refine ⟨hbrush ▸ h.own id p hp, fun _ => ⟨List.not_mem_nil, p, hp, ?_⟩⟩
      rw [hbrush]

theorem Told.openPane (h : s.Told bus) (hs : s.Sound) {r : SpawnRequest}
    (hr : ∀ spawner ∈ r.spawner, s.table.contains spawner = true) :
    ToldBut bus [(s.table.openPane r).2] { s with table := (s.table.openPane r).1 } := by
  obtain ⟨rank, hwf⟩ := hs.wellFormed
  exact h.reach (hwf.openPane hr) (hwf.reports_openPane hr)

theorem Told.spawnFor (h : s.Told bus) (hs : s.Sound) (hp : s.table.pane? pane = some p)
    (nodes : List NodeId) : ToldBut bus [(s.spawnFor p nodes).2] (s.spawnFor p nodes).1 := by
  refine h.openPane hs fun spawner hspawner => ?_
  obtain rfl : p.id = spawner := Option.some.inj hspawner
  exact contains_of_pane? (hs.id_pane hp ▸ hp)

theorem ToldBut.mergedExpansion (h : ToldBut bus untold s) (hp : s.table.pane? id = some p)
    (store : Store) :
    ToldBut bus untold (s.modify id fun _ => { p with store := store }.endExpansion) := by
  refine h.replace hp ?_
  rw [brush_endExpansion]

theorem ToldBut.applyPending (h : ToldBut bus [id] s) (hid : p.id = id) (pending : Pending) :
    Told bus (s.applyPending p pending).1 := by
  subst hid
  exact ToldBut.afterGrowth
    (h.disturb (f := fun q => { q with store := (p.store.apply pending).1 }) fun _ _ => rfl) _

theorem Told.openFirst (h : s.Told bus) (hs : s.Sound) (seed : Fragment) :
    Told bus (s.openFirst seed).1 := by
  have hopened := h.openPane hs (r := .seeded seed s.defaultView) nofun
  unfold Session.openFirst
  generalize s.table.openPane (.seeded seed s.defaultView) = r at hopened ⊢
  have hstarted : ToldBut bus [r.2] { s with table := r.1, started := true } :=
    ⟨hopened.own, hopened.told⟩
  exact hstarted.afterGrowth []

theorem Told.unpack (h : s.Told bus) (hs : s.Sound) (d : PaneDocument) :
    Told bus (s.unpack d) := by
  have hopened := h.openPane hs (r := documentRequest d) nofun
  unfold Session.unpack
  dsimp only
  generalize s.table.openPane (documentRequest d) = r at hopened ⊢
  refine ToldBut.settle (hopened.disturb fun p _ => ?_)
  exact p.brush.pane_execute (.replaceState d.brush)

/-! ## Marking and watching -/

theorem Told.propagate (h : s.Told bus) : Told bus s.propagate :=
  ToldBut.retouchAll (f := fun p => { p with marked := s.marks.decorate p.store })
    (h.publish (e := .propagate) nofun) fun _ => rfl

theorem Told.marksChanged (h : s.Told bus) (marked unmarked : List NodeId) :
    Told bus (s.publish (.marksChanged marked unmarked)).propagate :=
  Told.propagate (h.publish nofun)

theorem Told.mark (h : s.Told bus) (ids : List NodeId) : Told bus (s.mark ids).1 := by
  have hmarked : Told bus { s with marks := (s.marks.mark ids).1 } := ⟨h.own, h.told⟩
  simp only [Session.mark]
  split
  · exact hmarked
  · exact hmarked.marksChanged _ _

theorem Told.unmark (h : s.Told bus) (ids : List NodeId) : Told bus (s.unmark ids).1 := by
  have hmarked : Told bus { s with marks := (s.marks.unmark ids).1 } := ⟨h.own, h.told⟩
  simp only [Session.unmark]
  split
  · exact hmarked
  · exact hmarked.marksChanged _ _

theorem Told.addWatched (h : s.Told bus) (ids : List NodeId) : Told bus (s.addWatched ids) :=
  ⟨h.own, h.told⟩

theorem Told.clearRecurrence (h : s.Told bus) : Told bus s.clearRecurrence := by
  have hcleared : Told bus { s with watched := {} } := ⟨h.own, h.told⟩
  exact (hcleared.retouchAll (f := fun p => { p with recurring := {} }) fun _ => rfl).publish
    (e := .registry .resetPaneNodeMarkings) nofun

/-! ## Brushing -/

/-- A brush that a poll finds nothing due for selects what it did. -/
theorem linked_poll {b : Brush Float} {now : Nat} (h : (b.poll now).2 = false) :
    (b.poll now).1.linked = b.linked := by
  rcases b.runIf_cases (b.debounce.due now) with ⟨hdue, heq⟩ | ⟨-, heq⟩
  · rw [Brush.poll, heq] at h
    exact Bool.noConfusion h
  · rw [Brush.poll, heq]
    rfl

/-- While a constraint is dragged, what is selected stays until it is recomputed. -/
theorem linked_brushCoalesced {b : Brush Float} {dimension : String}
    {c : Option (Constraint Float)} {now : Nat}
    (h : (b.brushCoalesced dimension c now).2 = false) :
    (b.brushCoalesced dimension c now).1.linked = b.linked := by
  rcases (b.store dimension c).runIf_cases ((b.store dimension c).debounce.hit now) with
    ⟨hran, heq⟩ | ⟨-, heq⟩
  · rw [Brush.brushCoalesced, heq] at h
    exact Bool.noConfusion h
  · rw [Brush.brushCoalesced, heq]
    rfl

/-- What is due is recomputed in all panes at once, and then announced of one after the other. -/
theorem Told.pollBrushes (h : s.Told bus) (hs : s.Sound) (now : Nat) :
    Told bus (s.pollBrushes now).1 := by
  obtain ⟨rank, hwf⟩ := hs.wellFormed
  refine ToldBut.publishEach (h.modifyAll (fun p => p.brush.pane_execute (.poll now)) ?_)
  intro id p hp hid
  refine ⟨List.not_mem_nil, linked_poll (Bool.eq_false_iff.2 fun hdue => hid ?_)⟩
  have hlisted : p ∈ s.table.panes :=
    List.mem_filterMap.2 ⟨id, (hwf.rooted.linked.mem_ids id).2 (contains_of_pane? hp), hp⟩
  exact List.mem_map.2 ⟨p, List.mem_filter.2 ⟨hlisted, hdue⟩, hs.id_pane hp⟩

/-! ## Steps and runs -/

/-- **Every step announces what it lets brushes select**, unless it ends the session. -/
theorem Told.step (h : s.Told bus) (hs : s.Sound) (hk : k ≠ .ending) (hstep : s.Step k s') :
    Told bus s' := by
  obtain ⟨rank, hwf⟩ := hs.wellFormed
  cases hstep with
  | warn pane message => exact h.publish (e := .warning pane message) nofun
  | load schema => exact ⟨h.own, h.told⟩
  | enter => exact ⟨h.own, h.told⟩
  | teardown hending => exact absurd hending hk
  | lend hp hq =>
    have hlent := h.replace (hs.id_pane hp ▸ hp) (brush_beginExpansion hq)
    exact ⟨hlent.own, hlent.told⟩
  | drop t => exact h.modify fun p _ => congrArg Brush.linked (brush_release p _)
  | abandon pane => exact h.modify fun p _ => congrArg Brush.linked (brush_endExpansion p)
  | withhold hp => exact h.replace hp (brush_endExpansion _)
  | @grow _ p hp frontier g =>
    have hmerged := h.mergedExpansion hp (p.store.merge frontier g)
    exact (hmerged.untell _).afterGrowth _
  | tie hp frontier g hnone => exact h.mergedExpansion hp _
  | proceed hp pending => exact (h.untell _).applyPending rfl pending
  | redirect hsource pending hp =>
    exact (h.spawnFor hs hsource _).applyPending ((hs.spawnFor hsource _).id_pane hp) pending
  | renew hp fresh =>
    refine ToldBut.reproject ((h.modify fun _ _ => ?_).untell _)
    rfl
  | openFirst seed => exact h.openFirst hs seed
  | openFor hp nodes => exact (h.spawnFor hs hp nodes).settle
  | unpack d => exact h.unpack hs d
  | destroy hdestroy =>
    exact (h.reach (hwf.destroy hdestroy) (reports_destroy hdestroy)).recomputeWatched
  | merge hmerge => exact (h.reach (hwf.merge hmerge) (hwf.reports_merge hmerge)).settle
  | duplicate hduplicate =>
    exact (h.reach (hwf.duplicate hduplicate) (hwf.reports_duplicate hduplicate)).settle
  | duplicateMany hduplicate =>
    exact (h.reach (hwf.duplicateMany hduplicate)
      (hwf.reports_duplicateMany hduplicate)).settleEach
  | highlight hhighlight =>
    exact h.reach (hwf.highlight hhighlight) (tells_highlight hhighlight).reports
  | mark ids => exact h.mark ids
  | unmark ids => exact h.unmark ids
  | propagate => exact h.propagate
  | detect =>
    exact ((h.addWatched _).applyRecurrence _).publish (e := .registry (.duplicatePaneIds _)) nofun
  | watch ids => exact (h.addWatched ids).recomputeWatched
  | unwatch => exact h.clearRecurrence
  | select pane ids => exact h.modify fun p _ => congrArg Brush.linked (brush_select p _)
  | undo hp hq =>
    obtain ⟨_, -, rfl⟩ := Option.map_eq_some_iff.1 hq
    exact h.replace hp rfl
  | redo hp hq =>
    obtain ⟨_, -, rfl⟩ := Option.map_eq_some_iff.1 hq
    exact h.replace hp rfl
  | sync l => exact h.syncSelection l
  | brush hp hc hf =>
    refine (h.untell _).rebrush fun p' hp' => ?_
    obtain rfl := Option.some.inj (hp.symm.trans hp')
    exact hf ▸ Brush.pane_execute _ _
  | postpone hp hran =>
    refine h.modify fun p' hp' => ?_
    obtain rfl := Option.some.inj (hp.symm.trans hp')
    exact linked_brushCoalesced hran
  | poll now => exact h.pollBrushes hs now
  | adjust pane hmode hdetails =>
    refine h.modify fun _ _ => ?_
    rfl
  | view pane hsync =>
    refine ToldBut.reproject ((h.modify fun _ _ => ?_).untell _)
    rfl

/-- Only the end of a session is of its kind. -/
theorem kind_ne_ending {c : SessionCommand} (hc : c ≠ .teardown) : c.kind ≠ .ending := by
  cases c with
  | teardown => exact absurd rfl hc
  | resolve pane pending decision => cases decision <;> nofun
  | _ => nofun

section

variable {σ : Type} (backend : Backend (StateM σ))

theorem Told.perform (h : s.Told bus) (hs : s.Sound) {c : SessionCommand} (hc : c ≠ .teardown) :
    Always (fun s => s.Sound ∧ s.Told bus) (s.perform backend c) :=
  always_performOfKind (fun hstep ⟨hs, h⟩ => ⟨hs.step hstep, h.step hs (kind_ne_ending hc) hstep⟩)
    ⟨hs, h⟩

theorem Told.run (h : s.Told bus) (hs : s.Sound) {commands : List SessionCommand}
    (hcommands : .teardown ∉ commands) :
    Always (fun s => s.Sound ∧ s.Told bus) (s.run backend commands) := by
  induction commands generalizing s with
  | nil => exact always_pure ⟨hs, h⟩
  | cons c commands ih =>
    have hc : c ≠ .teardown := fun heq => hcommands (heq ▸ List.mem_cons_self)
    have hcommands : .teardown ∉ commands := fun hmem => hcommands (List.mem_cons_of_mem c hmem)
    exact (h.perform backend hs hc).bind fun s' ⟨hs', h'⟩ => ih h' hs' hcommands

end

/-- Without panes there is nothing to tell. -/
theorem told_of_no_panes (h : ∀ id, s.table.pane? id = none) : s.Told s.table.bus where
  own id _ hp := nomatch (h id).symm.trans hp
  told := ⟨[], rfl, fun hp => nomatch (h _).symm.trans hp⟩

/-- Someone subscribes to what is announced in a session and gets a number. -/
def subscribe (s : Session) (topics : List Topic) : Session × Nat :=
  let r := s.table.bus.subscribe topics
  (s.onBus r.1, r.2)

theorem Sound.subscribe (h : s.Sound) (topics : List Topic) : (s.subscribe topics).1.Sound :=
  h.of_sameLineage ⟨rfl, rfl, rfl, fun _ => rfl⟩ rfl h.accounted

/-- A subscriber to selections is told of the session whatever it tells. -/
theorem Told.lastLinked?_drain {number : Nat} {topics : List Topic} (h : s.Told bus)
    (hhears : bus.Hears number topics []) (htopics : topics = [] ∨ .selection ∈ topics)
    (hp : s.table.pane? id = some p) :
    lastLinked? id (s.table.bus.drain number).2 = some p.brush.linked := by
  obtain ⟨events, hbus, htold⟩ := h.told
  rw [hbus, (hhears.publishAll events).drain, List.nil_append, lastLinked?_filter_asked htopics]
  exact htold hp List.not_mem_nil

/-- A session in which a pane is opened and copied while someone listens to selections. -/
def copiedWhileHeard : Session :=
  (((vacant ({} : Config).options (.attended [])).subscribe [.selection]).1.run
    (.constant (oneState ⟨"s0"⟩)) [.start, .duplicate original] ()).1

end Session

/-- **The announced selections mirror the brushes.**  Whoever subscribes to selections, or to
everything, while no pane is live, whatever was asked of the session before, knows from then on, after
any commands that do not end the session, what the brush of every live pane selects: it is what was
announced last for the name of the pane. -/
theorem linked_selections_mirror {σ : Type} (backend : Backend (StateM σ)) (env : σ)
    (options : SessionOptions) (others : List (List Topic)) {topics : List Topic}
    (htopics : topics = [] ∨ .selection ∈ topics) (earlier commands : List SessionCommand)
    (hearlier : .teardown ∉ earlier) (hcommands : .teardown ∉ commands) :
    let before := (Session.vacant options (.attended others)).run backend earlier env
    before.1.table.ids = [] →
    let attended := before.1.subscribe topics
    let s := (attended.1.run backend commands before.2).1
    ∀ id p, s.table.pane? id = some p →
      lastLinked? id (s.table.bus.drain attended.2).2 = some p.brush.linked := by
  intro before hids attended s id p hp
  have hvacant : (Session.vacant options (.attended others)).Told (.attended others) :=
    Session.told_of_no_panes (s := .vacant options (.attended others)) fun _ => rfl
  obtain ⟨hsound, htold⟩ := hvacant.run backend (Session.sound_vacant options _) hearlier env
  obtain ⟨rank, hwf⟩ := hsound.wellFormed
  have hnumbered : before.1.table.bus.Numbered := by
    obtain ⟨events, hevents, -⟩ := htold.told
    exact hevents ▸ (Bus.numbered_attended others).2.publishAll events
  -- No pane is live when the subscription begins, so nothing that it missed matters.
  have hnone : ∀ id, attended.1.table.pane? id = none := fun id => by
    by_contra hlive
    obtain ⟨p, hp⟩ := Option.ne_none_iff_exists'.1 hlive
    have hmem := (hwf.rooted.linked.mem_ids id).2 (contains_of_pane? hp)
    rw [hids] at hmem
    nomatch hmem
  obtain ⟨-, htold'⟩ := (Session.told_of_no_panes hnone).run backend (hsound.subscribe topics)
    hcommands before.2
  exact htold'.lastLinked?_drain (hnumbered.hears_subscribe topics) htopics hp

theorem linked_selections_mirror_copied :
    (Session.vacant ({} : Config).options (.attended [])).table.ids = [] ∧
      ∃ p, Session.copiedWhileHeard.table.pane? Session.copied = some p ∧
        lastLinked? Session.copied Session.copiedWhileHeard.heard = some p.brush.linked := by
  have hlive : Session.copiedWhileHeard.table.contains Session.copied = true := by decide +kernel
  obtain ⟨p, hp⟩ := exists_pane?_iff.1 hlive
  have htold := linked_selections_mirror (.constant (Session.oneState ⟨"s0"⟩)) ()
    ({} : Config).options [] (.inr (List.mem_singleton_self Topic.selection)) []
    [.start, .duplicate Session.original] (by simp) (by simp) rfl
  exact ⟨rfl, p, hp, htold Session.copied p hp⟩

end StateAtlas
