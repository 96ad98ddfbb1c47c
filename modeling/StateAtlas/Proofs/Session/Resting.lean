import StateAtlas.Proofs.Session.Soundness
/-!
Panes at rest.

A pane keeps the phase that it entered last, and whoever lets go of its lease leaves that phase behind.
The phase to show is worked out from both.  So that it is the right one, a pane has to have its lease out
as long as it is expanding, and its resting phase has to be brought up to date whenever it comes to hold
something.  In a session both are done: every live pane either is at rest or is expanding with its lease
out.

What is done to the panes past the session keeps this as well, as long as it does not meddle with their
phases.

Main statement: `Session.Settled.serveAll`.
-/

namespace StateAtlas

open PaneTable

/-! ## Panes -/

namespace Pane

variable {p q : Pane}

/-- Nobody expands the pane, and it shows whether it holds anything. -/
def AtRest (p : Pane) : Prop := p.lease = none ∧ p.phase = p.restingPhase

/-- The pane is at rest, or it is expanding and its lease is out. -/
def Settled (p : Pane) : Prop := p.AtRest ∨ (p.lease ≠ none ∧ p.entered = .expanding)

/-- What the phase of a pane is worked out from. -/
def standing (p : Pane) : Phase × Option Nat × Bool := (p.entered, p.lease, p.store.isEmpty)

theorem Settled.of_standing_eq (h : p.Settled) (hstanding : q.standing = p.standing) :
    q.Settled := by
  obtain ⟨hentered, hlease, hempty⟩ :
      q.entered = p.entered ∧ q.lease = p.lease ∧ q.store.isEmpty = p.store.isEmpty := by
    simpa only [standing, Prod.mk.injEq] using hstanding
  unfold Settled AtRest phase restingPhase at h ⊢
  rw [hentered, hlease, hempty]
  exact h

/-- Without its lease out a pane is at rest if it entered its resting phase last, or was left
expanding. -/
theorem atRest_of_entered (hlease : p.lease = none)
    (hentered : p.entered = p.restingPhase ∨ p.entered = .expanding) : p.AtRest := by
  refine ⟨hlease, ?_⟩
  unfold phase
  split
  next => rfl
  next hleft => exact hentered.resolve_right fun hexpanding => hleft ⟨hexpanding, by simp [hlease]⟩

/-- A pane whose lease is not out is at rest. -/
theorem Settled.atRest (h : p.Settled) (hlease : p.lease = none) : p.AtRest :=
  h.resolve_right fun hout => hout.1 hlease

theorem Settled.entered_of_lease (h : p.Settled) (hlease : p.lease ≠ none) :
    p.entered = .expanding := by
  rcases h with hrest | hout
  · exact absurd hrest.1 hlease
  · exact hout.2

theorem AtRest.not_closed (h : p.AtRest) : p.entered ≠ .closed := by
  intro hclosed
  have hphase : p.phase = .closed := by simp [phase, hclosed]
  exact p.restingPhase_ne_closed (h.2.symm.trans hphase)

theorem settled_of_untouched (h : Untouched p) : p.Settled :=
  .inl (atRest_of_entered h.lease (.inl h.entered))

/-- Bringing the resting phase up to date settles a pane. -/
theorem settled_settle (hout : p.lease ≠ none → p.entered = .expanding) : p.settle.Settled := by
  cases hlease : p.lease with
  | none =>
    have hsettle : p.settle = { p with entered := p.restingPhase } := by
      rw [settle, if_neg (phase_ne_expanding hlease)]
    exact .inl (hsettle ▸ atRest_of_entered hlease (.inl rfl))
  | some number =>
    have hentered : p.entered = .expanding := hout (by simp [hlease])
    have hphase : p.phase = .expanding := by simp [phase, hentered, hlease]
    rw [settle, if_pos hphase]
    exact .inr ⟨by simp [hlease], hentered⟩

/-- The end of an expansion leaves a pane at rest, also if it was not expanding. -/
theorem Settled.endExpansion (h : p.Settled) : p.endExpansion.AtRest := by
  unfold Pane.endExpansion
  split
  next => exact atRest_of_entered rfl (.inl rfl)
  next hnot => exact h.resolve_right fun hout => hnot hout.2

theorem Settled.release (h : p.Settled) (number : Nat) : (p.release number).Settled := by
  unfold Pane.release
  split
  next hlease =>
    -- Whoever gives the lease back leaves the pane expanding.
    have hentered : p.entered = .expanding := h.entered_of_lease (by simp [hlease])
    exact .inl (atRest_of_entered rfl (.inr hentered))
  next => exact h

theorem settled_beginExpansion {number : Nat} (h : p.beginExpansion number = .ok q) :
    q.Settled := by
  unfold beginExpansion at h
  split at h
  next => nomatch h
  next => nomatch h
  next =>
    obtain rfl := Except.ok.inj h
    exact .inr ⟨by simp, rfl⟩

theorem standing_select (p : Pane) (ids : List NodeId) : (p.select ids).standing = p.standing := by
  simp only [select]
  split <;> rfl

theorem standing_of_nodeIds_eq {t : Store} (h : t.nodeIds = p.store.nodeIds) :
    { p with store := t }.standing = p.standing := by
  have hempty : ∀ u : Store, u.isEmpty = u.nodeIds.isEmpty := fun u => by
    rw [Store.isEmpty, Store.nodeIds, List.isEmpty_map]
  rw [standing, standing, hempty, hempty p.store, h]

theorem Settled.undo (h : p.Settled) (hq : p.undo? = some q) : q.Settled := by
  obtain ⟨_, -, rfl⟩ := Option.map_eq_some_iff.1 hq
  exact h.of_standing_eq rfl

theorem Settled.redo (h : p.Settled) (hq : p.redo? = some q) : q.Settled := by
  obtain ⟨_, -, rfl⟩ := Option.map_eq_some_iff.1 hq
  exact h.of_standing_eq rfl

end Pane

/-! ## Sessions -/

namespace Session

variable {s s' : Session} {k : CommandKind} {id pane : PaneId} {p q : Pane}

/-- Every live pane is settled. -/
abbrev Settled (s : Session) : Prop := s.table.Each Pane.Settled

theorem Settled.modify (h : s.Settled) {f : Pane → Pane}
    (hf : ∀ p, s.table.pane? id = some p → p.Settled → (f p).Settled) :
    (s.modify id f).Settled := by
  intro k q hq
  rcases modify_cases hq with ⟨rfl, p, hp, rfl⟩ | ⟨-, hq⟩
  · exact hf p hp (h k p hp)
  · exact h k q hq

theorem Settled.replace (h : s.Settled) (hq : q.Settled) (id : PaneId) :
    (s.modify id fun _ => q).Settled :=
  h.modify fun _ _ _ => hq

/-- A change that no phase depends on. -/
theorem Settled.retouch (h : s.Settled) (id : PaneId) {f : Pane → Pane}
    (hf : ∀ p, (f p).standing = p.standing) : (s.modify id f).Settled :=
  h.modify fun p _ hp => hp.of_standing_eq (hf p)

@[inherit_doc Settled.retouch]
theorem Settled.retouchAll (h : s.Settled) {f : Pane → Pane}
    (hf : ∀ p, (f p).standing = p.standing) : (s.modifyAll f).Settled := by
  intro k q hq
  have hpane : (s.modifyAll f).table.pane? k = (s.table.pane? k).map f := pane?_modifyAll ..
  rw [hpane] at hq
  obtain ⟨p, hp, rfl⟩ := Option.map_eq_some_iff.1 hq
  exact (h k p hp).of_standing_eq (hf p)

/-- The panes of a table that was reached were settled before, or nobody has touched them. -/
theorem Settled.reach (h : s.Settled) {opened : List PaneId} {u : PaneTable}
    (hreaches : s.table.Reaches opened u) : { s with table := u }.Settled := by
  intro id p hp
  rcases hreaches.2.newcomer_or_survivor hp with ⟨-, huntouched⟩ | ⟨-, q, hq, hwork⟩
  · exact Pane.settled_of_untouched huntouched
  · exact (h id q hq).of_standing_eq (congrArg Pane.standing hwork :)

/-! ### Deriving what panes show -/

theorem Settled.syncSelection (h : s.Settled) (l : LinkedSelection Float) :
    (s.syncSelection l).Settled := by
  refine h.retouch _ fun p => ?_
  split
  · exact p.standing_select l.ids
  · rfl

theorem Settled.publishBrush (h : s.Settled) (id : PaneId) : (s.publishBrush id).Settled := by
  unfold Session.publishBrush
  split
  · exact Settled.syncSelection (s := s.publish _) h _
  · exact h

theorem Settled.applyRecurrence (h : s.Settled) (r : Recurrence) :
    (s.applyRecurrence r).Settled :=
  h.retouchAll (f := fun p => { p with recurring := r.forPane p.id }) fun _ => rfl

theorem Settled.recomputeWatched (h : s.Settled) : s.recomputeWatched.Settled := by
  unfold Session.recomputeWatched
  split
  · exact h
  · exact h.applyRecurrence _

theorem settled_derived (s : Session) (added : List NodeId)
    (hout : p.lease ≠ none → p.entered = .expanding) : (s.derived added p).Settled := by
  have hnoted : (p.noteAdded added).Settled :=
    Pane.settled_settle (p := { p with everAdded := p.everAdded.insertMany added }) hout
  refine hnoted.of_standing_eq ?_
  simp only [Session.derived, Pane.project, Pane.standing]

/-- After a pane has grown, its resting phase is brought up to date. -/
theorem Settled.grow (h : s.Settled) {f : Pane → Pane}
    (hf : ∀ p, s.table.pane? id = some p → p.Settled →
      (f p).lease ≠ none → (f p).entered = .expanding) (added : List NodeId) :
    ((s.modify id f).afterGrowth id added).Settled := by
  unfold Session.afterGrowth
  rw [modify_modify]
  refine Settled.recomputeWatched (Settled.publishBrush (h.modify fun p hp hsettled => ?_) id)
  exact settled_derived _ added (hf p hp hsettled)

theorem Settled.settle (h : s.Settled) (id : PaneId) : (s.settle id).Settled :=
  Settled.recomputeWatched (Settled.publishBrush
    (h.modify fun _ _ hp => settled_derived s [] hp.entered_of_lease) id)

theorem Settled.settleEach (h : s.Settled) (ids : List PaneId) :
    (ids.foldl Session.settle s).Settled :=
  List.foldlRecOn (motive := Settled) ids _ h fun _ hs id _ => hs.settle id

theorem Settled.reproject (h : s.Settled) (id : PaneId) : (s.reproject id).Settled :=
  Settled.publishBrush (h.retouch id fun p => by simp only [Pane.project, Pane.standing]) id

theorem Settled.modifyBrush (h : s.Settled) (pane : PaneId) (f : Brush Float → Brush Float) :
    (s.modifyBrush pane f).Settled :=
  Settled.retouch h pane fun _ => rfl

theorem Settled.modifyView (h : s.Settled) (pane : PaneId) (f : ViewState → ViewState) :
    (s.modify pane fun p => { p with view := f p.view }).Settled :=
  h.retouch pane fun _ => rfl

/-! ### Panes that come and grow -/

theorem Settled.mergedExpansion (h : s.Settled) (hp : s.table.pane? id = some p)
    (frontier : List NodeId) (g : Fragment) (added : List NodeId) :
    ((s.modify id fun _ => { p with store := p.store.merge frontier g }.endExpansion).afterGrowth id
      added).Settled := by
  refine h.grow (fun _ _ _ hlease => absurd ?_ hlease) added
  unfold Pane.endExpansion
  split
  next => rfl
  next hnot => exact Decidable.not_not.1 fun hout => hnot ((h id p hp).entered_of_lease hout)

theorem Settled.applyPending (h : s.Settled) (p : Pane)
    (pending : Pending) : (s.applyPending p pending).1.Settled :=
  h.grow (f := fun q => { q with store := (p.store.apply pending).1 })
    (fun _ _ hsettled => hsettled.entered_of_lease) (p.store.apply pending).2.nodes

theorem Settled.spawnFor (h : s.Settled) (hs : s.Sound) (hp : s.table.pane? pane = some p)
    (nodes : List NodeId) : (s.spawnFor p nodes).1.Settled := by
  obtain ⟨rank, hwf⟩ := hs.wellFormed
  refine h.reach (hwf.openPane fun spawner hspawner => ?_)
  obtain rfl : p.id = spawner := Option.some.inj hspawner
  exact contains_of_pane? (hs.id_pane hp ▸ hp)

theorem Settled.openFirst (h : s.Settled) (hs : s.Sound) (seed : Fragment) :
    (s.openFirst seed).1.Settled := by
  obtain ⟨rank, hwf⟩ := hs.wellFormed
  have hopened : { s with table := _, started := true }.Settled :=
    h.reach (hwf.openPane (r := .seeded seed s.defaultView) nofun)
  exact hopened.settle _

theorem Settled.unpack (h : s.Settled) (hs : s.Sound) (d : PaneDocument) :
    (s.unpack d).Settled := by
  obtain ⟨rank, hwf⟩ := hs.wellFormed
  unfold Session.unpack
  dsimp only
  have hopened := h.reach (hwf.openPane (r := documentRequest d) nofun)
  generalize s.table.openPane (documentRequest d) = r at hopened ⊢
  exact Settled.settle (hopened.modifyBrush r.2 fun b => b.replaceState d.brush) r.2

/-! ### Marking and polling -/

theorem Settled.propagate (h : s.Settled) : s.propagate.Settled :=
  Settled.retouchAll (s := s.publish .propagate) h fun _ => rfl

theorem Settled.mark (h : s.Settled) (ids : List NodeId) : (s.mark ids).1.Settled := by
  have hmarked : { s with marks := (s.marks.mark ids).1 }.Settled := h
  simp only [Session.mark]
  split
  · exact hmarked
  · exact Settled.propagate hmarked

theorem Settled.unmark (h : s.Settled) (ids : List NodeId) : (s.unmark ids).1.Settled := by
  have hmarked : { s with marks := (s.marks.unmark ids).1 }.Settled := h
  simp only [Session.unmark]
  split
  · exact hmarked
  · exact Settled.propagate hmarked

theorem Settled.pollBrushes (h : s.Settled) (now : Nat) : (s.pollBrushes now).1.Settled := by
  have hpolled : (s.modifyAll fun p => { p with brush := (p.brush.poll now).1 }).Settled :=
    h.retouchAll fun _ => rfl
  exact List.foldlRecOn (motive := Settled) _ _ hpolled fun _ hs id _ => hs.publishBrush id

/-! ### Steps -/

/-- **No step leaves a pane between two phases.** -/
theorem Settled.step (h : s.Settled) (hs : s.Sound) (hstep : Step s k s') : s'.Settled := by
  obtain ⟨rank, hwf⟩ := hs.wellFormed
  cases hstep with
  | warn pane message => exact h
  | load schema => exact h
  | enter => exact h
  | teardown =>
    have hcleared := h.reach hwf.clear
    exact fun id p hp => hcleared id p hp
  | lend hp hq => exact h.replace (Pane.settled_beginExpansion hq) _
  | drop t => exact h.modify fun _ _ hp => hp.release _
  | abandon pane => exact h.modify fun _ _ hp => .inl hp.endExpansion
  | withhold hp => exact h.replace (.inl (h _ _ hp).endExpansion) _
  | grow hp frontier g => exact h.mergedExpansion hp frontier g _
  | @tie pane p hp frontier g hnone =>
    -- Only edges came, so the pane holds something just if it did before.
    have hids := p.store.nodeIds_merge frontier g
    rw [hnone, List.append_nil] at hids
    have hmerged : { p with store := p.store.merge frontier g }.Settled :=
      (h _ _ hp).of_standing_eq (Pane.standing_of_nodeIds_eq hids)
    exact h.replace (.inl hmerged.endExpansion) _
  | proceed hp pending => exact h.applyPending _ pending
  | redirect hsource pending hp =>
    exact (h.spawnFor hs hsource _).applyPending _ pending
  | renew hp fresh =>
    refine Settled.reproject (h.modify fun q hq hsettled => ?_) _
    obtain rfl := Option.some.inj (hp.symm.trans hq)
    exact hsettled.of_standing_eq (Pane.standing_of_nodeIds_eq (Store.nodeIds_refresh ..))
  | openFirst seed => exact h.openFirst hs seed
  | openFor hp nodes => exact (h.spawnFor hs hp nodes).settle _
  | unpack d => exact h.unpack hs d
  | destroy hdestroy => exact Settled.recomputeWatched (h.reach (hwf.destroy hdestroy))
  | merge hmerge => exact Settled.settle (h.reach (hwf.merge hmerge)) _
  | duplicate hduplicate => exact Settled.settle (h.reach (hwf.duplicate hduplicate)) _
  | duplicateMany hduplicate => exact Settled.settleEach (h.reach (hwf.duplicateMany hduplicate)) _
  | highlight hhighlight => exact h.reach (hwf.highlight hhighlight)
  | mark ids => exact h.mark ids
  | unmark ids => exact h.unmark ids
  | propagate => exact h.propagate
  | detect => exact Settled.applyRecurrence (s := s.addWatched _) h _
  | watch ids => exact Settled.recomputeWatched (s := s.addWatched ids) h
  | unwatch => exact Settled.retouchAll (s := { s with watched := {} }) h fun _ => rfl
  | select pane ids => exact h.retouch pane fun p => p.standing_select (ids p)
  | undo hp hq => exact h.replace ((h _ _ hp).undo hq) _
  | redo hp hq => exact h.replace ((h _ _ hp).redo hq) _
  | sync l => exact h.syncSelection l
  | brush hp hc hf => exact Settled.publishBrush (h.modifyBrush _ _) _
  | postpone hp hran => exact h.modifyBrush _ _
  | poll now => exact h.pollBrushes now
  | adjust pane => exact h.modifyView pane _
  | view pane => exact Settled.reproject (h.modifyView pane _) pane

end Session

/-! ## Requests -/

/-- An edit past the session does not leave a settled pane between two phases. -/
def Request.KeepsRest : Request → Prop
  | .edit _ e => ∀ p, p.Settled → (e.apply p).Settled
  | _ => True

namespace Session

variable {s : Session} {σ : Type} {backend : Backend (StateM σ)}

theorem Settled.table (h : s.Settled) (hs : s.Sound) (c : PaneCommand) :
    { s with table := s.table.perform c }.Settled := by
  obtain ⟨rank, hwf⟩ := hs.wellFormed
  unfold PaneTable.perform
  split
  next hexecute => exact h.reach (hwf.execute hexecute)
  next => exact h

theorem Settled.serve (h : s.Settled) (hs : s.Sound) {r : Request} (hr : r.KeepsRest) :
    Always Settled (s.serve backend r) := by
  cases r with
  | session c => exact hs.perform_keeps (fun hs hstep h => h.step hs hstep) h c
  | table c => exact always_pure (h.table hs c)
  | edit pane e => exact always_pure (h.modify fun p _ hp => hr p hp)

/-- **Whatever the requests, every live pane is at rest or is expanding with its lease out**, unless an
edit past the session meddles with the phases. -/
theorem Settled.serveAll (h : s.Settled) (hs : s.Sound) {requests : List Request}
    (hrequests : ∀ r ∈ requests, r.KeepsRest) : Always Settled (s.serveAll backend requests) :=
  hs.serveAll_keeps (fun r hr _ hs h => h.serve hs (hrequests r hr)) h

theorem settled_vacant (options : SessionOptions) (bus : Bus) :
    (vacant options bus).Settled := by
  intro id p hp
  nomatch hp

end Session

end StateAtlas
