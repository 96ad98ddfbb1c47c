import StateAtlas.Proofs.Session.Decorations
import StateAtlas.Proofs.Session.Steps
/-!
Sessions whose panes show what is marked and what recurs.

Each step leaves a session decorated.  Most have no bearing on what is shown; where a pane grows, comes
or goes, the step ends with the recomputation that makes every pane show the right nodes again.  The
mark set itself is changed by three commands only.

Main statements: `recurring_iff`, `marked_iff`.
-/

namespace StateAtlas

open PaneTable

namespace Session

variable {s s' : Session} {id pane : PaneId} {p q : Pane}

/-! ## Growing -/

theorem Decorated.mergedExpansion (h : s.Decorated) (hs : s.Sound) (hp : s.table.pane? id = some p)
    (frontier : List NodeId) (g : Fragment) :
    ((s.modify id fun _ => { p with store := p.store.merge frontier g }.endExpansion).afterGrowth id
      (Delta.between p.store (p.store.merge frontier g)).nodes).Decorated := by
  refine ((h.unsettled []).disturb fun p' hp' => ?_).afterGrowth (hs.mergedExpansion hp frontier g)
  obtain rfl : p = p' := Option.some.inj (hp.symm.trans hp')
  exact Pane.recurring_endExpansion _

/-- Where only edges are added, a pane holds what it held. -/
theorem Decorated.tiedExpansion (h : s.Decorated) (hp : s.table.pane? id = some p)
    {frontier : List NodeId} {g : Fragment}
    (hnone : (Delta.between p.store (p.store.merge frontier g)).nodes = []) :
    (s.modify id fun _ => { p with store := p.store.merge frontier g }.endExpansion).Decorated := by
  have hids := p.store.nodeIds_merge frontier g
  rw [hnone, List.append_nil] at hids
  refine h.of_sameDecor (SameDecor.replace hp ?_)
  rw [Pane.decor_endExpansion, Pane.decor, Pane.decor, ← hids]

theorem Unsettled.applyPending (h : Unsettled [id] s) (hs : s.Sound)
    (hp : s.table.pane? id = some p) (pending : Pending) :
    (s.applyPending p pending).1.Decorated := by
  obtain rfl : p.id = id := hs.id_pane hp
  have hgrown : Unsettled [p.id, p.id]
      (s.modify p.id fun q => { q with store := (p.store.apply pending).1 }) :=
    h.disturb fun _ _ => rfl
  exact (hgrown.mono (by simp)).afterGrowth (hs.mergedPending hp pending)

theorem Decorated.refreshed (h : s.Decorated) (hp : s.table.pane? id = some p) (fresh : List Node) :
    ((s.modify id fun q => { q with store := p.store.refresh fresh }).reproject id).Decorated := by
  have hrenewed : SameDecor s (s.modify id fun q => { q with store := p.store.refresh fresh }) := by
    refine ⟨fun k => ?_, rfl, rfl⟩
    by_cases hk : k = id
    · rw [hk, pane?_modify_self, hp]
      exact congrArg (fun ids => some (ids, p.marked, p.recurring)) (p.store.nodeIds_refresh fresh)
    · rw [pane?_modify_of_ne s hk]
  exact h.of_sameDecor (hrenewed.trans (SameDecor.reproject _ id))

/-! ## Panes that come and go -/

theorem Unsettled.spawnFor (h : Unsettled [] s) (hs : s.Sound) (hp : s.table.pane? pane = some p)
    (nodes : List NodeId) : Unsettled [(s.spawnFor p nodes).2] (s.spawnFor p nodes).1 := by
  obtain ⟨rank, hwf⟩ := hs.wellFormed
  refine h.reach (hwf.openPane fun spawner hspawner => ?_)
  obtain rfl : p.id = spawner := Option.some.inj hspawner
  exact contains_of_pane? (hs.id_pane hp ▸ hp)

theorem Decorated.openFirst (h : s.Decorated) (hs : s.Sound) (seed : Fragment) :
    (s.openFirst seed).1.Decorated := by
  obtain ⟨rank, hwf⟩ := hs.wellFormed
  have hopened : { s with table := _, started := true }.Sound :=
    hs.openPane (r := .seeded seed s.defaultView) nofun
  have hreached := (h.unsettled []).reach (hwf.openPane (r := .seeded seed s.defaultView) nofun)
  exact Unsettled.settle ⟨hreached.marked, hreached.unwatched⟩ hopened

theorem Decorated.unpack (h : s.Decorated) (hs : s.Sound) (d : PaneDocument) :
    (s.unpack d).Decorated := by
  obtain ⟨rank, hwf⟩ := hs.wellFormed
  have hsound : { s with table := (s.table.openPane (documentRequest d)).1 }.Sound :=
    hs.openPane nofun
  have hreached := (h.unsettled []).reach (hwf.openPane (r := documentRequest d) nofun)
  unfold Session.unpack
  dsimp only
  generalize s.table.openPane (documentRequest d) = r at hsound hreached ⊢
  have hrestored := SameDecor.modify { s with table := r.1 } r.2
    (f := fun p => { p with brush := p.brush.replaceState d.brush }) fun _ => rfl
  exact (hreached.of_sameDecor hrestored).settle (hsound.modify fun p _ => p.account_withBrush _)

/-- Where no pane is live, nothing is shown. -/
theorem decorated_of_no_pane (h : ∀ id, s.table.pane? id = none) : s.Decorated := by
  refine ⟨fun {id p} hp => ?_, fun {id p} hp => ?_⟩
  all_goals
    rw [h id] at hp
    nomatch hp

/-- While panes are settled one after the other, those that wait lack their marks. -/
theorem Unsettled.settleFirst {stale : List PaneId} (h : Unsettled (id :: stale) s) :
    Unsettled stale (s.settle id) := by
  have hmended : Unsettled stale (s.modify id (s.derived [])) :=
    h.mend (s.recurring_derived []) (s.showsMarks_derived [])
  exact Unsettled.recomputed (hmended.of_sameDecor (SameDecor.publishBrush _ id))

theorem Unsettled.settleEach {new : List PaneId} (h : Unsettled (id :: new) s) (hs : s.Sound) :
    ((id :: new).foldl Session.settle s).Decorated := by
  induction new generalizing s id with
  | nil => exact h.settle hs
  | cons id' new ih => exact ih h.settleFirst (hs.settle id)

theorem Decorated.duplicateMany (h : s.Decorated) (hs : s.Sound) {sources new : List PaneId}
    {u : PaneTable} (hduplicate : s.table.duplicateMany sources = .ok (u, new)) :
    (new.foldl Session.settle { s with table := u }).Decorated := by
  obtain ⟨rank, hwf⟩ := hs.wellFormed
  cases new with
  | nil =>
    obtain rfl := duplicateMany_nil hduplicate
    exact h
  | cons id new =>
    have hreached := (h.unsettled []).reach (hwf.duplicateMany hduplicate)
    rw [List.append_nil] at hreached
    exact hreached.settleEach (PaneTable.Sound.duplicateMany hs hduplicate)

/-! ## Marking and watching -/

/-- Panes show the marks once these are propagated, whatever they showed before. -/
theorem Decorated.propagate (h : s.Decorated) (hlive : ∀ id, s'.table.pane? id = s.table.pane? id)
    (hwatched : s'.watched = s.watched) : s'.propagate.Decorated := by
  have hpane : ∀ id, s'.propagate.table.pane? id =
      (s.table.pane? id).map fun p => { p with marked := s'.marks.decorate p.store } :=
    fun id => (pane?_modifyAll ..).trans (congrArg _ (hlive id))
  have hheld : ∀ id n, s'.propagate.HeldElsewhere id n ↔ s.HeldElsewhere id n :=
    heldElsewhere_congr fun id => by rw [hpane, Option.map_map]; rfl
  refine ⟨fun {id q} hq => ?_, fun {id q} hq n => ?_⟩
  all_goals
    rw [hpane] at hq
    obtain ⟨p, hp, rfl⟩ := Option.map_eq_some_iff.1 hq
  · exact p.showsMarks_decorate s'.marks
  · have hsame : s'.propagate.watched = s.watched := hwatched
    rw [hheld, hsame]
    exact h.recurring hp n

/-- The mark set may be exchanged for one with the same marks. -/
theorem Decorated.withMarks (h : s.Decorated) {m : MarkSet}
    (hm : ∀ n, m.contains n = true ↔ s.marks.contains n = true) :
    { s with marks := m }.Decorated where
  marked hp n := (h.marked hp n).trans (and_congr_left fun _ => (hm n).symm)
  recurring := h.recurring

theorem Decorated.mark (h : s.Decorated) (ids : List NodeId) : (s.mark ids).1.Decorated := by
  simp only [Session.mark]
  split
  next hnone => exact h.withMarks fun _ => MarkSet.contains_mark_of_isEmpty hnone
  next => exact h.propagate (fun _ => rfl) rfl

theorem Decorated.unmark (h : s.Decorated) (ids : List NodeId) : (s.unmark ids).1.Decorated := by
  simp only [Session.unmark]
  split
  next hnone => exact h.withMarks fun _ => MarkSet.contains_unmark_of_isEmpty hnone
  next => exact h.propagate (fun _ => rfl) rfl

theorem Unsettled.addWatched {stale : List PaneId} (h : Unsettled stale s) (ids : List NodeId) :
    Unsettled stale (s.addWatched ids) where
  marked := h.marked
  unwatched hnone := by
    refine h.unwatched (OrderedSet.isEmpty_iff.2 fun n hn => ?_)
    exact OrderedSet.isEmpty_iff.1 hnone n ((OrderedSet.contains_insertMany ..).2 (.inr hn))

/-- **Everything that recurs is found, and is watched from then on.** -/
theorem Decorated.detectRecurrence (h : s.Decorated) (hs : s.Sound) :
    s.detectRecurrence.1.Decorated := by
  let r := Recurrence.detect s.holdings
  have hfound : ((s.addWatched r.ids).applyRecurrence r).Decorated := by
    refine ((h.unsettled []).addWatched r.ids).applyRecurrence (hs.withWatched _) fun id n => ?_
    have hr : (r.forPane id).contains n = true ↔ Recurrence.Holds s.holdings id n ∧
        ∃ other, other ≠ id ∧ Recurrence.Holds s.holdings other n :=
      Recurrence.contains_forPane_detect hs.nodup_holdings
    refine hr.trans (iff_and_self.2 fun hboth => ?_)
    exact (OrderedSet.contains_insertMany ..).2
      (.inl (Recurrence.mem_ids_of_contains_forPane (hr.2 hboth)))
  exact hfound.of_sameDecor (SameDecor.publish _ _)

theorem Decorated.clearRecurrence (h : s.Decorated) : s.clearRecurrence.Decorated := by
  have hpane : ∀ id, s.clearRecurrence.table.pane? id =
      (s.table.pane? id).map fun p => { p with recurring := {} } := fun id => pane?_modifyAll ..
  refine ⟨fun {id q} hq => ?_, fun {id q} hq n => ?_⟩
  all_goals
    rw [hpane] at hq
    obtain ⟨p, hp, rfl⟩ := Option.map_eq_some_iff.1 hq
  · have hmarked : p.ShowsMarks s.marks := h.marked hp
    exact hmarked
  · have hwatched : s.clearRecurrence.watched.contains n = false := rfl
    simp [hwatched]

/-! ## Steps and runs -/

/-- **Every step leaves a session decorated.** -/
theorem Decorated.step (h : s.Decorated) (hs : s.Sound) {k : CommandKind} (hstep : s.Step k s') :
    s'.Decorated := by
  obtain ⟨rank, hwf⟩ := hs.wellFormed
  cases hstep with
  | warn pane message => exact h.of_sameDecor (SameDecor.publish s _)
  | load schema => exact ⟨h.marked, h.recurring⟩
  | enter => exact ⟨h.marked, h.recurring⟩
  | teardown =>
    obtain ⟨rank', hcleared⟩ := hs.teardown.wellFormed
    exact decorated_of_no_pane (hcleared.rooted.empty_of_primary_none rfl)
  | lend hp hq =>
    have hlent := SameDecor.replace (hs.id_pane hp ▸ hp) (Pane.decor_beginExpansion hq)
    exact h.of_sameDecor ⟨hlent.pane, rfl, rfl⟩
  | drop t => exact h.of_sameDecor (SameDecor.modify s _ fun p => p.decor_release _)
  | abandon pane => exact h.of_sameDecor (SameDecor.modify s _ Pane.decor_endExpansion)
  | withhold hp => exact h.of_sameDecor (SameDecor.replace hp (Pane.decor_endExpansion _))
  | grow hp frontier g => exact h.mergedExpansion hs hp frontier g
  | tie hp frontier g hnone => exact h.tiedExpansion hp hnone
  | proceed hp pending => exact (h.unsettled _).applyPending hs hp pending
  | redirect hsource pending hp =>
    exact ((h.unsettled []).spawnFor hs hsource _).applyPending (hs.spawnFor hsource _) hp pending
  | renew hp fresh => exact h.refreshed hp fresh
  | openFirst seed => exact h.openFirst hs seed
  | openFor hp nodes =>
    exact ((h.unsettled []).spawnFor hs hp nodes).settle (hs.spawnFor hp nodes)
  | unpack d => exact h.unpack hs d
  | destroy hdestroy =>
    exact Unsettled.recomputeWatched ((h.unsettled []).reach (hwf.destroy hdestroy))
      (hs.reach fun hwf => hwf.destroy hdestroy)
  | merge hmerge =>
    exact Unsettled.settle ((h.unsettled []).reach (hwf.merge hmerge))
      (PaneTable.Sound.merge hs hmerge)
  | duplicate hduplicate =>
    exact Unsettled.settle ((h.unsettled []).reach (hwf.duplicate hduplicate))
      (PaneTable.Sound.duplicate hs hduplicate)
  | duplicateMany hduplicate => exact h.duplicateMany hs hduplicate
  | highlight hhighlight =>
    exact h.of_sameDecor (SameDecor.of_sameWork (SameWork.highlight hhighlight))
  | mark ids => exact h.mark ids
  | unmark ids => exact h.unmark ids
  | propagate => exact h.propagate (fun _ => rfl) rfl
  | detect => exact h.detectRecurrence hs
  | watch ids =>
    exact ((h.unsettled []).addWatched ids).recomputeWatched (hs.withWatched _)
  | unwatch => exact h.clearRecurrence
  | select pane ids => exact h.of_sameDecor (SameDecor.modify s _ fun p => p.decor_select _)
  | undo hp hq => exact h.of_sameDecor (SameDecor.replace hp (Pane.decor_undo? hq))
  | redo hp hq => exact h.of_sameDecor (SameDecor.replace hp (Pane.decor_redo? hq))
  | sync l => exact h.of_sameDecor (SameDecor.syncSelection s l)
  | brush hp hc hf =>
    exact h.of_sameDecor ((SameDecor.modifyBrush s _ _).trans (SameDecor.publishBrush _ _))
  | postpone hp hran => exact h.of_sameDecor (SameDecor.modifyBrush s _ _)
  | poll now => exact h.of_sameDecor (SameDecor.pollBrushes s now)
  | adjust pane hmode hdetails => exact h.of_sameDecor (SameDecor.modifyView s pane _)
  | view pane hsync =>
    exact h.of_sameDecor ((SameDecor.modifyView s pane _).trans (SameDecor.reproject _ pane))

/-- **Whatever the calls, panes show what is marked and what recurs.** -/
theorem decorated_answerAll {σ : Type} (backend : Backend (StateM σ)) (options : SessionOptions)
    (bus : Bus) (calls : List Call) :
    Always (fun s => s.Sound ∧ s.Decorated) ((vacant options bus).answerAll backend calls) := by
  refine always_answerAll (fun hstep h => ⟨h.1.step hstep, h.2.step h.1 hstep⟩)
    (fun pane c h => ⟨h.1.modifyBrush pane _, h.2.of_sameDecor (SameDecor.modifyBrush _ pane _)⟩)
    ⟨sound_vacant options bus, decorated_of_no_pane fun _ => rfl⟩ calls

/-! ## The mark set -/

@[simp] theorem marks_publishBrush (s : Session) (id : PaneId) :
    (s.publishBrush id).marks = s.marks :=
  (SameDecor.publishBrush s id).marks

@[simp] theorem marks_recomputeWatched (s : Session) : s.recomputeWatched.marks = s.marks := by
  unfold Session.recomputeWatched
  split <;> rfl

@[simp] theorem marks_afterGrowth (s : Session) (id : PaneId) (added : List NodeId) :
    (s.afterGrowth id added).marks = s.marks := by
  simp only [Session.afterGrowth, marks_recomputeWatched, marks_publishBrush]
  rfl

theorem marks_settleEach (s : Session) (ids : List PaneId) :
    (ids.foldl Session.settle s).marks = s.marks :=
  List.foldlRecOn (motive := fun s' : Session => s'.marks = s.marks) ids _ rfl
    fun s' hs id _ => (s'.marks_afterGrowth id []).trans hs

/-- Only steps that mark and the teardown change the mark set. -/
theorem Step.marks_eq {k : CommandKind} (hstep : s.Step k s') (hmarking : k ≠ .marking)
    (hending : k ≠ .ending) : s'.marks = s.marks := by
  cases hstep with
  | teardown hk => exact absurd hk hending
  | mark ids hk => exact absurd hk hmarking
  | unmark ids hk => exact absurd hk hmarking
  | grow => exact marks_afterGrowth ..
  | proceed => exact marks_afterGrowth ..
  | redirect => exact marks_afterGrowth ..
  | renew => exact marks_publishBrush ..
  | openFirst => exact marks_afterGrowth ..
  | openFor => exact marks_afterGrowth ..
  | unpack => exact marks_afterGrowth ..
  | destroy => exact marks_recomputeWatched _
  | merge => exact marks_afterGrowth ..
  | duplicate => exact marks_afterGrowth ..
  | duplicateMany => exact marks_settleEach ..
  | watch ids => exact marks_recomputeWatched _
  | brush => exact marks_publishBrush ..
  | poll now => exact (SameDecor.pollBrushes s now).marks
  | view => exact marks_publishBrush ..
  | _ => rfl

end Session

/-- The mark set after a call, given the one before. -/
def Call.marksAfter (m : MarkSet) : Call → MarkSet
  | .session (.mark ids) => (m.mark ids).1
  | .session (.unmark ids) => (m.unmark ids).1
  | .session .teardown => {}
  | _ => m

namespace Session

variable {σ : Type}

theorem marks_mark (s : Session) (ids : List NodeId) :
    (s.mark ids).1.marks = (s.marks.mark ids).1 := by
  simp only [Session.mark]
  split <;> rfl

theorem marks_unmark (s : Session) (ids : List NodeId) :
    (s.unmark ids).1.marks = (s.marks.unmark ids).1 := by
  simp only [Session.unmark]
  split <;> rfl

/-- **The mark set depends on nothing but what is marked, unmarked and torn down.** -/
theorem marks_answer (backend : Backend (StateM σ)) (s : Session) (call : Call) (env : σ) :
    (s.answer backend call env).1.marks = call.marksAfter s.marks := by
  cases call with
  | brush pane c => rfl
  | session c =>
    have hkept : c.kind ≠ .marking → c.kind ≠ .ending → (s.perform backend c env).1.marks = s.marks :=
      fun hmarking hending => always_performOfKind (I := fun s' => s'.marks = s.marks)
        (fun hstep h => (hstep.marks_eq hmarking hending).trans h) rfl env
    cases c with
    | mark ids => exact s.marks_mark ids
    | unmark ids => exact s.marks_unmark ids
    | teardown => rfl
    | resolve pane pending decision =>
      cases decision <;> exact hkept nofun nofun
    | _ => exact hkept nofun nofun

end Session

/-- **Panes show what recurs.**  Whatever is asked of a session and of its brushes, and whatever the
backend answers: every live pane counts for recurrence just the nodes that it holds, and shows as
recurring just the watched nodes that it and another live pane hold. -/
theorem recurring_iff {σ : Type} (backend : Backend (StateM σ)) (env : σ)
    (options : SessionOptions) (bus : Bus) (calls : List Call) :
    let s := ((Session.vacant options bus).answerAll backend calls env).1
    ∀ id p, s.table.pane? id = some p → ∀ n,
      (p.everAdded.contains n = true ↔ n ∈ p.store.nodeIds) ∧
      (p.recurring.contains n = true ↔ s.watched.contains n = true ∧ n ∈ p.store.nodeIds ∧
        ∃ other q, other ≠ id ∧ s.table.pane? other = some q ∧ n ∈ q.store.nodeIds) := by
  intro s id p hp n
  obtain ⟨hsound, hdecorated⟩ := Session.decorated_answerAll backend options bus calls env
  exact ⟨hsound.accounted id p hp n, hdecorated.recurring hp n⟩

/-- **Panes show what is marked.**  Whatever is asked of a session and of its brushes, and whatever
the backend answers: every live pane shows as marked just the nodes that it holds and that are in the
mark set; and of all further calls only marking, unmarking and the teardown change the mark set. -/
theorem marked_iff {σ : Type} (backend : Backend (StateM σ)) (env : σ)
    (options : SessionOptions) (bus : Bus) (calls : List Call) :
    let s := ((Session.vacant options bus).answerAll backend calls env).1
    (∀ id p, s.table.pane? id = some p → ∀ n,
      (p.marked.contains n = true ↔ s.marks.contains n = true ∧ n ∈ p.store.nodeIds)) ∧
    ∀ call env', (s.answer backend call env').1.marks = call.marksAfter s.marks := by
  intro s
  obtain ⟨-, hdecorated⟩ := Session.decorated_answerAll backend options bus calls env
  exact ⟨fun id p hp => hdecorated.marked hp, s.marks_answer backend⟩

end StateAtlas
