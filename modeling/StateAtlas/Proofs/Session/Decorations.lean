import StateAtlas.Proofs.Session.Soundness
import StateAtlas.Proofs.Sync.Recurrence
/-!
What panes show as marked and as recurring.

Both decorations are kept in the panes, but they are derived: the marked nodes of a pane from the mark
set, the recurring ones from what all panes hold.  When a pane grows, or one comes or goes, they have
to be derived anew.  `Unsettled` says what is still right by then: the marks of all panes but those
that changed, and, as long as no node is watched, that nothing is shown as recurring.  That is enough
for the recomputation to make everything right again, also where it is left out because no node is
watched.

Main statements: `recurring_iff`, `marked_iff`.
-/

namespace StateAtlas

open PaneTable

/-! ## Decorated panes -/

namespace Pane

variable {p q : Pane} {m : MarkSet}

/-- What a pane holds, and what it shows as marked and as recurring. -/
def decor (p : Pane) : List NodeId × OrderedSet NodeId × OrderedSet NodeId :=
  (p.store.nodeIds, p.marked, p.recurring)

/-- The pane shows as marked what it holds of the mark set. -/
def ShowsMarks (m : MarkSet) (p : Pane) : Prop :=
  ∀ n, p.marked.contains n = true ↔ m.contains n = true ∧ n ∈ p.store.nodeIds

theorem nodeIds_of_decor_eq (h : q.decor = p.decor) : q.store.nodeIds = p.store.nodeIds :=
  congrArg Prod.fst h

theorem recurring_of_decor_eq (h : q.decor = p.decor) : q.recurring = p.recurring :=
  congrArg (fun d => d.2.2) h

theorem ShowsMarks.of_decor_eq (h : p.ShowsMarks m) (hdecor : q.decor = p.decor) :
    q.ShowsMarks m := by
  have hmarked : q.marked = p.marked := congrArg (fun d => d.2.1) hdecor
  intro n
  rw [hmarked, nodeIds_of_decor_eq hdecor]
  exact h n

theorem showsMarks_decorate (p : Pane) (m : MarkSet) :
    { p with marked := m.decorate p.store }.ShowsMarks m := fun _ => m.contains_decorate p.store

theorem decor_noteAdded (p : Pane) (ids : List NodeId) : (p.noteAdded ids).decor = p.decor :=
  (congrArg decor (still_settle { p with everAdded := p.everAdded.insertMany ids }) :)

theorem decor_select (p : Pane) (ids : List NodeId) : (p.select ids).decor = p.decor := by
  simp only [select]
  split <;> rfl

theorem decor_release (p : Pane) (number : Nat) : (p.release number).decor = p.decor :=
  (congrArg decor (p.still_release number) :)

theorem decor_endExpansion (p : Pane) : p.endExpansion.decor = p.decor :=
  (congrArg decor p.still_endExpansion :)

theorem decor_beginExpansion {number : Nat} (h : p.beginExpansion number = .ok q) :
    q.decor = p.decor :=
  (congrArg decor (still_beginExpansion h) :)

theorem decor_undo? (h : p.undo? = some q) : q.decor = p.decor := by
  obtain ⟨_, -, rfl⟩ := Option.map_eq_some_iff.1 h
  rfl

theorem decor_redo? (h : p.redo? = some q) : q.decor = p.decor := by
  obtain ⟨_, -, rfl⟩ := Option.map_eq_some_iff.1 h
  rfl

theorem decor_of_work_eq (h : work q = work p) : q.decor = p.decor :=
  (congrArg decor h :)

theorem recurring_endExpansion (p : Pane) : p.endExpansion.recurring = p.recurring :=
  recurring_of_decor_eq p.decor_endExpansion

end Pane

namespace Session

variable {s s' s'' : Session} {stale opened : List PaneId} {id pane : PaneId} {p q : Pane}

/-! ## Changes of what is not shown -/

/-- The same panes are live, and hold and show the same. -/
structure SameDecor (s s' : Session) : Prop where
  pane : ∀ id, (s'.table.pane? id).map Pane.decor = (s.table.pane? id).map Pane.decor
  marks : s'.marks = s.marks
  watched : s'.watched = s.watched

namespace SameDecor

theorem rfl (s : Session) : SameDecor s s := ⟨fun _ => Eq.refl _, Eq.refl _, Eq.refl _⟩

theorem trans (h : SameDecor s s') (h' : SameDecor s' s'') : SameDecor s s'' :=
  ⟨fun id => (h'.pane id).trans (h.pane id), h'.marks.trans h.marks, h'.watched.trans h.watched⟩

theorem pane_left (h : SameDecor s s') (hq : s'.table.pane? id = some q) :
    ∃ p, s.table.pane? id = some p ∧ q.decor = p.decor := by
  have hdecor := h.pane id
  rw [hq, Option.map_some] at hdecor
  obtain ⟨p, hp, heq⟩ := Option.map_eq_some_iff.1 hdecor.symm
  exact ⟨p, hp, heq.symm⟩

theorem publish (s : Session) (e : Event) : SameDecor s (s.publish e) :=
  ⟨fun _ => Eq.refl _, Eq.refl _, Eq.refl _⟩

theorem modify (s : Session) (id : PaneId) {f : Pane → Pane} (hf : ∀ p, (f p).decor = p.decor) :
    SameDecor s (s.modify id f) :=
  ⟨Dictionary.map_get?_modify hf s.table.live id, Eq.refl _, Eq.refl _⟩

theorem replace (hp : s.table.pane? id = some p) (hq : q.decor = p.decor) :
    SameDecor s (s.modify id fun _ => q) := by
  refine ⟨fun k => ?_, Eq.refl _, Eq.refl _⟩
  by_cases hk : k = id
  · rw [hk, pane?_modify_self, hp, Option.map_some, Option.map_some, hq, Option.map_some]
  · rw [pane?_modify_of_ne s hk]

theorem modifyAll (s : Session) {f : Pane → Pane} (hf : ∀ p, (f p).decor = p.decor) :
    SameDecor s (s.modifyAll f) := by
  refine ⟨fun id => ?_, Eq.refl _, Eq.refl _⟩
  have hpane : (s.modifyAll f).table.pane? id = (s.table.pane? id).map f := pane?_modifyAll ..
  rw [hpane, Option.map_map]
  exact congrArg (fun g => (s.table.pane? id).map g) (funext hf)

theorem syncSelection (s : Session) (l : LinkedSelection Float) :
    SameDecor s (s.syncSelection l) := by
  refine SameDecor.modify s l.pane fun p => ?_
  split
  · exact p.decor_select l.ids
  · exact Eq.refl _

theorem publishBrush (s : Session) (id : PaneId) : SameDecor s (s.publishBrush id) := by
  unfold Session.publishBrush
  split
  · exact (SameDecor.publish s _).trans (SameDecor.syncSelection _ _)
  · exact SameDecor.rfl s

theorem modifyBrush (s : Session) (pane : PaneId) (f : Brush Float → Brush Float) :
    SameDecor s (s.modifyBrush pane f) :=
  SameDecor.modify s pane (f := fun p => { p with brush := f p.brush }) fun _ => Eq.refl _

theorem modifyView (s : Session) (pane : PaneId) (f : ViewState → ViewState) :
    SameDecor s (s.modify pane fun p => { p with view := f p.view }) :=
  SameDecor.modify s pane (f := fun p => { p with view := f p.view }) fun _ => Eq.refl _

theorem reproject (s : Session) (id : PaneId) : SameDecor s (s.reproject id) :=
  (SameDecor.modify s id (f := fun p => p.project s.schema) fun _ => Eq.refl _).trans
    (SameDecor.publishBrush _ id)

theorem pollBrushes (s : Session) (now : Nat) : SameDecor s (s.pollBrushes now).1 := by
  have hpolled : SameDecor s (s.modifyAll fun p => { p with brush := (p.brush.poll now).1 }) :=
    SameDecor.modifyAll s fun _ => Eq.refl _
  exact List.foldlRecOn (motive := SameDecor s) _ _ hpolled fun s' hs id _ =>
    hs.trans (SameDecor.publishBrush s' id)

theorem of_sameWork {u : PaneTable} (h : s.table.SameWork u) :
    SameDecor s { s with table := u } := by
  refine ⟨fun id => ?_, Eq.refl _, Eq.refl _⟩
  have hdecor := congrArg (Option.map Pane.decor) (h.pane id)
  rwa [Option.map_map, Option.map_map] at hdecor

end SameDecor

/-! ## Decorated sessions -/

/-- A live pane of another name holds the node. -/
def HeldElsewhere (s : Session) (id : PaneId) (n : NodeId) : Prop :=
  ∃ other q, other ≠ id ∧ s.table.pane? other = some q ∧ n ∈ q.store.nodeIds

/-- Every live pane shows the nodes that it holds and that are marked, and those that are watched
and held by another pane as well. -/
structure Decorated (s : Session) : Prop where
  marked : ∀ {id p}, s.table.pane? id = some p → p.ShowsMarks s.marks
  recurring : ∀ {id p}, s.table.pane? id = some p → ∀ n, p.recurring.contains n = true ↔
    s.watched.contains n = true ∧ n ∈ p.store.nodeIds ∧ s.HeldElsewhere id n

/-- Every live pane that is not listed shows its marks, and nothing is shown as recurring if nothing
is watched. -/
structure Unsettled (stale : List PaneId) (s : Session) : Prop where
  marked : ∀ {id p}, s.table.pane? id = some p → id ∉ stale → p.ShowsMarks s.marks
  unwatched : s.watched.isEmpty = true →
    ∀ {id p}, s.table.pane? id = some p → p.recurring.isEmpty = true

theorem Decorated.unsettled (h : s.Decorated) (stale : List PaneId) : Unsettled stale s where
  marked hp _ := h.marked hp
  unwatched hnone {id p} hp := by
    refine OrderedSet.isEmpty_iff.2 fun n hn => ?_
    exact OrderedSet.isEmpty_iff.1 hnone n ((h.recurring hp n).1 hn).1

/-- What the panes hold alone decides what is held elsewhere. -/
theorem heldElsewhere_congr
    (h : ∀ id, (s'.table.pane? id).map (·.store.nodeIds) = (s.table.pane? id).map (·.store.nodeIds))
    (id : PaneId) (n : NodeId) : s'.HeldElsewhere id n ↔ s.HeldElsewhere id n := by
  have hiff : ∀ s : Session, s.HeldElsewhere id n ↔ ∃ other ids, other ≠ id ∧
      (s.table.pane? other).map (·.store.nodeIds) = some ids ∧ n ∈ ids := by
    intro s
    constructor
    · rintro ⟨other, q, hne, hq, hn⟩
      exact ⟨other, q.store.nodeIds, hne, by rw [hq, Option.map_some], hn⟩
    · rintro ⟨other, ids, hne, hmap, hn⟩
      obtain ⟨q, hq, rfl⟩ := Option.map_eq_some_iff.1 hmap
      exact ⟨other, q, hne, hq, hn⟩
  rw [hiff, hiff]
  simp only [h]

theorem SameDecor.heldElsewhere_iff (h : SameDecor s s') (id : PaneId) (n : NodeId) :
    s'.HeldElsewhere id n ↔ s.HeldElsewhere id n := by
  refine heldElsewhere_congr (fun k => ?_) id n
  have hnodes := congrArg (Option.map Prod.fst) (h.pane k)
  rwa [Option.map_map, Option.map_map] at hnodes

theorem Decorated.of_sameDecor (h : s.Decorated) (hsame : SameDecor s s') : s'.Decorated where
  marked hq := by
    obtain ⟨p, hp, hdecor⟩ := hsame.pane_left hq
    exact hsame.marks ▸ (h.marked hp).of_decor_eq hdecor
  recurring {id q} hq n := by
    obtain ⟨p, hp, hdecor⟩ := hsame.pane_left hq
    rw [Pane.recurring_of_decor_eq hdecor, Pane.nodeIds_of_decor_eq hdecor, hsame.watched,
      hsame.heldElsewhere_iff]
    exact h.recurring hp n

theorem Unsettled.of_sameDecor (h : Unsettled stale s) (hsame : SameDecor s s') :
    Unsettled stale s' where
  marked hq hid := by
    obtain ⟨p, hp, hdecor⟩ := hsame.pane_left hq
    exact hsame.marks ▸ (h.marked hp hid).of_decor_eq hdecor
  unwatched hnone {id q} hq := by
    obtain ⟨p, hp, hdecor⟩ := hsame.pane_left hq
    rw [Pane.recurring_of_decor_eq hdecor]
    exact h.unwatched (hsame.watched ▸ hnone) hp

/-- A pane may change as long as nothing else is shown as recurring. -/
theorem Unsettled.unwatched_modify (h : Unsettled stale s) {f : Pane → Pane}
    (hf : ∀ p, s.table.pane? id = some p → (f p).recurring = p.recurring)
    (hnone : s.watched.isEmpty = true) {k : PaneId}
    (hq : (s.modify id f).table.pane? k = some q) : q.recurring.isEmpty = true := by
  rcases modify_cases hq with ⟨rfl, p, hp, rfl⟩ | ⟨-, hq⟩
  · rw [hf p hp]
    exact h.unwatched hnone hp
  · exact h.unwatched hnone hq

/-- The marks of a pane that changed can be stale. -/
theorem Unsettled.disturb (h : Unsettled stale s) {f : Pane → Pane}
    (hf : ∀ p, s.table.pane? id = some p → (f p).recurring = p.recurring) :
    Unsettled (id :: stale) (s.modify id f) where
  marked {k q} hq hk := by
    obtain ⟨hne, hmem⟩ := not_or.1 (List.mem_cons.not.1 hk)
    rw [pane?_modify_of_ne s hne] at hq
    exact h.marked hq hmem
  unwatched hnone {_ _} hq := h.unwatched_modify hf hnone hq

/-- A change after which a pane shows its marks. -/
theorem Unsettled.mend (h : Unsettled (id :: stale) s) {f : Pane → Pane}
    (hrecurring : ∀ p, (f p).recurring = p.recurring) (hmarks : ∀ p, (f p).ShowsMarks s.marks) :
    Unsettled stale (s.modify id f) where
  marked {k q} hq hk := by
    rcases modify_cases hq with ⟨-, p, -, rfl⟩ | ⟨hne, hq⟩
    · exact hmarks p
    · exact h.marked hq (List.not_mem_cons_of_ne_of_not_mem hne hk)
  unwatched hnone {_ _} hq := h.unwatched_modify (fun p _ => hrecurring p) hnone hq

theorem Unsettled.mono {stale' : List PaneId} (h : Unsettled stale s) (hsub : stale ⊆ stale') :
    Unsettled stale' s :=
  ⟨fun hp hid => h.marked hp fun hmem => hid (hsub hmem), h.unwatched⟩

/-- Of the panes of a table that was reached, only those that were opened can lack their marks. -/
theorem Unsettled.reach (h : Unsettled stale s) {u : PaneTable} (hreaches : s.table.Reaches opened u) :
    Unsettled (opened ++ stale) { s with table := u } where
  marked {id p} hp hid := by
    obtain ⟨hopened, hstale⟩ := not_or.1 (List.mem_append.not.1 hid)
    rcases hreaches.2.newcomer_or_survivor hp with ⟨hmem, -⟩ | ⟨-, q, hq, hwork⟩
    · exact absurd hmem hopened
    · exact (h.marked hq hstale).of_decor_eq (Pane.decor_of_work_eq hwork)
  unwatched hnone {id p} hp := by
    rcases hreaches.2.newcomer_or_survivor hp with ⟨-, huntouched⟩ | ⟨-, q, hq, hwork⟩
    · rw [huntouched.recurring]
      rfl
    · rw [Pane.recurring_of_decor_eq (Pane.decor_of_work_eq hwork)]
      exact h.unwatched hnone hq

/-! ## The scan for recurrence -/

theorem Sound.map_fst_holdings (h : s.Sound) : s.holdings.map Prod.fst = s.table.ids := by
  obtain ⟨rank, hwf⟩ := h.wellFormed
  have hnames : s.table.panes.map Pane.id = s.table.ids :=
    Dictionary.map_filterMap_get? hwf.rooted.linked.id_pane
      fun id hid => (hwf.rooted.linked.mem_ids id).1 hid
  rw [holdings, List.map_map]
  exact hnames

theorem Sound.nodup_holdings (h : s.Sound) : (s.holdings.map Prod.fst).Nodup := by
  obtain ⟨rank, hwf⟩ := h.wellFormed
  rw [h.map_fst_holdings]
  exact hwf.rooted.linked.nodup_ids

/-- What is scanned is what the panes hold. -/
theorem Sound.holds_iff (h : s.Sound) {n : NodeId} :
    Recurrence.Holds s.holdings id n ↔ ∃ p, s.table.pane? id = some p ∧ n ∈ p.store.nodeIds := by
  obtain ⟨rank, hwf⟩ := h.wellFormed
  unfold Recurrence.Holds holdings PaneTable.panes
  simp only [List.mem_map, List.mem_filterMap, Prod.mk.injEq]
  constructor
  · rintro ⟨_, ⟨p, ⟨k, -, hp⟩, rfl, rfl⟩, hn⟩
    obtain rfl : p.id = k := hwf.rooted.linked.id_pane hp
    exact ⟨p, hp, (h.accounted _ p hp n).1 hn⟩
  · rintro ⟨p, hp, hn⟩
    have hid : id ∈ s.table.ids := (hwf.rooted.linked.mem_ids id).2 (contains_of_pane? hp)
    exact ⟨p.everAdded, ⟨p, ⟨id, hid, hp⟩, h.id_pane hp, rfl⟩, (h.accounted id p hp n).2 hn⟩

theorem heldElsewhere_iff_holds (h : s.Sound) {n : NodeId} :
    s.HeldElsewhere id n ↔ ∃ other, other ≠ id ∧ Recurrence.Holds s.holdings other n := by
  simp only [h.holds_iff, HeldElsewhere, exists_and_left]

/-- A report that names in each pane the watched nodes that recur there makes a session decorated. -/
theorem Unsettled.applyRecurrence (h : Unsettled [] s) (hs : s.Sound) {r : Recurrence}
    (hr : ∀ id n, (r.forPane id).contains n = true ↔ s.watched.contains n = true ∧
      Recurrence.Holds s.holdings id n ∧
      ∃ other, other ≠ id ∧ Recurrence.Holds s.holdings other n) :
    (s.applyRecurrence r).Decorated := by
  have hpane : ∀ id, (s.applyRecurrence r).table.pane? id =
      (s.table.pane? id).map fun p => { p with recurring := r.forPane p.id } :=
    fun id => pane?_modifyAll ..
  have hheld : ∀ id n, (s.applyRecurrence r).HeldElsewhere id n ↔ s.HeldElsewhere id n :=
    heldElsewhere_congr fun id => by rw [hpane, Option.map_map]; rfl
  refine ⟨fun {id q} hq => ?_, fun {id q} hq n => ?_⟩
  all_goals
    rw [hpane] at hq
    obtain ⟨p, hp, rfl⟩ := Option.map_eq_some_iff.1 hq
  · have hmarked : p.ShowsMarks s.marks := h.marked hp List.not_mem_nil
    exact hmarked
  · have hholds : Recurrence.Holds s.holdings id n ↔ n ∈ p.store.nodeIds := by
      simp [hs.holds_iff, hp]
    have hself : p.id = id := hs.id_pane hp
    rw [hheld, heldElsewhere_iff_holds hs, ← hholds]
    simp only [hself]
    exact hr id n

/-- The recomputation of what recurs leaves marks alone. -/
theorem Unsettled.recomputed (h : Unsettled stale s) : Unsettled stale s.recomputeWatched := by
  unfold Session.recomputeWatched
  split
  next => exact h
  next hsome =>
    refine ⟨fun {id q} hq hid => ?_, fun hnone => absurd hnone hsome⟩
    obtain ⟨p, hp, rfl⟩ := Option.map_eq_some_iff.1 ((pane?_modifyAll ..).symm.trans hq)
    have hmarked : p.ShowsMarks s.marks := h.marked hp hid
    exact hmarked

/-- **The recomputation of what recurs makes a session decorated.** -/
theorem Unsettled.recomputeWatched (h : Unsettled [] s) (hs : s.Sound) :
    s.recomputeWatched.Decorated := by
  unfold Session.recomputeWatched
  split
  next hnone =>
    refine ⟨fun hp => h.marked hp List.not_mem_nil, fun hp n => ?_⟩
    have hshown := OrderedSet.isEmpty_iff.1 (h.unwatched hnone hp) n
    have hwatched := OrderedSet.isEmpty_iff.1 hnone n
    simp [hshown, hwatched]
  next =>
    exact h.applyRecurrence hs fun id n =>
      Recurrence.contains_forPane_detectAmong hs.nodup_holdings

/-! ## What is derived -/

theorem decor_derived (s : Session) (added : List NodeId) (p : Pane) :
    (s.derived added p).decor = (p.store.nodeIds, s.marks.decorate p.store, p.recurring) := by
  have hnoted := p.decor_noteAdded added
  simp only [Pane.decor, Prod.mk.injEq] at hnoted
  simp only [Pane.decor, derived, Pane.project, hnoted]

theorem recurring_derived (s : Session) (added : List NodeId) (p : Pane) :
    (s.derived added p).recurring = p.recurring :=
  congrArg (fun d => d.2.2) (s.decor_derived added p)

theorem showsMarks_derived (s : Session) (added : List NodeId) (p : Pane) :
    (s.derived added p).ShowsMarks s.marks := by
  have hmarked : { p with marked := s.marks.decorate p.store }.ShowsMarks s.marks :=
    p.showsMarks_decorate s.marks
  exact hmarked.of_decor_eq (s.decor_derived added p)

/-- **What is derived after a pane has grown makes a session decorated.** -/
theorem Unsettled.afterGrowth {added : List NodeId} (h : Unsettled [id] s) (hs : Owing id added s) :
    (s.afterGrowth id added).Decorated := by
  have hmended : Unsettled [] (s.modify id (s.derived added)) :=
    h.mend (s.recurring_derived added) (s.showsMarks_derived added)
  exact (hmended.of_sameDecor (SameDecor.publishBrush _ id)).recomputeWatched
    (hs.derived.publishBrush id)

theorem Unsettled.settle (h : Unsettled [id] s) (hs : s.Sound) : (s.settle id).Decorated :=
  h.afterGrowth (hs.owing id)

end Session

end StateAtlas
