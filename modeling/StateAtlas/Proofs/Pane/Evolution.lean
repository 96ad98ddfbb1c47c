import StateAtlas.Pane.Arrangement
import StateAtlas.Pane.Copies
import StateAtlas.Proofs.Pane.Lineage
/-!
How a table evolves.

Whatever is done to a table comes down to three kinds of steps: a pane is removed, a new pane is put
in under a name that no live pane has, and the panes that are live are arranged, linked or announced,
which leaves alone what they work on.  `Evolves` records the names of the panes that were put in.
-/

namespace StateAtlas.PaneTable

variable {t u v : PaneTable} {opened opened' : List PaneId}

/-! ## What panes work on -/

/-- What a pane works on: all but its place on screen and in the lineage. -/
def work (p : Pane) : Pane := { p with geometry := {}, spawners := [], spawned := {} }

/-- The same panes are live and work on the same. -/
structure SameWork (t u : PaneTable) : Prop where
  pane : ∀ id, (u.pane? id).map work = (t.pane? id).map work
  nextLease : u.nextLease = t.nextLease

theorem SameWork.rfl (t : PaneTable) : t.SameWork t := ⟨fun _ => Eq.refl _, Eq.refl _⟩

theorem SameWork.publish (t : PaneTable) (e : Event) : t.SameWork (t.publish e) :=
  ⟨fun _ => Eq.refl _, Eq.refl _⟩

theorem SameWork.setActive (t : PaneTable) (id : PaneId) : t.SameWork (t.setActive id) := by
  rw [setActive_eq]
  exact ⟨fun _ => Eq.refl _, Eq.refl _⟩

theorem SameWork.announce (t : PaneTable) (id : PaneId) : t.SameWork (t.announce id) := by
  unfold PaneTable.announce
  split
  · exact SameWork.publish t _
  · exact SameWork.rfl t

theorem SameWork.reactivate (t : PaneTable) (activate : Bool) :
    t.SameWork (t.reactivate activate) := by
  unfold PaneTable.reactivate
  split
  · exact SameWork.rfl t
  · split
    · exact SameWork.setActive t _
    · exact ⟨fun _ => Eq.refl _, Eq.refl _⟩

theorem SameWork.modify (t : PaneTable) (id : PaneId) {f : Pane → Pane}
    (hf : ∀ p, work (f p) = work p) : t.SameWork (t.modify id f) :=
  ⟨Dictionary.map_get?_modify hf t.live id, Eq.refl _⟩

theorem SameWork.modifyMany (t : PaneTable) (ids : List PaneId) {f : Pane → Pane}
    (hf : ∀ p, work (f p) = work p) : t.SameWork { t with live := t.live.modifyMany ids f } :=
  ⟨Dictionary.map_get?_modifyMany hf t.live ids, Eq.refl _⟩

theorem SameWork.trans (h : t.SameWork u) (h' : u.SameWork v) : t.SameWork v :=
  ⟨fun id => (h'.pane id).trans (h.pane id), h'.nextLease.trans h.nextLease⟩

theorem SameWork.reshape (t : PaneTable) (id : PaneId) (f : Geometry → Geometry) :
    t.SameWork (t.reshape id f) :=
  (SameWork.modify t id (f := fun p => { p with geometry := f p.geometry }) fun _ => Eq.refl _).trans
    (SameWork.publish _ _)

theorem SameWork.link (t : PaneTable) (child : PaneId) : t.SameWork (t.link child) := by
  unfold PaneTable.link
  split
  · exact SameWork.modifyMany t _ fun _ => Eq.refl _
  · exact SameWork.rfl t

/-- Relinking a copy changes nothing but its lineage and that of its spawners. -/
theorem SameWork.relink (copies : List (PaneId × PaneId)) (t : PaneTable) (id : PaneId) :
    t.SameWork (PaneTable.relink copies t id) := by
  unfold PaneTable.relink
  split
  · exact SameWork.rfl t
  next p _ =>
    have hgives := SameWork.modifyMany t
      (p.spawners.filter fun spawner => (copies.lookup spawner).isSome) (f := notSpawning id)
      fun _ => Eq.refl _
    refine SameWork.trans (hgives.trans ?_) (SameWork.link _ id)
    refine SameWork.modify _ id ?_
    exact fun _ => Eq.refl _

/-- Whether nobody has begun to expand a pane, its brush is its own, and nothing is marked, recurring
or selected in it. -/
structure Untouched (p : Pane) : Prop where
  lease : p.lease = none
  entered : p.entered = p.restingPhase
  brush : p.brush.pane = p.id
  marked : p.marked = {}
  recurring : p.recurring = {}
  selection : p.selection = []
  history : p.history = {}

theorem Untouched.of_work_eq {p q : Pane} (h : Untouched p) (hwork : work p = work q) :
    Untouched q := by
  have hlease : (work p).lease = (work q).lease := congrArg Pane.lease hwork
  have hentered : (work p).entered = (work q).entered := congrArg Pane.entered hwork
  have hresting : (work p).restingPhase = (work q).restingPhase := congrArg Pane.restingPhase hwork
  have hbrush : (work p).brush.pane = (work q).brush.pane :=
    congrArg (fun w => w.brush.pane) hwork
  have hid : (work p).id = (work q).id := congrArg Pane.id hwork
  have hmarked : (work p).marked = (work q).marked := congrArg Pane.marked hwork
  have hrecurring : (work p).recurring = (work q).recurring := congrArg Pane.recurring hwork
  have hselection : (work p).selection = (work q).selection := congrArg Pane.selection hwork
  have hhistory : (work p).history = (work q).history := congrArg Pane.history hwork
  exact ⟨hlease.symm.trans h.lease, hentered.symm.trans (h.entered.trans hresting),
    hbrush.symm.trans (h.brush.trans hid), hmarked.symm.trans h.marked,
    hrecurring.symm.trans h.recurring, hselection.symm.trans h.selection,
    hhistory.symm.trans h.history⟩

theorem SameWork.contains (h : t.SameWork u) (id : PaneId) : u.contains id = t.contains id := by
  have hwork := congrArg Option.isSome (h.pane id)
  rwa [Option.isSome_map, Option.isSome_map] at hwork

theorem SameWork.foldl {α : Type} {f : PaneTable → α → PaneTable} (hf : ∀ u a, SameWork u (f u a))
    (t : PaneTable) (as : List α) : t.SameWork (as.foldl f t) := by
  induction as generalizing t with
  | nil => exact SameWork.rfl t
  | cons a as ih => exact (hf t a).trans (ih _)

/-- What every eviction keeps, making room keeps. -/
theorem makeRoom_induction {P : PaneTable → Prop} {protected_ : List PaneId}
    (hevict : ∀ u victim, P u → u.oldest? protected_ = some victim → P (u.remove [victim] false).1)
    (h : P t) : P (t.makeRoom protected_) := by
  unfold makeRoom
  -- The number of evictions is bounded by the panes there are at first, not by those that are left.
  generalize t.created.length = n
  induction n generalizing t with
  | zero => exact h
  | succ n ih =>
    unfold evict
    split
    · exact h
    · split
      next victim hvictim => exact ih (hevict t victim h hvictim)
      next => exact h

/-! ## Steps and their sequences -/

/-- The second table came of the first by removing panes, by putting in new ones under names that
were free, which the list tells in order, and by changes that leave alone what panes work on. -/
inductive Evolves : PaneTable → List PaneId → PaneTable → Prop
  | refl (t : PaneTable) : Evolves t [] t
  | remove {t u : PaneTable} {opened : List PaneId} (id : PaneId) (h : Evolves t opened u) :
      Evolves t opened (u.removeOne id)
  | place {t u : PaneTable} {opened : List PaneId} {p : Pane} (after : Option PaneId)
      (insert : InsertPolicy) (h : Evolves t opened u) (hp : u.Admits p) (huntouched : Untouched p) :
      Evolves t (opened ++ [p.id]) (u.place p after insert)
  | retouch {t u v : PaneTable} {opened : List PaneId} (h : Evolves t opened u)
      (hsame : u.SameWork v) : Evolves t opened v

namespace Evolves

theorem trans (h : t.Evolves opened u) (h' : u.Evolves opened' v) :
    t.Evolves (opened ++ opened') v := by
  induction h' with
  | refl => rwa [List.append_nil]
  | remove id _ ih => exact ih.remove id
  | place after insert _ hp huntouched ih =>
    rw [← List.append_assoc]
    exact ih.place after insert hp huntouched
  | retouch _ hsame ih => exact ih.retouch hsame

theorem removeMany (h : t.Evolves opened u) (victims : List PaneId) (activate : Bool) :
    t.Evolves opened (u.remove victims activate).1 := by
  refine Evolves.retouch ?_ (SameWork.reactivate _ activate)
  induction victims generalizing u with
  | nil => exact h
  | cons victim victims ih => exact ih (h.remove victim)

theorem makeRoom (h : t.Evolves opened u) (protected_ : List PaneId) :
    t.Evolves opened (u.makeRoom protected_) :=
  makeRoom_induction (fun _ victim hv _ => hv.removeMany [victim] false) h

end Evolves

/-! ## Survivors and newcomers -/

theorem work_of_pane?_removeOne {id k : PaneId} {p : Pane} (hp : (t.removeOne id).pane? k = some p) :
    ∃ q, t.pane? k = some q ∧ work p = work q := by
  by_cases hlive : t.contains id = true
  · rw [pane?_removeOne t id k hlive] at hp
    split at hp
    next => simp at hp
    next =>
      obtain ⟨q, hq, rfl⟩ := Option.map_eq_some_iff.1 hp
      exact ⟨q, hq, rfl⟩
  · rw [removeOne_of_not_contains hlive] at hp
    exact ⟨p, hp, rfl⟩

theorem SameWork.pane?_left (h : t.SameWork u) {id : PaneId} {p : Pane} (hp : u.pane? id = some p) :
    ∃ q, t.pane? id = some q ∧ work p = work q := by
  have hwork := h.pane id
  rw [hp, Option.map_some] at hwork
  obtain ⟨q, hq, heq⟩ := Option.map_eq_some_iff.1 hwork.symm
  exact ⟨q, hq, heq.symm⟩

namespace Evolves

/-- **Of the live panes each was put in, or it was live before and works on the same.** -/
theorem newcomer_or_survivor (h : t.Evolves opened u) {id : PaneId} {p : Pane}
    (hp : u.pane? id = some p) :
    (id ∈ opened ∧ Untouched p) ∨ (id ∉ opened ∧ ∃ q, t.pane? id = some q ∧ work p = work q) := by
  -- Followed back through the steps, a live pane is met where it was put in, or at the start.
  induction h generalizing p with
  | refl => exact .inr ⟨List.not_mem_nil, p, hp, rfl⟩
  | remove gone _ ih =>
    obtain ⟨q, hq, hwork⟩ := work_of_pane?_removeOne hp
    rcases ih hq with ⟨hmem, huntouched⟩ | ⟨hmem, r, hr, hwork'⟩
    · exact .inl ⟨hmem, huntouched.of_work_eq hwork.symm⟩
    · exact .inr ⟨hmem, r, hr, hwork.trans hwork'⟩
  | @place u opened new after insert _ hnew huntouched ih =>
    rw [pane?_place u after insert hnew.nodup_spawners hnew.notMem_spawners] at hp
    by_cases hid : id = new.id
    · rw [if_pos hid] at hp
      obtain rfl := Option.some.inj hp
      exact .inl ⟨by simp [hid], huntouched⟩
    · rw [if_neg hid] at hp
      -- A spawner takes note of the new pane, which is no part of its work.
      have hold : ∃ q, u.pane? id = some q ∧ work p = work q := by
        split at hp
        · obtain ⟨q, hq, rfl⟩ := Option.map_eq_some_iff.1 hp
          exact ⟨q, hq, rfl⟩
        · exact ⟨p, hp, rfl⟩
      obtain ⟨q, hq, hwork⟩ := hold
      rcases ih hq with ⟨hmem, huntouched'⟩ | ⟨hmem, r, hr, hwork'⟩
      · exact .inl ⟨List.mem_append_left _ hmem, huntouched'.of_work_eq hwork.symm⟩
      · exact .inr ⟨by simp [hmem, hid], r, hr, hwork.trans hwork'⟩
  | retouch _ hsame ih =>
    obtain ⟨q, hq, hwork⟩ := hsame.pane?_left hp
    rcases ih hq with ⟨hmem, huntouched⟩ | ⟨hmem, r, hr, hwork'⟩
    · exact .inl ⟨hmem, huntouched.of_work_eq hwork.symm⟩
    · exact .inr ⟨hmem, r, hr, hwork.trans hwork'⟩

/-- No lease is given out. -/
theorem nextLease_eq (h : t.Evolves opened u) : u.nextLease = t.nextLease := by
  induction h with
  | refl => rfl
  | remove gone _ ih =>
    rw [← ih]
    unfold removeOne
    split <;> rfl
  | place after insert _ _ _ ih => rw [place_eq, ← ih]
  | retouch _ hsame ih => exact hsame.nextLease.trans ih

end Evolves

end StateAtlas.PaneTable
