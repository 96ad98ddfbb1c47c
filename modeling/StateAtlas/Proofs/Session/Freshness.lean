import StateAtlas.Proofs.Brush.Coalescing
import StateAtlas.Proofs.Brush.Normal
import StateAtlas.Proofs.Pane.Copying
import StateAtlas.Proofs.Session.Commands
/-!
Selections that are never stale.

The brush of a pane works on rows that were taken from the pane's store under the settings of its
view.  A pane is *fresh* when these rows are still the ones that its store and settings give, the
dimensions are of the attributes that they show, the selection is current, and the state goes by the
dimensions.  Whatever changes what is held or shown makes a pane stale, and has to project it again;
everything else leaves it fresh.

`FreshBut` tells which panes may be stale for the moment.  An operation goes from a session whose
panes are all fresh to one in which the panes that it grew, showed otherwise or opened may be stale,
and deriving what these show makes them fresh again.
-/

namespace StateAtlas

open PaneTable

/-! ## Fresh panes -/

/-- The brush has the rows of the store under the settings of the view and dimensions for what they
show, its selection is current, and its state goes by these dimensions. -/
structure Pane.Fresh (p : Pane) : Prop where
  rows_eq : p.brush.rows = p.store.rows p.view.mode p.view.details
  current : p.brush.Current
  attributes_eq : p.brush.attributes = p.store.attributes p.view.mode p.view.details
  normal : p.brush.Normal

namespace Pane

variable {p q : Pane}

/-- What freshness depends on. -/
def scene (p : Pane) : List Node × DisplayMode × DetailSelection × Brush Float :=
  (p.store.nodes, p.view.mode, p.view.details, p.brush)

theorem Fresh.of_scene_eq (h : p.Fresh) (hscene : q.scene = p.scene) : q.Fresh := by
  obtain ⟨hnodes, hmode, hdetails, hbrush⟩ :
      q.store.nodes = p.store.nodes ∧ q.view.mode = p.view.mode ∧
        q.view.details = p.view.details ∧ q.brush = p.brush := by
    simpa only [scene, Prod.mk.injEq] using hscene
  constructor
  case rows_eq => rw [hbrush, h.rows_eq, Store.rows, Store.rows, hnodes, hmode, hdetails]
  case current => exact hbrush ▸ h.current
  case attributes_eq =>
    rw [hbrush, h.attributes_eq, Store.attributes, Store.attributes, hnodes, hmode, hdetails]
  case normal => exact hbrush ▸ h.normal

/-- A pane is fresh right after its rows were rebuilt. -/
theorem fresh_project (p : Pane) (schema : Schema) : (p.project schema).Fresh where
  rows_eq := p.brush.rows_projectStore p.store p.view.mode p.view.details schema
  current := Brush.current_recompute _
  attributes_eq := p.brush.attributes_projectStore p.store p.view.mode p.view.details schema
  normal := p.brush.normal_projectStore p.store p.view.mode p.view.details schema

/-- What a brush is asked leaves the pane fresh, unless it is to project. -/
theorem Fresh.execute (h : p.Fresh) {c : BrushCommand} (hc : c.isProjection = false) :
    { p with brush := (p.brush.execute c).1 }.Fresh where
  rows_eq := (p.brush.sameRows_execute hc).rows_eq.trans h.rows_eq
  current := h.current.execute c
  attributes_eq := by
    rw [Brush.attributes, (p.brush.sameRows_execute hc).dimensions_eq, ← Brush.attributes,
      h.attributes_eq]
  normal := h.normal.execute hc

theorem kin_withBrush (p : Pane) (b : Brush Float) : kin { p with brush := b } = kin p := rfl

theorem scene_select (p : Pane) (ids : List NodeId) : (p.select ids).scene = p.scene := by
  simp only [select]
  split <;> rfl

theorem scene_release (p : Pane) (number : Nat) : (p.release number).scene = p.scene :=
  (congrArg scene (p.still_release number) :)

theorem scene_endExpansion (p : Pane) : p.endExpansion.scene = p.scene :=
  (congrArg scene p.still_endExpansion :)

theorem Fresh.of_work_eq (h : p.Fresh) (hwork : work q = work p) : q.Fresh := by
  have hscene : (work q).scene = (work p).scene := congrArg scene hwork
  exact h.of_scene_eq hscene

theorem scene_beginExpansion {number : Nat} (h : p.beginExpansion number = .ok q) :
    q.scene = p.scene ∧ kin q = kin p :=
  ⟨(congrArg scene (still_beginExpansion h) :), (congrArg kin (still_beginExpansion h) :)⟩

end Pane

/-! ## Fresh sessions -/

namespace Session

variable {s s' : Session} {stale stale' opened : List PaneId} {id : PaneId} {p q : Pane}

/-- The table is well-formed, and every live pane that is not listed is fresh. -/
structure FreshBut (stale : List PaneId) (s : Session) : Prop where
  wellFormed : ∃ rank, s.table.WellFormed rank
  fresh : ∀ {id p}, s.table.pane? id = some p → id ∉ stale → p.Fresh

/-- The table is well-formed, and every live pane is fresh. -/
abbrev Fresh (s : Session) : Prop := FreshBut [] s

theorem FreshBut.mono (h : FreshBut stale s) (hsub : stale ⊆ stale') : FreshBut stale' s :=
  ⟨h.wellFormed, fun hp hid => h.fresh hp fun hmem => hid (hsub hmem)⟩

/-- Panes keep their places, and those that are not listed are fresh. -/
theorem FreshBut.of_sameLineage (h : FreshBut stale s) (hlineage : s.table.SameLineage s'.table)
    (hactive : s'.table.active = s.table.active)
    (hfresh : ∀ {id q}, s'.table.pane? id = some q → id ∉ stale' → q.Fresh) :
    FreshBut stale' s' := by
  obtain ⟨rank, hwf⟩ := h.wellFormed
  refine ⟨⟨rank, hwf.of_sameLineage hlineage fun id hid => ?_⟩, hfresh⟩
  exact hwf.active_live id (hactive ▸ hid)

/-- A pane that stays in its place may be stale after a change. -/
theorem FreshBut.disturb (h : FreshBut stale s) {f : Pane → Pane}
    (hkin : ∀ p, s.table.pane? id = some p → kin (f p) = kin p) :
    FreshBut (id :: stale) (s.modify id f) := by
  refine h.of_sameLineage (SameLineage.modify_live hkin) rfl fun {k q} hq hk => ?_
  obtain ⟨hne, hmem⟩ := not_or.1 (List.mem_cons.not.1 hk)
  rw [pane?_modify_of_ne s hne] at hq
  exact h.fresh hq hmem

theorem FreshBut.freshen (h : FreshBut (id :: stale) s)
    (hfresh : ∀ p, s.table.pane? id = some p → p.Fresh) : FreshBut stale s := by
  refine ⟨h.wellFormed, fun {k p} hp hk => ?_⟩
  by_cases hid : k = id
  · exact hfresh p (hid ▸ hp)
  · exact h.fresh hp (List.not_mem_cons_of_ne_of_not_mem hid hk)

/-- A change that leaves a pane in its place and fresh. -/
theorem FreshBut.modify (h : FreshBut stale s) {f : Pane → Pane}
    (hkin : ∀ p, s.table.pane? id = some p → kin (f p) = kin p)
    (hf : ∀ p, s.table.pane? id = some p → p.Fresh → (f p).Fresh) :
    FreshBut stale (s.modify id f) := by
  by_cases hid : id ∈ stale
  · exact (h.disturb hkin).mono (List.cons_subset.2 ⟨hid, List.Subset.refl _⟩)
  · refine (h.disturb hkin).freshen fun q hq => ?_
    rw [pane?_modify_self] at hq
    obtain ⟨p, hp, rfl⟩ := Option.map_eq_some_iff.1 hq
    exact hf p hp (h.fresh hp hid)

/-- A change that makes a pane fresh. -/
theorem FreshBut.renew (h : FreshBut (id :: stale) s) {f : Pane → Pane}
    (hkin : ∀ p, kin (f p) = kin p) (hf : ∀ p, (f p).Fresh) : FreshBut stale (s.modify id f) := by
  refine (h.modify (fun p _ => hkin p) fun p _ _ => hf p).freshen fun q hq => ?_
  rw [pane?_modify_self] at hq
  obtain ⟨p, -, rfl⟩ := Option.map_eq_some_iff.1 hq
  exact hf p

/-- A change of what has no bearing on freshness. -/
theorem FreshBut.retouch (h : FreshBut stale s) {f : Pane → Pane}
    (hkin : ∀ p, kin (f p) = kin p) (hscene : ∀ p, (f p).scene = p.scene) :
    FreshBut stale (s.modify id f) :=
  h.modify (fun p _ => hkin p) fun p _ hp => hp.of_scene_eq (hscene p)

/-- Another pane is put in the place of one. -/
theorem FreshBut.replace (h : FreshBut stale s) (hp : s.table.pane? id = some p)
    (hkin : kin q = kin p) (hq : p.Fresh → q.Fresh) : FreshBut stale (s.modify id fun _ => q) := by
  refine h.modify (fun p' hp' => ?_) fun p' hp' => ?_
  all_goals obtain rfl : p = p' := Option.some.inj (hp.symm.trans hp')
  · exact hkin
  · exact hq

theorem FreshBut.modifyAll (h : FreshBut stale s) {f : Pane → Pane}
    (hkin : ∀ p, kin (f p) = kin p) (hf : ∀ p, p.Fresh → (f p).Fresh) :
    FreshBut stale (s.modifyAll f) := by
  refine h.of_sameLineage (SameLineage.modifyAll s.table hkin) rfl fun {k q} hq hk => ?_
  have hpane : (s.modifyAll f).table.pane? k = (s.table.pane? k).map f := pane?_modifyAll ..
  rw [hpane] at hq
  obtain ⟨p, hp, rfl⟩ := Option.map_eq_some_iff.1 hq
  exact hf p (h.fresh hp hk)

theorem FreshBut.publish (h : FreshBut stale s) (e : Event) : FreshBut stale (s.publish e) :=
  h.of_sameLineage (SameLineage.publish s.table e) rfl h.fresh

theorem FreshBut.warn (h : FreshBut stale s) (pane : Option PaneId) (message : String) :
    FreshBut stale (s.warn pane message) :=
  h.publish _

/-! ## Deriving what panes show -/

theorem FreshBut.syncSelection (h : FreshBut stale s) (l : LinkedSelection Float) :
    FreshBut stale (s.syncSelection l) := by
  refine h.retouch (fun p => ?_) fun p => ?_
  all_goals split
  · exact p.kin_select l.ids
  · rfl
  · exact p.scene_select l.ids
  · rfl

/-- What is announced of a brush leaves every brush alone. -/
theorem FreshBut.publishBrush (h : FreshBut stale s) (id : PaneId) :
    FreshBut stale (s.publishBrush id) := by
  unfold Session.publishBrush
  split
  · exact (h.publish _).syncSelection _
  · exact h

theorem FreshBut.applyRecurrence (h : FreshBut stale s) (r : Recurrence) :
    FreshBut stale (s.applyRecurrence r) := by
  refine FreshBut.publish (h.modifyAll (fun p => ?_) fun p hp => ?_) _
  · rfl
  · exact hp.of_scene_eq rfl

theorem FreshBut.recomputeWatched (h : FreshBut stale s) : FreshBut stale s.recomputeWatched := by
  unfold Session.recomputeWatched
  split
  · exact h
  · exact h.applyRecurrence _

theorem fresh_derived (s : Session) (added : List NodeId) (p : Pane) :
    (s.derived added p).Fresh :=
  ((p.noteAdded added).fresh_project s.schema).of_scene_eq rfl

theorem kin_derived (s : Session) (added : List NodeId) (p : Pane) :
    kin (s.derived added p) = kin p := by
  rw [← p.kin_noteAdded added]
  unfold kin derived Pane.project
  rfl

/-- **What is derived after a pane has grown makes it fresh.** -/
theorem FreshBut.afterGrowth (h : FreshBut (id :: stale) s) (added : List NodeId) :
    FreshBut stale (s.afterGrowth id added) :=
  ((h.renew (s.kin_derived added) (s.fresh_derived added)).publishBrush id).recomputeWatched

theorem FreshBut.settle (h : FreshBut (id :: stale) s) : FreshBut stale (s.settle id) :=
  h.afterGrowth []

theorem FreshBut.settleEach (h : FreshBut opened s) : (opened.foldl Session.settle s).Fresh := by
  induction opened generalizing s with
  | nil => exact h
  | cons id opened ih => exact ih h.settle

/-- Projecting a pane anew makes it fresh. -/
theorem FreshBut.reproject (h : FreshBut (id :: stale) s) : FreshBut stale (s.reproject id) :=
  FreshBut.publishBrush (h.renew (f := fun p => p.project s.schema) (fun _ => rfl) fun p =>
    p.fresh_project s.schema) id

/-- **Of the panes of a table that was reached, only those that were opened can be stale.** -/
theorem Fresh.reach (h : s.Fresh) (hreaches : s.table.Reaches opened s'.table) :
    FreshBut opened s' := by
  refine ⟨hreaches.1, fun {id p} hp hid => ?_⟩
  rcases hreaches.2.newcomer_or_survivor hp with ⟨hmem, -⟩ | ⟨-, q, hq, hwork⟩
  · exact absurd hmem hid
  · exact (h.fresh hq List.not_mem_nil).of_work_eq hwork

end Session

end StateAtlas
