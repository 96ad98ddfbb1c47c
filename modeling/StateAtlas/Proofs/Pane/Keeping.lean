import StateAtlas.Proofs.Graph.Union
import StateAtlas.Proofs.Pane.Commands
/-!
What all panes of a table keep.

A new pane is made from a request, from another pane or from several.  Whatever else is done to a
table leaves alone what panes work on.  So a property that depends on what panes work on, and that is
handed on to panes that are made from others, stays with all panes of a table as long as the panes
that requests ask for have it.
-/

namespace StateAtlas.PaneTable

variable {t u : PaneTable} {p : Pane} {id : PaneId} {P : Pane → Prop}

/-- Every live pane has a property. -/
def Each (t : PaneTable) (P : Pane → Prop) : Prop := ∀ id p, t.pane? id = some p → P p

/-- A property that depends on what panes work on alone, and that is handed on to panes that are made
from others. -/
structure HandedOn (P : Pane → Prop) : Prop where
  of_work_eq : ∀ {p q : Pane}, P p → work q = work p → P q
  copyOf : ∀ {p : Pane}, P p → ∀ (t : PaneTable) (id : PaneId), P (t.copyOf id p)
  union : ∀ {panes : List Pane}, (∀ p ∈ panes, P p) →
    ∀ (t : PaneTable) (id : PaneId) (spawners : List PaneId), P (t.union id panes spawners)

theorem store_union (t : PaneTable) (id : PaneId) (panes : List Pane) (spawners : List PaneId) :
    (t.union id panes spawners).store = Store.union (panes.map Pane.store) :=
  List.foldl_map.symm

/-! ## Small changes -/

theorem Each.of_sameWork (h : t.Each P) (hP : HandedOn P) (hsame : t.SameWork u) : u.Each P := by
  intro id p hp
  obtain ⟨q, hq, hwork⟩ := hsame.pane?_left hp
  exact hP.of_work_eq (h id q hq) hwork

/-- Where nothing is opened, the panes that are left keep what they had. -/
theorem Each.of_evolves (h : t.Each P) (hP : HandedOn P) (hevolves : t.Evolves [] u) :
    u.Each P := by
  intro id p hp
  rcases hevolves.newcomer_or_survivor hp with ⟨hmem, -⟩ | ⟨-, q, hq, hwork⟩
  · exact absurd hmem List.not_mem_nil
  · exact hP.of_work_eq (h id q hq) hwork

/-- What linking leaves alone is, after a pane was put in, where it was before. -/
theorem map_pane?_place {β : Type} {g : Pane → β} (hg : ∀ child p, g (spawning child p) = g p)
    (t : PaneTable) (p : Pane) (after : Option PaneId) (insert : InsertPolicy) (k : PaneId) :
    ((t.place p after insert).pane? k).map g =
      if p.id = k then some (g p) else (t.pane? k).map g := by
  let u : PaneTable := { t with live := t.live.insert p.id p }
  have hput : (u.pane? k).map g = if p.id = k then some (g p) else (t.pane? k).map g := by
    have hget : u.pane? k = if p.id = k then some p else t.pane? k := Dictionary.get?_insert ..
    rw [hget]
    split <;> rfl
  have hlink : ((u.link p.id).pane? k).map g = (u.pane? k).map g := by
    unfold link
    split
    · exact Dictionary.map_get?_modifyMany (hg p.id) u.live _ k
    · rfl
  exact hlink.trans hput

theorem Each.place (h : t.Each P) (hP : HandedOn P) (hp : P p) (after : Option PaneId)
    (insert : InsertPolicy) : (t.place p after insert).Each P := by
  intro id q hq
  have hwork := map_pane?_place (g := work) (fun _ _ => rfl) t p after insert id
  rw [hq, Option.map_some] at hwork
  split at hwork
  · exact hP.of_work_eq hp (Option.some.inj hwork)
  · obtain ⟨q', hq', heq⟩ := Option.map_eq_some_iff.1 hwork.symm
    exact hP.of_work_eq (h id q' hq') heq.symm

theorem Each.makeRoom (h : t.Each P) (hP : HandedOn P) (protected_ : List PaneId) :
    (t.makeRoom protected_).Each P :=
  h.of_evolves hP ((Evolves.refl t).makeRoom protected_)

theorem Each.announced (h : t.Each P) (hP : HandedOn P) (id : PaneId) :
    ((t.announce id).setActive id).Each P :=
  (h.of_sameWork hP (SameWork.announce t id)).of_sameWork hP (SameWork.setActive _ id)

/-! ## Commands -/

theorem Each.openPane (h : t.Each P) (hP : HandedOn P) {r : SpawnRequest}
    (hr : ∀ (u : PaneTable) (id : PaneId), P (u.requested r id)) : (t.openPane r).1.Each P := by
  have hnamed : (t.named r).1.Each P := by
    unfold named
    split
    · exact h
    · -- Finding a name for the pane evicts panes at most.
      exact (h.makeRoom hP r.spawner.toList).of_sameWork hP ⟨fun _ => rfl, rfl⟩
  intro id p hid
  rw [pane?_openPane] at hid
  exact hnamed.place hP (hr _ _) r.spawner r.insert id p hid

theorem Each.spawn (h : t.Each P) (hP : HandedOn P) {r : SpawnRequest}
    (hr : ∀ (u : PaneTable) (id : PaneId), P (u.requested r id))
    (hspawn : t.spawn r = .ok (u, id)) : u.Each P := by
  have hopened := h.openPane hP hr
  rwa [(spawn_eq_ok hspawn).2] at hopened

theorem Each.roomFor (h : t.Each P) (hP : HandedOn P) (ids : List PaneId) (keep : Bool) :
    (t.roomFor ids keep).Each P := by
  unfold PaneTable.roomFor
  split
  · exact h.makeRoom hP ids
  · exact h

theorem Each.merge (h : t.Each P) (hP : HandedOn P) {inputs : List PaneId} {keep : Bool}
    (hmerge : t.merge inputs keep = .ok (u, id)) : u.Each P := by
  obtain ⟨panes, hinputs, -, -, hunion⟩ := merge_eq_ok hmerge
  have hpanes : ∀ p ∈ panes, P p := by
    intro p hp
    obtain ⟨i, hi⟩ := (live_of_inputs hinputs).2 p hp
    exact h i p hi
  have hmerged : P (t.merged inputs.eraseDups panes keep) := hP.union hpanes _ _ _
  have hwith : (t.withMerged inputs.eraseDups panes keep).Each P :=
    ((h.roomFor hP inputs.eraseDups keep).place hP hmerged none .atEnd).announced hP _
  rw [openUnion_eq] at hunion
  obtain ⟨rfl, rfl⟩ := Prod.mk.inj hunion
  split
  · exact hwith
  · exact hwith.of_evolves hP ((Evolves.refl _).removeMany inputs.eraseDups false)

theorem Each.copy (h : t.Each P) (hP : HandedOn P) {source : PaneId} {protected_ : List PaneId}
    (hcopy : t.copy source protected_ = .ok (u, id)) : u.Each P := by
  obtain ⟨p, hp, hcopy⟩ := bind_eq_ok.1 hcopy
  obtain ⟨rfl, -⟩ := Prod.mk.inj (Except.ok.inj hcopy)
  have hroom := h.makeRoom hP protected_
  let named := (t.makeRoom protected_).naming.duplicate source
  have hnamed : ({ t.makeRoom protected_ with naming := named.1 } : PaneTable).Each P :=
    hroom.of_sameWork hP ⟨fun _ => rfl, rfl⟩
  exact hnamed.place hP (hP.copyOf (hroom source p (get_eq_ok.1 hp)) _ _) _ _

theorem Each.duplicate (h : t.Each P) (hP : HandedOn P) {source : PaneId}
    (hduplicate : t.duplicate source = .ok (u, id)) : u.Each P := by
  obtain ⟨p, -, hduplicate⟩ := bind_eq_ok.1 hduplicate
  obtain ⟨⟨v, new⟩, hcopy, hduplicate⟩ := bind_eq_ok.1 hduplicate
  obtain ⟨rfl, rfl⟩ := Prod.mk.inj (Except.ok.inj hduplicate)
  exact (h.copy hP hcopy).announced hP new

theorem Each.duplicateMany (h : t.Each P) (hP : HandedOn P) {sources opened : List PaneId}
    (hduplicate : t.duplicateMany sources = .ok (u, opened)) : u.Each P := by
  obtain ⟨-, v, copies, hcopies, -, rfl⟩ := duplicateMany_eq_ok hduplicate
  have hv : v.Each P := by
    refine foldlM_eq_ok (P := fun w => w.1.Each P) hcopies h ?_
    rintro source - ⟨w, done⟩ ⟨w', done'⟩ hw hstep
    obtain ⟨⟨x, new⟩, hcopy, hstep⟩ := bind_eq_ok.1 hstep
    obtain ⟨rfl, -⟩ := Prod.mk.inj (Except.ok.inj hstep)
    exact hw.copy hP hcopy
  exact hv.of_sameWork hP (SameWork.withCopies v copies)

theorem Each.destroy (h : t.Each P) (hP : HandedOn P) {cascade activate : Bool}
    {removed : List PaneId} (hdestroy : t.destroy id cascade activate = .ok (u, removed)) :
    u.Each P := by
  obtain ⟨p, -, hdestroy⟩ := bind_eq_ok.1 hdestroy
  split at hdestroy
  next => nomatch hdestroy
  next =>
    obtain ⟨rfl, -⟩ := Prod.mk.inj (Except.ok.inj hdestroy)
    exact h.of_evolves hP ((Evolves.refl t).removeMany _ activate)

theorem Each.clear (h : t.Each P) (hP : HandedOn P) : t.clear.1.Each P :=
  Each.of_sameWork (h.of_evolves hP ((Evolves.refl t).removeMany t.ids.reverse false)) hP
    ⟨fun _ => rfl, rfl⟩

end StateAtlas.PaneTable
