import StateAtlas.Proofs.Dictionary
import StateAtlas.Proofs.Pane.WellFormed
import StateAtlas.Session.Lifecycle
/-!
Changes of one pane of a session.

`Alters` says that a session changed in one pane only, and that the pane stays in its place; with
`Touches` its lease stays out or in as well.  After a pane has grown, what is derived from its
contents is brought up to date: its rows and dimensions, its selection and its marks.  As long as no
nodes are watched this touches no other pane, because in an orderly session the brush of a pane
speaks for that pane.
-/

namespace StateAtlas

open PaneTable

namespace Pane

variable {p q : Pane}

/-! ## Phases and leases -/

/-- A pane but for its phase and its lease. -/
def still (p : Pane) : Pane := { p with entered := .collapsed, lease := none }

theorem still_settle (p : Pane) : p.settle.still = p.still := by
  unfold settle
  split <;> rfl

theorem still_release (p : Pane) (number : Nat) : (p.release number).still = p.still := by
  unfold release
  split <;> rfl

theorem still_endExpansion (p : Pane) : p.endExpansion.still = p.still := by
  unfold endExpansion
  split <;> rfl

theorem still_beginExpansion {number : Nat} (h : p.beginExpansion number = .ok q) :
    q.still = p.still := by
  unfold beginExpansion at h
  split at h
  next => nomatch h
  next => nomatch h
  next =>
    obtain rfl := Except.ok.inj h
    rfl

end Pane

/-! ## Panes in order -/

/-- The pane's brush is its own, the pane is not closed, and it counts as expanding while its lease
is out. -/
structure Pane.InOrder (id : PaneId) (p : Pane) : Prop where
  brush : p.brush.pane = id
  not_closed : p.entered ≠ .closed
  expanding : p.lease ≠ none → p.entered = .expanding

namespace Pane

variable {id : PaneId} {p q : Pane}

theorem restingPhase_ne_closed (p : Pane) : p.restingPhase ≠ .closed := by
  unfold restingPhase
  split <;> simp

/-- A pane whose lease is out is expanding. -/
theorem InOrder.phase_eq (h : p.InOrder id) (hlease : p.lease ≠ none) : p.phase = .expanding := by
  unfold phase
  rw [if_neg]
  · exact h.expanding hlease
  · rintro ⟨-, hnone⟩
    exact hlease (Option.isNone_iff_eq_none.1 hnone)

/-- Without its lease out a pane is not expanding. -/
theorem phase_ne_expanding (hlease : p.lease = none) : p.phase ≠ .expanding := by
  unfold phase restingPhase
  rw [hlease]
  split
  · split <;> simp
  next hentered => exact fun heq => hentered ⟨heq, rfl⟩

theorem InOrder.of_untouched (h : Untouched p) (hid : p.id = id) : p.InOrder id :=
  ⟨h.brush.trans hid, h.entered ▸ p.restingPhase_ne_closed, fun hlease => absurd h.lease hlease⟩

theorem InOrder.of_work_eq (h : p.InOrder id) (hwork : work q = work p) : q.InOrder id := by
  have hlease : (work q).lease = (work p).lease := congrArg Pane.lease hwork
  have hentered : (work q).entered = (work p).entered := congrArg Pane.entered hwork
  have hbrush : (work q).brush.pane = (work p).brush.pane := congrArg (fun w => w.brush.pane) hwork
  constructor
  case brush => exact hbrush.trans h.brush
  case not_closed => exact fun hclosed => h.not_closed (hentered.symm.trans hclosed)
  case expanding =>
    intro hout
    exact hentered.trans (h.expanding fun hnone => hout (hlease.trans hnone))

/-- A pane whose lease is out is not settled, as it is expanding. -/
theorem InOrder.settle (h : p.InOrder id) : p.settle.InOrder id := by
  unfold Pane.settle
  split
  · exact h
  next hphase =>
    refine ⟨h.brush, p.restingPhase_ne_closed, fun hlease => ?_⟩
    exact absurd (h.phase_eq hlease) hphase

theorem kin_settle (p : Pane) : kin p.settle = kin p := (congrArg kin p.still_settle :)

theorem lease_settle (p : Pane) : p.settle.lease = p.lease := by
  unfold settle
  split <;> rfl

theorem kin_noteAdded (p : Pane) (ids : List NodeId) : kin (p.noteAdded ids) = kin p := by
  unfold noteAdded
  rw [kin_settle]
  simp only [kin]

theorem lease_noteAdded (p : Pane) (ids : List NodeId) : (p.noteAdded ids).lease = p.lease := by
  unfold noteAdded
  rw [lease_settle]

theorem InOrder.noteAdded (h : p.InOrder id) (ids : List NodeId) : (p.noteAdded ids).InOrder id :=
  InOrder.settle ⟨h.brush, h.not_closed, h.expanding⟩

theorem kin_select (p : Pane) (ids : List NodeId) : kin (p.select ids) = kin p := by
  simp only [select]
  split <;> rfl

theorem lease_select (p : Pane) (ids : List NodeId) : (p.select ids).lease = p.lease := by
  simp only [select]
  split <;> rfl

theorem InOrder.select (h : p.InOrder id) (ids : List NodeId) : (p.select ids).InOrder id := by
  simp only [Pane.select]
  split
  · exact ⟨h.brush, h.not_closed, h.expanding⟩
  · exact ⟨h.brush, h.not_closed, h.expanding⟩

theorem kin_release (p : Pane) (number : Nat) : kin (p.release number) = kin p :=
  (congrArg kin (p.still_release number) :)

theorem InOrder.release (h : p.InOrder id) (number : Nat) : (p.release number).InOrder id := by
  unfold Pane.release
  split
  · exact ⟨h.brush, h.not_closed, fun hlease => absurd rfl hlease⟩
  · exact h

theorem kin_endExpansion (p : Pane) : kin p.endExpansion = kin p :=
  (congrArg kin p.still_endExpansion :)

/-- The end of an expansion leaves no lease out. -/
theorem InOrder.lease_endExpansion (h : p.InOrder id) : p.endExpansion.lease = none := by
  unfold endExpansion
  split
  · rfl
  next hentered => exact Decidable.not_not.1 fun hlease => hentered (h.expanding hlease)

theorem InOrder.endExpansion (h : p.InOrder id) : p.endExpansion.InOrder id := by
  refine ⟨?_, ?_, fun hlease => absurd h.lease_endExpansion hlease⟩
  · unfold Pane.endExpansion
    split <;> exact h.brush
  · unfold Pane.endExpansion
    split
    · exact p.restingPhase_ne_closed
    · exact h.not_closed

end Pane

/-! ## Orderly sessions -/

namespace Session

variable {s s' s'' : Session} {id : PaneId}

/-- The table is well-formed, no nodes are watched, and every pane is in order. -/
structure Orderly (s : Session) : Prop where
  wellFormed : ∃ rank, s.table.WellFormed rank
  unwatched : s.watched.isEmpty = true
  inOrder : ∀ {id p}, s.table.pane? id = some p → p.InOrder id

theorem Orderly.id_pane (h : s.Orderly) {p : Pane} (hp : s.table.pane? id = some p) :
    p.id = id := by
  obtain ⟨rank, hwf⟩ := h.wellFormed
  exact hwf.rooted.linked.id_pane hp

theorem recomputeWatched_eq (h : s.watched.isEmpty = true) : s.recomputeWatched = s := by
  unfold recomputeWatched
  rw [if_pos h]

/-- The session changed in the pane of a name only, which stays in its place and in order. -/
structure Alters (id : PaneId) (s s' : Session) : Prop where
  lineage : s.table.SameLineage s'.table
  active : s'.table.active = s.table.active
  watched : s'.watched = s.watched
  others : ∀ k, k ≠ id → s'.table.pane? k = s.table.pane? k
  inOrder : ∀ q, s'.table.pane? id = some q →
    (∀ p, s.table.pane? id = some p → p.InOrder id) → q.InOrder id

/-- The session changed in the pane of a name only, and no lease was given out or taken back. -/
structure Touches (id : PaneId) (s s' : Session) : Prop extends Alters id s s' where
  nextLease : s'.table.nextLease = s.table.nextLease
  lease : (s'.table.pane? id).map Pane.lease = (s.table.pane? id).map Pane.lease

theorem Orderly.of_alters (h : s.Orderly) (halters : Alters id s s') : s'.Orderly where
  wellFormed := by
    obtain ⟨rank, hwf⟩ := h.wellFormed
    refine ⟨rank, hwf.of_sameLineage halters.lineage fun k hk => ?_⟩
    exact hwf.active_live k (halters.active ▸ hk)
  unwatched := halters.watched ▸ h.unwatched
  inOrder {k q} hq := by
    by_cases hk : k = id
    · subst hk
      exact halters.inOrder q hq fun _ => h.inOrder
    · rw [halters.others k hk] at hq
      exact h.inOrder hq

theorem Alters.trans (h : Alters id s s') (h' : Alters id s' s'') : Alters id s s'' where
  lineage := h.lineage.trans h'.lineage
  active := h'.active.trans h.active
  watched := h'.watched.trans h.watched
  others k hk := (h'.others k hk).trans (h.others k hk)
  inOrder r hr hp := h'.inOrder r hr fun q hq => h.inOrder q hq hp

theorem Touches.trans (h : Touches id s s') (h' : Touches id s' s'') : Touches id s s'' :=
  ⟨h.toAlters.trans h'.toAlters, h'.nextLease.trans h.nextLease, h'.lease.trans h.lease⟩

/-- A live pane was live before, with the same lease. -/
theorem Touches.pane?_left (h : Touches id s s') {k : PaneId} {q : Pane}
    (hq : s'.table.pane? k = some q) : ∃ p, s.table.pane? k = some p ∧ p.lease = q.lease := by
  by_cases hk : k = id
  · subst hk
    have hlease := h.lease
    rw [hq, Option.map_some] at hlease
    exact Option.map_eq_some_iff.1 hlease.symm
  · exact ⟨q, (h.others k hk).symm.trans hq, rfl⟩

theorem Touches.refl (id : PaneId) (s : Session) : Touches id s s :=
  ⟨⟨SameLineage.rfl s.table, rfl, rfl, fun _ _ => rfl, fun q hq hp => hp q hq⟩, rfl, rfl⟩

theorem Touches.publish (id : PaneId) (s : Session) (e : Event) : Touches id s (s.publish e) :=
  ⟨⟨SameLineage.publish s.table e, rfl, rfl, fun _ _ => rfl, fun q hq hp => hp q hq⟩, rfl, rfl⟩

theorem pane?_modify_of_ne (s : Session) {k : PaneId} (hk : k ≠ id) (f : Pane → Pane) :
    (s.modify id f).table.pane? k = s.table.pane? k :=
  (pane?_modify ..).trans (if_neg (Ne.symm hk))

theorem pane?_modify_self (s : Session) (id : PaneId) (f : Pane → Pane) :
    (s.modify id f).table.pane? id = (s.table.pane? id).map f :=
  (pane?_modify ..).trans (if_pos rfl)

/-- A pane of a session after a change is the changed one or another one. -/
theorem modify_cases {f : Pane → Pane} {k : PaneId} {q : Pane}
    (hq : (s.modify id f).table.pane? k = some q) :
    (k = id ∧ ∃ p, s.table.pane? id = some p ∧ f p = q) ∨ (k ≠ id ∧ s.table.pane? k = some q) := by
  by_cases hk : k = id
  · subst hk
    rw [pane?_modify_self] at hq
    exact .inl ⟨rfl, Option.map_eq_some_iff.1 hq⟩
  · rw [pane?_modify_of_ne s hk] at hq
    exact .inr ⟨hk, hq⟩

theorem modify_congr {p : Pane} {f g : Pane → Pane} (hp : s.table.pane? id = some p) (h : f p = g p) :
    s.modify id f = s.modify id g := by
  simp only [Session.modify, PaneTable.modify, Dictionary.modify_congr hp h]

theorem modify_eq_self {p : Pane} {f : Pane → Pane} (hp : s.table.pane? id = some p) (h : f p = p) :
    s.modify id f = s := by
  simp only [Session.modify, PaneTable.modify, Dictionary.modify_eq_self hp h]

theorem modify_modify (s : Session) (id : PaneId) (f g : Pane → Pane) :
    (s.modify id f).modify id g = s.modify id fun p => g (f p) := by
  simp only [Session.modify, PaneTable.modify, Dictionary.modify_modify]

theorem modify_comm (s : Session) {id id' : PaneId} (hne : id ≠ id') (f f' : Pane → Pane) :
    (s.modify id f).modify id' f' = (s.modify id' f').modify id f := by
  simp only [Session.modify, PaneTable.modify, Dictionary.modify_comm s.table.live hne]

/-- Another pane is put in the place of one. -/
theorem Alters.replace {p q : Pane} (hp : s.table.pane? id = some p) (hkin : kin q = kin p)
    (hq : p.InOrder id → q.InOrder id) : Alters id s (s.modify id fun _ => q) := by
  have hget : (s.modify id fun _ => q).table.pane? id = some q := by
    rw [pane?_modify_self, hp, Option.map_some]
  refine ⟨SameLineage.modify_live fun p' hp' => ?_, rfl, rfl, fun k hk => pane?_modify_of_ne s hk _,
    fun r hr hold => ?_⟩
  · obtain rfl : p = p' := Option.some.inj (hp.symm.trans hp')
    exact hkin
  · rw [hget] at hr
    exact Option.some.inj hr ▸ hq (hold p hp)

theorem Alters.modify (s : Session) (id : PaneId) {f : Pane → Pane}
    (hkin : ∀ p, kin (f p) = kin p) (hf : ∀ {p : Pane}, p.InOrder id → (f p).InOrder id) :
    Alters id s (s.modify id f) := by
  refine ⟨SameLineage.modify s.table id hkin, rfl, rfl, fun k hk => pane?_modify_of_ne s hk f, ?_⟩
  intro q hq hold
  rw [pane?_modify_self] at hq
  obtain ⟨p, hp, rfl⟩ := Option.map_eq_some_iff.1 hq
  exact hf (hold p hp)

theorem Touches.modify (s : Session) (id : PaneId) {f : Pane → Pane}
    (hkin : ∀ p, kin (f p) = kin p) (hlease : ∀ p, (f p).lease = p.lease)
    (hf : ∀ {p : Pane}, p.InOrder id → (f p).InOrder id) : Touches id s (s.modify id f) :=
  ⟨Alters.modify s id hkin hf, rfl, Dictionary.map_get?_modify hlease s.table.live id id⟩

/-! ## What is derived -/

/-- The brush of a pane in order speaks for that pane only. -/
theorem Touches.publishBrush (h : s.Orderly) (id : PaneId) : Touches id s (s.publishBrush id) := by
  unfold Session.publishBrush
  split
  next p hp =>
    -- What the brush selects is sent to the pane that it names, which need not be this one.
    have hpane : p.brush.linked.pane = id := (h.inOrder hp).brush
    have hpublish := Touches.publish id s (.linkedSelection p.brush.linked)
    refine hpublish.trans ?_
    unfold Session.publishSelection Session.syncSelection
    rw [hpane]
    refine Touches.modify _ id (fun q => ?_) (fun q => ?_) fun {q} hq => ?_
    · split
      · exact q.kin_select _
      · rfl
    · split
      · exact q.lease_select _
      · rfl
    · split
      · exact hq.select _
      · exact hq
  next => exact Touches.refl id s

theorem Touches.derived (s : Session) (id : PaneId) (added : List NodeId) :
    Touches id s (s.modify id (s.derived added)) := by
  refine Touches.modify s id (fun p => ?kin) (fun p => ?lease) fun {p} hp => ?inOrder
  case kin =>
    have hkin := p.kin_noteAdded added
    simp only [kin, Session.derived, Pane.project] at hkin ⊢
    exact hkin
  case lease =>
    simp only [Session.derived, Pane.project]
    exact p.lease_noteAdded added
  case inOrder =>
    obtain ⟨hbrush, hnot_closed, hexpanding⟩ := hp.noteAdded added
    constructor
    · simp only [Session.derived, Pane.project]
      exact hbrush
    · simp only [Session.derived, Pane.project]
      exact hnot_closed
    · simp only [Session.derived, Pane.project]
      exact hexpanding

/-- **What is derived after a pane has grown is derived for that pane only**, as long as no nodes
are watched. -/
theorem Touches.afterGrowth (h : s.Orderly) (id : PaneId) (added : List NodeId) :
    Touches id s (s.afterGrowth id added) := by
  have hderived := Touches.derived s id added
  have hpublished := Touches.publishBrush (h.of_alters hderived.toAlters) id
  have hunwatched := (h.of_alters (hderived.trans hpublished).toAlters).unwatched
  unfold Session.afterGrowth
  rw [recomputeWatched_eq hunwatched]
  exact hderived.trans hpublished

end Session

end StateAtlas
