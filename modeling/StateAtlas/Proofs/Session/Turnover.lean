import StateAtlas.Proofs.Pane.Copying
import StateAtlas.Proofs.Session.Alteration
/-!
Panes of a session that come and go.

Whatever closes or opens panes of an orderly session leaves it orderly, and a pane that is live
afterwards was opened on the way, when nobody expands it, or it was live before and has the same
lease.
-/

namespace StateAtlas

open PaneTable

/-- What closes or opens panes of a session. -/
inductive Turnover
  | destroy (pane : PaneId) (cascade : Bool)
  | merge (panes : List PaneId) (keep : Bool)
  | duplicate (pane : PaneId)
  | duplicateMany (panes : List PaneId)
  | teardown
  | start (backend : Backend Id)
  | openDocuments (docs : List PaneDocument)

namespace Session

variable {s s' s'' : Session} {opened opened' : List PaneId}

/-- The session after panes were closed or opened, and the names of those that were opened.  What is
refused leaves the session as it was. -/
def turnOver (s : Session) : Turnover → Session × List PaneId
  | .destroy pane cascade =>
    match s.destroy pane cascade with
    | .ok (s', _) => (s', [])
    | .error _ => (s, [])
  | .merge panes keep =>
    match s.merge panes keep with
    | .ok (s', id) => (s', [id])
    | .error _ => (s, [])
  | .duplicate pane =>
    match s.duplicate pane with
    | .ok (s', id) => (s', [id])
    | .error _ => (s, [])
  | .duplicateMany panes =>
    match s.duplicateMany panes with
    | .ok (s', ids) => (s', ids)
    | .error _ => (s, [])
  | .teardown => (s.teardown, [])
  | .start backend =>
    match s.table.primary, s.start backend with
    | none, (s', .ok id) => (s', [id])
    | _, (s', _) => (s', [])
  | .openDocuments docs => s.openDocuments docs

/-- The session is orderly; each of its panes was opened and nobody expands it, or it was live
before and has the same lease. -/
structure Turns (s : Session) (opened : List PaneId) (s' : Session) : Prop where
  orderly : s'.Orderly
  nextLease : s'.table.nextLease = s.table.nextLease
  lease : ∀ {id p}, s'.table.pane? id = some p →
    (id ∈ opened ∧ p.lease = none) ∨
      (id ∉ opened ∧ ∃ q, s.table.pane? id = some q ∧ p.lease = q.lease)

theorem Orderly.turns_refl (h : s.Orderly) : s.Turns [] s :=
  ⟨h, rfl, fun {_ p} hp => .inr ⟨List.not_mem_nil, p, hp, rfl⟩⟩

theorem Turns.trans (h : s.Turns opened s') (h' : s'.Turns opened' s'') :
    s.Turns (opened ++ opened') s'' where
  orderly := h'.orderly
  nextLease := h'.nextLease.trans h.nextLease
  lease {id p} hp := by
    rw [List.mem_append]
    rcases h'.lease hp with ⟨hmem, hlease⟩ | ⟨hmem', q, hq, hlease⟩
    · exact .inl ⟨.inr hmem, hlease⟩
    · rcases h.lease hq with ⟨hmem, hnone⟩ | ⟨hmem, r, hr, hlease'⟩
      · exact .inl ⟨.inl hmem, hlease.trans hnone⟩
      · exact .inr ⟨not_or.2 ⟨hmem, hmem'⟩, r, hr, hlease.trans hlease'⟩

/-- What is derived for a pane afterwards makes no difference. -/
theorem Turns.touch (h : s.Turns opened s') (id : PaneId) (htouches : Touches id s' s'') :
    s.Turns opened s'' where
  orderly := h.orderly.of_alters htouches.toAlters
  nextLease := htouches.nextLease.trans h.nextLease
  lease hp := by
    obtain ⟨q, hq, hlease⟩ := htouches.pane?_left hp
    rw [← hlease]
    exact h.lease hq

theorem Turns.settle (h : s.Turns opened s') (id : PaneId) : s.Turns opened (s'.settle id) :=
  h.touch id (Touches.afterGrowth h.orderly id [])

/-- What a table reaches, a session with that table turns to. -/
theorem Orderly.turns (h : s.Orderly) (s' : Session) (hwatched : s'.watched.isEmpty = true)
    (hreaches : s.table.Reaches opened s'.table) : s.Turns opened s' := by
  obtain ⟨⟨rank, hwf⟩, hevolves⟩ := hreaches
  constructor
  case nextLease => exact hevolves.nextLease_eq
  case orderly =>
    refine ⟨⟨rank, hwf⟩, hwatched, fun {id p} hp => ?_⟩
    rcases hevolves.newcomer_or_survivor hp with ⟨-, huntouched⟩ | ⟨-, q, hq, hwork⟩
    · exact .of_untouched huntouched (hwf.rooted.linked.id_pane hp)
    · exact (h.inOrder hq).of_work_eq hwork
  case lease =>
    intro id p hp
    rcases hevolves.newcomer_or_survivor hp with ⟨hmem, huntouched⟩ | ⟨hmem, q, hq, hwork⟩
    · exact .inl ⟨hmem, huntouched.lease⟩
    · have hlease : (work p).lease = (work q).lease := congrArg Pane.lease hwork
      exact .inr ⟨hmem, q, hq, hlease⟩

/-! ## Closing, merging and copying -/

theorem Orderly.withTable {α : Type} {r : Except PaneError (PaneTable × α)} {a : α} (h : s.Orderly)
    (hs' : s.withTable r = .ok (s', a))
    (hreaches : ∀ {rank t}, s.table.WellFormed rank → r = .ok (t, a) → s.table.Reaches opened t) :
    s.Turns opened s' := by
  obtain ⟨rank, hwf⟩ := h.wellFormed
  match r with
  | .error _ => nomatch hs'
  | .ok (t, _) =>
    obtain ⟨rfl, rfl⟩ := Prod.mk.inj (Except.ok.inj hs')
    exact h.turns { s with table := t } h.unwatched (hreaches hwf rfl)

theorem Orderly.destroy (h : s.Orderly) {pane : PaneId} {cascade : Bool} {removed : List PaneId}
    (hdestroy : s.destroy pane cascade = .ok (s', removed)) : s.Turns [] s' := by
  obtain ⟨⟨u, gone⟩, hu, hdestroy⟩ := bind_eq_ok.1 hdestroy
  obtain ⟨rfl, rfl⟩ := Prod.mk.inj (Except.ok.inj hdestroy)
  have hturns : s.Turns [] u := h.withTable hu fun hwf => hwf.destroy
  rwa [recomputeWatched_eq hturns.orderly.unwatched]

theorem Orderly.merge (h : s.Orderly) {panes : List PaneId} {keep : Bool} {id : PaneId}
    (hmerge : s.merge panes keep = .ok (s', id)) : s.Turns [id] s' := by
  obtain ⟨⟨u, new⟩, hu, hmerge⟩ := bind_eq_ok.1 hmerge
  obtain ⟨rfl, rfl⟩ := Prod.mk.inj (Except.ok.inj hmerge)
  exact (h.withTable hu fun hwf => hwf.merge).settle new

theorem Orderly.duplicate (h : s.Orderly) {pane id : PaneId}
    (hduplicate : s.duplicate pane = .ok (s', id)) : s.Turns [id] s' := by
  obtain ⟨⟨u, new⟩, hu, hduplicate⟩ := bind_eq_ok.1 hduplicate
  obtain ⟨rfl, rfl⟩ := Prod.mk.inj (Except.ok.inj hduplicate)
  exact (h.withTable hu fun hwf => hwf.duplicate).settle new

theorem Turns.settleEach (h : s.Turns opened s') (ids : List PaneId) :
    s.Turns opened (ids.foldl Session.settle s') := by
  induction ids generalizing s' with
  | nil => exact h
  | cons id ids ih => exact ih (h.settle id)

theorem Orderly.duplicateMany (h : s.Orderly) {panes ids : List PaneId}
    (hduplicate : s.duplicateMany panes = .ok (s', ids)) : s.Turns ids s' := by
  obtain ⟨⟨u, new⟩, hu, hduplicate⟩ := bind_eq_ok.1 hduplicate
  obtain ⟨rfl, rfl⟩ := Prod.mk.inj (Except.ok.inj hduplicate)
  exact (h.withTable hu fun hwf => hwf.duplicateMany).settleEach new

/-! ## Ending, starting and importing -/

theorem Orderly.teardown (h : s.Orderly) : s.Turns [] s.teardown := by
  obtain ⟨rank, hwf⟩ := h.wellFormed
  obtain ⟨⟨rank', hcleared⟩, hevolves⟩ := hwf.clear
  -- Apart from the bus, the table is the cleared one.
  refine h.turns s.teardown rfl ⟨⟨rank', ?_⟩, hevolves.retouch ⟨fun _ => rfl, rfl⟩⟩
  exact hcleared.of_sameLineage ⟨rfl, rfl, rfl, fun _ => rfl⟩ hcleared.active_live

theorem Orderly.openPane (h : s.Orderly) {r : SpawnRequest} (hr : r.spawner = none) (s' : Session)
    (hwatched : s'.watched.isEmpty = true) (htable : s'.table = (s.table.openPane r).1) :
    s.Turns [(s.table.openPane r).2] s' := by
  obtain ⟨rank, hwf⟩ := h.wellFormed
  refine h.turns s' hwatched ?_
  rw [htable]
  exact hwf.openPane (by simp [hr])

theorem Orderly.openFirst (h : s.Orderly) (seed : Fragment) :
    s.Turns [(s.openFirst seed).2] (s.openFirst seed).1 :=
  (h.openPane rfl { s with table := _, started := true } h.unwatched rfl).settle _

/-- Unless there is a primary pane already, a session that starts opens the pane that it names. -/
theorem Orderly.start (h : s.Orderly) (backend : Backend Id) :
    s.Turns (s.turnOver (.start backend)).2 (s.turnOver (.start backend)).1 := by
  -- The schema is kept even if the initial fragment cannot be had.
  have hschema : ∀ schema, s.Turns [] { s with schema := schema } :=
    fun _ => ⟨⟨h.wellFormed, h.unwatched, h.inOrder⟩, rfl, h.turns_refl.lease⟩
  unfold turnOver Session.start
  cases hprimary : s.table.primary with
  | some id => exact h.turns_refl
  | none =>
    dsimp only
    cases hstatus : backend.status with
    | error e => exact h.turns_refl
    | ok project =>
      have hloaded := hschema project.schema
      cases hinitial : backend.initial with
      | error e => exact hloaded
      | ok seed =>
        dsimp only [bind, pure]
        exact hloaded.trans (hloaded.orderly.openFirst seed)

theorem Turns.openDocument (h : s.Turns opened s') (d : PaneDocument) :
    s.Turns (opened ++ [(s'.openDocument d).2]) (s'.openDocument d).1 := by
  refine h.trans ?_
  have hwarned : s'.Turns [] (s'.warnMismatches d) := by
    unfold warnMismatches
    split
    · exact h.orderly.turns_refl
    · exact h.orderly.turns_refl.touch d.pane (Touches.publish d.pane s' _)
  have hopen := hwarned.orderly.openPane (r := documentRequest d) rfl
  simp only [Session.openDocument]
  -- How the table opens the pane makes no difference any more.
  generalize PaneTable.openPane _ (documentRequest d) = named at hopen ⊢
  obtain ⟨table, id⟩ := named
  have hplaced := hwarned.trans
    (hopen { s'.warnMismatches d with table } hwarned.orderly.unwatched rfl)
  refine (hplaced.touch id ?_).settle id
  refine Touches.modify _ id (fun p => ?_) (fun _ => rfl) fun hp => ?_
  · simp only [kin]
  · exact ⟨hp.brush, hp.not_closed, hp.expanding⟩

theorem Turns.openNext {w : Session × List PaneId} (h : s.Turns w.2 w.1) (d : PaneDocument) :
    s.Turns (openNext w d).2 (openNext w d).1 := by
  have hnext := h.openDocument d
  unfold Session.openNext
  generalize Session.openDocument w.1 d = next at hnext ⊢
  exact hnext

theorem Orderly.openDocuments (h : s.Orderly) (docs : List PaneDocument) :
    s.Turns (s.openDocuments docs).2 (s.openDocuments docs).1 := by
  have hfold : ∀ w : Session × List PaneId, s.Turns w.2 w.1 →
      s.Turns (docs.foldl Session.openNext w).2 (docs.foldl Session.openNext w).1 := by
    induction docs with
    | nil => exact fun _ hw => hw
    | cons d docs ih =>
      intro w hw
      rw [List.foldl_cons]
      exact ih _ (hw.openNext d)
  have hall := hfold (s, []) h.turns_refl
  unfold Session.openDocuments
  generalize docs.foldl Session.openNext (s, []) = last at hall ⊢
  obtain ⟨t, ids⟩ := last
  exact ⟨⟨hall.orderly.wellFormed, hall.orderly.unwatched, hall.orderly.inOrder⟩, hall.nextLease,
    hall.lease⟩

/-- **Whatever closes or opens panes turns an orderly session into an orderly one.** -/
theorem Orderly.turnOver (h : s.Orderly) (c : Turnover) :
    s.Turns (s.turnOver c).2 (s.turnOver c).1 := by
  cases c with
  | destroy pane cascade =>
    simp only [Session.turnOver]
    split
    next hok => exact h.destroy hok
    next => exact h.turns_refl
  | merge panes keep =>
    simp only [Session.turnOver]
    split
    next hok => exact h.merge hok
    next => exact h.turns_refl
  | duplicate pane =>
    simp only [Session.turnOver]
    split
    next hok => exact h.duplicate hok
    next => exact h.turns_refl
  | duplicateMany panes =>
    simp only [Session.turnOver]
    split
    next hok => exact h.duplicateMany hok
    next => exact h.turns_refl
  | teardown => exact h.teardown
  | start backend => exact h.start backend
  | openDocuments docs => exact h.openDocuments docs

end Session

end StateAtlas
