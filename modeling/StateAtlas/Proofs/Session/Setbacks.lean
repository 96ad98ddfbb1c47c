import StateAtlas.Proofs.Graph.Following
import StateAtlas.Proofs.Session.Merges
import StateAtlas.Proofs.Session.Resting
import StateAtlas.Proofs.Session.Tickets
/-!
Expansions that come to nothing.

A pane gives out a ticket for an expansion or for a step of a run, and then nothing is merged: the fetch
fails, what was fetched is held back and perhaps cancelled as well, or the ticket is dropped.  In the
end the pane has no lease out and is as it was but for the phase that it entered last, which need not be
the one that it shows.  So whatever was planned can be planned again, and comes to the same nodes.

`Restored` says what such an attempt leaves.  It is shown for one attempt from a pane at rest, and as the
pane is at rest again afterwards, for any number of them.

Main statement: `attempts_leave_no_trace`.
-/

namespace StateAtlas

open PaneTable

namespace Pane

variable {p q : Pane}

/-- The pane while a lease on it is out. -/
def lent (p : Pane) (number : Nat) : Pane := { p with entered := .expanding, lease := some number }

/-- A pane at rest gives out the lease that it is asked for. -/
theorem AtRest.beginExpansion (h : p.AtRest) (number : Nat) :
    p.beginExpansion number = .ok (p.lent number) := by
  unfold Pane.beginExpansion
  rw [h.2]
  unfold restingPhase
  split
  next hphase => split at hphase <;> nomatch hphase
  next hphase => split at hphase <;> nomatch hphase
  next => rfl

theorem atRest_endExpansion_lent (p : Pane) (number : Nat) : (p.lent number).endExpansion.AtRest :=
  Settled.endExpansion (.inr ⟨by simp [lent], rfl⟩)

theorem still_endExpansion_lent (p : Pane) (number : Nat) :
    (p.lent number).endExpansion.still = p.still :=
  still_endExpansion _

theorem atRest_release_lent (p : Pane) (number : Nat) :
    ((p.lent number).release number).AtRest := by
  have hrelease : (p.lent number).release number = { p with entered := .expanding, lease := none } :=
    if_pos rfl
  rw [hrelease]
  exact atRest_of_entered rfl (.inr rfl)

end Pane

namespace Session

variable {s s' s'' : Session} {p q : Pane} {pane : PaneId} {t : Ticket} {planned : List NodeId}

/-! ## Attempts -/

/-- A pane gives out a ticket, for an expansion or for a step of a run. -/
inductive Begins (s : Session) (pane : PaneId) : Session → Ticket → Prop
  | expansion {frontier : List NodeId} {s' : Session} {t : Ticket}
      (h : s.beginExpansion pane frontier = .ok (s', t)) : Begins s pane s' t
  | step {run run' : BestPathRun} {s' : Session} {t : Ticket}
      (h : s.bestPathStep pane run = (run', .ok (s', .fetch t))) : Begins s pane s' t

/-- What was fetched for a ticket is held back. -/
inductive Withholds (s : Session) (t : Ticket) (pending : Pending) : Session → Prop
  | expansion {g : Fragment} {s' : Session}
      (h : s.finish t (.ok g) = (s', .ok (.capacityExceeded pending))) : Withholds s t pending s'
  /-- It was fetched for a run, which stops. -/
  | run {run run' : BestPathRun} {g : Fragment} {s' : Session} (hrun : run.stop = none)
      (h : s.advanceBestPath run t (.ok g) = .ok (s', run'))
      (hstop : run'.stop = some (.capacity pending)) : Withholds s t pending s'

/-- An expansion for which a ticket is out ends without a merge. -/
inductive Lapses (s : Session) (t : Ticket) : Session → Prop
  /-- The fetch fails. -/
  | failed (e : ExploreError) : Lapses s t (s.finish t (.error e)).1
  | heldBack {s' : Session} {pending : Pending} (h : s.Withholds t pending s') : Lapses s t s'
  | dropped : Lapses s t (s.drop t)
  /-- The fetch for a run fails. -/
  | runFailed {run run' : BestPathRun} {e : ExploreError} {s' : Session}
      (h : s.advanceBestPath run t (.error e) = .ok (s', run')) : Lapses s t s'
  /-- What was held back is cancelled. -/
  | cancelled {s' s'' : Session} {pending : Pending} {r : Resolution} (h : Lapses s t s')
      (hcancel : s'.resolve t.pane pending .cancel = .ok (s'', r)) : Lapses s t s''
  /-- A run that has stopped reports, which warns of a failure. -/
  | reported {s' s'' : Session} {run run' : BestPathRun} {report : BestPathReport}
      (h : Lapses s t s') (hdone : s'.bestPathStep t.pane run = (run', .ok (s'', .done report))) :
      Lapses s t s''

/-- Expansions of a pane were begun, one after the other, and each came to nothing. -/
inductive Attempted (pane : PaneId) (s : Session) : Session → Prop
  | none : Attempted pane s s
  | again {s' u s'' : Session} {t : Ticket} (h : Attempted pane s s') (hbegins : s'.Begins pane u t)
      (hlapses : u.Lapses t s'') : Attempted pane s s''

/-! ## What they leave -/

/-- The bus after warnings about a pane. -/
def warned (b : Bus) (pane : PaneId) (messages : List String) : Bus :=
  (messages.map (Event.warning (some pane))).foldl Bus.publish b

/-- A session differs from another in the phase that a pane entered last, where the pane is at rest,
and otherwise at most in the number of the next lease and by warnings about the pane. -/
structure Restored (s : Session) (p : Pane) (s' : Session) : Prop where
  pane : ∃ q, s'.table.pane? p.id = some q ∧ q.still = p.still ∧ q.AtRest
  others : ∀ k, k ≠ p.id → s'.table.pane? k = s.table.pane? k
  rest : { s' with table := { s'.table with
    live := s.table.live, nextLease := s.table.nextLease, bus := s.table.bus } } = s
  told : ∃ messages, s'.table.bus = warned s.table.bus p.id messages

theorem Restored.refl (hp : s.table.pane? p.id = some p) (hrest : p.AtRest) : Restored s p s :=
  ⟨⟨p, hp, rfl, hrest⟩, fun _ _ => rfl, rfl, [], rfl⟩

/-- The pane afterwards, under its own name. -/
theorem Restored.exists_pane (h : Restored s p s') :
    ∃ q, s'.table.pane? q.id = some q ∧ q.AtRest ∧ q.still = p.still ∧ q.id = p.id ∧
      q.store = p.store := by
  obtain ⟨q, hq, hstill, hrest⟩ := h.pane
  have hid : q.id = p.id := (congrArg Pane.id hstill :)
  exact ⟨q, hid.symm ▸ hq, hrest, hstill, hid, (congrArg Pane.store hstill :)⟩

theorem Restored.trans (h : Restored s p s') (hid : q.id = p.id) (hstill : q.still = p.still)
    (h' : Restored s' q s'') : Restored s p s'' := by
  obtain ⟨messages, htold⟩ := h.told
  obtain ⟨messages', htold'⟩ := h'.told
  refine ⟨?pane, fun k hk => ?others, ?rest, messages ++ messages', ?told⟩
  case pane =>
    obtain ⟨r, hr, hsame, hrest⟩ := h'.pane
    exact ⟨r, hid ▸ hr, hsame.trans hstill, hrest⟩
  case others => exact (h'.others k (hid ▸ hk)).trans (h.others k hk)
  case rest =>
    have hback := h.rest
    rw [← h'.rest] at hback
    exact hback
  case told =>
    rw [htold', htold, hid]
    simp only [warned, List.map_append, List.foldl_append]

/-- A warning about the pane changes nothing else. -/
theorem Restored.warn (h : Restored s p s') (message : String) :
    Restored s p (s'.warn (some p.id) message) := by
  obtain ⟨messages, htold⟩ := h.told
  refine ⟨h.pane, h.others, h.rest, messages ++ [message], ?_⟩
  show s'.table.bus.publish _ = _
  rw [htold]
  simp only [warned, List.map_append, List.foldl_append, List.map_cons, List.map_nil,
    List.foldl_cons, List.foldl_nil]

/-- A run that has stopped warns at most. -/
theorem Restored.warnHalted (h : Restored s p s') (stop : StopReason) :
    Restored s p (s'.warnHalted p.id stop) := by
  unfold Session.warnHalted
  split
  · exact h.warn _
  · exact h

/-! ## One attempt -/

/-- The session in which a pane has given out the next lease. -/
def lend (s : Session) (p : Pane) : Session :=
  { s with table := { s.table.modify p.id (fun _ => p.lent s.table.nextLease) with
    nextLease := s.table.nextLease + 1 } }

/-- The ticket for planned nodes that a pane gives out next. -/
def nextTicket (s : Session) (p : Pane) (planned : List NodeId) : Ticket :=
  ⟨⟨p.id, s.table.nextLease⟩, planned⟩

theorem pane?_lend (hp : s.table.pane? p.id = some p) :
    (s.lend p).table.pane? p.id = some (p.lent s.table.nextLease) := by
  have hlent : (s.lend p).table.pane? p.id = (s.table.pane? p.id).map _ :=
    pane?_modify_self s p.id _
  rw [hlent, hp, Option.map_some]

/-- A pane at rest gives out a ticket for whatever is planned. -/
theorem issue_of_atRest (s : Session) (hrest : p.AtRest) (planned : List NodeId) :
    s.issue p planned = .ok (s.lend p, s.nextTicket p planned) := by
  simp only [Session.issue, if_neg hrest.not_closed, PaneTable.beginExpansion,
    hrest.beginExpansion, bind, Except.bind, Except.mapError, pure, Except.pure]
  rfl

theorem beginExpansion_of_atRest (hp : s.table.pane? p.id = some p) (hrest : p.AtRest)
    (frontier : List NodeId) :
    s.beginExpansion p.id frontier =
      .ok (s.lend p, s.nextTicket p (p.store.plan frontier)) := by
  unfold Session.beginExpansion
  rw [get_eq_ok.2 hp]
  exact s.issue_of_atRest hrest _

theorem bestPathStep_of_atRest (hp : s.table.pane? p.id = some p) (hrest : p.AtRest)
    {run run' : BestPathRun} (hnext : run.next p.store = (run', .fetch planned)) :
    s.bestPathStep p.id run = (run', .ok (s.lend p, .fetch (s.nextTicket p planned))) := by
  unfold Session.bestPathStep
  rw [get_eq_ok.2 hp]
  simp only [hnext, s.issue_of_atRest hrest planned]

/-- **Whatever begins with a pane gives out its lease for nodes that it holds.** -/
theorem Begins.issued (h : s.Begins pane s' t) :
    ∃ p planned, s.table.pane? pane = some p ∧ s.issue p planned = .ok (s', t) ∧
      ∀ id ∈ planned, p.store.hasNode id = true := by
  have hplan : ∀ (u : Store) frontier, ∀ id ∈ u.plan frontier, u.hasNode id = true :=
    fun u frontier id hid => (Store.mem_plan_iff.1 hid).2.1
  cases h with
  | expansion h =>
    obtain ⟨p, hget, hissue⟩ := bind_eq_ok.1 h
    exact ⟨p, _, get_eq_ok.1 hget, hissue, hplan _ _⟩
  | @step run run' s' t h =>
    unfold Session.bestPathStep at h
    split at h
    next => simp at h
    next p hget =>
      split at h
      next => simp at h
      next planned hnext =>
        split at h
        next => simp at h
        next hissue =>
          simp only [Prod.mk.injEq, Except.ok.injEq, PathStep.fetch.injEq] at h
          obtain ⟨-, rfl, rfl⟩ := h
          refine ⟨p, planned, get_eq_ok.1 hget, hissue, ?_⟩
          rw [BestPathRun.planned_of_next_eq_fetch hnext]
          exact hplan _ _

/-- What begins with a pane at rest is a ticket for its next lease. -/
theorem Begins.eq (hp : s.table.pane? p.id = some p) (hrest : p.AtRest)
    (h : s.Begins p.id s' t) : s' = s.lend p ∧ ∃ planned, t = s.nextTicket p planned := by
  obtain ⟨q, planned, hq, hissue, -⟩ := h.issued
  obtain rfl := Option.some.inj (hp.symm.trans hq)
  rw [s.issue_of_atRest hrest planned] at hissue
  obtain ⟨rfl, rfl⟩ := Prod.mk.inj (Except.ok.inj hissue)
  exact ⟨rfl, planned, rfl⟩

/-- Whatever a lent pane is put back to: it is restored if it is at rest and otherwise the same. -/
theorem restored_modify_lend (hp : s.table.pane? p.id = some p) {f : Pane → Pane}
    (hstill : (f (p.lent s.table.nextLease)).still = p.still)
    (hrest : (f (p.lent s.table.nextLease)).AtRest) :
    Restored s p ((s.lend p).modify p.id f) := by
  refine ⟨⟨f (p.lent s.table.nextLease), ?_, hstill, hrest⟩, fun k hk => ?_, rfl, [], rfl⟩
  · rw [pane?_modify_self, pane?_lend hp, Option.map_some]
  · exact (pane?_modify_of_ne (s.lend p) hk f).trans (pane?_modify_of_ne s hk _)

theorem restored_ended (hp : s.table.pane? p.id = some p) :
    Restored s p ((s.lend p).modify p.id fun _ => (p.lent s.table.nextLease).endExpansion) :=
  restored_modify_lend hp (p.still_endExpansion_lent _) (p.atRest_endExpansion_lent _)

/-- **What is held back ends the expansion of the ticket's pane and changes nothing else.** -/
theorem Withholds.eq {pending : Pending} (h : s.Withholds t pending s') :
    ∃ p g, s.table.pane? t.pane = some p ∧ s' = s.modify t.pane (fun _ => p.endExpansion) ∧
      pending.frontier = t.planned ∧ pending.fetched = g := by
  cases h with
  | @expansion g s' h =>
    unfold Session.finish at h
    cases hget : s.get t.pane with
    | error e => simp [hget] at h
    | ok p =>
      simp only [hget, mergeInto] at h
      rcases p.store.commit_cases t.planned g (some (p.capacity s.options.paneNodeCeiling)) with
        ⟨held, hcommit, hfrontier, hfetched⟩ | hcommit
      · simp only [hcommit, Prod.mk.injEq, Except.ok.injEq, Outcome.capacityExceeded.injEq] at h
        obtain ⟨rfl, rfl⟩ := h
        exact ⟨p, g, get_eq_ok.1 hget, rfl, hfrontier, hfetched⟩
      · simp [hcommit] at h
  | @run run run' g s' hrun h hstop =>
    unfold Session.advanceBestPath at h
    obtain ⟨p, hget, h⟩ := bind_eq_ok.1 h
    simp only [mergeFetched, mergeInto] at h
    rcases p.store.commit_cases t.planned g (some (p.capacity s.options.paneNodeCeiling)) with
      ⟨held, hcommit, hfrontier, hfetched⟩ | hcommit
    · rw [hcommit] at h
      obtain ⟨rfl, rfl⟩ := Prod.mk.inj (Except.ok.inj h)
      obtain rfl : held = pending := by
        simpa [BestPathRun.record, hrun] using hstop
      exact ⟨p, g, get_eq_ok.1 hget, rfl, hfrontier, hfetched⟩
    · rw [hcommit] at h
      obtain ⟨-, rfl⟩ := Prod.mk.inj (Except.ok.inj h)
      exact absurd hstop (BestPathRun.stop_record_merged_ne hrun _ _ _)

/-- **An expansion that comes to nothing leaves a pane at rest as it was.** -/
theorem Lapses.restored (hp : s.table.pane? p.id = some p)
    (h : (s.lend p).Lapses (s.nextTicket p planned) s') : Restored s p s' := by
  have hlent := get_eq_ok.2 (pane?_lend hp)
  induction h with
  | failed e =>
    unfold Session.finish
    simp only [nextTicket, Ticket.pane, hlent]
    exact (restored_modify_lend hp (p.still_endExpansion_lent _)
      (p.atRest_endExpansion_lent _)).warn _
  | heldBack h =>
    obtain ⟨q, -, hq, rfl, -⟩ := h.eq
    obtain rfl := Option.some.inj (hq.symm.trans (pane?_lend hp))
    exact restored_ended hp
  | dropped =>
    exact restored_modify_lend hp (Pane.still_release _ _) (p.atRest_release_lent _)
  | @runFailed run run' e s' h =>
    unfold Session.advanceBestPath at h
    simp only [nextTicket, Ticket.pane, hlent, mergeFetched, bind, Except.bind] at h
    obtain ⟨rfl, -⟩ := Prod.mk.inj (Except.ok.inj h)
    exact restored_ended hp
  | cancelled _ hcancel ih =>
    obtain ⟨rfl, -⟩ := Prod.mk.inj (Except.ok.inj hcancel)
    exact ih
  | @reported s' s'' run run' report _ hdone ih =>
    unfold Session.bestPathStep at hdone
    split at hdone
    next => simp at hdone
    next q _ =>
      split at hdone
      next r report' _ =>
        simp only [Prod.mk.injEq, Except.ok.injEq, PathStep.done.injEq] at hdone
        obtain ⟨-, rfl, -⟩ := hdone
        exact ih.warnHalted _
      next => split at hdone <;> simp at hdone

/-! ## Any number of attempts -/

/-- Attempts that come to nothing leave a pane at rest as it was. -/
theorem Attempted.restored (hp : s.table.pane? p.id = some p) (hrest : p.AtRest)
    (h : s.Attempted p.id s') : Restored s p s' := by
  induction h with
  | none => exact Restored.refl hp hrest
  | again _ hbegins hlapses ih =>
    obtain ⟨q, hq, hquiet, hstill, hid, -⟩ := ih.exists_pane
    rw [← hid] at hbegins
    obtain ⟨rfl, planned, rfl⟩ := hbegins.eq hq hquiet
    exact ih.trans hid hstill (hlapses.restored hq)

/-- What the pane plans is planned again and comes to the same. -/
theorem Restored.beginExpansion (h : Restored s p s') (frontier : List NodeId) :
    ∃ u t, s'.beginExpansion p.id frontier = .ok (u, t) ∧ t.planned = p.store.plan frontier := by
  obtain ⟨q, hq, hrest, -, hid, hstore⟩ := h.exists_pane
  have hbegin := beginExpansion_of_atRest hq hrest frontier
  rw [hid] at hbegin
  exact ⟨_, _, hbegin, congrArg (Store.plan · frontier) hstore⟩

@[inherit_doc Restored.beginExpansion]
theorem Restored.bestPathStep (h : Restored s p s') {run run' : BestPathRun}
    (hnext : run.next p.store = (run', .fetch planned)) :
    ∃ u t, s'.bestPathStep p.id run = (run', .ok (u, .fetch t)) ∧ t.planned = planned := by
  obtain ⟨q, hq, hrest, -, hid, hstore⟩ := h.exists_pane
  have hstep := bestPathStep_of_atRest hq hrest (hstore.symm ▸ hnext)
  rw [hid] at hstep
  exact ⟨_, _, hstep, rfl⟩

/-- A failed fetch can be told for every ticket, and the run for which it was stops with it. -/
theorem Restored.told_failure (h : Restored s p s') {u : Session}
    (hbegins : s'.Begins p.id u t) (e : ExploreError) (run : BestPathRun) :
    (u.finish t (.error e)).2 = .error (.explore e) ∧
      ∃ s'', u.advanceBestPath run t (.error e) = .ok (s'', run.record p.store (.error e)) := by
  obtain ⟨q, hq, hrest, -, hid, hstore⟩ := h.exists_pane
  rw [← hid] at hbegins
  obtain ⟨rfl, planned, rfl⟩ := hbegins.eq hq hrest
  have hlent := get_eq_ok.2 (pane?_lend hq)
  have hkept : (q.lent s'.table.nextLease).endExpansion.store = p.store :=
    (congrArg Pane.store (q.still_endExpansion_lent s'.table.nextLease) :).trans hstore
  constructor
  · simp only [Session.finish, nextTicket, Ticket.pane, hlent]
  · simp only [Session.advanceBestPath, nextTicket, Ticket.pane, hlent, mergeFetched, bind,
      Except.bind, hkept]
    exact ⟨_, rfl⟩

/-! ### An expansion that is held back -/

/-- A session with room for a single node on display, which its first pane has. -/
def crowded : Session :=
  ((vacant { ({} : Config).options with paneNodeCeiling := 1 } {}).serveAll (.constant deadlock)
    [.session .start] ()).1

/-- What is fetched for that node. -/
def crowding : Fragment := { nodes := [{ id := ⟨"x"⟩, kind := .state }] }

theorem heldBack_crowding {u : Session} {t : Ticket}
    (h : crowded.beginExpansion original [⟨"s0"⟩] = .ok (u, t)) :
    ∃ s' pending, u.finish t (.ok crowding) = (s', .ok (.capacityExceeded pending)) := by
  have hheld : (crowded.beginExpansion original [⟨"s0"⟩]).toOption.any (fun r =>
      ((r.1.finish r.2 (.ok crowding)).2.toOption.bind Outcome.pending?).isSome) = true := by
    decide +kernel
  rw [h, Except.toOption, Option.any_some] at hheld
  cases hfinish : u.finish t (.ok crowding) with
  | mk s' result =>
    rw [hfinish] at hheld
    match result, hheld with
    | .ok (.capacityExceeded pending), _ => exact ⟨s', pending, rfl⟩

end Session

open Session

/-- **Expansions that come to nothing leave no trace and can be tried again.**  Whatever was asked of a
session, past it of its table, and of its panes as long as that does not meddle with their phases: a
live pane whose lease is not out is at rest.  However often an expansion of it, or a step of a run, is
begun and then fails, is held back, is cancelled or has its ticket dropped, the pane is as it was and
at rest, the other panes and all else are as they were, and nothing is announced but warnings about
the pane.  Each frontier can be planned again, and so can each step of a run, and comes to the same
nodes. -/
theorem attempts_leave_no_trace {σ : Type} (backend : Backend (StateM σ)) (env : σ)
    (options : SessionOptions) (bus : Bus) (requests : List Request)
    (hrequests : ∀ r ∈ requests, r.KeepsRest) :
    let s := ((Session.vacant options bus).serveAll backend requests env).1
    ∀ (pane : PaneId) (p : Pane), s.table.pane? pane = some p → p.lease = none →
      p.phase = (if p.store.isEmpty then .collapsed else .seeded) ∧
      ∀ s', s.Attempted pane s' →
        Restored s p s' ∧
        (∀ frontier, ∃ u t, s'.beginExpansion pane frontier = .ok (u, t) ∧
          t.planned = p.store.plan frontier) ∧
        (∀ run run' planned, run.next p.store = (run', .fetch planned) →
          run'.next p.store = (run', .fetch planned) ∧
          ∃ u t, s'.bestPathStep pane run = (run', .ok (u, .fetch t)) ∧ t.planned = planned) ∧
        ∀ u t, s'.Begins pane u t → ∀ e run,
          (u.finish t (.error e)).2 = .error (.explore e) ∧
          ∃ s'', u.advanceBestPath run t (.error e) = .ok (s'', run.record p.store (.error e)) := by
  intro s pane p hp hlease
  have hs : s.Sound := (sound_vacant options bus).serveAll requests env
  have hsettled : s.Settled :=
    (settled_vacant options bus).serveAll (sound_vacant options bus) hrequests env
  have hrest : p.AtRest := (hsettled pane p hp).atRest hlease
  obtain rfl : p.id = pane := hs.id_pane hp
  refine ⟨hrest.2, fun s' hattempted => ?_⟩
  have hrestored := hattempted.restored hp hrest
  exact ⟨hrestored, hrestored.beginExpansion,
    fun run run' planned hnext =>
      ⟨BestPathRun.next_of_next_eq_fetch hnext, hrestored.bestPathStep hnext⟩,
    fun u t hbegins => hrestored.told_failure hbegins⟩

/-- What is fetched for the node of the crowded pane is held back and cancelled, and a ticket for a
second attempt is dropped.  The node can still be planned. -/
theorem attempts_leave_no_trace_crowded :
    ∃ p s', crowded.table.pane? original = some p ∧ p.lease = none ∧ p.phase = .seeded ∧
      crowded.Attempted original s' ∧ Restored crowded p s' ∧
      ∃ u t, s'.beginExpansion original [⟨"s0"⟩] = .ok (u, t) ∧ t.planned = [⟨"s0"⟩] := by
  have hlive : (crowded.table.pane? original).any (fun p =>
      p.lease = none && !p.store.isEmpty && p.store.plan [⟨"s0"⟩] = [⟨"s0"⟩]) = true := by
    decide +kernel
  obtain ⟨p, hp, hfacts⟩ := (Option.any_eq_true _ _).1 hlive
  simp only [Bool.and_eq_true, decide_eq_true_eq, Bool.not_eq_true'] at hfacts
  obtain ⟨⟨hlease, hheld⟩, hplan⟩ := hfacts
  obtain ⟨hphase, hattempts⟩ := attempts_leave_no_trace (.constant deadlock) ()
    { ({} : Config).options with paneNodeCeiling := 1 } {} [.session .start]
    (by simp [Request.KeepsRest]) original p hp hlease
  -- The first attempt.
  obtain ⟨-, hbegin, -⟩ := hattempts crowded .none
  obtain ⟨u, t, hu, -⟩ := hbegin [⟨"s0"⟩]
  obtain ⟨s', pending, hfinish⟩ := heldBack_crowding hu
  have hcancel : s'.resolve t.pane pending .cancel = .ok (s', .cancelled) := rfl
  have hfirst : crowded.Attempted original s' :=
    .again .none (.expansion hu) (.cancelled (.heldBack (.expansion hfinish)) hcancel)
  -- The second.
  obtain ⟨-, hbegin', -⟩ := hattempts s' hfirst
  obtain ⟨u', t', hu', -⟩ := hbegin' [⟨"s0"⟩]
  have hsecond : crowded.Attempted original (u'.drop t') := .again hfirst (.expansion hu') .dropped
  obtain ⟨hrestored, hbegin'', -⟩ := hattempts _ hsecond
  refine ⟨p, u'.drop t', hp, hlease, by rw [hphase, hheld]; rfl, hsecond, hrestored, ?_⟩
  obtain ⟨u'', t'', hu'', hplanned⟩ := hbegin'' [⟨"s0"⟩]
  exact ⟨u'', t'', hu'', hplanned.trans hplan⟩

end StateAtlas
