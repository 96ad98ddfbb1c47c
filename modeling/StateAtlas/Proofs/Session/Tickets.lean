import StateAtlas.Proofs.Except
import StateAtlas.Proofs.Session.Alteration
import StateAtlas.Session.BestPath
/-!
What tickets do to an orderly session.

A pane whose lease is out gives out no ticket.  A ticket that is given out takes the lease of an
idle pane; using a ticket up changes the pane of its name only.  Finishing an expansion frees that
pane whoever holds its lease, whereas a ticket that is dropped frees the pane only of its own lease.
-/

namespace StateAtlas

open PaneTable

namespace Session

variable {s s' : Session} {id : PaneId} {p : Pane} {t : Ticket} {planned : List NodeId}

theorem get_eq_ok : s.get id = .ok p ↔ s.table.pane? id = some p :=
  mapError_eq_ok.trans PaneTable.get_eq_ok

/-! ## Giving tickets out -/

/-- A ticket was given out for a pane that was idle, and holds the pane's lease. -/
structure Grants (s : Session) (t : Ticket) (s' : Session) : Prop extends Alters t.pane s s' where
  number : t.lease.number = s.table.nextLease
  nextLease : s'.table.nextLease = s.table.nextLease + 1
  idle : ∃ p, s.table.pane? t.pane = some p ∧ p.lease = none
  out : ∃ p, s'.table.pane? t.pane = some p ∧ p.lease = some t.lease.number

/-- Only an idle pane begins to expand. -/
theorem beginExpansion_eq_ok {number : Nat} {q : Pane} (h : p.InOrder id)
    (hbegin : p.beginExpansion number = .ok q) :
    p.lease = none ∧ q = { p with entered := .expanding, lease := some number } := by
  unfold Pane.beginExpansion at hbegin
  split at hbegin
  next => nomatch hbegin
  next => nomatch hbegin
  next hphase _ =>
    -- With its lease out it would be expanding.
    refine ⟨Decidable.not_not.1 fun hlease => ?_, (Except.ok.inj hbegin).symm⟩
    exact hphase (h.phase_eq hlease)

theorem Orderly.issue (h : s.Orderly) (hp : s.table.pane? id = some p)
    (hissue : s.issue p planned = .ok (s', t)) : s.Grants t s' ∧ t.pane = id := by
  obtain rfl : p.id = id := h.id_pane hp
  unfold Session.issue at hissue
  rw [if_neg (h.inOrder hp).not_closed] at hissue
  obtain ⟨⟨u, lease⟩, hu, hissue⟩ := bind_eq_ok.1 hissue
  obtain ⟨rfl, rfl⟩ := Prod.mk.inj (Except.ok.inj hissue)
  obtain ⟨q, hq, hu⟩ := bind_eq_ok.1 (mapError_eq_ok.1 hu)
  obtain ⟨rfl, rfl⟩ := Prod.mk.inj (Except.ok.inj hu)
  obtain ⟨hidle, rfl⟩ := beginExpansion_eq_ok (h.inOrder hp) hq
  let q : Pane := { p with entered := .expanding, lease := some s.table.nextLease }
  have hreplace : Alters p.id s (s.modify p.id fun _ => q) :=
    Alters.replace hp rfl fun hin => ⟨hin.brush, by simp [q], fun _ => rfl⟩
  have hq : (s.modify p.id fun _ => q).table.pane? p.id = some q := by
    rw [pane?_modify_self, hp, Option.map_some]
  have halters : Alters p.id s { s with table := { s.table.modify p.id (fun _ => q) with
      nextLease := s.table.nextLease + 1 } } :=
    ⟨hreplace.lineage.trans ⟨rfl, rfl, rfl, fun _ => rfl⟩, rfl, rfl, hreplace.others,
      hreplace.inOrder⟩
  exact ⟨⟨halters, rfl, rfl, ⟨p, hp, hidle⟩, ⟨q, hq, rfl⟩⟩, rfl⟩

/-- A pane whose lease is out refuses to begin. -/
theorem Orderly.issue_busy (h : s.Orderly) (hp : s.table.pane? id = some p)
    (hlease : p.lease ≠ none) (planned : List NodeId) :
    s.issue p planned = .error (.explore (.busy id)) := by
  obtain rfl : p.id = id := h.id_pane hp
  have hphase : p.phase = .expanding := (h.inOrder hp).phase_eq hlease
  unfold Session.issue
  rw [if_neg (h.inOrder hp).not_closed]
  simp [PaneTable.beginExpansion, Pane.beginExpansion, hphase, bind, Except.bind, mapError_error]

theorem Orderly.beginExpansion (h : s.Orderly) {frontier : List NodeId}
    (hbegin : s.beginExpansion id frontier = .ok (s', t)) : s.Grants t s' := by
  obtain ⟨p, hp, hissue⟩ := bind_eq_ok.1 hbegin
  exact (h.issue (get_eq_ok.1 hp) hissue).1

theorem Orderly.beginExpansion_busy (h : s.Orderly) (hp : s.table.pane? id = some p)
    (hlease : p.lease ≠ none) (frontier : List NodeId) :
    s.beginExpansion id frontier = .error (.explore (.busy id)) := by
  unfold Session.beginExpansion
  rw [get_eq_ok.2 hp]
  exact h.issue_busy hp hlease _

theorem Orderly.bestPathStep (h : s.Orderly) {run run' : BestPathRun}
    (hstep : s.bestPathStep id run = (run', .ok (s', .fetch t))) : s.Grants t s' := by
  unfold Session.bestPathStep at hstep
  split at hstep
  next => simp at hstep
  next p hp =>
    split at hstep
    next => simp at hstep
    next planned _ =>
      split at hstep
      next => simp at hstep
      next hissue =>
        simp only [Prod.mk.injEq, Except.ok.injEq, PathStep.fetch.injEq] at hstep
        obtain ⟨-, rfl, rfl⟩ := hstep
        exact (h.issue (get_eq_ok.1 hp) hissue).1

theorem Orderly.bestPathStep_busy (h : s.Orderly) (hp : s.table.pane? id = some p)
    (hlease : p.lease ≠ none) {run run' : BestPathRun}
    (hnext : run.next p.store = (run', .fetch planned)) :
    s.bestPathStep id run = (run', .error (.explore (.busy id))) := by
  unfold Session.bestPathStep
  rw [get_eq_ok.2 hp]
  simp only [hnext, h.issue_busy hp hlease planned]

/-- A run that is done changes no pane. -/
theorem touches_of_done {run run' : BestPathRun} {report : BestPathReport}
    (hstep : s.bestPathStep id run = (run', .ok (s', .done report))) : Touches id s s' := by
  unfold Session.bestPathStep at hstep
  split at hstep
  next => simp at hstep
  next =>
    split at hstep
    next r report' _ =>
      simp only [Prod.mk.injEq, Except.ok.injEq, PathStep.done.injEq] at hstep
      obtain ⟨-, rfl, -⟩ := hstep
      unfold warnHalted
      split
      · exact Touches.publish id s _
      · exact Touches.refl id s
    next => split at hstep <;> simp at hstep

/-! ## Using tickets up -/

/-- Of all panes only the one of the ticket's name changed, and it does not hold the ticket's lease
any more. -/
structure Settles (s : Session) (t : Ticket) (s' : Session) : Prop extends Alters t.pane s s' where
  nextLease : s'.table.nextLease = s.table.nextLease
  freed : ∀ p, s.table.pane? t.pane = some p → p.lease = some t.lease.number →
    ∃ q, s'.table.pane? t.pane = some q ∧ q.lease = none

/-- Of all panes only the one of the ticket's name changed, and no lease on it is out any more. -/
structure Ends (s : Session) (t : Ticket) (s' : Session) : Prop extends Alters t.pane s s' where
  nextLease : s'.table.nextLease = s.table.nextLease
  freed : ∀ p, s.table.pane? t.pane = some p → ∃ q, s'.table.pane? t.pane = some q ∧ q.lease = none

theorem Ends.settles (h : s.Ends t s') : s.Settles t s' :=
  ⟨h.toAlters, h.nextLease, fun p hp _ => h.freed p hp⟩

/-- Without a pane of the ticket's name nothing changes. -/
theorem Settles.pane?_eq (h : s.Settles t s') (hlive : ¬s.table.contains t.pane = true)
    (k : PaneId) : s'.table.pane? k = s.table.pane? k := by
  by_cases hk : k = t.pane
  · have hnone : s.table.pane? t.pane = none := Option.not_isSome_iff_eq_none.1 hlive
    rw [← h.lineage.contains] at hlive
    have hnone' : s'.table.pane? t.pane = none := Option.not_isSome_iff_eq_none.1 hlive
    rw [hk, hnone, hnone']
  · exact h.others k hk

theorem ends_refl (h : s.table.pane? t.pane = none) : s.Ends t s := by
  refine ⟨(Touches.refl t.pane s).toAlters, rfl, fun p hp => ?_⟩
  rw [h] at hp
  nomatch hp

theorem Ends.touch {s'' : Session} (h : s.Ends t s') (htouches : Touches t.pane s' s'') :
    s.Ends t s'' := by
  refine ⟨h.toAlters.trans htouches.toAlters, htouches.nextLease.trans h.nextLease, fun p hp => ?_⟩
  obtain ⟨q, hq, hnone⟩ := h.freed p hp
  have heq := htouches.lease
  rw [hq, Option.map_some, hnone] at heq
  obtain ⟨r, hr, hlease⟩ := Option.map_eq_some_iff.1 heq
  exact ⟨r, hr, hlease⟩

/-- A pane whose expansion has ended is put in the place of the pane. -/
theorem Orderly.ends_replace (h : s.Orderly) (hp : s.table.pane? t.pane = some p) (store : Store) :
    s.Ends t (s.modify t.pane fun _ => { p with store }.endExpansion) := by
  let q : Pane := { p with store }
  obtain ⟨hbrush, hnot_closed, hexpanding⟩ := h.inOrder hp
  have hq : q.InOrder t.pane := ⟨hbrush, hnot_closed, hexpanding⟩
  refine ⟨Alters.replace hp q.kin_endExpansion fun _ => hq.endExpansion, rfl, fun _ _ => ?_⟩
  refine ⟨q.endExpansion, ?_, hq.lease_endExpansion⟩
  rw [pane?_modify_self, hp, Option.map_some]

theorem Orderly.drop (_h : s.Orderly) (t : Ticket) : s.Settles t (s.drop t) := by
  have hdrop : s.drop t = s.modify t.pane fun p => p.release t.lease.number := rfl
  rw [hdrop]
  refine ⟨Alters.modify s t.pane (fun p => p.kin_release _) fun hp => hp.release _, rfl, ?_⟩
  intro p hp hlease
  refine ⟨p.release t.lease.number, ?_, ?_⟩
  · rw [pane?_modify_self, hp, Option.map_some]
  · rw [Pane.release, if_pos hlease]

theorem Orderly.ends_modify (h : s.Orderly) (t : Ticket) :
    s.Ends t (s.modify t.pane Pane.endExpansion) := by
  have halters := Alters.modify s t.pane Pane.kin_endExpansion Pane.InOrder.endExpansion
  refine ⟨halters, rfl, fun p hp => ?_⟩
  refine ⟨p.endExpansion, ?_, (h.inOrder hp).lease_endExpansion⟩
  rw [pane?_modify_self, hp, Option.map_some]

/-- **Finishing an expansion changes the pane of the ticket's name only, and frees it** whoever
holds its lease. -/
theorem Orderly.finish (h : s.Orderly) (t : Ticket) (fetched : Except ExploreError Fragment) :
    s.Ends t (s.finish t fetched).1 := by
  unfold Session.finish
  split
  next hget =>
    refine ends_refl (Option.eq_none_iff_forall_ne_some.2 fun p hp => ?_)
    rw [get_eq_ok.2 hp] at hget
    nomatch hget
  next e _ => exact (h.ends_modify t).touch (Touches.publish t.pane _ _)
  next p g hget =>
    have hends := h.ends_replace (get_eq_ok.1 hget) (p.store.commit t.planned g
      (some (p.capacity s.options.paneNodeCeiling))).1
    simp only [mergeInto]
    split
    · exact hends.touch (Touches.afterGrowth (h.of_alters hends.toAlters) t.pane _)
    · exact hends

theorem mergeFetched_fst (s : Session) (p : Pane) (planned : List NodeId)
    (fetched : Except ExploreError Fragment) :
    ∃ store, (s.mergeFetched p planned fetched).1 = { p with store }.endExpansion := by
  cases fetched with
  | error e => exact ⟨p.store, rfl⟩
  | ok g => exact ⟨_, rfl⟩

theorem Orderly.advanceBestPath (h : s.Orderly) {run run' : BestPathRun}
    {fetched : Except ExploreError Fragment}
    (hadvance : s.advanceBestPath run t fetched = .ok (s', run')) : s.Ends t s' := by
  obtain ⟨p, hp, hadvance⟩ := bind_eq_ok.1 hadvance
  obtain ⟨store, hstore⟩ := s.mergeFetched_fst p t.planned fetched
  have hends := h.ends_replace (get_eq_ok.1 hp) store
  rw [← hstore] at hends
  simp only at hadvance
  split at hadvance
  next delta _ =>
    obtain ⟨rfl, -⟩ := Prod.mk.inj (Except.ok.inj hadvance)
    split
    · exact hends
    · exact hends.touch (Touches.afterGrowth (h.of_alters hends.toAlters) t.pane _)
  next =>
    obtain ⟨rfl, -⟩ := Prod.mk.inj (Except.ok.inj hadvance)
    exact hends

/-- The session after a run was moved on; a ticket that does not move it on is dropped. -/
def advance (s : Session) (run : BestPathRun) (t : Ticket)
    (fetched : Except ExploreError Fragment) : Session :=
  match s.advanceBestPath run t fetched with
  | .ok (s', _) => s'
  | .error _ => s.drop t

theorem Orderly.advance (h : s.Orderly) (run : BestPathRun) (t : Ticket)
    (fetched : Except ExploreError Fragment) : s.Ends t (s.advance run t fetched) := by
  unfold Session.advance
  split
  next hadvance => exact h.advanceBestPath hadvance
  next hrefused =>
    -- A run is moved on unless there is no pane of the ticket's name.
    have hnone : s.table.pane? t.pane = none := by
      refine Option.eq_none_iff_forall_ne_some.2 fun p hp => ?_
      unfold Session.advanceBestPath at hrefused
      simp only [get_eq_ok.2 hp, bind, Except.bind] at hrefused
      split at hrefused
      · nomatch hrefused
      · nomatch hrefused
    exact ⟨(h.drop t).toAlters, rfl, fun p hp => by rw [hnone] at hp; nomatch hp⟩

end Session

end StateAtlas
