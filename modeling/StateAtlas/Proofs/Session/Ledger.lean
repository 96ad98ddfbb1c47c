import StateAtlas.Proofs.Session.Tickets
import StateAtlas.Proofs.Session.Turnover
/-!
The tickets that are out.

A ticket names its pane, and one pane after another can bear the same name.  The ledger of a session
keeps, with each ticket that was given out and is not used up, which of the panes of that name gave
it out.  In a sound ledger a lease is out on a live pane just when that very pane gave out a ticket
with it, and the ticket is not used up.

What can be done keeps a ledger sound, with one exception: an expansion is finished whose pane was
closed, and a pane that was opened under the same name is changed by that.
-/

namespace StateAtlas

open PaneTable

/-! ## Actions -/

/-- How a ticket is used up. -/
inductive Use
  | finish (fetched : Except ExploreError Fragment)
  | advance (run : BestPathRun) (fetched : Except ExploreError Fragment)
  | drop

/-- What is done about expansions. -/
inductive Action
  | begin (pane : PaneId) (frontier : List NodeId)
  | step (pane : PaneId) (run : BestPathRun)
  /-- Uses up the ticket with the lease of a number. -/
  | use (number : Nat) (how : Use)
  | turn (c : Turnover)

/-- The session after a ticket was used up. -/
def Session.use (s : Session) (t : Ticket) : Use → Session
  | .finish fetched => (s.finish t fetched).1
  | .advance run fetched => s.advance run t fetched
  | .drop => s.drop t

/-- A ticket, and which of the panes of its name gave it out. -/
structure Issued where
  ticket : Ticket
  opening : Nat
deriving DecidableEq

namespace Issued

def pane (i : Issued) : PaneId := i.ticket.pane

def number (i : Issued) : Nat := i.ticket.lease.number

end Issued

/-- A session with the tickets that are out. -/
structure Ledger where
  session : Session
  outstanding : List Issued := []
  /-- How many panes of a name were opened. -/
  openings : PaneId → Nat := fun _ => 0

namespace Ledger

variable {l : Ledger} {s : Session} {t : Ticket} {i j : Issued}

/-- A session without panes and tickets. -/
def start (options : SessionOptions) (bus : Bus) : Ledger :=
  { session :=
      { options, table := { PaneTable.start options.maxPanes options.brushWindow with bus } } }

/-- The ticket that is out with the lease of a number. -/
def issued? (l : Ledger) (number : Nat) : Option Issued :=
  l.outstanding.find? fun i => i.number = number

/-- Notes a ticket of the pane that bears its name now. -/
def grant (l : Ledger) (s : Session) (t : Ticket) : Ledger :=
  { l with session := s, outstanding := ⟨t, l.openings t.pane⟩ :: l.outstanding }

/-- Strikes out a ticket. -/
def strike (l : Ledger) (s : Session) (number : Nat) : Ledger :=
  { l with session := s, outstanding := l.outstanding.filter fun i => i.number ≠ number }

/-- Notes the panes that were opened. -/
def turn (l : Ledger) (s : Session) (opened : List PaneId) : Ledger :=
  { l with session := s, openings := fun id => l.openings id + opened.count id }

/-- The ledger after an action; what is refused leaves it as it was. -/
def perform (l : Ledger) : Action → Ledger
  | .begin pane frontier =>
    match l.session.beginExpansion pane frontier with
    | .ok (s, t) => l.grant s t
    | .error _ => l
  | .step pane run =>
    match l.session.bestPathStep pane run with
    | (_, .ok (s, .fetch t)) => l.grant s t
    | (_, .ok (s, .done _)) => { l with session := s }
    | (_, .error _) => l
  | .use number how =>
    match l.issued? number with
    | some i => l.strike (l.session.use i.ticket how) number
    | none => l
  | .turn c => l.turn (l.session.turnOver c).1 (l.session.turnOver c).2

/-! ## The law -/

/-- Whether the pane that gave out a ticket is still live. -/
def IsCurrent (l : Ledger) (i : Issued) : Prop :=
  l.session.table.contains i.pane = true ∧ i.opening = l.openings i.pane

/-- While a ticket of a live pane is out, the pane refuses every other one; so there are never
two. -/
structure Exclusive (l : Ledger) : Prop where
  begin_busy : ∀ i ∈ l.outstanding, l.IsCurrent i → ∀ frontier,
    l.session.beginExpansion i.pane frontier = .error (.explore (.busy i.pane))
  step_busy : ∀ i ∈ l.outstanding, l.IsCurrent i →
    ∀ p, l.session.table.pane? i.pane = some p →
    ∀ run run' planned, run.next p.store = (run', .fetch planned) →
    l.session.bestPathStep i.pane run = (run', .error (.explore (.busy i.pane)))
  single : l.outstanding.Pairwise fun i j => l.IsCurrent i → l.IsCurrent j → i.pane ≠ j.pane

/-- What a pane of a name shows: everything but how it keeps track of its expansion. -/
def shown? (l : Ledger) (id : PaneId) : Option Pane :=
  (l.session.table.pane? id).map fun p => { p with entered := p.phase, lease := none }

/-- An action that uses up a ticket changes no pane but the very one that gave it out. -/
def Confined (l : Ledger) (a : Action) : Prop :=
  ∀ number how i, a = .use number how → l.issued? number = some i →
  ∀ id, (l.IsCurrent i → id ≠ i.pane) → (l.perform a).shown? id = l.shown? id

/-- An action uses up a ticket for its own pane only, and leaves exclusive tickets. -/
structure Lawful (l : Ledger) (a : Action) : Prop where
  confined : l.Confined a
  exclusive : (l.perform a).Exclusive

/-- If an expansion is finished whose pane was closed, and another live pane bears the name of that
pane, then this other pane is not changed. -/
def Undisturbed (l : Ledger) (a : Action) : Prop :=
  ∀ number how i, a = .use number how → how ≠ .drop → l.issued? number = some i →
  l.session.table.contains i.pane = true → i.opening ≠ l.openings i.pane →
    (l.perform a).shown? i.pane = l.shown? i.pane

/-- Whether every action of a run goes well, each from the ledger that it finds. -/
def Along (good : Ledger → Action → Prop) : Ledger → List Action → Prop
  | _, [] => True
  | l, a :: actions => good l a ∧ Along good (l.perform a) actions

/-! ## Sound ledgers -/

/-- The session is orderly, no two tickets that are out have the same lease, and a lease is out on a
live pane just when that very pane gave out a ticket with it. -/
structure Sound (l : Ledger) : Prop where
  orderly : l.session.Orderly
  nodup : (l.outstanding.map Issued.number).Nodup
  number_lt : ∀ i ∈ l.outstanding, i.number < l.session.table.nextLease
  opening_le : ∀ i ∈ l.outstanding, i.opening ≤ l.openings i.pane
  lease_iff : ∀ {id p}, l.session.table.pane? id = some p → ∀ {number},
    p.lease = some number ↔
      ∃ i ∈ l.outstanding, i.pane = id ∧ i.opening = l.openings id ∧ i.number = number

theorem shown?_eq_of_pane?_eq {l' : Ledger} {id : PaneId}
    (h : l'.session.table.pane? id = l.session.table.pane? id) : l'.shown? id = l.shown? id := by
  rw [shown?, shown?, h]

/-- Whether a lease is out on a pane shows. -/
theorem Sound.lease_eq_none (h : l.Sound) {l' : Ledger} {id : PaneId} {p q : Pane}
    (hshown : l'.shown? id = l.shown? id) (hp : l.session.table.pane? id = some p)
    (hq : l'.session.table.pane? id = some q) (hnone : q.lease = none) : p.lease = none := by
  have hphase := congrArg (Option.map Pane.entered) hshown
  rw [shown?, shown?, hp, hq] at hphase
  by_contra hlease
  have hexpanding : p.phase = .expanding := (h.orderly.inOrder hp).phase_eq hlease
  exact Pane.phase_ne_expanding hnone ((Option.some.inj hphase).trans hexpanding)

theorem issued?_eq_some {number : Nat} (h : l.issued? number = some i) :
    i ∈ l.outstanding ∧ i.number = number :=
  ⟨List.mem_of_find?_eq_some h, by simpa using List.find?_some h⟩

/-- A lease tells which ticket has it. -/
theorem Sound.eq_of_number_eq (h : l.Sound) (hi : i ∈ l.outstanding) (hj : j ∈ l.outstanding)
    (heq : i.number = j.number) : i = j :=
  List.inj_on_of_nodup_map h.nodup hi hj heq

theorem Sound.lease_eq (h : l.Sound) (hi : i ∈ l.outstanding) (hcurrent : l.IsCurrent i) :
    ∃ p, l.session.table.pane? i.pane = some p ∧ p.lease = some i.number := by
  obtain ⟨p, hp⟩ := exists_pane?_iff.1 hcurrent.1
  exact ⟨p, hp, (h.lease_iff hp).2 ⟨i, hi, rfl, hcurrent.2, rfl⟩⟩

/-- **In a sound ledger the tickets that are out exclude others of the same pane.** -/
theorem Sound.exclusive (h : l.Sound) : l.Exclusive := by
  constructor
  case begin_busy =>
    intro i hi hcurrent frontier
    obtain ⟨p, hp, hlease⟩ := h.lease_eq hi hcurrent
    exact h.orderly.beginExpansion_busy hp (by simp [hlease]) frontier
  case step_busy =>
    intro i hi hcurrent p hp run run' planned hnext
    have hlease : p.lease = some i.number := (h.lease_iff hp).2 ⟨i, hi, rfl, hcurrent.2, rfl⟩
    exact h.orderly.bestPathStep_busy hp (by simp [hlease]) hnext
  case single =>
    refine (List.pairwise_map.1 h.nodup).imp_of_mem ?_
    intro i j hi hj hne hcurrent hcurrent' hpane
    -- Two tickets of one pane would both have the one lease that is out on it.
    obtain ⟨p, hp, hlease⟩ := h.lease_eq hi hcurrent
    obtain ⟨q, hq, hlease'⟩ := h.lease_eq hj hcurrent'
    rw [← hpane, hp] at hq
    obtain rfl := Option.some.inj hq
    exact hne (Option.some.inj (hlease.symm.trans hlease'))

theorem sound_start (options : SessionOptions) (bus : Bus) : (start options bus).Sound where
  orderly := ⟨⟨fun _ => 0, wellFormed_start ..⟩, rfl, fun h => nomatch h⟩
  nodup := List.nodup_nil
  number_lt := List.forall_mem_nil _
  opening_le := List.forall_mem_nil _
  lease_iff h := nomatch h

end Ledger

end StateAtlas
