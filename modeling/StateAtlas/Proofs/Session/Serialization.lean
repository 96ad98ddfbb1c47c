import StateAtlas.Proofs.Session.Ledger
/-!
Expansions are serialized per pane.

As long as no expansion disturbs a pane that merely bears the name of its own, the tickets that are
out exclude others of the same pane, and a ticket changes the very pane that gave it out.  Without
that proviso the law fails, because names are given out anew.

Main statements: `lawful_iff_undisturbed`, `Sound.lawful_of_not_reuses`, by which the law holds as
long as no name is given out anew while a ticket is out for it, and `Sound.not_undisturbed`, by which
it fails where the pane that bears the name is being expanded, too.
-/

namespace StateAtlas

open PaneTable

namespace Ledger

variable {l : Ledger} {s : Session} {t : Ticket} {i : Issued} {number : Nat} {how : Use}

/-! ## Giving tickets out -/

theorem Sound.grant (h : l.Sound) (hgrants : l.session.Grants t s) : (l.grant s t).Sound := by
  obtain ⟨idle, hidle, hnone⟩ := hgrants.idle
  obtain ⟨out, hout, hlease⟩ := hgrants.out
  constructor
  case orderly => exact h.orderly.of_alters hgrants.toAlters
  case nodup =>
    -- Numbers of leases are given out once.
    refine List.nodup_cons.2 ⟨fun hmem => ?_, h.nodup⟩
    obtain ⟨i, hi, heq⟩ := List.mem_map.1 hmem
    have hlt := h.number_lt i hi
    rw [heq, Issued.number, hgrants.number] at hlt
    exact Nat.lt_irrefl _ hlt
  case number_lt =>
    show ∀ i ∈ _ :: l.outstanding, i.number < s.table.nextLease
    rw [hgrants.nextLease]
    refine List.forall_mem_cons.2 ⟨?_, fun i hi => Nat.lt_succ_of_lt (h.number_lt i hi)⟩
    rw [Issued.number, hgrants.number]
    exact Nat.lt_succ_self _
  case opening_le => exact List.forall_mem_cons.2 ⟨Nat.le_refl _, h.opening_le⟩
  case lease_iff =>
    intro id p hp n
    change s.table.pane? id = some p at hp
    change p.lease = some n ↔ ∃ i ∈ ⟨t, l.openings t.pane⟩ :: l.outstanding,
      i.pane = id ∧ i.opening = l.openings id ∧ i.number = n
    by_cases hid : id = t.pane
    · subst hid
      obtain rfl := Option.some.inj (hout.symm.trans hp)
      rw [hlease]
      constructor
      · exact fun heq => ⟨_, List.mem_cons_self, rfl, rfl, Option.some.inj heq⟩
      · rintro ⟨i, hi, hpane, hopening, rfl⟩
        rcases List.mem_cons.1 hi with rfl | hi
        · rfl
        · -- The pane was idle, so no ticket of its own was out.
          have hold := (h.lease_iff hidle).2 ⟨i, hi, hpane, hopening, rfl⟩
          nomatch hnone.symm.trans hold
    · rw [hgrants.others id hid] at hp
      rw [h.lease_iff hp]
      constructor
      · rintro ⟨i, hi, hcurrent⟩
        exact ⟨i, List.mem_cons_of_mem _ hi, hcurrent⟩
      · rintro ⟨i, hi, hpane, hcurrent⟩
        rcases List.mem_cons.1 hi with rfl | hi
        · exact absurd hpane.symm hid
        · exact ⟨i, hi, hpane, hcurrent⟩

/-! ## Using tickets up -/

/-- Unless it is dropped, a ticket ends the expansion of the pane of its name. -/
theorem Sound.ends_use (h : l.Sound) (t : Ticket) (hdrop : how ≠ .drop) :
    l.session.Ends t (l.session.use t how) := by
  cases how with
  | finish fetched => exact h.orderly.finish t fetched
  | advance run fetched => exact h.orderly.advance run t fetched
  | drop => exact absurd rfl hdrop

theorem Sound.settles_use (h : l.Sound) (t : Ticket) (how : Use) :
    l.session.Settles t (l.session.use t how) := by
  by_cases hdrop : how = .drop
  · subst hdrop
    exact h.orderly.drop t
  · exact (h.ends_use t hdrop).settles

theorem perform_use (hi : l.issued? number = some i) :
    l.perform (.use number how) = l.strike (l.session.use i.ticket how) number := by
  simp only [perform, hi]

/-- A ticket that is dropped leaves alone a pane that merely bears the name of its own. -/
theorem Sound.drop_eq (h : l.Sound) (hi : i ∈ l.outstanding)
    (hopening : i.opening ≠ l.openings i.pane) :
    (l.session.drop i.ticket).table.pane? i.pane = l.session.table.pane? i.pane := by
  refine (Session.pane?_modify_self l.session i.pane _).trans ?_
  cases hp : l.session.table.pane? i.pane with
  | none => rfl
  | some p =>
    -- The lease that is out on the pane is that of a ticket of its own.
    have hlease : p.lease ≠ some i.ticket.lease.number := by
      intro hlease
      obtain ⟨j, hj, hpane, hcurrent, hnumber⟩ := (h.lease_iff hp).1 hlease
      obtain rfl := h.eq_of_number_eq hj hi hnumber
      exact hopening hcurrent
    rw [Option.map_some, Pane.release, if_neg hlease]

/-- A ticket whose own pane was closed changes no other pane but one that bears the same name, and
this one only if it is not dropped. -/
theorem Sound.pane?_use (h : l.Sound) (hi : l.issued? number = some i) (hforeign : ¬l.IsCurrent i)
    {id : PaneId}
    (hid : id ≠ i.pane ∨ ¬l.session.table.contains i.pane = true ∨ how = .drop) :
    (l.session.use i.ticket how).table.pane? id = l.session.table.pane? id := by
  have hsettles := h.settles_use i.ticket how
  by_cases hlive : l.session.table.contains i.pane = true
  case neg => exact hsettles.pane?_eq hlive id
  by_cases hname : id = i.pane
  case neg => exact hsettles.others id hname
  subst hname
  rcases hid with hne | hdead | rfl
  · exact absurd rfl hne
  · exact absurd hlive hdead
  · exact h.drop_eq (issued?_eq_some hi).1 fun heq => hforeign ⟨hlive, heq⟩

/-- **A ticket whose own pane was closed changes no pane**, unless it disturbs one. -/
theorem Sound.shown?_use (h : l.Sound) (hundisturbed : l.Undisturbed (.use number how))
    (hi : l.issued? number = some i) (hforeign : ¬l.IsCurrent i) (id : PaneId) :
    (l.perform (.use number how)).shown? id = l.shown? id := by
  by_cases hid : id ≠ i.pane ∨ ¬l.session.table.contains i.pane = true ∨ how = .drop
  · refine shown?_eq_of_pane?_eq ?_
    rw [perform_use hi]
    exact h.pane?_use hi hforeign hid
  · simp only [not_or, not_not] at hid
    obtain ⟨rfl, hlive, hdrop⟩ := hid
    exact hundisturbed number how i rfl hdrop hi hlive fun heq => hforeign ⟨hlive, heq⟩

/-- And it takes back no lease. -/
theorem Sound.lease_use (h : l.Sound) (hundisturbed : l.Undisturbed (.use number how))
    (hi : l.issued? number = some i) (hforeign : ¬l.IsCurrent i) (id : PaneId) :
    ((l.session.use i.ticket how).table.pane? id).map Pane.lease =
      (l.session.table.pane? id).map Pane.lease := by
  by_cases hid : id ≠ i.pane ∨ ¬l.session.table.contains i.pane = true ∨ how = .drop
  · rw [h.pane?_use hi hforeign hid]
  · simp only [not_or, not_not] at hid
    obtain ⟨rfl, hlive, hdrop⟩ := hid
    obtain ⟨p, hp⟩ := exists_pane?_iff.1 hlive
    obtain ⟨q, hq, hnone⟩ := (h.ends_use i.ticket hdrop).freed p hp
    have hshown := h.shown?_use hundisturbed hi hforeign i.pane
    rw [perform_use hi] at hshown
    change (l.session.use i.ticket how).table.pane? i.pane = some q at hq
    rw [hp, hq, Option.map_some, Option.map_some, hnone, h.lease_eq_none hshown hp hq hnone]

theorem Sound.confined (h : l.Sound) {a : Action} (hundisturbed : l.Undisturbed a) :
    l.Confined a := by
  rintro number how i rfl hi id hid
  by_cases hcurrent : l.IsCurrent i
  · refine shown?_eq_of_pane?_eq ?_
    rw [perform_use hi]
    exact (h.settles_use i.ticket how).others id (hid hcurrent)
  · exact h.shown?_use hundisturbed hi hcurrent id

theorem Sound.strike (h : l.Sound) (hi : i ∈ l.outstanding)
    (hsettles : l.session.Settles i.ticket s)
    (hforeign : ¬l.IsCurrent i → ∀ id,
      (s.table.pane? id).map Pane.lease = (l.session.table.pane? id).map Pane.lease) :
    (l.strike s i.number).Sound := by
  have hkept : ∀ {j}, j ∈ (l.strike s i.number).outstanding ↔
      j ∈ l.outstanding ∧ j.number ≠ i.number := by
    intro j
    exact List.mem_filter.trans (by simp)
  constructor
  case orderly => exact h.orderly.of_alters hsettles.toAlters
  case nodup => exact h.nodup.sublist (List.filter_sublist.map _)
  case number_lt =>
    intro j hj
    exact hsettles.nextLease ▸ h.number_lt j (hkept.1 hj).1
  case opening_le => exact fun j hj => h.opening_le j (hkept.1 hj).1
  case lease_iff =>
    intro id p hp n
    change s.table.pane? id = some p at hp
    -- Either the pane gave the ticket out and is free now, or its lease did not change.
    by_cases hown : l.IsCurrent i ∧ id = i.pane
    · obtain ⟨hcurrent, rfl⟩ := hown
      obtain ⟨q, hq, hlease⟩ := h.lease_eq hi hcurrent
      obtain ⟨r, hr, hnone⟩ := hsettles.freed q hq hlease
      obtain rfl := Option.some.inj (hr.symm.trans hp)
      rw [hnone]
      constructor
      · exact fun heq => nomatch heq
      · rintro ⟨j, hj, hpane, hopening, -⟩
        obtain ⟨hj, hne⟩ := hkept.1 hj
        have hlease' := (h.lease_iff hq).2 ⟨j, hj, hpane, hopening, rfl⟩
        exact absurd (Option.some.inj (hlease'.symm.trans hlease)) hne
    · have hsame : (s.table.pane? id).map Pane.lease =
          (l.session.table.pane? id).map Pane.lease := by
        by_cases hcurrent : l.IsCurrent i
        · rw [hsettles.others id fun hid => hown ⟨hcurrent, hid⟩]
        · exact hforeign hcurrent id
      rw [hp, Option.map_some] at hsame
      obtain ⟨q, hold, hlease⟩ := Option.map_eq_some_iff.1 hsame.symm
      rw [← hlease, h.lease_iff hold]
      constructor
      · rintro ⟨j, hj, rfl, hopening, rfl⟩
        refine ⟨j, hkept.2 ⟨hj, fun heq => hown ?_⟩, rfl, hopening, rfl⟩
        obtain rfl := h.eq_of_number_eq hj hi heq
        exact ⟨⟨contains_of_pane? hold, hopening⟩, rfl⟩
      · rintro ⟨j, hj, hcurrent⟩
        exact ⟨j, (hkept.1 hj).1, hcurrent⟩

/-! ## Other actions -/

/-- A pane that was opened has no ticket out, not even of the panes that bore its name before. -/
theorem Sound.turn (h : l.Sound) {opened : List PaneId} (hturns : l.session.Turns opened s) :
    (l.turn s opened).Sound := by
  constructor
  case orderly => exact hturns.orderly
  case nodup => exact h.nodup
  case number_lt => exact fun i hi => hturns.nextLease ▸ h.number_lt i hi
  case opening_le => exact fun i hi => Nat.le_add_right_of_le (h.opening_le i hi)
  case lease_iff =>
    intro id p hp n
    change p.lease = some n ↔ ∃ i ∈ l.outstanding,
      i.pane = id ∧ i.opening = l.openings id + opened.count id ∧ i.number = n
    rcases hturns.lease hp with ⟨hmem, hnone⟩ | ⟨hmem, q, hq, hlease⟩
    · rw [hnone]
      constructor
      · exact fun heq => nomatch heq
      · -- A ticket that is out is of a pane opened earlier.
        rintro ⟨i, hi, rfl, hopening, -⟩
        have hle := h.opening_le i hi
        have hpos := List.count_pos_iff.2 hmem
        omega
    · rw [hlease, List.count_eq_zero.2 hmem]
      exact h.lease_iff hq

theorem Sound.touch (h : l.Sound) {id : PaneId} (htouches : Session.Touches id l.session s) :
    ({ l with session := s } : Ledger).Sound := by
  constructor
  case orderly => exact h.orderly.of_alters htouches.toAlters
  case nodup => exact h.nodup
  case number_lt => exact fun i hi => htouches.nextLease ▸ h.number_lt i hi
  case opening_le => exact h.opening_le
  case lease_iff =>
    intro k p hp n
    obtain ⟨q, hq, hlease⟩ := htouches.pane?_left hp
    rw [← hlease]
    exact h.lease_iff hq

/-- **An action keeps a ledger sound**, unless it disturbs a pane. -/
theorem Sound.perform (h : l.Sound) {a : Action} (hundisturbed : l.Undisturbed a) :
    (l.perform a).Sound := by
  cases a with
  | begin pane frontier =>
    simp only [Ledger.perform]
    split
    next hbegin => exact h.grant (h.orderly.beginExpansion hbegin)
    next => exact h
  | step pane run =>
    simp only [Ledger.perform]
    split
    next hstep => exact h.grant (h.orderly.bestPathStep hstep)
    next hstep => exact h.touch (Session.touches_of_done hstep)
    next => exact h
  | use number how =>
    cases hi : l.issued? number with
    | none =>
      simp only [Ledger.perform, hi]
      exact h
    | some i =>
      rw [perform_use hi]
      obtain ⟨hmem, rfl⟩ := issued?_eq_some hi
      exact h.strike hmem (h.settles_use i.ticket how) (h.lease_use hundisturbed hi)
  | turn c => exact h.turn (h.orderly.turnOver c)

/-! ## Runs -/

/-- What is lawful disturbs no pane. -/
theorem Lawful.undisturbed {a : Action} (h : l.Lawful a) : l.Undisturbed a := by
  intro number how i ha _ hi _ hopening
  exact h.confined number how i ha hi i.pane fun hcurrent => absurd hcurrent.2 hopening

theorem Sound.lawful_iff (h : l.Sound) (actions : List Action) :
    l.Along Lawful actions ↔ l.Along Undisturbed actions := by
  induction actions generalizing l with
  | nil => exact Iff.rfl
  | cons a actions ih =>
    constructor
    · rintro ⟨hlawful, hrest⟩
      have hnext := h.perform hlawful.undisturbed
      exact ⟨hlawful.undisturbed, (ih hnext).1 hrest⟩
    · rintro ⟨hundisturbed, hrest⟩
      have hnext := h.perform hundisturbed
      exact ⟨⟨h.confined hundisturbed, hnext.exclusive⟩, (ih hnext).2 hrest⟩

/-- **Expansions are serialized per pane just when no expansion disturbs a pane that merely bears
the name of its own.**  Whatever the actions: if and only if they are undisturbed, every action uses
up a ticket for the very pane that gave it out, and afterwards each live pane whose ticket is out
refuses every other one. -/
theorem lawful_iff_undisturbed (options : SessionOptions) (bus : Bus) (actions : List Action) :
    (start options bus).Along Lawful actions ↔ (start options bus).Along Undisturbed actions :=
  (sound_start options bus).lawful_iff actions

/-! ## Names that are given out anew -/

/-- A backend that starts with one state and knows a step from it. -/
def oneStepBackend : Backend Id where
  initial := .ok { nodes := [{ id := ⟨"s0"⟩, kind := .state }] }
  status := .ok {}
  outgoing _ := .ok oneStep
  reset _ _ := .ok {}
where
  oneStep : Fragment :=
    { nodes := [{ id := ⟨"s0"⟩, kind := .state }, { id := ⟨"t0"⟩, kind := .action },
        { id := ⟨"s1"⟩, kind := .state }]
      edges := [.between ⟨"s0"⟩ "go" ⟨"t0"⟩, .between ⟨"t0"⟩ "go" ⟨"s1"⟩] }

/-- A pane is being expanded while the session is torn down and started again.  The new pane has the
name of the old one and is being expanded as well when the first expansion is finished. -/
def restarted : List Action :=
  [.turn (.start oneStepBackend), .begin ⟨"pane-0"⟩ [⟨"s0"⟩], .turn .teardown,
    .turn (.start oneStepBackend), .begin ⟨"pane-0"⟩ [⟨"s0"⟩],
    .use 0 (.finish (.ok oneStepBackend.oneStep))]

/-- **A ticket of a closed pane can change another pane** of the same name: the session starts anew,
and the first expansion is merged into the new pane and ends the expansion of that one. -/
theorem restarted_not_lawful : ¬(start ({} : Config).options {}).Along Lawful restarted := by
  rintro ⟨-, -, -, -, -, hlast, -⟩
  have hsame := hlast.confined 0 _ ⟨⟨⟨⟨"pane-0"⟩, 0⟩, [⟨"s0"⟩]⟩, 1⟩ rfl (by decide +kernel)
    ⟨"pane-0"⟩ fun hcurrent => absurd hcurrent.2 (by decide +kernel)
  exact absurd (congrArg (Option.map Pane.entered) hsame) (by decide +kernel)

/-- **A pane that is being expanded is always disturbed**: the expansion of another ends its own. -/
theorem Sound.not_undisturbed (h : l.Sound) (hi : l.issued? number = some i)
    (hopening : i.opening ≠ l.openings i.pane) {p : Pane}
    (hp : l.session.table.pane? i.pane = some p) (hlease : p.lease ≠ none) (hdrop : how ≠ .drop) :
    ¬l.Undisturbed (.use number how) := by
  intro hundisturbed
  have hshown := hundisturbed number how i rfl hdrop hi (contains_of_pane? hp) hopening
  rw [perform_use hi] at hshown
  obtain ⟨q, hq, hnone⟩ := (h.ends_use i.ticket hdrop).freed p hp
  exact hlease (h.lease_eq_none hshown hp hq hnone)

/-- Whether a pane is opened under the name of a pane that a ticket is out for. -/
def Reuses (l : Ledger) (a : Action) : Prop :=
  ∃ c, a = .turn c ∧ ∃ i ∈ l.outstanding, i.pane ∈ (l.session.turnOver c).2

/-- Whether no ticket is out for a pane whose name was given to another one. -/
def Unambiguous (l : Ledger) : Prop := ∀ i ∈ l.outstanding, i.opening = l.openings i.pane

theorem Unambiguous.perform (h : l.Unambiguous) {a : Action} (hfresh : ¬l.Reuses a) :
    (l.perform a).Unambiguous := by
  have hgrant : ∀ s t, (l.grant s t).Unambiguous :=
    fun _ _ => List.forall_mem_cons.2 ⟨rfl, h⟩
  cases a with
  | begin pane frontier =>
    simp only [Ledger.perform]
    split
    · exact hgrant _ _
    · exact h
  | step pane run =>
    simp only [Ledger.perform]
    split
    · exact hgrant _ _
    · exact h
    · exact h
  | use number how =>
    simp only [Ledger.perform]
    split
    · exact fun i hi => h i (List.mem_filter.1 hi).1
    · exact h
  | turn c =>
    intro i hi
    have hnot : i.pane ∉ (l.session.turnOver c).2 := fun hmem => hfresh ⟨c, rfl, i, hi, hmem⟩
    show i.opening = l.openings i.pane + (l.session.turnOver c).2.count i.pane
    rw [List.count_eq_zero.2 hnot]
    exact h i hi

/-- **A run is lawful if no name is given out anew while a ticket is out for it.** -/
theorem Sound.lawful_of_not_reuses (h : l.Sound) (hclear : l.Unambiguous) {actions : List Action}
    (hfresh : l.Along (fun l a => ¬l.Reuses a) actions) : l.Along Lawful actions := by
  refine (h.lawful_iff actions).2 ?_
  clear h
  induction actions generalizing l with
  | nil => trivial
  | cons a actions ih =>
    obtain ⟨hfresh, hrest⟩ := hfresh
    refine ⟨?_, ih (hclear.perform hfresh) hrest⟩
    intro number how i _ _ hi _ hopening
    exact absurd (hclear i (issued?_eq_some hi).1) hopening

end Ledger

end StateAtlas
