import Mathlib.Data.List.Induction
import StateAtlas.Sync.Debounce
/-!
Which runs are granted, and for which requests.

A request that comes too early waits until something uses it up, which is a run or settling.  What
is pending is read off a single flag, so it has to be shown that the flag is up just as long as some
request waits; then no run is made without a request that it is for, and none is made for a request
that had one.  Runs are spaced by the time of the last run, whatever kind of run that was, and only
what is taken runs without regard to it.

Main statement: `grants_each_once`.
-/

namespace StateAtlas

/-- A call; settling reads no clock. -/
inductive DebounceCall
  | hit (now : Nat)
  | due (now : Nat)
  | take (now : Nat)
  | settle
deriving DecidableEq, Repr

/-- The time of a call. -/
def DebounceCall.clock? : DebounceCall → Option Nat
  | .hit now => some now
  | .due now => some now
  | .take now => some now
  | .settle => none

/-- A call that was made, and whether it was answered with a run. -/
structure DebounceEntry where
  call : DebounceCall
  runs : Bool
deriving DecidableEq, Repr

namespace DebounceEntry

/-- Uses up the requests that wait. -/
def Consumes (e : DebounceEntry) : Prop := e.runs = true ∨ e.call = .settle

/-- The time of a run. -/
def ranAt? (e : DebounceEntry) : Option Nat := if e.runs then e.call.clock? else none

end DebounceEntry

namespace Debounce

variable {d : Debounce} {log rest : List DebounceEntry} {e : DebounceEntry} {c : DebounceCall}
  {i j j' now t window : Nat} {calls : List DebounceCall} {runs : Bool}

/-! ## Single calls -/

/-- A request runs, or it is pending afterwards. -/
theorem hit_cases (d : Debounce) (now : Nat) :
    d.hit now = (d.ran now, true) ∨
      d.hit now = ({ d with pending := true }, false) ∧ d.last ≠ none := by
  unfold hit
  split
  next => exact .inl rfl
  next h =>
    refine .inr ⟨rfl, fun hlast => h ?_⟩
    simp [elapsed, hlast]

/-- What is found due runs, and otherwise nothing happens. -/
theorem due_cases (d : Debounce) (now : Nat) :
    d.due now = (d.ran now, true) ∨ d.due now = (d, false) := by
  unfold due
  split
  · exact .inl rfl
  · exact .inr rfl

/-- What is taken runs, unless nothing is pending. -/
theorem take_cases (d : Debounce) (now : Nat) :
    d.take now = (d.ran now, true) ∨ d.take now = (d, false) ∧ d.pending = false := by
  unfold take
  split
  next => exact .inl rfl
  next h => exact .inr ⟨rfl, by simpa using h⟩

theorem snd_hit (d : Debounce) (now : Nat) : (d.hit now).2 = d.elapsed now := by
  unfold hit
  split
  next h => exact h.symm
  next h => simpa using h

theorem snd_due (d : Debounce) (now : Nat) : (d.due now).2 = (d.pending && d.elapsed now) := by
  unfold due
  split
  next h => exact h.symm
  next h => simpa using h

theorem snd_take (d : Debounce) (now : Nat) : (d.take now).2 = d.pending := by
  unfold take
  split
  next h => exact h.symm
  next h => simpa using h

/-- On a clock that does not go back, a window has passed when the clock is that far from the last
run. -/
theorem elapsed_iff (h : ∀ t ∈ d.last, t ≤ now) :
    d.elapsed now = true ↔ ∀ t ∈ d.last, t + d.window ≤ now := by
  unfold elapsed
  split
  next hlast => simp [hlast]
  next t hlast =>
    have ht := h t hlast
    simp only [hlast, Option.mem_some_iff, forall_eq', decide_eq_true_eq]
    omega

/-- A pending request is due once a window has passed since the last run. -/
theorem due_of_pending {d : Debounce} {now : Nat} (hpending : d.pending = true)
    (helapsed : ∀ t ∈ d.last, t + d.window ≤ now) : d.due now = (d.ran now, true) := by
  have h : d.elapsed now = true :=
    (elapsed_iff fun t ht => Nat.le_trans (Nat.le_add_right ..) (helapsed t ht)).2 helapsed
  simp [due, hpending, h]

/-! ## Sequences of calls -/

/-- The state after a call, and whether the call is answered with a run. -/
def call (d : Debounce) : DebounceCall → Debounce × Bool
  | .hit now => d.hit now
  | .due now => d.due now
  | .take now => d.take now
  | .settle => (d.settle, false)

/-- The state after calls, one after the other. -/
def callAll (d : Debounce) (calls : List DebounceCall) : Debounce :=
  calls.foldl (fun d c => (d.call c).1) d

/-- How calls are answered, one after the other. -/
def answers : Debounce → List DebounceCall → List DebounceEntry
  | _, [] => []
  | d, c :: calls => ⟨c, (d.call c).2⟩ :: answers (d.call c).1 calls

theorem answers_append (d : Debounce) (calls more : List DebounceCall) :
    d.answers (calls ++ more) = d.answers calls ++ (d.callAll calls).answers more := by
  induction calls generalizing d with
  | nil => rfl
  | cons c calls ih => exact congrArg (_ :: ·) (ih (d.call c).1)

theorem length_answers (d : Debounce) (calls : List DebounceCall) :
    (d.answers calls).length = calls.length := by
  induction calls generalizing d with
  | nil => rfl
  | cons c calls ih => exact congrArg (· + 1) (ih (d.call c).1)

theorem callAll_concat (d : Debounce) (calls : List DebounceCall) (c : DebounceCall) :
    d.callAll (calls ++ [c]) = ((d.callAll calls).call c).1 :=
  List.foldl_append

/-- A call runs, for itself or for what is pending, or it makes a request that stays pending, or it
settles what is pending, or it does nothing. -/
theorem call_cases (d : Debounce) (c : DebounceCall) :
    (∃ now, c.clock? = some now ∧ d.call c = (d.ran now, true) ∧
      (c = .hit now ∨ d.pending = true)) ∨
    (∃ now, c = .hit now ∧ d.call c = ({ d with pending := true }, false) ∧ d.last ≠ none) ∨
    (c = .settle ∧ d.call c = (d.settle, false)) ∨
    ((∀ now, c ≠ .hit now) ∧ c ≠ .settle ∧ d.call c = (d, false)) := by
  cases c with
  | hit now =>
    rcases d.hit_cases now with h | ⟨h, hlast⟩
    · exact .inl ⟨now, rfl, h, .inl rfl⟩
    · exact .inr (.inl ⟨now, rfl, h, hlast⟩)
  | due now =>
    rcases d.due_cases now with h | h
    · have hpending := d.snd_due now
      rw [h, eq_comm, Bool.and_eq_true] at hpending
      exact .inl ⟨now, rfl, h, .inr hpending.1⟩
    · exact .inr (.inr (.inr ⟨nofun, nofun, h⟩))
  | take now =>
    rcases d.take_cases now with h | ⟨h, -⟩
    · have hpending := d.snd_take now
      rw [h] at hpending
      exact .inl ⟨now, rfl, h, .inr hpending.symm⟩
    · exact .inr (.inr (.inr ⟨nofun, nofun, h⟩))
  | settle => exact .inr (.inr (.inl ⟨rfl, rfl⟩))

/-! ## Requests -/

/-- The times of the runs. -/
def runTimes (log : List DebounceEntry) : List Nat := log.filterMap DebounceEntry.ranAt?

/-- The call at place `i` made a request that was not granted, and no call before place `j` has used
it up. -/
def Waits (log : List DebounceEntry) (i j : Nat) : Prop :=
  i < j ∧ (∃ now, log[i]? = some ⟨.hit now, false⟩) ∧
    ∀ k e, i < k → k < j → log[k]? = some e → ¬e.Consumes

/-- The run at place `j` is for the request that was made at place `i`, at once or after it had to
wait. -/
def Grants (log : List DebounceEntry) (j i : Nat) : Prop :=
  ∃ c, log[j]? = some ⟨c, true⟩ ∧ (i = j ∧ (∃ now, c = .hit now) ∨ Waits log i j)

/-- Whether a request waits is a matter of the calls up to then. -/
theorem waits_append (hj : j ≤ log.length) : Waits (log ++ rest) i j ↔ Waits log i j := by
  have hsame : ∀ k, k < j → (log ++ rest)[k]? = log[k]? := fun k hk =>
    List.getElem?_append_left (Nat.lt_of_lt_of_le hk hj)
  refine and_congr_right fun hi => ?_
  rw [hsame i hi]
  refine and_congr_right fun _ => forall₂_congr fun k e => forall₂_congr fun _ hk => ?_
  rw [hsame k hk]

/-- After a further call those requests wait that it did not use up, and its own if it was not
granted. -/
theorem waits_concat : Waits (log ++ [e]) i (log.length + 1) ↔
    (i = log.length ∧ ∃ now, e = ⟨.hit now, false⟩) ∨ (Waits log i log.length ∧ ¬e.Consumes) := by
  have hlast : (log ++ [e])[log.length]? = some e := by simp
  constructor
  · rintro ⟨hi, ⟨now, hhit⟩, hkept⟩
    rcases Nat.lt_succ_iff_lt_or_eq.1 hi with hi | rfl
    · refine .inr ⟨(waits_append (Nat.le_refl _)).1 ⟨hi, ⟨now, hhit⟩, ?_⟩, ?_⟩
      · exact fun k e' hik hk => hkept k e' hik (Nat.lt_succ_of_lt hk)
      · exact hkept _ e hi (Nat.lt_succ_self _) hlast
    · exact .inl ⟨rfl, now, Option.some.inj (hlast.symm.trans hhit)⟩
  · rintro (⟨rfl, now, rfl⟩ | ⟨hwaits, hkept⟩)
    · exact ⟨Nat.lt_succ_self _, ⟨now, hlast⟩, fun k e' hik hk => by omega⟩
    · obtain ⟨hi, hhit, hbefore⟩ : Waits (log ++ [e]) i log.length :=
        (waits_append (Nat.le_refl _)).2 hwaits
      refine ⟨Nat.lt_succ_of_lt hi, hhit, fun k e' hik hk hget => ?_⟩
      rcases Nat.lt_succ_iff_lt_or_eq.1 hk with hk | rfl
      · exact hbefore k e' hik hk hget
      · rwa [← Option.some.inj (hlast.symm.trans hget)]

/-- What the state says of the calls up to then: it has the time of the last run, and the flag is up
just when a request waits, which is only after some run. -/
structure Tells (d : Debounce) (log : List DebounceEntry) : Prop where
  last_eq : d.last = (runTimes log).getLast?
  pending_iff : d.pending = true ↔ ∃ i, Waits log i log.length
  last_of_pending : d.pending = true → d.last ≠ none

theorem tells_start (window : Nat) : Tells { window } [] where
  last_eq := rfl
  pending_iff := ⟨nofun, fun ⟨_, hi, _⟩ => absurd hi (Nat.not_lt_zero _)⟩
  last_of_pending := nofun

/-- **One call keeps the state telling**, whatever the clock. -/
theorem Tells.call (h : d.Tells log) (c : DebounceCall) :
    (d.call c).1.Tells (log ++ [⟨c, (d.call c).2⟩]) := by
  -- The entry that is added decides what is pending and what ran last, or leaves both to the log.
  have hwaits : ∀ e : DebounceEntry, (∃ i, Waits (log ++ [e]) i (log ++ [e]).length) ↔
      (∃ now, e = ⟨.hit now, false⟩) ∨ (d.pending = true ∧ ¬e.Consumes) := by
    intro e
    rw [List.length_append, List.length_singleton, h.pending_iff]
    simp only [waits_concat, exists_or, exists_and_right, exists_eq, true_and]
  have htimes : ∀ e : DebounceEntry, (runTimes (log ++ [e])).getLast? = e.ranAt?.or d.last := by
    intro e
    rw [h.last_eq, runTimes, runTimes, List.filterMap_append]
    cases he : e.ranAt? with
    | none => simp [he]
    | some t => simp [he]
  obtain ⟨now, hclock, hcall, -⟩ | ⟨now, rfl, hcall, hlast⟩ | ⟨rfl, hcall⟩ |
    ⟨hhit, hsettle, hcall⟩ := d.call_cases c
  · -- A run uses up everything and is the last one from now on.
    rw [hcall]
    refine ⟨?_, ?_, nofun⟩
    · rw [htimes, DebounceEntry.ranAt?, if_pos rfl, hclock]
      rfl
    · rw [hwaits]
      simp [ran, DebounceEntry.Consumes]
  · rw [hcall]
    refine ⟨?_, ?_, fun _ => hlast⟩
    · rw [htimes]
      rfl
    · rw [hwaits]
      simp
  · rw [hcall]
    refine ⟨?_, ?_, nofun⟩
    · rw [htimes]
      rfl
    · rw [hwaits]
      simp [settle, DebounceEntry.Consumes]
  · rw [hcall]
    refine ⟨?_, ?_, h.last_of_pending⟩
    · rw [htimes]
      rfl
    · rw [hwaits]
      simp [DebounceEntry.Consumes, hhit, hsettle]

theorem tells_callAll (window : Nat) (calls : List DebounceCall) :
    (callAll { window } calls).Tells (answers { window } calls) := by
  induction calls using List.reverseRecOn with
  | nil => exact tells_start window
  | append_singleton calls c ih =>
    rw [callAll_concat, answers_append]
    exact ih.call c

theorem window_callAll (d : Debounce) (calls : List DebounceCall) :
    (d.callAll calls).window = d.window := by
  induction calls using List.reverseRecOn with
  | nil => rfl
  | append_singleton calls c ih =>
    rw [callAll_concat, ← ih]
    obtain ⟨now, -, h, -⟩ | ⟨now, -, h, -⟩ | ⟨-, h⟩ | ⟨-, -, h⟩ :=
      (d.callAll calls).call_cases c <;> rw [h] <;> rfl

/-! ## Places in a sequence -/

/-- The call at a place is answered by the state that the calls before it lead to. -/
theorem getElem?_answers (d : Debounce) (calls : List DebounceCall) (j : Nat) :
    (d.answers calls)[j]? =
      calls[j]?.map fun c => ⟨c, ((d.callAll (calls.take j)).call c).2⟩ := by
  induction calls generalizing d j with
  | nil => rfl
  | cons c calls ih =>
    cases j with
    | zero => rfl
    | succ j => exact ih (d.call c).1 j

theorem take_answers (d : Debounce) (calls : List DebounceCall) (j : Nat) :
    (d.answers calls).take j = d.answers (calls.take j) := by
  induction calls generalizing d j with
  | nil => rw [answers, List.take_nil, List.take_nil, answers]
  | cons c calls ih =>
    cases j with
    | zero => rfl
    | succ j => exact congrArg (_ :: ·) (ih (d.call c).1 j)

theorem answer_at (h : (d.answers calls)[j]? = some ⟨c, runs⟩) :
    calls[j]? = some c ∧ ((d.callAll (calls.take j)).call c).2 = runs := by
  rw [getElem?_answers] at h
  obtain ⟨c', hc', heq⟩ := Option.map_eq_some_iff.1 h
  obtain ⟨rfl, hruns⟩ := DebounceEntry.mk.inj heq
  exact ⟨hc', hruns⟩

theorem le_length_of_getElem?_answers (h : (d.answers calls)[j]? = some e) : j ≤ calls.length := by
  rw [← d.length_answers calls]
  exact Nat.le_of_lt (List.getElem?_eq_some_iff.1 h).1

/-- The flag is up just as long as a request waits. -/
theorem pending_iff_waits (window : Nat) (hj : j ≤ calls.length) :
    (callAll { window } (calls.take j)).pending = true ↔
      ∃ i, Waits (answers { window } calls) i j := by
  have hlength : (answers { window } (calls.take j)).length = j := by
    rw [length_answers, List.length_take_of_le hj]
  have hsplit : answers { window } calls =
      answers { window } (calls.take j) ++ (answers { window } calls).drop j := by
    rw [← take_answers, List.take_append_drop]
  rw [(tells_callAll window (calls.take j)).pending_iff, hlength, hsplit]
  simp only [waits_append (Nat.le_of_eq hlength.symm)]

/-! ## Spacing -/

/-- Runs are made at times of calls. -/
theorem runTimes_answers_sublist (d : Debounce) (calls : List DebounceCall) :
    (runTimes (d.answers calls)).Sublist (calls.filterMap DebounceCall.clock?) := by
  induction calls generalizing d with
  | nil => exact List.Sublist.slnil
  | cons c calls ih =>
    have hrest := ih (d.call c).1
    rw [answers, runTimes, List.filterMap_cons, List.filterMap_cons, DebounceEntry.ranAt?]
    cases c.clock? with
    | none =>
      rw [ite_self]
      exact hrest
    | some t =>
      split
      next hnone => exact hrest.cons t
      next t' ht' =>
        obtain rfl : t = t' := by
          split at ht'
          · exact Option.some.inj ht'
          · cases ht'
        exact hrest.cons_cons t

/-- On a clock that does not go back, no call is made before a run that came earlier. -/
theorem le_of_mem_runTimes (hclock : (calls.filterMap DebounceCall.clock?).Pairwise (· ≤ ·))
    (hc : calls[j]? = some c) (hnow : c.clock? = some now)
    (ht : t ∈ runTimes ((d.answers calls).take j)) : t ≤ now := by
  obtain ⟨hj, hget⟩ := List.getElem?_eq_some_iff.1 hc
  have hsplit : calls = calls.take j ++ c :: calls.drop (j + 1) := by
    rw [← hget, List.getElem_cons_drop, List.take_append_drop]
  rw [hsplit, List.filterMap_append, List.filterMap_cons_some hnow, List.pairwise_append] at hclock
  rw [take_answers] at ht
  exact hclock.2.2 t ((runTimes_answers_sublist d _).subset ht) now List.mem_cons_self

/-- The last run is the latest one. -/
theorem le_last_runTimes (hclock : (calls.filterMap DebounceCall.clock?).Pairwise (· ≤ ·))
    {last : Nat} (hlast : (runTimes ((d.answers calls).take j)).getLast? = some last)
    (ht : t ∈ runTimes ((d.answers calls).take j)) : t ≤ last := by
  have hsorted : (runTimes ((d.answers calls).take j)).Pairwise (· ≤ ·) := by
    rw [take_answers]
    exact hclock.sublist ((runTimes_answers_sublist d _).trans
      ((List.take_sublist j calls).filterMap _))
  obtain ⟨init, hinit⟩ := List.getLast?_eq_some_iff.1 hlast
  rw [hinit] at hsorted ht
  rcases List.mem_append.1 ht with ht | ht
  · exact (List.pairwise_append.1 hsorted).2.2 t ht last List.mem_cons_self
  · exact Nat.le_of_eq (List.mem_singleton.1 ht)

/-- Whether a window has passed when a call is made shows in the time of the last run. -/
theorem elapsed_callAll_iff (window : Nat)
    (hclock : (calls.filterMap DebounceCall.clock?).Pairwise (· ≤ ·))
    (hc : calls[j]? = some c) (hnow : c.clock? = some now) :
    (callAll { window } (calls.take j)).elapsed now = true ↔
      ∀ t ∈ (runTimes ((answers { window } calls).take j)).getLast?, t + window ≤ now := by
  have hlast : (callAll { window } (calls.take j)).last =
      (runTimes ((answers { window } calls).take j)).getLast? := by
    rw [take_answers]
    exact (tells_callAll window _).last_eq
  rw [elapsed_iff, hlast, window_callAll]
  intro t ht
  rw [hlast] at ht
  exact le_of_mem_runTimes hclock hc hnow (List.mem_of_getLast? ht)

/-- **Runs that are not taken come at least a window after all runs before them.** -/
theorem add_window_le (hclock : (calls.filterMap DebounceCall.clock?).Pairwise (· ≤ ·))
    (hruns : (answers { window } calls)[j]? = some ⟨.hit now, true⟩ ∨
      (answers { window } calls)[j]? = some ⟨.due now, true⟩)
    (ht : t ∈ runTimes ((answers { window } calls).take j)) : t + window ≤ now := by
  obtain ⟨c, hc, hnow, helapsed⟩ : ∃ c, calls[j]? = some c ∧ c.clock? = some now ∧
      (callAll { window } (calls.take j)).elapsed now = true := by
    rcases hruns with hget | hget
    · obtain ⟨hc, hhit⟩ := answer_at hget
      exact ⟨_, hc, rfl, (snd_hit ..).symm.trans hhit⟩
    · obtain ⟨hc, hdue⟩ := answer_at hget
      exact ⟨_, hc, rfl, (Bool.and_eq_true_iff.1 ((snd_due ..).symm.trans hdue)).2⟩
  rw [elapsed_callAll_iff window hclock hc hnow] at helapsed
  have hlast := List.getLast?_eq_some_getLast (List.ne_nil_of_mem ht)
  calc t + window
      ≤ (runTimes ((answers { window } calls).take j)).getLast _ + window :=
        Nat.add_le_add_right (le_last_runTimes hclock hlast ht) window
    _ ≤ now := helapsed _ hlast

/-! ## What runs are for -/

/-- While a request waits, a call that asks what is due runs just when a window has passed since the
last run. -/
theorem due_runs_iff (hclock : (calls.filterMap DebounceCall.clock?).Pairwise (· ≤ ·))
    (hwaits : Waits (answers { window } calls) i j)
    (hget : (answers { window } calls)[j]? = some ⟨.due now, runs⟩) :
    runs = true ↔
      ∃ t, (runTimes ((answers { window } calls).take j)).getLast? = some t ∧ t + window ≤ now := by
  obtain ⟨hc, hdue⟩ := answer_at hget
  have hflag := (pending_iff_waits window (le_length_of_getElem?_answers hget)).2 ⟨i, hwaits⟩
  have htells := tells_callAll window (calls.take j)
  have hrun := htells.last_of_pending hflag
  rw [htells.last_eq, ← take_answers] at hrun
  obtain ⟨last, hlast⟩ := Option.ne_none_iff_exists'.1 hrun
  have helapsed : (callAll { window } (calls.take j)).elapsed now = runs := by
    rw [← hdue, call, snd_due, hflag, Bool.true_and]
  rw [← helapsed, elapsed_callAll_iff window hclock hc rfl, hlast]
  simp

/-- While a request waits, a call that takes it runs. -/
theorem take_runs (hwaits : Waits (answers { window } calls) i j)
    (hget : (answers { window } calls)[j]? = some ⟨.take now, runs⟩) : runs = true := by
  obtain ⟨-, htake⟩ := answer_at hget
  rw [← htake, call, snd_take]
  exact (pending_iff_waits window (le_length_of_getElem?_answers hget)).2 ⟨i, hwaits⟩

/-- **Every run is for a request.** -/
theorem exists_grants (hget : (answers { window } calls)[j]? = some ⟨c, true⟩) :
    ∃ i, Grants (answers { window } calls) j i := by
  obtain ⟨-, hruns⟩ := answer_at hget
  obtain ⟨now, -, -, rfl | hflag⟩ | ⟨now, -, h, -⟩ | ⟨-, h⟩ | ⟨-, -, h⟩ :=
    (callAll { window } (calls.take j)).call_cases c
  · exact ⟨j, _, hget, .inl ⟨rfl, now, rfl⟩⟩
  · obtain ⟨i, hi⟩ :=
      (pending_iff_waits window (le_length_of_getElem?_answers hget)).1 hflag
    exact ⟨i, c, hget, .inr hi⟩
  all_goals
    rw [h] at hruns
    cases hruns

/-- No run is made for a request that another run was made for. -/
theorem Grants.eq (h : Grants log j i) (h' : Grants log j' i) : j = j' := by
  have hnot : ∀ {j j'}, Grants log j i → Grants log j' i → ¬j < j' := by
    rintro j j' ⟨c, hrun, hfor⟩ ⟨c', -, hfor'⟩ hlt
    rcases hfor' with ⟨rfl, -⟩ | ⟨-, ⟨now, hhit⟩, hkept⟩
    · -- The later run would be for a request of its own, which cannot be that of an earlier call.
      rcases hfor with ⟨rfl, -⟩ | ⟨hi, -⟩ <;> omega
    · rcases hfor with ⟨rfl, -⟩ | ⟨hi, -⟩
      · rw [hrun] at hhit
        cases hhit
      · exact hkept j _ hi hlt hrun (.inl rfl)
  rcases Nat.lt_trichotomy j j' with hlt | heq | hlt
  · exact absurd hlt (hnot h h')
  · exact heq
  · exact absurd hlt (hnot h' h)

/-- **Runs keep apart, no request is forgotten, and none is granted twice.**  Let calls be made on a
clock that does not go back.  A run that is granted by a request or found due comes at least a
window after all runs before it, however these came about.  The flag is up just as long as a request
waits, that is, one that was not granted at once and that neither a run nor settling has used up
since.  While one waits, what is asked for as due runs just when the clock has reached a window
after the last run, and what is taken runs.  Every run is for a request, and no two runs are for the
same one. -/
theorem grants_each_once (window : Nat) (calls : List DebounceCall)
    (hclock : (calls.filterMap DebounceCall.clock?).Pairwise (· ≤ ·)) :
    let log := answers { window } calls
    (∀ j now, log[j]? = some ⟨.hit now, true⟩ ∨ log[j]? = some ⟨.due now, true⟩ →
      ∀ t ∈ runTimes (log.take j), t + window ≤ now) ∧
    (∀ j ≤ calls.length, (callAll { window } (calls.take j)).pending = true ↔ ∃ i, Waits log i j) ∧
    (∀ i j now runs, Waits log i j → log[j]? = some ⟨.due now, runs⟩ →
      (runs = true ↔ ∃ t, (runTimes (log.take j)).getLast? = some t ∧ t + window ≤ now)) ∧
    (∀ i j now runs, Waits log i j → log[j]? = some ⟨.take now, runs⟩ → runs = true) ∧
    (∀ j c, log[j]? = some ⟨c, true⟩ → ∃ i, Grants log j i) ∧
    ∀ i j j', Grants log j i → Grants log j' i → j = j' := by
  exact ⟨fun j now hruns t ht => add_window_le hclock hruns ht,
    fun j hj => pending_iff_waits window hj,
    fun i j now runs hwaits hget => due_runs_iff hclock hwaits hget,
    fun i j now runs hwaits hget => take_runs hwaits hget,
    fun j c hget => exists_grants hget, fun i j j' => Grants.eq⟩

/-- A window of 50: the second request waits until it is due at 60, and the third one is taken at
75, less than a window later. -/
theorem grants_each_once_dragging :
    let calls : List DebounceCall := [.hit 0, .hit 10, .due 30, .due 60, .hit 70, .take 75]
    let log := answers { window := 50 } calls
    (calls.filterMap DebounceCall.clock?).Pairwise (· ≤ ·) ∧
      (log[3]? = some ⟨.due 60, true⟩ ∧ ∀ t ∈ runTimes (log.take 3), t + 50 ≤ 60) ∧
      log[5]? = some ⟨.take 75, true⟩ ∧ ∃ i, Grants log 5 i := by
  intro calls log
  have hclock : (calls.filterMap DebounceCall.clock?).Pairwise (· ≤ ·) := by decide
  have hdue : log[3]? = some ⟨.due 60, true⟩ := by decide
  have htake : log[5]? = some ⟨.take 75, true⟩ := by decide
  obtain ⟨hspaced, -, -, -, hgrants, -⟩ := grants_each_once 50 calls hclock
  exact ⟨hclock, ⟨hdue, hspaced 3 60 (.inr hdue)⟩, htake, hgrants 5 _ htake⟩

end Debounce

end StateAtlas
