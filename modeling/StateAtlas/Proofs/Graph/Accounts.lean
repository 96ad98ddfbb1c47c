import StateAtlas.Proofs.Graph.Following
/-!
What following the best path costs and what it adds.

A backend is made to count the requests that reach it, which changes none of its answers.  Between two
waypoints there is at most one request, and either a step is counted or the run stops; so there are no
more requests than the bound on the steps allows, however the frontiers recur.

The invariant `Accounts` says that the store lists the nodes it started with and then those that the
run has recorded, and that the steps have paid for the requests.  Only the request that stops a run is
not paid for, and a run that waits for an answer has a step left to pay with.

A run that has stopped is closed for good.

Main statement: `Backend.bestPath_accounts`.
-/

namespace StateAtlas

/-! ## Closed runs -/

namespace BestPathRun

variable {r : BestPathRun} {reason : StopReason}

/-- What a run is asked or told. -/
inductive Call
  | next (s : Store)
  | record (s : Store) (outcome : Except ExploreError Outcome)

/-- The run after a call. -/
def call (r : BestPathRun) : Call → BestPathRun
  | .next s => (r.next s).1
  | .record s outcome => r.record s outcome

theorem record_of_stopped (h : r.stop = some reason) (s : Store)
    (outcome : Except ExploreError Outcome) : r.record s outcome = r := by
  simp [record, h]

theorem next_of_closed (h : r.stop = some reason) (s : Store) :
    r.next s = (r, .done (r.report reason)) := by
  have hsettle : r.settle s = r := settle_of_stopped h
  rw [next_of_stopped (hsettle.symm ▸ h), hsettle]

/-- No call changes a run that has stopped. -/
theorem foldl_call_of_stopped (h : r.stop = some reason) (calls : List Call) :
    calls.foldl call r = r := by
  induction calls with
  | nil => rfl
  | cons c calls ih =>
    have hc : r.call c = r := by
      cases c with
      | next s => exact congrArg Prod.fst (next_of_closed h s)
      | record s outcome => exact record_of_stopped h s outcome
    rw [List.foldl_cons, hc, ih]

/-- A run reports when it has stopped, and for the reason that it stopped. -/
theorem of_next_eq_done {r' : BestPathRun} {s : Store} {report : BestPathReport}
    (h : r.next s = (r', .done report)) :
    r'.stop = some report.stop ∧ report = r'.report report.stop := by
  cases hstop : (r.settle s).stop with
  | none => cases (Prod.mk.inj ((next_of_waiting hstop).symm.trans h)).2
  | some reason =>
    obtain ⟨rfl, hreport⟩ := Prod.mk.inj ((next_of_stopped hstop).symm.trans h)
    obtain rfl := BestPathStep.done.inj hreport
    exact ⟨hstop, (r.report_settle s reason).symm⟩

/-- A merge is recorded as one more step and by what it added. -/
theorem record_merged (h : r.stop = none) (s : Store) (delta : Delta) :
    ∃ frontier stop, r.record s (.ok (.merged delta)) =
      { r with added := r.added ++ delta.nodes, steps := r.steps + 1, frontier, stop } := by
  by_cases hbelow : r.below s = []
  · exact ⟨r.frontier, _, record_merged_of_nil h hbelow delta⟩
  · exact ⟨r.below s, r.stop, record_merged_of_ne_nil h hbelow delta⟩

end BestPathRun

/-! ## Counting requests -/

namespace Backend

variable {σ : Type}

/-- A request that is counted. -/
def counted {α : Type} (request : StateM σ α) : StateM (σ × Nat) α := fun env =>
  let answer := request env.1
  (answer.1, answer.2, env.2 + 1)

/-- The backend that counts the requests made to it. -/
def counting (backend : Backend (StateM σ)) : Backend (StateM (σ × Nat)) where
  initial := counted backend.initial
  status := counted backend.status
  outgoing ids := counted (backend.outgoing ids)
  reset opened closed := counted (backend.reset opened closed)

/-- Counting leaves an answer as it is, and a fetch makes one request at most. -/
theorem fetch_counting (backend : Backend (StateM σ)) (planned : List NodeId) (env : σ)
    (count : Nat) :
    ∃ count' ≤ count + 1, backend.counting.fetch planned (env, count) =
      ((backend.fetch planned env).1, (backend.fetch planned env).2, count') := by
  unfold fetch
  split
  · exact ⟨count, Nat.le_succ count, rfl⟩
  · exact ⟨count + 1, Nat.le_refl _, rfl⟩

/-- Counting changes nothing of what following comes to. -/
theorem follow_counting (backend : Backend (StateM σ)) (capacity : Option Capacity) (s : Store)
    (r : BestPathRun) (env : σ) (count : Nat) :
    let (result, env') := backend.follow capacity s r env
    ∃ count', backend.counting.follow capacity s r (env, count) = (result, env', count') := by
  induction hn : r.remaining using Nat.strongRecOn generalizing s r env count with
  | ind n ih =>
    subst hn
    cases hstop : (r.settle s).stop with
    | some reason =>
      have hnext := BestPathRun.next_of_stopped hstop
      rw [backend.follow_of_done capacity hnext, backend.counting.follow_of_done capacity hnext]
      exact ⟨count, rfl⟩
    | none =>
      have hnext := BestPathRun.next_of_waiting hstop
      have hlt := BestPathRun.remaining_record_lt hnext
      rw [backend.follow_of_fetch capacity hnext, backend.counting.follow_of_fetch capacity hnext]
      obtain ⟨count', -, hfetch⟩ :=
        backend.fetch_counting (s.plan (r.settle s).live) env count
      simp only [bind, StateT.bind, hfetch]
      rcases backend.fetch (s.plan (r.settle s).live) env with ⟨e | g, env'⟩
      · exact ih _ (hlt s (.error e)) _ _ env' count' rfl
      · exact ih _ (hlt _ _) _ _ env' count' rfl

end Backend

/-! ## Accounts -/

namespace Waypoint

variable {σ : Type} {s : Store} {maxSteps : Nat} {capacity : Option Capacity}

/-- The accounts at a waypoint of following that started in the store `s`. -/
structure Accounts (s : Store) (maxSteps : Nat) (w : Waypoint (σ × Nat)) : Prop where
  maxSteps_eq : w.run.maxSteps = maxSteps
  bounded : w.run.steps ≤ maxSteps
  /-- The run has recorded each node that came, in order. -/
  nodeIds_eq : w.store.nodeIds = s.nodeIds ++ w.run.added
  /-- There was a request for each step at most, and perhaps one more that stopped the run. -/
  paid : w.env.2 ≤ w.run.steps ∨ (w.run.stop.isSome = true ∧ w.env.2 ≤ maxSteps)

theorem Accounts.requests_le {w : Waypoint (σ × Nat)} (h : w.Accounts s maxSteps) :
    w.env.2 ≤ maxSteps := by
  rcases h.paid with hpaid | ⟨-, hle⟩
  · exact Nat.le_trans hpaid h.bounded
  · exact hle

theorem accounts_start (s : Store) (sources : List NodeId) (policy : Option String)
    (maxSteps : Nat) (env : σ) :
    (start s sources policy maxSteps (env, 0)).Accounts s maxSteps where
  maxSteps_eq := rfl
  bounded := Nat.zero_le _
  nodeIds_eq := (List.append_nil _).symm
  paid := .inl (Nat.le_refl 0)

theorem Accounts.settle {w : Waypoint (σ × Nat)} (h : w.Accounts s maxSteps) :
    w.settle.Accounts s maxSteps := by
  cases hstop : w.run.stop with
  | some reason =>
    unfold Waypoint.settle
    rw [BestPathRun.settle_of_stopped hstop]
    exact h
  | none =>
    obtain ⟨live, stop, hsettle⟩ := w.run.settle_eq w.store
    have hpaid : w.env.2 ≤ w.run.steps := h.paid.resolve_right (by simp [hstop])
    unfold Waypoint.settle
    rw [hsettle]
    exact ⟨h.maxSteps_eq, h.bounded, h.nodeIds_eq, .inl hpaid⟩

/-- Whatever is answered to a run that waits, the accounts remain in order. -/
theorem Accounts.hear {w : Waypoint (σ × Nat)} (h : w.Accounts s maxSteps)
    (hwaits : w.run.stop = none) (hsteps : w.run.steps < w.run.maxSteps) (planned : List NodeId)
    (answer : Except ExploreError Fragment × (σ × Nat)) (hcount : answer.2.2 ≤ w.env.2 + 1) :
    (w.hear capacity planned answer).Accounts s maxSteps := by
  have hroom : w.run.steps + 1 ≤ maxSteps := h.maxSteps_eq ▸ hsteps
  have hpaid : answer.2.2 ≤ w.run.steps + 1 :=
    Nat.le_trans hcount (Nat.succ_le_succ (h.paid.resolve_right (by simp [hwaits])))
  obtain ⟨result, env⟩ := answer
  cases result with
  | error e =>
    rw [Waypoint.hear, BestPathRun.record_error hwaits]
    exact ⟨h.maxSteps_eq, h.bounded, h.nodeIds_eq, .inr ⟨rfl, Nat.le_trans hpaid hroom⟩⟩
  | ok g =>
    unfold Waypoint.hear
    rcases w.store.commit_cases planned g capacity with ⟨pending, hcommit, -, -⟩ | hcommit
    · simp only [hcommit, BestPathRun.record_heldBack hwaits]
      exact ⟨h.maxSteps_eq, h.bounded, h.nodeIds_eq, .inr ⟨rfl, Nat.le_trans hpaid hroom⟩⟩
    · obtain ⟨frontier, stop, hrecord⟩ := BestPathRun.record_merged hwaits
        (w.store.merge planned g) (.between w.store (w.store.merge planned g))
      simp only [hcommit, hrecord]
      refine ⟨h.maxSteps_eq, hroom, ?_, .inl hpaid⟩
      have hmerged : (w.store.merge planned g).nodeIds = w.store.nodeIds ++
          (Delta.between w.store (w.store.merge planned g)).nodes := w.store.nodeIds_add g
      exact hmerged.trans (by rw [h.nodeIds_eq, List.append_assoc])

/-- Each step keeps the accounts in order. -/
theorem Accounts.step {w : Waypoint (σ × Nat)} (h : w.Accounts s maxSteps)
    (backend : Backend (StateM σ)) :
    (w.step backend.counting capacity).Accounts s maxSteps := by
  unfold Waypoint.step
  cases hstop : (w.run.settle w.store).stop with
  | some reason =>
    rw [BestPathRun.next_of_stopped hstop]
    exact h.settle
  | none =>
    rw [BestPathRun.next_of_waiting hstop]
    refine h.settle.hear hstop (BestPathRun.live_settle hstop).2 _ _ ?_
    obtain ⟨count', hle, hfetch⟩ :=
      backend.fetch_counting (w.store.plan (w.run.settle w.store).live) w.env.1 w.env.2
    exact hfetch ▸ hle

theorem accounts_iterate (backend : Backend (StateM σ)) {w : Waypoint (σ × Nat)}
    (h : w.Accounts s maxSteps) (n : Nat) :
    ((Waypoint.step backend.counting capacity)^[n] w).Accounts s maxSteps := by
  induction n with
  | zero => exact h
  | succ n ih =>
    rw [Function.iterate_succ_apply']
    exact ih.step backend

/-! ## The last waypoint -/

variable {w w' : Waypoint σ}

/-- What stops a run without a merge leaves the store as it was. -/
theorem Turn.store_eq (h : w.Turn capacity w') (hwaits : w.run.stop = none)
    (hsetback : (∃ e, w'.run.stop = some (.failed e)) ∨
      ∃ pending, w'.run.stop = some (.capacity pending)) : w'.store = w.store := by
  cases h with
  | failed | heldBack => rfl
  | exhausted => rcases hsetback with ⟨e, he⟩ | ⟨pending, he⟩ <;> cases he
  | passed => rcases hsetback with ⟨e, he⟩ | ⟨pending, he⟩ <;> simp [hwaits] at he

/-- A run that waits stops in the next step, or the step is counted. -/
theorem Turn.stops_or_counts (h : w.Turn capacity w') :
    w'.run.stop.isSome = true ∨ w'.run.steps = w.run.steps + 1 := by
  cases h with
  | failed | heldBack | exhausted => exact .inl rfl
  | passed => exact .inr rfl

theorem settle_settle (w : Waypoint σ) : w.settle.settle = w.settle :=
  congrArg (fun run => { w with run }) (w.run.settle_idem w.store)

/-- Where no step is left over, the run has stopped. -/
theorem stopped_of_steps_eq (hsteps : w.run.steps = w.run.maxSteps) :
    w.settle.run.stop.isSome = true := by
  rw [Option.isSome_iff_ne_none]
  intro hwaits
  have hlt := (BestPathRun.live_settle hwaits).2
  rw [BestPathRun.steps_settle, BestPathRun.maxSteps_settle] at hlt
  exact absurd hsteps (Nat.ne_of_lt hlt)

/-- After some steps the run has stopped, or it has counted each of them. -/
theorem stops_or_counts_iterate (backend : Backend (StateM σ)) (capacity : Option Capacity)
    (hstart : w.run.steps = 0) (n : Nat) :
    let w' := (Waypoint.step backend capacity)^[n] w
    w'.settle.run.stop.isSome = true ∨ w'.run.steps = n := by
  induction n with
  | zero => exact .inr hstart
  | succ n ih =>
    rw [Function.iterate_succ_apply']
    generalize (Waypoint.step backend capacity)^[n] w = w' at ih ⊢
    intro w''
    rcases step_cases backend capacity w' with ⟨reason, hstop, hstep⟩ | ⟨hwaits, hturn⟩
    · have hclosed : w'.settle.run.stop.isSome = true := by rw [hstop]; rfl
      rw [show w'' = w'.settle from hstep, settle_settle]
      exact .inl hclosed
    · have hcounted : w'.run.steps = n := ih.resolve_left (by simp [hwaits])
      rcases hturn.stops_or_counts with hstop | hsteps
      · obtain ⟨reason, hreason⟩ := Option.isSome_iff_exists.1 hstop
        have hsettle : w''.run.settle w''.store = w''.run := BestPathRun.settle_of_stopped hreason
        left
        rw [Waypoint.settle, hsettle]
        exact hstop
      · right
        rw [hsteps, ← hcounted]
        exact congrArg (· + 1) (w'.run.steps_settle w'.store)

/-- Following goes on from the next waypoint, also where it has ended. -/
theorem follow_step (backend : Backend (StateM σ)) (capacity : Option Capacity) (w : Waypoint σ) :
    let w' := w.step backend capacity
    backend.follow capacity w.store w.run w.env =
      backend.follow capacity w'.store w'.run w'.env := by
  cases hstop : w.settle.run.stop with
  | none => exact (follow_of_waiting backend capacity hstop).1
  | some reason =>
    have hstep : w.step backend capacity = w.settle := by
      rcases step_cases backend capacity w with ⟨-, -, hstep⟩ | ⟨hwaits, -⟩
      · exact hstep
      · rw [hwaits] at hstop
        nomatch hstop
    have hclosed : w.settle.settle.run.stop = some reason := by rw [settle_settle, hstop]
    intro w'
    rw [show w' = w.settle from hstep, follow_of_stopped backend capacity hstop,
      follow_of_stopped backend capacity hclosed]
    exact congrArg (fun report => ((w.store, report), w.env))
      (w.run.report_settle w.store reason).symm

theorem follow_iterate (backend : Backend (StateM σ)) (capacity : Option Capacity)
    (w : Waypoint σ) (n : Nat) :
    let w' := (Waypoint.step backend capacity)^[n] w
    backend.follow capacity w.store w.run w.env =
      backend.follow capacity w'.store w'.run w'.env := by
  induction n with
  | zero => rfl
  | succ n ih =>
    rw [Function.iterate_succ_apply', ih]
    exact follow_step backend capacity _

/-- A run with a bound on its steps takes no more turns than that. -/
theorem follow_eq_of_steps_eq_zero (backend : Backend (StateM σ)) (capacity : Option Capacity)
    (w : Waypoint σ) (hstart : w.run.steps = 0) (hbound : ∀ n,
      ((Waypoint.step backend capacity)^[n] w).run.maxSteps = w.run.maxSteps) :
    ∃ reason, let w' := (Waypoint.step backend capacity)^[w.run.maxSteps] w
      w'.settle.run.stop = some reason ∧
      backend.follow capacity w.store w.run w.env =
        ((w'.store, w'.run.report reason), w'.env) := by
  have hstops : ((Waypoint.step backend capacity)^[w.run.maxSteps] w).settle.run.stop.isSome =
      true := by
    rcases stops_or_counts_iterate backend capacity hstart w.run.maxSteps with hstop | hsteps
    · exact hstop
    · exact stopped_of_steps_eq (hsteps.trans (hbound _).symm)
  obtain ⟨reason, hstop⟩ := Option.isSome_iff_exists.1 hstops
  refine ⟨reason, hstop, ?_⟩
  rw [follow_iterate backend capacity w w.run.maxSteps]
  exact follow_of_stopped backend capacity hstop

end Waypoint

/-- **Following the best path is bounded and accounts for every node.**  Counting its requests changes
nothing of what following comes to.  Whatever the backend answers, there are no more turns than steps
allowed, and no more requests; nor does the report tell of more steps.  The store then lists the nodes
that it listed before and after them those that the report tells as added, none of them twice.  A turn
that fails or is held back leaves the store as it was.  Once a run has stopped, no call changes it, and
it reports the same whenever it is asked. -/
theorem Backend.bestPath_accounts {σ : Type} (backend : Backend (StateM σ)) (env : σ) (s : Store)
    (sources : List NodeId) (policy : Option String) (maxSteps : Nat) (capacity : Option Capacity) :
    let w : Nat → Waypoint (σ × Nat) := fun n =>
      (Waypoint.step backend.counting capacity)^[n] (.start s sources policy maxSteps (env, 0))
    (∃ (after : Store) (report : BestPathReport) (env' : σ) (requests : Nat),
      backend.bestPath s sources policy maxSteps capacity env = ((after, report), env') ∧
      backend.counting.bestPath s sources policy maxSteps capacity (env, 0) =
        ((after, report), env', requests) ∧
      after = (w maxSteps).store ∧ requests ≤ maxSteps ∧ report.steps ≤ maxSteps ∧
      after.nodeIds = s.nodeIds ++ report.added ∧ after.nodeIds.Nodup) ∧
    (∀ n, ((∃ e, (w (n + 1)).run.stop = some (.failed e)) ∨
        ∃ pending, (w (n + 1)).run.stop = some (.capacity pending)) →
      (w (n + 1)).store = (w n).store) ∧
    (∀ (r r' : BestPathRun) (t : Store) (report : BestPathReport), r.next t = (r', .done report) →
      r'.stop = some report.stop ∧ report = r'.report report.stop) ∧
    ∀ (r : BestPathRun) (reason : StopReason), r.stop = some reason →
      ∀ calls : List BestPathRun.Call, calls.foldl BestPathRun.call r = r ∧
        ∀ t, r.next t = (r, .done (r.report reason)) := by
  intro w
  -- The accounts hold after every turn, and following ends within the steps allowed.
  have haccounts : ∀ n, (w n).Accounts s maxSteps :=
    Waypoint.accounts_iterate backend (Waypoint.accounts_start s sources policy maxSteps env)
  refine ⟨?ends, ?setbacks, fun r r' t report h => BestPathRun.of_next_eq_done h,
    fun r reason h calls => ⟨BestPathRun.foldl_call_of_stopped h calls,
      BestPathRun.next_of_closed h⟩⟩
  case ends =>
    obtain ⟨reason, -, hfollow⟩ := Waypoint.follow_eq_of_steps_eq_zero backend.counting capacity
      (.start s sources policy maxSteps (env, 0)) rfl fun n => (haccounts n).maxSteps_eq
    obtain ⟨count', hcounting⟩ := backend.follow_counting capacity s
      (.start s sources policy maxSteps) env 0
    obtain ⟨hresult, henv⟩ := Prod.mk.inj (hcounting.symm.trans hfollow)
    have hw := haccounts maxSteps
    refine ⟨(w maxSteps).store, (w maxSteps).run.report reason, (w maxSteps).env.1,
      (w maxSteps).env.2, ?_, hfollow, rfl, hw.requests_le, hw.bounded, hw.nodeIds_eq,
      Store.nodup_nodeIds _⟩
    exact Prod.ext hresult (congrArg Prod.fst henv)
  case setbacks =>
    intro n hsetback
    have hnext : w (n + 1) = (w n).step backend.counting capacity := Function.iterate_succ_apply' ..
    rcases Waypoint.step_cases backend.counting capacity (w n) with ⟨-, -, hstep⟩ | ⟨hwaits, hturn⟩
    · rw [hnext, hstep]
      rfl
    · rw [hnext] at hsetback ⊢
      exact hturn.store_eq hwaits hsetback

end StateAtlas
