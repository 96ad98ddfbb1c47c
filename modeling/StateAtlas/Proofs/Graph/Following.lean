import Mathlib.Logic.Function.Iterate
import StateAtlas.Graph.BestPath
import StateAtlas.Proofs.Graph.Hops
/-!
What following the best path finds.

Following alternates between asking the backend and merging its answer.  A waypoint is where it
stands before it asks: the store, the run and the environment in which the backend will answer,
together with a record of what has been said and of how many layers have been passed.  `step` leads
from a waypoint to the next and stays where nothing is left to ask, so that the waypoints are the
iterates of one function and `follow` ends at one of them.

The invariant `Sound` says of a waypoint that its frontier holds states which can be reached from
the sources by as many hops as layers have been passed, and that a run which stopped had the reason
it gives.  Each step keeps it, and each step either leaves the frontier where it is or moves it to
just the states that lie below it.

Main statement: `Backend.bestPath_sound`.
-/

namespace StateAtlas

/-- The states one layer below a frontier.  Without a policy these are the states one hop away from
a live member, with one they are the best successors of the live members. -/
def Store.Below (s : Store) (policy : Option String) (frontier : List NodeId) (y : NodeId) : Prop :=
  ∃ x ∈ frontier, s.Live x ∧
    match policy with
    | none => s.Hop x y
    | some policy => s.bestNext? x policy = some y

theorem Store.Below.hop {s : Store} {policy : Option String} {frontier : List NodeId} {y : NodeId}
    (hheld : ∀ x ∈ frontier, s.Holds .state x) (h : s.Below policy frontier y) :
    ∃ x ∈ frontier, s.Live x ∧ s.Hop x y := by
  obtain ⟨x, hx, hlive, hnext⟩ := h
  cases policy with
  | none => exact ⟨x, hx, hlive, hnext⟩
  | some policy => exact ⟨x, hx, hlive, Store.hop_of_bestNext? (hheld x hx) hnext⟩

/-! ## Runs -/

namespace BestPathRun

variable {r : BestPathRun} {s t : Store} {id : NodeId}

/-- The members of the frontier in which no run of the system ends. -/
def alive (r : BestPathRun) (s : Store) : List NodeId :=
  r.frontier.filter fun id => !s.isTerminal id

theorem mem_alive_iff : id ∈ r.alive s ↔ id ∈ r.frontier ∧ s.isTerminal id = false := by
  simp [alive]

theorem alive_eq_nil_iff : r.alive s = [] ↔ ∀ id ∈ r.frontier, s.isTerminal id = true := by
  simp [alive]

theorem settle_of_stopped {reason : StopReason} (h : r.stop = some reason) : r.settle s = r := by
  simp [settle, h]

/-- A run that has not stopped goes on with what is alive, or it stops for one of three reasons. -/
theorem settle_cases (s : Store) (h : r.stop = none) :
    (r.steps < r.maxSteps ∧ r.settle s = { r with live := r.alive s }) ∨
    (r.maxSteps ≤ r.steps ∧ r.settle s = { r with stop := some .stepLimit }) ∨
    (r.frontier ≠ [] ∧ r.alive s = [] ∧
      r.settle s = { r with live := r.alive s, stop := some .terminal }) ∨
    (r.frontier = [] ∧ r.settle s = { r with live := r.alive s, stop := some .emptyFrontier }) := by
  unfold settle
  rw [h]
  by_cases hbound : r.maxSteps ≤ r.steps
  · exact .inr (.inl ⟨hbound, by simp [hbound]⟩)
  · have hlt : r.steps < r.maxSteps := Nat.lt_of_not_le hbound
    by_cases halive : r.alive s = []
    · by_cases hfrontier : r.frontier = []
      · refine .inr (.inr (.inr ⟨hfrontier, ?_⟩))
        simp [hbound, alive, hfrontier]
      · refine .inr (.inr (.inl ⟨hfrontier, halive, ?_⟩))
        unfold alive at halive
        simp [hbound, alive, halive, hfrontier]
    · refine .inl ⟨hlt, ?_⟩
      unfold alive at halive
      simp [hbound, alive, halive]

/-- A run that goes on has room for another layer and follows what is alive. -/
theorem live_settle (hgoes : (r.settle s).stop = none) :
    (r.settle s).live = (r.settle s).alive s ∧ (r.settle s).steps < (r.settle s).maxSteps := by
  have hstop := (of_stop_settle_eq_none hgoes).1
  rcases settle_cases s hstop with ⟨hlt, h⟩ | ⟨-, h⟩ | ⟨-, -, h⟩ | ⟨-, h⟩
  · rw [h]
    exact ⟨rfl, hlt⟩
  all_goals
    rw [h] at hgoes
    nomatch hgoes

theorem next_of_stopped {reason : StopReason} (hstop : (r.settle s).stop = some reason) :
    r.next s = (r.settle s, .done (r.report reason)) := by
  simp [next, hstop]

theorem next_of_waiting (hwaits : (r.settle s).stop = none) :
    r.next s = (r.settle s, .fetch (s.plan (r.settle s).live)) := by
  simp [next, hwaits]

/-- A run that waits for an answer follows something. -/
theorem alive_ne_nil_of_waiting (hwaits : (r.settle s).stop = none) : r.alive s ≠ [] := by
  intro halive
  obtain ⟨hr, hlt⟩ := of_stop_settle_eq_none hwaits
  unfold alive at halive
  unfold settle at hwaits
  simp only [hr, Option.isSome_none, Bool.false_eq_true, if_false, Nat.not_le.2 hlt, halive,
    List.isEmpty_nil, Bool.not_true] at hwaits
  split at hwaits <;> nomatch hwaits

/-- Settling a run once is enough. -/
theorem settle_idem (r : BestPathRun) (s : Store) : (r.settle s).settle s = r.settle s := by
  cases hstop : (r.settle s).stop with
  | some reason => exact settle_of_stopped hstop
  | none =>
    obtain ⟨hlive, hsteps⟩ := live_settle hstop
    have halive : (r.settle s).alive s ≠ [] := by
      rw [alive, r.frontier_settle s]
      exact alive_ne_nil_of_waiting hstop
    rcases settle_cases s hstop with ⟨-, h⟩ | ⟨hle, -⟩ | ⟨-, hnil, -⟩ | ⟨hempty, -⟩
    · rw [h, ← hlive]
    · exact absurd hsteps (Nat.not_lt.2 hle)
    · exact absurd hnil halive
    · exact absurd (by rw [alive, hempty]; rfl) halive

/-- What a run asks for is planned from its live states. -/
theorem planned_of_next_eq_fetch {r' : BestPathRun} {planned : List NodeId}
    (h : r.next s = (r', .fetch planned)) : planned = s.plan r'.live := by
  obtain ⟨rfl, hstop⟩ := eq_settle_of_next_eq_fetch h
  rw [next_of_waiting hstop] at h
  exact (BestPathStep.fetch.inj (Prod.mk.inj h).2).symm

/-- A run that waits for an answer asks for the same again. -/
theorem next_of_next_eq_fetch {r' : BestPathRun} {planned : List NodeId}
    (h : r.next s = (r', .fetch planned)) : r'.next s = (r', .fetch planned) := by
  obtain ⟨rfl, hstop⟩ := eq_settle_of_next_eq_fetch h
  have hidem := r.settle_idem s
  rw [next_of_waiting hstop] at h
  rw [next_of_waiting (by rw [hidem]; exact hstop), hidem]
  exact h

/-- What the run finds below its live states is what lies below its frontier.  The live states are
picked before a merge and followed after it, which makes no difference. -/
theorem mem_below_iff (hgrows : s.GrowsTo t) (hheld : ∀ x ∈ r.frontier, s.Holds .state x)
    (hlive : r.live = r.alive s) : id ∈ r.below t ↔ t.Below r.policy r.frontier id := by
  have hmem : ∀ x, x ∈ r.live ↔ x ∈ r.frontier ∧ t.Live x := by
    intro x
    rw [hlive, mem_alive_iff]
    refine and_congr_right fun hx => ?_
    rw [hgrows.live_iff (hheld x hx), (hheld x hx).live_iff]
  unfold below Store.Below
  cases r.policy with
  | none =>
    have hstates : ∀ x ∈ r.live, t.Holds .state x := fun x hx =>
      hgrows.holds (hheld x ((hmem x).1 hx).1)
    rw [Store.mem_nextStates_iff hstates]
    simp only [hmem, and_assoc]
  | some policy => simp only [List.mem_eraseDups, List.mem_filterMap, hmem, and_assoc]

theorem nodup_below (r : BestPathRun) (s : Store) : (r.below s).Nodup := by
  unfold below
  split
  · exact nodup_eraseDups _
  · exact nodup_eraseDups _

theorem record_error (h : r.stop = none) (s : Store) (e : ExploreError) :
    r.record s (.error e) = { r with stop := some (.failed e) } := by
  simp [record, h]

theorem record_heldBack (h : r.stop = none) (s : Store) (pending : Pending) :
    r.record s (.ok (.capacityExceeded pending)) = { r with stop := some (.capacity pending) } := by
  simp [record, h]

/-- A merge that leaves nothing below the live states stops the run where it is. -/
theorem record_merged_of_nil (h : r.stop = none) (hbelow : r.below s = []) (delta : Delta) :
    r.record s (.ok (.merged delta)) =
      { r with
        added := r.added ++ delta.nodes
        steps := r.steps + 1
        stop := some .emptyFrontier } := by
  unfold below at hbelow
  simp [record, h, below, hbelow]

theorem record_merged_of_ne_nil (h : r.stop = none) (hbelow : r.below s ≠ []) (delta : Delta) :
    r.record s (.ok (.merged delta)) =
      { r with
        added := r.added ++ delta.nodes
        steps := r.steps + 1
        frontier := r.below s } := by
  unfold record
  simp only [h, Option.isSome_none, Bool.false_eq_true, if_false]
  split
  next hnil => exact absurd hnil hbelow
  next => rfl

/-- A merge does not stop a run at the ceiling. -/
theorem stop_record_merged_ne (h : r.stop = none) (s : Store) (delta : Delta) (pending : Pending) :
    (r.record s (.ok (.merged delta))).stop ≠ some (.capacity pending) := by
  by_cases hbelow : r.below s = []
  · rw [record_merged_of_nil h hbelow]
    simp
  · rw [record_merged_of_ne_nil h hbelow]
    simp [h]

end BestPathRun

namespace Backend

variable {m : Type → Type} [Monad m] {r r' : BestPathRun} {s : Store}

theorem follow_of_done (backend : Backend m) (capacity : Option Capacity) {report : BestPathReport}
    (h : r.next s = (r', .done report)) : backend.follow capacity s r = pure (s, report) := by
  rw [follow]
  split
  next heq =>
    obtain rfl : _ = report := BestPathStep.done.inj (Prod.mk.inj (heq.symm.trans h)).2
    rfl
  next heq => cases (Prod.mk.inj (heq.symm.trans h)).2

theorem follow_of_fetch (backend : Backend m) (capacity : Option Capacity) {planned : List NodeId}
    (h : r.next s = (r', .fetch planned)) :
    backend.follow capacity s r = (do
      match ← backend.fetch planned with
      | .error e => backend.follow capacity s (r'.record s (.error e))
      | .ok g =>
        let merged := s.commit planned g capacity
        backend.follow capacity merged.1 (r'.record merged.1 (.ok merged.2))) := by
  rw [follow]
  split
  next heq => cases (Prod.mk.inj (heq.symm.trans h)).2
  next heq =>
    obtain ⟨rfl, hplanned⟩ := Prod.mk.inj (heq.symm.trans h)
    obtain rfl := BestPathStep.fetch.inj hplanned
    rfl

end Backend

/-! ## Waypoints -/

/-- Where following stands before it asks the backend. -/
structure Waypoint (σ : Type) where
  store : Store
  run : BestPathRun
  /-- What the next answer depends on. -/
  env : σ
  /-- How many merges have been recorded that left a frontier to go on with. -/
  layers : Nat := 0
  /-- What was asked for and answered, the latest first. -/
  heard : List (List NodeId × Except ExploreError Fragment) := []

namespace Waypoint

variable {σ : Type}

/-- Where following starts. -/
def start (s : Store) (sources : List NodeId) (policy : Option String) (maxSteps : Nat) (env : σ) :
    Waypoint σ :=
  { store := s, run := .start s sources policy maxSteps, env }

/-- The waypoint with its run settled. -/
def settle (w : Waypoint σ) : Waypoint σ := { w with run := w.run.settle w.store }

/-- The waypoint after an answer to what was planned. -/
def hear (w : Waypoint σ) (capacity : Option Capacity) (planned : List NodeId) :
    Except ExploreError Fragment × σ → Waypoint σ
  | (.error e, env) =>
    { w with
      run := w.run.record w.store (.error e)
      env
      heard := (planned, .error e) :: w.heard }
  | (.ok g, env) =>
    let (store, outcome) := w.store.commit planned g capacity
    let passed := outcome.delta?.isSome && !(w.run.below store).isEmpty
    { store
      run := w.run.record store (.ok outcome)
      env
      layers := if passed then w.layers + 1 else w.layers
      heard := (planned, .ok g) :: w.heard }

/-- The next waypoint.  Where nothing is left to ask, following stays. -/
def step (backend : Backend (StateM σ)) (capacity : Option Capacity) (w : Waypoint σ) :
    Waypoint σ :=
  match w.run.next w.store with
  | (run, .done _) => { w with run }
  | (run, .fetch planned) =>
    { w with run }.hear capacity planned (backend.fetch planned w.env)

/-- How a waypoint follows on another whose run waits for an answer. -/
inductive Turn (capacity : Option Capacity) (w : Waypoint σ) : Waypoint σ → Prop
  | failed (planned : List NodeId) (e : ExploreError) (env : σ) :
    Turn capacity w { w with
      run := { w.run with stop := some (.failed e) }
      env
      heard := (planned, .error e) :: w.heard }
  | heldBack (pending : Pending) (env : σ) :
    w.store.commit pending.frontier pending.fetched capacity =
      (w.store, .capacityExceeded pending) →
    Turn capacity w { w with
      run := { w.run with stop := some (.capacity pending) }
      env
      heard := (pending.frontier, .ok pending.fetched) :: w.heard }
  | exhausted (planned : List NodeId) (g : Fragment) (env : σ) (t : Store) (added : List NodeId) :
    w.store.GrowsTo t → w.run.below t = [] →
    Turn capacity w { w with
      store := t
      run := { w.run with added, steps := w.run.steps + 1, stop := some .emptyFrontier }
      env
      heard := (planned, .ok g) :: w.heard }
  | passed (planned : List NodeId) (g : Fragment) (env : σ) (t : Store) (added : List NodeId) :
    w.store.GrowsTo t → w.run.below t ≠ [] →
    Turn capacity w { w with
      store := t
      run := { w.run with added, steps := w.run.steps + 1, frontier := w.run.below t }
      env
      layers := w.layers + 1
      heard := (planned, .ok g) :: w.heard }

variable {backend : Backend (StateM σ)} {capacity : Option Capacity} {w w' : Waypoint σ}

/-- Whatever the backend answers, there are these four ways to go on. -/
theorem turn_hear (hwaits : w.run.stop = none) (planned : List NodeId)
    (answer : Except ExploreError Fragment × σ) :
    w.Turn capacity (w.hear capacity planned answer) := by
  obtain ⟨result, env⟩ := answer
  cases result with
  | error e =>
    rw [hear, BestPathRun.record_error hwaits]
    exact .failed planned e env
  | ok g =>
    unfold hear
    rcases w.store.commit_cases planned g capacity with ⟨pending, hcommit, rfl, rfl⟩ | hcommit
    · simp only [hcommit, BestPathRun.record_heldBack hwaits]
      exact .heldBack pending env hcommit
    · have hgrows := Store.GrowsTo.merge w.store planned g
      simp only [hcommit]
      by_cases hbelow : w.run.below (w.store.merge planned g) = []
      · rw [BestPathRun.record_merged_of_nil hwaits hbelow]
        simp only [hbelow]
        exact .exhausted planned g env _ _ hgrows hbelow
      · rw [BestPathRun.record_merged_of_ne_nil hwaits hbelow]
        have hpassed : (w.run.below (w.store.merge planned g)).isEmpty = false := by
          simpa using hbelow
        simp only [hpassed]
        exact .passed planned g env _ _ hgrows hbelow

/-- A step leads to where the run has stopped, or to where the backend's answer leads. -/
theorem step_cases (backend : Backend (StateM σ)) (capacity : Option Capacity) (w : Waypoint σ) :
    (∃ reason, w.settle.run.stop = some reason ∧ w.step backend capacity = w.settle) ∨
    (w.settle.run.stop = none ∧ w.settle.Turn capacity (w.step backend capacity)) := by
  unfold step
  cases hstop : (w.run.settle w.store).stop with
  | some reason =>
    rw [BestPathRun.next_of_stopped hstop]
    exact .inl ⟨reason, hstop, rfl⟩
  | none =>
    rw [BestPathRun.next_of_waiting hstop]
    exact .inr ⟨hstop, turn_hear hstop _ _⟩

/-! ## What holds at a waypoint -/

/-- What a reason for stopping says of the waypoint where the run stops; following started from
sources in the store `s`. -/
def Warrants (s : Store) (sources : List NodeId) (capacity : Option Capacity) (w : Waypoint σ) :
    StopReason → Prop
  | .stepLimit => w.run.steps = w.run.maxSteps
  | .terminal =>
    w.run.frontier ≠ [] ∧
    ∀ id ∈ w.run.frontier, ∃ n, w.store.node? id = some n ∧ n.satisfies Proposition.finished = true
  | .emptyFrontier =>
    (∀ id ∈ sources, ¬ s.Holds .state id) ∨
    (∃ planned g, w.heard.head? = some (planned, .ok g)) ∧ w.run.steps = w.layers + 1 ∧
      ∀ id, ¬ w.store.Below w.run.policy w.run.frontier id
  | .capacity pending =>
    w.heard.head? = some (pending.frontier, .ok pending.fetched) ∧
    w.store.commit pending.frontier pending.fetched capacity = (w.store, .capacityExceeded pending)
  | .failed e => ∃ planned, w.heard.head? = some (planned, .error e)

/-- Following that started from sources in the store `s` is on the right way. -/
structure Sound (s : Store) (sources : List NodeId) (policy : Option String) (maxSteps : Nat)
    (capacity : Option Capacity) (w : Waypoint σ) : Prop where
  policy_eq : w.run.policy = policy
  maxSteps_eq : w.run.maxSteps = maxSteps
  grown : s.GrowsTo w.store
  /-- The frontier consists of states. -/
  held : ∀ id ∈ w.run.frontier, w.store.Holds .state id
  /-- Each member of the frontier is as many hops from a source as layers have been passed. -/
  reached : ∀ id ∈ w.run.frontier, ∃ source ∈ sources, w.store.Trail source w.layers id
  bounded : w.run.steps ≤ maxSteps
  /-- Each merge passes a layer, unless it is the last and leaves nothing to go on with. -/
  counted : w.run.steps = w.layers ∨
    (w.run.stop = some .emptyFrontier ∧ w.run.steps = w.layers + 1)
  idle : w.run.frontier = [] → ∀ id ∈ sources, ¬ s.Holds .state id
  warranted : ∀ reason, w.run.stop = some reason → w.Warrants s sources capacity reason

/-- From one waypoint to the next the frontier either stays or moves one layer down, to all of what
lies below it in the store that has just been merged into. -/
def Moves (policy : Option String) (w w' : Waypoint σ) : Prop :=
  (w'.layers = w.layers ∧ w'.run.frontier = w.run.frontier) ∨
  (w'.layers = w.layers + 1 ∧ w'.run.frontier ≠ [] ∧ w'.run.frontier.Nodup ∧
    ∀ id, id ∈ w'.run.frontier ↔ w'.store.Below policy w.run.frontier id)

variable {s : Store} {sources : List NodeId} {policy : Option String} {maxSteps : Nat}

theorem sound_start (s : Store) (sources : List NodeId) (policy : Option String) (maxSteps : Nat)
    (capacity : Option Capacity) (env : σ) :
    (start s sources policy maxSteps env).Sound s sources policy maxSteps capacity := by
  have hfrontier : ∀ id, id ∈ (start s sources policy maxSteps env).run.frontier ↔
      id ∈ sources ∧ s.Holds .state id := by
    intro id
    rw [Store.holds_state_iff]
    exact List.mem_filter
  refine ⟨rfl, rfl, .refl s, ?held, ?reached, Nat.zero_le _, .inl rfl, ?idle, nofun⟩
  case held => exact fun id hid => ((hfrontier id).1 hid).2
  case reached => exact fun id hid => ⟨id, ((hfrontier id).1 hid).1, .start⟩
  case idle =>
    intro hempty id hid hheld
    have hmem := (hfrontier id).2 ⟨hid, hheld⟩
    rw [hempty] at hmem
    exact List.not_mem_nil hmem

/-- Settling its run changes nothing that a reason for stopping is about. -/
theorem warrants_settle (w : Waypoint σ) (reason : StopReason) :
    w.settle.Warrants s sources capacity reason ↔ w.Warrants s sources capacity reason := by
  cases reason <;> simp [Warrants, Waypoint.settle]

theorem Sound.steps_eq (h : w.Sound s sources policy maxSteps capacity)
    (hwaits : w.run.stop = none) : w.run.steps = w.layers := by
  rcases h.counted with hsteps | ⟨hstop, -⟩
  · exact hsteps
  · rw [hwaits] at hstop
    nomatch hstop

/-- A run may stop where it is for any reason that is warranted there. -/
theorem Sound.stop (h : w.Sound s sources policy maxSteps capacity) (hwaits : w.run.stop = none)
    {live : List NodeId} {reason : StopReason} {env : σ}
    {heard : List (List NodeId × Except ExploreError Fragment)}
    (hreason : Warrants s sources capacity
      { w with run := { w.run with live, stop := some reason }, env, heard } reason) :
    Sound s sources policy maxSteps capacity
      { w with run := { w.run with live, stop := some reason }, env, heard } where
  policy_eq := h.policy_eq
  maxSteps_eq := h.maxSteps_eq
  grown := h.grown
  held := h.held
  reached := h.reached
  bounded := h.bounded
  counted := .inl (h.steps_eq hwaits)
  idle := h.idle
  warranted reason' hreason' := by
    obtain rfl : reason = reason' := Option.some.inj hreason'
    exact hreason

theorem Sound.withLive (h : w.Sound s sources policy maxSteps capacity) (live : List NodeId)
    (hwaits : w.run.stop = none) :
    Sound s sources policy maxSteps capacity { w with run := { w.run with live } } where
  policy_eq := h.policy_eq
  maxSteps_eq := h.maxSteps_eq
  grown := h.grown
  held := h.held
  reached := h.reached
  bounded := h.bounded
  counted := h.counted
  idle := h.idle
  warranted reason hreason := by
    rw [hwaits] at hreason
    nomatch hreason

/-- If a run settles by stopping, then for a good reason. -/
theorem Sound.settle (h : w.Sound s sources policy maxSteps capacity) :
    w.settle.Sound s sources policy maxSteps capacity := by
  unfold Waypoint.settle
  cases hstop : w.run.stop with
  | some reason =>
    rw [BestPathRun.settle_of_stopped hstop]
    exact h
  | none =>
    rcases BestPathRun.settle_cases w.store hstop with
      ⟨-, hsettle⟩ | ⟨hlimit, hsettle⟩ | ⟨hfrontier, halive, hsettle⟩ | ⟨hempty, hsettle⟩
    · rw [hsettle]
      exact h.withLive _ hstop
    · rw [hsettle]
      refine h.stop hstop ?_
      have hbound := h.bounded
      rw [← h.maxSteps_eq] at hbound
      exact Nat.le_antisymm hbound hlimit
    · rw [hsettle]
      refine h.stop hstop ⟨hfrontier, fun id hid => ?_⟩
      have hterminal := BestPathRun.alive_eq_nil_iff.1 halive id hid
      -- As the state is held, the proposition is read off its node.
      obtain ⟨n, hn, -⟩ := h.held id hid
      rw [Store.isTerminal, hn] at hterminal
      exact ⟨n, hn, hterminal⟩
    · rw [hsettle]
      exact h.stop hstop (.inl (h.idle hempty))

/-- Whatever the backend answers, following remains on the right way. -/
theorem Sound.turn (h : w.Sound s sources policy maxSteps capacity) (hwaits : w.run.stop = none)
    (hlive : w.run.live = w.run.alive w.store) (hsteps : w.run.steps < w.run.maxSteps)
    (hturn : w.Turn capacity w') : w'.Sound s sources policy maxSteps capacity := by
  have hbound : w.run.steps + 1 ≤ maxSteps := h.maxSteps_eq ▸ hsteps
  cases hturn with
  | failed planned e env => exact h.stop hwaits ⟨planned, rfl⟩
  | heldBack pending env hcommit => exact h.stop hwaits ⟨rfl, hcommit⟩
  | exhausted planned g env t added hgrows hbelow =>
    have hcount : w.run.steps + 1 = w.layers + 1 := congrArg (· + 1) (h.steps_eq hwaits)
    -- The new layer came out empty, so nothing lies below the frontier.
    have hnone : ∀ id, ¬ t.Below w.run.policy w.run.frontier id := by
      intro id hid
      have hmem := (BestPathRun.mem_below_iff hgrows h.held hlive).2 hid
      rw [hbelow] at hmem
      exact List.not_mem_nil hmem
    constructor
    case policy_eq => exact h.policy_eq
    case maxSteps_eq => exact h.maxSteps_eq
    case grown => exact h.grown.trans hgrows
    case held => exact fun id hid => hgrows.holds (h.held id hid)
    case reached =>
      intro id hid
      obtain ⟨source, hsource, htrail⟩ := h.reached id hid
      exact ⟨source, hsource, htrail.grow hgrows⟩
    case bounded => exact hbound
    case counted => exact .inr ⟨rfl, hcount⟩
    case idle => exact h.idle
    case warranted =>
      intro reason hreason
      obtain rfl := Option.some.inj hreason
      exact .inr ⟨⟨planned, g, rfl⟩, hcount, hnone⟩
  | passed planned g env t added hgrows hbelow =>
    have hstates : ∀ x ∈ w.run.frontier, t.Holds .state x := fun x hx =>
      hgrows.holds (h.held x hx)
    -- A state of the new layer is one hop from one of the old layer, to which a trail leads.
    have hhop : ∀ id ∈ w.run.below t, ∃ x ∈ w.run.frontier, t.Live x ∧ t.Hop x id :=
      fun id hid => Store.Below.hop hstates ((BestPathRun.mem_below_iff hgrows h.held hlive).1 hid)
    constructor
    case policy_eq => exact h.policy_eq
    case maxSteps_eq => exact h.maxSteps_eq
    case grown => exact h.grown.trans hgrows
    case held =>
      intro id hid
      obtain ⟨x, -, -, hx⟩ := hhop id hid
      exact hx.target
    case reached =>
      intro id hid
      obtain ⟨x, hx, hlive, hxid⟩ := hhop id hid
      obtain ⟨source, hsource, htrail⟩ := h.reached x hx
      exact ⟨source, hsource, (htrail.grow hgrows).hop hlive hxid⟩
    case bounded => exact hbound
    case counted => exact .inl (congrArg (· + 1) (h.steps_eq hwaits))
    case idle => exact fun hempty => absurd hempty hbelow
    case warranted =>
      intro reason hreason
      rw [hwaits] at hreason
      nomatch hreason

theorem Sound.moves (h : w.Sound s sources policy maxSteps capacity)
    (hlive : w.run.live = w.run.alive w.store) (hturn : w.Turn capacity w') :
    w.Moves policy w' := by
  cases hturn with
  | failed planned e env => exact .inl ⟨rfl, rfl⟩
  | heldBack pending env hcommit => exact .inl ⟨rfl, rfl⟩
  | exhausted planned g env t added hgrows hbelow => exact .inl ⟨rfl, rfl⟩
  | passed planned g env t added hgrows hbelow =>
    refine .inr ⟨rfl, hbelow, w.run.nodup_below t, fun id => ?_⟩
    rw [← h.policy_eq]
    exact BestPathRun.mem_below_iff hgrows h.held hlive

/-- Each step keeps following on the right way and moves the frontier by a layer or not at all. -/
theorem Sound.step (h : w.Sound s sources policy maxSteps capacity) (backend : Backend (StateM σ)) :
    (w.step backend capacity).Sound s sources policy maxSteps capacity ∧
      w.Moves policy (w.step backend capacity) := by
  have hsettled := h.settle
  have hfrontier : w.settle.run.frontier = w.run.frontier := w.run.frontier_settle w.store
  rcases step_cases backend capacity w with ⟨reason, -, hstep⟩ | ⟨hwaits, hturn⟩
  · rw [hstep]
    exact ⟨hsettled, .inl ⟨rfl, hfrontier⟩⟩
  · obtain ⟨hlive, hsteps⟩ := BestPathRun.live_settle hwaits
    refine ⟨hsettled.turn hwaits hlive hsteps hturn, ?_⟩
    have hmoves := hsettled.moves hlive hturn
    unfold Moves at hmoves ⊢
    rwa [hfrontier] at hmoves

theorem sound_iterate (backend : Backend (StateM σ))
    (h : w.Sound s sources policy maxSteps capacity) (n : Nat) :
    ((Waypoint.step backend capacity)^[n] w).Sound s sources policy maxSteps capacity := by
  induction n with
  | zero => exact h
  | succ n ih =>
    rw [Function.iterate_succ_apply']
    exact (ih.step backend).1

/-! ## Where following ends -/

/-- Following reports where a run has stopped. -/
theorem follow_of_stopped (backend : Backend (StateM σ)) (capacity : Option Capacity)
    {reason : StopReason} (hstop : w.settle.run.stop = some reason) :
    backend.follow capacity w.store w.run w.env = ((w.store, w.run.report reason), w.env) := by
  rw [backend.follow_of_done capacity (BestPathRun.next_of_stopped hstop)]
  rfl

/-- Where a run waits for an answer, following goes on from the next waypoint. -/
theorem follow_of_waiting (backend : Backend (StateM σ)) (capacity : Option Capacity)
    (hwaits : w.settle.run.stop = none) :
    let w' := w.step backend capacity
    backend.follow capacity w.store w.run w.env = backend.follow capacity w'.store w'.run w'.env ∧
      w'.run.remaining < w.run.remaining := by
  have hnext := BestPathRun.next_of_waiting hwaits
  have hlt := BestPathRun.remaining_record_lt hnext
  rw [backend.follow_of_fetch capacity hnext, step, hnext]
  simp only [bind, StateT.bind]
  rcases backend.fetch (w.store.plan (w.run.settle w.store).live) w.env with ⟨e | g, env⟩
  · exact ⟨rfl, hlt w.store (.error e)⟩
  · exact ⟨rfl, hlt _ _⟩

/-- Following goes from waypoint to waypoint until the run stops, and reports from there. -/
theorem follow_eq (backend : Backend (StateM σ)) (capacity : Option Capacity) (w : Waypoint σ) :
    ∃ n reason, let w' := (Waypoint.step backend capacity)^[n] w
      w'.settle.run.stop = some reason ∧
      backend.follow capacity w.store w.run w.env =
        ((w'.store, w'.run.report reason), w'.env) := by
  induction hn : w.run.remaining using Nat.strongRecOn generalizing w with
  | ind n ih =>
    subst hn
    cases hstop : w.settle.run.stop with
    | some reason => exact ⟨0, reason, hstop, follow_of_stopped backend capacity hstop⟩
    | none =>
      obtain ⟨hfollow, hlt⟩ := follow_of_waiting backend capacity hstop
      obtain ⟨n, reason, hend⟩ := ih _ hlt _ rfl
      refine ⟨n + 1, reason, ?_⟩
      rw [Function.iterate_succ_apply, hfollow]
      exact hend

end Waypoint

/-- **Following the best path is sound.**  Whatever the backend answers, every waypoint is sound:
its frontier consists of states, each as many hops from a source as layers have been passed, where
only states are left in which no run of the system ends.  Between two waypoints the frontier stays
or moves to just the states below it.  The run stops, and for the reason that it reports. -/
theorem Backend.bestPath_sound {σ : Type} (backend : Backend (StateM σ)) (env : σ) (s : Store)
    (sources : List NodeId) (policy : Option String) (maxSteps : Nat) (capacity : Option Capacity) :
    let w : Nat → Waypoint σ := fun n =>
      (Waypoint.step backend capacity)^[n] (.start s sources policy maxSteps env)
    (∀ n, (w n).Sound s sources policy maxSteps capacity ∧ (w n).Moves policy (w (n + 1))) ∧
    ∃ n reason,
      backend.bestPath s sources policy maxSteps capacity env =
        (((w n).store, (w n).run.report reason), (w n).env) ∧
      (w n).Warrants s sources capacity reason := by
  intro w
  -- One call keeps a waypoint sound, and so does any number of them.
  have hsound : ∀ n, (w n).Sound s sources policy maxSteps capacity :=
    Waypoint.sound_iterate backend
      (Waypoint.sound_start s sources policy maxSteps capacity env)
  refine ⟨fun n => ⟨hsound n, ?moves⟩, ?ends⟩
  case moves =>
    have hnext : w (n + 1) = (w n).step backend capacity := Function.iterate_succ_apply' ..
    rw [hnext]
    exact ((hsound n).step backend).2
  case ends =>
    obtain ⟨n, reason, hstop, hfollow⟩ :=
      Waypoint.follow_eq backend capacity (.start s sources policy maxSteps env)
    refine ⟨n, reason, hfollow, ?_⟩
    exact ((w n).warrants_settle reason).1 ((hsound n).settle.warranted reason hstop)

end StateAtlas
