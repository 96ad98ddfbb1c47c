import StateAtlas.Graph.Exploration
import StateAtlas.Graph.Navigation
/-!
Following the best path.

A run holds a frontier of states and moves it down one layer at a time, from states by actions to
states.  States in which a run of the system ends stay behind.  Between two layers the run asks for
the neighbourhoods of the live states and is told how merging them went; it stops when a bound is
reached, when nothing is left to follow, or when a merge is held back or fails.

The run holds no store, so its owner may do other things while a fetch is on its way.
-/

namespace StateAtlas

/-- Why a run stopped. -/
inductive StopReason
  | stepLimit
  /-- Every state of the frontier is one where a run of the system ends. -/
  | terminal
  | emptyFrontier
  | capacity (pending : Pending)
  | failed (error : ExploreError)

/-- The account of a run that stopped. -/
structure BestPathReport where
  /-- Layers passed. -/
  steps : Nat
  /-- The last frontier that was reached. -/
  frontier : List NodeId
  /-- The nodes that the run added, in order. -/
  added : List NodeId
  stop : StopReason

/-- A run along the best path. -/
structure BestPathRun where
  /-- The policy whose weights are followed; without one every successor is. -/
  policy : Option String
  maxSteps : Nat
  steps : Nat := 0
  frontier : List NodeId
  /-- The states of the frontier that are followed. -/
  live : List NodeId := []
  added : List NodeId := []
  stop : Option StopReason := none
deriving Inhabited

/-- What a run needs next. -/
inductive BestPathStep
  /-- The neighbourhoods of these nodes; there may be none of them. -/
  | fetch (planned : List NodeId)
  | done (report : BestPathReport)

namespace BestPathRun

/-- A run from those of the sources that are states of a store. -/
def start (s : Store) (sources : List NodeId) (policy : Option String) (maxSteps : Nat) :
    BestPathRun :=
  { policy, maxSteps, frontier := sources.filter fun id => (s.node? id).any Node.isState }

/-- The account of the run, stopped for a reason. -/
def report (r : BestPathRun) (stop : StopReason) : BestPathReport :=
  { steps := r.steps, frontier := r.frontier, added := r.added, stop }

/-- The run with its live states picked, or stopped because there is nothing to follow. -/
def settle (r : BestPathRun) (s : Store) : BestPathRun :=
  if r.stop.isSome then r
  else if r.maxSteps ≤ r.steps then { r with stop := some .stepLimit }
  else
    let live := r.frontier.filter fun id => !s.isTerminal id
    let stop := if !live.isEmpty then none
      else if r.frontier.isEmpty then some .emptyFrontier else some .terminal
    { r with live, stop }

/-- What the run needs next, and the run that waits for it. -/
def next (r : BestPathRun) (s : Store) : BestPathRun × BestPathStep :=
  let r := r.settle s
  match r.stop with
  | none => (r, .fetch (s.plan r.live))
  | some stop => (r, .done (r.report stop))

/-- The frontier one layer below the live states. -/
def below (r : BestPathRun) (s : Store) : List NodeId :=
  match r.policy with
  | none => s.nextStates r.live
  | some policy => (r.live.filterMap fun id => s.bestNext? id policy).eraseDups

/-- Tells the run how merging went; `s` is the store after it. -/
def record (r : BestPathRun) (s : Store) (outcome : Except ExploreError Outcome) : BestPathRun :=
  if r.stop.isSome then r
  else match outcome with
    | .error e => { r with stop := some (.failed e) }
    | .ok (.capacityExceeded pending) => { r with stop := some (.capacity pending) }
    | .ok (.merged delta) =>
      let r := { r with added := r.added ++ delta.nodes, steps := r.steps + 1 }
      match r.below s with
      | [] => { r with stop := some .emptyFrontier }
      | frontier => { r with frontier }

/-- How many more times the run can be told how merging went. -/
def remaining (r : BestPathRun) : Nat := if r.stop.isSome then 0 else r.maxSteps - r.steps + 1

theorem of_stop_settle_eq_none {r : BestPathRun} {s : Store} (h : (r.settle s).stop = none) :
    r.stop = none ∧ r.steps < r.maxSteps := by
  unfold settle at h
  split at h
  next hs => simp [h] at hs
  next hs =>
    split at h
    · simp at h
    · exact ⟨by simpa using hs, by omega⟩

/-- Settling a run picks its live states and may stop it, nothing else. -/
theorem settle_eq (r : BestPathRun) (s : Store) :
    ∃ live stop, r.settle s = { r with live, stop } := by
  unfold settle
  split
  · exact ⟨r.live, r.stop, rfl⟩
  · split
    · exact ⟨r.live, _, rfl⟩
    · exact ⟨_, _, rfl⟩

@[simp] theorem policy_settle (r : BestPathRun) (s : Store) : (r.settle s).policy = r.policy := by
  obtain ⟨live, stop, h⟩ := r.settle_eq s
  rw [h]

@[simp] theorem maxSteps_settle (r : BestPathRun) (s : Store) :
    (r.settle s).maxSteps = r.maxSteps := by
  obtain ⟨live, stop, h⟩ := r.settle_eq s
  rw [h]

@[simp] theorem steps_settle (r : BestPathRun) (s : Store) : (r.settle s).steps = r.steps := by
  obtain ⟨live, stop, h⟩ := r.settle_eq s
  rw [h]

@[simp] theorem frontier_settle (r : BestPathRun) (s : Store) :
    (r.settle s).frontier = r.frontier := by
  obtain ⟨live, stop, h⟩ := r.settle_eq s
  rw [h]

@[simp] theorem report_settle (r : BestPathRun) (s : Store) (reason : StopReason) :
    (r.settle s).report reason = r.report reason := by
  obtain ⟨live, stop, h⟩ := r.settle_eq s
  rw [h]
  rfl

theorem eq_settle_of_next_eq_fetch {r r' : BestPathRun} {s : Store} {planned : List NodeId}
    (h : r.next s = (r', .fetch planned)) : r' = r.settle s ∧ r'.stop = none := by
  simp only [next] at h
  split at h
  next hstop => exact ⟨(Prod.mk.inj h).1.symm, (Prod.mk.inj h).1 ▸ hstop⟩
  next => simp at h

theorem remaining_record_lt {r r' : BestPathRun} {s : Store} {planned : List NodeId}
    (h : r.next s = (r', .fetch planned)) (t : Store) (outcome : Except ExploreError Outcome) :
    (r'.record t outcome).remaining < r.remaining := by
  obtain ⟨rfl, hstop⟩ := eq_settle_of_next_eq_fetch h
  obtain ⟨hr, hlt⟩ := of_stop_settle_eq_none hstop
  have hbase : r.remaining = r.maxSteps - r.steps + 1 := by simp [remaining, hr]
  rw [hbase]
  unfold record
  simp only [hstop, Option.isSome_none, Bool.false_eq_true, if_false]
  split
  · simp [remaining]
  · simp [remaining]
  · split <;> simp [remaining]
    omega

end BestPathRun

namespace Backend

variable {m : Type → Type} [Monad m]

/-- Drives a run until it stops. -/
def follow (backend : Backend m) (capacity : Option Capacity) (s : Store) (r : BestPathRun) :
    m (Store × BestPathReport) :=
  match h : r.next s with
  | (_, .done report) => pure (s, report)
  | (r', .fetch planned) => do
    match ← backend.fetch planned with
    | .error e =>
      have := BestPathRun.remaining_record_lt h s (.error e)
      follow backend capacity s (r'.record s (.error e))
    | .ok g =>
      let merged := s.commit planned g capacity
      have := BestPathRun.remaining_record_lt h merged.1 (.ok merged.2)
      follow backend capacity merged.1 (r'.record merged.1 (.ok merged.2))
termination_by r.remaining

/-- Follows the best path from sources for at most `maxSteps` layers. -/
def bestPath (backend : Backend m) (s : Store) (sources : List NodeId) (policy : Option String)
    (maxSteps : Nat) (capacity : Option Capacity) : m (Store × BestPathReport) :=
  follow backend capacity s (.start s sources policy maxSteps)

end Backend

/-! ## Reports -/

def StopReason.toJson : StopReason → Json
  | .stepLimit => .text "step_limit"
  | .terminal => .text "terminal"
  | .emptyFrontier => .text "empty_frontier"
  | .capacity p => .record [("capacity", p.toJson)]
  | .failed e => .record [("failed", e.toJson)]

def BestPathReport.toJson (r : BestPathReport) : Json :=
  .record [("steps", .count r.steps), ("frontier", NodeId.listToJson r.frontier),
    ("added", NodeId.listToJson r.added), ("stop", r.stop.toJson)]

instance : ToJson BestPathReport := ⟨BestPathReport.toJson⟩

/-- The expansion that stopped the run, if it was held back. -/
def BestPathReport.pending? (r : BestPathReport) : Option Pending :=
  match r.stop with
  | .capacity p => some p
  | _ => none

def BestPathStep.toJson : BestPathStep → Json
  | .fetch planned => .record [("fetch", NodeId.listToJson planned)]
  | .done report => .record [("done", report.toJson)]

instance : ToJson BestPathStep := ⟨BestPathStep.toJson⟩

/-- Where a run stands. -/
def BestPathRun.toJson (r : BestPathRun) : Json :=
  .record [("steps", .count r.steps), ("frontier", NodeId.listToJson r.frontier),
    ("finished", .bool r.stop.isSome)]

instance : ToJson BestPathRun := ⟨BestPathRun.toJson⟩

end StateAtlas
