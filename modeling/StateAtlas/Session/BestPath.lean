import StateAtlas.Graph.BestPath
import StateAtlas.Session.Expansion
/-!
Following the best path of a pane.

A run alternates between asking for a ticket and being told what was fetched for it; between the two
the session is free for other work.  `Session.bestPath` drives a run to its end.  Each round uses up
one of the steps that the run has left, so it ends.
-/

namespace StateAtlas

/-- What a run needs next. -/
inductive PathStep
  | fetch (ticket : Ticket)
  | done (report : BestPathReport)

def PathStep.toJson : PathStep → Json
  | .fetch ticket => .record [("fetch", NodeId.listToJson ticket.planned)]
  | .done report => .record [("done", report.toJson)]

instance : ToJson PathStep := ⟨PathStep.toJson⟩

namespace Session

/-- Begins a run from nodes of a pane, of at most `maxSteps` steps or as many as is usual. -/
def beginBestPath (s : Session) (pane : PaneId) (sources : List NodeId) (maxSteps : Option Nat) :
    Except SessionError BestPathRun := do
  let p ← s.get pane
  if p.entered = .closed then throw (.pane (.closed pane))
  return .start p.store sources p.view.policy (maxSteps.getD s.options.bestPathMaxSteps)

/-- A warning, if a run stopped because of a failure. -/
def warnHalted (s : Session) (pane : PaneId) : StopReason → Session
  | .failed e => s.warn (some pane) s!"best path halted: {e.message}"
  | _ => s

/-- The ticket for the next fetch of a run, or the run's account, together with the run that waits
for it.  The run has picked its live states even where the pane refuses the ticket. -/
def bestPathStep (s : Session) (pane : PaneId) (run : BestPathRun) :
    BestPathRun × Except SessionError (Session × PathStep) :=
  match s.get pane with
  | .error e => (run, .error e)
  | .ok p =>
    match run.next p.store with
    | (run, .done report) => (run, .ok (s.warnHalted pane report.stop, .done report))
    | (run, .fetch planned) =>
      match s.issue p planned with
      | .error e => (run, .error e)
      | .ok (s, ticket) => (run, .ok (s, .fetch ticket))

/-- Finishes the expansion of a pane with what was fetched, or with nothing if that failed. -/
def mergeFetched (s : Session) (p : Pane) (planned : List NodeId) :
    Except ExploreError Fragment → Pane × Except ExploreError Outcome
  | .error e => (p.endExpansion, .error e)
  | .ok g =>
    let (p, outcome) := s.mergeInto p planned g
    (p, .ok outcome)

/-- Merges what was fetched for a run and moves the run on. -/
def advanceBestPath (s : Session) (run : BestPathRun) (t : Ticket)
    (fetched : Except ExploreError Fragment) : Except SessionError (Session × BestPathRun) := do
  let p ← s.get t.pane
  let (grown, outcome) := s.mergeFetched p t.planned fetched
  let s := s.modify t.pane fun _ => grown
  let run := run.record grown.store outcome
  match outcome with
  | .ok (.merged delta) =>
    return (if delta.nodes.isEmpty then s else s.afterGrowth t.pane delta.nodes, run)
  | _ => return (s, run)

/-! ## Whole runs -/

theorem next_of_bestPathStep {s s' : Session} {pane : PaneId} {run run' : BestPathRun}
    {ticket : Ticket} (h : s.bestPathStep pane run = (run', .ok (s', .fetch ticket))) :
    ∃ store planned, run.next store = (run', .fetch planned) := by
  unfold bestPathStep at h
  cases hp : s.get pane with
  | error e => simp [hp] at h
  | ok p =>
    simp only [hp] at h
    split at h
    next => simp at h
    next r planned hnext =>
      cases hi : s.issue p planned with
      | error e => simp [hi] at h
      | ok issued =>
        simp only [hi, Prod.mk.injEq] at h
        exact ⟨p.store, planned, h.1 ▸ hnext⟩

theorem record_of_advanceBestPath {s s' : Session} {run run' : BestPathRun} {t : Ticket}
    {fetched : Except ExploreError Fragment}
    (h : s.advanceBestPath run t fetched = .ok (s', run')) :
    ∃ store outcome, run' = run.record store outcome := by
  unfold advanceBestPath at h
  cases hp : s.get t.pane with
  | error e => simp [hp, bind, Except.bind] at h
  | ok p =>
    simp only [hp, bind, Except.bind] at h
    split at h <;>
      simp only [pure, Except.pure, Except.ok.injEq, Prod.mk.injEq] at h <;>
      exact ⟨_, _, h.2.symm⟩

theorem remaining_advance_lt {s₁ s₂ s₃ : Session} {pane : PaneId} {r₁ r₂ r₃ : BestPathRun}
    {t : Ticket} {fetched : Except ExploreError Fragment}
    (hstep : s₁.bestPathStep pane r₁ = (r₂, .ok (s₂, .fetch t)))
    (hadvance : s₂.advanceBestPath r₂ t fetched = .ok (s₃, r₃)) :
    r₃.remaining < r₁.remaining := by
  obtain ⟨store, planned, hnext⟩ := next_of_bestPathStep hstep
  obtain ⟨after, outcome, rfl⟩ := record_of_advanceBestPath hadvance
  exact BestPathRun.remaining_record_lt hnext _ _

variable {m : Type → Type} [Monad m]

/-- Drives a run until it stops. -/
def followBestPath (s : Session) (backend : Backend m) (pane : PaneId) (run : BestPathRun) :
    m (Session × Except SessionError BestPathReport) :=
  match hstep : s.bestPathStep pane run with
  | (_, .error e) => pure (s, .error e)
  | (_, .ok (s, .done report)) => pure (s, .ok report)
  | (run', .ok (s, .fetch ticket)) => do
    let fetched ← backend.fetch ticket.planned
    match hadvance : s.advanceBestPath run' ticket fetched with
    | .error e => pure (s, .error e)
    | .ok (s, run'') =>
      have := remaining_advance_lt hstep hadvance
      s.followBestPath backend pane run''
termination_by run.remaining

/-- One round of a run. -/
theorem followBestPath_eq (s : Session) (backend : Backend m) (pane : PaneId) (run : BestPathRun) :
    s.followBestPath backend pane run =
      match s.bestPathStep pane run with
      | (_, .error e) => pure (s, .error e)
      | (_, .ok (s, .done report)) => pure (s, .ok report)
      | (run', .ok (s, .fetch ticket)) =>
        backend.fetch ticket.planned >>= fun fetched =>
        match s.advanceBestPath run' ticket fetched with
        | .error e => pure (s, .error e)
        | .ok (s, run'') => s.followBestPath backend pane run'' := by
  rw [followBestPath]
  split
  next h => rw [h]
  next h => rw [h]
  next h =>
    simp only [h]
    refine congrArg (bind _) (funext fun fetched => ?_)
    split
    next hadvance => rw [hadvance]
    next hadvance => rw [hadvance]

/-- Follows the best path from nodes of a pane. -/
def bestPath (s : Session) (backend : Backend m) (pane : PaneId) (sources : List NodeId)
    (maxSteps : Option Nat) : m (Session × Except SessionError BestPathReport) :=
  match s.beginBestPath pane sources maxSteps with
  | .error e => pure (s, .error e)
  | .ok run => s.followBestPath backend pane run

end Session

end StateAtlas
