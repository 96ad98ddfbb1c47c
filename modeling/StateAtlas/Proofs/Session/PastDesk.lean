import StateAtlas.Proofs.Session.Operations
import StateAtlas.Proofs.Session.Past
/-!
Desks with a past.

The tickets of a desk bear the numbers of their leases.  At a desk whose session has a past these
are other numbers, but nothing that is answered tells them.

Main statement: `Past.serveAll_desk`.
-/

namespace StateAtlas

namespace Past

variable (past : Past)

/-- What is kept of an expansion under way, with the ticket that is given out instead. -/
def held (h : Ticket × Option Fetched) : Ticket × Option Fetched := (past.ticket h.1, h.2)

/-- The desk whose session has a past. -/
def desk (d : Desk) : Desk :=
  { d with session := past.session d.session, tickets := d.tickets.mapValues past.held }

variable (d : Desk)

theorem get?_tickets_desk (name : String) :
    (past.desk d).tickets.get? name = (d.tickets.get? name).map past.held :=
  Dictionary.get?_mapValues ..

/-! ## Tickets -/

theorem drop_desk (name : String) :
    (past.desk d).drop name = Prod.map past.desk id (d.drop name) := by
  unfold Desk.drop
  rw [get?_tickets_desk]
  cases d.tickets.get? name with
  | none => rfl
  | some h =>
    have hdrop := past.drop_session d.session h.1
    have htickets := Dictionary.mapValues_erase d.tickets name past.held
    exact congr (congrArg (fun session tickets => ({ past.desk d with session, tickets }, true))
      hdrop) htickets.symm

theorem put_desk (name : String) (t : Ticket) :
    (past.desk d).put name (past.ticket t) = past.desk (d.put name t) := by
  unfold Desk.put
  rw [drop_desk]
  have htickets := Dictionary.mapValues_insert (d.drop name).1.tickets name (t, none) past.held
  exact congrArg (fun tickets => { past.desk (d.drop name).1 with tickets }) htickets.symm

theorem begin_desk (name : String) (pane : PaneId) (frontier : List NodeId) :
    (past.desk d).begin name pane frontier =
      (d.begin name pane frontier).map (Prod.map past.desk past.ticket) := by
  have hbegin : (past.desk d).session.beginExpansion pane frontier =
      (d.session.beginExpansion pane frontier).map (Prod.map past.session past.ticket) :=
    past.beginExpansion_session d.session pane frontier
  unfold Desk.begin
  rw [hbegin]
  rcases d.session.beginExpansion pane frontier with e | ⟨s, t⟩
  · rfl
  · exact congrArg (fun d' => Except.ok (d', past.ticket t))
      (past.put_desk { d with session := s } name t)

theorem keepPending_desk (name : String) (pending : Option Pending) :
    (past.desk d).keepPending name pending = past.desk (d.keepPending name pending) := by
  cases pending <;> rfl

theorem settled_desk (name : String) (r : Session × Except SessionError Outcome) :
    (past.desk d).settled name (Prod.map past.session id r) =
      Prod.map past.desk id (d.settled name r) := by
  rcases r with ⟨s, e | outcome⟩
  · rfl
  · exact congrArg (fun d' => (d', Except.ok outcome))
      (past.keepPending_desk { d with session := s } name outcome.pending?)

theorem resolve_desk (name : String) (pane : PaneId) (decision : CapacityDecision) :
    (past.desk d).resolve name pane decision =
      Prod.map past.desk id (d.resolve name pane decision) := by
  unfold Desk.resolve
  rw [show (past.desk d).pendings = d.pendings from rfl]
  cases d.pendings.get? name with
  | none => rfl
  | some pending =>
    have hresolve : (past.desk d).session.resolve pane pending decision =
        (d.session.resolve pane pending decision).map (Prod.map past.session id) :=
      past.resolve_session d.session pane pending decision
    simp only [hresolve]
    rcases d.session.resolve pane pending decision with e | ⟨s, resolution⟩ <;> rfl

section Backend

variable {m : Type → Type} [Monad m] [LawfulMonad m] (backend : Backend m)

theorem fetch_desk (name : String) :
    (past.desk d).fetch backend name = Prod.map past.desk id <$> d.fetch backend name := by
  unfold Desk.fetch
  rw [get?_tickets_desk]
  cases d.tickets.get? name with
  | none => simp only [map_pure]; rfl
  | some h =>
    simp only [map_bind]
    refine bind_congr fun fetched => ?_
    have htickets := Dictionary.mapValues_insert d.tickets name (h.1, some fetched) past.held
    simp only [map_pure]
    exact congrArg (fun tickets => (pure ({ past.desk d with tickets },
      fetched.mapError fun e => DeskError.session (.explore e)) : m _)) htickets.symm

theorem collect_desk (name : String) (instead : Option Fetched) :
    (past.desk d).collect backend name instead =
      Prod.map past.desk (Option.map (Prod.map past.ticket id)) <$>
        d.collect backend name instead := by
  unfold Desk.collect
  rw [get?_tickets_desk]
  cases d.tickets.get? name with
  | none => simp only [map_pure]; rfl
  | some h =>
    have htickets : (past.desk d).tickets.erase name = (d.tickets.erase name).mapValues past.held :=
      (Dictionary.mapValues_erase d.tickets name past.held).symm
    have hkept : (past.held h).2 = h.2 := rfl
    simp only [Option.map_some, hkept, htickets]
    cases instead <|> h.2 with
    | some fetched => simp only [map_pure]; rfl
    | none =>
      simp only [map_bind, map_pure]
      rfl

theorem finish_desk (name : String) (instead : Option Fetched) :
    (past.desk d).finish backend name instead =
      Prod.map past.desk id <$> d.finish backend name instead := by
  unfold Desk.finish
  rw [collect_desk, map_bind, bind_map_left]
  refine bind_congr fun collected => ?_
  rcases collected with ⟨d', none | ⟨t, fetched⟩⟩
  · simp only [map_pure]
    rfl
  · simp only [map_pure, ← settled_desk]
    exact congrArg (fun r => pure ((past.desk d').settled name r))
      (past.finish_session d'.session t fetched)

theorem expand_desk (name : String) (pane : PaneId) (frontier : List NodeId) :
    (past.desk d).expand backend name pane frontier =
      Prod.map past.desk id <$> d.expand backend name pane frontier := by
  have hexpand : (past.desk d).session.expand backend pane frontier =
      Prod.map past.session id <$> d.session.expand backend pane frontier :=
    past.expand_session d.session backend pane frontier
  unfold Desk.expand
  rw [hexpand, map_bind, bind_map_left]
  refine bind_congr fun r => ?_
  rw [map_pure, settled_desk]

/-! ## Best paths -/

omit [Monad m] [LawfulMonad m] in
theorem beginRun_desk (name : String) (pane : PaneId) (sources : List NodeId)
    (maxSteps : Option Nat) :
    (past.desk d).beginRun name pane sources maxSteps =
      (d.beginRun name pane sources maxSteps).map (Prod.map past.desk id) := by
  have hbegin : (past.desk d).session.beginBestPath pane sources maxSteps =
      d.session.beginBestPath pane sources maxSteps :=
    past.beginBestPath_session d.session pane sources maxSteps
  unfold Desk.beginRun
  rw [hbegin]
  cases d.session.beginBestPath pane sources maxSteps <;> rfl

theorem stepRun_desk (runName ticketName : String) (pane : PaneId) :
    (past.desk d).stepRun runName ticketName pane =
      Prod.map past.desk (Except.map past.pathStep) (d.stepRun runName ticketName pane) := by
  unfold Desk.stepRun
  rw [show (past.desk d).runs = d.runs from rfl]
  cases d.runs.get? runName with
  | none => rfl
  | some run =>
    have hstep : (past.desk d).session.bestPathStep pane run =
        Prod.map id (Except.map (Prod.map past.session past.pathStep))
          (d.session.bestPathStep pane run) := past.bestPathStep_session d.session pane run
    simp only [hstep]
    rcases d.session.bestPathStep pane run with ⟨run', e | ⟨s, t | report⟩⟩
    · rfl
    · exact congrArg (fun d' => (d', Except.ok (PathStep.fetch (past.ticket t))))
        (past.put_desk { d.keepRun runName run' with session := s } ticketName t)
    · exact congrArg (fun d' => (d', Except.ok (PathStep.done report)))
        (past.keepPending_desk { d.keepRun runName run' with session := s } ticketName _)

theorem advanceRun_desk (runName ticketName : String) (instead : Option Fetched) :
    (past.desk d).advanceRun backend runName ticketName instead =
      Prod.map past.desk id <$> d.advanceRun backend runName ticketName instead := by
  unfold Desk.advanceRun
  rw [collect_desk, map_bind, bind_map_left]
  refine bind_congr fun collected => ?_
  rcases collected with ⟨d', none | ⟨t, fetched⟩⟩
  · simp only [map_pure]
    rfl
  · have hruns : (past.desk d').runs = d'.runs := rfl
    have hdrop : { past.desk d' with session := (past.desk d').session.drop (past.ticket t) } =
        past.desk { d' with session := d'.session.drop t } :=
      congrArg (fun session => { past.desk d' with session }) (past.drop_session d'.session t)
    simp only [Prod.map, Option.map, id_eq, hruns]
    cases d'.runs.get? runName with
    | none =>
      simp only [map_pure]
      exact congrArg (fun d'' => (pure (d'', Except.error DeskError.noSlot) : m _)) hdrop
    | some run =>
      have hadvance : (past.desk d').session.advanceBestPath run (past.ticket t) fetched =
          (d'.session.advanceBestPath run t fetched).map (Prod.map past.session id) :=
        past.advanceBestPath_session d'.session run t fetched
      simp only [hadvance]
      rcases d'.session.advanceBestPath run t fetched with e | ⟨s, run'⟩
      · simp only [map_pure]
        exact congrArg (fun d'' => (pure (d'', Except.error (DeskError.session e)) : m _)) hdrop
      · simp only [map_pure]
        rfl

theorem bestPath_desk (name : String) (pane : PaneId) (sources : List NodeId)
    (maxSteps : Option Nat) :
    (past.desk d).bestPath backend name pane sources maxSteps =
      Prod.map past.desk id <$> d.bestPath backend name pane sources maxSteps := by
  have hbestPath : (past.desk d).session.bestPath backend pane sources maxSteps =
      Prod.map past.session id <$> d.session.bestPath backend pane sources maxSteps :=
    past.bestPath_session d.session backend pane sources maxSteps
  unfold Desk.bestPath
  rw [hbestPath, map_bind, bind_map_left]
  refine bind_congr fun followed => ?_
  rcases followed with ⟨s, e | report⟩
  · simp only [map_pure]
    rfl
  · simp only [map_pure]
    exact congrArg (fun d' => pure (d', Except.ok report))
      (past.keepPending_desk { d with session := s } name report.pending?)

end Backend

/-! ## Answers -/

section Answers

variable {α : Type} (reply : α → Reply)

theorem adopt_desk (r : Session × Except SessionError α) :
    (past.desk d).adopt reply (Prod.map past.session id r) =
      Prod.map past.desk id (d.adopt reply r) := rfl

theorem take_desk (r : Except SessionError (Session × α)) :
    (past.desk d).take reply (r.map (Prod.map past.session id)) =
      Prod.map past.desk id (d.take reply r) := by
  cases r <;> rfl

theorem changed_desk (r : Except SessionError Session) :
    (past.desk d).changed (r.map past.session) = Prod.map past.desk id (d.changed r) := by
  cases r <;> rfl

theorem changed_ok_desk (s : Session) :
    (past.desk d).changed (.ok (past.session s)) = Prod.map past.desk id (d.changed (.ok s)) := rfl

theorem made_desk (r : Session × α) :
    (past.desk d).made reply (Prod.map past.session id r) =
      Prod.map past.desk id (d.made reply r) := rfl

theorem read_desk (r : Except SessionError α) :
    (past.desk d).read reply r = Prod.map past.desk id (d.read reply r) := rfl

theorem kept_desk (r : Except DeskError (Desk × α)) :
    (past.desk d).kept reply (r.map (Prod.map past.desk id)) =
      Prod.map past.desk id (d.kept reply r) := by
  cases r <;> rfl

theorem answered_desk (r : Desk × Except DeskError α) :
    Desk.answered reply (Prod.map past.desk id r) =
      Prod.map past.desk id (Desk.answered reply r) := rfl

/-- The lease of a ticket is not told. -/
theorem kept_ofTicket_desk (r : Except DeskError (Desk × Ticket)) :
    (past.desk d).kept .ofTicket (r.map (Prod.map past.desk past.ticket)) =
      Prod.map past.desk id (d.kept .ofTicket r) := by
  cases r <;> rfl

theorem answered_ofStep_desk (r : Desk × Except DeskError PathStep) :
    Desk.answered .ofStep (Prod.map past.desk (Except.map past.pathStep) r) =
      Prod.map past.desk id (Desk.answered .ofStep r) := by
  rcases r with ⟨d', e | ⟨t⟩ | ⟨report⟩⟩ <;> rfl

end Answers

theorem session_desk : (past.desk d).session = past.session d.session := rfl

variable {m : Type → Type} [Monad m] [LawfulMonad m] (backend : Backend m)

/-- **A past makes no difference to an operation**: the answer is the same, and the desks that are
left differ by the past only. -/
theorem serve_desk (o : Operation) :
    (past.desk d).serve backend o = Prod.map past.desk id <$> d.serve backend o := by
  cases o with
  | start =>
    simp only [Desk.serve, session_desk, start_session, bind_map_left, map_bind, adopt_desk,
      map_pure]
  | explore pane nodes force =>
    simp only [Desk.serve, session_desk, explore_session, bind_map_left, map_bind, adopt_desk,
      map_pure]
  | refresh pane =>
    simp only [Desk.serve, session_desk, refresh_session, bind_map_left, map_bind, adopt_desk,
      map_pure]
  | openDocuments docs =>
    simp only [Desk.serve, session_desk, openDocuments_session, made_desk, map_pure]
  | teardown => simp only [Desk.serve, session_desk, teardown_session, changed_ok_desk, map_pure]
  | primary => simp only [Desk.serve, session_desk, primary_session, read_desk, map_pure]
  | documents panes selectionOnly =>
    simp only [Desk.serve, session_desk, documents_session, read_desk, map_pure]
  | begin name pane frontier => simp only [Desk.serve, begin_desk, kept_ofTicket_desk, map_pure]
  | fetch name =>
    simp only [Desk.serve, fetch_desk, bind_map_left, map_bind, answered_desk, map_pure]
  | finish name instead =>
    simp only [Desk.serve, finish_desk, bind_map_left, map_bind, answered_desk, map_pure]
  | drop name =>
    simp only [Desk.serve, drop_desk, map_pure]
    rfl
  | expand name pane frontier =>
    simp only [Desk.serve, expand_desk, bind_map_left, map_bind, answered_desk, map_pure]
  | resolve name pane decision => simp only [Desk.serve, resolve_desk, answered_desk, map_pure]
  | beginRun name pane sources maxSteps =>
    simp only [Desk.serve, beginRun_desk, kept_desk, map_pure]
  | stepRun runName ticketName pane =>
    simp only [Desk.serve, stepRun_desk, answered_ofStep_desk, map_pure]
  | advanceRun runName ticketName instead =>
    simp only [Desk.serve, advanceRun_desk, bind_map_left, map_bind, answered_desk, map_pure]
  | bestPath name pane sources maxSteps =>
    simp only [Desk.serve, bestPath_desk, bind_map_left, map_bind, answered_desk, map_pure]
  | mark ids => simp only [Desk.serve, session_desk, mark_session, made_desk, map_pure]
  | unmark ids => simp only [Desk.serve, session_desk, unmark_session, made_desk, map_pure]
  | propagate => simp only [Desk.serve, session_desk, propagate_session, changed_ok_desk, map_pure]
  | strategy => simp only [Desk.serve, session_desk, strategy_session, read_desk, map_pure]
  | select pane ids => simp only [Desk.serve, session_desk, select_session, changed_desk, map_pure]
  | undo pane => simp only [Desk.serve, session_desk, undo_session, take_desk, map_pure]
  | redo pane => simp only [Desk.serve, session_desk, redo_session, take_desk, map_pure]
  | selectWhere pane proposition =>
    simp only [Desk.serve, session_desk, selectWhere_session, changed_desk, map_pure]
  | sync l => simp only [Desk.serve, session_desk, sync_session, take_desk, map_pure]
  | brush pane dimension c =>
    simp only [Desk.serve, session_desk, brush_session, changed_desk, map_pure]
  | brushCoalesced pane dimension c now =>
    simp only [Desk.serve, session_desk, brushCoalesced_session, take_desk, map_pure]
  | pollBrushes now =>
    simp only [Desk.serve, session_desk, pollBrushes_session, made_desk, map_pure]
  | selectExtreme pane dimension which =>
    simp only [Desk.serve, session_desk, selectExtreme_session, take_desk, map_pure]
  | setMode pane mode =>
    simp only [Desk.serve, session_desk, setMode_session, changed_desk, map_pure]
  | setPolicy pane policy =>
    simp only [Desk.serve, session_desk, setPolicy_session, changed_desk, map_pure]
  | setDetails pane details =>
    simp only [Desk.serve, session_desk, setDetails_session, changed_desk, map_pure]
  | setAutoSync pane on =>
    simp only [Desk.serve, session_desk, setAutoSync_session, changed_desk, map_pure]
  | detectRecurrence =>
    simp only [Desk.serve, session_desk, detectRecurrence_session, made_desk, map_pure]
  | watchRecurrence ids =>
    simp only [Desk.serve, session_desk, watchRecurrence_session, made_desk, map_pure]
  | clearRecurrence =>
    simp only [Desk.serve, session_desk, clearRecurrence_session, changed_ok_desk, map_pure]
  | destroy pane cascade =>
    simp only [Desk.serve, session_desk, destroy_session, take_desk, map_pure]
  | merge panes keep => simp only [Desk.serve, session_desk, merge_session, take_desk, map_pure]
  | duplicate pane => simp only [Desk.serve, session_desk, duplicate_session, take_desk, map_pure]
  | duplicateMany panes =>
    simp only [Desk.serve, session_desk, duplicateMany_session, take_desk, map_pure]
  | receive message => simp only [Desk.serve, session_desk, receive_session, changed_desk, map_pure]
  | table c => simp only [Desk.serve, session_desk, execute_session, take_desk, map_pure]

/-- **A past makes no difference to operations.** -/
theorem serveAll_desk (operations : List Operation) :
    (past.desk d).serveAll backend operations =
      Prod.map past.desk id <$> d.serveAll backend operations := by
  induction operations generalizing d with
  | nil => simp only [Desk.serveAll, map_pure]; rfl
  | cons o operations ih =>
    simp only [Desk.serveAll, serve_desk, bind_map_left, map_bind, Prod.map_fst, ih, map_pure]
    rfl

end Past

end StateAtlas
