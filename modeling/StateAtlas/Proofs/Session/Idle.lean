import StateAtlas.Proofs.Session.Operations
/-!
Desks where no pane is open.

The schema is read where a pane is projected and where a session opens its first pane.  As long as
no pane is open, operations that open none are refused, or change what the panes would share; in
either case the schema makes no difference.  A start that loads a schema forgets the one before, so
what comes afterwards does not depend on it either.

Main statement: `Blank.serveAll_withSchema`.
-/

namespace StateAtlas

open PaneTable

/-- Whether an operation can open a pane where there is none. -/
def Operation.opens : Operation → Bool
  | .start | .openDocuments _ | .table (.spawn _) => true
  | _ => false

/-- The session with another schema. -/
def Session.withSchema (s : Session) (schema : Schema) : Session := { s with schema }

namespace Desk

/-- The desk of a session with another schema. -/
def withSchema (d : Desk) (schema : Schema) : Desk :=
  { d with session := d.session.withSchema schema }

/-- No pane is open and no work is under way. -/
structure Blank (d : Desk) : Prop where
  live : d.session.table.live = {}
  ids : d.session.table.ids = []
  primary : d.session.table.primary = none
  active : d.session.table.active = none
  tickets : d.tickets = {}
  pendings : d.pendings = {}
  runs : d.runs = {}

variable {d : Desk} {σ : Type}

/-- An operation comes to the same whatever the schema, and opens no pane. -/
def Idles (d : Desk) (backend : Backend (StateM σ)) (o : Operation) : Prop :=
  ∃ (d' : Desk) (answer : Answer), d'.Blank ∧
    ∀ schema env, (d.withSchema schema).serve backend o env = ((d'.withSchema schema, answer), env)

end Desk

theorem PaneTable.merge_of_no_pane {t : PaneTable} (h : ∀ id, t.pane? id = none)
    (inputs : List PaneId) (keep : Bool) : ∃ e, t.merge inputs keep = .error e := by
  unfold merge
  dsimp only
  split
  next => exact ⟨_, rfl⟩
  next hmany =>
    match hids : inputs.eraseDups, hmany with
    | id :: ids, _ =>
      have hinput : t.mergeInput keep id = .error (.notFound id) := by
        simp [mergeInput, get, h, bind, Except.bind]
      exact ⟨.notFound id, by rw [List.mapM_cons, hinput]; rfl⟩

namespace Session

theorem withSchema_mark (s : Session) (schema : Schema) (ids : List NodeId) :
    (s.withSchema schema).mark ids = ((s.mark ids).1.withSchema schema, (s.mark ids).2) := by
  unfold Session.mark
  dsimp only
  rw [apply_ite fun s' : Session => s'.withSchema schema]
  rfl

theorem withSchema_unmark (s : Session) (schema : Schema) (ids : List NodeId) :
    (s.withSchema schema).unmark ids = ((s.unmark ids).1.withSchema schema, (s.unmark ids).2) := by
  unfold Session.unmark
  dsimp only
  rw [apply_ite fun s' : Session => s'.withSchema schema]
  rfl

theorem withSchema_watchRecurrence (s : Session) (schema : Schema) (ids : List NodeId) :
    (s.withSchema schema).watchRecurrence ids =
      ((s.watchRecurrence ids).1.withSchema schema, (s.watchRecurrence ids).2) := by
  have hwatched : ((s.addWatched ids).withSchema schema).recomputeWatched =
      (s.addWatched ids).recomputeWatched.withSchema schema := by
    unfold Session.recomputeWatched
    rw [apply_ite fun s' : Session => s'.withSchema schema]
    rfl
  exact congrArg (fun s' : Session => (s', Recurrence.detectAmong s'.holdings s'.watched)) hwatched

end Session

namespace Desk

variable {d : Desk} {σ : Type}

/-- **Where no pane is open, the schema makes no difference** to an operation that opens none. -/
theorem Blank.idles (h : d.Blank) (backend : Backend (StateM σ)) {o : Operation}
    (ho : o.opens = false) : d.Idles backend o := by
  obtain ⟨⟨options, table, marks, watched, schema, started⟩, tickets, pendings, runs⟩ := d
  obtain ⟨live, ids, created, primary, active, naming, nextLease, maxPanes, window, bus⟩ := table
  obtain ⟨rfl, rfl, rfl, rfl, rfl, rfl, rfl⟩ := h
  let t : PaneTable := ⟨{}, [], created, none, none, naming, nextLease, maxPanes, window, bus⟩
  let s : Session := ⟨options, t, marks, watched, schema, started⟩
  have hbare (s : Session) (hlive : s.table.live = {}) (hids : s.table.ids = [])
      (hprimary : s.table.primary = none) (hactive : s.table.active = none) :
      Blank ⟨s, {}, {}, {}⟩ := ⟨hlive, hids, hprimary, hactive, rfl, rfl, rfl⟩
  have hblank : Blank ⟨s, {}, {}, {}⟩ := hbare s rfl rfl rfl rfl
  cases o with
  | start | openDocuments => nomatch ho
  -- What asks for a pane is refused.
  | primary | begin | fetch | finish | expand | resolve | refresh | beginRun | stepRun
      | advanceRun | bestPath | select | undo | redo | selectWhere | sync | brush | brushCoalesced
      | selectExtreme | setMode | setPolicy | setDetails | setAutoSync | destroy | duplicate =>
    exact ⟨_, _, hblank, fun _ _ => rfl⟩
  | drop => exact ⟨_, .ok (.told false), hblank, fun _ _ => rfl⟩
  | explore pane nodes force => cases force <;> exact ⟨_, _, hblank, fun _ _ => rfl⟩
  | documents panes | duplicateMany panes =>
    cases panes <;> exact ⟨_, _, hblank, fun _ _ => rfl⟩
  | receive message => cases message <;> exact ⟨_, _, hblank, fun _ _ => rfl⟩
  | merge panes keep =>
    obtain ⟨e, he⟩ := merge_of_no_pane (t := t) (fun _ => rfl) panes keep
    refine ⟨_, .error (.session (.pane e)), hblank, fun schema env => ?_⟩
    have hmerge : (s.withSchema schema).merge panes keep = .error (.pane e) := by
      show (Session.withTable _ (t.merge panes keep) >>= _) = _
      rw [he]
      rfl
    exact congrArg (fun r => (take ⟨s.withSchema schema, {}, {}, {}⟩ .pane r, env)) hmerge
  -- What else there is looks at marks and watched nodes only.
  | strategy => exact ⟨_, .ok (.fragment s.strategy), hblank, fun _ _ => rfl⟩
  | teardown =>
    exact ⟨⟨s.teardown, {}, {}, {}⟩, .ok .done, hbare s.teardown rfl rfl rfl rfl, fun _ _ => rfl⟩
  | propagate =>
    exact ⟨⟨s.propagate, {}, {}, {}⟩, .ok .done, hbare s.propagate rfl rfl rfl rfl, fun _ _ => rfl⟩
  | pollBrushes now =>
    exact ⟨⟨(s.pollBrushes now).1, {}, {}, {}⟩, .ok (.count 0),
      hbare (s.pollBrushes now).1 rfl rfl rfl rfl, fun _ _ => rfl⟩
  | clearRecurrence =>
    exact ⟨⟨s.clearRecurrence, {}, {}, {}⟩, .ok .done, hbare s.clearRecurrence rfl rfl rfl rfl,
      fun _ _ => rfl⟩
  | detectRecurrence =>
    exact ⟨⟨s.detectRecurrence.1, {}, {}, {}⟩, .ok (.recurrence s.detectRecurrence.2),
      hbare s.detectRecurrence.1 rfl rfl rfl rfl, fun _ _ => rfl⟩
  | watchRecurrence ids =>
    refine ⟨⟨(s.watchRecurrence ids).1, {}, {}, {}⟩,
      .ok (.recurrence (s.watchRecurrence ids).2), ?_, fun schema env =>
        congrArg (fun r => (made ⟨s.withSchema schema, {}, {}, {}⟩ .recurrence r, env))
          (s.withSchema_watchRecurrence schema ids)⟩
    unfold Session.watchRecurrence Session.recomputeWatched
    dsimp only
    split <;> exact hbare _ rfl rfl rfl rfl
  | mark ids =>
    refine ⟨⟨(s.mark ids).1, {}, {}, {}⟩, .ok (.nodes (s.mark ids).2), ?_, fun schema env =>
      congrArg (fun r => (made ⟨s.withSchema schema, {}, {}, {}⟩ .nodes r, env))
        (s.withSchema_mark schema ids)⟩
    unfold Session.mark
    dsimp only
    split <;> exact hbare _ rfl rfl rfl rfl
  | unmark ids =>
    refine ⟨⟨(s.unmark ids).1, {}, {}, {}⟩, .ok (.nodes (s.unmark ids).2), ?_, fun schema env =>
      congrArg (fun r => (made ⟨s.withSchema schema, {}, {}, {}⟩ .nodes r, env))
        (s.withSchema_unmark schema ids)⟩
    unfold Session.unmark
    dsimp only
    split <;> exact hbare _ rfl rfl rfl rfl
  | table c =>
    cases c with
    | spawn r => nomatch ho
    | destroy | duplicate | activate | arrange | toggle | highlight =>
      exact ⟨_, _, hblank, fun _ _ => rfl⟩
    | duplicateMany panes => cases panes <;> exact ⟨_, _, hblank, fun _ _ => rfl⟩
    | merge panes keep =>
      obtain ⟨e, he⟩ := merge_of_no_pane (t := t) (fun _ => rfl) panes keep
      have hexecute : t.execute (.merge panes keep) = .error e := by
        simp only [execute, he]
        rfl
      exact ⟨_, .error (.session (.pane e)), hblank, fun schema env => congrArg
        (fun r => (take ⟨s.withSchema schema, {}, {}, {}⟩ .panes (Session.withTable _ r), env))
        hexecute⟩
    | clear =>
      exact ⟨⟨{ s with table := t.clear.1 }, {}, {}, {}⟩, .ok (.panes []),
        hbare { s with table := t.clear.1 } rfl rfl rfl rfl, fun _ _ => rfl⟩

variable {backend : Backend (StateM σ)}

theorem Blank.withSchema (h : d.Blank) (schema : Schema) : (d.withSchema schema).Blank :=
  ⟨h.live, h.ids, h.primary, h.active, h.tickets, h.pendings, h.runs⟩

/-- Without a primary pane and a status there is nothing to start with. -/
theorem start_of_status_error {s : Session} (hprimary : s.table.primary = none) {env env' : σ}
    {e : ExploreError} (hstatus : backend.status env = (.error e, env')) :
    s.start backend env = ((s, .error (.explore e)), env') := by
  unfold Session.start
  rw [hprimary]
  simp only [bind, StateT.bind, hstatus]
  rfl

/-- A start that loads a schema forgets the one before. -/
theorem start_withSchema {s : Session} (hprimary : s.table.primary = none) {env env' : σ}
    {project : Project} (hstatus : backend.status env = (.ok project, env')) (schema : Schema) :
    (s.withSchema schema).start backend env = s.start backend env := by
  have hprimary' : (s.withSchema schema).table.primary = none := hprimary
  unfold Session.start
  rw [hprimary, hprimary']
  simp only [bind, StateT.bind, hstatus]
  rfl

/-- A start without a status changes nothing. -/
theorem Blank.serve_start_of_error (h : d.Blank) {env env' : σ} {e : ExploreError}
    (hstatus : backend.status env = (.error e, env')) :
    d.serve backend .start env = ((d, .error (.session (.explore e))), env') :=
  congrArg (fun r : _ × σ => (d.adopt .pane r.1, r.2)) (start_of_status_error h.primary hstatus)

/-- A start that succeeds makes the same of a desk with another schema. -/
theorem Blank.serve_start_of_ok (h : d.Blank) {env env' : σ} {project : Project}
    (hstatus : backend.status env = (.ok project, env')) (schema : Schema) :
    (d.withSchema schema).serve backend .start env = d.serve backend .start env :=
  congrArg (fun r : _ × σ => (d.adopt .pane r.1, r.2)) (start_withSchema h.primary hstatus schema)

theorem serveAll_cons (d : Desk) (o : Operation) (operations : List Operation) (env : σ) :
    d.serveAll backend (o :: operations) env =
      let r := d.serve backend o env
      let r' := r.1.1.serveAll backend operations r.2
      ((r'.1.1, r.1.2 :: r'.1.2), r'.2) := rfl

/-- No pane is opened before a schema is loaded. -/
inductive LoadsFirst (backend : Backend (StateM σ)) : σ → List Operation → Prop
  | nil (env : σ) : LoadsFirst backend env []
  | idle {env : σ} {o : Operation} {operations : List Operation} (ho : o.opens = false)
      (h : LoadsFirst backend env operations) : LoadsFirst backend env (o :: operations)
  | unloaded {env env' : σ} {e : ExploreError} {operations : List Operation}
      (hstatus : backend.status env = (.error e, env'))
      (h : LoadsFirst backend env' operations) : LoadsFirst backend env (.start :: operations)
  | loaded {env env' : σ} {project : Project} {operations : List Operation}
      (hstatus : backend.status env = (.ok project, env')) :
      LoadsFirst backend env (.start :: operations)

/-- **The schema makes no difference to operations** that open no pane before a schema is loaded. -/
theorem Blank.serveAll_withSchema (h : d.Blank) {env : σ} {operations : List Operation}
    (hloads : LoadsFirst backend env operations) (schema : Schema) :
    ∃ kept, (d.withSchema schema).serveAll backend operations env =
      let r := d.serveAll backend operations env
      ((r.1.1.withSchema kept, r.1.2), r.2) := by
  induction hloads generalizing d with
  | nil env => exact ⟨schema, rfl⟩
  | @idle env o operations ho _ ih =>
    obtain ⟨d', answer, hblank, hserve⟩ := h.idles backend ho
    have hown : d.serve backend o env = ((d'.withSchema d.session.schema, answer), env) :=
      hserve d.session.schema env
    obtain ⟨kept, hkept⟩ := ih (hblank.withSchema d.session.schema)
    refine ⟨kept, ?_⟩
    rw [serveAll_cons, serveAll_cons, hown, hserve]
    exact congrArg (fun r => ((r.1.1, answer :: r.1.2), r.2)) hkept
  | @unloaded env env' e operations hstatus _ ih =>
    obtain ⟨kept, hkept⟩ := ih h
    refine ⟨kept, ?_⟩
    rw [serveAll_cons, serveAll_cons, h.serve_start_of_error hstatus,
      (h.withSchema schema).serve_start_of_error hstatus]
    exact congrArg (fun r => ((r.1.1, _ :: r.1.2), r.2)) hkept
  | @loaded env env' project operations hstatus =>
    refine ⟨(d.serveAll backend (.start :: operations) env).1.1.session.schema, ?_⟩
    rw [serveAll_cons, h.serve_start_of_ok hstatus]
    rfl

end Desk

end StateAtlas
