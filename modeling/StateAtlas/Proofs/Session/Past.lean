import StateAtlas.Proofs.Pane.Past
import StateAtlas.Session.Annotation
import StateAtlas.Session.BestPath
import StateAtlas.Session.Lifecycle
import StateAtlas.Session.Selection
/-!
Sessions with a past.

No operation of a session looks at the numbers of leases or at what the bus has delivered; so an
operation on a session whose table has a past comes to the same as on one whose table has none.
Each operation is followed by its lemma in the order in which the operations are built from each
other.
-/

namespace StateAtlas

namespace Past

variable (past : Past)

/-- The session whose table has a past. -/
def session (s : Session) : Session := { s with table := past.table s.table }

/-- The ticket with the lease that is given out instead. -/
def ticket (t : Ticket) : Ticket := { t with lease := past.lease t.lease }

variable (s : Session)

/-! ## Small changes -/

theorem get_session (id : PaneId) : (past.session s).get id = (s.get id).map past.pane := by
  show ((past.table s.table).get id).mapError _ = _
  rw [get_table]
  unfold Session.get
  cases s.table.get id <;> rfl

theorem publish_session (e : Event) : (past.session s).publish e = past.session (s.publish e) :=
  congrArg (fun table => { s with table }) (past.publish_table s.table e)

theorem warn_session (pane : Option PaneId) (message : String) :
    (past.session s).warn pane message = past.session (s.warn pane message) :=
  past.publish_session s _

theorem modify_session (id : PaneId) {f r : Pane → Pane}
    (h : ∀ p, past.pane (f p) = r (past.pane p)) :
    (past.session s).modify id r = past.session (s.modify id f) :=
  congrArg (fun table => { s with table }) (past.modify_table s.table id h)

theorem modifyAll_session {f r : Pane → Pane} (h : ∀ p, past.pane (f p) = r (past.pane p)) :
    (past.session s).modifyAll r = past.session (s.modifyAll f) :=
  congrArg (fun table => { s with table }) (past.modifyAll_table s.table h)

theorem modifyLive_session (id : PaneId) {f r : Pane → Pane}
    (h : ∀ p, past.pane (f p) = r (past.pane p)) :
    (past.session s).modifyLive id r = (s.modifyLive id f).map past.session := by
  unfold Session.modifyLive
  rw [get_session]
  exact map_bind_eq (fun _ => congrArg Except.ok (past.modify_session s id h)) _

theorem foldl_session {α : Type} {f : Session → α → Session}
    (hf : ∀ s a, f (past.session s) a = past.session (f s a)) (as : List α) :
    as.foldl f (past.session s) = past.session (as.foldl f s) := by
  induction as generalizing s with
  | nil => rfl
  | cons a as ih => rw [List.foldl_cons, List.foldl_cons, hf, ih]

/-! ## Deriving what panes show -/

theorem holdings_session : (past.session s).holdings = s.holdings := by
  show (past.table s.table).panes.map _ = _
  rw [panes_table, List.map_map]
  rfl

theorem applyRecurrence_session (r : Recurrence) :
    (past.session s).applyRecurrence r = past.session (s.applyRecurrence r) := by
  unfold Session.applyRecurrence
  rw [past.modifyAll_session s (f := fun p => { p with recurring := r.forPane p.id }) fun _ => rfl,
    publish_session]

theorem recomputeWatched_session :
    (past.session s).recomputeWatched = past.session s.recomputeWatched := by
  unfold Session.recomputeWatched
  rw [apply_ite past.session, holdings_session, applyRecurrence_session]
  rfl

theorem propagate_session : (past.session s).propagate = past.session s.propagate := by
  unfold Session.propagate
  rw [publish_session]
  exact past.modifyAll_session _ fun _ => rfl

theorem syncSelection_session (l : LinkedSelection Float) :
    (past.session s).syncSelection l = past.session (s.syncSelection l) := by
  refine past.modify_session s l.pane fun p => ?_
  rw [apply_ite past.pane, ← select_pane]
  rfl

theorem publishSelection_session (l : LinkedSelection Float) :
    (past.session s).publishSelection l = past.session (s.publishSelection l) := by
  unfold Session.publishSelection
  rw [publish_session, syncSelection_session]

theorem publishBrush_session (id : PaneId) :
    (past.session s).publishBrush id = past.session (s.publishBrush id) := by
  have hpane : (past.session s).table.pane? id = (s.table.pane? id).map past.pane :=
    past.pane?_table s.table id
  unfold Session.publishBrush
  rw [hpane]
  cases s.table.pane? id with
  | none => rfl
  | some p => exact past.publishSelection_session s p.brush.linked

theorem derived_session (added : List NodeId) (p : Pane) :
    past.pane (s.derived added p) = (past.session s).derived added (past.pane p) := by
  unfold Session.derived
  rw [noteAdded_pane]
  rfl

theorem afterGrowth_session (id : PaneId) (added : List NodeId) :
    (past.session s).afterGrowth id added = past.session (s.afterGrowth id added) := by
  unfold Session.afterGrowth
  rw [past.modify_session s id (past.derived_session s added), publishBrush_session,
    recomputeWatched_session]

theorem reproject_session (id : PaneId) :
    (past.session s).reproject id = past.session (s.reproject id) := by
  unfold Session.reproject
  rw [past.modify_session s id (f := fun p => p.project s.schema) fun _ => rfl,
    publishBrush_session]

/-! ## Beginning and end -/

theorem openFirst_session (seed : Fragment) :
    (past.session s).openFirst seed = Prod.map past.session id (s.openFirst seed) := by
  have hopen : (past.session s).table.openPane (.seeded seed (past.session s).defaultView) =
      Prod.map past.table id (s.table.openPane (.seeded seed s.defaultView)) :=
    past.openPane_table s.table _
  unfold Session.openFirst
  rw [hopen]
  generalize s.table.openPane (.seeded seed s.defaultView) = opened
  exact congrArg (fun s' => (s', opened.2))
    (past.afterGrowth_session { s with table := opened.1, started := true } opened.2 [])

theorem teardown_session : (past.session s).teardown = past.session s.teardown := by
  have hclear : (past.table s.table).clear.1 = past.table s.table.clear.1 :=
    congrArg Prod.fst (past.clear_table s.table)
  unfold Session.teardown
  simp only [session, hclear, Session.publish, publish_table]
  exact congrArg (fun bus => ({ s with
    table := { past.table (s.table.clear.1.publish (.registry .resetPaneNodeMarkings)) with bus }
    marks := {}
    watched := {}
    started := false } : Session)) past.clear_bus

theorem primary_session : (past.session s).primary = s.primary := by
  have hempty : (past.session s).table.isEmpty = s.table.isEmpty := past.isEmpty_table s.table
  unfold Session.primary
  rw [hempty]
  rfl

section Monadic

variable {m : Type → Type} [Monad m] [LawfulMonad m] (backend : Backend m)

theorem start_session :
    (past.session s).start backend = Prod.map past.session id <$> s.start backend := by
  have hprimary : (past.session s).table.primary = s.table.primary := rfl
  unfold Session.start
  rw [hprimary]
  cases s.table.primary with
  | some id => simp only [map_pure]; rfl
  | none =>
    simp only [map_bind]
    refine bind_congr fun status => ?_
    cases status with
    | error e => simp only [map_pure]; rfl
    | ok project =>
      simp only [map_bind]
      refine bind_congr fun initial => ?_
      cases initial with
      | error e => simp only [map_pure]; rfl
      | ok seed =>
        have hopen := past.openFirst_session { s with schema := project.schema } seed
        simp only [map_pure]
        exact congrArg (fun r : Session × PaneId => pure (r.1, Except.ok r.2)) hopen

end Monadic

/-! ## Expanding -/

theorem issue_session (p : Pane) (planned : List NodeId) :
    (past.session s).issue (past.pane p) planned =
      (s.issue p planned).map (Prod.map past.session past.ticket) := by
  unfold Session.issue
  show (if p.entered = .closed then _ else _) = _
  rw [apply_ite (Except.map (Prod.map past.session past.ticket))]
  have hbegin : (past.session s).table.beginExpansion (past.pane p) =
      (s.table.beginExpansion p).map (Prod.map past.table past.lease) :=
    past.beginExpansion_table s.table p
  refine if_congr Iff.rfl rfl ?_
  rw [hbegin]
  cases s.table.beginExpansion p <;> rfl

theorem beginExpansion_session (pane : PaneId) (frontier : List NodeId) :
    (past.session s).beginExpansion pane frontier =
      (s.beginExpansion pane frontier).map (Prod.map past.session past.ticket) := by
  unfold Session.beginExpansion
  rw [get_session]
  exact map_bind_eq (fun p => past.issue_session s p (p.store.plan frontier)) _

theorem drop_session (t : Ticket) :
    (past.session s).drop (past.ticket t) = past.session (s.drop t) :=
  congrArg (fun table => { s with table }) (past.release_table s.table t.lease)

theorem mergeInto_session (p : Pane) (planned : List NodeId) (g : Fragment) :
    (past.session s).mergeInto (past.pane p) planned g =
      Prod.map past.pane id (s.mergeInto p planned g) := by
  unfold Session.mergeInto
  exact congrArg (fun q => (q, (p.store.commit planned g
    (some (p.capacity s.options.paneNodeCeiling))).2)) (past.endExpansion_pane { p with
      store := (p.store.commit planned g (some (p.capacity s.options.paneNodeCeiling))).1 })

theorem finish_session (t : Ticket) (fetched : Except ExploreError Fragment) :
    (past.session s).finish (past.ticket t) fetched =
      Prod.map past.session id (s.finish t fetched) := by
  have hget : (past.session s).get (past.ticket t).pane = (s.get t.pane).map past.pane :=
    past.get_session s t.pane
  unfold Session.finish
  rw [hget]
  cases s.get t.pane with
  | error e => rfl
  | ok p =>
    cases fetched with
    | error e =>
      have hend : (past.session s).modify (past.ticket t).pane Pane.endExpansion =
          past.session (s.modify t.pane Pane.endExpansion) :=
        past.modify_session s t.pane fun p => (past.endExpansion_pane p).symm
      simp only [Except.map, hend, warn_session]
      rfl
    | ok g =>
      have hmerge : (past.session s).mergeInto (past.pane p) (past.ticket t).planned g =
          Prod.map past.pane id (s.mergeInto p t.planned g) :=
        past.mergeInto_session s p t.planned g
      simp only [Except.map, hmerge]
      obtain ⟨grown, outcome⟩ := s.mergeInto p t.planned g
      have hgrown : (past.session s).modify (past.ticket t).pane (fun _ => past.pane grown) =
          past.session (s.modify t.pane fun _ => grown) :=
        past.modify_session s t.pane fun _ => rfl
      simp only [Prod.map, id_eq, hgrown]
      cases outcome with
      | merged delta => exact congrArg (fun s' => (s', _)) (past.afterGrowth_session _ _ _)
      | capacityExceeded pending => rfl

theorem spawnFor_session (source : Pane) (nodes : List NodeId) :
    (past.session s).spawnFor (past.pane source) nodes =
      Prod.map past.session id (s.spawnFor source nodes) :=
  congrArg (fun r : PaneTable × PaneId => ({ s with table := r.1 }, r.2))
    (past.openPane_table s.table _)

theorem applyPending_session (p : Pane) (pending : Pending) :
    (past.session s).applyPending (past.pane p) pending =
      Prod.map past.session id (s.applyPending p pending) := by
  have hstore := past.modify_session s p.id
    (f := fun q => { q with store := (p.store.apply pending).1 })
    (r := fun q => { q with store := (p.store.apply pending).1 }) fun _ => rfl
  unfold Session.applyPending
  exact congrArg (fun s' => (s', (p.store.apply pending).2))
    ((congrArg (fun s' => Session.afterGrowth s' p.id _) hstore).trans
      (past.afterGrowth_session _ p.id _))

theorem resolve_session (pane : PaneId) (pending : Pending) (decision : CapacityDecision) :
    (past.session s).resolve pane pending decision =
      (s.resolve pane pending decision).map (Prod.map past.session id) := by
  cases decision with
  | cancel => rfl
  | proceed =>
    simp only [Session.resolve, get_session]
    cases s.get pane with
    | error e => rfl
    | ok p =>
      exact congrArg (fun r : Session × Delta => Except.ok (r.1, Resolution.merged r.2))
        (past.applyPending_session s p pending)
  | redirect =>
    simp only [Session.resolve, get_session]
    cases s.get pane with
    | error e => rfl
    | ok source =>
      simp only [Except.map, bind, Except.bind, spawnFor_session]
      obtain ⟨spawned, opened⟩ := s.spawnFor source pending.frontier
      simp only [Prod.map, id_eq, get_session]
      cases spawned.get opened with
      | error e => rfl
      | ok p =>
        exact congrArg
          (fun r : Session × Delta => Except.ok (r.1, Resolution.redirected opened r.2))
          (past.applyPending_session spawned p pending)

section Backend

variable {m : Type → Type} [Monad m] [LawfulMonad m] (backend : Backend m)

theorem expand_session (pane : PaneId) (frontier : List NodeId) :
    (past.session s).expand backend pane frontier =
      Prod.map past.session id <$> s.expand backend pane frontier := by
  unfold Session.expand
  rw [beginExpansion_session]
  cases s.beginExpansion pane frontier with
  | error e => simp only [map_pure]; rfl
  | ok issued =>
    simp only [map_bind, map_pure]
    refine bind_congr fun fetched => ?_
    exact congrArg pure (past.finish_session issued.1 issued.2 fetched)

theorem explore_session (pane : PaneId) (nodes : List NodeId) (force : Bool) :
    (past.session s).explore backend pane nodes force =
      Prod.map past.session id <$> s.explore backend pane nodes force := by
  have hexplored : (past.session s).table.explored? nodes = s.table.explored? nodes :=
    past.explored?_table s.table nodes
  unfold Session.explore
  rw [hexplored]
  cases (if force then none else s.table.explored? nodes) with
  | some id => simp only [map_pure]; rfl
  | none =>
    simp only [get_session]
    cases s.get pane with
    | error e => simp only [map_pure]; rfl
    | ok source =>
      simp only [Except.map, spawnFor_session]
      obtain ⟨spawned, id⟩ := s.spawnFor source nodes
      simp only [Prod.map, id_eq, afterGrowth_session, expand_session, map_bind, bind_map_left]
      refine bind_congr fun expanded => ?_
      obtain ⟨s', outcome⟩ := expanded
      cases outcome with
      | error e => simp only [map_pure]; rfl
      | ok outcome =>
        cases outcome with
        | merged delta => simp only [map_pure]; rfl
        | capacityExceeded pending =>
          simp only [resolve_session]
          cases s'.resolve id pending .proceed with
          | error e => simp only [map_pure]; rfl
          | ok resolved => simp only [map_pure]; rfl

theorem refresh_session (pane : PaneId) :
    (past.session s).refresh backend pane =
      Prod.map past.session id <$> s.refresh backend pane := by
  unfold Session.refresh
  rw [get_session]
  cases s.get pane with
  | error e => simp only [map_pure]; rfl
  | ok p =>
    simp only [map_bind]
    refine bind_congr fun refreshed => ?_
    obtain ⟨store, updated⟩ := refreshed
    cases updated with
    | error e => simp only [map_pure, warn_session]; rfl
    | ok n =>
      have hstore := past.modify_session s pane (f := fun p => { p with store })
        (r := fun p => { p with store }) fun _ => rfl
      simp only [map_pure, hstore, reproject_session]
      rfl

/-! ## Best paths -/

omit [LawfulMonad m] [Monad m] in
theorem beginBestPath_session (pane : PaneId) (sources : List NodeId) (maxSteps : Option Nat) :
    (past.session s).beginBestPath pane sources maxSteps =
      s.beginBestPath pane sources maxSteps := by
  unfold Session.beginBestPath
  rw [get_session]
  cases s.get pane <;> rfl

/-- The step of a run with the ticket that is given out instead. -/
def pathStep : PathStep → PathStep
  | .fetch t => .fetch (past.ticket t)
  | .done report => .done report

theorem warnHalted_session (pane : PaneId) (stop : StopReason) :
    (past.session s).warnHalted pane stop = past.session (s.warnHalted pane stop) := by
  unfold Session.warnHalted
  split
  · exact past.warn_session s _ _
  · rfl

theorem bestPathStep_session (pane : PaneId) (run : BestPathRun) :
    (past.session s).bestPathStep pane run =
      Prod.map id (Except.map (Prod.map past.session past.pathStep)) (s.bestPathStep pane run) := by
  unfold Session.bestPathStep
  rw [get_session]
  cases s.get pane with
  | error e => rfl
  | ok p =>
    have hnext : run.next (past.pane p).store = run.next p.store := rfl
    simp only [Except.map, hnext]
    obtain ⟨run', step⟩ := run.next p.store
    cases step with
    | done report => simp only [warnHalted_session]; rfl
    | fetch planned =>
      simp only [issue_session]
      cases s.issue p planned <;> rfl

theorem mergeFetched_session (p : Pane) (planned : List NodeId)
    (fetched : Except ExploreError Fragment) :
    (past.session s).mergeFetched (past.pane p) planned fetched =
      Prod.map past.pane id (s.mergeFetched p planned fetched) := by
  cases fetched with
  | error e => exact congrArg (fun q => (q, Except.error e)) (past.endExpansion_pane p)
  | ok g =>
    exact congrArg (fun r : Pane × Outcome => (r.1, Except.ok r.2))
      (past.mergeInto_session s p planned g)

theorem advanceBestPath_session (run : BestPathRun) (t : Ticket)
    (fetched : Except ExploreError Fragment) :
    (past.session s).advanceBestPath run (past.ticket t) fetched =
      (s.advanceBestPath run t fetched).map (Prod.map past.session id) := by
  have hget : (past.session s).get (past.ticket t).pane = (s.get t.pane).map past.pane :=
    past.get_session s t.pane
  unfold Session.advanceBestPath
  rw [hget]
  cases s.get t.pane with
  | error e => rfl
  | ok p =>
    have hmerge : (past.session s).mergeFetched (past.pane p) (past.ticket t).planned fetched =
        Prod.map past.pane id (s.mergeFetched p t.planned fetched) :=
      past.mergeFetched_session s p t.planned fetched
    simp only [Except.map, bind, Except.bind, hmerge]
    obtain ⟨grown, outcome⟩ := s.mergeFetched p t.planned fetched
    have hgrown : (past.session s).modify (past.ticket t).pane (fun _ => past.pane grown) =
        past.session (s.modify t.pane fun _ => grown) :=
      past.modify_session s t.pane fun _ => rfl
    simp only [Prod.map, id_eq, hgrown]
    cases outcome with
    | error e => rfl
    | ok outcome =>
      cases outcome with
      | capacityExceeded pending => rfl
      | merged delta =>
        simp only [afterGrowth_session, ← apply_ite past.session]
        rfl

theorem followBestPath_session (pane : PaneId) (run : BestPathRun) :
    (past.session s).followBestPath backend pane run =
      Prod.map past.session id <$> s.followBestPath backend pane run := by
  -- Each round uses up one of the steps that the run has left.
  induction hn : run.remaining using Nat.strongRecOn generalizing s run with
  | ind n ih =>
    subst hn
    rw [Session.followBestPath_eq, Session.followBestPath_eq, bestPathStep_session]
    rcases hstep : s.bestPathStep pane run with ⟨run', e | ⟨s', ticket | report⟩⟩
    · simp only [map_pure]
      rfl
    · simp only [map_bind]
      refine bind_congr fun fetched => ?_
      rw [advanceBestPath_session, id_eq]
      rcases hadvance : s'.advanceBestPath run' ticket fetched with e | ⟨s'', run''⟩
      · simp only [map_pure]
        rfl
      · exact ih _ (Session.remaining_advance_lt hstep hadvance) s'' run'' rfl
    · simp only [map_pure]
      rfl

theorem bestPath_session (pane : PaneId) (sources : List NodeId) (maxSteps : Option Nat) :
    (past.session s).bestPath backend pane sources maxSteps =
      Prod.map past.session id <$> s.bestPath backend pane sources maxSteps := by
  unfold Session.bestPath
  rw [beginBestPath_session]
  cases s.beginBestPath pane sources maxSteps with
  | error e => simp only [map_pure]; rfl
  | ok run => exact past.followBestPath_session s backend pane run

end Backend

/-! ## Selecting and brushing -/

theorem select_session (pane : PaneId) (ids : List NodeId) :
    (past.session s).select pane ids = (s.select pane ids).map past.session :=
  past.modifyLive_session s pane fun p => (past.select_pane p ids).symm

theorem undo_session (pane : PaneId) :
    (past.session s).undo pane = (s.undo pane).map (Prod.map past.session id) := by
  unfold Session.undo
  rw [get_session]
  refine map_bind_eq (fun p => ?_) _
  rw [undo?_pane]
  cases p.undo? with
  | none => rfl
  | some q =>
    exact congrArg (fun s' => Except.ok (s', true)) (past.modify_session s pane fun _ => rfl)

theorem redo_session (pane : PaneId) :
    (past.session s).redo pane = (s.redo pane).map (Prod.map past.session id) := by
  unfold Session.redo
  rw [get_session]
  refine map_bind_eq (fun p => ?_) _
  rw [redo?_pane]
  cases p.redo? with
  | none => rfl
  | some q =>
    exact congrArg (fun s' => Except.ok (s', true)) (past.modify_session s pane fun _ => rfl)

theorem selectWhere_session (pane : PaneId) (proposition : String) :
    (past.session s).selectWhere pane proposition =
      (s.selectWhere pane proposition).map past.session :=
  past.modifyLive_session s pane fun p => (past.select_pane p _).symm

theorem sync_session (l : LinkedSelection Float) :
    (past.session s).sync l = (s.sync l).map (Prod.map past.session id) := by
  unfold Session.sync
  rw [get_session]
  exact map_bind_eq (fun p => congrArg (fun s' => Except.ok (s', p.view.autoSync))
    (past.syncSelection_session s l)) _

theorem modifyBrush_session (pane : PaneId) (f : Brush Float → Brush Float) :
    (past.session s).modifyBrush pane f = past.session (s.modifyBrush pane f) :=
  past.modify_session s pane fun _ => rfl

theorem brush_session (pane : PaneId) (dimension : String) (c : Option (Constraint Float)) :
    (past.session s).brush pane dimension c = (s.brush pane dimension c).map past.session := by
  unfold Session.brush
  rw [get_session]
  refine map_bind_eq (fun p => congrArg Except.ok ?_) _
  rw [modifyBrush_session, publishBrush_session]

theorem brushCoalesced_session (pane : PaneId) (dimension : String)
    (c : Option (Constraint Float)) (now : Nat) :
    (past.session s).brushCoalesced pane dimension c now =
      (s.brushCoalesced pane dimension c now).map (Prod.map past.session id) := by
  unfold Session.brushCoalesced
  rw [get_session]
  refine map_bind_eq (fun p => ?_) _
  have hbrush : (past.pane p).brush = p.brush := rfl
  rw [hbrush]
  obtain ⟨b, ran⟩ := p.brush.brushCoalesced dimension c now
  simp only [modifyBrush_session, publishBrush_session, ← apply_ite past.session]
  rfl

theorem pollBrushes_session (now : Nat) :
    (past.session s).pollBrushes now = Prod.map past.session id (s.pollBrushes now) := by
  let ready (s : Session) : List PaneId :=
    (s.table.panes.filter fun p => (p.brush.poll now).2).map Pane.id
  have hready : ready (past.session s) = ready s := by
    show (((past.table s.table).panes.filter _).map Pane.id) = _
    rw [panes_table, List.filter_map, List.map_map]
    rfl
  have hpolled := past.modifyAll_session s
    (f := fun p => { p with brush := (p.brush.poll now).1 })
    (r := fun p => { p with brush := (p.brush.poll now).1 }) fun _ => rfl
  show ((ready (past.session s)).foldl Session.publishBrush ((past.session s).modifyAll _),
    (ready (past.session s)).length) = _
  rw [hready, hpolled, past.foldl_session _ past.publishBrush_session]
  rfl

theorem selectExtreme_session (pane : PaneId) (dimension : String) (which : Extreme) :
    (past.session s).selectExtreme pane dimension which =
      (s.selectExtreme pane dimension which).map (Prod.map past.session id) := by
  unfold Session.selectExtreme
  rw [get_session]
  refine map_bind_eq (fun p => ?_) _
  have hbrush : (past.pane p).brush = p.brush := rfl
  rw [hbrush]
  cases p.brush.selectExtreme? dimension which with
  | none => rfl
  | some b =>
    simp only [modifyBrush_session, publishBrush_session]
    rfl

/-! ## View settings -/

theorem modifyView_session (pane : PaneId) (f : ViewState → ViewState) :
    (past.session s).modifyView pane f = (s.modifyView pane f).map past.session :=
  past.modifyLive_session s pane fun _ => rfl

theorem setMode_session (pane : PaneId) (mode : DisplayMode) :
    (past.session s).setMode pane mode = (s.setMode pane mode).map past.session := by
  unfold Session.setMode
  rw [modifyView_session]
  exact map_bind_eq (fun s' => congrArg Except.ok (past.reproject_session s' pane)) _

theorem setPolicy_session (pane : PaneId) (policy : Option String) :
    (past.session s).setPolicy pane policy = (s.setPolicy pane policy).map past.session :=
  past.modifyView_session s pane _

theorem setAutoSync_session (pane : PaneId) (on : Bool) :
    (past.session s).setAutoSync pane on = (s.setAutoSync pane on).map past.session :=
  past.modifyView_session s pane _

theorem setDetails_session (pane : PaneId) (details : DetailSelection) :
    (past.session s).setDetails pane details = (s.setDetails pane details).map past.session := by
  unfold Session.setDetails
  rw [modifyView_session]
  exact map_bind_eq (fun s' => congrArg Except.ok (past.reproject_session s' pane)) _

/-! ## Marks -/

theorem mark_session (ids : List NodeId) :
    (past.session s).mark ids = Prod.map past.session id (s.mark ids) := by
  let marked : Session := { s with marks := (s.marks.mark ids).1 }
  let added := (s.marks.mark ids).2
  show (if added.isEmpty then past.session marked
    else ((past.session marked).publish (.marksChanged added [])).propagate, added) = _
  rw [publish_session, propagate_session, ← apply_ite past.session]
  rfl

theorem unmark_session (ids : List NodeId) :
    (past.session s).unmark ids = Prod.map past.session id (s.unmark ids) := by
  let marked : Session := { s with marks := (s.marks.unmark ids).1 }
  let removed := (s.marks.unmark ids).2
  show (if removed.isEmpty then past.session marked
    else ((past.session marked).publish (.marksChanged [] removed)).propagate, removed) = _
  rw [publish_session, propagate_session, ← apply_ite past.session]
  rfl

theorem strategy_session : (past.session s).strategy = s.strategy := by
  have hstores : (past.session s).table.panes.map Pane.store = s.table.panes.map Pane.store := by
    show (past.table s.table).panes.map Pane.store = _
    rw [panes_table, List.map_map]
    rfl
  unfold Session.strategy
  rw [hstores]
  rfl

/-! ## Recurrence -/

theorem detectRecurrence_session :
    (past.session s).detectRecurrence = Prod.map past.session id s.detectRecurrence := by
  let r := Recurrence.detect s.holdings
  have hfound : Recurrence.detect (past.session s).holdings = r := by rw [holdings_session]
  have happly := past.applyRecurrence_session (s.addWatched r.ids) r
  unfold Session.detectRecurrence
  rw [hfound]
  exact congrArg (fun s' => (s', r)) ((congrArg (fun s' : Session =>
    s'.publish (.registry (.duplicatePaneIds r.panes))) happly).trans (past.publish_session _ _))

theorem watchRecurrence_session (ids : List NodeId) :
    (past.session s).watchRecurrence ids = Prod.map past.session id (s.watchRecurrence ids) := by
  have hwatched : ((past.session s).addWatched ids).recomputeWatched =
      past.session (s.addWatched ids).recomputeWatched :=
    past.recomputeWatched_session (s.addWatched ids)
  simp only [Session.watchRecurrence, hwatched, holdings_session]
  rfl

theorem clearRecurrence_session :
    (past.session s).clearRecurrence = past.session s.clearRecurrence := by
  have hcleared := past.modifyAll_session { s with watched := {} }
    (f := fun p => { p with recurring := {} }) (r := fun p => { p with recurring := {} })
    fun _ => rfl
  exact (congrArg (fun s' : Session => s'.publish (.registry .resetPaneNodeMarkings))
    hcleared).trans (past.publish_session _ _)

/-! ## Lifecycle -/

theorem withTable_session {α : Type} (r : Except PaneError (PaneTable × α)) :
    (past.session s).withTable (r.map (Prod.map past.table id)) =
      (s.withTable r).map (Prod.map past.session id) := by
  cases r <;> rfl

theorem destroy_session (pane : PaneId) (cascade : Bool) :
    (past.session s).destroy pane cascade =
      (s.destroy pane cascade).map (Prod.map past.session id) := by
  have hdestroy : (past.session s).table.destroy pane cascade true =
      (s.table.destroy pane cascade true).map (Prod.map past.table id) :=
    past.destroy_table s.table pane cascade true
  unfold Session.destroy
  rw [hdestroy, withTable_session]
  refine map_bind_eq (fun r => ?_) _
  exact congrArg (fun s' => Except.ok (s', r.2)) (past.recomputeWatched_session r.1)

theorem merge_session (panes : List PaneId) (keep : Bool) :
    (past.session s).merge panes keep =
      (s.merge panes keep).map (Prod.map past.session id) := by
  have hmerge : (past.session s).table.merge panes keep =
      (s.table.merge panes keep).map (Prod.map past.table id) :=
    past.merge_table s.table panes keep
  unfold Session.merge
  rw [hmerge, withTable_session]
  refine map_bind_eq (fun r => ?_) _
  exact congrArg (fun s' => Except.ok (s', r.2)) (past.afterGrowth_session r.1 r.2 [])

theorem duplicate_session (pane : PaneId) :
    (past.session s).duplicate pane = (s.duplicate pane).map (Prod.map past.session id) := by
  have hduplicate : (past.session s).table.duplicate pane =
      (s.table.duplicate pane).map (Prod.map past.table id) :=
    past.duplicate_table s.table pane
  unfold Session.duplicate
  rw [hduplicate, withTable_session]
  refine map_bind_eq (fun r => ?_) _
  exact congrArg (fun s' => Except.ok (s', r.2)) (past.afterGrowth_session r.1 r.2 [])

theorem duplicateMany_session (panes : List PaneId) :
    (past.session s).duplicateMany panes =
      (s.duplicateMany panes).map (Prod.map past.session id) := by
  have hduplicate : (past.session s).table.duplicateMany panes =
      (s.table.duplicateMany panes).map (Prod.map past.table id) :=
    past.duplicateMany_table s.table panes
  unfold Session.duplicateMany
  rw [hduplicate, withTable_session]
  refine map_bind_eq (fun r => ?_) _
  exact congrArg (fun s' => Except.ok (s', r.2))
    (past.foldl_session r.1 (fun s' id => past.afterGrowth_session s' id []) r.2)

theorem execute_session (c : PaneCommand) :
    (past.session s).withTable ((past.session s).table.execute c) =
      (s.withTable (s.table.execute c)).map (Prod.map past.session id) := by
  have hexecute : (past.session s).table.execute c =
      (s.table.execute c).map (Prod.map past.table id) := past.execute_table s.table c
  rw [hexecute, withTable_session]

theorem receive_session (message : RegistryMessage) :
    (past.session s).receive message = (s.receive message).map past.session := by
  cases message with
  | activePane id =>
    have hhighlight : (past.session s).table.highlight id =
        (s.table.highlight id).map past.table := past.highlight_table s.table id
    simp only [Session.receive, hhighlight]
    cases s.table.highlight id <;> rfl
  | _ => rfl

/-! ## Documents -/

theorem documents_session (panes : List PaneId) (selectionOnly : Bool) :
    (past.session s).documents panes selectionOnly = s.documents panes selectionOnly := by
  unfold Session.documents
  refine congrArg (fun f => panes.mapM f) (funext fun id => ?_)
  rw [get_session]
  cases s.get id <;> rfl

theorem warnMismatches_session (d : PaneDocument) :
    (past.session s).warnMismatches d = past.session (s.warnMismatches d) := by
  unfold Session.warnMismatches
  rw [warn_session, ← apply_ite past.session]

theorem openDocument_session (d : PaneDocument) :
    (past.session s).openDocument d = Prod.map past.session id (s.openDocument d) := by
  simp only [Session.openDocument, warnMismatches_session]
  generalize s.warnMismatches d = s
  have hopen : (past.session s).table.openPane (Session.documentRequest d) =
      Prod.map past.table id (s.table.openPane (Session.documentRequest d)) :=
    past.openPane_table s.table _
  rw [hopen]
  generalize s.table.openPane (Session.documentRequest d) = opened
  let replace (p : Pane) : Pane := { p with brush := p.brush.replaceState d.brush }
  have hreplace := past.modify_session { s with table := opened.1 } opened.2 (f := replace)
    (r := replace) fun _ => rfl
  exact congrArg (fun s' => (s', opened.2))
    ((congrArg (fun s' : Session => s'.afterGrowth opened.2 []) hreplace).trans
      (past.afterGrowth_session _ opened.2 []))

theorem foldl_openNext_session (opened : Session × List PaneId) (docs : List PaneDocument) :
    docs.foldl Session.openNext (Prod.map past.session id opened) =
      Prod.map past.session id (docs.foldl Session.openNext opened) := by
  induction docs generalizing opened with
  | nil => rfl
  | cons d docs ih =>
    have hfirst : Session.openNext (Prod.map past.session id opened) d =
        Prod.map past.session id (Session.openNext opened d) := by
      simp only [Session.openNext, Prod.map_fst, Prod.map_snd, openDocument_session]
      generalize opened.1.openDocument d = next
      rfl
    rw [List.foldl_cons, List.foldl_cons, hfirst, ih]

theorem openDocuments_session (docs : List PaneDocument) :
    (past.session s).openDocuments docs = Prod.map past.session id (s.openDocuments docs) := by
  have hall := past.foldl_openNext_session (s, []) docs
  unfold Session.openDocuments
  generalize docs.foldl Session.openNext (s, []) = opened at hall
  exact congrArg (fun r : Session × List PaneId => ({ r.1 with started := true }, r.2)) hall

end Past

end StateAtlas
