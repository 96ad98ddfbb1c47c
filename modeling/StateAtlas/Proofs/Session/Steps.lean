import Mathlib.Logic.Relation
import StateAtlas.Proofs.Brush.Coalescing
import StateAtlas.Proofs.Session.Feeds
/-!
Sessions step by step.

Whatever is asked of a session, it comes to a few kinds of steps, which `FedStep` lists: a pane is put
in another state and what it shows is derived anew, panes come and go, or something is announced.  A
step that takes in something from outside takes in only what a feed lets in.  A command that asks the
backend takes some steps before it asks and some with each answer.  So what every step keeps holds
after any commands, whatever the backend answers.

Steps are told apart by the kind of command that may take them.  Most may be taken by any; marks,
selections, settings and the set of live panes are changed by commands of one kind each.

Main statements: `always_performFed` and `always_run`.
-/

namespace StateAtlas

open PaneTable

namespace Session

variable {F : Feed} {s s' : Session} {k : CommandKind} {id pane : PaneId} {I : Session → Prop}

/-- The session with a pane opened from a document, about whose attributes nobody is warned. -/
def unpack (s : Session) (d : PaneDocument) : Session :=
  let r := s.table.openPane (documentRequest d)
  ({ s with table := r.1 }.modify r.2 fun p =>
    { p with brush := p.brush.replaceState d.brush }).settle r.2

/-- One step of a session, which a command of a kind may take if what it takes in from outside may
come in. -/
inductive FedStep (F : Feed) (s : Session) (k : CommandKind) : Session → Prop
  | warn (pane : Option PaneId) (message : String) : FedStep F s k (s.warn pane message)
  | load (schema : Schema) (hk : k = .opening) : FedStep F s k { s with schema }
  | enter (hk : k = .opening) : FedStep F s k { s with started := true }
  | teardown (hk : k = .ending) : FedStep F s k s.teardown
  /-- A pane gives out a ticket. -/
  | lend {pane : PaneId} {p q : Pane} (hp : s.table.pane? pane = some p)
      (hq : p.beginExpansion s.table.nextLease = .ok q) :
      FedStep F s k { s with table := { s.table.modify p.id (fun _ => q) with
        nextLease := s.table.nextLease + 1 } }
  | drop (t : Ticket) : FedStep F s k (s.drop t)
  /-- The expansion of a pane ends without anything to merge. -/
  | abandon (pane : PaneId) : FedStep F s k (s.modify pane Pane.endExpansion)
  /-- The expansion of a pane ends, but what was fetched is held back. -/
  | withhold {pane : PaneId} {p : Pane} (hp : s.table.pane? pane = some p) :
      FedStep F s k (s.modify pane fun _ => p.endExpansion)
  | grow {pane : PaneId} {p : Pane} (hp : s.table.pane? pane = some p) (frontier : List NodeId)
      (g : Fragment) (hg : F.AdmitsFragment g) :
      FedStep F s k ((s.modify pane fun _ =>
          { p with store := p.store.merge frontier g }.endExpansion).afterGrowth pane
        (Delta.between p.store (p.store.merge frontier g)).nodes)
  /-- Only edges are added to a pane, which need not be derived from. -/
  | tie {pane : PaneId} {p : Pane} (hp : s.table.pane? pane = some p) (frontier : List NodeId)
      (g : Fragment) (hnone : (Delta.between p.store (p.store.merge frontier g)).nodes = [])
      (hg : F.AdmitsFragment g) :
      FedStep F s k (s.modify pane fun _ => { p with store := p.store.merge frontier g }.endExpansion)
  | proceed {pane : PaneId} {p : Pane} (hp : s.table.pane? pane = some p) (pending : Pending)
      (hg : F.AdmitsFragment pending.fetched) :
      FedStep F s k (s.applyPending p pending).1
  /-- What was held back is merged into a pane that is opened for it. -/
  | redirect {pane : PaneId} {source p : Pane} (hsource : s.table.pane? pane = some source)
      (pending : Pending)
      (hp : (s.spawnFor source pending.frontier).1.table.pane?
        (s.spawnFor source pending.frontier).2 = some p) (hk : k = .opening)
      (hg : F.AdmitsFragment pending.fetched) :
      FedStep F s k ((s.spawnFor source pending.frontier).1.applyPending p pending).1
  /-- Fresh copies of nodes are taken over. -/
  | renew {pane : PaneId} {p : Pane} (hp : s.table.pane? pane = some p) (fresh : List Node)
      (hfresh : ∀ n ∈ fresh, F.node n) :
      FedStep F s k
        ((s.modify pane fun q => { q with store := p.store.refresh fresh }).reproject pane)
  | openFirst (seed : Fragment) (hk : k = .opening) (hg : F.AdmitsFragment seed) :
      FedStep F s k (s.openFirst seed).1
  /-- A pane is opened to explore nodes. -/
  | openFor {pane : PaneId} {p : Pane} (hp : s.table.pane? pane = some p) (nodes : List NodeId)
      (hk : k = .opening) : FedStep F s k ((s.spawnFor p nodes).1.settle (s.spawnFor p nodes).2)
  | unpack (d : PaneDocument) (hk : k = .opening) (hd : F.AdmitsDocument d) :
      FedStep F s k (s.unpack d)
  | destroy {pane : PaneId} {cascade : Bool} {u : PaneTable} {gone : List PaneId}
      (hdestroy : s.table.destroy pane cascade true = .ok (u, gone)) (hk : k = .opening) :
      FedStep F s k { s with table := u }.recomputeWatched
  | merge {panes : List PaneId} {keep : Bool} {u : PaneTable} {new : PaneId}
      (hmerge : s.table.merge panes keep = .ok (u, new)) (hk : k = .opening) :
      FedStep F s k ({ s with table := u }.settle new)
  | duplicate {pane new : PaneId} {u : PaneTable}
      (hduplicate : s.table.duplicate pane = .ok (u, new)) (hk : k = .opening) :
      FedStep F s k ({ s with table := u }.settle new)
  | duplicateMany {panes new : List PaneId} {u : PaneTable}
      (hduplicate : s.table.duplicateMany panes = .ok (u, new)) (hk : k = .opening) :
      FedStep F s k (new.foldl settle { s with table := u })
  | highlight {pane : PaneId} {u : PaneTable} (hhighlight : s.table.highlight pane = .ok u) :
      FedStep F s k { s with table := u }
  | mark (ids : List NodeId) (hk : k = .marking) : FedStep F s k (s.mark ids).1
  | unmark (ids : List NodeId) (hk : k = .marking) : FedStep F s k (s.unmark ids).1
  | propagate : FedStep F s k s.propagate
  | detect : FedStep F s k s.detectRecurrence.1
  | watch (ids : List NodeId) : FedStep F s k (s.watchRecurrence ids).1
  | unwatch : FedStep F s k s.clearRecurrence
  | select (pane : PaneId) (ids : Pane → List NodeId) (hk : k = .selecting) :
      FedStep F s k (s.modify pane fun p => p.select (ids p))
  | undo {pane : PaneId} {p q : Pane} (hp : s.table.pane? pane = some p) (hq : p.undo? = some q)
      (hk : k = .selecting) : FedStep F s k (s.modify pane fun _ => q)
  | redo {pane : PaneId} {p q : Pane} (hp : s.table.pane? pane = some p) (hq : p.redo? = some q)
      (hk : k = .selecting) : FedStep F s k (s.modify pane fun _ => q)
  | sync (l : LinkedSelection Float) : FedStep F s k (s.syncSelection l)
  /-- A brush is asked something, and what it selects is announced. -/
  | brush {pane : PaneId} {p : Pane} (hp : s.table.pane? pane = some p)
      {f : Brush Float → Brush Float} {c : BrushCommand} (hc : c.isProjection = false)
      (hf : f p.brush = (p.brush.execute c).1) (hstate : c.Brings F.state) :
      FedStep F s k ((s.modifyBrush pane f).publishBrush pane)
  /-- A constraint is stored, but nothing is recomputed yet. -/
  | postpone {pane : PaneId} {p : Pane} (hp : s.table.pane? pane = some p) {dimension : String}
      {c : Option (Constraint Float)} {now : Nat}
      (hran : (p.brush.brushCoalesced dimension c now).2 = false) :
      FedStep F s k (s.modifyBrush pane fun _ => (p.brush.brushCoalesced dimension c now).1)
  | poll (now : Nat) : FedStep F s k (s.pollBrushes now).1
  /-- A setting changes that no row depends on. -/
  | adjust (pane : PaneId) {f : ViewState → ViewState} (hmode : ∀ v, (f v).mode = v.mode)
      (hdetails : ∀ v, (f v).details = v.details) (hk : k = .viewing) :
      FedStep F s k (s.modify pane fun p => { p with view := f p.view })
  | view (pane : PaneId) {f : ViewState → ViewState} (hsync : ∀ v, (f v).autoSync = v.autoSync) :
      FedStep F s k ((s.modify pane fun p => { p with view := f p.view }).reproject pane)

/-- One step of a session, whatever it takes in. -/
abbrev Step (s : Session) (k : CommandKind) (s' : Session) : Prop := FedStep .any s k s'

/-- Steps, one after the other. -/
abbrev Steps (F : Feed) (k : CommandKind) : Session → Session → Prop :=
  Relation.ReflTransGen fun s s' => FedStep F s k s'

theorem FedStep.steps (h : FedStep F s k s') : Steps F k s s' := .single h

/-! ## Expansions -/

theorem step_issue {p : Pane} {planned : List NodeId} {t : Ticket}
    (hp : s.table.pane? pane = some p) (hissue : s.issue p planned = .ok (s', t)) :
    FedStep F s k s' := by
  unfold Session.issue at hissue
  split at hissue
  next => nomatch hissue
  obtain ⟨⟨u, lease⟩, hu, hissue⟩ := bind_eq_ok.1 hissue
  obtain ⟨rfl, -⟩ := Prod.mk.inj (Except.ok.inj hissue)
  obtain ⟨q, hq, hu⟩ := bind_eq_ok.1 (mapError_eq_ok.1 hu)
  obtain ⟨rfl, -⟩ := Prod.mk.inj (Except.ok.inj hu)
  exact .lend hp hq

theorem step_beginExpansion {frontier : List NodeId} {t : Ticket}
    (hbegin : s.beginExpansion pane frontier = .ok (s', t)) : FedStep F s k s' := by
  obtain ⟨p, hget, hissue⟩ := bind_eq_ok.1 hbegin
  exact step_issue (get_eq_ok.1 hget) hissue

theorem steps_finish (s : Session) (t : Ticket) {fetched : Except ExploreError Fragment}
    (hfetched : F.AdmitsAnswer fetched) : Steps F k s (s.finish t fetched).1 := by
  unfold Session.finish
  split
  next => exact .refl
  next => exact (FedStep.abandon t.pane).steps.tail (.warn _ _)
  next p g hget =>
    have hp := get_eq_ok.1 hget
    unfold mergeInto
    rcases p.store.commit_cases t.planned g (some (p.capacity s.options.paneNodeCeiling)) with
      ⟨pending, hcommit, -⟩ | hcommit
    · rw [hcommit]
      exact (FedStep.withhold hp).steps
    · rw [hcommit]
      exact (FedStep.grow hp t.planned g (hfetched g rfl)).steps

/-- What is held back is what was fetched. -/
theorem admitsFragment_of_finish {t : Ticket} {fetched : Except ExploreError Fragment}
    (hfetched : F.AdmitsAnswer fetched) {pending : Pending}
    (hfinish : (s.finish t fetched).2 = .ok (.capacityExceeded pending)) :
    F.AdmitsFragment pending.fetched := by
  unfold Session.finish at hfinish
  split at hfinish
  next => nomatch hfinish
  next => nomatch hfinish
  next p g hget =>
    unfold mergeInto at hfinish
    rcases p.store.commit_cases t.planned g (some (p.capacity s.options.paneNodeCeiling)) with
      ⟨held, hcommit, -, hheld⟩ | hcommit
    · rw [hcommit] at hfinish
      obtain rfl := Outcome.capacityExceeded.inj (Except.ok.inj hfinish)
      exact hheld ▸ hfetched g rfl
    · rw [hcommit] at hfinish
      nomatch hfinish

theorem step_advanceBestPath {run run' : BestPathRun} {t : Ticket}
    {fetched : Except ExploreError Fragment} (hfetched : F.AdmitsAnswer fetched)
    (hadvance : s.advanceBestPath run t fetched = .ok (s', run')) : FedStep F s k s' := by
  obtain ⟨p, hget, hadvance⟩ := bind_eq_ok.1 hadvance
  have hp := get_eq_ok.1 hget
  cases fetched with
  | error e =>
    obtain ⟨rfl, -⟩ := Prod.mk.inj (Except.ok.inj hadvance)
    exact .withhold hp
  | ok g =>
    dsimp only [mergeFetched, mergeInto] at hadvance
    rcases p.store.commit_cases t.planned g (some (p.capacity s.options.paneNodeCeiling)) with
      ⟨pending, hcommit, -⟩ | hcommit
    · rw [hcommit] at hadvance
      obtain ⟨rfl, -⟩ := Prod.mk.inj (Except.ok.inj hadvance)
      exact .withhold hp
    · rw [hcommit] at hadvance
      obtain ⟨rfl, -⟩ := Prod.mk.inj (Except.ok.inj hadvance)
      split
      next hempty => exact .tie hp t.planned g (List.isEmpty_iff.1 hempty) (hfetched g rfl)
      next => exact .grow hp t.planned g (hfetched g rfl)

theorem step_advance (s : Session) (run : BestPathRun) (t : Ticket)
    {fetched : Except ExploreError Fragment} (hfetched : F.AdmitsAnswer fetched) :
    FedStep F s k (s.advance run t fetched) := by
  unfold Session.advance
  split
  next hadvance => exact step_advanceBestPath hfetched hadvance
  next => exact .drop t

theorem steps_bestPathStep {run : BestPathRun} {step : PathStep}
    (hstep : (s.bestPathStep pane run).2 = .ok (s', step)) : Steps F k s s' := by
  unfold Session.bestPathStep at hstep
  split at hstep
  next => nomatch hstep
  next p hget =>
    split at hstep
    next =>
      obtain ⟨rfl, -⟩ := Prod.mk.inj (Except.ok.inj hstep)
      unfold warnHalted
      split
      · exact (FedStep.warn _ _).steps
      · exact .refl
    next =>
      split at hstep
      next => nomatch hstep
      next hissue =>
        obtain ⟨rfl, -⟩ := Prod.mk.inj (Except.ok.inj hstep)
        exact (step_issue (get_eq_ok.1 hget) hissue).steps

theorem steps_resolve {pending : Pending} {decision : CapacityDecision} {resolution : Resolution}
    (hg : F.AdmitsFragment pending.fetched) (hk : decision = .redirect → k = .opening)
    (hresolve : s.resolve pane pending decision = .ok (s', resolution)) : Steps F k s s' := by
  cases decision with
  | cancel =>
    obtain ⟨rfl, -⟩ := Prod.mk.inj (Except.ok.inj hresolve)
    exact .refl
  | proceed =>
    obtain ⟨p, hget, hresolve⟩ := bind_eq_ok.1 hresolve
    obtain ⟨rfl, -⟩ := Prod.mk.inj (Except.ok.inj hresolve)
    exact (FedStep.proceed (get_eq_ok.1 hget) pending hg).steps
  | redirect =>
    obtain ⟨source, hsource, hresolve⟩ := bind_eq_ok.1 hresolve
    obtain ⟨p, hget, hresolve⟩ := bind_eq_ok.1 hresolve
    obtain ⟨rfl, -⟩ := Prod.mk.inj (Except.ok.inj hresolve)
    exact (FedStep.redirect (get_eq_ok.1 hsource) pending (get_eq_ok.1 hget) (hk rfl) hg).steps

/-! ## Panes that come and go -/

theorem withTable_eq_ok {α : Type} {r : Except PaneError (PaneTable × α)} {a : α}
    (h : s.withTable r = .ok (s', a)) : ∃ u, r = .ok (u, a) ∧ s' = { s with table := u } := by
  match r with
  | .error _ => nomatch h
  | .ok (u, _) =>
    obtain ⟨rfl, rfl⟩ := Prod.mk.inj (Except.ok.inj h)
    exact ⟨u, rfl, rfl⟩

theorem step_destroy {cascade : Bool} {removed : List PaneId}
    (hdestroy : s.destroy pane cascade = .ok (s', removed)) : FedStep F s .opening s' := by
  obtain ⟨⟨u, gone⟩, hu, hdestroy⟩ := bind_eq_ok.1 hdestroy
  obtain ⟨rfl, rfl⟩ := Prod.mk.inj (Except.ok.inj hdestroy)
  obtain ⟨table, htable, rfl⟩ := withTable_eq_ok hu
  exact .destroy htable rfl

theorem step_merge {panes : List PaneId} {keep : Bool} (hmerge : s.merge panes keep = .ok (s', id)) :
    FedStep F s .opening s' := by
  obtain ⟨⟨u, new⟩, hu, hmerge⟩ := bind_eq_ok.1 hmerge
  obtain ⟨rfl, rfl⟩ := Prod.mk.inj (Except.ok.inj hmerge)
  obtain ⟨table, htable, rfl⟩ := withTable_eq_ok hu
  exact .merge htable rfl

theorem step_duplicate (hduplicate : s.duplicate pane = .ok (s', id)) :
    FedStep F s .opening s' := by
  obtain ⟨⟨u, new⟩, hu, hduplicate⟩ := bind_eq_ok.1 hduplicate
  obtain ⟨rfl, rfl⟩ := Prod.mk.inj (Except.ok.inj hduplicate)
  obtain ⟨table, htable, rfl⟩ := withTable_eq_ok hu
  exact .duplicate htable rfl

theorem step_duplicateMany {panes ids : List PaneId}
    (hduplicate : s.duplicateMany panes = .ok (s', ids)) : FedStep F s .opening s' := by
  obtain ⟨⟨u, new⟩, hu, hduplicate⟩ := bind_eq_ok.1 hduplicate
  obtain ⟨rfl, rfl⟩ := Prod.mk.inj (Except.ok.inj hduplicate)
  obtain ⟨table, htable, rfl⟩ := withTable_eq_ok hu
  exact .duplicateMany htable rfl

theorem steps_receive {message : RegistryMessage} (hreceive : s.receive message = .ok s') :
    Steps F k s s' := by
  unfold Session.receive at hreceive
  split at hreceive
  next =>
    obtain ⟨u, hu, hreceive⟩ := bind_eq_ok.1 hreceive
    obtain rfl := Except.ok.inj hreceive
    exact (FedStep.highlight (mapError_eq_ok.1 hu)).steps
  next =>
    obtain rfl := Except.ok.inj hreceive
    exact .refl

theorem openDocument_fst (s : Session) (d : PaneDocument) :
    (s.openDocument d).1 = (s.warnMismatches d).unpack d := by
  unfold Session.openDocument Session.unpack
  dsimp only

theorem steps_openDocument (s : Session) {d : PaneDocument} (hd : F.AdmitsDocument d) :
    Steps F .opening s (s.openDocument d).1 := by
  have hwarned : Steps F .opening s (s.warnMismatches d) := by
    unfold warnMismatches
    split
    · exact .refl
    · exact (FedStep.warn _ _).steps
  rw [openDocument_fst]
  exact hwarned.tail (.unpack d rfl hd)

theorem steps_openDocuments (s : Session) {docs : List PaneDocument}
    (hdocs : ∀ d ∈ docs, F.AdmitsDocument d) : Steps F .opening s (s.openDocuments docs).1 := by
  have hopened : Steps F .opening s (docs.foldl openNext (s, [])).1 :=
    List.foldlRecOn (motive := fun opened : Session × List PaneId => Steps F .opening s opened.1)
      docs _ .refl fun opened hs d hd => hs.trans (steps_openDocument opened.1 (hdocs d hd))
  exact hopened.tail (.enter rfl)

/-! ## Selecting, brushing and viewing -/

theorem modifyLive_eq_ok {f : Pane → Pane} (h : s.modifyLive pane f = .ok s') :
    s' = s.modify pane f := by
  obtain ⟨p, -, h⟩ := bind_eq_ok.1 h
  exact (Except.ok.inj h).symm

theorem step_select (ids : Pane → List NodeId)
    (hselect : s.modifyLive pane (fun p => p.select (ids p)) = .ok s') :
    FedStep F s .selecting s' := by
  obtain rfl := modifyLive_eq_ok hselect
  exact .select pane ids rfl

theorem steps_undo {went : Bool} (hundo : s.undo pane = .ok (s', went)) :
    Steps F .selecting s s' := by
  obtain ⟨p, hget, hundo⟩ := bind_eq_ok.1 hundo
  split at hundo
  next q hq =>
    obtain ⟨rfl, -⟩ := Prod.mk.inj (Except.ok.inj hundo)
    exact (FedStep.undo (get_eq_ok.1 hget) hq rfl).steps
  next =>
    obtain ⟨rfl, -⟩ := Prod.mk.inj (Except.ok.inj hundo)
    exact .refl

theorem steps_redo {went : Bool} (hredo : s.redo pane = .ok (s', went)) :
    Steps F .selecting s s' := by
  obtain ⟨p, hget, hredo⟩ := bind_eq_ok.1 hredo
  split at hredo
  next q hq =>
    obtain ⟨rfl, -⟩ := Prod.mk.inj (Except.ok.inj hredo)
    exact (FedStep.redo (get_eq_ok.1 hget) hq rfl).steps
  next =>
    obtain ⟨rfl, -⟩ := Prod.mk.inj (Except.ok.inj hredo)
    exact .refl

theorem step_sync {l : LinkedSelection Float} {on : Bool} (hsync : s.sync l = .ok (s', on)) :
    FedStep F s k s' := by
  obtain ⟨p, -, hsync⟩ := bind_eq_ok.1 hsync
  obtain ⟨rfl, -⟩ := Prod.mk.inj (Except.ok.inj hsync)
  exact .sync l

theorem step_brush {dimension : String} {c : Option (Constraint Float)}
    (hbrush : s.brush pane dimension c = .ok s') : FedStep F s k s' := by
  obtain ⟨p, hget, hbrush⟩ := bind_eq_ok.1 hbrush
  obtain rfl := Except.ok.inj hbrush
  exact .brush (get_eq_ok.1 hget) (c := .brush dimension c) rfl rfl nofun

theorem step_brushCoalesced {dimension : String} {c : Option (Constraint Float)} {now : Nat}
    {ran : Bool} (hbrush : s.brushCoalesced pane dimension c now = .ok (s', ran)) :
    FedStep F s k s' := by
  obtain ⟨p, hget, hbrush⟩ := bind_eq_ok.1 hbrush
  obtain ⟨rfl, hran⟩ := Prod.mk.inj (Except.ok.inj hbrush)
  split
  next => exact .brush (get_eq_ok.1 hget) (c := .brushCoalesced dimension c now) rfl rfl nofun
  next hpostponed => exact .postpone (get_eq_ok.1 hget) (Bool.eq_false_iff.2 hpostponed)

theorem steps_selectExtreme {dimension : String} {which : Extreme} {found : Bool}
    (hselect : s.selectExtreme pane dimension which = .ok (s', found)) : Steps F k s s' := by
  obtain ⟨p, hget, hselect⟩ := bind_eq_ok.1 hselect
  split at hselect
  next b hb =>
    obtain ⟨rfl, -⟩ := Prod.mk.inj (Except.ok.inj hselect)
    have hexecute : b = (p.brush.execute (.selectExtreme dimension which)).1 := by
      simp [Brush.execute, hb, Brush.shown]
    have hbrings : (BrushCommand.selectExtreme dimension which).Brings F.state := by
      intro _ hreplace
      cases hreplace
    exact (FedStep.brush (get_eq_ok.1 hget) (f := fun _ => b) rfl hexecute hbrings).steps
  next =>
    obtain ⟨rfl, -⟩ := Prod.mk.inj (Except.ok.inj hselect)
    exact .refl

theorem step_adjust {f : ViewState → ViewState} (hview : s.modifyView pane f = .ok s')
    (hmode : ∀ v, (f v).mode = v.mode) (hdetails : ∀ v, (f v).details = v.details) :
    FedStep F s .viewing s' := by
  obtain rfl := modifyLive_eq_ok hview
  exact .adjust pane hmode hdetails rfl

theorem step_view {f : ViewState → ViewState}
    (hview : (do return (← s.modifyView pane f).reproject pane) = Except.ok s')
    (hsync : ∀ v, (f v).autoSync = v.autoSync) : FedStep F s k s' := by
  obtain ⟨u, hu, hview⟩ := bind_eq_ok.1 hview
  obtain rfl := Except.ok.inj hview
  obtain rfl := modifyLive_eq_ok hu
  exact .view pane hsync

/-! ## Commands that ask the backend -/

section

variable {σ : Type} {backend : Backend (StateM σ)}

theorem steps_start (hbackend : F.Supplies backend) (s : Session) :
    Always (fun r => Steps F .opening s r.1) (s.start backend) := by
  unfold Session.start
  split
  next => exact always_pure .refl
  next =>
    refine always_bind fun status => ?_
    split
    next => exact always_pure .refl
    next project =>
      -- The schema is kept even if the initial fragment cannot be had.
      have hload : Steps F .opening s { s with schema := project.schema } :=
        (FedStep.load project.schema rfl).steps
      refine hbackend.initial.bind fun initial hinitial => ?_
      split
      next => exact always_pure hload
      next seed => exact always_pure (hload.tail (.openFirst seed rfl (hinitial seed rfl)))

theorem steps_expand (hbackend : F.Supplies backend) (s : Session) (pane : PaneId)
    (frontier : List NodeId) :
    Always (fun r => Steps F k s r.1 ∧
      ∀ pending, r.2 = .ok (.capacityExceeded pending) → F.AdmitsFragment pending.fetched)
      (s.expand backend pane frontier) := by
  unfold Session.expand
  split
  next => exact always_pure ⟨.refl, nofun⟩
  next s' t hbegin =>
    have hissued : Steps F k s s' := (step_beginExpansion hbegin).steps
    exact (hbackend.fetch t.planned).bind fun fetched hfetched => always_pure
      ⟨hissued.trans (steps_finish s' t hfetched), fun _ => admitsFragment_of_finish hfetched⟩

theorem steps_explore (hbackend : F.Supplies backend) (s : Session) (pane : PaneId)
    (nodes : List NodeId) (force : Bool) :
    Always (fun r => Steps F .opening s r.1) (s.explore backend pane nodes force) := by
  unfold Session.explore
  split
  next => exact always_pure .refl
  next =>
    split
    next => exact always_pure .refl
    next source hget =>
      have hopened : FedStep F s .opening _ := .openFor (get_eq_ok.1 hget) nodes rfl
      refine (steps_expand (k := .opening) hbackend ((s.spawnFor source nodes).1.settle _) _
        nodes).bind fun (s', outcome) ⟨hfurther, hheld⟩ => ?_
      have hexpanded : Steps F .opening s s' := hopened.steps.trans hfurther
      dsimp only
      split
      next => exact always_pure hexpanded
      next => exact always_pure hexpanded
      next =>
        split
        next => exact always_pure hexpanded
        next hresolve =>
          exact always_pure (hexpanded.trans (steps_resolve (hheld _ rfl) (fun _ => rfl) hresolve))

/-- What a refresh makes of a store comes of taking over fresh copies. -/
theorem refresh_of_refreshed (hbackend : F.Supplies backend) (s : Store) :
    Always (fun r => ∀ n, r.2 = .ok n →
      ∃ fresh : List Node, (∀ n ∈ fresh, F.node n) ∧ r.1 = s.refresh fresh)
      (backend.refresh s) := by
  unfold Backend.refresh
  dsimp only
  split
  next => exact always_pure fun _ _ => ⟨[], nofun, rfl⟩
  next =>
    refine (hbackend.reset _ _).bind fun answer hanswer => ?_
    split
    next => exact always_pure fun _ hok => absurd hok (by simp)
    next g => exact always_pure fun _ _ => ⟨g.nodes, hanswer g rfl, rfl⟩

theorem steps_refresh (hbackend : F.Supplies backend) (s : Session) (pane : PaneId) :
    Always (fun r => Steps F k s r.1) (s.refresh backend pane) := by
  unfold Session.refresh
  split
  next => exact always_pure .refl
  next p hget =>
    refine (refresh_of_refreshed hbackend p.store).bind fun (store, updated) hupdated => ?_
    dsimp only
    split
    next => exact always_pure (FedStep.warn _ _).steps
    next =>
      obtain ⟨fresh, hfresh, rfl⟩ := hupdated _ rfl
      exact always_pure (FedStep.renew (get_eq_ok.1 hget) fresh hfresh).steps

theorem steps_followBestPath (hbackend : F.Supplies backend) (s : Session) (pane : PaneId)
    (run : BestPathRun) :
    Always (fun r => Steps F k s r.1) (s.followBestPath backend pane run) := by
  -- Each round uses up one of the steps that the run has left.
  induction hn : run.remaining using Nat.strongRecOn generalizing s run with
  | ind n ih =>
    subst hn
    rw [Session.followBestPath]
    split
    next => exact always_pure .refl
    next hstep => exact always_pure (steps_bestPathStep (by rw [hstep]))
    next run' s' ticket hstep =>
      have hissued : Steps F k s s' := steps_bestPathStep (by rw [hstep])
      refine (hbackend.fetch ticket.planned).bind fun fetched hfetched => ?_
      split
      next => exact always_pure hissued
      next run'' hadvance =>
        have hround := hissued.tail (step_advanceBestPath hfetched hadvance)
        exact fun env =>
          hround.trans (ih _ (remaining_advance_lt hstep hadvance) _ _ rfl env)

theorem steps_bestPath (hbackend : F.Supplies backend) (s : Session) (pane : PaneId)
    (sources : List NodeId) (maxSteps : Option Nat) :
    Always (fun r => Steps F k s r.1) (s.bestPath backend pane sources maxSteps) := by
  unfold Session.bestPath
  split
  next => exact always_pure .refl
  next run _ => exact steps_followBestPath hbackend s pane run

/-! ## Commands and runs -/

/-- What is refused takes no step. -/
theorem steps_after {α : Type} {r : Except SessionError α} {made : α → Session}
    (hmade : ∀ {a}, r = .ok a → Steps F k s (made a)) : Steps F k s (s.after made r) := by
  cases r with
  | ok a => exact hmade rfl
  | error e => exact .refl

/-- **Every command comes to steps of its kind.** -/
theorem steps_perform (hbackend : F.Supplies backend) (s : Session) {c : SessionCommand}
    (hc : F.Admits c) : Always (Steps F c.kind s) (s.perform backend c) := by
  cases c with
  | start => exact (steps_start hbackend s).bind fun _ h => always_pure h
  | expand pane frontier =>
    exact (steps_expand hbackend s pane frontier).bind fun _ h => always_pure h.1
  | explore pane nodes force =>
    exact (steps_explore hbackend s pane nodes force).bind fun _ h => always_pure h
  | bestPath pane sources maxSteps =>
    exact (steps_bestPath hbackend s pane sources maxSteps).bind fun _ h => always_pure h
  | refresh pane => exact (steps_refresh hbackend s pane).bind fun _ h => always_pure h
  | teardown => exact always_pure (.single (.teardown rfl))
  | openDocuments docs => exact always_pure (steps_openDocuments s hc)
  | begin pane frontier =>
    exact always_pure (steps_after fun h => (step_beginExpansion h).steps)
  | finish t fetched => exact always_pure (steps_finish s t hc)
  | drop t => exact always_pure (.single (.drop t))
  | resolve pane pending decision =>
    refine always_pure (steps_after fun h => steps_resolve hc (fun hredirect => ?_) h)
    rw [hredirect, SessionCommand.kind]
  | step pane run => exact always_pure (steps_after steps_bestPathStep)
  | advance run t fetched => exact always_pure (step_advance s run t hc).steps
  | mark ids => exact always_pure (.single (.mark ids rfl))
  | unmark ids => exact always_pure (.single (.unmark ids rfl))
  | propagate => exact always_pure (.single .propagate)
  | select pane ids =>
    exact always_pure (steps_after fun h => (step_select (fun _ => ids) h).steps)
  | undo pane => exact always_pure (steps_after steps_undo)
  | redo pane => exact always_pure (steps_after steps_redo)
  | selectWhere pane proposition =>
    exact always_pure (steps_after fun h => (step_select _ h).steps)
  | sync l => exact always_pure (steps_after fun h => (step_sync h).steps)
  | brush pane dimension c => exact always_pure (steps_after fun h => (step_brush h).steps)
  | brushCoalesced pane dimension c now =>
    exact always_pure (steps_after fun h => (step_brushCoalesced h).steps)
  | pollBrushes now => exact always_pure (.single (.poll now))
  | selectExtreme pane dimension which => exact always_pure (steps_after steps_selectExtreme)
  | setMode pane mode => exact always_pure (steps_after fun h => (step_view h fun _ => rfl).steps)
  | setPolicy pane policy =>
    exact always_pure (steps_after fun h => (step_adjust h (fun _ => rfl) fun _ => rfl).steps)
  | setDetails pane details =>
    exact always_pure (steps_after fun h => (step_view h fun _ => rfl).steps)
  | setAutoSync pane on =>
    exact always_pure (steps_after fun h => (step_adjust h (fun _ => rfl) fun _ => rfl).steps)
  | detectRecurrence => exact always_pure (.single .detect)
  | watchRecurrence ids => exact always_pure (.single (.watch ids))
  | clearRecurrence => exact always_pure (.single .unwatch)
  | destroy pane cascade => exact always_pure (steps_after fun h => (step_destroy h).steps)
  | merge panes keep => exact always_pure (steps_after fun h => (step_merge h).steps)
  | duplicate pane => exact always_pure (steps_after fun h => (step_duplicate h).steps)
  | duplicateMany panes => exact always_pure (steps_after fun h => (step_duplicateMany h).steps)
  | receive message => exact always_pure (steps_after steps_receive)

/-- What every step of its kind keeps that takes in only what may come in, a command keeps that brings
only that. -/
theorem always_performFed {c : SessionCommand} (hbackend : F.Supplies backend)
    (hstep : ∀ {s s'}, FedStep F s c.kind s' → I s → I s') (hc : F.Admits c) (h : I s) :
    Always I (s.perform backend c) := by
  intro env
  have hsteps : Steps F c.kind s (s.perform backend c env).1 := steps_perform hbackend s hc env
  generalize (s.perform backend c env).1 = s' at hsteps ⊢
  induction hsteps with
  | refl => exact h
  | tail _ hlast ih => exact hstep hlast ih

/-- What every step of its kind keeps, a command keeps. -/
theorem always_performOfKind {c : SessionCommand}
    (hstep : ∀ {s s'}, Step s c.kind s' → I s → I s') (h : I s) :
    Always I (s.perform backend c) :=
  always_performFed (Feed.supplies_any backend) hstep (Feed.admits_any c) h

/-- What every step keeps, every command keeps. -/
theorem always_perform (hstep : ∀ {k s s'}, Step s k s' → I s → I s') (h : I s)
    (c : SessionCommand) : Always I (s.perform backend c) :=
  always_performOfKind hstep h

/-- **What every step keeps, every run keeps.** -/
theorem always_run (hstep : ∀ {k s s'}, Step s k s' → I s → I s') (h : I s)
    (commands : List SessionCommand) : Always I (s.run backend commands) := by
  induction commands generalizing s with
  | nil => exact always_pure h
  | cons c commands ih => exact (always_perform hstep h c).bind fun s' hs' => ih hs'

end

end Session

/-! ## Calls -/

/-- What can be asked of a session, or directly of the brush of one of its panes. -/
inductive Call
  | session (c : SessionCommand)
  | brush (pane : PaneId) (c : BrushCommand)

namespace Session

variable {s : Session} {I : Session → Prop} {σ : Type} {backend : Backend (StateM σ)}

/-- The session after a call. -/
def answer (backend : Backend (StateM σ)) (s : Session) : Call → StateM σ Session
  | .session c => s.perform backend c
  | .brush pane c => return s.modifyBrush pane fun b => (b.execute c).1

/-- The session after calls, one after the other. -/
def answerAll (backend : Backend (StateM σ)) (s : Session) (calls : List Call) :
    StateM σ Session :=
  calls.foldlM (answer backend) s

/-- What every step keeps, and everything that is asked of a brush, every run of calls keeps. -/
theorem always_answerAll (hstep : ∀ {k s s'}, Step s k s' → I s → I s')
    (hbrush : ∀ {s} pane (c : BrushCommand), I s → I (s.modifyBrush pane fun b => (b.execute c).1))
    (h : I s) (calls : List Call) : Always I (s.answerAll backend calls) := by
  induction calls generalizing s with
  | nil => exact always_pure h
  | cons call calls ih =>
    have hanswer : Always I (s.answer backend call) := by
      cases call with
      | session c => exact always_perform hstep h c
      | brush pane c => exact always_pure (hbrush pane c h)
    exact hanswer.bind fun s' hs' => ih hs'

end Session

end StateAtlas
