import StateAtlas.Proofs.Session.Courses
/-!
Finishing two tickets.

What finishing a ticket does to the ticket's pane depends on that pane alone, but not on the nodes
that it shows as recurring, and leaves those as they are.  If the pane grew and nodes are watched,
then all panes show anew which of their nodes recur, and that depends on what the panes hold only.
So two tickets of different panes change their panes independently, and it is enough to find out once
which nodes recur, after the second.

Main statements: `Session.finish_eq`, `Session.finishBoth_eq`.
-/

namespace StateAtlas

open PaneTable

/-! ## Panes -/

namespace Pane

variable {p : Pane} {f g : Pane → Pane}

/-- The pane with other nodes shown as recurring. -/
def withRecurring (p : Pane) (r : OrderedSet NodeId) : Pane := { p with recurring := r }

/-- A change keeps the pane's name and has nothing to do with which nodes are shown as recurring. -/
structure Blind (f : Pane → Pane) : Prop where
  withRecurring : ∀ p r, f (p.withRecurring r) = (f p).withRecurring r
  id_eq : ∀ p, (f p).id = p.id

theorem Blind.comp (hf : Blind f) (hg : Blind g) : Blind fun p => g (f p) where
  withRecurring p r := by rw [hf.withRecurring, hg.withRecurring]
  id_eq p := (hg.id_eq _).trans (hf.id_eq p)

theorem blind_settle : Blind settle where
  withRecurring p r := by
    change (if p.phase = .expanding then _ else _) = _
    unfold settle
    split <;> rfl
  id_eq p := (congrArg Pane.id p.still_settle :)

theorem blind_endExpansion : Blind endExpansion where
  withRecurring p r := by
    change (if p.entered = .expanding then _ else _) = _
    unfold endExpansion
    split <;> rfl
  id_eq p := (congrArg Pane.id p.still_endExpansion :)

theorem blind_select (ids : List NodeId) : Blind fun p => p.select ids where
  withRecurring p r := by
    change (if (p.setSelection ids).selection = p.selection then _ else _) = _
    simp only [select]
    split <;> rfl
  id_eq p := by
    simp only [select]
    split <;> rfl

/-- The pane with another store, and the end of its expansion. -/
def takeOver (store : Store) (p : Pane) : Pane := { p with store }.endExpansion

theorem blind_takeOver (store : Store) : Blind (takeOver store) := by
  have hput : Blind fun p => { p with store } := ⟨fun _ _ => rfl, fun _ => rfl⟩
  exact hput.comp blind_endExpansion

theorem pane_takeOver (store : Store) (p : Pane) :
    (p.takeOver store).brush.pane = p.brush.pane :=
  (congrArg (fun q => q.brush.pane) { p with store }.still_endExpansion :)

/-- The end of an expansion leaves alone what counts for recurrence. -/
theorem everAdded_endExpansion (p : Pane) : p.endExpansion.everAdded = p.everAdded :=
  (congrArg Pane.everAdded p.still_endExpansion :)

end Pane

/-! ## Sessions -/

namespace Session

variable {s : Session} {id : PaneId} {p q : Pane} {f : Pane → Pane} {grew : Bool}

theorem blind_derived (s : Session) (added : List NodeId) : Pane.Blind (s.derived added) := by
  have hnoted : Pane.Blind fun p => p.noteAdded added := by
    have hput : Pane.Blind fun p => { p with everAdded := p.everAdded.insertMany added } :=
      ⟨fun _ _ => rfl, fun _ => rfl⟩
    exact hput.comp Pane.blind_settle
  constructor
  case withRecurring =>
    intro p r
    have hrecurring := hnoted.withRecurring p r
    simp only [Session.derived, Pane.project, hrecurring]
    rfl
  case id_eq =>
    intro p
    simp only [Session.derived, Pane.project]
    exact hnoted.id_eq p

theorem pane_derived (s : Session) (added : List NodeId) (p : Pane) :
    (s.derived added p).brush.pane = p.brush.pane :=
  (Pane.course_derived (k := .working) s added p).id_brush_eq.2

/-- A pane that grew, with everything derived anew but what recurs. -/
def followed (s : Session) (added : List NodeId) (p : Pane) : Pane :=
  if (s.derived added p).view.autoSync then
    (s.derived added p).select (s.derived added p).brush.linked.ids
  else s.derived added p

/-- Whatever no selection changes is left as it was derived. -/
theorem view_followed {α : Type} {view : Pane → α}
    (hselect : ∀ p ids, view (p.select ids) = view p) (s : Session) (added : List NodeId)
    (p : Pane) : view (s.followed added p) = view (s.derived added p) := by
  unfold followed
  split
  · exact hselect _ _
  · rfl

theorem blind_followed (s : Session) (added : List NodeId) : Pane.Blind (s.followed added) := by
  have hderived := s.blind_derived added
  constructor
  case withRecurring =>
    intro p r
    unfold followed
    rw [hderived.withRecurring]
    change (if (s.derived added p).view.autoSync then
      ((s.derived added p).withRecurring r).select (s.derived added p).brush.linked.ids else _) = _
    split
    · exact (Pane.blind_select _).withRecurring _ r
    · rfl
  case id_eq =>
    intro p
    unfold followed
    split
    · exact ((Pane.blind_select _).id_eq _).trans (hderived.id_eq p)
    · exact hderived.id_eq p

/-! ### Announcing -/

/-- The session with another bus. -/
def onBus (s : Session) (b : Bus) : Session := { s with table := { s.table with bus := b } }

/-- The session after it announced events. -/
def tell (s : Session) (es : List Event) : Session := s.onBus (es.foldl Bus.publish s.table.bus)

theorem tell_tell (s : Session) (es es' : List Event) :
    (s.tell es).tell es' = s.tell (es ++ es') := by
  simp only [tell, onBus, List.foldl_append]

/-! ### What recurs -/

/-- Which of the watched nodes recur. -/
def report (s : Session) : Recurrence := .detectAmong s.holdings s.watched

/-- The panes show what recurs according to a report. -/
def shown (s : Session) (r : Recurrence) : Session :=
  s.modifyAll fun p => p.withRecurring (r.forPane p.id)

/-- If a pane grew and nodes are watched, the panes show which recur. -/
def recount (s : Session) (grew : Bool) : Session :=
  if grew && !s.watched.isEmpty then s.shown s.report else s

/-- If a pane grew and nodes are watched, it is announced which recur. -/
def news (s : Session) (grew : Bool) : List Event :=
  if grew && !s.watched.isEmpty then [.recurringUpdated s.report.ids s.report.panes] else []

theorem recount_onBus (s : Session) (b : Bus) (grew : Bool) :
    (s.onBus b).recount grew = (s.recount grew).onBus b := by
  unfold recount
  change (if grew && !s.watched.isEmpty then (s.shown s.report).onBus b else s.onBus b) = _
  split <;> rfl

theorem recount_tell (s : Session) (es : List Event) (grew : Bool) :
    (s.tell es).recount grew = (s.recount grew).tell es := by
  have hbus : (s.recount grew).table.bus = s.table.bus := by
    unfold recount
    split <;> rfl
  rw [tell, recount_onBus, tell, hbus]

theorem news_tell (s : Session) (es : List Event) (grew : Bool) :
    (s.tell es).news grew = s.news grew := rfl

theorem recomputeWatched_eq_tell (s : Session) :
    s.recomputeWatched = (s.recount true).tell (s.news true) := by
  unfold recomputeWatched recount news
  cases s.watched.isEmpty <;> rfl

theorem shown_modify (hf : Pane.Blind f) (s : Session) (id : PaneId) (r : Recurrence) :
    (s.modify id f).shown r = (s.shown r).modify id f := by
  have hcomm : ∀ p : Pane, (f p).withRecurring (r.forPane (f p).id) =
      f (p.withRecurring (r.forPane p.id)) := fun p => by
    rw [hf.id_eq, hf.withRecurring]
  have hlive := Dictionary.mapValues_modify s.table.live id
    (g := fun p => p.withRecurring (r.forPane p.id)) hcomm
  simp only [shown, Session.modify, modifyAll, PaneTable.modify, PaneTable.modifyAll, hlive]

theorem shown_shown (s : Session) (r r' : Recurrence) : (s.shown r).shown r' = s.shown r' := by
  simp only [shown, modifyAll, PaneTable.modifyAll, Dictionary.mapValues_mapValues]
  rfl

/-- Panes count for recurrence with their names and what they noted. -/
theorem report_congr {s' : Session} (hids : s'.table.ids = s.table.ids)
    (hwatched : s'.watched = s.watched)
    (h : ∀ id, (s'.table.pane? id).map (fun p => (p.id, p.everAdded)) =
      (s.table.pane? id).map fun p => (p.id, p.everAdded)) : s'.report = s.report := by
  have hholdings : s'.holdings = s.holdings := by
    simp only [holdings, PaneTable.panes, List.map_filterMap, hids]
    exact congrArg (fun g => s.table.ids.filterMap g) (funext h)
  rw [report, report, hholdings, hwatched]

/-- What panes show does not count. -/
theorem report_shown (s : Session) (r : Recurrence) : (s.shown r).report = s.report := by
  refine report_congr rfl rfl fun id => ?_
  have hpane : (s.shown r).table.pane? id = (s.table.pane? id).map _ := pane?_modifyAll ..
  rw [hpane, Option.map_map]
  rfl

theorem report_modify (hid : ∀ p, (f p).id = p.id) (hever : ∀ p, (f p).everAdded = p.everAdded)
    (s : Session) (id : PaneId) : (s.modify id f).report = s.report :=
  report_congr rfl rfl
    (Dictionary.map_get?_modify (fun p => by rw [hid, hever]) s.table.live id)

@[simp] theorem recount_false (s : Session) : s.recount false = s := rfl

theorem recount_of_unwatched (h : s.watched.isEmpty = true) (grew : Bool) : s.recount grew = s := by
  rw [recount, h, Bool.not_true, Bool.and_false]
  rfl

theorem recount_of_watched (h : s.watched.isEmpty = false) : s.recount true = s.shown s.report := by
  rw [recount, h]
  rfl

/-- What a change of one pane makes of the report does not depend on what panes show. -/
theorem report_recount_modify (hf : Pane.Blind f) (s : Session) (id : PaneId) (grew : Bool) :
    ((s.recount grew).modify id f).report = (s.modify id f).report := by
  unfold recount
  split
  · rw [← shown_modify hf, report_shown]
  · rfl

/-- **It is enough to find out once what recurs**, after the second of two changes. -/
theorem recount_recount (hf : Pane.Blind f) {grew' : Bool}
    (hquiet : grew' = false → ∀ p, (f p).everAdded = p.everAdded) (s : Session) (id : PaneId)
    (grew : Bool) :
    ((s.recount grew).modify id f).recount grew' = (s.modify id f).recount (grew || grew') := by
  cases grew with
  | false => rw [recount_false, Bool.false_or]
  | true =>
    rw [Bool.true_or]
    cases hwatched : s.watched.isEmpty with
    | true => simp only [recount_of_unwatched, hwatched, Session.modify]
    | false =>
      have hrecount : (s.modify id f).recount true = (s.modify id f).shown (s.modify id f).report :=
        recount_of_watched hwatched
      rw [recount_of_watched hwatched, ← shown_modify hf, hrecount]
      cases grew' with
      | false => rw [recount_false, report_modify hf.id_eq (hquiet rfl)]
      | true =>
        have hshown : ((s.modify id f).shown s.report).recount true = _ :=
          recount_of_watched hwatched
        rw [hshown, shown_shown, report_shown]

@[simp] theorem news_false (s : Session) : s.news false = [] := rfl

theorem news_of_unwatched (h : s.watched.isEmpty = true) (grew : Bool) : s.news grew = [] := by
  rw [news, h, Bool.not_true, Bool.and_false]
  rfl

theorem news_of_watched (h : s.watched.isEmpty = false) :
    s.news true = [.recurringUpdated s.report.ids s.report.panes] := by
  rw [news, h]
  rfl

theorem length_news (s : Session) (grew : Bool) :
    (s.news grew).length = if grew && !s.watched.isEmpty then 1 else 0 := by
  unfold news
  split <;> rfl

theorem topic_news {e : Event} (he : e ∈ s.news grew) : e.topic = .recurrence := by
  unfold news at he
  split at he
  · rw [List.mem_singleton.1 he]
    rfl
  · nomatch he

theorem watched_recount (s : Session) (grew : Bool) : (s.recount grew).watched = s.watched := by
  unfold recount
  split <;> rfl

/-- **What is announced last is what recurs after both changes.** -/
theorem getLast?_news (hf : Pane.Blind f) {grew' : Bool}
    (hquiet : grew' = false → ∀ p, (f p).everAdded = p.everAdded) (s : Session) (id : PaneId)
    (grew : Bool) :
    (s.news grew ++ ((s.recount grew).modify id f).news grew').getLast? =
      ((s.modify id f).news (grew || grew')).getLast? := by
  cases grew' with
  | false =>
    have hreport := report_modify hf.id_eq (hquiet rfl) s id
    rw [news_false, List.append_nil, Bool.or_false, news, news, hreport]
    rfl
  | true =>
    rw [Bool.or_true]
    have hrecounted : ((s.recount grew).modify id f).watched = s.watched := s.watched_recount grew
    cases hwatched : s.watched.isEmpty with
    | true =>
      have hnone : (s.modify id f).news true = [] :=
        news_of_unwatched (s := s.modify id f) hwatched true
      rw [news_of_unwatched hwatched, news_of_unwatched (by rw [hrecounted, hwatched]), hnone]
      rfl
    | false =>
      have hlast : (s.modify id f).news true = _ :=
        news_of_watched (s := s.modify id f) hwatched
      rw [hlast, news_of_watched (by rw [hrecounted, hwatched]), report_recount_modify hf,
        List.getLast?_concat]
      rfl

/-! ## One ticket -/

/-- What finishing a ticket comes to. -/
structure Finishing where
  /-- What becomes of the ticket's pane, but for what it shows as recurring. -/
  change : Pane → Pane
  /-- Whether the pane grew, so that other nodes may recur. -/
  grew : Bool
  /-- What is announced, but for what recurs. -/
  told : List Event
  result : Except SessionError Outcome

/-- What a merge into a pane comes to, or that it was held back. -/
def committed (s : Session) (p : Pane) : Store × Outcome → Finishing
  | (store, .merged delta) =>
    { change := fun p => s.followed delta.nodes (p.takeOver store), grew := true
      told := [.linkedSelection (s.derived delta.nodes (p.takeOver store)).brush.linked]
      result := .ok (.merged delta) }
  | (_, .capacityExceeded pending) =>
    { change := Pane.endExpansion, grew := false, told := []
      result := .ok (.capacityExceeded pending) }

/-- What it comes to to finish a ticket of a pane. -/
def finishing (s : Session) (p : Pane) (t : Ticket) : Except ExploreError Fragment → Finishing
  | .error e =>
    { change := Pane.endExpansion, grew := false
      told := [.warning (some t.pane) s!"expansion failed: {e.message}"]
      result := .error (.explore e) }
  | .ok g =>
    s.committed p (p.store.commit t.planned g (some (p.capacity s.options.paneNodeCeiling)))

/-- A pane that grew derives everything anew and follows its brush. -/
theorem afterGrowth_eq (hq : s.table.pane? id = some q) (hown : q.brush.pane = id)
    (added : List NodeId) :
    s.afterGrowth id added = ((s.modify id (s.followed added)).tell
      [.linkedSelection (s.derived added q).brush.linked]).recomputeWatched := by
  have hpane : (s.derived added q).brush.linked.pane = id := (s.pane_derived added q).trans hown
  have hderived : (s.modify id (s.derived added)).table.pane? id = some (s.derived added q) := by
    rw [pane?_modify_self, hq, Option.map_some]
  have hfollowed : (s.modify id (s.derived added)).modify id (fun p => if p.view.autoSync then
      p.select (s.derived added q).brush.linked.ids else p) = s.modify id (s.followed added) := by
    rw [modify_modify]
    exact modify_congr hq rfl
  unfold Session.afterGrowth Session.publishBrush
  rw [hderived]
  dsimp only
  unfold Session.publishSelection Session.syncSelection
  rw [hpane, ← hfollowed]
  rfl

theorem followed_modify (s : Session) (id : PaneId) (f : Pane → Pane) :
    (s.modify id f).followed = s.followed := rfl

theorem derived_modify (s : Session) (id : PaneId) (f : Pane → Pane) :
    (s.modify id f).derived = s.derived := rfl

/-- A pane changes and is derived anew. -/
theorem afterGrowth_modify (hp : s.table.pane? id = some p) (hown : (f p).brush.pane = id)
    (added : List NodeId) :
    (s.modify id fun _ => f p).afterGrowth id added =
      let s' := s.modify id fun p => s.followed added (f p)
      (s'.recount true).tell
        ([.linkedSelection (s.derived added (f p)).brush.linked] ++ s'.news true) := by
  have hchanged : (s.modify id fun _ => f p).table.pane? id = some (f p) := by
    rw [pane?_modify_self, hp, Option.map_some]
  have hfollowed : (s.modify id fun _ => f p).modify id (s.followed added) =
      s.modify id fun p => s.followed added (f p) := by
    rw [modify_modify]
    exact modify_congr hp rfl
  rw [afterGrowth_eq hchanged hown, followed_modify, derived_modify, hfollowed,
    recomputeWatched_eq_tell, recount_tell, news_tell, tell_tell]

/-- **Finishing a ticket changes its pane**, and what panes show as recurring. -/
theorem finish_eq {t : Ticket} (hp : s.table.pane? t.pane = some p) (hown : p.brush.pane = t.pane)
    (fetched : Except ExploreError Fragment) :
    s.finish t fetched =
      let f := s.finishing p t fetched
      let s' := s.modify t.pane f.change
      ((s'.recount f.grew).tell (f.told ++ s'.news f.grew), f.result) := by
  cases fetched with
  | error e =>
    simp only [Session.finish, get_eq_ok.2 hp]
    rfl
  | ok g =>
    have hmerge : ∀ store outcome, p.store.commit t.planned g
        (some (p.capacity s.options.paneNodeCeiling)) = (store, outcome) →
        s.mergeInto p t.planned g = (p.takeOver store, outcome) := by
      intro store outcome hcommit
      rw [mergeInto, hcommit]
      rfl
    rcases p.store.commit_cases t.planned g (some (p.capacity s.options.paneNodeCeiling)) with
      ⟨pending, hcommit, -⟩ | hcommit
    · simp only [Session.finish, get_eq_ok.2 hp, finishing, committed, hcommit, hmerge _ _ hcommit]
      exact congrArg (fun s' => (s', _)) (modify_congr hp rfl)
    · simp only [Session.finish, get_eq_ok.2 hp, finishing, committed, hcommit, hmerge _ _ hcommit]
      rw [afterGrowth_modify hp ((p.pane_takeOver _).trans hown)]

/-- Whatever becomes of a ticket, its pane changes blindly, it counts for recurrence as before unless
it grew, and nothing is announced of what recurs. -/
structure Finishing.Lawful (f : Finishing) : Prop where
  blind : Pane.Blind f.change
  quiet : f.grew = false → ∀ p, (f.change p).everAdded = p.everAdded
  topic_told : ∀ e ∈ f.told, e.topic ≠ .recurrence

theorem lawful_committed (s : Session) (p : Pane) (c : Store × Outcome) :
    (s.committed p c).Lawful := by
  obtain ⟨store, outcome⟩ := c
  cases outcome with
  | merged delta =>
    refine ⟨(Pane.blind_takeOver store).comp (s.blind_followed _), nofun, fun e he => ?_⟩
    rw [List.mem_singleton.1 he]
    nofun
  | capacityExceeded pending =>
    exact ⟨Pane.blind_endExpansion, fun _ => Pane.everAdded_endExpansion, nofun⟩

theorem lawful_finishing (s : Session) (p : Pane) (t : Ticket)
    (fetched : Except ExploreError Fragment) : (s.finishing p t fetched).Lawful := by
  cases fetched with
  | error e =>
    refine ⟨Pane.blind_endExpansion, fun _ => Pane.everAdded_endExpansion, fun e he => ?_⟩
    rw [List.mem_singleton.1 he]
    nofun
  | ok g => exact s.lawful_committed p _

theorem committed_withRecurring (s : Session) (p : Pane) (r : OrderedSet NodeId)
    (c : Store × Outcome) : s.committed (p.withRecurring r) c = s.committed p c := by
  obtain ⟨store, outcome⟩ := c
  cases outcome with
  | merged delta =>
    have hderived := ((Pane.blind_takeOver store).comp
      (s.blind_derived delta.nodes)).withRecurring p r
    simp only [committed, hderived]
    rfl
  | capacityExceeded pending => rfl

/-- Which nodes the pane shows as recurring does not matter. -/
theorem finishing_withRecurring (s : Session) (p : Pane) (r : OrderedSet NodeId) (t : Ticket)
    (fetched : Except ExploreError Fragment) :
    s.finishing (p.withRecurring r) t fetched = s.finishing p t fetched := by
  cases fetched with
  | error e => rfl
  | ok g => exact s.committed_withRecurring p r _

theorem finishing_recount (s : Session) (grew : Bool) :
    (s.recount grew).finishing = s.finishing := by
  unfold recount
  split <;> rfl

/-! ## Two tickets -/

/-- Finishes two tickets, one after the other. -/
def finishBoth (s : Session) (t : Ticket) (fetched : Except ExploreError Fragment) (t' : Ticket)
    (fetched' : Except ExploreError Fragment) :
    Session × Except SessionError Outcome × Except SessionError Outcome :=
  let (s, result) := s.finish t fetched
  let (s, result') := s.finish t' fetched'
  (s, result, result')

theorem pane?_recount (hp : s.table.pane? id = some p) (grew : Bool) :
    ∃ r, (s.recount grew).table.pane? id = some (p.withRecurring r) := by
  unfold recount
  split
  · have hpane : (s.shown s.report).table.pane? id = (s.table.pane? id).map _ := pane?_modifyAll ..
    rw [hpane, hp]
    exact ⟨_, rfl⟩
  · exact ⟨p.recurring, hp⟩

/-- What is announced when two changes are made: what the changes bring with them, and, as far as
panes grew, what recurs after each. -/
def bothTold (s : Session) (f : Finishing) (id : PaneId) (f' : Finishing) : List Event :=
  f.told ++ s.news f.grew ++ (f'.told ++ ((s.recount f.grew).modify id f'.change).news f'.grew)

/-- **Two tickets of different panes change their panes**, each as if it was the only one, and what
recurs is found out for both. -/
theorem finishBoth_eq {t t' : Ticket} (hp : s.table.pane? t.pane = some p)
    (hp' : s.table.pane? t'.pane = some q) (hne : t.pane ≠ t'.pane) (hown : p.brush.pane = t.pane)
    (hown' : q.brush.pane = t'.pane) (fetched fetched' : Except ExploreError Fragment) :
    let f := s.finishing p t fetched
    let f' := s.finishing q t' fetched'
    let s' := s.modify t.pane f.change
    s.finishBoth t fetched t' fetched' =
      (((s'.modify t'.pane f'.change).recount (f.grew || f'.grew)).tell (s'.bothTold f t'.pane f'),
        f.result, f'.result) := by
  intro f f' s'
  have hother : s'.table.pane? t'.pane = some q := (pane?_modify_of_ne s (Ne.symm hne) _).trans hp'
  obtain ⟨r, hr⟩ := pane?_recount hother f.grew
  -- The first ticket changes nothing that matters for the second.
  have hfinishing : ((s'.recount f.grew).tell (f.told ++ s'.news f.grew)).finishing
      (q.withRecurring r) t' fetched' = f' := by
    change (s'.recount f.grew).finishing (q.withRecurring r) t' fetched' = f'
    rw [finishing_recount, finishing_withRecurring]
    rfl
  have hfirst := finish_eq hp hown fetched
  have hsecond := finish_eq (s := (s'.recount f.grew).tell (f.told ++ s'.news f.grew)) hr hown'
    fetched'
  have hlawful : f'.Lawful := s.lawful_finishing q t' fetched'
  rw [hfinishing] at hsecond
  have hmodify : ((s'.recount f.grew).tell (f.told ++ s'.news f.grew)).modify t'.pane f'.change =
      ((s'.recount f.grew).modify t'.pane f'.change).tell (f.told ++ s'.news f.grew) := rfl
  simp only [hmodify, recount_tell, news_tell, tell_tell,
    recount_recount hlawful.blind hlawful.quiet] at hsecond
  unfold finishBoth
  rw [hfirst]
  dsimp only
  rw [hsecond]
  rfl

theorem finishBoth_onBus {t t' : Ticket} (hp : s.table.pane? t.pane = some p)
    (hp' : s.table.pane? t'.pane = some q) (hne : t.pane ≠ t'.pane) (hown : p.brush.pane = t.pane)
    (hown' : q.brush.pane = t'.pane) (fetched fetched' : Except ExploreError Fragment) (b : Bus) :
    let f := s.finishing p t fetched
    let f' := s.finishing q t' fetched'
    let s' := s.modify t.pane f.change
    (s.onBus b).finishBoth t fetched t' fetched' =
      (((s'.modify t'.pane f'.change).recount (f.grew || f'.grew)).onBus
        ((s'.bothTold f t'.pane f').foldl Bus.publish b), f.result, f'.result) := by
  intro f f' s'
  refine (finishBoth_eq (s := s.onBus b) hp hp' hne hown hown' fetched fetched').trans ?_
  have htold : (s'.onBus b).bothTold f t'.pane f' = s'.bothTold f t'.pane f' := by
    rw [bothTold, recount_onBus]
    rfl
  change ((((s'.modify t'.pane f'.change).onBus b).recount (f.grew || f'.grew)).tell
    ((s'.onBus b).bothTold f t'.pane f'), f.result, f'.result) = _
  rw [recount_onBus, htold]
  rfl

/-- Announcements that may differ in their order, and in what recurred before the last time that this
was announced. -/
structure SameNews (told told' : List Event) : Prop where
  others : (told.filter fun e => e.topic ≠ .recurrence).Perm
    (told'.filter fun e => e.topic ≠ .recurrence)
  length_reports : (told.filter fun e => e.topic = .recurrence).length =
    (told'.filter fun e => e.topic = .recurrence).length
  last_report : (told.filter fun e => e.topic = .recurrence).getLast? =
    (told'.filter fun e => e.topic = .recurrence).getLast?

theorem reports_bothTold {f f' : Finishing} (hf : f.Lawful) (hf' : f'.Lawful) (s : Session)
    (id : PaneId) :
    (s.bothTold f id f').filter (fun e => e.topic = .recurrence) =
      s.news f.grew ++ ((s.recount f.grew).modify id f'.change).news f'.grew := by
  have hnone : ∀ {f : Finishing}, f.Lawful →
      f.told.filter (fun e => e.topic = .recurrence) = [] := fun hf =>
    List.filter_eq_nil_iff.2 fun e he => by simpa using hf.topic_told e he
  have hall : ∀ {s : Session} {grew}, (s.news grew).filter (fun e => e.topic = .recurrence) =
      s.news grew := fun {_ _} => List.filter_eq_self.2 fun e he => by simpa using topic_news he
  simp only [bothTold, List.filter_append, hnone hf, hnone hf', hall, List.nil_append]

theorem others_bothTold {f f' : Finishing} (hf : f.Lawful) (hf' : f'.Lawful) (s : Session)
    (id : PaneId) :
    (s.bothTold f id f').filter (fun e => e.topic ≠ .recurrence) = f.told ++ f'.told := by
  have hall : ∀ {f : Finishing}, f.Lawful →
      f.told.filter (fun e => e.topic ≠ .recurrence) = f.told := fun hf =>
    List.filter_eq_self.2 fun e he => by simpa using hf.topic_told e he
  have hnone : ∀ {s : Session} {grew}, (s.news grew).filter (fun e => e.topic ≠ .recurrence) =
      [] := fun {_ _} => List.filter_eq_nil_iff.2 fun e he => by simpa using topic_news he
  simp only [bothTold, List.filter_append, hall hf, hall hf', hnone, List.append_nil]

theorem sameNews_bothTold {f f' : Finishing} (hf : f.Lawful) (hf' : f'.Lawful) (s : Session)
    {id id' : PaneId} (hne : id ≠ id') :
    SameNews ((s.modify id f.change).bothTold f id' f')
      ((s.modify id' f'.change).bothTold f' id f) := by
  constructor
  case others =>
    rw [others_bothTold hf hf', others_bothTold hf' hf]
    exact List.perm_append_comm
  case length_reports =>
    rw [reports_bothTold hf hf', reports_bothTold hf' hf]
    simp only [List.length_append, length_news, Session.modify, watched_recount]
    exact Nat.add_comm _ _
  case last_report =>
    rw [reports_bothTold hf hf', reports_bothTold hf' hf, getLast?_news hf'.blind hf'.quiet,
      getLast?_news hf.blind hf.quiet, modify_comm s hne, Bool.or_comm]

theorem bothTold_of_unwatched (h : s.watched.isEmpty = true) (f f' : Finishing) (id : PaneId) :
    s.bothTold f id f' = f.told ++ f'.told := by
  have hrecounted : ((s.recount f.grew).modify id f'.change).watched.isEmpty = true :=
    (congrArg OrderedSet.isEmpty (s.watched_recount f.grew)).trans h
  rw [bothTold, news_of_unwatched h, news_of_unwatched hrecounted, List.append_nil, List.append_nil]

/-- **The order in which tickets of different panes are finished does not matter**, whatever the bus
heard before. -/
theorem finishBoth_comm {t t' : Ticket} (hp : s.table.pane? t.pane = some p)
    (hp' : s.table.pane? t'.pane = some q) (hne : t.pane ≠ t'.pane) (hown : p.brush.pane = t.pane)
    (hown' : q.brush.pane = t'.pane) (fetched fetched' : Except ExploreError Fragment) :
    ∃ (after : Session) (result result' : Except SessionError Outcome) (told told' : List Event),
      (∀ b, (s.onBus b).finishBoth t fetched t' fetched' =
        (after.onBus (told.foldl Bus.publish b), result, result')) ∧
      (∀ b, (s.onBus b).finishBoth t' fetched' t fetched =
        (after.onBus (told'.foldl Bus.publish b), result', result)) ∧
      SameNews told told' ∧ (s.watched.isEmpty = true → told.Perm told') := by
  have hf := s.lawful_finishing p t fetched
  have hf' := s.lawful_finishing q t' fetched'
  refine ⟨_, _, _, _, _, finishBoth_onBus hp hp' hne hown hown' fetched fetched', fun b => ?swapped,
    sameNews_bothTold hf hf' s hne, fun hunwatched => ?unwatched⟩
  case swapped =>
    rw [finishBoth_onBus hp' hp hne.symm hown' hown fetched' fetched b, modify_comm s hne,
      Bool.or_comm]
  case unwatched =>
    rw [bothTold_of_unwatched, bothTold_of_unwatched]
    · exact List.perm_append_comm
    · exact hunwatched
    · exact hunwatched

end Session

end StateAtlas
