import StateAtlas.Proofs.Session.Courses
/-!
Selections in a session as timelines.

What is selected in a pane, undone and redone moves the pane's timeline and changes nothing else in
the session.  Everything else that is asked of the session moves timelines only where a pane follows
its brush, and then as if what the brush selects had been selected in the pane.

Main statement: `selections_are_timelines`.
-/

namespace StateAtlas

open PaneTable

namespace Session

variable {s s' : Session} {id : PaneId} {p q : Pane} {t : Timeline}

/-! ## Moves -/

/-- The session with another timeline of a pane. -/
def retime (s : Session) (id : PaneId) (t : Timeline) : Session :=
  s.modify id fun p => p.withTimeline t

theorem pane?_retime (hp : s.table.pane? id = some p) :
    (s.retime id t).table.pane? id = some (p.withTimeline t) := by
  rw [retime, pane?_modify_self, hp, Option.map_some]

/-- A pane that gets back its own timeline. -/
theorem retime_retime (hp : s.table.pane? id = some p) :
    (s.retime id t).retime id p.timeline = s := by
  rw [retime, retime, modify_modify]
  exact modify_eq_self hp rfl

/-- The session answers for a pane as the pane's timeline does. -/
structure KeepsTime (s : Session) (id : PaneId) (p : Pane) : Prop where
  select : ∀ ids, s.select id ids = .ok (s.retime id (p.timeline.select (p.held ids)))
  selectWhere : ∀ proposition, s.selectWhere id proposition = .ok (s.retime id (p.timeline.select
    ((p.store.nodes.filter fun n => n.isState && n.satisfies proposition).map Node.id)))
  /-- What the brush selects becomes a selection if the pane follows its brush. -/
  sync : ∀ l : LinkedSelection Float, l.pane = id → s.sync l =
    if p.view.autoSync then .ok (s.retime id (p.timeline.select (p.held l.ids)), true)
    else .ok (s, false)
  undo : s.undo id = match p.timeline.back? with
    | some t => .ok (s.retime id t, true)
    | none => .ok (s, false)
  redo : s.redo id = match p.timeline.forth? with
    | some t => .ok (s.retime id t, true)
    | none => .ok (s, false)
  redo_of_undo : ∀ s', s.undo id = .ok (s', true) → s'.redo id = .ok (s, true)
  undo_of_redo : ∀ s', s.redo id = .ok (s', true) → s'.undo id = .ok (s, true)

theorem modify_select (hp : s.table.pane? id = some p) (h : p.Timely) (ids : Pane → List NodeId) :
    s.modify id (fun p => p.select (ids p)) =
      s.retime id (p.timeline.select (p.held (ids p))) :=
  modify_congr hp (h.select_eq (ids p))

theorem modifyLive_eq (hp : s.table.pane? id = some p) (f : Pane → Pane) :
    s.modifyLive id f = .ok (s.modify id f) := by
  rw [modifyLive, get_eq_ok.2 hp]
  rfl

theorem undo_eq (hp : s.table.pane? id = some p) (h : p.Timely) :
    s.undo id = match p.timeline.back? with
      | some t => .ok (s.retime id t, true)
      | none => .ok (s, false) := by
  have hundo := h.undo?_eq
  simp only [Session.undo, get_eq_ok.2 hp, bind, Except.bind, hundo]
  cases p.timeline.back? with
  | none => rfl
  | some t => exact congrArg (fun s' => Except.ok (s', true)) (modify_congr hp rfl)

theorem redo_eq (hp : s.table.pane? id = some p) (h : p.Timely) :
    s.redo id = match p.timeline.forth? with
      | some t => .ok (s.retime id t, true)
      | none => .ok (s, false) := by
  have hredo := h.redo?_eq
  simp only [Session.redo, get_eq_ok.2 hp, bind, Except.bind, hredo]
  cases p.timeline.forth? with
  | none => rfl
  | some t => exact congrArg (fun s' => Except.ok (s', true)) (modify_congr hp rfl)

/-- The states of a pane in which a proposition holds are held, each once. -/
theorem held_satisfying (p : Pane) (proposition : String) :
    p.held ((p.store.nodes.filter fun n => n.isState && n.satisfies proposition).map Node.id) =
      (p.store.nodes.filter fun n => n.isState && n.satisfies proposition).map Node.id := by
  have hsub : ((p.store.nodes.filter fun n => n.isState && n.satisfies proposition).map
      Node.id).Sublist p.store.nodeIds := List.filter_sublist.map Node.id
  have hselects : p.Selects
      ((p.store.nodes.filter fun n => n.isState && n.satisfies proposition).map Node.id) :=
    ⟨p.store.nodup_nodeIds.sublist hsub, fun n hn => hsub.subset hn⟩
  exact hselects.held_eq

theorem keepsTime (hp : s.table.pane? id = some p) (h : p.Timely) : s.KeepsTime id p where
  select ids := (modifyLive_eq hp _).trans (congrArg Except.ok (modify_select hp h fun _ => ids))
  selectWhere proposition := by
    refine (modifyLive_eq hp _).trans (congrArg Except.ok ?_)
    rw [← held_satisfying p proposition]
    exact modify_select hp h _
  sync l hl := by
    subst hl
    simp only [Session.sync, get_eq_ok.2 hp, bind, Except.bind, syncSelection]
    by_cases hauto : p.view.autoSync = true
    · rw [if_pos hauto, hauto]
      refine congrArg (fun s' => Except.ok (s', true)) ?_
      exact Eq.trans (modify_congr (g := fun p => p.select l.ids) hp (if_pos hauto))
        (modify_select hp h fun _ => l.ids)
    · rw [if_neg hauto, Bool.eq_false_iff.2 hauto]
      exact congrArg (fun s' => Except.ok (s', false)) (modify_eq_self hp (if_neg hauto))
  undo := undo_eq hp h
  redo := redo_eq hp h
  -- Undoing goes back along the timeline, and from there redoing leads to where it stood.
  redo_of_undo s' hundo := by
    rw [undo_eq hp h] at hundo
    split at hundo
    next t ht =>
      obtain ⟨rfl, -⟩ := Prod.mk.inj (Except.ok.inj hundo)
      have hback : (p.withTimeline t).timeline.forth? = some p.timeline :=
        Timeline.forth?_of_back? ht
      rw [redo_eq (pane?_retime hp) (h.withTimeline (Timeline.line_of_back? ht)), hback]
      exact congrArg (fun s' => Except.ok (s', true)) (retime_retime hp)
    next => nomatch hundo
  undo_of_redo s' hredo := by
    rw [redo_eq hp h] at hredo
    split at hredo
    next t ht =>
      obtain ⟨rfl, -⟩ := Prod.mk.inj (Except.ok.inj hredo)
      have hforth : (p.withTimeline t).timeline.back? = some p.timeline :=
        Timeline.back?_of_forth? ht
      rw [undo_eq (pane?_retime hp) (h.withTimeline (Timeline.line_of_forth? ht)), hforth]
      exact congrArg (fun s' => Except.ok (s', true)) (retime_retime hp)
    next => nomatch hredo

/-! ## Runs -/

/-- Of every live pane the selections are a timeline. -/
structure Timed (s : Session) : Prop where
  sound : s.Sound
  timely : ∀ {id p}, s.table.pane? id = some p → p.Timely

theorem Timed.of_carries {k : CommandKind} (h : s.Timed) (hs : s'.Sound) (hcarries : Carries k s s') :
    s'.Timed := by
  refine ⟨hs, fun {id q} hq => ?_⟩
  obtain ⟨p, horigin, hcourse⟩ := hcarries id q hq
  refine hcourse.timely ?_
  cases horigin with
  | live hp => exact h.timely hp
  | opened hk hid huntouched => exact Pane.timely_of_untouched huntouched

theorem Timed.step {k : CommandKind} (h : s.Timed) (hstep : Step s k s') : s'.Timed :=
  h.of_carries (h.sound.step hstep) (hstep.carries h.sound)

theorem carries_modifyBrush {k : CommandKind} (s : Session) (pane : PaneId) (c : BrushCommand) :
    Carries k s (s.modifyBrush pane fun b => (b.execute c).1) :=
  Carries.modify fun p _ => Pane.course_withBrush (p.brush.pane_execute c)

theorem timed_answerAll {σ : Type} (backend : Backend (StateM σ)) (options : SessionOptions)
    (bus : Bus) (calls : List Call) : Always Timed ((vacant options bus).answerAll backend calls) :=
  always_answerAll (fun hstep h => h.step hstep)
    (fun pane c h => h.of_carries (k := .working) (h.sound.modifyBrush pane _)
      (carries_modifyBrush _ pane c))
    ⟨sound_vacant options bus, nofun⟩ calls

end Session

namespace Call

def kind : Call → CommandKind
  | .session c => c.kind
  | .brush _ _ => .working

/-- The pane in which a call selects, undoes or redoes. -/
def selectsIn? : Call → Option PaneId
  | .session (.select pane _) | .session (.undo pane) | .session (.redo pane)
  | .session (.selectWhere pane _) => some pane
  | _ => none

end Call

namespace Session

variable {s s' : Session} {id pane : PaneId} {q : Pane} {σ : Type} {backend : Backend (StateM σ)}

/-- What is refused changes no pane, as does what leaves the pane alone. -/
theorem pane?_after {α : Type} {made : α → Session} {r : Except SessionError α}
    (h : ∀ a, r = .ok a → (made a).table.pane? id = s.table.pane? id) :
    (s.after made r).table.pane? id = s.table.pane? id := by
  cases r with
  | error e => rfl
  | ok a => exact h a rfl

theorem pane?_modifyLive (hne : id ≠ pane) {f : Pane → Pane} (h : s.modifyLive pane f = .ok s') :
    s'.table.pane? id = s.table.pane? id := by
  rw [modifyLive_eq_ok h]
  exact pane?_modify_of_ne s hne f

/-- A pane may be replaced, or nothing done. -/
theorem pane?_replaced (hne : id ≠ pane) {p? : Option Pane} {went : Bool}
    (h : (match p? with
      | some p => .ok (s.modify pane fun _ => p, true)
      | none => .ok (s, false) : Except SessionError (Session × Bool)) = .ok (s', went)) :
    s'.table.pane? id = s.table.pane? id := by
  split at h
  · obtain ⟨rfl, -⟩ := Prod.mk.inj (Except.ok.inj h)
    exact pane?_modify_of_ne s hne _
  · obtain ⟨rfl, -⟩ := Prod.mk.inj (Except.ok.inj h)
    rfl

/-- What is selected in a pane leaves the others alone. -/
theorem pane?_of_selecting {call : Call} (hselecting : call.kind = .selecting)
    (hcall : call.selectsIn? ≠ some id) (env : σ) :
    (s.answer backend call env).1.table.pane? id = s.table.pane? id := by
  have hne : ∀ {pane}, call.selectsIn? = some pane → id ≠ pane := fun hpane heq =>
    hcall (hpane.trans (congrArg some heq.symm))
  cases call with
  | brush pane c => nomatch hselecting
  | session c =>
    cases c with
    | select pane ids => exact pane?_after fun _ h => pane?_modifyLive (hne rfl) h
    | selectWhere pane proposition => exact pane?_after fun _ h => pane?_modifyLive (hne rfl) h
    | undo pane =>
      refine pane?_after fun _ h => ?_
      obtain ⟨p, -, h⟩ := bind_eq_ok.1 h
      exact pane?_replaced (hne rfl) h
    | redo pane =>
      refine pane?_after fun _ h => ?_
      obtain ⟨p, -, h⟩ := bind_eq_ok.1 h
      exact pane?_replaced (hne rfl) h
    | resolve pane pending decision => cases decision <;> nomatch hselecting
    | _ => nomatch hselecting

/-- Settings leave timelines alone. -/
theorem timeline_modifyView {f : ViewState → ViewState}
    (hq : (s.after (fun s' => s') (s.modifyView pane f)).table.pane? id = some q) :
    ∃ p, s.table.pane? id = some p ∧ q.timeline = p.timeline := by
  cases hview : s.modifyView pane f with
  | error e =>
    rw [hview] at hq
    exact ⟨q, hq, rfl⟩
  | ok s' =>
    rw [hview] at hq
    obtain rfl := modifyLive_eq_ok hview
    rcases modify_cases hq with ⟨rfl, p, hp, rfl⟩ | ⟨-, hq⟩
    · exact ⟨p, hp, rfl⟩
    · exact ⟨q, hq, rfl⟩

theorem timeline_of_viewing {call : Call} (hviewing : call.kind = .viewing) (env : σ)
    (hq : (s.answer backend call env).1.table.pane? id = some q) :
    ∃ p, s.table.pane? id = some p ∧ q.timeline = p.timeline := by
  cases call with
  | brush pane c => nomatch hviewing
  | session c =>
    cases c with
    | setPolicy pane policy => exact timeline_modifyView hq
    | setAutoSync pane on => exact timeline_modifyView hq
    | resolve pane pending decision => cases decision <;> nomatch hviewing
    | _ => nomatch hviewing

/-- What a pane's timeline is moved on from by what does not select in the pane: from its own, and
only if the pane follows its brush, or from a blank one if the pane was opened meanwhile. -/
theorem Timed.timeline_answer (h : s.Timed) {call : Call} (hcall : call.selectsIn? ≠ some id)
    (env : σ) (hq : (s.answer backend call env).1.table.pane? id = some q) :
    ∃ before chosen, q.timeline = List.foldl Timeline.select before chosen ∧
      ((∃ p, s.table.pane? id = some p ∧ p.timeline = before ∧
          (p.view.autoSync = false → chosen = [])) ∨
        (call.kind = .opening ∧ before = {})) := by
  by_cases hselecting : call.kind = .selecting
  · rw [pane?_of_selecting hselecting hcall] at hq
    exact ⟨q.timeline, [], rfl, .inl ⟨q, hq, rfl, fun _ => rfl⟩⟩
  by_cases hviewing : call.kind = .viewing
  · -- A pane that is only now to follow its brush does not do so yet.
    obtain ⟨p, hp, htimeline⟩ := timeline_of_viewing hviewing env hq
    exact ⟨p.timeline, [], htimeline, .inl ⟨p, hp, rfl, fun _ => rfl⟩⟩
  have hcarries : Carries call.kind s (s.answer backend call env).1 := by
    cases call with
    | session c => exact h.sound.carries c env
    | brush pane c => exact carries_modifyBrush s pane c
  obtain ⟨p, horigin, hcourse⟩ := hcarries id q hq
  cases horigin with
  | live hp =>
    obtain ⟨chosen, hnone, htimeline⟩ := hcourse.timeline_eq (h.timely hp) hselecting hviewing
    exact ⟨p.timeline, chosen, htimeline, .inl ⟨p, hp, rfl, hnone⟩⟩
  | opened hk hid huntouched =>
    obtain ⟨chosen, -, htimeline⟩ :=
      hcourse.timeline_eq (Pane.timely_of_untouched huntouched) hselecting hviewing
    exact ⟨{}, chosen, Pane.timeline_of_untouched huntouched ▸ htimeline, .inr ⟨hk, rfl⟩⟩

end Session

/-- **Selections are timelines.**  Whatever is asked of a session and of its brushes, and whatever the
backend answers: in every live pane are selected only nodes that it holds, each once, and no more
than 64 selections are kept to go back to.  Selecting, undoing and redoing in the pane move its
timeline and change nothing else, and undoing and redoing take each other back.  Of what else is
asked, nothing moves the timeline of a pane but what a brush selects in a pane that follows it. -/
theorem selections_are_timelines {σ : Type} (backend : Backend (StateM σ)) (env : σ)
    (options : SessionOptions) (bus : Bus) (calls : List Call) :
    let s := ((Session.vacant options bus).answerAll backend calls env).1
    (∀ id p, s.table.pane? id = some p →
      p.selection.Nodup ∧ (∀ n ∈ p.selection, n ∈ p.store.nodeIds) ∧
      p.history.past.length ≤ 64 ∧ s.KeepsTime id p) ∧
    ∀ (call : Call) env' id q, call.selectsIn? ≠ some id →
      (s.answer backend call env').1.table.pane? id = some q →
      ∃ before chosen, q.timeline = List.foldl Timeline.select before chosen ∧
        ((∃ p, s.table.pane? id = some p ∧ p.timeline = before ∧
            (p.view.autoSync = false → chosen = [])) ∨
          (call.kind = .opening ∧ before = {})) := by
  intro s
  have htimed : s.Timed := Session.timed_answerAll backend options bus calls env
  refine ⟨fun id p hp => ?_, fun call env' id q hcall => htimed.timeline_answer hcall env'⟩
  have htimely := htimed.timely hp
  obtain ⟨hnodup, hheld⟩ := htimely.selects _ p.timeline.present_mem_line
  have hlength : p.history.past.length + p.history.future.length ≤ 64 := htimely.lawful.length_le
  exact ⟨hnodup, hheld, by omega, Session.keepsTime hp htimely⟩

end StateAtlas
