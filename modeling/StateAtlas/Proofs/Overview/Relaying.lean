import Mathlib.Data.List.Induction
import StateAtlas.Proofs.Overview.Messages
/-!
What goes through a relay, in whatever order its sides are served.

On both sides, what has come in is what has gone out followed by what still waits: of the messages that
were queued while the queue was open, and of the frames that came while the stream was.  Every step
preserves this, whatever the step is.

Main statement: `relays_in_order`, which rests on `RegistryMessage.ofFrame?_frameBody` and
`Frame.split_flatMap_encode`, by which what is sent is read as what was queued, and on `Tells` and
`Farewell`, which say what is told of a frame and at the end without the definitions that tell it.
-/

namespace StateAtlas

/-! ## What comes in -/

namespace RelayAction

/-- The message that is queued. -/
def message? : RelayAction → Option RegistryMessage
  | .post m => some m
  | _ => none

/-- The frame that comes. -/
def frame? : RelayAction → Option (List UInt8)
  | .arrive frame => some frame
  | _ => none

/-- Whether messages stop being queued. -/
def closes (a : RelayAction) : Bool := a = .close

/-- Whether frames stop coming. -/
def stopsFlow (a : RelayAction) : Bool := a = .hangUp || a = .fail

theorem message?_of_closes {a : RelayAction} (h : a.closes = true) : a.message? = none := by
  cases a <;> simp_all [closes, message?]

theorem frame?_of_stopsFlow {a : RelayAction} (h : a.stopsFlow = true) : a.frame? = none := by
  cases a <;> simp_all [stopsFlow, frame?]

end RelayAction

/-! ## What is told -/

/-- What is told of a frame that was read: the message that it holds, or a failure if it is no JSON, or
JSON that is no message. -/
inductive Tells (frame : List UInt8) : LinkEvent → Prop
  | received {j : Json} {m : RegistryMessage} (hjson : Json.ofBytes? frame = some j)
      (hmessage : RegistryMessage.ofJson? j = some m) : Tells frame (.received m)
  | unreadable {reason : String} (hjson : Json.ofBytes? frame = none) : Tells frame (.failed reason)
  | foreign {j : Json} {reason : String} (hjson : Json.ofBytes? frame = some j)
      (hmessage : RegistryMessage.ofJson? j = none) : Tells frame (.failed reason)

theorem tells_ofFrame (frame : List UInt8) : Tells frame (.ofFrame frame) := by
  unfold LinkEvent.ofFrame RegistryMessage.ofFrame?
  cases hjson : Json.ofBytes? frame with
  | none => exact .unreadable hjson
  | some j =>
    rw [Option.bind_some]
    cases hmessage : RegistryMessage.ofJson? j with
    | none => exact .foreign hjson hmessage
    | some m => exact .received hjson hmessage

theorem forall₂_tells (frames : List (List UInt8)) :
    List.Forall₂ Tells frames (frames.map LinkEvent.ofFrame) :=
  List.forall₂_map_right_iff.2 (List.forall₂_same.2 fun frame _ => tells_ofFrame frame)

/-- What is told at the end: that the relay is over, if it is, and before it a failure of the stream. -/
inductive Farewell : Option RelayEnd → List LinkEvent → Prop
  | goesOn : Farewell none []
  | queueClosed : Farewell (some .queueClosed) [.disconnected]
  | hungUp : Farewell (some .hungUp) [.disconnected]
  | broken (reason : String) : Farewell (some .broken) [.failed reason, .disconnected]

theorem farewell_events (e : Option RelayEnd) : Farewell e (e.elim [] RelayEnd.events) := by
  rcases e with - | (- | - | -)
  · exact .goesOn
  · exact .queueClosed
  · exact .hungUp
  · exact .broken _

theorem Farewell.getLast?_append {e : Option RelayEnd} {last : List LinkEvent}
    (h : Farewell e last) (he : e ≠ none) (events : List LinkEvent) :
    (events ++ last).getLast? = some .disconnected := by
  cases h with
  | goesOn => exact absurd rfl he
  | queueClosed => exact List.getLast?_concat ..
  | hungUp => exact List.getLast?_concat ..
  | broken reason =>
    rw [← List.singleton_append, ← List.append_assoc]
    exact List.getLast?_concat ..

open RelayAction

namespace Relay

section

variable {α : Type} (stops : RelayAction → Bool) (yield : RelayAction → Option α)

/-- What actions yield before one of them stops it. -/
def yieldUntil (actions : List RelayAction) : List α :=
  (actions.takeWhile fun a => !stops a).filterMap yield

variable {stops yield}

theorem yieldUntil_concat (actions : List RelayAction) {a : RelayAction}
    (h : stops a = true → yield a = none) :
    yieldUntil stops yield (actions ++ [a]) = yieldUntil stops yield actions ++
      if actions.any stops then [] else (yield a).toList := by
  induction actions with
  | nil => cases ha : stops a <;> cases hy : yield a <;> simp_all [yieldUntil]
  | cons b actions ih =>
    unfold yieldUntil at ih ⊢
    cases hb : stops b with
    | true => simp [hb]
    | false => cases hy : yield b <;> simp_all

end

/-- The messages that are queued before the queue is closed. -/
def posted (actions : List RelayAction) : List RegistryMessage :=
  yieldUntil closes message? actions

/-- The frames that come before the overview hangs up or the stream reports an error. -/
def arrived (actions : List RelayAction) : List (List UInt8) :=
  yieldUntil stopsFlow frame? actions

theorem posted_concat (actions : List RelayAction) (a : RelayAction) :
    posted (actions ++ [a]) =
      posted actions ++ if actions.any closes then [] else a.message?.toList :=
  yieldUntil_concat actions message?_of_closes

theorem posted_concat_of_none {actions : List RelayAction} {a : RelayAction}
    (h : a.message? = none) : posted (actions ++ [a]) = posted actions := by
  simp [posted_concat, h]

theorem arrived_concat (actions : List RelayAction) (a : RelayAction) :
    arrived (actions ++ [a]) =
      arrived actions ++ if actions.any stopsFlow then [] else a.frame?.toList :=
  yieldUntil_concat actions frame?_of_stopsFlow

theorem arrived_concat_of_none {actions : List RelayAction} {a : RelayAction}
    (h : a.frame? = none) : arrived (actions ++ [a]) = arrived actions := by
  simp [arrived_concat, h]

/-! ## Turns -/

/-- What makes a relay be over. -/
def Ends (r : Relay) : RelayEnd → Prop
  | .queueClosed => r.isClosed = true ∧ r.queue = []
  | .hungUp => r.inflow = .ended ∧ r.inbound = []
  | .broken => r.inflow = .failed ∨ ∃ m ∈ r.queue, Frame.maxLength < m.frameBody.length

/-- What a turn of a side can do. -/
inductive Turn (r : Relay) : RelaySide → Relay → Prop
  | rests (side : RelaySide) (h : r.ending ≠ none) : Turn r side r
  | idleQueue (hqueue : r.queue = []) (h : r.isClosed = false) : Turn r .queue r
  | idleStream (hinbound : r.inbound = []) (h : r.inflow = .flowing) : Turn r .stream r
  | sends (m : RegistryMessage) (queue : List RegistryMessage) (hending : r.ending = none)
      (hqueue : r.queue = m :: queue) (hfits : m.frameBody.length ≤ Frame.maxLength) :
      Turn r .queue { r with queue, sent := r.sent ++ [m.frameBody] }
  | reads (frame : List UInt8) (inbound : List (List UInt8)) (hending : r.ending = none)
      (hinbound : r.inbound = frame :: inbound) :
      Turn r .stream { r with inbound, events := r.events ++ [.ofFrame frame] }
  | ends (side : RelaySide) (e : RelayEnd) (hending : r.ending = none) (h : r.Ends e) :
      Turn r side (r.finish e)

theorem turn_serveQueue {r : Relay} (hending : r.ending = none) : r.Turn .queue r.serveQueue := by
  unfold serveQueue
  split
  next m queue hqueue =>
    split
    next h =>
      refine .ends _ _ hending ?_
      rcases Bool.or_eq_true_iff.1 h with h | h
      · exact .inl (of_decide_eq_true h)
      · exact .inr ⟨m, hqueue ▸ List.mem_cons_self, of_decide_eq_true h⟩
    next h =>
      have hfits := (Bool.or_eq_false_iff.1 (Bool.not_eq_true _ ▸ h)).2
      exact .sends m queue hending hqueue (Nat.not_lt.1 (of_decide_eq_false hfits))
  next hqueue =>
    split
    next h => exact .ends _ _ hending ⟨h, hqueue⟩
    next h => exact .idleQueue hqueue (Bool.not_eq_true _ ▸ h)

theorem turn_serveStream {r : Relay} (hending : r.ending = none) :
    r.Turn .stream r.serveStream := by
  unfold serveStream
  split
  next frame inbound hinbound => exact .reads frame inbound hending hinbound
  next hinbound =>
    split
    next h => exact .idleStream hinbound h
    next h => exact .ends _ _ hending ⟨h, hinbound⟩
    next h => exact .ends _ _ hending (.inl h)

theorem turn_serve (r : Relay) (side : RelaySide) : r.Turn side (r.serve side) := by
  unfold serve
  split
  next h => exact .rests side (Option.isSome_iff_ne_none.1 h)
  next h =>
    have hending : r.ending = none := Option.not_isSome_iff_eq_none.1 h
    cases side with
    | queue => exact turn_serveQueue hending
    | stream => exact turn_serveStream hending

theorem serve_open (r : Relay) (side : RelaySide) :
    (r.serve side).isClosed = r.isClosed ∧ (r.serve side).inflow = r.inflow := by
  generalize hr : r.serve side = r'
  cases hr ▸ turn_serve r side <;> exact ⟨rfl, rfl⟩

/-! ## Steps -/

/-- What comes behind the frames after some actions. -/
def inflowAfter (actions : List RelayAction) : Inflow :=
  if .fail ∈ actions then .failed else if .hangUp ∈ actions then .ended else .flowing

theorem close_mem_iff {actions : List RelayAction} :
    actions.any closes = true ↔ .close ∈ actions := by
  simp [closes]

theorem hangUp_mem_of_inflowAfter {actions : List RelayAction}
    (h : inflowAfter actions = .ended) : .hangUp ∈ actions := by
  unfold inflowAfter at h
  split at h
  next => nomatch h
  next =>
    split at h
    next hmem => exact hmem
    next => nomatch h

theorem fail_mem_of_inflowAfter {actions : List RelayAction}
    (h : inflowAfter actions = .failed) : .fail ∈ actions := by
  unfold inflowAfter at h
  split at h
  next hmem => exact hmem
  next => split at h <;> nomatch h

theorem inflowAfter_eq_flowing_iff {actions : List RelayAction} :
    inflowAfter actions = .flowing ↔ actions.any stopsFlow = false := by
  have hany : actions.any stopsFlow = true ↔ .fail ∈ actions ∨ .hangUp ∈ actions := by
    simp only [List.any_eq_true, stopsFlow, Bool.or_eq_true, decide_eq_true_eq]
    grind
  rw [← Bool.not_eq_true, hany, not_or, inflowAfter]
  split
  next hfail => simp [hfail]
  next hfail =>
    split
    next hhangUp => simp [hhangUp]
    next hhangUp => simp [hfail, hhangUp]

theorem inflowAfter_ne_flowing_of_hangUp_mem {actions : List RelayAction}
    (h : .hangUp ∈ actions) : inflowAfter actions ≠ .flowing := by
  intro hflowing
  have hnone := List.any_eq_false.1 (inflowAfter_eq_flowing_iff.1 hflowing)
  exact hnone _ h rfl

theorem inflowAfter_concat (actions : List RelayAction) (a : RelayAction) :
    inflowAfter (actions ++ [a]) = match a with
      | .hangUp => (inflowAfter actions).hungUp
      | .fail => .failed
      | _ => inflowAfter actions := by
  unfold inflowAfter
  cases a with
  | hangUp =>
    by_cases hfail : .fail ∈ actions <;> by_cases hhangUp : .hangUp ∈ actions <;>
      simp [hfail, hhangUp, Inflow.hungUp]
  | _ => simp

/-- What was queued was sent, in frames that are not too long, or still waits. -/
def Sends (actions : List RelayAction) (r : Relay) : Prop :=
  ∃ served, posted actions = served ++ r.queue ∧ r.sent = served.map RegistryMessage.frameBody ∧
    ∀ body ∈ r.sent, body.length ≤ Frame.maxLength

/-- What came was reported or still waits, and a relay that is over has reported that, too. -/
def Reads (actions : List RelayAction) (r : Relay) : Prop :=
  ∃ read, arrived actions = read ++ r.inbound ∧
    r.events = .connected :: (read.map LinkEvent.ofFrame ++ r.ending.elim [] RelayEnd.events)

/-- What a relay that is over has come to. -/
def Concludes (actions : List RelayAction) (r : Relay) : RelayEnd → Prop
  | .queueClosed => .close ∈ actions ∧ r.queue = []
  | .hungUp => .hangUp ∈ actions ∧ r.inbound = []
  | .broken => .fail ∈ actions ∨ ∃ m ∈ posted actions, Frame.maxLength < m.frameBody.length

/-- What some actions have made of a relay. -/
structure Course (actions : List RelayAction) (r : Relay) : Prop where
  isClosed : r.isClosed = actions.any closes
  inflow : r.inflow = inflowAfter actions
  sends : Sends actions r
  reads : Reads actions r
  concludes : ∀ e, r.ending = some e → Concludes actions r e

theorem course_start : Course [] start where
  isClosed := rfl
  inflow := rfl
  sends := ⟨[], rfl, rfl, nofun⟩
  reads := ⟨[], rfl, rfl⟩
  concludes := nofun

section

variable {actions : List RelayAction} {r : Relay}

theorem isClosed_act (h : r.isClosed = actions.any closes) (a : RelayAction) :
    (r.act a).isClosed = (actions ++ [a]).any closes := by
  rw [List.any_append, ← h]
  cases a with
  | close => exact (Bool.or_true _).symm
  | serve side => exact (r.serve_open side).1.trans (Bool.or_false _).symm
  | _ => exact (Bool.or_false _).symm

theorem inflow_act (h : r.inflow = inflowAfter actions) (a : RelayAction) :
    (r.act a).inflow = inflowAfter (actions ++ [a]) := by
  rw [inflowAfter_concat, ← h]
  cases a with
  | serve side => exact (r.serve_open side).2
  | _ => rfl

/-! ### What was sent -/

theorem Sends.concat {a : RelayAction} (h : Sends actions r) (ha : a.message? = none) :
    Sends (actions ++ [a]) r := by
  unfold Sends
  rwa [posted_concat_of_none ha]

theorem Sends.turn {side : RelaySide} {r' : Relay} (h : Sends actions r) (hturn : r.Turn side r') :
    Sends actions r' := by
  obtain ⟨served, hposted, hsent, hlength⟩ := h
  cases hturn with
  | sends m queue hending hqueue hfits =>
    refine ⟨served ++ [m], by simp [hposted, hqueue], by simp [hsent], ?_⟩
    exact List.forall_mem_append.2 ⟨hlength, List.forall_mem_singleton.2 hfits⟩
  | _ => exact ⟨served, hposted, hsent, hlength⟩

theorem Sends.act (h : Sends actions r) (hclosed : r.isClosed = actions.any closes)
    (a : RelayAction) : Sends (actions ++ [a]) (r.act a) := by
  cases a with
  | post m =>
    obtain ⟨served, hposted, hsent⟩ := h
    refine ⟨served, ?_, hsent⟩
    rw [posted_concat, ← hclosed, hposted]
    exact List.append_assoc ..
  | serve side => exact (h.turn (r.turn_serve side)).concat rfl
  | _ => exact h.concat rfl

/-! ### What was reported -/

theorem Reads.concat {a : RelayAction} (h : Reads actions r) (ha : a.frame? = none) :
    Reads (actions ++ [a]) r := by
  unfold Reads
  rwa [arrived_concat_of_none ha]

theorem Reads.turn {side : RelaySide} {r' : Relay} (h : Reads actions r) (hturn : r.Turn side r') :
    Reads actions r' := by
  obtain ⟨read, harrived, hevents⟩ := h
  cases hturn with
  | reads frame inbound hending hinbound =>
    exact ⟨read ++ [frame], by simp [harrived, hinbound], by simp [hevents, hending]⟩
  | ends side e hending hend =>
    refine ⟨read, harrived, ?_⟩
    simp [finish, hevents, hending]
  | _ => exact ⟨read, harrived, hevents⟩

theorem Reads.act (h : Reads actions r) (hinflow : r.inflow = inflowAfter actions)
    (a : RelayAction) : Reads (actions ++ [a]) (r.act a) := by
  cases a with
  | arrive frame =>
    obtain ⟨read, harrived, hevents⟩ := h
    refine ⟨read, ?_, hevents⟩
    have hflowing : (if actions.any stopsFlow then [] else [frame]) =
        if r.inflow = .flowing then [frame] else [] := by
      simp only [hinflow, inflowAfter_eq_flowing_iff]
      cases actions.any stopsFlow <;> rfl
    rw [arrived_concat, harrived, frame?, Option.toList_some, hflowing]
    exact List.append_assoc ..
  | serve side => exact (h.turn (r.turn_serve side)).concat rfl
  | _ => exact h.concat rfl

/-! ### What a relay comes to -/

theorem Concludes.concat {e : RelayEnd} (h : Concludes actions r e) (a : RelayAction) :
    Concludes (actions ++ [a]) r e := by
  cases e with
  | queueClosed => exact ⟨List.mem_append_left _ h.1, h.2⟩
  | hungUp => exact ⟨List.mem_append_left _ h.1, h.2⟩
  | broken =>
    refine h.imp (List.mem_append_left _) fun ⟨m, hm, hlong⟩ => ⟨m, ?_, hlong⟩
    rw [posted_concat]
    exact List.mem_append_left _ hm

theorem Course.concludes_of_ends (h : Course actions r) {e : RelayEnd} (hend : r.Ends e) :
    Concludes actions r e := by
  cases e with
  | queueClosed => exact ⟨close_mem_iff.1 (h.isClosed ▸ hend.1), hend.2⟩
  | hungUp => exact ⟨hangUp_mem_of_inflowAfter (h.inflow ▸ hend.1), hend.2⟩
  | broken =>
    refine hend.imp (fun hfailed => fail_mem_of_inflowAfter (h.inflow ▸ hfailed)) ?_
    rintro ⟨m, hm, hlong⟩
    obtain ⟨served, hposted, -⟩ := h.sends
    exact ⟨m, hposted ▸ List.mem_append_right _ hm, hlong⟩

theorem Course.concludes_turn {side : RelaySide} {r' : Relay} (h : Course actions r)
    (hturn : r.Turn side r') : ∀ e, r'.ending = some e → Concludes actions r' e := by
  cases hturn with
  | sends m queue hending => exact fun e he => nomatch hending.symm.trans he
  | reads frame inbound hending => exact fun e he => nomatch hending.symm.trans he
  | ends side e hending hend =>
    intro e' he'
    obtain rfl := Option.some.inj he'
    -- The concluded queue and stream are those of the relay before it was over.
    cases e <;> exact h.concludes_of_ends hend
  | _ => exact h.concludes

theorem Course.concludes_act (h : Course actions r) (a : RelayAction) :
    ∀ e, (r.act a).ending = some e → Concludes (actions ++ [a]) (r.act a) e := by
  intro e he
  cases a with
  | serve side => exact (h.concludes_turn (r.turn_serve side) e he).concat _
  | post m =>
    have hconcludes := h.concludes e he
    cases e with
    | queueClosed =>
      -- Nothing is queued once the queue is closed.
      have hclosed : r.isClosed = true := h.isClosed ▸ close_mem_iff.2 hconcludes.1
      exact ⟨List.mem_append_left _ hconcludes.1, by simp [Relay.act, hclosed, hconcludes.2]⟩
    | _ => exact hconcludes.concat _
  | arrive frame =>
    have hconcludes := h.concludes e he
    cases e with
    | hungUp =>
      -- Nothing comes once the overview has hung up.
      have hended : r.inflow ≠ .flowing :=
        h.inflow ▸ inflowAfter_ne_flowing_of_hangUp_mem hconcludes.1
      exact ⟨List.mem_append_left _ hconcludes.1, by simp [Relay.act, hended, hconcludes.2]⟩
    | _ => exact hconcludes.concat _
  | _ => cases e <;> exact (h.concludes _ he).concat _

theorem Course.act (h : Course actions r) (a : RelayAction) :
    Course (actions ++ [a]) (r.act a) where
  isClosed := isClosed_act h.isClosed a
  inflow := inflow_act h.inflow a
  sends := h.sends.act h.isClosed a
  reads := h.reads.act h.inflow a
  concludes := h.concludes_act a

theorem course_actAll (actions : List RelayAction) : Course actions (start.actAll actions) := by
  induction actions using List.reverseRecOn with
  | nil => exact course_start
  | append_singleton actions a ih =>
    rw [actAll, List.foldl_append]
    exact ih.act a

end

/-! ## Progress -/

/-- How many wait on a side. -/
def waiting (r : Relay) : RelaySide → Nat
  | .queue => r.queue.length
  | .stream => r.inbound.length

/-- How many were sent, or reported. -/
def passed (r : Relay) : RelaySide → Nat
  | .queue => r.sent.length
  | .stream => r.events.length

/-- Whether nothing more can come on a side. -/
def IsExhausted (r : Relay) : RelaySide → Prop
  | .queue => r.isClosed = true
  | .stream => r.inflow ≠ .flowing

section

variable {r r' : Relay} {a : RelayAction} {side : RelaySide}

/-- A turn that does not end the relay serves one of those that wait on its side, or waits itself. -/
theorem Turn.own_side (hturn : r.Turn side r') (h : r'.ending = none) :
    (r.waiting side = 0 ∧ ¬ r.IsExhausted side ∧ r' = r) ∨
      (r.waiting side = r'.waiting side + 1 ∧ r'.passed side = r.passed side + 1) := by
  cases hturn with
  | rests _ hover => exact absurd h hover
  | idleQueue hqueue hopen =>
    exact .inl ⟨List.length_eq_zero_iff.2 hqueue, by simp [IsExhausted, hopen], rfl⟩
  | idleStream hinbound hflowing =>
    exact .inl ⟨List.length_eq_zero_iff.2 hinbound, by simp [IsExhausted, hflowing], rfl⟩
  | sends m queue hending hqueue => exact .inr ⟨by simp [waiting, hqueue], by simp [passed]⟩
  | reads frame inbound hending hinbound =>
    exact .inr ⟨by simp [waiting, hinbound], by simp [passed]⟩
  | ends _ e => nomatch h

theorem Turn.other_side (hturn : r.Turn side r') (h : r'.ending = none) {other : RelaySide}
    (hother : other ≠ side) : r'.waiting other = r.waiting other ∧ r'.passed other = r.passed other := by
  cases hturn with
  | sends =>
    cases other with
    | queue => exact absurd rfl hother
    | stream => exact ⟨rfl, rfl⟩
  | reads =>
    cases other with
    | queue => exact ⟨rfl, rfl⟩
    | stream => exact absurd rfl hother
  | ends _ e => nomatch h
  | _ => exact ⟨rfl, rfl⟩

/-- What is no turn of a side serves nothing there, and only adds to what waits if more can come. -/
theorem act_of_ne_serve (h : (r.act a).ending = none) (ha : a ≠ .serve side) :
    (r.act a).passed side = r.passed side ∧ r.waiting side ≤ (r.act a).waiting side ∧
      (r.IsExhausted side → (r.act a).waiting side = r.waiting side) := by
  cases a with
  | post m =>
    cases side with
    | queue =>
      refine ⟨rfl, by simp [waiting, act], fun hclosed => ?_⟩
      have hclosed : r.isClosed = true := hclosed
      simp [waiting, act, hclosed]
    | stream => exact ⟨rfl, Nat.le_refl _, fun _ => rfl⟩
  | arrive frame =>
    cases side with
    | queue => exact ⟨rfl, Nat.le_refl _, fun _ => rfl⟩
    | stream =>
      refine ⟨rfl, by simp [waiting, act], fun hstopped => ?_⟩
      have hstopped : r.inflow ≠ .flowing := hstopped
      simp [waiting, act, hstopped]
  | serve other =>
    have hother : side ≠ other := fun heq => ha (heq ▸ rfl)
    obtain ⟨hwaiting, hpassed⟩ := (r.turn_serve other).other_side h hother
    exact ⟨hpassed, Nat.le_of_eq hwaiting.symm, fun _ => hwaiting⟩
  | _ => cases side <;> exact ⟨rfl, Nat.le_refl _, fun _ => rfl⟩

theorem ending_act (h : (r.act a).ending = none) : r.ending = none := by
  cases a with
  | serve side =>
    change (r.serve side).ending = none at h
    generalize hr : r.serve side = r' at h
    cases hr ▸ r.turn_serve side with
    | ends _ e => nomatch h
    | _ => exact h
  | _ => exact h

theorem ending_actAll {later : List RelayAction} (h : (r.actAll later).ending = none) :
    r.ending = none := by
  induction later generalizing r with
  | nil => exact h
  | cons a later ih => exact ending_act (ih h)

theorem IsExhausted.act (h : r.IsExhausted side) (a : RelayAction) :
    (r.act a).IsExhausted side := by
  cases side with
  | queue =>
    cases a with
    | close => rfl
    | serve other => exact (r.serve_open other).1.trans h
    | _ => exact h
  | stream =>
    change r.inflow ≠ .flowing at h
    change (r.act a).inflow ≠ .flowing
    cases a with
    | hangUp => cases hinflow : r.inflow <;> simp_all [Relay.act, Inflow.hungUp]
    | fail => exact nofun
    | serve other => exact (r.serve_open other).2 ▸ h
    | _ => exact h

/-- **What waits is served, one each turn**, as long as the relay is not over. -/
theorem passed_actAll (side : RelaySide) {later : List RelayAction}
    (h : (r.actAll later).ending = none) :
    r.passed side + min (r.waiting side) (later.count (.serve side)) ≤
      (r.actAll later).passed side := by
  induction later generalizing r with
  | nil => simp [actAll]
  | cons a later ih =>
    have hrest := ih (r := r.act a) h
    have hending : (r.act a).ending = none := ending_actAll h
    refine Nat.le_trans ?_ hrest
    by_cases ha : a = .serve side
    · subst ha
      rw [List.count_cons_self]
      have hturn : r.Turn side (r.act (.serve side)) := r.turn_serve side
      rcases hturn.own_side hending with ⟨hnone, -, hsame⟩ | ⟨hwaiting, hpassed⟩
      · rw [hsame]
        omega
      · omega
    · rw [List.count_cons_of_ne ha]
      obtain ⟨hpassed, hwaiting, -⟩ := act_of_ne_serve hending ha
      omega

/-- A side on which nothing more can come has no turns to wait. -/
theorem count_serve_le_waiting (side : RelaySide) {later : List RelayAction}
    (h : (r.actAll later).ending = none) (hexhausted : r.IsExhausted side) :
    later.count (.serve side) ≤ r.waiting side := by
  induction later generalizing r with
  | nil => exact Nat.zero_le _
  | cons a later ih =>
    have hrest := ih (r := r.act a) h (hexhausted.act a)
    have hending : (r.act a).ending = none := ending_actAll h
    by_cases ha : a = .serve side
    · subst ha
      rw [List.count_cons_self]
      have hturn : r.Turn side (r.act (.serve side)) := r.turn_serve side
      rcases hturn.own_side hending with ⟨-, hopen, -⟩ | ⟨hwaiting, -⟩
      · exact absurd hexhausted hopen
      · omega
    · rw [List.count_cons_of_ne ha, ← (act_of_ne_serve hending ha).2.2 hexhausted]
      exact hrest

end

/-- A frame that is read does not end a relay, whatever it holds. -/
theorem ending_serve_stream {r : Relay} (hending : r.ending = none) (hinbound : r.inbound ≠ []) :
    (r.act (.serve .stream)).ending = none := by
  obtain ⟨frame, inbound, hcons⟩ := List.exists_cons_of_ne_nil hinbound
  simp [act, serve, serveStream, hcons, hending]

/-! ## Everything that goes through -/

/-- **A relay loses, repeats and reorders nothing**, whatever happens to it and in whatever order its
sides are served.  Every message is read from its own frame as it was.  The messages that were queued
are those that were sent, in order and each once, and behind them those that still wait, and their
frames are taken off the stream as they were sent; the frames that came are those that were read, and
behind them those that are not read yet.  It is told that the connection was made, then of each frame
that was read, in order and once, the message that it holds or that it holds none, and last that the
relay is over, if it is.  A relay is over only once its queue is closed and all of it is sent, once the
overview has hung up and all that it sent is read, or once the stream reports an error, never for a
frame that is no message.  Until then every turn serves one of those that wait, if one does. -/
theorem relays_in_order (actions : List RelayAction) :
    (∀ m, RegistryMessage.ofFrame? (RegistryMessage.frameBody m) = some m) ∧
    let r := start.actAll actions
    (∃ served, posted actions = served ++ r.queue ∧
      r.sent.map RegistryMessage.ofFrame? = served.map some ∧
      Frame.split (r.sent.flatMap Frame.encode) = ⟨r.sent, [], false⟩) ∧
    (∃ read told last, arrived actions = read ++ r.inbound ∧
      r.events = .connected :: (told ++ last) ∧ List.Forall₂ Tells read told ∧
      Farewell r.ending last) ∧
    (r.ending ≠ none → r.events.getLast? = some .disconnected) ∧
    (r.ending = some .queueClosed → .close ∈ actions ∧ r.queue = []) ∧
    (r.ending = some .hungUp → .hangUp ∈ actions ∧ r.inbound = []) ∧
    (r.ending = some .broken →
      .fail ∈ actions ∨ ∃ m ∈ posted actions, Frame.maxLength < m.frameBody.length) ∧
    (r.ending = none → r.inbound ≠ [] → (r.act (.serve .stream)).ending = none) ∧
    ∀ side later, (r.actAll later).ending = none →
      r.passed side + min (r.waiting side) (later.count (.serve side)) ≤
          (r.actAll later).passed side ∧
        (r.IsExhausted side → later.count (.serve side) ≤ r.waiting side) := by
  -- Every action keeps a relay on its course, from which all else is read off.
  have h := course_actAll actions
  obtain ⟨served, hposted, hsent, hlength⟩ := h.sends
  obtain ⟨read, harrived, hevents⟩ := h.reads
  have hfarewell := farewell_events (start.actAll actions).ending
  have hdecoded : (start.actAll actions).sent.map RegistryMessage.ofFrame? = served.map some := by
    rw [hsent, List.map_map]
    exact List.map_congr_left fun m _ => m.ofFrame?_frameBody
  have hlast : (start.actAll actions).ending ≠ none →
      (start.actAll actions).events.getLast? = some .disconnected := by
    intro hover
    rw [hevents, ← List.cons_append]
    exact hfarewell.getLast?_append hover _
  exact ⟨RegistryMessage.ofFrame?_frameBody,
    ⟨served, hposted, hdecoded, Frame.split_flatMap_encode_self hlength⟩,
    ⟨read, _, _, harrived, hevents, forall₂_tells read, hfarewell⟩, hlast, h.concludes _,
    h.concludes _, h.concludes _, ending_serve_stream,
    fun side later hending =>
      ⟨passed_actAll side hending, count_serve_le_waiting side hending⟩⟩

/-- Behind a frame that is no JSON and one that is no message the next one is received, and what is
queued is sent all the same. -/
theorem relays_in_order_past_malformed :
    let actions : List RelayAction := [.post .resetPaneNodeMarkings, .arrive [0x7b],
      .arrive [0x7b, 0x7d], .arrive (RegistryMessage.activePane ⟨"pane-1"⟩).frameBody,
      .serve .stream, .serve .stream, .serve .queue, .serve .stream, .close, .serve .queue]
    let r := start.actAll actions
    (∃ read told last, arrived actions = read ++ r.inbound ∧
      r.events = .connected :: (told ++ last) ∧ List.Forall₂ Tells read told ∧
      Farewell r.ending last) ∧
    r.sent.map RegistryMessage.ofFrame? = [some .resetPaneNodeMarkings] ∧
    r.ending = some .queueClosed ∧
    r.events = [.connected, .failed "decode", .failed "decode",
      .received (.activePane ⟨"pane-1"⟩), .disconnected] := by
  intro actions r
  exact ⟨(relays_in_order actions).2.2.1, by decide +kernel, by decide +kernel, by decide +kernel⟩

end Relay

end StateAtlas
