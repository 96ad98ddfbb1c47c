import StateAtlas.Proofs.Session.Finishing
import StateAtlas.Proofs.Session.Merges
/-!
The order in which tickets are finished.

In every session that can be reached, the brush of each pane is the pane's own, so what a pane's brush
selects changes that pane only.  Tickets of different panes can therefore be finished in either order.
Only the announcements tell the orders apart, because in between they tell what recurs by then.

Main statements: `finishing_order`, `reports_depend_on_order`.
-/

namespace StateAtlas

open PaneTable

/-- Whether a request leaves every pane the brush that is its own. -/
def Request.KeepsBrush : Request → Prop
  | .edit _ e => ∀ p, (e.apply p).brush.pane = p.brush.pane
  | _ => True

namespace Session

variable {s s' : Session} {σ : Type} {backend : Backend (StateM σ)}

/-- The brush of every pane is the pane's own. -/
def Own (s : Session) : Prop := ∀ id p, s.table.pane? id = some p → p.brush.pane = id

theorem Own.of_carries {k : CommandKind} (h : s.Own) (hcarries : Carries k s s') : s'.Own := by
  intro id q hq
  obtain ⟨p, horigin, hcourse⟩ := hcarries id q hq
  rw [hcourse.id_brush_eq.2]
  cases horigin with
  | live hp => exact h id p hp
  | opened hk hid huntouched => exact huntouched.brush.trans hid

theorem Sound.carries_table (h : s.Sound) (c : PaneCommand) :
    Carries .opening s { s with table := s.table.perform c } := by
  obtain ⟨rank, hwf⟩ := h.wellFormed
  unfold PaneTable.perform
  split
  next hexecute => exact Carries.reach (hwf.execute hexecute) fun _ => rfl
  next => exact Carries.rfl s

theorem Own.edit (h : s.Own) (pane : PaneId) {e : PaneEdit}
    (he : ∀ p, (e.apply p).brush.pane = p.brush.pane) : (s.modify pane e.apply).Own := by
  intro id q hq
  rcases modify_cases hq with ⟨rfl, p, hp, rfl⟩ | ⟨-, hq⟩
  · exact (he p).trans (h _ p hp)
  · exact h id q hq

theorem Own.serve (h : s.Own) (hs : s.Sound) {r : Request} (hr : r.KeepsBrush) :
    Always Own (s.serve backend r) := by
  cases r with
  | session c => exact fun env => h.of_carries (hs.carries c env)
  | table c => exact always_pure (h.of_carries (hs.carries_table c))
  | edit pane e => exact always_pure (h.edit pane hr)

/-- **Whatever the requests, the brush of every pane stays its own.** -/
theorem Own.serveAll (h : s.Own) (hs : s.Sound) {requests : List Request}
    (hrequests : ∀ r ∈ requests, r.KeepsBrush) : Always Own (s.serveAll backend requests) :=
  hs.serveAll_keeps (fun r hr _ hs h => h.serve hs (hrequests r hr)) h

theorem own_vacant (options : SessionOptions) (bus : Bus) : (vacant options bus).Own := by
  intro id p hp
  nomatch hp

/-! ## Two tickets that are out -/

/-- A fragment of one state. -/
def oneState (n : NodeId) : Fragment := { nodes := [{ id := n, kind := .state }] }

/-- A pane and its copy are expanded at the same time, the copy for the second time, while it is
watched whether the node that it found at first recurs. -/
def expandBoth : List Request :=
  [.session .start, .session (.duplicate original), .session (.watchRecurrence [⟨"x"⟩]),
    .session (.begin copied []), .session (.finish ⟨⟨copied, 0⟩, []⟩ (.ok (oneState ⟨"x"⟩))),
    .session (.begin original [⟨"s0"⟩]), .session (.begin copied [])]

/-- The session, with a subscriber to everything. -/
def bothExpanding : Session :=
  (((vacant ({} : Config).options (({} : Bus).subscribe []).1).serveAll
    (.constant (oneState ⟨"s0"⟩)) expandBoth) ()).1

/-- The tickets that are out. -/
def ofOriginal : Ticket := ⟨⟨original, 1⟩, [⟨"s0"⟩]⟩

@[inherit_doc ofOriginal]
def ofCopied : Ticket := ⟨⟨copied, 2⟩, []⟩

/-- What the subscriber hears. -/
def heard (s : Session) : List Event := (s.table.bus.drain 0).2

theorem leases_bothExpanding :
    (bothExpanding.table.pane? original).bind Pane.lease = some ofOriginal.lease.number ∧
      (bothExpanding.table.pane? copied).bind Pane.lease = some ofCopied.lease.number := by
  decide +kernel

end Session

open Session

/-- **Tickets of different panes can be finished in either order.**  Whatever was asked of a session,
past it of its table, and of its panes as long as they keep their brushes, and whatever was fetched
for two tickets of different live panes, or why that failed: in both orders the tickets have the same
results and the session ends the same but for its bus, whatever was on the bus before.  The same is
announced up to its order, except where it is announced in between what recurs; that is announced as
often, and the same the last time. -/
theorem finishing_order {σ : Type} (backend : Backend (StateM σ)) (env : σ)
    (options : SessionOptions) (bus : Bus) (requests : List Request)
    (hrequests : ∀ r ∈ requests, r.KeepsBrush) :
    let s := ((Session.vacant options bus).serveAll backend requests env).1
    ∀ (t t' : Ticket) (fetched fetched' : Except ExploreError Fragment), t.pane ≠ t'.pane →
      s.table.contains t.pane = true → s.table.contains t'.pane = true →
      ∃ (after : Session) (result result' : Except SessionError Outcome)
        (told told' : List Event),
        (∀ b, (s.onBus b).finishBoth t fetched t' fetched' =
          (after.onBus (told.foldl Bus.publish b), result, result')) ∧
        (∀ b, (s.onBus b).finishBoth t' fetched' t fetched =
          (after.onBus (told'.foldl Bus.publish b), result', result)) ∧
        SameNews told told' ∧ (s.watched.isEmpty = true → told.Perm told') := by
  intro s t t' fetched fetched' hne hlive hlive'
  have hown : s.Own := (own_vacant options bus).serveAll (sound_vacant options bus) hrequests env
  obtain ⟨p, hp⟩ := exists_pane?_iff.1 hlive
  obtain ⟨q, hq⟩ := exists_pane?_iff.1 hlive'
  exact finishBoth_comm hp hq hne (hown _ p hp) (hown _ q hq) fetched fetched'

theorem finishing_order_bothExpanding :
    (∀ r ∈ expandBoth, r.KeepsBrush) ∧ original ≠ copied ∧
      (bothExpanding.table.pane? original).bind Pane.lease = some ofOriginal.lease.number ∧
      (bothExpanding.table.pane? copied).bind Pane.lease = some ofCopied.lease.number ∧
      ∃ (after : Session) (result result' : Except SessionError Outcome)
        (told told' : List Event),
        (∀ b, (bothExpanding.onBus b).finishBoth ofOriginal (.ok (oneState ⟨"x"⟩)) ofCopied
          (.error (.network "lost")) = (after.onBus (told.foldl Bus.publish b), result, result')) ∧
        (∀ b, (bothExpanding.onBus b).finishBoth ofCopied (.error (.network "lost")) ofOriginal
          (.ok (oneState ⟨"x"⟩)) = (after.onBus (told'.foldl Bus.publish b), result', result)) ∧
        SameNews told told' := by
  have hrequests : ∀ r ∈ expandBoth, r.KeepsBrush := by
    simp [expandBoth, Request.KeepsBrush]
  obtain ⟨horiginal, hcopied⟩ := leases_bothExpanding
  obtain ⟨p, hp, -⟩ := Option.bind_eq_some_iff.1 horiginal
  obtain ⟨q, hq, -⟩ := Option.bind_eq_some_iff.1 hcopied
  obtain ⟨after, result, result', told, told', hfirst, hsecond, hnews, -⟩ :=
    finishing_order (.constant (oneState ⟨"s0"⟩)) () ({} : Config).options
      (({} : Bus).subscribe []).1 expandBoth hrequests ofOriginal ofCopied (.ok (oneState ⟨"x"⟩))
      (.error (.network "lost")) (by decide) (contains_of_pane? hp) (contains_of_pane? hq)
  exact ⟨hrequests, by decide, horiginal, hcopied, after, result, result', told, told', hfirst,
    hsecond, hnews⟩

/-- **What is announced tells the orders apart**: whether a node recurs already when the first of two
tickets is finished depends on which one that is. -/
theorem reports_depend_on_order :
    original ≠ copied ∧
      (bothExpanding.table.pane? original).bind Pane.lease = some ofOriginal.lease.number ∧
      (bothExpanding.table.pane? copied).bind Pane.lease = some ofCopied.lease.number ∧
      ¬(bothExpanding.finishBoth ofOriginal (.ok (oneState ⟨"x"⟩)) ofCopied (.ok {})).1.heard.Perm
        (bothExpanding.finishBoth ofCopied (.ok {}) ofOriginal (.ok (oneState ⟨"x"⟩))).1.heard := by
  obtain ⟨horiginal, hcopied⟩ := leases_bothExpanding
  refine ⟨by decide, horiginal, hcopied, fun hperm => ?_⟩
  have hreports := hperm.filterMap fun
    | .recurringUpdated ids _ => some ids
    | _ => none
  exact absurd hreports (by decide +kernel)

end StateAtlas
