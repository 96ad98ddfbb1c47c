import Mathlib.Data.List.Induction
import StateAtlas.Pane.View
/-!
The log of selections under any sequence of calls.

Recording a selection discards what could be gone forward to, unless it is the selection that stands
last in the undo log: then the call is passed over, and what was undone can still be redone.  So a
record discards the redo log if and only if it is not passed over or nothing is left to redo, that is,
if as much was redone as was undone since the last record that was not passed over.

Main statement: `discards_redo_iff`.
-/

namespace StateAtlas

/-- A call to the log of selections. -/
inductive HistoryCall
  | record (previous : List NodeId)
  | undo (current : List NodeId)
  | redo (current : List NodeId)
deriving DecidableEq, Repr

/-- What a call comes to. -/
inductive HistoryEffect
  | recorded
  | undone
  | redone
  /-- The selection was recorded already, or there is nothing to go back or forward to. -/
  | passedOver
deriving DecidableEq, Repr

namespace History

variable {h : History} {previous : List NodeId} {calls : List HistoryCall}

/-- The log after a call. -/
def call (h : History) : HistoryCall → History
  | .record previous => h.record previous
  | .undo current => ((h.undo? current).map Prod.fst).getD h
  | .redo current => ((h.redo? current).map Prod.fst).getD h

/-- What a call comes to at a log. -/
def effect (h : History) : HistoryCall → HistoryEffect
  | .record previous => if h.past.head? = some previous then .passedOver else .recorded
  | .undo current => if (h.undo? current).isSome then .undone else .passedOver
  | .redo current => if (h.redo? current).isSome then .redone else .passedOver

/-- The log after calls. -/
def callAll (h : History) (calls : List HistoryCall) : History := calls.foldl call h

/-- What calls come to, one after the other. -/
def effects : History → List HistoryCall → List HistoryEffect
  | _, [] => []
  | h, c :: calls => h.effect c :: effects (h.call c) calls

theorem callAll_concat (h : History) (calls : List HistoryCall) (c : HistoryCall) :
    h.callAll (calls ++ [c]) = (h.callAll calls).call c :=
  List.foldl_append

theorem effects_concat (h : History) (calls : List HistoryCall) (c : HistoryCall) :
    h.effects (calls ++ [c]) = h.effects calls ++ [(h.callAll calls).effect c] := by
  induction calls generalizing h with
  | nil => rfl
  | cons d calls ih => exact congrArg (h.effect d :: ·) (ih (h.call d))

/-- What a call does to the past and the future, by what it comes to. -/
theorem call_cases (h : History) (c : HistoryCall) :
    (h.effect c = .recorded ∧ (h.call c).past.length ≤ max depth h.past.length ∧
      (h.call c).future.length = 0) ∨
    (h.effect c = .undone ∧ (h.call c).past.length + 1 = h.past.length ∧
      (h.call c).future.length = h.future.length + 1) ∨
    (h.effect c = .redone ∧ (h.call c).past.length = h.past.length + 1 ∧
      (h.call c).future.length + 1 = h.future.length) ∨
    (h.effect c = .passedOver ∧ h.call c = h) := by
  obtain ⟨past, future⟩ := h
  cases c with
  | record previous =>
    by_cases hrepeated : past.head? = some previous
    · exact .inr (.inr (.inr ⟨if_pos hrepeated, if_pos hrepeated⟩))
    · have hcall : call ⟨past, future⟩ (.record previous) = ⟨if depth < past.length + 1 then
          (previous :: past).dropLast else previous :: past, []⟩ := if_neg hrepeated
      rw [hcall]
      refine .inl ⟨if_neg hrepeated, ?_, rfl⟩
      dsimp only
      split
      next =>
        rw [List.length_dropLast]
        exact Nat.le_max_right ..
      next hroom => exact Nat.le_trans (Nat.not_lt.1 hroom) (Nat.le_max_left ..)
  | undo current =>
    cases past with
    | nil => exact .inr (.inr (.inr ⟨rfl, rfl⟩))
    | cons previous past => exact .inr (.inl ⟨rfl, rfl, rfl⟩)
  | redo current =>
    cases future with
    | nil => exact .inr (.inr (.inr ⟨rfl, rfl⟩))
    | cons next future => exact .inr (.inr (.inl ⟨rfl, rfl, rfl⟩))

/-! ## How much is kept -/

/-- **Past and future together never hold more than the depth of the log**: recording empties the
future, and going back and forth moves selections from one to the other. -/
theorem length_call_le (hlength : h.past.length + h.future.length ≤ depth) (c : HistoryCall) :
    (h.call c).past.length + (h.call c).future.length ≤ depth := by
  obtain ⟨-, hpast, hfuture⟩ | ⟨-, hpast, hfuture⟩ | ⟨-, hpast, hfuture⟩ | ⟨-, hsame⟩ :=
    call_cases h c
  · omega
  · omega
  · omega
  · rwa [hsame]

theorem length_callAll_le (calls : List HistoryCall) :
    (callAll {} calls).past.length + (callAll {} calls).future.length ≤ depth := by
  induction calls using List.reverseRecOn with
  | nil => exact Nat.zero_le _
  | append_singleton calls c ih =>
    rw [callAll_concat]
    exact length_call_le ih c

/-! ## What can be redone -/

/-- What calls to an empty log come to since the last record that was not passed over, the last one
first. -/
def sinceRecorded (calls : List HistoryCall) : List HistoryEffect :=
  (effects {} calls).reverse.takeWhile fun e => e ≠ .recorded

/-- **What can be redone is what was undone since the last record and not redone yet.** -/
theorem length_future_callAll (calls : List HistoryCall) :
    (callAll {} calls).future.length + (sinceRecorded calls).count .redone =
      (sinceRecorded calls).count .undone := by
  induction calls using List.reverseRecOn with
  | nil => rfl
  | append_singleton calls c ih =>
    have hsince : sinceRecorded (calls ++ [c]) =
        if (callAll {} calls).effect c = .recorded then []
        else (callAll {} calls).effect c :: sinceRecorded calls := by
      rw [sinceRecorded, effects_concat, List.reverse_append, List.reverse_singleton,
        List.singleton_append, List.takeWhile_cons]
      simp [sinceRecorded]
    rw [callAll_concat, hsince]
    obtain ⟨heffect, -, hfuture⟩ | ⟨heffect, -, hfuture⟩ | ⟨heffect, -, hfuture⟩ | ⟨heffect, hsame⟩ :=
      call_cases (callAll {} calls) c
    · rw [if_pos heffect, hfuture]
      rfl
    · simp only [heffect, hfuture, reduceCtorEq, if_false, List.count_cons, beq_iff_eq, if_true]
      omega
    · simp only [heffect, reduceCtorEq, if_false, List.count_cons, beq_iff_eq, if_true]
      omega
    · simp only [heffect, hsame, reduceCtorEq, if_false, List.count_cons, beq_iff_eq]
      exact ih

theorem redo?_eq_none_iff {current : List NodeId} : h.redo? current = none ↔ h.future = [] := by
  unfold redo?
  split
  next heq => exact iff_of_true rfl heq
  next heq => exact iff_of_false nofun (by rw [heq]; exact List.cons_ne_nil _ _)

theorem future_record_eq_nil_iff :
    (h.record previous).future = [] ↔ (h.past.head? = some previous → h.future = []) := by
  unfold record
  split
  next hrepeated => exact ⟨fun hnil _ => hnil, fun h => h hrepeated⟩
  next hother => exact iff_of_true rfl fun hrepeated => absurd hrepeated hother

/-- **Recording discards what could be redone, unless the record is passed over.**  Whatever was
called before, after a further record nothing can be redone if and only if the selection is not the
one that stands last in the undo log, or as often was something redone as undone since the last
record that was not passed over.  And both logs together never hold more than 64 selections. -/
theorem discards_redo_iff (calls : List HistoryCall) (previous : List NodeId) :
    ((∀ current, ((callAll {} calls).record previous).redo? current = none) ↔
      ((callAll {} calls).past.head? = some previous →
        (sinceRecorded calls).count .redone = (sinceRecorded calls).count .undone)) ∧
    (callAll {} calls).past.length + (callAll {} calls).future.length ≤ 64 := by
  refine ⟨?_, length_callAll_le calls⟩
  have hcount := length_future_callAll calls
  have hempty : (callAll {} calls).future = [] ↔
      (sinceRecorded calls).count .redone = (sinceRecorded calls).count .undone := by
    rw [← List.length_eq_zero_iff]
    omega
  simp only [redo?_eq_none_iff, forall_const]
  rw [future_record_eq_nil_iff, hempty]

/-- Two selections are recorded, the second one is undone, and the first one is recorded again: what
was undone can still be redone. -/
theorem redo_survives_record :
    let calls := [HistoryCall.record [⟨"a"⟩], .record [⟨"b"⟩], .undo [⟨"c"⟩]]
    ((((callAll {} calls).record [⟨"a"⟩]).redo? [⟨"d"⟩]).map Prod.snd) = some [⟨"c"⟩] := by
  decide

end History

end StateAtlas
