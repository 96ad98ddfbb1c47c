import Mathlib.Data.List.Chain
import StateAtlas.Pane.Basic
import StateAtlas.Proofs.Graph.Union
/-!
The selections of a pane as a timeline.

A timeline is a row of selections with the one that is shown singled out; going back and forth moves
along the row and leaves it as it is.  A pane keeps the row in two parts and its selection between
them.  When a selection is recorded, it skips one that was recorded last, and then it does not forget
what could be gone forward to; and when it goes back or forth, it leaves out of the stored selection
the nodes that it does not hold.  Neither ever happens, because of what `Timely` says: neighbours on
the timeline differ, and all of its selections list nodes that are held, each once.
-/

namespace StateAtlas

/-! ## Timelines -/

/-- Selections to go back to and to go forward to, the next one first, and the one that is shown. -/
structure Timeline where
  past : List (List NodeId) := []
  present : List NodeId := []
  future : List (List NodeId) := []
deriving DecidableEq, Repr

namespace Timeline

variable {t u : Timeline} {ids : List NodeId}

/-- Makes another selection, unless it is the one that is shown; of the past the 64 last selections
are kept, and the future is discarded. -/
def select (t : Timeline) (ids : List NodeId) : Timeline :=
  if ids = t.present then t
  else { past := (t.present :: t.past).take 64, present := ids, future := [] }

/-- Goes back by one selection, if there is one to go back to. -/
def back? (t : Timeline) : Option Timeline :=
  match t.past with
  | [] => none
  | previous :: past => some ⟨past, previous, t.present :: t.future⟩

/-- Goes forward by one selection, if there is one to go forward to. -/
def forth? (t : Timeline) : Option Timeline :=
  match t.future with
  | [] => none
  | next :: future => some ⟨t.present :: t.past, next, future⟩

/-- All selections, oldest first. -/
def line (t : Timeline) : List (List NodeId) := t.past.reverse ++ t.present :: t.future

/-- **Going forth leads back to where one went back from.** -/
theorem forth?_of_back? (h : t.back? = some u) : u.forth? = some t := by
  obtain ⟨past, present, future⟩ := t
  cases past with
  | nil => nomatch h
  | cons previous past =>
    obtain rfl := Option.some.inj h
    rfl

/-- **Going back leads back to where one went forth from.** -/
theorem back?_of_forth? (h : t.forth? = some u) : u.back? = some t := by
  obtain ⟨past, present, future⟩ := t
  cases future with
  | nil => nomatch h
  | cons next future =>
    obtain rfl := Option.some.inj h
    rfl

theorem line_of_back? (h : t.back? = some u) : u.line = t.line := by
  obtain ⟨past, present, future⟩ := t
  cases past with
  | nil => nomatch h
  | cons previous past =>
    obtain rfl := Option.some.inj h
    simp [line]

theorem line_of_forth? (h : t.forth? = some u) : u.line = t.line :=
  (line_of_back? (back?_of_forth? h)).symm

theorem present_mem_line (t : Timeline) : t.present ∈ t.line := by
  simp [line]

/-- What is kept of a timeline when another selection is made are its last selections up to the
present. -/
theorem line_select (hne : ids ≠ t.present) : ∃ kept, kept <:+ t.past.reverse ++ [t.present] ∧
    kept.length ≤ 64 ∧ (t.select ids).line = kept ++ [ids] := by
  refine ⟨((t.present :: t.past).take 64).reverse, ?_, ?_, ?_⟩
  · rw [← List.reverse_cons]
    exact List.reverse_suffix.2 (List.take_prefix _ _)
  · rw [List.length_reverse]
    exact List.length_take_le 64 _
  · rw [select, if_neg hne, line]

/-- Neighbours differ, and at most 64 selections can be gone back or forward to. -/
structure Lawful (t : Timeline) : Prop where
  differ : t.line.IsChain (· ≠ ·)
  bounded : t.line.length ≤ 65

theorem Lawful.head?_past_ne (h : t.Lawful) : t.past.head? ≠ some t.present := by
  obtain ⟨past, present, future⟩ := t
  cases past with
  | nil => simp
  | cons previous past =>
    have hdiffer := h.differ
    simp only [line, List.reverse_cons, List.append_assoc, List.singleton_append] at hdiffer
    have hne : previous ≠ present := (List.isChain_append_cons_cons.1 hdiffer).2.1
    simpa using hne

theorem Lawful.of_line_eq (h : t.Lawful) (hline : u.line = t.line) : u.Lawful :=
  ⟨hline ▸ h.differ, hline ▸ h.bounded⟩

theorem Lawful.select (h : t.Lawful) (ids : List NodeId) : (t.select ids).Lawful := by
  by_cases heq : ids = t.present
  · rw [Timeline.select, if_pos heq]
    exact h
  obtain ⟨kept, hsuffix, hlength, hline⟩ := line_select heq
  have hpast : (t.past.reverse ++ [t.present]).IsChain (· ≠ ·) :=
    (List.isChain_split.1 h.differ).1
  refine ⟨?_, by rw [hline, List.length_append, List.length_singleton]; omega⟩
  rw [hline]
  -- Whatever is kept ends with the present.
  refine List.isChain_append.2 ⟨hpast.suffix hsuffix, List.isChain_singleton _, ?_⟩
  intro last hlast next hnext
  obtain rfl : ids = next := by simpa using hnext
  have hpresent : last = t.present := by
    obtain ⟨before, hbefore⟩ := hsuffix
    have hgetLast := congrArg List.getLast? hbefore
    rw [List.getLast?_append, hlast] at hgetLast
    simpa using hgetLast
  exact hpresent ▸ Ne.symm heq

theorem Lawful.length_le (h : t.Lawful) : t.past.length + t.future.length ≤ 64 := by
  have hbounded := h.bounded
  simp only [line, List.length_append, List.length_reverse, List.length_cons] at hbounded
  omega

end Timeline

/-! ## Timelines of panes -/

namespace Pane

variable {p q : Pane} {t : Timeline} {ids : List NodeId}

/-- The selections of a pane. -/
def timeline (p : Pane) : Timeline := ⟨p.history.past, p.selection, p.history.future⟩

/-- The pane with other selections. -/
def withTimeline (p : Pane) (t : Timeline) : Pane :=
  { p with history := ⟨t.past, t.future⟩, selection := t.present }

@[simp] theorem timeline_withTimeline (p : Pane) (t : Timeline) :
    (p.withTimeline t).timeline = t := rfl

@[simp] theorem withTimeline_timeline (p : Pane) : p.withTimeline p.timeline = p := rfl

/-- What the pane holds of a list of nodes, without repetitions. -/
def held (p : Pane) (ids : List NodeId) : List NodeId := (ids.filter p.store.hasNode).eraseDups

/-- The list names nodes that the pane holds, each once. -/
def Selects (p : Pane) (ids : List NodeId) : Prop := ids.Nodup ∧ ∀ n ∈ ids, n ∈ p.store.nodeIds

theorem selects_held (p : Pane) (ids : List NodeId) : p.Selects (p.held ids) := by
  refine ⟨nodup_eraseDups _, fun n hn => ?_⟩
  exact Store.hasNode_iff.1 (List.mem_filter.1 (List.mem_eraseDups.1 hn)).2

theorem Selects.held_eq (h : p.Selects ids) : p.held ids = ids := by
  have hheld : ids.filter p.store.hasNode = ids :=
    List.filter_eq_self.2 fun n hn => Store.hasNode_iff.2 (h.2 n hn)
  rw [held, hheld, eraseDups_of_nodup h.1]

/-- Neighbours on the pane's timeline differ, there are at most 64 beside the present, and all name
nodes that the pane holds, each once. -/
structure Timely (p : Pane) : Prop where
  lawful : p.timeline.Lawful
  selects : ∀ ids ∈ p.timeline.line, p.Selects ids

/-- **Selecting is making a selection on the timeline.** -/
theorem Timely.select_eq (h : p.Timely) (ids : List NodeId) :
    p.select ids = p.withTimeline (p.timeline.select (p.held ids)) := by
  have hlength : p.history.past.length ≤ History.depth :=
    Nat.le_trans (Nat.le_add_right ..) h.lawful.length_le
  have hfresh : p.history.record p.selection = ⟨(p.selection :: p.history.past).take 64, []⟩ :=
    History.record_eq_take h.lawful.head?_past_ne hlength
  by_cases heq : p.held ids = p.timeline.present
  · have hsame : p.setSelection ids = p := by
      change { p with selection := p.held ids } = p
      rw [heq]
      rfl
    rw [Pane.select, hsame, if_pos rfl, Timeline.select, if_pos heq, withTimeline_timeline]
  · have hne : (p.setSelection ids).selection ≠ p.selection := heq
    rw [Pane.select, if_neg hne, Timeline.select, if_neg heq]
    simp only [setSelection, hfresh]
    rfl

/-- **Undoing is going back on the timeline.** -/
theorem Timely.undo?_eq (h : p.Timely) : p.undo? = p.timeline.back?.map p.withTimeline := by
  cases hpast : p.history.past with
  | nil => simp [Pane.undo?, History.undo?, Timeline.back?, timeline, hpast]
  | cons previous past =>
    have hkept : p.held previous = previous :=
      (h.selects previous (by simp [Timeline.line, timeline, hpast])).held_eq
    simp only [held] at hkept
    simp [Pane.undo?, History.undo?, Timeline.back?, timeline, hpast, setSelection, hkept,
      withTimeline]

/-- **Redoing is going forth on the timeline.** -/
theorem Timely.redo?_eq (h : p.Timely) : p.redo? = p.timeline.forth?.map p.withTimeline := by
  cases hfuture : p.history.future with
  | nil => simp [Pane.redo?, History.redo?, Timeline.forth?, timeline, hfuture]
  | cons next future =>
    have hkept : p.held next = next :=
      (h.selects next (by simp [Timeline.line, timeline, hfuture])).held_eq
    simp only [held] at hkept
    simp [Pane.redo?, History.redo?, Timeline.forth?, timeline, hfuture, setSelection, hkept,
      withTimeline]

theorem Timely.withTimeline (h : p.Timely) (hline : t.line = p.timeline.line) :
    (p.withTimeline t).Timely :=
  ⟨h.lawful.of_line_eq hline, fun ids hids => h.selects ids (hline ▸ hids)⟩

theorem Timely.select (h : p.Timely) (ids : List NodeId) : (p.select ids).Timely := by
  rw [h.select_eq]
  refine ⟨h.lawful.select _, fun chosen hchosen => ?_⟩
  rw [timeline_withTimeline] at hchosen
  by_cases heq : p.held ids = p.timeline.present
  · rw [Timeline.select, if_pos heq] at hchosen
    exact h.selects chosen hchosen
  · obtain ⟨kept, hsuffix, -, hline⟩ := Timeline.line_select heq
    rw [hline, List.mem_append, List.mem_singleton] at hchosen
    rcases hchosen with hkept | rfl
    · refine h.selects chosen ?_
      rw [Timeline.line, List.append_cons]
      exact List.mem_append_left _ (hsuffix.subset hkept)
    · exact p.selects_held ids

theorem Timely.undo (h : p.Timely) (hq : p.undo? = some q) : q.Timely := by
  rw [h.undo?_eq] at hq
  obtain ⟨t, ht, rfl⟩ := Option.map_eq_some_iff.1 hq
  exact h.withTimeline (Timeline.line_of_back? ht)

theorem Timely.redo (h : p.Timely) (hq : p.redo? = some q) : q.Timely := by
  rw [h.redo?_eq] at hq
  obtain ⟨t, ht, rfl⟩ := Option.map_eq_some_iff.1 hq
  exact h.withTimeline (Timeline.line_of_forth? ht)

/-- A pane may come to hold more. -/
theorem Timely.grown (h : p.Timely) (htimeline : q.timeline = p.timeline)
    (hstore : ∀ n ∈ p.store.nodeIds, n ∈ q.store.nodeIds) : q.Timely where
  lawful := htimeline ▸ h.lawful
  selects ids hids := by
    obtain ⟨hnodup, hheld⟩ := h.selects ids (htimeline ▸ hids)
    exact ⟨hnodup, fun n hn => hstore n (hheld n hn)⟩

/-- A pane in which nothing was ever selected. -/
theorem timely_of_blank (h : p.timeline = {}) : p.Timely := by
  refine ⟨⟨?_, ?_⟩, fun ids hids => ?_⟩
  all_goals rw [h] at *
  · exact List.isChain_singleton _
  · decide
  · obtain rfl : ids = [] := by simpa [Timeline.line] using hids
    exact ⟨List.nodup_nil, List.forall_mem_nil _⟩

end Pane

end StateAtlas
