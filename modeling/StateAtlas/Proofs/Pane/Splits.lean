import Mathlib.Data.List.Induction
import StateAtlas.Pane.Geometry
/-!
The split that restoring the inspector goes back to.

Giving one side the whole pane remembers the split from before, unless a split is remembered
already, and only restoring the inspector forgets it.  So what is remembered is the split at which
one side was first given the whole pane since the inspector was last restored.  Setting the split
neither remembers nor forgets anything: a split that is set while another one is remembered is not
gone back to.

Main statement: `restores_split`.
-/

namespace StateAtlas

namespace Reshaping

/-- Whether a change gives one side the whole pane. -/
def fills : Reshaping → Bool
  | .maximize | .minimize => true
  | _ => false

/-- One side was given the whole pane, and the inspector was not restored since then. -/
def Filled (changes : List Reshaping) : Prop :=
  ∃ before c after, changes = before ++ c :: after ∧ c.fills = true ∧ restore ∉ after

/-- The changes before one side was first given the whole pane since the inspector was last
restored. -/
def FirstFilled (before changes : List Reshaping) : Prop :=
  ¬Filled before ∧
    ∃ c after, changes = before ++ c :: after ∧ c.fills = true ∧ restore ∉ after

variable {c : Reshaping} {changes : List Reshaping}

theorem ne_restore_of_fills (hc : c.fills = true) : c ≠ restore := by
  rintro rfl
  cases hc

theorem filled_concat_of_fills (hc : c.fills = true) (changes : List Reshaping) :
    Filled (changes ++ [c]) :=
  ⟨changes, c, [], rfl, hc, List.not_mem_nil⟩

theorem Filled.concat (h : Filled changes) (hc : c ≠ restore) : Filled (changes ++ [c]) := by
  obtain ⟨before, x, after, rfl, hfills, hafter⟩ := h
  exact ⟨before, x, after ++ [c], by simp, hfills, by simpa [hafter] using hc.symm⟩

/-- Where one side was given the whole pane, it was given so a first time. -/
theorem Filled.exists_first (h : Filled changes) : ∃ before, FirstFilled before changes := by
  obtain ⟨before, c, after, hchanges, hfills, hafter⟩ := h
  -- By induction on what comes before: either this was the first time, or there is an earlier one.
  induction hlength : before.length using Nat.strongRecOn generalizing before c after with
  | ind n ih =>
    by_cases hfilled : Filled before
    · obtain ⟨earlier, x, rest, hbefore, hx, hrest⟩ := hfilled
      have hchanges' : changes = earlier ++ x :: (rest ++ c :: after) := by
        simp [hchanges, hbefore]
      have hafter' : restore ∉ rest ++ c :: after := by
        simpa [hrest, hafter] using (ne_restore_of_fills hfills).symm
      have hshorter : earlier.length < n := by
        rw [← hlength, hbefore, List.length_append, List.length_cons]
        omega
      exact ih _ hshorter earlier x _ hchanges' hx hafter' rfl
    · exact ⟨before, hfilled, c, after, hchanges, hfills, hafter⟩

end Reshaping

namespace Geometry

open Reshaping

/-- The geometry after several changes. -/
def reshapeAll (g : Geometry) (changes : List Reshaping) : Geometry := changes.foldl reshape g

theorem reshapeAll_append (g : Geometry) (changes changes' : List Reshaping) :
    g.reshapeAll (changes ++ changes') = (g.reshapeAll changes).reshapeAll changes' :=
  List.foldl_append

variable {g : Geometry} {c : Reshaping} {changes : List Reshaping} {split : Float}

/-! ## What is remembered -/

@[simp] theorem previousSplit_toggle (g : Geometry) : g.toggle.previousSplit = g.previousSplit := by
  unfold toggle
  split <;> rfl

@[simp] theorem previousSplit_restoreInspector (g : Geometry) :
    g.restoreInspector.previousSplit = none := by
  unfold restoreInspector
  cases h : g.previousSplit with
  | none => exact h
  | some split => rfl

/-- Only restoring forgets. -/
theorem previousSplit_reshape_of_some (h : g.previousSplit = some split) (hc : c ≠ .restore) :
    (g.reshape c).previousSplit = some split := by
  cases c with
  | maximize | minimize =>
    show some (g.previousSplit.getD g.split) = some split
    rw [h, Option.getD_some]
  | toggle => exact g.previousSplit_toggle.trans h
  | restore => exact absurd rfl hc
  | _ => exact h

/-- Only giving one side the whole pane remembers. -/
theorem previousSplit_reshape_of_none (h : g.previousSplit = none) (hc : c.fills = false) :
    (g.reshape c).previousSplit = none := by
  cases c with
  | maximize | minimize => cases hc
  | toggle => exact g.previousSplit_toggle.trans h
  | restore => exact g.previousSplit_restoreInspector
  | _ => exact h

theorem previousSplit_reshapeAll_of_some (h : g.previousSplit = some split)
    (hchanges : Reshaping.restore ∉ changes) :
    (g.reshapeAll changes).previousSplit = some split := by
  induction changes generalizing g with
  | nil => exact h
  | cons c changes ih =>
    rw [List.mem_cons, not_or] at hchanges
    exact ih (previousSplit_reshape_of_some h (Ne.symm hchanges.1)) hchanges.2

/-- Nothing is remembered as long as neither side has the whole pane. -/
theorem previousSplit_reshapeAll_of_not_filled (h : g.previousSplit = none)
    (hchanges : ¬Filled changes) : (g.reshapeAll changes).previousSplit = none := by
  induction changes using List.reverseRecOn with
  | nil => exact h
  | append_singleton changes c ih =>
    have hc : c.fills = false :=
      Bool.eq_false_iff.2 fun hc => hchanges (filled_concat_of_fills hc changes)
    rw [reshapeAll_append]
    show ((g.reshapeAll changes).reshape c).previousSplit = none
    by_cases hrestore : c = .restore
    · rw [hrestore]
      exact (g.reshapeAll changes).previousSplit_restoreInspector
    · exact previousSplit_reshape_of_none (ih fun hfilled => hchanges (hfilled.concat hrestore)) hc

/-- **What is remembered is the split at which one side was first given the whole pane.** -/
theorem previousSplit_reshapeAll_of_firstFilled (h : g.previousSplit = none)
    {before : List Reshaping} (hfirst : FirstFilled before changes) :
    (g.reshapeAll changes).previousSplit = some (g.reshapeAll before).split := by
  obtain ⟨hbefore, c, after, rfl, hfills, hafter⟩ := hfirst
  have hnone : (g.reshapeAll before).previousSplit = none :=
    previousSplit_reshapeAll_of_not_filled h hbefore
  have hsome : ((g.reshapeAll before).reshape c).previousSplit =
      some (g.reshapeAll before).split := by
    cases c with
    | maximize | minimize =>
      show some ((g.reshapeAll before).previousSplit.getD _) = _
      rw [hnone, Option.getD_none]
    | _ => cases hfills
  rw [reshapeAll_append]
  show (((g.reshapeAll before).reshape c).reshapeAll after).previousSplit = _
  exact previousSplit_reshapeAll_of_some hsome hafter

/-! ## Going back -/

/-- However often one side is given the whole pane, the same is remembered as the first time. -/
theorem exists_reshapeAll_eq_pushSplit (hne : changes ≠ [])
    (hfills : ∀ c ∈ changes, c.fills = true) (g : Geometry) :
    ∃ split, g.reshapeAll changes = g.pushSplit split := by
  induction changes generalizing g with
  | nil => exact absurd rfl hne
  | cons c changes ih =>
    obtain ⟨hc, hrest⟩ := List.forall_mem_cons.1 hfills
    obtain ⟨first, hfirst⟩ : ∃ split, g.reshape c = g.pushSplit split := by
      cases c with
      | maximize => exact ⟨1, rfl⟩
      | minimize => exact ⟨0, rfl⟩
      | _ => cases hc
    show ∃ split, (g.reshape c).reshapeAll changes = g.pushSplit split
    rw [hfirst]
    by_cases hnil : changes = []
    · exact ⟨first, by rw [hnil]; rfl⟩
    · obtain ⟨split, hsplit⟩ := ih hnil hrest (g.pushSplit first)
      exact ⟨split, hsplit⟩

/-- **Restoring the inspector goes back to the split at which one side was first given the whole
pane since the last restoration**, and not to one that was set afterwards.  Let a pane without a
remembered split be reshaped in whatever way, then its split be set, then one side be given the
whole pane once or more, and then the inspector be restored.  The share is as it was, nothing is
remembered, and the split is the one that was set, unless another one was remembered when it was
set.  So the split that was set comes back if and only if it is the one at which one side was first
given the whole pane, in case that was done before and the inspector was not restored since. -/
theorem restores_split (g : Geometry) (hg : g.previousSplit = none) (history : List Reshaping)
    (ratio width : Float) {fillings : List Reshaping} (hne : fillings ≠ [])
    (hfills : ∀ c ∈ fillings, c.fills = true) :
    let reached := g.reshapeAll history
    let set := reached.setSplit ratio width
    let restored := (set.reshapeAll fillings).restoreInspector
    restored = { reached with
      split := reached.previousSplit.getD set.split, previousSplit := none } ∧
    (reached.previousSplit = none ↔ ¬Filled history) ∧
    (restored.split = set.split ↔
      ∀ before, FirstFilled before history → (g.reshapeAll before).split = set.split) := by
  intro reached set restored
  -- However often a side is given the whole pane, only the first time can a split be remembered.
  have hrestored : restored = { reached with
      split := reached.previousSplit.getD set.split, previousSplit := none } := by
    obtain ⟨split, hsplit⟩ := exists_reshapeAll_eq_pushSplit hne hfills set
    show (set.reshapeAll fillings).restoreInspector = _
    rw [hsplit]
    rfl
  have hremembered {before : List Reshaping} (hfirst : FirstFilled before history) :
      reached.previousSplit = some (g.reshapeAll before).split :=
    previousSplit_reshapeAll_of_firstFilled hg hfirst
  refine ⟨hrestored, ⟨fun hnone hfilled => ?_, previousSplit_reshapeAll_of_not_filled hg⟩, ?_⟩
  · obtain ⟨before, hfirst⟩ := hfilled.exists_first
    rw [hremembered hfirst] at hnone
    cases hnone
  · rw [hrestored]
    show reached.previousSplit.getD set.split = set.split ↔ _
    constructor
    · intro hback before hfirst
      rwa [hremembered hfirst, Option.getD_some] at hback
    · intro hback
      by_cases hfilled : Filled history
      · obtain ⟨before, hfirst⟩ := hfilled.exists_first
        rw [hremembered hfirst, Option.getD_some]
        exact hback before hfirst
      · have hnone : reached.previousSplit = none :=
          previousSplit_reshapeAll_of_not_filled hg hfilled
        rw [hnone, Option.getD_none]

/-- The inspector was maximized and restored, the pane collapsed and opened again: the split that is
set comes back after the inspector was minimized and maximized. -/
theorem restores_split_reopened :
    let history := [Reshaping.maximize, .restore, .collapse, .expand]
    let set := (({} : Geometry).reshapeAll history).setSplit 0.5 200
    ¬Filled history ∧
      ((set.reshapeAll [.minimize, .maximize]).restoreInspector).split = set.split := by
  intro history set
  have hfills : ∀ c ∈ [Reshaping.minimize, .maximize], c.fills = true := by decide
  obtain ⟨-, hnone, hback⟩ :=
    restores_split {} rfl history 0.5 200 (List.cons_ne_nil _ _) hfills
  have hhistory : ¬Filled history := hnone.1 (by rfl)
  refine ⟨hhistory, hback.2 fun before hfirst => absurd ?_ hhistory⟩
  obtain ⟨-, c, after, hsplit⟩ := hfirst
  exact ⟨before, c, after, hsplit⟩

/-- The split is set while the inspector has the whole pane, and the inspector is then maximized
again: restoring it goes back to the split from before both. -/
theorem restores_other_split :
    let set := (({} : Geometry).reshapeAll [.maximize]).setSplit 0.5 200
    set.split = 0.5 ∧ ((set.reshapeAll [.maximize]).restoreInspector).split ≠ set.split := by
  decide +kernel

end Geometry

end StateAtlas
