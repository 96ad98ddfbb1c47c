import StateAtlas.Proofs.Decimal.Order
import StateAtlas.Proofs.Pane.Commands
/-!
Panes that are open on screen.

A pane is open unless its share is next to nothing.  Toggling a pane opens or collapses it and leaves
the other panes alone, but for one case: if the pane was the only open one, the last other pane in
display order is opened in its stead.  When no other pane is live, nothing is open afterwards.

Main statement: `toggle_leaves_open_iff`.
-/

namespace StateAtlas

/-! ## Shares -/

namespace Geometry

@[simp] theorem isCollapsed_collapse (g : Geometry) : g.collapse.isCollapsed = true := by
  show isCollapsedShare minShare = true
  decide +kernel

/-- The share that a pane comes back to is never next to nothing, whatever was remembered. -/
@[simp] theorem isCollapsed_expand (g : Geometry) : g.expand.isCollapsed = false := by
  show isCollapsedShare ((g.rememberedShare.filter fun s => 2 * minShare ≤ s).getD 1) = false
  cases hshare : g.rememberedShare.filter fun s => 2 * minShare ≤ s with
  | none => decide +kernel
  | some share =>
    have hle : 2 * minShare ≤ share := of_decide_eq_true (Option.filter_eq_some_iff.1 hshare).2
    exact decide_eq_false (Decimal.not_lt_of_le hle)

@[simp] theorem isCollapsed_toggle (g : Geometry) : g.toggle.isCollapsed = !g.isCollapsed := by
  unfold toggle
  split
  next h => rw [isCollapsed_expand, h, Bool.not_true]
  next h => rw [isCollapsed_collapse, Bool.eq_false_iff.2 h, Bool.not_false]

end Geometry

namespace PaneTable

variable {t u : PaneTable} {id k : PaneId} {rank : PaneId → Nat}

/-! ## Open panes -/

/-- Whether a pane of that name is live and open. -/
def isOpen (t : PaneTable) (id : PaneId) : Bool :=
  (t.pane? id).any fun p => !p.geometry.isCollapsed

theorem contains_of_isOpen (h : t.isOpen id = true) : t.contains id = true := by
  obtain ⟨p, hp, -⟩ := (Option.any_eq_true ..).1 h
  exact contains_of_pane? hp

theorem isOpen_reshape_of_ne (hne : id ≠ k) (f : Geometry → Geometry) :
    (t.reshape id f).isOpen k = t.isOpen k := by
  show ((t.modify id _).pane? k).any _ = _
  rw [pane?_modify, if_neg hne]
  rfl

theorem isOpen_reshape_expand (hid : t.contains id = true) :
    (t.reshape id Geometry.expand).isOpen id = true := by
  obtain ⟨p, hp⟩ := exists_pane?_iff.1 hid
  show ((t.modify id _).pane? id).any _ = true
  rw [pane?_modify, if_pos rfl, hp]
  simp

theorem isOpen_reshape_toggle (hid : t.contains id = true) :
    (t.reshape id Geometry.toggle).isOpen id = !t.isOpen id := by
  obtain ⟨p, hp⟩ := exists_pane?_iff.1 hid
  show ((t.modify id _).pane? id).any _ = _
  rw [pane?_modify, if_pos rfl, isOpen, hp]
  simp

theorem all_isCollapsed_iff :
    (t.live.values.all fun p => p.geometry.isCollapsed) = true ↔ ∀ k, t.isOpen k = false := by
  rw [List.all_eq_true]
  constructor
  · intro hall k
    cases hp : t.pane? k with
    | none => rw [isOpen, hp, Option.any_none]
    | some p =>
      have hmem : p ∈ t.live.values :=
        List.mem_map_of_mem (Dictionary.get?_eq_some_iff.1 hp)
      rw [isOpen, hp, Option.any_some, hall p hmem, Bool.not_true]
  · intro hnone p hp
    obtain ⟨e, he, rfl⟩ := List.mem_map.1 hp
    have hget : t.pane? e.1 = some e.2 := Dictionary.get?_eq_some_iff.2 he
    have hclosed := hnone e.1
    rw [isOpen, hget, Option.any_some] at hclosed
    simpa using hclosed

/-! ## Toggling -/

/-- The pane is open, and no other one is. -/
def OnlyOpen (t : PaneTable) (id : PaneId) : Prop := ∀ k, t.isOpen k = true ↔ k = id

/-- The last pane in display order other than a given one. -/
def lastOther? (t : PaneTable) (id : PaneId) : Option PaneId :=
  (t.ids.filter fun other => other ≠ id).getLast?

theorem onlyOpen_iff (hid : t.contains id = true) :
    t.OnlyOpen id ↔ ∀ k, (t.reshape id Geometry.toggle).isOpen k = false := by
  constructor
  · intro honly k
    by_cases hk : id = k
    · subst hk
      rw [isOpen_reshape_toggle hid, (honly id).2 rfl, Bool.not_true]
    · rw [isOpen_reshape_of_ne hk]
      exact Bool.eq_false_iff.2 fun hopen => hk ((honly k).1 hopen).symm
  · intro hnone k
    constructor
    · intro hopen
      by_contra hk
      have hclosed := hnone k
      rw [isOpen_reshape_of_ne (Ne.symm hk), hopen] at hclosed
      exact Bool.noConfusion hclosed
    · rintro rfl
      have hclosed := hnone k
      rw [isOpen_reshape_toggle hid] at hclosed
      simpa using hclosed

/-- A live pane can be toggled; if nothing is open then, the last other pane is opened. -/
theorem toggle_eq (hid : t.contains id = true) :
    t.toggle id = .ok (
      let toggled := t.reshape id Geometry.toggle
      if toggled.live.values.all fun p => p.geometry.isCollapsed then
        (t.lastOther? id).elim toggled fun other => toggled.reshape other Geometry.expand
      else toggled) := by
  obtain ⟨p, hp⟩ := exists_pane?_iff.1 hid
  have hlastOther : ((t.reshape id Geometry.toggle).ids.filter fun other => other ≠ id).getLast? =
      t.lastOther? id := rfl
  unfold toggle arrange
  rw [get_eq_ok.2 hp]
  dsimp only [bind, Except.bind, pure, Except.pure]
  rw [hlastOther]
  split
  · cases t.lastOther? id <;> rfl
  · rfl

/-- Another pane than a given one is live just when there is a last such pane. -/
theorem Linked.lastOther?_eq_none_iff (h : t.Linked rank) :
    t.lastOther? id = none ↔ ∀ k, t.contains k = true → k = id := by
  rw [lastOther?, List.getLast?_eq_none_iff, List.filter_eq_nil_iff]
  simp only [h.mem_ids, decide_eq_true_eq, not_not]

theorem Linked.lastOther?_eq_some (h : t.Linked rank) {other : PaneId}
    (hlast : t.lastOther? id = some other) : t.contains other = true ∧ other ≠ id := by
  have hmem := List.mem_filter.1 (List.mem_of_getLast? hlast)
  exact ⟨(h.mem_ids other).1 hmem.1, of_decide_eq_true hmem.2⟩

/-- **Which panes are open after one was toggled.** -/
theorem Linked.isOpen_toggle (h : t.Linked rank) (hid : t.contains id = true) :
    ∃ u, t.toggle id = .ok u ∧ (u.isOpen id = !t.isOpen id) ∧
      ∀ other, other ≠ id → (u.isOpen other = true ↔
        t.isOpen other = true ∨ t.OnlyOpen id ∧ t.lastOther? id = some other) := by
  refine ⟨_, toggle_eq hid, ?_⟩
  dsimp only
  have hself := isOpen_reshape_toggle hid
  have hothers : ∀ other, other ≠ id →
      (t.reshape id Geometry.toggle).isOpen other = t.isOpen other :=
    fun other hother => isOpen_reshape_of_ne hother.symm _
  -- Toggling the only open pane leaves all panes collapsed, and then another one is opened.
  by_cases honly : t.OnlyOpen id
  · rw [if_pos (all_isCollapsed_iff.2 ((onlyOpen_iff hid).1 honly))]
    cases hlast : t.lastOther? id with
    | none =>
      refine ⟨hself, fun other hother => ?_⟩
      simp [hothers other hother]
    | some last =>
      obtain ⟨hlive, hne⟩ := h.lastOther?_eq_some hlast
      have hlive' : (t.reshape id Geometry.toggle).contains last = true := by
        rw [(SameWork.reshape t id _).contains]
        exact hlive
      rw [Option.elim_some]
      refine ⟨?_, fun other hother => ?_⟩
      · rw [isOpen_reshape_of_ne hne, hself]
      · by_cases hsame : last = other
        · subst hsame
          simp [isOpen_reshape_expand hlive', honly]
        · rw [isOpen_reshape_of_ne hsame, hothers other hother]
          simp [hsame]
  · rw [if_neg fun hall => honly ((onlyOpen_iff hid).2 (all_isCollapsed_iff.1 hall))]
    refine ⟨hself, fun other hother => ?_⟩
    simp [hothers other hother, honly]

/-- **Toggling leaves a pane open, unless it collapses the only one.**  Whatever was done to a table,
any live pane can be toggled.  Afterwards some live pane is open, except if the pane was open and no
other one is live.  The pane itself is open just when it was not; any other pane is open just when it
was, but that the last one of them in display order is opened if the pane was the only open one. -/
theorem toggle_leaves_open_iff (maxPanes brushWindow : Nat) (bus : Bus) (actions : List Action)
    (id : PaneId) :
    let t := PaneTable.actAll { start maxPanes brushWindow with bus } actions
    t.contains id = true → ∃ u, t.toggle id = .ok u ∧
      ((∃ k, u.isOpen k = true) ↔
        t.isOpen id = false ∨ ∃ other, other ≠ id ∧ t.contains other = true) ∧
      (u.isOpen id = !t.isOpen id) ∧
      ∀ other, other ≠ id → (u.isOpen other = true ↔ t.isOpen other = true ∨
        t.OnlyOpen id ∧ t.lastOther? id = some other) := by
  intro t hid
  obtain ⟨rank, h⟩ := (wellFormed_start maxPanes brushWindow bus fun _ => 0).actAll actions
  obtain ⟨u, htoggle, hself, hothers⟩ := h.rooted.linked.isOpen_toggle hid
  refine ⟨u, htoggle, ⟨?_, ?_⟩, hself, hothers⟩
  · rintro ⟨k, hk⟩
    by_cases hsame : k = id
    · subst hsame
      rw [hself] at hk
      exact .inl (by simpa using hk)
    · rcases (hothers k hsame).1 hk with hopen | ⟨-, hlast⟩
      · exact .inr ⟨k, hsame, contains_of_isOpen hopen⟩
      · exact .inr ⟨k, hsame, (h.rooted.linked.lastOther?_eq_some hlast).1⟩
  · rintro (hclosed | ⟨other, hother, hlive⟩)
    · exact ⟨id, by rw [hself, hclosed, Bool.not_false]⟩
    · by_cases honly : t.OnlyOpen id
      · cases hlast : t.lastOther? id with
        | none => exact absurd (h.rooted.linked.lastOther?_eq_none_iff.1 hlast other hlive) hother
        | some last =>
          have hne := (h.rooted.linked.lastOther?_eq_some hlast).2
          exact ⟨last, (hothers last hne).2 (.inr ⟨honly, hlast⟩)⟩
      · -- Either the pane was collapsed, or another one was open.
        cases hopen : t.isOpen id with
        | false => exact ⟨id, by rw [hself, hopen, Bool.not_false]⟩
        | true =>
          obtain ⟨k, hk⟩ := not_forall.1 honly
          have hne : k ≠ id := by
            rintro rfl
            exact hk (iff_of_true hopen rfl)
          have hkopen : t.isOpen k = true := by
            by_contra hclosed
            exact hk (iff_of_false hclosed hne)
          exact ⟨k, (hothers k hne).2 (.inl hkopen)⟩

/-- Of two panes the primary one was collapsed to be kept out of the way. -/
def oneAside : List Action :=
  [.command (.spawn {}),
    .command (.spawn { spawner := some ⟨"pane-0"⟩ }),
    .command (.arrange ⟨"pane-0"⟩ fun g => (g.resize 0).collapse)]

/-- The only open one of two panes is toggled; the other one comes back. -/
theorem toggle_leaves_open_other :
    let t := PaneTable.actAll { start 8 0 with bus := {} } oneAside
    t.contains ⟨"pane-1"⟩ = true ∧ ∃ u, t.toggle ⟨"pane-1"⟩ = .ok u ∧
      u.isOpen ⟨"pane-1"⟩ = false ∧ ∃ k, u.isOpen k = true := by
  intro t
  have hid : t.contains ⟨"pane-1"⟩ = true := by decide +kernel
  have hopen : t.isOpen ⟨"pane-1"⟩ = true := by decide +kernel
  have hother : t.contains ⟨"pane-0"⟩ = true := by decide +kernel
  obtain ⟨u, htoggle, hleaves, hself, -⟩ := toggle_leaves_open_iff 8 0 {} oneAside ⟨"pane-1"⟩ hid
  exact ⟨hid, u, htoggle, hself.trans (by rw [hopen]; rfl),
    hleaves.2 (.inr ⟨_, by decide, hother⟩)⟩

/-- **The only pane is collapsed when it is toggled**, and then nothing is open. -/
theorem toggle_collapses_all :
    let t := PaneTable.actAll { start 8 0 with bus := {} } [.command (.spawn {})]
    t.contains ⟨"pane-0"⟩ = true ∧
      ∃ u, t.toggle ⟨"pane-0"⟩ = .ok u ∧ ∀ k, u.isOpen k = false := by
  intro t
  have hid : t.contains ⟨"pane-0"⟩ = true := by decide +kernel
  have hcollapsed : ((t.reshape ⟨"pane-0"⟩ Geometry.toggle).live.values.all fun p =>
      p.geometry.isCollapsed) = true := by decide +kernel
  have hlast : t.lastOther? ⟨"pane-0"⟩ = none := by decide +kernel
  refine ⟨hid, t.reshape ⟨"pane-0"⟩ Geometry.toggle, ?_, all_isCollapsed_iff.1 hcollapsed⟩
  rw [toggle_eq hid]
  dsimp only
  rw [if_pos hcollapsed, hlast, Option.elim_none]

end PaneTable

end StateAtlas
