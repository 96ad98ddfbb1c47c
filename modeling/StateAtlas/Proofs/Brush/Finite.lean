import StateAtlas.Proofs.Brush.Dimensions
import StateAtlas.Proofs.Decimal.Finite
/-!
Brushes whose bounds are finite.

A range with a bound that is not finite is not stored, and the extremes that are picked are readings
that are finite or points of the boolean axis.  So from a state with finite bounds no command leads to
one with others.  Where brushes took over finite states alone, all that became of them is finite.

Main statements: `Bounded.execute` and `Arises.bounded`.
-/

namespace StateAtlas

open AxisNumber

/-! ## Constraints -/

/-- Whether the bounds of a range are finite. -/
def Constraint.IsFinite : Constraint Float → Prop
  | .range lo hi _ => lo.isFinite = true ∧ hi.isFinite = true
  | .categories _ => True

theorem least_eq (x y : Float) : least x y = x ∨ least x y = y := by
  unfold least
  split
  · exact .inr rfl
  · exact .inl rfl

theorem greatest_eq (x y : Float) : greatest x y = x ∨ greatest x y = y := by
  unfold greatest
  split
  · exact .inr rfl
  · exact .inl rfl

/-- A constraint that is stored is finite. -/
theorem Brush.isFinite_of_normalize? {b : Brush Float} {key : String} {c c' : Constraint Float}
    (h : b.normalize? key c = some c') : c'.IsFinite := by
  have hkept : ∀ {drops : Bool} {c c' : Constraint Float},
      (if drops then none else some c) = some c' → c = c' := by
    intro drops c c' h
    cases drops with
    | true => nomatch h
    | false => exact Option.some.inj h
  unfold normalize? at h
  split at h
  next lo hi pinned =>
    split at h
    next => nomatch h
    next hfinite =>
      simp only [Bool.or_eq_true, Bool.not_eq_true', not_or, Bool.not_eq_false] at hfinite
      obtain ⟨hlo, hhi⟩ : lo.isFinite = true ∧ hi.isFinite = true := hfinite
      have hleast : (least lo hi).isFinite = true := by
        rcases least_eq lo hi with heq | heq <;> rw [heq] <;> assumption
      have hgreatest : (greatest lo hi).isFinite = true := by
        rcases greatest_eq lo hi with heq | heq <;> rw [heq] <;> assumption
      dsimp only at h
      split at h
      next => nomatch h
      next => exact hkept h ▸ ⟨hleast, hgreatest⟩
  next values =>
    split at h
    next => nomatch h
    next => exact hkept h ▸ trivial

/-! ## States -/

namespace BrushState

/-- Whether the bounds of all ranges are finite. -/
def IsFinite (s : BrushState Float) : Prop := ∀ e ∈ s.constraints.entries, e.2.IsFinite

variable {s : BrushState Float}

theorem isFinite_empty : ({} : BrushState Float).IsFinite := nofun

theorem IsFinite.insert (h : s.IsFinite) {c : Constraint Float} (hc : c.IsFinite) (key : String) :
    { s with constraints := s.constraints.insert key c }.IsFinite := by
  intro e he
  rcases Dictionary.fst_of_mem_insertEntry he with rfl | he
  · exact hc
  · exact h e he

theorem IsFinite.erase (h : s.IsFinite) (key : String) :
    { s with constraints := s.constraints.erase key }.IsFinite :=
  fun e he => h e (List.mem_of_mem_filter he)

theorem IsFinite.qualify (h : s.IsFinite) (old key : String) :
    (Brush.qualify s old key).IsFinite := by
  unfold Brush.qualify
  cases hold : s.constraints.get? old with
  | none => exact h
  | some c =>
    have hc : c.IsFinite := h (old, c) (Dictionary.get?_eq_some_iff.1 hold)
    simp only [Dictionary.insertIfNew]
    split
    · exact h.erase old
    · exact (h.erase old).insert hc key

end BrushState

/-! ## Brushes -/

namespace Brush

variable {b : Brush Float}

/-- Whether the bounds in a brush are finite, and boolean dimensions are laid out as such. -/
structure Bounded (b : Brush Float) : Prop where
  state : b.state.IsFinite
  dimensions : ∀ d ∈ b.dimensions, d.kind = .boolean → d.scale = .boolean

theorem Bounded.recompute (h : b.Bounded) : b.recompute.Bounded := ⟨h.state, h.dimensions⟩

theorem Bounded.runIf (h : b.Bounded) (asked : Debounce × Bool) : (b.runIf asked).1.Bounded := by
  rcases b.runIf_cases asked with ⟨-, heq⟩ | ⟨-, heq⟩ <;> rw [heq] <;> exact ⟨h.state, h.dimensions⟩

theorem Bounded.store (h : b.Bounded) (name : String) (c : Option (Constraint Float)) :
    (b.store name c).Bounded := by
  refine ⟨?_, h.dimensions⟩
  unfold Brush.store
  dsimp only
  split
  next c' hc' =>
    obtain ⟨c, -, hnormal⟩ := Option.bind_eq_some_iff.1 hc'
    exact h.state.insert (isFinite_of_normalize? hnormal) _
  next => exact h.state.erase _

theorem isFinite_adopt {s : BrushState Float} (hs : s.IsFinite) (b : Brush Float) :
    (b.adopt s).state.IsFinite := by
  have hqualified : ∀ (names : List (String × String)) {s : BrushState Float}, s.IsFinite →
      (names.foldl (fun s name => qualify s name.1 name.2) s).IsFinite := by
    intro names
    induction names with
    | nil => exact fun hs => hs
    | cons name names ih => exact fun hs => ih (hs.qualify _ _)
  exact hqualified _ hs

theorem Bounded.adopt (h : b.Bounded) {s : BrushState Float} (hs : s.IsFinite) :
    (b.adopt s).Bounded := ⟨isFinite_adopt hs b, h.dimensions⟩

theorem Bounded.projectStore (h : b.Bounded) (s : Store) (mode : DisplayMode)
    (details : DetailSelection) (schema : Schema) :
    (b.projectStore s mode details schema).Bounded := by
  refine Bounded.recompute ⟨isFinite_adopt h.state _, fun d hd hkind => ?_⟩
  obtain ⟨a, -, rfl⟩ := List.mem_map.1 hd
  unfold dimensionOf at hkind ⊢
  dsimp only at hkind ⊢
  rw [hkind]

theorem mem_of_endOf? {α : Type} {which : Extreme} {xs : List α} {x : α}
    (h : endOf? which xs = some x) : x ∈ xs := by
  cases which with
  | least => exact List.mem_of_head? h
  | greatest => exact List.mem_of_getLast? h

/-- An extreme that is picked is finite. -/
theorem Bounded.isFinite_extreme? (h : b.Bounded) {d : Dimension Float} (hd : d ∈ b.dimensions)
    {which : Extreme} {c : Constraint Float} (hc : b.extreme? d which = some c) : c.IsFinite := by
  unfold extreme? at hc
  split at hc
  next =>
    obtain ⟨v, -, hc⟩ := Option.bind_eq_some_iff.1 hc
    split at hc
    next hfinite => exact Option.some.inj hc ▸ ⟨hfinite, hfinite⟩
    next => nomatch hc
  next points hscale hkind =>
    obtain ⟨i, hi, rfl⟩ := Option.map_eq_some_iff.1 hc
    obtain rfl : points = ["false", "true"] :=
      Scale.point.inj (hscale.symm.trans (h.dimensions d hd hkind))
    obtain ⟨p, hp, rfl⟩ := List.mem_map.1 (mem_of_endOf? hi)
    have hindex : p.2 < 2 := (List.mem_zipIdx' (List.mem_of_mem_filter hp)).1
    have hfinite : (Float.ofNat p.2).isFinite = true :=
      Decimal.isFinite_ofInt (n := p.2) (Nat.lt_trans hindex (by decide))
    exact ⟨hfinite, hfinite⟩
  next =>
    obtain ⟨label, -, rfl⟩ := Option.map_eq_some_iff.1 hc
    trivial

theorem Bounded.selectExtreme? (h : b.Bounded) {b' : Brush Float} {name : String} {which : Extreme}
    (hselect : b.selectExtreme? name which = some b') : b'.Bounded := by
  obtain ⟨d, c, hd, hc, rfl⟩ := selectExtreme?_eq_some hselect
  have hstate := h.state.insert (h.isFinite_extreme? (mem_of_dimension? hd) hc) d.key
  exact Bounded.recompute ⟨hstate, h.dimensions⟩

theorem bounded_start (pane : PaneId) {s : BrushState Float} (hs : s.IsFinite) (window : Nat) :
    (start pane s window).Bounded := ⟨hs, nofun⟩

/-- **No command makes a bound infinite**, unless it takes over a state with such a bound. -/
theorem Bounded.execute (h : b.Bounded) {c : BrushCommand}
    (hc : c.Brings BrushState.IsFinite) : (b.execute c).1.Bounded := by
  cases c with
  | project s mode details schema => exact h.projectStore s mode details schema
  | replaceState state => exact (h.adopt (hc state rfl)).recompute
  | brush name c => exact (h.store name c).recompute
  | clear name => exact (h.store name none).recompute
  | clearAll => exact ⟨nofun, h.dimensions⟩
  | brushCoalesced name c now => exact (h.store name c).runIf _
  | poll now => exact h.runIf _
  | flush now => exact h.runIf _
  | selectExtreme name which =>
    rw [Brush.execute]
    split
    next b' hsome => exact h.selectExtreme? hsome
    next => exact h
  | brushPixels name p q => exact (h.store name _).recompute
  | reorder name position =>
    obtain ⟨order, heq⟩ := b.reorder_cases name position
    rw [Brush.execute, heq]
    exact ⟨h.state, h.dimensions⟩
  | resize length =>
    obtain ⟨axisLength, heq⟩ := b.resize_cases length
    rw [Brush.execute, heq]
    exact ⟨h.state, h.dimensions⟩

/-! ## Where states come from -/

/-- What can become of a brush that took over states of a kind alone: it began with nothing or with
what another such brush came to. -/
inductive Arises (Q : BrushState Float → Prop) : Brush Float → Prop
  | fresh (pane : PaneId) (window : Nat) : Arises Q (start pane {} window)
  | copied {b : Brush Float} (hb : Arises Q b) (pane : PaneId) (window : Nat) :
      Arises Q (start pane b.state window)
  | execute {b : Brush Float} (hb : Arises Q b) {c : BrushCommand} (hc : c.Brings Q) :
      Arises Q (b.execute c).1

theorem Arises.bounded {Q : BrushState Float → Prop} (hQ : ∀ s, Q s → s.IsFinite)
    (h : b.Arises Q) : b.Bounded := by
  induction h with
  | fresh pane window => exact bounded_start pane BrushState.isFinite_empty window
  | copied hb pane window ih => exact bounded_start pane ih.state window
  | execute hb hc ih => exact ih.execute fun s hs => hQ s (hc s hs)

end Brush

end StateAtlas
