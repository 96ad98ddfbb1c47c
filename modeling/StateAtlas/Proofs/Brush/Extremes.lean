import StateAtlas.Proofs.Brush.Axes
import StateAtlas.Proofs.Brush.Coalescing
import StateAtlas.Proofs.Brush.Finite
import StateAtlas.Proofs.Brush.Truth
/-!
Picking the extremes of a dimension.

The extreme of a numeric axis is the least or the greatest number that the rows show, that of a
nominal axis the first or the last label, and that of a boolean axis the first or the last of the
truth values that are shown as labels.  A number is pinned as a range without width and a label as a
set of one, and these admit just the readings at the extreme.  A truth value is pinned as its
number, which admits just the readings at the extreme as long as they are plain.

Main statement: `selects_extreme`.
-/

namespace StateAtlas

open AxisNumber Reading

/-! ## Numbers at an end -/

/-- Whether a number is at least as far towards an end as another. -/
def leads (which : Extreme) (x y : Float) : Bool :=
  match which with
  | .least => le x y
  | .greatest => le y x

/-- Of two numbers the one that is further towards an end. -/
def leader (which : Extreme) : Float → Float → Float :=
  match which with
  | .least => least
  | .greatest => greatest

/-- The number of a list at an end. -/
def leader? (which : Extreme) : List Float → Option Float :=
  match which with
  | .least => least?
  | .greatest => greatest?

/-- No number of a list is further towards an end. -/
structure IsEnd (which : Extreme) (xs : List Float) (x : Float) : Prop where
  number : le x x = true
  leads : ∀ y ∈ xs, le y y = true → leads which x y = true

variable {which : Extreme} {x y z : Float} {xs : List Float}

theorem leads_trans (h : leads which x y = true) (h' : leads which y z = true) :
    leads which x z = true := by
  cases which with
  | least => exact le_trans_float h h'
  | greatest => exact le_trans_float h' h

theorem leads_self (hx : le x x = true) : leads which x x = true := by
  cases which <;> exact hx

/-- The leader of two numbers is one of them and leads both. -/
theorem leader_cases (which : Extreme) (hx : le x x = true) (hy : le y y = true) :
    (leader which x y = x ∨ leader which x y = y) ∧
      leads which (leader which x y) x = true ∧ leads which (leader which x y) y = true := by
  have htotal : le x y = true ∨ le y x = true :=
    le_or_le_of_isNaN (isNaN_of_le hx).1 (isNaN_of_le hy).1
  cases which <;>
    simp only [leader, leads, least, greatest, lt, hx, Bool.not_true, Bool.false_or] <;>
    cases hxy : le x y <;> cases hyx : le y x <;> simp [hx, hy, hxy, hyx] at htotal ⊢

theorem foldl_leader (which : Extreme) (hx : le x x = true)
    (hxs : ∀ y ∈ xs, le y y = true) :
    let z := xs.foldl (leader which) x
    (z = x ∨ z ∈ xs) ∧ leads which z x = true ∧ ∀ y ∈ xs, leads which z y = true := by
  induction xs generalizing x with
  | nil => exact ⟨.inl rfl, leads_self hx, nofun⟩
  | cons y xs ih =>
    obtain ⟨hy, hxs⟩ := List.forall_mem_cons.1 hxs
    obtain ⟨hone, hfirst, hsecond⟩ := leader_cases which hx hy
    have hnumber : le (leader which x y) (leader which x y) = true := by
      rcases hone with heq | heq <;> rw [heq] <;> assumption
    obtain ⟨hmem, hlead, hrest⟩ := ih hnumber hxs
    refine ⟨?_, leads_trans hlead hfirst, List.forall_mem_cons.2 ⟨leads_trans hlead hsecond, hrest⟩⟩
    rcases hmem with heq | hmem
    · rcases hone with hone | hone
      · exact .inl (heq.trans hone)
      · exact .inr (List.mem_cons.2 (.inl (heq.trans hone)))
    · exact .inr (List.mem_cons_of_mem _ hmem)

theorem exists_foldl_of_leader? (h : leader? which xs = some x) : ∃ y rest,
    xs.filter (fun x => le x x) = y :: rest ∧ x = rest.foldl (leader which) y := by
  cases which <;> simp only [leader?, least?, greatest?] at h <;> split at h <;> cases h <;>
    exact ⟨_, _, by assumption, rfl⟩

/-- **The leader of a list is one of its numbers and leads all of them.** -/
theorem isEnd_of_leader? (h : leader? which xs = some x) : x ∈ xs ∧ IsEnd which xs x := by
  obtain ⟨y, rest, hfilter, rfl⟩ := exists_foldl_of_leader? h
  have hmem {z : Float} : z ∈ y :: rest ↔ z ∈ xs ∧ le z z = true := by
    rw [← hfilter, List.mem_filter]
  obtain ⟨hone, hlead, hrest⟩ := foldl_leader which (hmem.1 List.mem_cons_self).2
    fun z hz => (hmem.1 (List.mem_cons_of_mem _ hz)).2
  obtain ⟨hx, hnumber⟩ := hmem.1 (List.mem_cons.2 hone)
  refine ⟨hx, hnumber, fun z hz hnumber => ?_⟩
  rcases List.mem_cons.1 (hmem.2 ⟨hz, hnumber⟩) with rfl | hz
  · exact hlead
  · exact hrest z hz

/-- Numbers that are equal to the leader stand at the end, and no others. -/
theorem isEnd_iff (h : leader? which xs = some x) (hy : y ∈ xs) :
    IsEnd which xs y ↔ equal x y = true := by
  obtain ⟨hx, hend⟩ := isEnd_of_leader? h
  constructor
  · intro hy'
    have hxy := hend.leads y hy hy'.number
    have hyx := hy'.leads x hx hend.number
    cases which <;> simp_all [equal, leads]
  · intro hequal
    obtain ⟨hxy, hyx⟩ := Bool.and_eq_true_iff.1 hequal
    refine ⟨le_trans_float hyx hxy, fun z hz hnumber => ?_⟩
    refine leads_trans ?_ (hend.leads z hz hnumber)
    cases which <;> assumption

namespace Brush

variable {b b' : Brush Float} {d : Dimension Float} {r : Row Float}

/-- Whether a row shows a label under a key. -/
def showsLabel (b : Brush Float) (key label : String) : Bool :=
  b.rows.any fun r => (r.values.get? key).any fun v => v.label = label

/-- Whether a reading is the extreme of a dimension: the least or the greatest number that is shown,
the first or the last truth value that is shown as a label, or the first or the last label that is
shown. -/
def AtExtreme (b : Brush Float) (d : Dimension Float) (which : Extreme) (v : Reading Float) :
    Prop :=
  match d.kind with
  | .numeric => ∃ x, v.ordinal? = some x ∧ IsEnd which (b.ordinals d.key) x
  | .boolean => endOf? which (["false", "true"].filter (b.showsLabel d.key)) = some v.label
  | .nominal => endOf? which (b.labels d.key) = some v.label

/-- Whether every constraint but that on a dimension admits a row. -/
def AdmitsElse (b : Brush Float) (d : Dimension Float) (r : Row Float) : Prop :=
  ∀ key c, b.state.constraints.get? key = some c → key ≠ d.key →
    (r.values.get? key).any c.admits = true

/-- Whether the rows that are selected are those at the extreme of a dimension that every other
constraint admits. -/
def SelectsExtreme (b b' : Brush Float) (d : Dimension Float) (which : Extreme) : Prop :=
  ∀ r, r ∈ b'.linked.rows ↔ r ∈ b.rows ∧ b.AdmitsElse d r ∧
    ∃ v, r.values.get? d.key = some v ∧ b.AtExtreme d which v

/-! ## The constraint that is stored -/

section

variable {c : Constraint Float} (hb : b.LaidOut) (hd : d ∈ b.dimensions)
  (hc : b.extreme? d which = some c)

include hb hd hc

/-- A number is pinned that leads all that the rows show. -/
theorem extreme?_numeric (hkind : d.kind = .numeric) :
    ∃ x, leader? which (b.ordinals d.key) = some x ∧ c = .range x x true := by
  obtain ⟨declared, hscale⟩ := hb.scale_numeric hd hkind
  rw [extreme?, hscale] at hc
  obtain ⟨x, hx, hc⟩ := Option.bind_eq_some_iff.1 hc
  refine ⟨x, by cases which <;> exact hx, ?_⟩
  split at hc
  next => exact (Option.some.inj hc).symm
  next => cases hc

theorem extreme?_nominal (hkind : d.kind = .nominal) :
    ∃ label, endOf? which (b.labels d.key) = some label ∧ c = .oneOf [label] := by
  rw [extreme?, hb.scale_nominal hd hkind, hkind] at hc
  obtain ⟨label, hlabel, hc⟩ := Option.map_eq_some_iff.1 hc
  exact ⟨label, hlabel, hc.symm⟩

/-- A truth value is pinned that is shown as a label. -/
theorem extreme?_boolean (hkind : d.kind = .boolean) :
    ∃ t, endOf? which (["false", "true"].filter (b.showsLabel d.key)) = some (truthLabel t) ∧
      c = .range (truthNumber t) (truthNumber t) true := by
  rw [extreme?, hb.scale_boolean hd hkind, hkind] at hc
  obtain ⟨i, hi, rfl⟩ := Option.map_eq_some_iff.1 hc
  have hshown : b.shownPoints d.key ["false", "true"] =
      ([false, true].filter fun t => b.showsLabel d.key (truthLabel t)).map
        fun t => if t then 1 else 0 := by
    rw [shownPoints, zipIdx_truthLabels, List.filter_map, List.map_map]
    rfl
  have hlabels : ["false", "true"].filter (b.showsLabel d.key) =
      ([false, true].filter fun t => b.showsLabel d.key (truthLabel t)).map truthLabel := by
    rw [show ["false", "true"] = [false, true].map truthLabel from rfl, List.filter_map]
    rfl
  rw [hshown] at hi
  rw [hlabels]
  generalize [false, true].filter (fun t => b.showsLabel d.key (truthLabel t)) = ts at hi ⊢
  have hend {β : Type} (f : Bool → β) : endOf? which (ts.map f) = (endOf? which ts).map f := by
    cases which <;> simp [endOf?]
  rw [hend] at hi ⊢
  obtain ⟨t, ht, rfl⟩ := Option.map_eq_some_iff.1 hi
  exact ⟨t, by rw [ht]; rfl, by cases t <;> rfl⟩

/-- Apart from boolean dimensions, the constraint admits the readings at the extreme. -/
theorem admits_iff_atExtreme (hkind : d.kind ≠ .boolean) {v : Reading Float}
    (hv : v ∈ b.readings d.key) : c.admits v = true ↔ b.AtExtreme d which v := by
  cases hkind' : d.kind with
  | boolean => exact absurd hkind' hkind
  | numeric =>
    obtain ⟨x, hx, rfl⟩ := extreme?_numeric hb hd hc hkind'
    have hadmits : (Constraint.range x x true).admits v = v.ordinal?.any (equal x) := rfl
    rw [hadmits, Option.any_eq_true, AtExtreme, hkind']
    refine exists_congr fun y => and_congr_right fun hy => ?_
    have hmem : y ∈ b.ordinals d.key := by
      rw [ordinals_eq]
      exact List.mem_filterMap.2 ⟨v, hv, hy⟩
    exact (isEnd_iff hx hmem).symm
  | nominal =>
    obtain ⟨label, hlabel, rfl⟩ := extreme?_nominal hb hd hc hkind'
    have hadmits : (Constraint.oneOf [label] : Constraint Float).admits v = true ↔
        v.label ∈ [label] := OrderedSet.contains_ofList [label] v.label
    rw [hadmits, List.mem_singleton, AtExtreme, hkind']
    show v.label = label ↔ endOf? which (b.labels d.key) = some v.label
    rw [hlabel, Option.some.injEq, eq_comm]

/-- Some row shows the extreme. -/
theorem exists_atExtreme : ∃ v ∈ b.readings d.key, b.AtExtreme d which v := by
  cases hkind : d.kind with
  | numeric =>
    obtain ⟨x, hx, -⟩ := extreme?_numeric hb hd hc hkind
    obtain ⟨hmem, hend⟩ := isEnd_of_leader? hx
    rw [ordinals_eq] at hmem
    obtain ⟨v, hv, hordinal⟩ := List.mem_filterMap.1 hmem
    refine ⟨v, hv, ?_⟩
    rw [AtExtreme, hkind]
    exact ⟨x, hordinal, hend⟩
  | nominal =>
    obtain ⟨label, hlabel, -⟩ := extreme?_nominal hb hd hc hkind
    obtain ⟨v, hv, rfl⟩ := List.mem_map.1 (List.mem_eraseDups.1 (mem_of_endOf? hlabel))
    refine ⟨v, hv, ?_⟩
    rw [AtExtreme, hkind]
    exact hlabel
  | boolean =>
    obtain ⟨t, ht, -⟩ := extreme?_boolean hb hd hc hkind
    have hshown := (List.mem_filter.1 (mem_of_endOf? ht)).2
    simp only [showsLabel, List.any_eq_true, Option.any_eq_true, decide_eq_true_eq] at hshown
    obtain ⟨r, hr, v, hv, hlabel⟩ := hshown
    refine ⟨v, mem_readings_iff.2 ⟨r, hr, hv⟩, ?_⟩
    rw [AtExtreme, hkind, hlabel]
    exact ht

end

/-! ## The selection -/

/-- Recomputing a brush with other constraints selects the rows that all of them admit. -/
theorem mem_linked_recompute (hnodup : (b.rows.map Row.id).Nodup) (state : BrushState Float) :
    r ∈ ({ b with state } : Brush Float).recompute.linked.rows ↔
      r ∈ b.rows ∧ ∀ key c, state.constraints.get? key = some c →
        (r.values.get? key).any c.admits = true := by
  let changed : Brush Float := { b with state }
  show r ∈ b.rows.filter (fun r => changed.recompute.selected.contains r.id) ↔ _
  rw [List.mem_filter]
  refine and_congr_right fun hr => ?_
  rw [contains_selected (b := changed.recompute) hnodup changed.selected_recompute hr, admitsRow_iff,
    Admits]
  simp only [← Dictionary.get?_eq_some_iff, ← Option.any_eq_true]
  rfl

/-- Storing a constraint on a dimension selects the rows that it and all others admit. -/
theorem mem_linked_insert (hnodup : (b.rows.map Row.id).Nodup) (d : Dimension Float)
    (c : Constraint Float) : r ∈ ({ b with
      state := { b.state with constraints := b.state.constraints.insert d.key c } } :
        Brush Float).recompute.linked.rows ↔
      r ∈ b.rows ∧ b.AdmitsElse d r ∧ (r.values.get? d.key).any c.admits = true := by
  rw [mem_linked_recompute hnodup]
  simp only [Dictionary.get?_insert]
  refine and_congr_right fun hr => ?_
  constructor
  · intro h
    refine ⟨fun key c' hget hne => h key c' ?_, h d.key c (by simp)⟩
    rwa [if_neg (Ne.symm hne)]
  · rintro ⟨helse, hrow⟩ key c' hget
    split at hget
    next hkey =>
      cases hget
      exact hkey ▸ hrow
    next hne => exact helse key c' hget (Ne.symm hne)

/-- Dropping the constraint of a dimension selects the rows that all others admit. -/
theorem mem_linked_erase (hnodup : (b.rows.map Row.id).Nodup) (d : Dimension Float) :
    r ∈ ({ b with
      state := { b.state with constraints := b.state.constraints.erase d.key } } :
        Brush Float).recompute.linked.rows ↔ r ∈ b.rows ∧ b.AdmitsElse d r := by
  rw [mem_linked_recompute hnodup]
  simp only [Dictionary.get?_erase, AdmitsElse]
  refine and_congr_right fun _ => forall₂_congr fun key c => ?_
  by_cases hkey : d.key = key
  · simp [hkey]
  · simp [hkey, Ne.symm hkey]

theorem nodup_rows_run {b : Brush Float} (h : (b.rows.map Row.id).Nodup)
    (commands : List BrushCommand) : ((b.run commands).rows.map Row.id).Nodup := by
  induction commands generalizing b with
  | nil => exact h
  | cons c commands ih => exact ih (BrushLog.nodup_rows_execute h c)

/-- **Picking an extreme selects the rows at the extreme, as long as readings are plain.**  Whatever
was asked of a brush: if no extreme is picked, nothing changes.  If one is picked, the answer is the
selection, and some row shows the extreme.  Unless the dimension is boolean, just those rows are
selected that show the extreme and that every other constraint admits.  If it is boolean, the
extreme is a truth value, and just those rows are selected if and only if each row that every other
constraint admits shows a truth value there or a reading that passes for the extreme neither as it
is written nor as a number.  If just those rows are selected and nothing else is constrained,
something is selected. -/
theorem selects_extreme (pane : PaneId) (state : BrushState Float) (window : Nat)
    (commands : List BrushCommand) :
    let b := (start pane state window).run commands
    ∀ name which,
      (b.selectExtreme? name which = none → b.execute (.selectExtreme name which) = (b, none)) ∧
      ∀ b', b.selectExtreme? name which = some b' →
        b.execute (.selectExtreme name which) = (b', some b'.linked) ∧
        b'.linked.ids = b'.selected ∧
        ∃ d, b.dimension? name = some d ∧ (∃ v ∈ b.readings d.key, b.AtExtreme d which v) ∧
          (d.kind ≠ .boolean → b.SelectsExtreme b' d which) ∧
          (d.kind = .boolean → ∃ t, (∀ v, b.AtExtreme d which v ↔ v.label = truthLabel t) ∧
            (b.SelectsExtreme b' d which ↔ ∀ r ∈ b.rows, b.AdmitsElse d r →
              ∀ v, r.values.get? d.key = some v → v.Plain t)) ∧
          (b.SelectsExtreme b' d which → (∀ key ∈ b.state.constraints.keys, key = d.key) →
            b'.selected ≠ []) := by
  intro b name which
  have hb : b.LaidOut := ((Reached.start pane state window).run commands).laidOut
  have hnodup : (b.rows.map Row.id).Nodup :=
    nodup_rows_run (b := start pane state window) List.nodup_nil commands
  refine ⟨fun hnone => by rw [execute, hnone], fun b' hselect => ?_⟩
  have hexecute : b.execute (.selectExtreme name which) = (b', some b'.linked) := by
    rw [execute, hselect]
    rfl
  obtain ⟨d, c, hname, hc, heq⟩ := selectExtreme?_eq_some hselect
  have hd : d ∈ b.dimensions := mem_of_dimension? hname
  have hlinked : ∀ r, r ∈ b'.linked.rows ↔ r ∈ b.rows ∧ b.AdmitsElse d r ∧
      (r.values.get? d.key).any c.admits = true := by
    intro r
    rw [heq]
    exact mem_linked_insert hnodup d c
  have hids : b'.linked.ids = b'.selected := by
    rw [heq]
    exact ids_linked_recompute hnodup
  -- What is selected and what should be differ only in how readings are tested.
  have hexact : b.SelectsExtreme b' d which ↔ ∀ r ∈ b.rows, b.AdmitsElse d r →
      ∀ v, r.values.get? d.key = some v → (c.admits v = true ↔ b.AtExtreme d which v) := by
    simp only [SelectsExtreme, hlinked, and_congr_right_iff, Option.any_eq_true]
    refine forall₃_congr fun r _ _ => ?_
    cases r.values.get? d.key with
    | none => simp
    | some v => simp
  obtain ⟨v, hv, hextreme⟩ := exists_atExtreme hb hd hc
  refine ⟨hexecute, hids, d, hname, ⟨v, hv, hextreme⟩, fun hkind => ?_, fun hkind => ?_,
    fun hselects hfree hempty => ?_⟩
  · exact hexact.2 fun r hr _ v hv =>
      admits_iff_atExtreme hb hd hc hkind (mem_readings_iff.2 ⟨r, hr, hv⟩)
  · obtain ⟨t, ht, rfl⟩ := extreme?_boolean hb hd hc hkind
    have hat (v : Reading Float) : b.AtExtreme d which v ↔ v.label = truthLabel t := by
      rw [AtExtreme, hkind]
      show endOf? which _ = some v.label ↔ _
      rw [ht, Option.some.injEq, eq_comm]
    refine ⟨t, hat, hexact.trans ?_⟩
    refine forall₃_congr fun r _ _ => forall₂_congr fun v _ => ?_
    rw [hat]
    exact iff_comm.trans (label_eq_iff_countsAs_iff t v)
  · obtain ⟨r, hr, hvalue⟩ := mem_readings_iff.1 hv
    have helse : b.AdmitsElse d r := fun key c hget hne =>
      absurd (hfree key (Dictionary.mem_keys_iff.2 (Option.isSome_iff_exists.2 ⟨c, hget⟩))) hne
    have hmem : r ∈ b'.linked.rows := (hselects r).2 ⟨hr, helse, v, hvalue, hextreme⟩
    rw [← hids, LinkedSelection.ids, List.map_eq_nil_iff] at hempty
    exact absurd (hempty ▸ hmem) List.not_mem_nil

/-- A boolean axis of the text `true`: the greatest value is picked, nothing else is constrained,
and nothing is selected. -/
theorem selects_nothing :
    let n : Node :=
      { id := ⟨"x"⟩, kind := .state
        attributes := .ofList [("v", .ofList [("on", .text "true")])] }
    let schema : Schema := .ofList [("v", .ofList [("on", { type := some "boolean" })])]
    let b := (start ⟨"pane-0"⟩ {} 0).run [.project (.ofFragment ⟨[n], []⟩) .states {} schema]
    b.state.constraints.keys = [] ∧
      ∃ b', b.selectExtreme? "on" .greatest = some b' ∧ b'.selected = [] := by
  intro n schema b
  have hpicked : ((b.selectExtreme? "on" .greatest).any fun b' => b'.selected = []) = true := by
    decide +kernel
  obtain ⟨b', hb', hempty⟩ := (Option.any_eq_true ..).1 hpicked
  exact ⟨by decide +kernel, b', hb', of_decide_eq_true hempty⟩

end Brush

end StateAtlas
