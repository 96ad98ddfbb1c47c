import StateAtlas.Proofs.Brush.Display
/-!
Where a dimension comes to stand that is moved.

Dimensions are moved in the display order.  It holds the keys of hidden dimensions, too, and these
take up positions there although nobody sees them.  So the position that is asked for is counted in
the display order, and the dimension stands in the display after those of the dimensions before it
that are displayed.  That is the position that was asked for unless a hidden key stands among those
that are passed over and a dimension that is displayed comes after them.

Whatever the position, the others stay in the order in which they were, and constraints and
selection stay as they were.

Main statement: `moves_past_listed`.
-/

namespace StateAtlas.Brush

section

variable {α : Type} {b : Brush α} {d : Dimension α} {position : Nat}

/-- A name of the display order is the key of a dimension, and so takes up a position in the
display. -/
def lists (b : Brush α) (key : String) : Bool := (b.dimensions.map Dimension.key).contains key

theorem lists_key (hd : d ∈ b.dimensions) : b.lists d.key = true :=
  List.contains_iff_mem.2 (List.mem_map_of_mem hd)

/-- What is displayed are the dimensions whose keys the display order holds, in its order. -/
theorem map_key_displayed (b : Brush α) :
    b.displayed.map Dimension.key = b.state.order.filter b.lists := by
  have hguard : (fun key => (b.dimensions.find? fun d => d.key = key).map Dimension.key) =
      Option.guard b.lists := by
    funext key
    cases hfind : b.dimensions.find? fun d => d.key = key with
    | none =>
      have hnot : b.lists key = false := by
        rw [← Bool.not_eq_true, lists, List.contains_iff_mem, List.mem_map]
        rintro ⟨d, hd, rfl⟩
        simpa using List.find?_eq_none.1 hfind d hd
      simp [Option.guard, hnot]
    | some d =>
      obtain rfl : d.key = key := by simpa using List.find?_some hfind
      simp [Option.guard, lists_key (List.mem_of_find?_eq_some hfind)]
  rw [displayed, List.map_filterMap, hguard, List.filterMap_eq_filter]

/-- The other names in the display order. -/
def otherNames (b : Brush α) (d : Dimension α) : List String := b.state.order.erase d.key

/-- How many dimensions are displayed among the first of the other names. -/
def passed (b : Brush α) (d : Dimension α) (position : Nat) : Nat :=
  ((b.otherNames d).take position).countP b.lists

/-- No hidden key is passed over, or nothing is displayed after those that are passed over. -/
def Clear (b : Brush α) (d : Dimension α) (position : Nat) : Prop :=
  (∀ key ∈ (b.otherNames d).take position, b.lists key = true) ∨
    ∀ key ∈ (b.otherNames d).drop position, b.lists key = false

theorem insertIdx_length_append (before after : List String) (key : String) :
    (before ++ after).insertIdx before.length key = before ++ key :: after := by
  induction before with
  | nil => rfl
  | cons x before ih => exact congrArg (List.cons x) ih

/-- Something that stands nowhere else stands where it was put. -/
theorem eq_length_of_getElem?_eq_some {before after : List String} {key : String} {i : Nat}
    (hbefore : key ∉ before) (hafter : key ∉ after)
    (h : (before ++ key :: after)[i]? = some key) : i = before.length := by
  rcases Nat.lt_trichotomy i before.length with hlt | heq | hgt
  · rw [List.getElem?_append_left hlt] at h
    exact absurd (List.mem_of_getElem? h) hbefore
  · exact heq
  · rw [List.getElem?_append_right (Nat.le_of_lt hgt)] at h
    obtain ⟨j, hj⟩ := Nat.exists_eq_add_of_lt hgt
    rw [hj, show before.length + j + 1 - before.length = j + 1 by omega] at h
    exact absurd (List.mem_of_getElem? (List.getElem?_cons_succ ▸ h)) hafter

/-- **A dimension that is moved is put among the other names of the display order.** -/
theorem reorder_eq {name : String} (hname : b.dimension? name = some d)
    (hlisted : d.key ∈ b.state.order) (position : Nat) :
    b.reorder name position = ({ b with state := { b.state with
      order := (b.otherNames d).take position ++ d.key :: (b.otherNames d).drop position } },
      true) := by
  have hkey : b.keyFor name = d.key := by rw [keyFor, hname]; rfl
  have hinsert := insertIdx_length_append ((b.otherNames d).take position)
    ((b.otherNames d).drop position) d.key
  rw [List.take_append_drop, List.length_take] at hinsert
  rw [reorder]
  dsimp only
  rw [hkey, if_pos (List.contains_iff_mem.2 hlisted), ← hinsert]
  rfl

theorem map_key_displayed_reorder {name : String} (hname : b.dimension? name = some d)
    (hlisted : d.key ∈ b.state.order) (position : Nat) :
    (b.reorder name position).1.displayed.map Dimension.key =
      ((b.otherNames d).take position).filter b.lists ++
        d.key :: ((b.otherNames d).drop position).filter b.lists := by
  rw [reorder_eq hname hlisted, map_key_displayed]
  show (_ ++ d.key :: _).filter b.lists = _
  rw [List.filter_append, List.filter_cons_of_pos (lists_key (mem_of_dimension? hname))]

/-- The other dimensions that are displayed. -/
theorem filter_otherNames (b : Brush α) (d : Dimension α) :
    (b.otherNames d).filter b.lists = (b.displayed.map Dimension.key).erase d.key := by
  rw [map_key_displayed, List.erase_filter, otherNames]

theorem length_displayed (hd : d ∈ b.displayed) :
    b.displayed.length = ((b.otherNames d).filter b.lists).length + 1 := by
  have hmem : d.key ∈ b.displayed.map Dimension.key := List.mem_map_of_mem hd
  have hpos : 0 < (b.displayed.map Dimension.key).length := List.length_pos_of_mem hmem
  rw [filter_otherNames, List.length_erase_of_mem hmem]
  rw [List.length_map] at hpos ⊢
  omega

/-- A dimension is passed over by as many as the position asks for just when the way is clear. -/
theorem passed_eq_iff (hd : d ∈ b.displayed) :
    b.passed d position = min position (b.displayed.length - 1) ↔ b.Clear d position := by
  have hsplit : ((b.otherNames d).filter b.lists).length = b.passed d position +
      ((b.otherNames d).drop position).countP b.lists := by
    rw [← List.countP_eq_length_filter, passed, ← List.countP_append, List.take_append_drop]
  have htaken := List.length_take (l := b.otherNames d) (i := position)
  have hdropped := List.length_drop (l := b.otherNames d) (i := position)
  have hall : (∀ key ∈ (b.otherNames d).take position, b.lists key = true) ↔
      b.passed d position = ((b.otherNames d).take position).length := List.countP_eq_length.symm
  have hnone : (∀ key ∈ (b.otherNames d).drop position, b.lists key = false) ↔
      ((b.otherNames d).drop position).countP b.lists = 0 := by
    simp only [List.countP_eq_zero, Bool.not_eq_true]
  have hle : b.passed d position ≤ _ := List.countP_le_length
  have hle' : ((b.otherNames d).drop position).countP b.lists ≤ _ := List.countP_le_length
  rw [Clear, hall, hnone, length_displayed hd]
  omega

theorem getElem?_displayed_eq_some_iff (hnodup : (b.dimensions.map Dimension.key).Nodup)
    (hd : d ∈ b.dimensions) {i : Nat} :
    b.displayed[i]? = some d ↔ (b.displayed.map Dimension.key)[i]? = some d.key := by
  rw [List.getElem?_map, Option.map_eq_some_iff]
  constructor
  · exact fun h => ⟨d, h, rfl⟩
  · rintro ⟨d', h, hkey⟩
    have hd' : d' ∈ b.dimensions := ((mem_displayed_iff hnodup).1 (List.mem_of_getElem? h)).1
    rwa [List.inj_on_of_nodup_map hnodup hd' hd hkey] at h

end

/-- **A dimension that is moved comes to stand after as many as it passes over.**  Whatever was
asked of a brush, each of its dimensions can be moved to any position.  It then stands in the
display after the dimensions displayed among as many other names of the display order as the
position counts, the others stay in their order, and constraints and selection stay as they were.
It stands at that position, or at the end if there are fewer dimensions, if the way is clear: no
hidden key is passed over, or nothing is displayed after those passed over.  Unless the display
order repeats its key, it stands there only then. -/
theorem moves_past_listed (pane : PaneId) (state : BrushState Float) (window : Nat)
    (commands : List BrushCommand) :
    let b := (start pane state window).run commands
    ∀ name d, b.dimension? name = some d → ∀ position,
      let moved := b.reorder name position
      let others := (b.displayed.map Dimension.key).erase d.key
      let asked := moved.1.displayed[min position (b.displayed.length - 1)]?
      moved.2 = true ∧
      moved.1.displayed.map Dimension.key = others.insertIdx (b.passed d position) d.key ∧
      moved.1.displayed[b.passed d position]? = some d ∧
      moved.1.state.constraints = b.state.constraints ∧ moved.1.selected = b.selected ∧
      (b.Clear d position → asked = some d) ∧
      (b.state.order.count d.key = 1 → asked = some d → b.Clear d position) := by
  intro b name d hname position moved others asked
  have hkeyed : b.Keyed := (keyed_start pane state window).run commands
  have hd : d ∈ b.dimensions := mem_of_dimension? hname
  have hlisted : d.key ∈ b.state.order := hkeyed.normal.mem_order d hd
  have hshown : d ∈ b.displayed := hkeyed.mem_displayed_iff.2 hd
  have hmoved : moved = _ := reorder_eq hname hlisted position
  -- The moved key comes to stand between two parts of the other names, of which not all are shown.
  let before := ((b.otherNames d).take position).filter b.lists
  let after := ((b.otherNames d).drop position).filter b.lists
  have hbefore : before.length = b.passed d position := List.countP_eq_length_filter.symm
  have hkeys : moved.1.displayed.map Dimension.key = before ++ d.key :: after :=
    map_key_displayed_reorder hname hlisted position
  have hat (i : Nat) :
      moved.1.displayed[i]? = some d ↔ (before ++ d.key :: after)[i]? = some d.key := by
    rw [← hkeys]
    refine getElem?_displayed_eq_some_iff ?_ ?_ <;> rw [hmoved]
    exacts [hkeyed.nodup_keys, hd]
  have hlands : moved.1.displayed[b.passed d position]? = some d := by
    rw [hat, ← hbefore, List.getElem?_append_right (Nat.le_refl _), Nat.sub_self]
    rfl
  refine ⟨by rw [hmoved], ?keys, hlands, by rw [hmoved], by rw [hmoved], fun hclear => ?_, ?only⟩
  case keys =>
    have hothers : others = before ++ after := by
      rw [← List.filter_append, List.take_append_drop, filter_otherNames]
    rw [hkeys, hothers, ← hbefore, insertIdx_length_append]
  · rw [(passed_eq_iff hshown).2 hclear] at hlands
    exact hlands
  case only =>
    intro hcount hasked
    -- Listed only once, the key is none of the other names: its place is how many it passed.
    have honly : d.key ∉ b.otherNames d := by
      rw [← List.count_eq_zero, otherNames, List.count_erase_self, hcount]
    have hnone : d.key ∉ before ∧ d.key ∉ after :=
      ⟨fun h => honly (List.mem_of_mem_take (List.mem_of_mem_filter h)),
        fun h => honly (List.mem_of_mem_drop (List.mem_of_mem_filter h))⟩
    rw [← passed_eq_iff hshown, ← hbefore]
    exact (eq_length_of_getElem?_eq_some hnone.1 hnone.2 ((hat _).1 hasked)).symm

/-- Three dimensions, the first of them hidden: the second is to be moved to position 1, behind the
third, and stays where it is. -/
theorem moves_past_hidden :
    let n : Node :=
      { id := ⟨"x"⟩, kind := .state
        attributes := .ofList
          [("v", .ofList [("a", .bool true), ("b", .bool true), ("c", .bool true)])] }
    let s := Store.ofFragment ⟨[n], []⟩
    let rest : DetailSelection :=
      ⟨.ofList [("v", { all := true, attributes := .ofList [("a", false)] })]⟩
    let b := (start ⟨"pane-0"⟩ {} 0).run
      [.project s .states {} {}, .project s .states rest {}]
    let moved := b.reorder "b" 1
    (b.dimension? "b").map Dimension.key = some "v/b" ∧
      b.displayed.map Dimension.key = ["v/b", "v/c"] ∧
      moved.1.displayed.map Dimension.key = ["v/b", "v/c"] ∧
      (moved.1.displayed[min 1 (b.displayed.length - 1)]?).map Dimension.key ≠ some "v/b" := by
  decide +kernel

end StateAtlas.Brush
