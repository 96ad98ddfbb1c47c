import StateAtlas.Proofs.Dictionary
import StateAtlas.Sync.Marks
import StateAtlas.Sync.Recurrence
/-!
Which nodes recur, and which are shown as marked.

The scan for recurrence goes through the panes once and puts, under every node that it meets, the
panes that list it.  As no pane lists a node twice, a node recurs in a pane just when the pane lists
it and another pane does so too.

Main statements: `Recurrence.contains_forPane_detect`, `Recurrence.contains_forPane_detectAmong`.
-/

namespace StateAtlas

/-! ## Recurrence -/

namespace Recurrence

variable {panes : List (PaneId × List NodeId)} {id : PaneId} {n : NodeId}

/-- The panes that list a node, in order. -/
def holders (panes : List (PaneId × List NodeId)) (n : NodeId) : List PaneId :=
  (panes.filter fun p => p.2.contains n).map Prod.fst

theorem mem_holders : id ∈ holders panes n ↔ ∃ ids, (id, ids) ∈ panes ∧ n ∈ ids := by
  simp [holders]

/-- The panes that were met so far under a node. -/
def noted (seen : Dictionary NodeId (List PaneId)) (n : NodeId) : List PaneId :=
  (seen.get? n).getD []

theorem noted_note (pane : PaneId) (seen : Dictionary NodeId (List PaneId)) (m n : NodeId) :
    noted (note pane seen m) n = noted seen n ++ if m = n then [pane] else [] := by
  unfold noted note
  rw [Dictionary.get?_update]
  split
  next h => rw [h, Option.getD_some]
  next => rw [List.append_nil]

/-- A pane that lists no node twice is put under each of its nodes once. -/
theorem noted_foldl_note {ids : List NodeId} (hnodup : ids.Nodup) (pane : PaneId)
    (seen : Dictionary NodeId (List PaneId)) (n : NodeId) :
    noted (ids.foldl (note pane) seen) n =
      noted seen n ++ if ids.contains n then [pane] else [] := by
  induction ids generalizing seen with
  | nil => simp
  | cons m ids ih =>
    obtain ⟨hnot, hids⟩ := List.nodup_cons.1 hnodup
    rw [List.foldl_cons, ih hids, noted_note, List.append_assoc]
    by_cases hm : m = n
    · subst hm
      simp [hnot]
    · simp [hm, Ne.symm hm]

/-- **The scan puts under every node the panes that list it.** -/
theorem noted_foldl (hnodup : ∀ p ∈ panes, p.2.Nodup) (seen : Dictionary NodeId (List PaneId))
    (n : NodeId) :
    noted (panes.foldl (fun seen p => p.2.foldl (note p.1) seen) seen) n =
      noted seen n ++ holders panes n := by
  induction panes generalizing seen with
  | nil => exact (List.append_nil _).symm
  | cons p panes ih =>
    obtain ⟨hp, hpanes⟩ := List.forall_mem_cons.1 hnodup
    rw [List.foldl_cons, ih hpanes, noted_foldl_note hp, List.append_assoc, holders, holders,
      List.filter_cons]
    split <;> rfl

/-- What recurs is what at least two panes list. -/
theorem get?_gather (hnodup : ∀ p ∈ panes, p.2.Nodup) {l : List PaneId} :
    (gather panes).panesOf.get? n = some l ↔ l = holders panes n ∧ 1 < l.length := by
  have hseen := noted_foldl hnodup {} n
  unfold gather
  generalize panes.foldl (fun seen p => p.2.foldl (note p.1) seen) {} = seen at hseen ⊢
  dsimp only
  rw [Dictionary.get?_filter_eq_some_iff, decide_eq_true_eq]
  change (seen.get? n).getD [] = holders panes n at hseen
  refine and_congr_left fun hlength => ?_
  rw [← hseen]
  cases seen.get? n with
  | none =>
    simp only [Option.getD_none, reduceCtorEq, false_iff]
    rintro rfl
    simp at hlength
  | some l' => simp [eq_comm]

/-- A list without repetitions is longer than one if it has another element than a given one. -/
theorem one_lt_length_iff {α : Type} {a : α} {l : List α} (hnodup : l.Nodup) (ha : a ∈ l) :
    1 < l.length ↔ ∃ b ∈ l, b ≠ a := by
  have hsingle : l.length = 1 ↔ l = [a] := by
    constructor
    · intro hlength
      obtain ⟨b, rfl⟩ := List.length_eq_one_iff.1 hlength
      rw [List.mem_singleton.1 ha]
    · rintro rfl
      rfl
  have hpos := List.length_pos_of_mem ha
  have hother : l ≠ [a] ↔ ∃ b ∈ l, b ≠ a :=
    (hnodup.ne_singleton_iff a).trans (or_iff_right (List.ne_nil_of_mem ha))
  rw [← hother, ne_eq, ← hsingle]
  omega

/-- **A node recurs in a pane just when the pane lists it and another pane does so too.** -/
theorem contains_forPane_gather (hids : (panes.map Prod.fst).Nodup)
    (hnodup : ∀ p ∈ panes, p.2.Nodup) :
    ((gather panes).forPane id).contains n = true ↔
      id ∈ holders panes n ∧ ∃ other ∈ holders panes n, other ≠ id := by
  have hholders : (holders panes n).Nodup := hids.sublist (List.filter_sublist.map Prod.fst)
  rw [forPane, OrderedSet.contains_ofList, Dictionary.mem_keys_iff, Dictionary.contains,
    Option.isSome_iff_exists]
  simp only [Dictionary.get?_filter_eq_some_iff, get?_gather hnodup, List.contains_iff_mem]
  constructor
  · rintro ⟨_, ⟨rfl, hlength⟩, hid⟩
    exact ⟨hid, (one_lt_length_iff hholders hid).1 hlength⟩
  · rintro ⟨hid, hother⟩
    exact ⟨_, ⟨rfl, (one_lt_length_iff hholders hid).2 hother⟩, hid⟩

/-- What recurs in a pane recurs. -/
theorem mem_ids_of_contains_forPane {r : Recurrence} (h : (r.forPane id).contains n = true) :
    n ∈ r.ids := by
  rw [forPane, OrderedSet.contains_ofList, Dictionary.mem_keys_iff, Dictionary.contains,
    Option.isSome_iff_exists] at h
  obtain ⟨l, hl⟩ := h
  rw [ids, Dictionary.mem_keys_iff, Dictionary.contains,
    (Dictionary.get?_filter_eq_some_iff.1 hl).1, Option.isSome_some]

/-! ### Among panes that hold sets of nodes -/

section

variable {panes : List (PaneId × OrderedSet NodeId)} {queried : OrderedSet NodeId}

/-- One of the panes has that name and holds the node. -/
def Holds (panes : List (PaneId × OrderedSet NodeId)) (id : PaneId) (n : NodeId) : Prop :=
  ∃ held, (id, held) ∈ panes ∧ held.contains n = true

theorem contains_forPane_gather_map (hids : (panes.map Prod.fst).Nodup)
    {f : OrderedSet NodeId → List NodeId} (hf : ∀ held, (f held).Nodup) :
    ((gather (panes.map fun p => (p.1, f p.2))).forPane id).contains n = true ↔
      (∃ held, (id, held) ∈ panes ∧ n ∈ f held) ∧
        ∃ other, other ≠ id ∧ ∃ held, (other, held) ∈ panes ∧ n ∈ f held := by
  have hmem : ∀ k, k ∈ holders (panes.map fun p => (p.1, f p.2)) n ↔
      ∃ held, (k, held) ∈ panes ∧ n ∈ f held := by
    intro k
    simp only [mem_holders, List.mem_map, Prod.mk.injEq, Prod.exists]
    constructor
    · rintro ⟨_, ⟨_, held, hheld, rfl, rfl⟩, hn⟩
      exact ⟨held, hheld, hn⟩
    · rintro ⟨held, hheld, hn⟩
      exact ⟨_, ⟨k, held, hheld, rfl, rfl⟩, hn⟩
  have hfst : (panes.map fun p => (p.1, f p.2)).map Prod.fst = panes.map Prod.fst := by
    rw [List.map_map]
    rfl
  rw [contains_forPane_gather (hfst ▸ hids) (List.forall_mem_map.2 fun p _ => hf p.2)]
  simp only [hmem, and_comm]

/-- **A node recurs in a pane just when that pane and another one hold it.** -/
theorem contains_forPane_detect (hids : (panes.map Prod.fst).Nodup) :
    ((detect panes).forPane id).contains n = true ↔
      Holds panes id n ∧ ∃ other, other ≠ id ∧ Holds panes other n := by
  rw [detect, contains_forPane_gather_map hids OrderedSet.nodup_toList]
  simp only [OrderedSet.mem_toList, Holds]

/-- **Of the nodes of a query those recur in a pane that this pane and another one hold.** -/
theorem contains_forPane_detectAmong (hids : (panes.map Prod.fst).Nodup) :
    ((detectAmong panes queried).forPane id).contains n = true ↔
      queried.contains n = true ∧ Holds panes id n ∧ ∃ other, other ≠ id ∧ Holds panes other n := by
  have hsome : ∀ k, (∃ held, (k, held) ∈ panes ∧ n ∈ queried.toList.filter held.contains) ↔
      queried.contains n = true ∧ Holds panes k n := by
    intro k
    simp only [List.mem_filter, OrderedSet.mem_toList, Holds, ← exists_and_left, and_left_comm]
  rw [detectAmong, contains_forPane_gather_map hids
    (f := fun held => queried.toList.filter held.contains)
    fun held => queried.nodup_toList.filter held.contains]
  simp only [hsome]
  grind

end

end Recurrence

/-! ## Marks -/

namespace MarkSet

variable {m : MarkSet} {ids : List NodeId} {n : NodeId}

theorem contains_decorate (s : Store) :
    (m.decorate s).contains n = true ↔ m.contains n = true ∧ n ∈ s.nodeIds := by
  rw [decorate, OrderedSet.contains_ofList, List.mem_filter, and_comm]

theorem contains_mark : (m.mark ids).1.contains n = true ↔ n ∈ ids ∨ m.contains n = true :=
  OrderedSet.contains_insertMany ..

theorem contains_unmark : (m.unmark ids).1.contains n = true ↔ n ∉ ids ∧ m.contains n = true := by
  change (ids.foldl OrderedSet.erase m.ids).contains n = true ↔ n ∉ ids ∧ m.ids.contains n = true
  generalize m.ids = held
  induction ids generalizing held with
  | nil => simp
  | cons id ids ih =>
    rw [List.foldl_cons, ih, OrderedSet.contains_erase, List.mem_cons, not_or, ne_comm,
      and_left_comm, and_assoc]

/-- If nothing was newly marked, the same is marked as before. -/
theorem contains_mark_of_isEmpty (h : (m.mark ids).2.isEmpty = true) :
    (m.mark ids).1.contains n = true ↔ m.contains n = true := by
  have hknown : ∀ id ∈ ids, m.contains id = true := by
    intro id hid
    by_contra hnot
    have hmem : id ∈ (m.mark ids).2 :=
      List.mem_eraseDups.2 (List.mem_filter.2 ⟨hid, by simpa using hnot⟩)
    rw [List.isEmpty_iff.1 h] at hmem
    exact absurd hmem List.not_mem_nil
  rw [contains_mark]
  exact or_iff_right_of_imp (hknown n)

/-- If no mark was taken away, the same is marked as before. -/
theorem contains_unmark_of_isEmpty (h : (m.unmark ids).2.isEmpty = true) :
    (m.unmark ids).1.contains n = true ↔ m.contains n = true := by
  rw [contains_unmark]
  refine and_iff_right_of_imp fun hn hmem => ?_
  have hremoved : n ∈ (m.unmark ids).2 := List.mem_eraseDups.2 (List.mem_filter.2 ⟨hmem, hn⟩)
  rw [List.isEmpty_iff.1 h] at hremoved
  exact absurd hremoved List.not_mem_nil

end MarkSet

end StateAtlas
