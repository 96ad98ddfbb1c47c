import StateAtlas.Proofs.Sync.Recurrence
/-!
The scan for the nodes of a query.

It goes through the query for each pane, where the full scan goes through the nodes of the pane.  Both
put the same panes under a node in the same order, so what they tell of a node of the query is the
same.  Neither depends on the order in which the nodes of a pane are met.

Main statement: `restricts_detect`.
-/

namespace StateAtlas.Recurrence

variable {panes : List (PaneId × OrderedSet NodeId)} {queried : OrderedSet NodeId}
  {listed : List (PaneId × List NodeId)} {r : Recurrence} {id : PaneId} {n : NodeId}

/-! ## Panes that hold a node -/

/-- The panes that hold a node, in order. -/
def holding (panes : List (PaneId × OrderedSet NodeId)) (n : NodeId) : List PaneId :=
  (panes.filter fun p => p.2.contains n).map Prod.fst

theorem mem_holding : id ∈ holding panes n ↔ Holds panes id n := by
  simp only [holding, List.mem_map, List.mem_filter, Holds, Prod.exists]
  constructor
  · rintro ⟨_, held, hmem, rfl⟩
    exact ⟨held, hmem⟩
  · rintro ⟨held, hmem⟩
    exact ⟨id, held, hmem, rfl⟩

theorem nodup_holding (hids : (panes.map Prod.fst).Nodup) (n : NodeId) :
    (holding panes n).Nodup :=
  hids.sublist (List.filter_sublist.map Prod.fst)

/-- More than one pane is listed just when two different ones hold the node. -/
theorem one_lt_length_holding_iff (hids : (panes.map Prod.fst).Nodup) :
    1 < (holding panes n).length ↔
      ∃ id other, id ≠ other ∧ Holds panes id n ∧ Holds panes other n := by
  have hnodup := nodup_holding hids n
  constructor
  · intro hlength
    obtain ⟨id, hid⟩ := List.exists_mem_of_length_pos (Nat.zero_lt_of_lt hlength)
    obtain ⟨other, hother, hne⟩ := (one_lt_length_iff hnodup hid).1 hlength
    exact ⟨id, other, hne.symm, mem_holding.1 hid, mem_holding.1 hother⟩
  · rintro ⟨id, other, hne, hid, hother⟩
    exact (one_lt_length_iff hnodup (mem_holding.2 hid)).2 ⟨other, mem_holding.2 hother, hne.symm⟩

/-- The panes with their nodes listed in any order. -/
def Lists (listed : List (PaneId × List NodeId)) (panes : List (PaneId × OrderedSet NodeId)) :
    Prop :=
  List.Forall₂ (fun l p => l.1 = p.1 ∧ l.2.Perm p.2.toList) listed panes

theorem Lists.nodup (h : Lists listed panes) : ∀ l ∈ listed, l.2.Nodup := by
  induction h with
  | nil => exact List.forall_mem_nil _
  | @cons l p listed panes hlp _ ih =>
    exact List.forall_mem_cons.2 ⟨hlp.2.nodup_iff.2 p.2.nodup_toList, ih⟩

theorem Lists.holders_eq (h : Lists listed panes) (n : NodeId) :
    holders listed n = holding panes n := by
  induction h with
  | nil => rfl
  | @cons l p listed panes hlp _ ih =>
    have hcontains : l.2.contains n = p.2.contains n := by
      rw [Bool.eq_iff_iff, List.contains_iff_mem, hlp.2.mem_iff, OrderedSet.mem_toList]
    unfold holders holding at ih ⊢
    rw [List.filter_cons, List.filter_cons, hcontains]
    split
    · rw [List.map_cons, List.map_cons, ih, hlp.1]
    · exact ih

theorem lists_toList (panes : List (PaneId × OrderedSet NodeId)) :
    Lists (panes.map fun p => (p.1, p.2.toList)) panes :=
  List.forall₂_map_left_iff.2 (List.forall₂_same.2 fun _ _ => ⟨rfl, .refl _⟩)

/-- Of a query, the panes list what they hold. -/
theorem holders_query (panes : List (PaneId × OrderedSet NodeId)) (queried : OrderedSet NodeId)
    (n : NodeId) :
    holders (panes.map fun p => (p.1, queried.toList.filter p.2.contains)) n =
      if queried.contains n then holding panes n else [] := by
  have hcontains : ∀ held : OrderedSet NodeId,
      (queried.toList.filter held.contains).contains n = (queried.contains n && held.contains n) := by
    intro held
    rw [Bool.eq_iff_iff, List.contains_iff_mem, List.mem_filter, OrderedSet.mem_toList,
      Bool.and_eq_true]
  unfold holders holding
  rw [List.filter_map, List.map_map]
  simp only [Function.comp_def, hcontains]
  cases queried.contains n <;> simp

/-! ## What the scans tell -/

/-- A scan tells of the same nodes the same panes, whatever order the nodes of a pane are met in. -/
theorem gather_eq_detect (h : Lists listed panes) : gather listed = detect panes := by
  have hpanes := lists_toList panes
  refine congrArg Recurrence.mk (Dictionary.ext_get? fun n => Option.ext fun l => ?_)
  show (gather listed).panesOf.get? n = some l ↔ (detect panes).panesOf.get? n = some l
  rw [detect, get?_gather h.nodup, get?_gather hpanes.nodup, h.holders_eq, hpanes.holders_eq]

theorem get?_detect {l : List PaneId} :
    (detect panes).panesOf.get? n = some l ↔ l = holding panes n ∧ 1 < l.length := by
  rw [detect, get?_gather (lists_toList panes).nodup, (lists_toList panes).holders_eq]

theorem get?_detectAmong {l : List PaneId} :
    (detectAmong panes queried).panesOf.get? n = some l ↔
      queried.contains n = true ∧ l = holding panes n ∧ 1 < l.length := by
  rw [detectAmong, get?_gather (List.forall_mem_map.2 fun p _ => queried.nodup_toList.filter _),
    holders_query]
  split
  next hqueried => simp [hqueried]
  next hqueried =>
    refine iff_of_false ?_ fun h => hqueried h.1
    rintro ⟨rfl, hlength⟩
    exact absurd hlength (Nat.not_lt_zero _)

/-- The panes that are told and the nodes that are told of a pane are those of the entries. -/
structure Accounts (r : Recurrence) (panes : List (PaneId × OrderedSet NodeId)) : Prop where
  mem_panes : ∀ id, id ∈ r.panes ↔ ∃ n ∈ r.ids, Holds panes id n
  contains_forPane : ∀ id n,
    (r.forPane id).contains n = true ↔ n ∈ r.ids ∧ Holds panes id n

theorem mem_ids_iff : n ∈ r.ids ↔ ∃ l, r.panesOf.get? n = some l := by
  rw [ids, Dictionary.mem_keys_iff]
  exact Option.isSome_iff_exists

/-- Entries that name the panes that hold a node determine everything else. -/
theorem accounts_of_entries (h : ∀ n l, r.panesOf.get? n = some l → l = holding panes n) :
    r.Accounts panes where
  mem_panes id := by
    simp only [Recurrence.panes, OrderedSet.mem_toList, OrderedSet.contains_ofList,
      List.mem_flatten, Dictionary.values, List.mem_map, Prod.exists, exists_eq_right, mem_ids_iff,
      Dictionary.get?_eq_some_iff.symm]
    constructor
    · rintro ⟨l, ⟨n, hn⟩, hid⟩
      exact ⟨n, ⟨l, hn⟩, mem_holding.1 (h n l hn ▸ hid)⟩
    · rintro ⟨n, ⟨l, hn⟩, hid⟩
      exact ⟨l, ⟨n, hn⟩, h n l hn ▸ mem_holding.2 hid⟩
  contains_forPane id n := by
    rw [forPane, OrderedSet.contains_ofList, Dictionary.mem_keys_iff, mem_ids_iff,
      Dictionary.contains, Option.isSome_iff_exists]
    simp only [Dictionary.get?_filter_eq_some_iff, List.contains_iff_mem]
    constructor
    · rintro ⟨l, hn, hid⟩
      exact ⟨⟨l, hn⟩, mem_holding.1 (h n l hn ▸ hid)⟩
    · rintro ⟨⟨l, hn⟩, hid⟩
      exact ⟨l, hn, h n l hn ▸ mem_holding.2 hid⟩

/-- **The scan for a query is the full scan restricted to the query.**  Of distinct panes and the nodes
that they hold, the scan for a query tells just the entries of the full scan whose node is asked for,
with the same panes in the same order.  The full scan tells of a node if and only if two panes hold it,
and then which panes do, in order.  In both, a pane is told if and only if it holds a node that is told,
and the nodes told of a pane are those that are told and that it holds.  And all of this is the same in
whatever order the nodes of each pane are met. -/
theorem restricts_detect (panes : List (PaneId × OrderedSet NodeId))
    (hids : (panes.map Prod.fst).Nodup) (queried : OrderedSet NodeId) :
    (detectAmong panes queried).panesOf =
      (detect panes).panesOf.filter (fun n _ => queried.contains n) ∧
    (∀ n holders, (detect panes).panesOf.get? n = some holders ↔
      holders = holding panes n ∧
        ∃ id other, id ≠ other ∧ Holds panes id n ∧ Holds panes other n) ∧
    (detect panes).Accounts panes ∧ (detectAmong panes queried).Accounts panes ∧
    ∀ listed, Lists listed panes → gather listed = detect panes := by
  refine ⟨Dictionary.ext_get? fun n => Option.ext fun l => ?_, fun n l => ?_,
    accounts_of_entries fun n l hn => (get?_detect.1 hn).1,
    accounts_of_entries fun n l hn => (get?_detectAmong.1 hn).2.1, fun listed => gather_eq_detect⟩
  · rw [get?_detectAmong, Dictionary.get?_filter_eq_some_iff, get?_detect, and_comm]
  · rw [get?_detect]
    refine and_congr_right fun hl => ?_
    rw [hl, one_lt_length_holding_iff hids]

/-- Of three panes two hold `x` and two hold `z`, and `x` is asked for: both scans find who holds it. -/
theorem restricts_detect_shared :
    let panes : List (PaneId × OrderedSet NodeId) :=
      [(⟨"p1"⟩, .ofList [⟨"x"⟩, ⟨"y"⟩]), (⟨"p2"⟩, .ofList [⟨"z"⟩, ⟨"x"⟩]),
        (⟨"p3"⟩, .ofList [⟨"z"⟩])]
    (panes.map Prod.fst).Nodup ∧
      (detectAmong panes (.ofList [⟨"x"⟩, ⟨"y"⟩])).panesOf.entries = [(⟨"x"⟩, [⟨"p1"⟩, ⟨"p2"⟩])] ∧
      ((detect panes).panesOf.filter fun n _ =>
        (OrderedSet.ofList [⟨"x"⟩, ⟨"y"⟩]).contains n).entries = [(⟨"x"⟩, [⟨"p1"⟩, ⟨"p2"⟩])] ∧
      ¬((detect panes).forPane ⟨"p3"⟩).contains ⟨"x"⟩ = true := by
  intro panes
  have hids : (panes.map Prod.fst).Nodup := by decide
  obtain ⟨hsame, -, haccounts, -⟩ := restricts_detect panes hids (.ofList [⟨"x"⟩, ⟨"y"⟩])
  have hentries : (detectAmong panes (.ofList [⟨"x"⟩, ⟨"y"⟩])).panesOf.entries =
      [(⟨"x"⟩, [⟨"p1"⟩, ⟨"p2"⟩])] := by decide +kernel
  refine ⟨hids, hentries, hsame ▸ hentries, fun hx => ?_⟩
  obtain ⟨-, held, hheld, hcontains⟩ := (haccounts.contains_forPane _ _).1 hx
  have hnone : ∀ p ∈ panes, p.1 = ⟨"p3"⟩ → p.2.contains ⟨"x"⟩ = false := by decide +kernel
  exact absurd hcontains (Bool.eq_false_iff.1 (hnone _ hheld rfl))

end StateAtlas.Recurrence
