import StateAtlas.Proofs.Pane.Eviction
import StateAtlas.Proofs.Pane.Merging
/-!
What is left of a table once panes are gone.

Removing panes takes them out of both orders and cuts every link to them; the panes that stay keep
everything else, and their order.  This is so for a list of panes that are removed one after the
other, and for the panes that are evicted to make room.

A removal that finds no live pane active makes the last pane in display order active, or none.
-/

namespace StateAtlas.PaneTable

variable {t u v : PaneTable} {rank : PaneId → Nat} {gone victims protected_ : List PaneId}
  {id k : PaneId} {p q : Pane}

/-! ## Panes whose links are cut -/

theorem filter_notMem_append (gone gone' ids : List PaneId) :
    (ids.filter fun k => k ∉ gone).filter (fun k => k ∉ gone') =
      ids.filter fun k => k ∉ gone ++ gone' := by
  rw [List.filter_filter]
  refine List.filter_congr fun k _ => ?_
  simp [List.mem_append, Bool.and_comm]

theorem filter_ne_eq (id : PaneId) (ids : List PaneId) :
    ids.filter (fun k => k ≠ id) = ids.filter fun k => k ∉ [id] :=
  List.filter_congr fun k _ => by simp

/-- The pane without its links to panes that are gone. -/
def unlinkedFrom (gone : List PaneId) (p : Pane) : Pane := gone.foldl (fun p id => unlinked id p) p

theorem unlinkedFrom_append (gone gone' : List PaneId) (p : Pane) :
    unlinkedFrom (gone ++ gone') p = unlinkedFrom gone' (unlinkedFrom gone p) :=
  List.foldl_append

theorem bare_unlinkedFrom (gone : List PaneId) (p : Pane) : bare (unlinkedFrom gone p) = bare p :=
  List.foldlRecOn (motive := fun q => bare q = bare p) gone _ rfl fun _ hq _ _ => hq

theorem spawners_unlinkedFrom (gone : List PaneId) (p : Pane) :
    (unlinkedFrom gone p).spawners = p.spawners.filter fun s => s ∉ gone := by
  induction gone generalizing p with
  | nil => simp [unlinkedFrom]
  | cons id gone ih =>
    refine (ih (unlinked id p)).trans ?_
    rw [unlinked, filter_ne_eq, filter_notMem_append]
    rfl

theorem contains_spawned_unlinkedFrom (gone : List PaneId) (p : Pane) (child : PaneId) :
    (unlinkedFrom gone p).spawned.contains child = true ↔
      child ∉ gone ∧ p.spawned.contains child = true := by
  induction gone generalizing p with
  | nil => simp [unlinkedFrom]
  | cons id gone ih =>
    refine (ih (unlinked id p)).trans ?_
    rw [unlinked, OrderedSet.contains_erase, List.mem_cons, not_or, ne_comm, and_left_comm,
      and_assoc]

/-! ## Tables without some of their panes -/

/-- The second table is what the first is without some of its panes. -/
structure Removes (t : PaneTable) (gone : List PaneId) (u : PaneTable) : Prop where
  /-- The panes that stay lose their links to those that go. -/
  pane? : ∀ k, u.pane? k = if k ∈ gone then none else (t.pane? k).map (unlinkedFrom gone)
  /-- The others keep their order on screen. -/
  ids : u.ids = t.ids.filter fun id => id ∉ gone
  created : u.created = t.created.filter fun id => id ∉ gone
  primary : u.primary = t.primary
  naming : u.naming = t.naming
  nextLease : u.nextLease = t.nextLease
  maxPanes : u.maxPanes = t.maxPanes
  brushWindow : u.brushWindow = t.brushWindow

theorem Removes.refl (t : PaneTable) : t.Removes [] t := by
  refine ⟨fun k => ?_, ?_, ?_, rfl, rfl, rfl, rfl, rfl⟩
  · cases h : t.pane? k <;> simp [unlinkedFrom]
  · simp
  · simp

theorem Removes.trans (h : t.Removes gone u) (h' : u.Removes victims v) :
    t.Removes (gone ++ victims) v := by
  constructor
  case pane? =>
    intro k
    rw [h'.pane?, h.pane?]
    by_cases hk : k ∈ victims
    · simp [hk]
    by_cases hk' : k ∈ gone
    · simp [hk']
    · rw [if_neg hk, if_neg hk', if_neg (by simp [hk, hk']), Option.map_map]
      congr 1
      funext p
      exact (unlinkedFrom_append gone victims p).symm
  case ids => rw [h'.ids, h.ids, filter_notMem_append]
  case created => rw [h'.created, h.created, filter_notMem_append]
  case primary => exact h'.primary.trans h.primary
  case naming => exact h'.naming.trans h.naming
  case nextLease => exact h'.nextLease.trans h.nextLease
  case maxPanes => exact h'.maxPanes.trans h.maxPanes
  case brushWindow => exact h'.brushWindow.trans h.brushWindow

/-- Which pane is active afterwards is another matter. -/
theorem Removes.reactivate (h : t.Removes gone u) (activate : Bool) :
    t.Removes gone (u.reactivate activate) := by
  unfold PaneTable.reactivate
  split
  · exact h
  · split
    · rw [setActive_eq]
      exact ⟨h.pane?, h.ids, h.created, h.primary, h.naming, h.nextLease, h.maxPanes, h.brushWindow⟩
    · exact ⟨h.pane?, h.ids, h.created, h.primary, h.naming, h.nextLease, h.maxPanes, h.brushWindow⟩

theorem removes_removeOne (hid : t.contains id = true) : t.Removes [id] (t.removeOne id) := by
  rw [removeOne, if_pos hid]
  refine ⟨fun k => ?_, filter_ne_eq id _, filter_ne_eq id _, rfl, rfl, rfl, rfl, rfl⟩
  refine (pane?_erase t id k).trans ?_
  simp only [List.mem_singleton, eq_comm (a := k)]
  rfl

/-- Removing one pane after the other removes them all. -/
theorem removes_foldl_removeOne (hnodup : victims.Nodup)
    (hlive : ∀ id ∈ victims, t.contains id = true) :
    t.Removes victims (victims.foldl removeOne t) := by
  induction victims generalizing t with
  | nil => exact Removes.refl t
  | cons victim victims ih =>
    obtain ⟨hnot, hnodup⟩ := List.nodup_cons.1 hnodup
    obtain ⟨hvictim, hvictims⟩ := List.forall_mem_cons.1 hlive
    have hrest : ∀ id ∈ victims, (t.removeOne victim).contains id = true := fun id hid =>
      (contains_removeOne ..).2 ⟨Ne.symm (ne_of_mem_of_not_mem hid hnot), hvictims id hid⟩
    exact (removes_removeOne hvictim).trans (ih hnodup hrest)

theorem removes_remove (hnodup : victims.Nodup) (hlive : ∀ id ∈ victims, t.contains id = true)
    (activate : Bool) : t.Removes victims (t.remove victims activate).1 :=
  (removes_foldl_removeOne hnodup hlive).reactivate activate

/-- Making room removes the panes that are evicted. -/
theorem Evictions.removes (h : Evictions protected_ t victims u) (hlinked : t.Linked rank) :
    t.Removes victims u := by
  induction h with
  | fits => exact Removes.refl _
  | stuck => exact Removes.refl _
  | @evict t u victim victims hfull hvictim hrest ih =>
    obtain ⟨hlinked', -⟩ := hlinked.evict hvictim
    have hlive := hlinked.live_of_oldest? hvictim
    have hone : t.Removes [victim] (t.remove [victim] false).1 :=
      removes_remove (List.nodup_singleton victim) (List.forall_mem_singleton.2 hlive) false
    exact hone.trans (ih hlinked')

theorem Removes.contains_iff (h : t.Removes gone u) (k : PaneId) :
    u.contains k = true ↔ k ∉ gone ∧ t.contains k = true := by
  rw [exists_pane?_iff, exists_pane?_iff, h.pane?]
  by_cases hk : k ∈ gone
  · simp [hk]
  · simp [hk]

/-- A pane that stays loses from its lineage just the panes that are gone, and nothing else. -/
theorem Removes.survivor (h : t.Removes gone u) (hp : t.pane? k = some p) (hk : k ∉ gone) :
    ∃ q, u.pane? k = some q ∧ bare q = bare p ∧
      q.spawners = p.spawners.filter (fun s => s ∉ gone) ∧
      ∀ child, q.spawned.contains child = true ↔
        child ∉ gone ∧ p.spawned.contains child = true := by
  refine ⟨unlinkedFrom gone p, ?_, bare_unlinkedFrom gone p, spawners_unlinkedFrom gone p,
    contains_spawned_unlinkedFrom gone p⟩
  rw [h.pane?, if_neg hk, hp, Option.map_some]

/-! ## The active pane after a removal -/

theorem bus_reactivate_false (t : PaneTable) : (t.reactivate false).bus = t.bus := by
  unfold reactivate
  split <;> rfl

theorem active_reactivate_eq (t : PaneTable) (activate : Bool) :
    (t.reactivate activate).active = if t.active.any t.contains then t.active
      else if activate then t.ids.getLast? else none := by
  unfold reactivate
  split
  · rfl
  · cases activate with
    | false => rfl
    | true =>
      cases t.ids.getLast? with
      | none => rfl
      | some last => exact active_setActive t last

/-- Evictions are announced one by one. -/
theorem Evictions.bus_eq (h : Evictions protected_ t victims u) (hlinked : t.Linked rank) :
    u.bus = (victims.map fun k => Event.registry (.paneRemoved k)).foldl Bus.publish t.bus := by
  induction h with
  | fits => rfl
  | stuck => rfl
  | @evict t u victim victims hfull hvictim hrest ih =>
    obtain ⟨hlinked', -⟩ := hlinked.evict hvictim
    have hlive := hlinked.live_of_oldest? hvictim
    rw [ih hlinked', List.map_cons, List.foldl_cons, ← bus_removeOne hlive]
    unfold PaneTable.remove
    rw [bus_reactivate_false]
    rfl

/-- No eviction makes a pane active. -/
theorem Evictions.active_of (h : Evictions protected_ t victims u) (hk : u.active = some k) :
    t.active = some k := by
  induction h with
  | fits => exact hk
  | stuck => exact hk
  | evict hfull hvictim hrest ih =>
    have hafter := ih hk
    rw [PaneTable.remove, active_reactivate_eq, active_foldl_removeOne] at hafter
    split at hafter
    · exact hafter
    · simp at hafter

/-- A live pane that is active stays so unless it is removed; otherwise, on request, the last pane in
display order becomes active. -/
theorem WellFormed.active_remove (h : t.WellFormed rank) (victims : List PaneId) (activate : Bool) :
    (t.remove victims activate).1.active = if t.active.any (fun id => id ∉ victims) then t.active
      else if activate then (t.remove victims activate).1.ids.getLast? else none := by
  have hlive : t.active.any (victims.foldl removeOne t).contains =
      t.active.any fun id => id ∉ victims := by
    cases hactive : t.active with
    | none => rfl
    | some id =>
      rw [Option.any_some, Option.any_some, Bool.eq_iff_iff, contains_foldl_removeOne,
        and_iff_left (h.active_live id hactive), decide_eq_true_eq]
  have hids : (t.remove victims activate).1.ids = (victims.foldl removeOne t).ids :=
    (SameLineage.reactivate _ activate).ids
  rw [hids, ← hlive, PaneTable.remove, active_reactivate_eq, active_foldl_removeOne]

end StateAtlas.PaneTable
