import StateAtlas.Proofs.Pane.Keeping
/-!
Panes that account for what they hold.

A pane notes the nodes that count for recurrence beside its store.  It accounts for what it holds if
these are just the nodes of the store.  A new pane notes what its store begins with; one that is made
from others also takes over what they noted, which is the same if they account for what they hold.  So
all panes of a table keep accounting for what they hold.

Main statement: `Sound.execute`.
-/

namespace StateAtlas

/-- The nodes that count for recurrence are those that the pane holds. -/
def Pane.Accounted (p : Pane) : Prop :=
  ∀ id, p.everAdded.contains id = true ↔ id ∈ p.store.nodeIds

namespace PaneTable

variable {t u : PaneTable} {p : Pane} {id : PaneId}

theorem accounted_of_work_eq {q : Pane} (h : p.Accounted) (hwork : work q = work p) :
    q.Accounted := by
  have hstore : (work q).store = (work p).store := congrArg Pane.store hwork
  have hever : (work q).everAdded = (work p).everAdded := congrArg Pane.everAdded hwork
  change q.store = p.store at hstore
  change q.everAdded = p.everAdded at hever
  intro id
  rw [hever, hstore]
  exact h id

/-! ## New panes -/

/-- What a new pane takes over from others adds nothing if its store holds that anyway. -/
theorem accounted_of_noted {extra : List NodeId} (hextra : ∀ n ∈ extra, n ∈ p.store.nodeIds)
    (hever : p.everAdded = (OrderedSet.ofList p.store.nodeIds).insertMany extra) :
    p.Accounted := by
  intro n
  have hempty : (OrderedSet.empty : OrderedSet NodeId).contains n = false := rfl
  rw [hever, OrderedSet.ofList, OrderedSet.contains_insertMany, OrderedSet.contains_insertMany,
    hempty]
  constructor
  · rintro (hmem | hmem | habsurd)
    · exact hextra n hmem
    · exact hmem
    · exact absurd habsurd Bool.false_ne_true
  · exact fun hmem => .inr (.inl hmem)

theorem mem_everAdded_iff (h : p.Accounted) {n : NodeId} :
    n ∈ p.everAdded.toList ↔ n ∈ p.store.nodeIds :=
  Dictionary.mem_keys_iff.trans (h n)

theorem accounted_requested (t : PaneTable) (r : SpawnRequest) (id : PaneId) :
    (t.requested r id).Accounted :=
  accounted_of_noted (List.forall_mem_nil _) rfl

theorem everAdded_union (t : PaneTable) (id : PaneId) (panes : List Pane)
    (spawners : List PaneId) :
    (t.union id panes spawners).everAdded =
      (OrderedSet.ofList (t.union id panes spawners).store.nodeIds).insertMany
        (panes.flatMap fun p => p.everAdded.toList) := rfl

theorem accounted_union {panes : List Pane} (h : ∀ p ∈ panes, p.Accounted) (t : PaneTable)
    (id : PaneId) (spawners : List PaneId) : (t.union id panes spawners).Accounted := by
  refine accounted_of_noted (fun n hn => ?_) (everAdded_union t id panes spawners)
  obtain ⟨p, hp, hn⟩ := List.mem_flatMap.1 hn
  rw [store_union, Store.nodeIds_union, List.mem_eraseDups, List.mem_flatMap]
  exact ⟨p.store, List.mem_map_of_mem hp, (mem_everAdded_iff (h p hp)).1 hn⟩

theorem accounted_copyOf (h : p.Accounted) (t : PaneTable) (id : PaneId) :
    (t.copyOf id p).Accounted :=
  accounted_of_noted (fun _ => (mem_everAdded_iff h).1) rfl

/-! ## Tables of such panes -/

/-- Every live pane accounts for what it holds. -/
def Accounted (t : PaneTable) : Prop := ∀ id p, t.pane? id = some p → p.Accounted

theorem handedOn_accounted : HandedOn Pane.Accounted where
  of_work_eq := accounted_of_work_eq
  copyOf h t id := accounted_copyOf h t id
  union h t id spawners := accounted_union h t id spawners

/-! ## Sound tables -/

/-- The table is well-formed, and every live pane accounts for what it holds. -/
structure Sound (t : PaneTable) : Prop where
  wellFormed : ∃ rank, t.WellFormed rank
  accounted : t.Accounted

theorem sound_start (maxPanes brushWindow : Nat) (bus : Bus) :
    ({ start maxPanes brushWindow with bus } : PaneTable).Sound where
  wellFormed := ⟨fun _ => 0, wellFormed_start maxPanes brushWindow bus _⟩
  accounted _ _ h := nomatch h

/-- Where nothing is opened, a sound table stays sound. -/
theorem Sound.reach (h : t.Sound) (hreaches : ∀ {rank}, t.WellFormed rank → t.Reaches [] u) :
    u.Sound := by
  obtain ⟨rank, hwf⟩ := h.wellFormed
  exact ⟨(hreaches hwf).1, Each.of_evolves h.accounted handedOn_accounted (hreaches hwf).2⟩

theorem Sound.openPane (h : t.Sound) {r : SpawnRequest}
    (hr : ∀ s ∈ r.spawner, t.contains s = true) : (t.openPane r).1.Sound := by
  obtain ⟨rank, hwf⟩ := h.wellFormed
  exact ⟨(hwf.openPane hr).1, Each.openPane h.accounted handedOn_accounted fun u id =>
    accounted_requested u r id⟩

theorem Sound.spawn (h : t.Sound) {r : SpawnRequest} (hspawn : t.spawn r = .ok (u, id)) :
    u.Sound := by
  obtain ⟨rank, hwf⟩ := h.wellFormed
  exact ⟨(hwf.spawn hspawn).1, Each.spawn h.accounted handedOn_accounted
    (fun u id => accounted_requested u r id) hspawn⟩

theorem Sound.merge (h : t.Sound) {inputs : List PaneId} {keep : Bool}
    (hmerge : t.merge inputs keep = .ok (u, id)) : u.Sound := by
  obtain ⟨rank, hwf⟩ := h.wellFormed
  exact ⟨(hwf.merge hmerge).1, Each.merge h.accounted handedOn_accounted hmerge⟩

theorem Sound.duplicate (h : t.Sound) {source : PaneId}
    (hduplicate : t.duplicate source = .ok (u, id)) : u.Sound := by
  obtain ⟨rank, hwf⟩ := h.wellFormed
  exact ⟨(hwf.duplicate hduplicate).1, Each.duplicate h.accounted handedOn_accounted hduplicate⟩

theorem Sound.duplicateMany (h : t.Sound) {sources opened : List PaneId}
    (hduplicate : t.duplicateMany sources = .ok (u, opened)) : u.Sound := by
  obtain ⟨rank, hwf⟩ := h.wellFormed
  exact ⟨(hwf.duplicateMany hduplicate).1,
    Each.duplicateMany h.accounted handedOn_accounted hduplicate⟩

/-- **Every command keeps a sound table sound.** -/
theorem Sound.execute (h : t.Sound) {c : PaneCommand} {opened : List PaneId}
    (hexecute : t.execute c = .ok (u, opened)) : u.Sound := by
  cases c with
  | spawn r =>
    obtain ⟨id, hspawn, -⟩ := opening_eq_ok hexecute
    exact h.spawn hspawn
  | destroy id cascade activate =>
    obtain ⟨⟨v, removed⟩, hdestroy, hexecute⟩ := bind_eq_ok.1 hexecute
    obtain ⟨rfl, -⟩ := Prod.mk.inj (Except.ok.inj hexecute)
    exact h.reach fun hwf => hwf.destroy hdestroy
  | merge inputs keep =>
    obtain ⟨id, hmerge, -⟩ := opening_eq_ok hexecute
    exact h.merge hmerge
  | duplicate source =>
    obtain ⟨id, hduplicate, -⟩ := opening_eq_ok hexecute
    exact h.duplicate hduplicate
  | duplicateMany sources => exact h.duplicateMany hexecute
  | activate id => exact h.reach fun hwf => hwf.activate (arranging_eq_ok hexecute).1
  | arrange id f => exact h.reach fun hwf => hwf.arrange (arranging_eq_ok hexecute).1
  | toggle id => exact h.reach fun hwf => hwf.toggle (arranging_eq_ok hexecute).1
  | highlight id => exact h.reach fun hwf => hwf.highlight (arranging_eq_ok hexecute).1
  | clear =>
    obtain ⟨rfl, -⟩ := Prod.mk.inj (Except.ok.inj hexecute)
    exact h.reach fun hwf => hwf.clear

theorem Sound.perform (h : t.Sound) (c : PaneCommand) : (t.perform c).Sound := by
  unfold PaneTable.perform
  split
  next hexecute => exact h.execute hexecute
  next => exact h

end PaneTable

end StateAtlas
