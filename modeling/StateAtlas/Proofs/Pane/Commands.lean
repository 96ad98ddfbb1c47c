import Mathlib.Logic.Relation
import StateAtlas.Proofs.Pane.Copying
/-!
Tables under commands.

A table starts empty and is changed by commands: panes are spawned, destroyed, merged, copied and
arranged, and all of them are closed at once.  Whatever the commands, the table stays well-formed.

Main statement: `wellFormed_run`.
-/

namespace StateAtlas

/-- What can be asked of a table. -/
inductive PaneCommand
  | spawn (r : SpawnRequest)
  | destroy (id : PaneId) (cascade activate : Bool)
  | merge (inputs : List PaneId) (keep : Bool)
  | duplicate (source : PaneId)
  | duplicateMany (sources : List PaneId)
  | activate (id : PaneId)
  /-- Changes the footprint of a pane. -/
  | arrange (id : PaneId) (f : Geometry → Geometry)
  | toggle (id : PaneId)
  | highlight (id : PaneId)
  | clear

namespace PaneTable

variable {t u : PaneTable} {rank : PaneId → Nat}

/-- Carries out a command, or tells why it is refused; tells also which panes were opened. -/
def execute (t : PaneTable) : PaneCommand → Except PaneError (PaneTable × List PaneId)
  | .spawn r => do
    let (t, id) ← t.spawn r
    return (t, [id])
  | .destroy id cascade activate => do
    let (t, _) ← t.destroy id cascade activate
    return (t, [])
  | .merge inputs keep => do
    let (t, id) ← t.merge inputs keep
    return (t, [id])
  | .duplicate source => do
    let (t, id) ← t.duplicate source
    return (t, [id])
  | .duplicateMany sources => t.duplicateMany sources
  | .activate id => do return (← t.activate id, [])
  | .arrange id f => do return (← t.arrange id f, [])
  | .toggle id => do return (← t.toggle id, [])
  | .highlight id => do return (← t.highlight id, [])
  | .clear => .ok (t.clear.1, [])

/-- The table after a command; a refused one leaves it as it was. -/
def perform (t : PaneTable) (c : PaneCommand) : PaneTable :=
  match t.execute c with
  | .ok (u, _) => u
  | .error _ => t

/-- The table after commands, one after the other. -/
def run (t : PaneTable) (commands : List PaneCommand) : PaneTable := commands.foldl perform t

/-! ## Commands and their sequences -/

/-- What opens one pane tells its name. -/
theorem opening_eq_ok {x : Except PaneError (PaneTable × PaneId)} {opened : List PaneId}
    (h : (do let (t, id) ← x; return (t, [id])) = Except.ok (u, opened)) :
    ∃ id, x = .ok (u, id) ∧ opened = [id] := by
  obtain ⟨⟨v, id⟩, hv, h⟩ := bind_eq_ok.1 h
  obtain ⟨rfl, rfl⟩ := Prod.mk.inj (Except.ok.inj h)
  exact ⟨id, hv, rfl⟩

/-- What opens no pane tells no name. -/
theorem arranging_eq_ok {x : Except PaneError PaneTable} {opened : List PaneId}
    (h : (do return (← x, [])) = Except.ok (u, opened)) : x = .ok u ∧ opened = [] := by
  obtain ⟨v, hv, h⟩ := bind_eq_ok.1 h
  obtain ⟨rfl, rfl⟩ := Prod.mk.inj (Except.ok.inj h)
  exact ⟨hv, rfl⟩

/-- **Every command keeps a well-formed table well-formed.** -/
theorem WellFormed.execute (h : t.WellFormed rank) {c : PaneCommand} {opened : List PaneId}
    (hexecute : t.execute c = .ok (u, opened)) : t.Reaches opened u := by
  cases c with
  | spawn r =>
    obtain ⟨id, hspawn, rfl⟩ := opening_eq_ok hexecute
    exact h.spawn hspawn
  | destroy id cascade activate =>
    obtain ⟨⟨v, removed⟩, hdestroy, hexecute⟩ := bind_eq_ok.1 hexecute
    obtain ⟨rfl, rfl⟩ := Prod.mk.inj (Except.ok.inj hexecute)
    exact h.destroy hdestroy
  | merge inputs keep =>
    obtain ⟨id, hmerge, rfl⟩ := opening_eq_ok hexecute
    exact h.merge hmerge
  | duplicate source =>
    obtain ⟨id, hduplicate, rfl⟩ := opening_eq_ok hexecute
    exact h.duplicate hduplicate
  | duplicateMany sources => exact h.duplicateMany hexecute
  | activate id =>
    obtain ⟨hactivate, rfl⟩ := arranging_eq_ok hexecute
    exact h.activate hactivate
  | arrange id f =>
    obtain ⟨harrange, rfl⟩ := arranging_eq_ok hexecute
    exact h.arrange harrange
  | toggle id =>
    obtain ⟨htoggle, rfl⟩ := arranging_eq_ok hexecute
    exact h.toggle htoggle
  | highlight id =>
    obtain ⟨hhighlight, rfl⟩ := arranging_eq_ok hexecute
    exact h.highlight hhighlight
  | clear =>
    obtain ⟨rfl, rfl⟩ := Prod.mk.inj (Except.ok.inj hexecute)
    exact h.clear

theorem WellFormed.perform (h : t.WellFormed rank) (c : PaneCommand) :
    ∃ rank', (t.perform c).WellFormed rank' := by
  unfold PaneTable.perform
  split
  next hexecute => exact (h.execute hexecute).1
  next => exact ⟨rank, h⟩

theorem WellFormed.run (h : t.WellFormed rank) (commands : List PaneCommand) :
    ∃ rank', (t.run commands).WellFormed rank' := by
  induction commands generalizing t rank with
  | nil => exact ⟨rank, h⟩
  | cons c commands ih =>
    obtain ⟨rank', h'⟩ := h.perform c
    exact ih h'

/-! ## Commands and edits -/

/-- What can be done to a table: a command, or a change of one pane that stays in its place. -/
inductive Action
  | command (c : PaneCommand)
  | edit (id : PaneId) (f : Pane → Pane) (hkin : ∀ p, kin (f p) = kin p)

/-- The table after a command or a change of a pane. -/
def act (t : PaneTable) : Action → PaneTable
  | .command c => t.perform c
  | .edit id f _ => t.modify id f

/-- The table after commands and changes of panes, one after the other. -/
def actAll (t : PaneTable) (actions : List Action) : PaneTable := actions.foldl act t

theorem WellFormed.act (h : t.WellFormed rank) (a : Action) :
    ∃ rank', (t.act a).WellFormed rank' := by
  cases a with
  | command c => exact h.perform c
  | edit id f hkin => exact ⟨rank, h.of_sameLineage (SameLineage.modify t id hkin) h.active_live⟩

theorem WellFormed.actAll (h : t.WellFormed rank) (actions : List Action) :
    ∃ rank', (t.actAll actions).WellFormed rank' := by
  induction actions generalizing t rank with
  | nil => exact ⟨rank, h⟩
  | cons a actions ih =>
    obtain ⟨rank', h'⟩ := h.act a
    exact ih h'

/-! ## Well-formed tables -/

/-- A rank that increases along the lineage rules out a cycle. -/
theorem Linked.acyclic (h : t.Linked rank) (id : PaneId) : ¬Relation.TransGen t.Spawns id id := by
  have hlt : ∀ {parent child}, Relation.TransGen t.Spawns parent child →
      rank parent < rank child := by
    intro parent child hpath
    induction hpath with
    | single hspawns => exact h.rank_lt hspawns
    | tail _ hspawns ih => exact Nat.lt_trans ih (h.rank_lt hspawns)
  exact fun hcycle => absurd (hlt hcycle) (Nat.lt_irrefl _)

/-- **Tables stay well-formed, whatever the commands.**  Both orders list every live pane once and
nothing else.  There is a primary pane just when there are panes; it is live and was spawned from
nobody, and a pane that is active is live.  Spawners and spawned panes are live and agree with each
other, no pane lists a spawner twice, and there is no cycle.  And when a further command opens panes,
none of them takes the name of a pane that is live by then. -/
theorem wellFormed_run (maxPanes brushWindow : Nat) (bus : Bus) (commands : List PaneCommand) :
    let t := PaneTable.run { start maxPanes brushWindow with bus } commands
    ((t.ids.Nodup ∧ ∀ id, id ∈ t.ids ↔ t.contains id = true) ∧
      (t.created.Nodup ∧ ∀ id, id ∈ t.created ↔ t.contains id = true) ∧
      ∀ id p, t.pane? id = some p → p.id = id) ∧
    ((t.primary.isSome = true ↔ ∃ id, t.contains id = true) ∧
      ∀ id, t.primary = some id → ∃ p, t.pane? id = some p ∧ p.spawners = []) ∧
    (∀ id, t.active = some id → t.contains id = true) ∧
    (∀ id p, t.pane? id = some p →
      (∀ parent ∈ p.spawners, t.contains parent = true) ∧
      ∀ child, p.spawned.contains child = true →
        t.contains child = true) ∧
    (∀ id p id' p', t.pane? id = some p → t.pane? id' = some p' →
      (p.spawned.contains id' = true ↔ id ∈ p'.spawners)) ∧
    (∀ id p, t.pane? id = some p → p.spawners.Nodup) ∧
    (∀ id, ¬Relation.TransGen t.Spawns id id) ∧
    ∀ c opened u, t.execute c = .ok (u, opened) → t.Evolves opened u := by
  intro t
  -- The rank rules out cycles; the rest is said of the table itself.
  obtain ⟨rank, h⟩ := (wellFormed_start maxPanes brushWindow bus fun _ => 0).run commands
  have hlinked : t.Linked rank := h.rooted.linked
  have hspawned : ∀ id p, t.pane? id = some p →
      ∀ child, p.spawned.contains child = true ↔ t.Spawns id child :=
    fun _ _ hp => hlinked.mem_spawned hp
  refine ⟨⟨⟨hlinked.nodup_ids, hlinked.mem_ids⟩, ⟨hlinked.nodup_created, hlinked.mem_created⟩,
    fun _ _ => hlinked.id_pane⟩, ⟨?primary, h.rooted.primary_root⟩, h.active_live, ?live, ?agree,
    fun _ _ => hlinked.nodup_spawners, hlinked.acyclic, ?fresh⟩
  case primary =>
    constructor
    · intro hsome
      obtain ⟨id, hid⟩ := Option.isSome_iff_exists.1 hsome
      obtain ⟨p, hp, -⟩ := h.rooted.primary_root id hid
      exact ⟨id, contains_of_pane? hp⟩
    · rintro ⟨id, hid⟩
      exact Option.isSome_iff_ne_none.2 (h.rooted.primary_ne_none hid)
  case live =>
    intro id p hp
    refine ⟨fun parent hparent => hlinked.live_of_spawns ⟨p, hp, hparent⟩, fun child hchild => ?_⟩
    obtain ⟨q, hq, -⟩ := (hspawned id p hp child).1 hchild
    exact contains_of_pane? hq
  case agree =>
    intro id p id' p' hp hp'
    rw [hspawned id p hp]
    constructor
    · rintro ⟨q, hq, hmem⟩
      rw [hp'] at hq
      exact Option.some.inj hq ▸ hmem
    · exact fun hmem => ⟨p', hp', hmem⟩
  case fresh => exact fun c opened u hexecute => (h.execute hexecute).2

end PaneTable

end StateAtlas
