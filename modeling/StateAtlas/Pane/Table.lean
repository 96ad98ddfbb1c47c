import StateAtlas.Pane.Basic
import StateAtlas.Pane.Naming
import StateAtlas.Sync.Bus
/-!
The table of live panes.

Panes are kept under their names; beside that the table knows the order in which they are displayed
and the order in which they were created, the primary pane, which cannot be destroyed, and the active
one.  The number of panes is
limited: to make room for a new pane the oldest ones are evicted, except the primary pane and those
that the new pane is made from.

Every change is announced on the bus of the table.  An operation that is refused leaves the table as
it was.
-/

namespace StateAtlas

/-- Why an operation on panes is refused. -/
inductive PaneError
  | notFound (pane : PaneId)
  | primary (pane : PaneId)
  | notEnoughPanes (count : Nat)
  | closed (pane : PaneId)
deriving DecidableEq, Repr

/-- What a person is told. -/
def PaneError.message : PaneError → String
  | .notFound pane => s!"pane not found: {pane.text}"
  | .primary pane => s!"the primary pane {pane.text} cannot be destroyed"
  | .notEnoughPanes count => s!"merge needs at least two distinct panes, got {count}"
  | .closed pane => s!"pane {pane.text} is closed"

/-- The kind of the error in one word. -/
def PaneError.kindName : PaneError → String
  | .notFound _ => "NotFound"
  | .primary _ => "Primary"
  | .notEnoughPanes _ => "NotEnoughPanes"
  | .closed _ => "Closed"

def PaneError.toJson (e : PaneError) : Json := .failure e.kindName (some e.message)

instance : ToJson PaneError := ⟨PaneError.toJson⟩

/-- What a new pane is made from. -/
structure SpawnRequest where
  spawner : Option PaneId := none
  seed : Fragment := {}
  /-- The nodes that the pane is spawned to explore. -/
  spawnerNodes : List NodeId := []
  insert : InsertPolicy := .afterSpawner
  view : ViewState := {}

namespace SpawnRequest

/-- A pane that starts from a fragment and stands where its view says. -/
def seeded (seed : Fragment) (view : ViewState) : SpawnRequest :=
  { seed, view, insert := view.insertPolicy }

/-- The pane spawned from another to explore nodes. -/
def fromPane (r : SpawnRequest) (spawner : PaneId) (nodes : List NodeId) : SpawnRequest :=
  { r with spawner := some spawner, spawnerNodes := nodes }

end SpawnRequest

/-- The live panes. -/
structure PaneTable where
  /-- The panes by name. -/
  live : Dictionary PaneId Pane := {}
  /-- The names of the panes in display order. -/
  ids : List PaneId := []
  /-- The names of the panes, oldest first. -/
  created : List PaneId := []
  primary : Option PaneId := none
  active : Option PaneId := none
  naming : Naming := {}
  /-- The number of the next lease. -/
  nextLease : Nat := 0
  maxPanes : Nat
  /-- The window of the panes' brushes, in milliseconds. -/
  brushWindow : Nat
  bus : Bus := {}

namespace PaneTable

/-- A table without panes; at least one pane is always allowed. -/
def start (maxPanes brushWindow : Nat) : PaneTable :=
  { maxPanes := max 1 maxPanes, brushWindow }

/-! ## Looking up -/

/-- The panes in display order. -/
def panes (t : PaneTable) : List Pane := t.ids.filterMap t.live.get?

/-- The pane of a name. -/
def pane? (t : PaneTable) (id : PaneId) : Option Pane := t.live.get? id

/-- Whether a pane of that name is live. -/
def contains (t : PaneTable) (id : PaneId) : Bool := t.live.contains id

/-- Whether no pane is live. -/
def isEmpty (t : PaneTable) : Bool := t.live.isEmpty

/-- The pane of a name, or the reason why there is none. -/
def get (t : PaneTable) (id : PaneId) : Except PaneError Pane :=
  match t.pane? id with
  | some p => .ok p
  | none => .error (.notFound id)

theorem get_eq_ok {t : PaneTable} {id : PaneId} {p : Pane} :
    t.get id = .ok p ↔ t.pane? id = some p := by
  unfold get
  cases t.pane? id <;> simp

theorem contains_of_pane? {t : PaneTable} {id : PaneId} {p : Pane} (h : t.pane? id = some p) :
    t.contains id = true :=
  Option.isSome_iff_exists.2 ⟨p, h⟩

theorem exists_pane?_iff {t : PaneTable} {id : PaneId} :
    t.contains id = true ↔ ∃ p, t.pane? id = some p :=
  Option.isSome_iff_exists

/-- The first pane that was spawned to explore one of some nodes. -/
def explored? (t : PaneTable) (nodes : List NodeId) : Option PaneId :=
  (t.panes.find? fun p => p.spawnerNodes.any nodes.contains).map Pane.id

/-! ## Small changes -/

/-- Changes the pane of a name. -/
def modify (t : PaneTable) (id : PaneId) (f : Pane → Pane) : PaneTable :=
  { t with live := t.live.modify id f }

/-- Changes every pane. -/
def modifyAll (t : PaneTable) (f : Pane → Pane) : PaneTable :=
  { t with live := t.live.mapValues f }

@[simp] theorem pane?_modify (t : PaneTable) (id k : PaneId) (f : Pane → Pane) :
    (t.modify id f).pane? k = if id = k then (t.pane? k).map f else t.pane? k :=
  Dictionary.get?_modify ..

@[simp] theorem pane?_modifyAll (t : PaneTable) (f : Pane → Pane) (k : PaneId) :
    (t.modifyAll f).pane? k = (t.pane? k).map f :=
  Dictionary.get?_mapValues ..

/-- Announces an event. -/
def publish (t : PaneTable) (e : Event) : PaneTable := { t with bus := t.bus.publish e }

/-- Makes a pane the active one and announces it, unless it is so already. -/
def setActive (t : PaneTable) (id : PaneId) : PaneTable :=
  if t.active = some id then t
  else
    let t := { t with active := some id }
    t.publish (.registry (.activePane id))

theorem setActive_eq (t : PaneTable) (id : PaneId) :
    t.setActive id = { t with active := some id, bus := (t.setActive id).bus } := by
  unfold setActive
  split
  next h => rw [← h]
  next => rfl

/-- Makes a live pane the active one. -/
def activate (t : PaneTable) (id : PaneId) : Except PaneError PaneTable := do
  let _ ← t.get id
  return t.setActive id

/-- Gives out the lease on a pane. -/
def beginExpansion (t : PaneTable) (p : Pane) : Except ExploreError (PaneTable × Lease) := do
  let busy ← p.beginExpansion t.nextLease
  return ({ t.modify p.id (fun _ => busy) with nextLease := t.nextLease + 1 }, ⟨p.id, t.nextLease⟩)

/-- Takes a lease back. -/
def release (t : PaneTable) (lease : Lease) : PaneTable :=
  t.modify lease.pane fun p => p.release lease.number

/-! ## Removing panes -/

/-- The pane without a link to another. -/
def unlinked (gone : PaneId) (p : Pane) : Pane :=
  { p with spawned := p.spawned.erase gone, spawners := p.spawners.filter fun id => id ≠ gone }

/-- Takes one pane and every link to it out of the table. -/
def erase (t : PaneTable) (id : PaneId) : PaneTable :=
  { t with
    live := (t.live.erase id).mapValues (unlinked id)
    ids := t.ids.filter fun other => other ≠ id
    created := t.created.filter fun other => other ≠ id }

theorem pane?_erase (t : PaneTable) (id k : PaneId) :
    (t.erase id).pane? k = if id = k then none else (t.pane? k).map (unlinked id) := by
  rw [pane?, erase, Dictionary.get?_mapValues, Dictionary.get?_erase]
  split <;> rfl

/-- Removes one pane and announces it. -/
def removeOne (t : PaneTable) (id : PaneId) : PaneTable :=
  if t.contains id then (t.erase id).publish (.registry (.paneRemoved id)) else t

/-- After panes were removed: if the active pane is not live, either makes the last pane in display
order active or leaves none active. -/
def reactivate (t : PaneTable) (activate : Bool) : PaneTable :=
  if t.active.any t.contains then t
  else match activate, t.ids.getLast? with
    | true, some id => t.setActive id
    | _, _ => { t with active := none }

/-- Removes panes one after the other; tells which of them were live. -/
def remove (t : PaneTable) (victims : List PaneId) (activate : Bool) : PaneTable × List PaneId :=
  ((victims.foldl removeOne t).reactivate activate, (victims.filter t.contains).eraseDups)

/-- The oldest pane that may be evicted: neither the primary pane nor a protected one. -/
def oldest? (t : PaneTable) (protected_ : List PaneId) : Option PaneId :=
  t.created.find? fun id => some id ≠ t.primary && !protected_.contains id

/-- Evicts panes, the oldest first, until one more fits; at most a number of them. -/
def evict (protected_ : List PaneId) : Nat → PaneTable → PaneTable
  | 0, t => t
  | n + 1, t =>
    if t.live.size < t.maxPanes then t
    else match t.oldest? protected_ with
      | some victim => evict protected_ n (t.remove [victim] false).1
      | none => t

/-- Evicts panes until one more fits, or until none is left that may be evicted. -/
def makeRoom (t : PaneTable) (protected_ : List PaneId) : PaneTable :=
  evict protected_ t.created.length t

/-! ## Adding panes -/

/-- A new pane with a store. -/
def build (t : PaneTable) (id : PaneId) (view : ViewState) (brush : BrushState Float)
    (store : Store) : Pane :=
  let p : Pane :=
    { id, color := Naming.color t.live.size, store, view
      everAdded := .ofList store.nodeIds
      brush := .start id brush t.brushWindow }
  p.settle

/-- A name that no live pane has. -/
def freshName (t : PaneTable) (base : PaneId) : PaneId := Naming.unique t.live.keys base

/-- Lists a name after another one, or at the end. -/
def listedAfter (ids : List PaneId) (after : Option PaneId) (id : PaneId) : List PaneId :=
  match after.bind ids.idxOf? with
  | some i => ids.insertIdx (i + 1) id
  | none => ids ++ [id]

/-- The pane with another recorded as spawned from it. -/
def spawning (child : PaneId) (p : Pane) : Pane := { p with spawned := p.spawned.insert child }

theorem listedAfter_perm (ids : List PaneId) (after : Option PaneId) (id : PaneId) :
    (listedAfter ids after id).Perm (id :: ids) := by
  unfold listedAfter
  split
  next i hi =>
    obtain ⟨a, -, ha⟩ := Option.bind_eq_some_iff.1 hi
    obtain ⟨hlt, -⟩ := List.idxOf?_eq_some_iff.1 ha
    exact List.perm_insertIdx id ids (by omega)
  next => exact List.perm_append_singleton id ids

/-- Tells the spawners of a pane that they spawned it. -/
def link (t : PaneTable) (child : PaneId) : PaneTable :=
  match t.pane? child with
  | some p => { t with live := t.live.modifyMany p.spawners (spawning child) }
  | none => t

theorem link_eq (t : PaneTable) (child : PaneId) :
    t.link child = { t with live := (t.link child).live } := by
  unfold link
  split <;> rfl

theorem pane?_link {t : PaneTable} {child : PaneId} {p : Pane} (h : t.pane? child = some p)
    (hnodup : p.spawners.Nodup) (k : PaneId) :
    (t.link child).pane? k =
      if k ∈ p.spawners then (t.pane? k).map (spawning child) else t.pane? k := by
  unfold link
  rw [h]
  exact Dictionary.get?_modifyMany hnodup ..

/-- Puts a new pane into the table. -/
def place (t : PaneTable) (p : Pane) (after : Option PaneId) (insert : InsertPolicy) : PaneTable :=
  let after := if insert = .afterSpawner then after else none
  let t := { t with live := t.live.insert p.id p }.link p.id
  { t with ids := listedAfter t.ids after p.id, created := t.created ++ [p.id] }

theorem place_eq (t : PaneTable) (p : Pane) (after : Option PaneId) (insert : InsertPolicy) :
    t.place p after insert = { t with
      live := (t.place p after insert).live
      ids := listedAfter t.ids (if insert = .afterSpawner then after else none) p.id
      created := t.created ++ [p.id] } := by
  unfold place
  rw [link_eq]

@[simp] theorem primary_place (t : PaneTable) (p : Pane) (after : Option PaneId)
    (insert : InsertPolicy) : (t.place p after insert).primary = t.primary := by
  rw [place_eq]

@[simp] theorem active_place (t : PaneTable) (p : Pane) (after : Option PaneId)
    (insert : InsertPolicy) : (t.place p after insert).active = t.active := by
  rw [place_eq]

theorem pane?_place (t : PaneTable) {p : Pane} (after : Option PaneId) (insert : InsertPolicy)
    (hnodup : p.spawners.Nodup) (hself : p.id ∉ p.spawners) (k : PaneId) :
    (t.place p after insert).pane? k =
      if k = p.id then some p
      else if k ∈ p.spawners then (t.pane? k).map (spawning p.id) else t.pane? k := by
  let u : PaneTable := { t with live := t.live.insert p.id p }
  have hget : ∀ k, u.pane? k = if p.id = k then some p else t.pane? k :=
    fun k => Dictionary.get?_insert ..
  have hsome : u.pane? p.id = some p := by rw [hget, if_pos rfl]
  refine (pane?_link hsome hnodup k).trans ?_
  rw [hget]
  by_cases hk : k = p.id
  · subst hk
    simp [hself]
  · simp [hk, Ne.symm hk]

/-- Announces a new pane. -/
def announce (t : PaneTable) (id : PaneId) : PaneTable :=
  match t.pane? id with
  | some p =>
    t.publish (.registry (.paneAdded p.id p.color p.store.nodeIds p.spawners p.spawnerNodes))
  | none => t

/-- Makes room for a pane that is spawned, and finds a name for it. -/
def nameSpawned (t : PaneTable) (r : SpawnRequest) : PaneTable × PaneId :=
  let t := t.makeRoom r.spawner.toList
  let (naming, fresh) := t.naming.spawn
  ({ t with naming }, t.freshName fresh)

/-- The pane that a request asks for. -/
def requested (t : PaneTable) (r : SpawnRequest) (id : PaneId) : Pane :=
  { t.build id r.view {} (.ofFragment r.seed) with
    spawnerNodes := r.spawnerNodes, spawners := r.spawner.toList }

/-- Opens a pane whose spawner, if it has one, is live; the first pane becomes the primary one. -/
def openPane (t : PaneTable) (r : SpawnRequest) : PaneTable × PaneId :=
  let (t, id) := if t.primary.isNone then (t, Naming.primary) else t.nameSpawned r
  let t := t.place (t.requested r id) r.spawner r.insert
  let t := if t.primary.isNone then { t with primary := some id } else t
  ((t.announce id).setActive id, id)

/-- Opens a pane, provided that its spawner is live. -/
def spawn (t : PaneTable) (r : SpawnRequest) : Except PaneError (PaneTable × PaneId) :=
  match r.spawner with
  | some spawner => do
    let _ ← t.get spawner
    return t.openPane r
  | none => .ok (t.openPane r)

end PaneTable

end StateAtlas
