import StateAtlas.Pane.Table
/-!
Panes made from other panes: the union of several, and copies.

A merged pane takes over what its inputs hold, earlier inputs first.  A copy joins the lineage of
its source; of panes that are copied together, a copy is spawned from the copies of its source's
spawners where there are some.
-/

namespace StateAtlas.PaneTable

/-- The pane of a name, or the reason why it cannot be an input of a merge. -/
def mergeInput (t : PaneTable) (keep : Bool) (id : PaneId) : Except PaneError Pane := do
  let p ← t.get id
  if keep = false ∧ t.primary = some id then throw (.primary id) else return p

/-- The panes that a merged pane is spawned from: its inputs if these are kept, or else the panes
that the inputs were spawned from. -/
def mergedSpawners (ids : List PaneId) (panes : List Pane) (keep : Bool) : List PaneId :=
  if keep then ids
  else ((panes.flatMap Pane.spawners).filter fun id => !ids.contains id).eraseDups

/-- A new pane that holds what others hold.  View and brush come from the first. -/
def union (t : PaneTable) (id : PaneId) (panes : List Pane) (spawners : List PaneId) : Pane :=
  let store := panes.foldl (fun s p => s.absorb p.store) Store.empty
  let view := (panes.head?.map Pane.view).getD {}
  let brush := (panes.head?.map fun p => p.brush.state).getD {}
  let built := t.build id view brush store
  { built with
    spawnerNodes := (panes.flatMap Pane.spawnerNodes).eraseDups
    everAdded := built.everAdded.insertMany (panes.flatMap fun p => p.everAdded.toList)
    spawners }

/-- Opens the union of live panes.  Unless they are kept, these are removed once the new pane is
announced. -/
def openUnion (t : PaneTable) (ids : List PaneId) (panes : List Pane) (keep : Bool) :
    PaneTable × PaneId :=
  let t := if keep then t.makeRoom ids else t
  let id := t.freshName (Naming.merged ids)
  let p := t.union id panes (mergedSpawners ids panes keep)
  let t := ((t.place p none .atEnd).announce id).setActive id
  (if keep then t else (t.remove ids false).1, id)

/-- Opens a pane that holds the union of at least two others. -/
def merge (t : PaneTable) (inputs : List PaneId) (keep : Bool) :
    Except PaneError (PaneTable × PaneId) := do
  let ids := inputs.eraseDups
  if ids.length < 2 then throw (.notEnoughPanes ids.length)
  else
    let panes ← ids.mapM (t.mergeInput keep)
    return t.openUnion ids panes keep

/-- A new pane that holds what another holds and has its place in the lineage. -/
def copyOf (t : PaneTable) (id : PaneId) (p : Pane) : Pane :=
  let built := t.build id p.view p.brush.state p.store
  { built with
    spawners := p.spawners
    spawnerNodes := p.spawnerNodes
    everAdded := built.everAdded.insertMany p.everAdded.toList
    geometry := p.geometry }

/-- Puts in a copy of a pane. -/
def placeCopy (t : PaneTable) (source : PaneId) (p : Pane) : PaneTable × PaneId :=
  let (naming, fresh) := t.naming.duplicate source
  let t := { t with naming }
  let id := t.freshName fresh
  (t.place (t.copyOf id p) (some source) p.view.insertPolicy, id)

/-- Adds a copy of a pane, which is announced later; `protected_` are not evicted for it. -/
def copy (t : PaneTable) (source : PaneId) (protected_ : List PaneId) :
    Except PaneError (PaneTable × PaneId) := do
  let t := t.makeRoom protected_
  let p ← t.get source
  return t.placeCopy source p

/-- Copies a pane into the same lineage, without its selection and history. -/
def duplicate (t : PaneTable) (source : PaneId) : Except PaneError (PaneTable × PaneId) := do
  let _ ← t.get source
  let (t, id) ← t.copy source [source]
  return ((t.announce id).setActive id, id)

/-- Copies panes one after the other; tells which copy belongs to which source. -/
def copyEach (t : PaneTable) (sources : List PaneId) :
    Except PaneError (PaneTable × List (PaneId × PaneId)) :=
  sources.eraseDups.foldlM (fun (t, copies) source => do
    let (t, id) ← t.copy source (sources ++ copies.map Prod.snd)
    return (t, copies ++ [(source, id)])) (t, [])

/-- The spawners of a copy, with the copies of those that were copied as well. -/
def respawned (copies : List (PaneId × PaneId)) (spawners : List PaneId) : List PaneId :=
  spawners.map fun id => (copies.lookup id).getD id

/-- The pane without another recorded as spawned from it. -/
def notSpawning (child : PaneId) (p : Pane) : Pane := { p with spawned := p.spawned.erase child }

/-- Lets a copy be spawned from the copies of its source's spawners. -/
def relink (copies : List (PaneId × PaneId)) (t : PaneTable) (id : PaneId) : PaneTable :=
  match t.pane? id with
  | none => t
  | some p =>
    let replaced := p.spawners.filter fun spawner => (copies.lookup spawner).isSome
    let t := { t with live := t.live.modifyMany replaced (notSpawning id) }
    (t.modify id fun p => { p with spawners := respawned copies p.spawners }).link id

/-- Copies several panes at once, each once.  The last copy becomes the active pane. -/
def duplicateMany (t : PaneTable) (sources : List PaneId) :
    Except PaneError (PaneTable × List PaneId) := do
  let _ ← sources.mapM t.get
  let (t, copies) ← t.copyEach sources
  let ids := copies.map Prod.snd
  let t := ids.foldl announce (ids.foldl (relink copies) t)
  return (match ids.getLast? with | some id => t.setActive id | none => t, ids)

end StateAtlas.PaneTable
