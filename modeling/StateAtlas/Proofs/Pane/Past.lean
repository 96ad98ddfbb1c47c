import StateAtlas.Proofs.Dictionary
import StateAtlas.Proofs.Pane.Commands
/-!
Tables with a past.

Closing every pane does not take everything back: leases that were given out keep their numbers, so
the next ones have higher numbers, and subscriptions that the bus forgot are still held by their
owners.  Nothing that a table does depends on either.  A `Past` says how many leases were given out
and which subscriptions are left; whatever is asked of a table, it makes no difference to what comes
of it whether the table has a past.

Main statement: `Past.execute_table`.
-/

namespace StateAtlas

open PaneTable

/-- What is left of the time before a table was cleared. -/
structure Past where
  /-- How many leases were given out. -/
  leases : Nat
  bus : Bus
  /-- The bus has forgotten every subscription. -/
  deaf : ∀ s ∈ bus.subscriptions, s.registered = false

namespace Past

variable (past : Past)

/-- The lease that is given out instead. -/
def lease (l : Lease) : Lease := { l with number := past.leases + l.number }

/-- The pane with the lease that is out instead. -/
def pane (p : Pane) : Pane := { p with lease := p.lease.map fun n => past.leases + n }

/-- The table with a past. -/
def table (t : PaneTable) : PaneTable :=
  { t with
    live := t.live.mapValues past.pane
    nextLease := past.leases + t.nextLease
    bus := past.bus }

/-! ## The bus -/

theorem modify_bus {f : Subscription → Subscription}
    (hf : ∀ s : Subscription, s.registered = false → f s = s) :
    past.bus.subscriptions.map f = past.bus.subscriptions :=
  (List.map_congr_left fun s hs => hf s (past.deaf s hs)).trans (List.map_id _)

theorem publish_bus (e : Event) : past.bus.publish e = past.bus := by
  have hdeaf : past.bus.subscriptions.map (fun s => s.deliver e) = past.bus.subscriptions :=
    past.modify_bus fun s hs => by simp [Subscription.deliver, hs]
  rw [Bus.publish, hdeaf]

theorem clear_bus : past.bus.clear = past.bus := by
  have hdeaf : past.bus.subscriptions.map (fun s => { s with registered := false }) =
      past.bus.subscriptions := past.modify_bus fun s hs => by rw [← hs]
  rw [Bus.clear, hdeaf]

/-! ## Panes -/

section Pane

variable (p : Pane)

theorem phase_pane : (past.pane p).phase = p.phase := by
  simp only [Pane.phase, pane, Option.isNone_map]
  rfl

theorem endExpansion_pane : (past.pane p).endExpansion = past.pane p.endExpansion := by
  unfold Pane.endExpansion
  rw [apply_ite past.pane]
  rfl

theorem release_pane (number : Nat) :
    (past.pane p).release (past.leases + number) = past.pane (p.release number) := by
  have hout : (past.pane p).lease = some (past.leases + number) ↔ p.lease = some number := by
    cases h : p.lease with
    | none => simp [pane, h]
    | some n => simp [pane, h]
  unfold Pane.release
  by_cases h : p.lease = some number
  · rw [if_pos (hout.2 h), if_pos h]
    rfl
  · rw [if_neg (mt hout.1 h), if_neg h]

theorem settle_pane : (past.pane p).settle = past.pane p.settle := by
  unfold Pane.settle
  rw [phase_pane]
  split <;> rfl

theorem noteAdded_pane (ids : List NodeId) :
    (past.pane p).noteAdded ids = past.pane (p.noteAdded ids) :=
  past.settle_pane { p with everAdded := p.everAdded.insertMany ids }

theorem select_pane (ids : List NodeId) : (past.pane p).select ids = past.pane (p.select ids) := by
  simp only [Pane.select]
  show (if (p.setSelection ids).selection = p.selection then _ else _) = _
  split <;> rfl

theorem undo?_pane : (past.pane p).undo? = p.undo?.map past.pane := by
  simp only [Pane.undo?, Option.map_map]
  rfl

theorem redo?_pane : (past.pane p).redo? = p.redo?.map past.pane := by
  simp only [Pane.redo?, Option.map_map]
  rfl

theorem beginExpansion_pane (number : Nat) :
    (past.pane p).beginExpansion (past.leases + number) =
      (p.beginExpansion number).map past.pane := by
  unfold Pane.beginExpansion
  rw [phase_pane]
  split <;> rfl

end Pane

/-! ## Looking up -/

section Table

variable (t : PaneTable)

theorem pane?_table (id : PaneId) : (past.table t).pane? id = (t.pane? id).map past.pane :=
  Dictionary.get?_mapValues ..

theorem contains_table (id : PaneId) : (past.table t).contains id = t.contains id :=
  Dictionary.contains_mapValues ..

theorem isEmpty_table : (past.table t).isEmpty = t.isEmpty := Dictionary.isEmpty_mapValues ..

theorem keys_table : (past.table t).live.keys = t.live.keys := Dictionary.keys_mapValues ..

theorem size_table : (past.table t).live.size = t.live.size := Dictionary.size_mapValues ..

theorem get_table (id : PaneId) : (past.table t).get id = (t.get id).map past.pane := by
  unfold PaneTable.get
  rw [pane?_table]
  cases t.pane? id <;> rfl

theorem panes_table : (past.table t).panes = t.panes.map past.pane := by
  show t.ids.filterMap (past.table t).pane? = (t.ids.filterMap t.pane?).map past.pane
  rw [List.map_filterMap]
  exact congrArg (fun f => t.ids.filterMap f) (funext (past.pane?_table t))

theorem find?_panes_table (f : Pane → Bool) (hf : ∀ p, f (past.pane p) = f p) :
    (past.table t).panes.find? f = (t.panes.find? f).map past.pane := by
  rw [panes_table, List.find?_map]
  exact congrArg (fun g => (t.panes.find? g).map past.pane) (funext hf)

theorem explored?_table (nodes : List NodeId) :
    (past.table t).explored? nodes = t.explored? nodes := by
  unfold PaneTable.explored?
  rw [past.find?_panes_table t _ fun _ => rfl, Option.map_map]
  rfl

/-! ## Small changes -/

theorem modify_table (id : PaneId) {f r : Pane → Pane}
    (h : ∀ p, past.pane (f p) = r (past.pane p)) :
    (past.table t).modify id r = past.table (t.modify id f) := by
  have hlive := Dictionary.mapValues_modify t.live id h
  simp only [PaneTable.modify, table, hlive]

theorem modifyAll_table {f r : Pane → Pane} (h : ∀ p, past.pane (f p) = r (past.pane p)) :
    (past.table t).modifyAll r = past.table (t.modifyAll f) := by
  simp only [PaneTable.modifyAll, table, Dictionary.mapValues_mapValues, h]

theorem publish_table (e : Event) : (past.table t).publish e = past.table (t.publish e) := by
  simp only [PaneTable.publish, table, publish_bus]

theorem setActive_table (id : PaneId) :
    (past.table t).setActive id = past.table (t.setActive id) := by
  unfold PaneTable.setActive
  by_cases h : t.active = some id
  · rw [if_pos h]
    exact if_pos h
  · rw [if_neg h]
    exact (if_neg h).trans (past.publish_table { t with active := some id } _)

theorem release_table (l : Lease) :
    (past.table t).release (past.lease l) = past.table (t.release l) :=
  past.modify_table t l.pane fun p => (past.release_pane p l.number).symm

theorem beginExpansion_table (p : Pane) :
    (past.table t).beginExpansion (past.pane p) =
      (t.beginExpansion p).map (Prod.map past.table past.lease) := by
  unfold PaneTable.beginExpansion
  show ((past.pane p).beginExpansion (past.leases + t.nextLease) >>= _) = _
  rw [beginExpansion_pane]
  cases p.beginExpansion t.nextLease with
  | error e => rfl
  | ok busy =>
    have hmodify : (past.table t).modify p.id (fun _ => past.pane busy) =
        past.table (t.modify p.id fun _ => busy) := past.modify_table t p.id fun _ => rfl
    exact congrArg (fun u : PaneTable => Except.ok ({ u with
      nextLease := past.leases + t.nextLease + 1 }, past.lease ⟨p.id, t.nextLease⟩)) hmodify

/-! ## Removing panes -/

theorem erase_table (id : PaneId) : (past.table t).erase id = past.table (t.erase id) := by
  have hlive : ((t.live.erase id).mapValues (unlinked id)).mapValues past.pane =
      ((t.live.mapValues past.pane).erase id).mapValues (unlinked id) := by
    rw [← Dictionary.mapValues_erase, Dictionary.mapValues_mapValues,
      Dictionary.mapValues_mapValues]
    rfl
  simp only [PaneTable.erase, table, hlive]

theorem removeOne_table (id : PaneId) :
    (past.table t).removeOne id = past.table (t.removeOne id) := by
  unfold PaneTable.removeOne
  rw [contains_table, erase_table, publish_table]
  split <;> rfl

theorem reactivate_table (activate : Bool) :
    (past.table t).reactivate activate = past.table (t.reactivate activate) := by
  have hlive : (past.table t).active.any (past.table t).contains = t.active.any t.contains :=
    congrArg (fun f => t.active.any f) (funext (past.contains_table t))
  have hids : (past.table t).ids = t.ids := rfl
  unfold PaneTable.reactivate
  rw [hlive, hids]
  rw [apply_ite past.table]
  cases activate <;> cases t.ids.getLast? <;> simp only [setActive_table] <;> rfl

theorem foldl_table {α : Type} {f : PaneTable → α → PaneTable}
    (hf : ∀ t a, f (past.table t) a = past.table (f t a)) (as : List α) :
    as.foldl f (past.table t) = past.table (as.foldl f t) := by
  induction as generalizing t with
  | nil => rfl
  | cons a as ih => rw [List.foldl_cons, List.foldl_cons, hf, ih]

theorem remove_table (victims : List PaneId) (activate : Bool) :
    (past.table t).remove victims activate =
      Prod.map past.table id (t.remove victims activate) := by
  have hlive : (past.table t).contains = t.contains := funext (past.contains_table t)
  unfold PaneTable.remove
  rw [past.foldl_table t past.removeOne_table, reactivate_table, hlive]
  rfl

theorem evict_table (protected_ : List PaneId) (n : Nat) :
    evict protected_ n (past.table t) = past.table (evict protected_ n t) := by
  induction n generalizing t with
  | zero => rfl
  | succ n ih =>
    have holdest : (past.table t).oldest? protected_ = t.oldest? protected_ := rfl
    rw [evict, evict, size_table, holdest]
    rw [apply_ite past.table]
    cases t.oldest? protected_ with
    | none => rfl
    | some victim =>
      simp only [remove_table, Prod.map_fst, ih]
      rfl

theorem makeRoom_table (protected_ : List PaneId) :
    (past.table t).makeRoom protected_ = past.table (t.makeRoom protected_) :=
  past.evict_table t protected_ t.created.length

/-! ## Adding panes -/

theorem build_table (id : PaneId) (view : ViewState) (brush : BrushState Float) (store : Store) :
    (past.table t).build id view brush store = past.pane (t.build id view brush store) := by
  simp only [PaneTable.build, size_table, ← settle_pane]
  rfl

theorem freshName_table (base : PaneId) : (past.table t).freshName base = t.freshName base :=
  congrArg (fun taken => Naming.unique taken base) (past.keys_table t)

theorem link_table (child : PaneId) : (past.table t).link child = past.table (t.link child) := by
  unfold PaneTable.link
  rw [pane?_table]
  cases t.pane? child with
  | none => rfl
  | some p =>
    have hlive := Dictionary.mapValues_modifyMany t.live p.spawners (f := spawning child)
      (g := past.pane) (r := spawning child) fun _ => rfl
    simp only [Option.map_some, table, hlive]
    rfl

theorem place_table (p : Pane) (after : Option PaneId) (insert : InsertPolicy) :
    (past.table t).place (past.pane p) after insert = past.table (t.place p after insert) := by
  have hlive : (past.table t).live.insert p.id (past.pane p) =
      (past.table { t with live := t.live.insert p.id p }).live :=
    (Dictionary.mapValues_insert ..).symm
  have hlink := past.link_table { t with live := t.live.insert p.id p } p.id
  unfold PaneTable.place
  exact congrArg (fun u : PaneTable => { u with
    ids := listedAfter u.ids (if insert = InsertPolicy.afterSpawner then after else none) p.id
    created := u.created ++ [p.id] })
    ((congrArg (fun live => ({ past.table t with live := live } : PaneTable).link p.id) hlive).trans
      hlink)

theorem announce_table (id : PaneId) : (past.table t).announce id = past.table (t.announce id) := by
  unfold PaneTable.announce
  rw [pane?_table]
  cases t.pane? id with
  | none => rfl
  | some p => exact past.publish_table t _

theorem nameSpawned_table (r : SpawnRequest) :
    (past.table t).nameSpawned r = Prod.map past.table id (t.nameSpawned r) := by
  simp only [PaneTable.nameSpawned, makeRoom_table]
  exact congrArg (fun taken => (past.table { t.makeRoom r.spawner.toList with
    naming := (t.makeRoom r.spawner.toList).naming.spawn.1 }, Naming.unique taken
      (t.makeRoom r.spawner.toList).naming.spawn.2)) (past.keys_table _)

theorem requested_table (r : SpawnRequest) (id : PaneId) :
    (past.table t).requested r id = past.pane (t.requested r id) := by
  unfold PaneTable.requested
  rw [build_table]
  rfl

/-- A pane that is made from panes with a past is a pane with a past. -/
theorem announced_table {u u' : PaneTable} (h : u' = past.table u) (id : PaneId) :
    (u'.announce id).setActive id = past.table ((u.announce id).setActive id) := by
  rw [h, announce_table, setActive_table]

theorem openPane_table (r : SpawnRequest) :
    (past.table t).openPane r = Prod.map past.table id (t.openPane r) := by
  have hnamed : (if (past.table t).primary.isNone then (past.table t, Naming.primary)
      else (past.table t).nameSpawned r) =
      Prod.map past.table id
        (if t.primary.isNone then (t, Naming.primary) else t.nameSpawned r) := by
    rw [apply_ite (Prod.map past.table id), nameSpawned_table]
    rfl
  unfold PaneTable.openPane
  rw [hnamed]
  generalize (if t.primary.isNone then (t, Naming.primary) else t.nameSpawned r) = named
  obtain ⟨u, id⟩ := named
  simp only [Prod.map, id_eq, requested_table, place_table]
  generalize u.place (u.requested r id) r.spawner r.insert = v
  refine congrArg (fun w => (w, id)) (past.announced_table ?_ id)
  rw [apply_ite past.table]
  rfl

theorem spawn_table (r : SpawnRequest) :
    (past.table t).spawn r = (t.spawn r).map (Prod.map past.table id) := by
  unfold PaneTable.spawn
  cases r.spawner with
  | none => exact congrArg Except.ok (past.openPane_table t r)
  | some spawner =>
    simp only [get_table]
    exact map_bind_eq (fun _ => congrArg Except.ok (past.openPane_table t r)) _

/-! ## Copies -/

theorem mergeInput_table (keep : Bool) (id : PaneId) :
    (past.table t).mergeInput keep id = (t.mergeInput keep id).map past.pane := by
  unfold PaneTable.mergeInput
  rw [get_table]
  refine map_bind_eq (fun p => ?_) _
  rw [apply_ite (Except.map past.pane)]
  rfl

theorem union_table (id : PaneId) (panes : List Pane) (spawners : List PaneId) :
    (past.table t).union id (panes.map past.pane) spawners =
      past.pane (t.union id panes spawners) := by
  have hstore : (panes.map past.pane).foldl (fun s p => s.absorb p.store) Store.empty =
      panes.foldl (fun s p => s.absorb p.store) Store.empty := List.foldl_map
  have hhead : (panes.map past.pane).head? = panes.head?.map past.pane := List.head?_map
  simp only [PaneTable.union, hstore, hhead, Option.map_map, build_table, List.flatMap_map]
  rfl

theorem openUnion_table (ids : List PaneId) (panes : List Pane) (keep : Bool) :
    (past.table t).openUnion ids (panes.map past.pane) keep =
      Prod.map past.table id (t.openUnion ids panes keep) := by
  have hspawners :
      mergedSpawners ids (panes.map past.pane) keep = mergedSpawners ids panes keep := by
    simp only [mergedSpawners, List.flatMap_map]
    rfl
  have hroom : (if keep then (past.table t).makeRoom ids else past.table t) =
      past.table (if keep then t.makeRoom ids else t) := by
    rw [apply_ite past.table, makeRoom_table]
  simp only [PaneTable.openUnion, hroom, hspawners, freshName_table, union_table, place_table,
    announce_table, setActive_table, remove_table, Prod.map_fst]
  cases keep <;> rfl

theorem merge_table (inputs : List PaneId) (keep : Bool) :
    (past.table t).merge inputs keep = (t.merge inputs keep).map (Prod.map past.table id) := by
  unfold PaneTable.merge
  simp only [apply_ite (Except.map (Prod.map past.table id))]
  rw [mapM_map_eq (past.mergeInput_table t keep)]
  congr 1
  refine map_bind_eq (fun panes => ?_) _
  exact congrArg Except.ok (past.openUnion_table t _ panes keep)

theorem copyOf_table (id : PaneId) (p : Pane) :
    (past.table t).copyOf id (past.pane p) = past.pane (t.copyOf id p) := by
  simp only [PaneTable.copyOf, build_table]
  rfl

theorem placeCopy_table (source : PaneId) (p : Pane) :
    (past.table t).placeCopy source (past.pane p) =
      Prod.map past.table id (t.placeCopy source p) := by
  let u : PaneTable := { t with naming := (t.naming.duplicate source).1 }
  let base : PaneId := (t.naming.duplicate source).2
  show ((past.table u).place ((past.table u).copyOf ((past.table u).freshName base) (past.pane p))
    (some source) p.view.insertPolicy, (past.table u).freshName base) = _
  rw [freshName_table, copyOf_table, place_table]
  rfl

theorem copy_table (source : PaneId) (protected_ : List PaneId) :
    (past.table t).copy source protected_ =
      (t.copy source protected_).map (Prod.map past.table id) := by
  unfold PaneTable.copy
  simp only [makeRoom_table, get_table]
  exact map_bind_eq (fun p => congrArg Except.ok (past.placeCopy_table _ source p)) _

theorem duplicate_table (source : PaneId) :
    (past.table t).duplicate source = (t.duplicate source).map (Prod.map past.table id) := by
  unfold PaneTable.duplicate
  rw [get_table, copy_table]
  cases t.get source with
  | error e => rfl
  | ok p =>
    cases t.copy source [source] with
    | error e => rfl
    | ok copied =>
      exact congrArg (fun u => Except.ok (u, copied.2)) (past.announced_table rfl copied.2)

theorem copyEach_table (sources : List PaneId) :
    (past.table t).copyEach sources = (t.copyEach sources).map (Prod.map past.table id) := by
  unfold PaneTable.copyEach
  refine foldlM_map_eq (h := Prod.map past.table id) (fun copied source => ?_) (t, []) _
  obtain ⟨u, copies⟩ := copied
  simp only [Prod.map, id_eq, copy_table]
  cases u.copy source (sources ++ copies.map Prod.snd) <;> rfl

theorem relink_table (copies : List (PaneId × PaneId)) (id : PaneId) :
    relink copies (past.table t) id = past.table (relink copies t id) := by
  unfold relink
  rw [pane?_table]
  cases t.pane? id with
  | none => rfl
  | some p =>
    let replaced := p.spawners.filter fun spawner => (copies.lookup spawner).isSome
    let respawn (p : Pane) : Pane := { p with spawners := respawned copies p.spawners }
    have hlive : { past.table t with
        live := (past.table t).live.modifyMany replaced (notSpawning id) } =
        past.table { t with live := t.live.modifyMany replaced (notSpawning id) } := by
      simp only [table, Dictionary.mapValues_modifyMany t.live replaced (f := notSpawning id)
        (g := past.pane) (r := notSpawning id) fun _ => rfl]
    show (PaneTable.modify { past.table t with
      live := (past.table t).live.modifyMany replaced (notSpawning id) } id respawn).link id = _
    rw [hlive, past.modify_table _ id (f := respawn) fun _ => rfl, link_table]

theorem duplicateMany_table (sources : List PaneId) :
    (past.table t).duplicateMany sources =
      (t.duplicateMany sources).map (Prod.map past.table id) := by
  unfold PaneTable.duplicateMany
  rw [mapM_map_eq (past.get_table t), copyEach_table]
  cases sources.mapM t.get with
  | error e => rfl
  | ok ps =>
    cases t.copyEach sources with
    | error e => rfl
    | ok copied =>
      obtain ⟨u, copies⟩ := copied
      refine congrArg (fun t => Except.ok (t, copies.map Prod.snd)) ?_
      rw [id_eq]
      generalize copies.map Prod.snd = ids
      rw [past.foldl_table u fun t id => past.relink_table t copies id,
        past.foldl_table _ past.announce_table]
      cases ids.getLast? with
      | none => rfl
      | some id => simp only [setActive_table]

/-! ## Destroying panes -/

theorem reachable_table (waiting seen : List PaneId) :
    (past.table t).reachable waiting seen = t.reachable waiting seen := by
  induction waiting, seen using PaneTable.reachable.induct (t := t) with
  | case1 seen => rw [reachable_nil, reachable_nil]
  | case2 seen id rest hseen ih =>
    rw [reachable_cons_of_seen hseen, reachable_cons_of_seen hseen, ih]
  | case3 seen id rest hseen hdead ih =>
    have hdead' : (past.table t).pane? id = none := by rw [pane?_table, hdead, Option.map_none]
    rw [reachable_cons_of_dead hseen hdead, reachable_cons_of_dead hseen hdead', ih]
  | case4 seen id rest hseen p hp _ ih =>
    have hp' : (past.table t).pane? id = some (past.pane p) := by
      rw [pane?_table, hp, Option.map_some]
    rw [reachable_cons_of_live hseen hp, reachable_cons_of_live hseen hp']
    exact congrArg (List.cons id) ih

theorem victims_table (id : PaneId) (cascade : Bool) :
    (past.table t).victims id cascade = t.victims id cascade := by
  unfold PaneTable.victims PaneTable.descendants
  rw [reachable_table]
  rfl

theorem destroy_table (pane : PaneId) (cascade activate : Bool) :
    (past.table t).destroy pane cascade activate =
      (t.destroy pane cascade activate).map (Prod.map past.table id) := by
  unfold PaneTable.destroy
  rw [get_table]
  refine map_bind_eq (fun p => ?_) _
  rw [apply_ite (Except.map (Prod.map past.table id)), victims_table, remove_table]
  rfl

theorem clear_table : (past.table t).clear = Prod.map past.table id t.clear := by
  have hremove := past.remove_table t t.ids.reverse false
  exact congrArg (fun r : PaneTable × List PaneId =>
    ({ r.1 with primary := none, active := none, naming := {} }, r.2)) hremove

/-! ## Arranging panes -/

theorem reshape_table (id : PaneId) (f : Geometry → Geometry) :
    (past.table t).reshape id f = past.table (t.reshape id f) := by
  have hmodify := past.modify_table t id (f := fun p => { p with geometry := f p.geometry })
    (r := fun p => { p with geometry := f p.geometry }) fun _ => rfl
  unfold PaneTable.reshape
  rw [hmodify, publish_table]

theorem activate_table (id : PaneId) :
    (past.table t).activate id = (t.activate id).map past.table := by
  unfold PaneTable.activate
  rw [get_table]
  exact map_bind_eq (fun _ => congrArg Except.ok (past.setActive_table t id)) _

theorem arrange_table (id : PaneId) (f : Geometry → Geometry) :
    (past.table t).arrange id f = (t.arrange id f).map past.table := by
  unfold PaneTable.arrange
  rw [get_table]
  exact map_bind_eq (fun _ => congrArg Except.ok (past.reshape_table t id f)) _

theorem toggle_table (id : PaneId) : (past.table t).toggle id = (t.toggle id).map past.table := by
  unfold PaneTable.toggle
  rw [arrange_table]
  refine map_bind_eq (fun u => ?_) _
  have hcollapsed : ((past.table u).live.values.all fun p => p.geometry.isCollapsed) =
      u.live.values.all fun p => p.geometry.isCollapsed := by
    show ((u.live.mapValues past.pane).values.all _) = _
    rw [Dictionary.values_mapValues, List.all_map]
    rfl
  have hids : (past.table u).ids = u.ids := rfl
  rw [hcollapsed, apply_ite (Except.map past.table), hids]
  cases (u.ids.filter fun other => other ≠ id).getLast? with
  | none => rfl
  | some other => simp only [reshape_table]; rfl

theorem highlight_table (id : PaneId) :
    (past.table t).highlight id = (t.highlight id).map past.table := by
  unfold PaneTable.highlight
  rw [get_table]
  refine map_bind_eq (fun _ => congrArg Except.ok ?_) _
  have hothers := past.foldl_table t (f := fun t other => t.reshape other Geometry.collapse)
    (fun t other => past.reshape_table t other _) (t.ids.filter fun other => other ≠ id)
  show (((t.ids.filter fun other => other ≠ id).foldl _ (past.table t)).reshape id _).setActive id =
    _
  rw [hothers, reshape_table, setActive_table]

/-- **A past makes no difference to a command**: the command is refused for the same reason, or
opens the same panes, and the table that comes of it differs by the past only. -/
theorem execute_table (c : PaneCommand) :
    (past.table t).execute c = (t.execute c).map (Prod.map past.table id) := by
  cases c with
  | spawn r =>
    simp only [PaneTable.execute, spawn_table]
    cases t.spawn r <;> rfl
  | destroy pane cascade activate =>
    simp only [PaneTable.execute, destroy_table]
    cases t.destroy pane cascade activate <;> rfl
  | merge inputs keep =>
    simp only [PaneTable.execute, merge_table]
    cases t.merge inputs keep <;> rfl
  | duplicate source =>
    simp only [PaneTable.execute, duplicate_table]
    cases t.duplicate source <;> rfl
  | duplicateMany sources => exact past.duplicateMany_table t sources
  | activate pane =>
    simp only [PaneTable.execute, activate_table]
    cases t.activate pane <;> rfl
  | arrange pane f =>
    simp only [PaneTable.execute, arrange_table]
    cases t.arrange pane f <;> rfl
  | toggle pane =>
    simp only [PaneTable.execute, toggle_table]
    cases t.toggle pane <;> rfl
  | highlight pane =>
    simp only [PaneTable.execute, highlight_table]
    cases t.highlight pane <;> rfl
  | clear =>
    simp only [PaneTable.execute, clear_table]
    rfl

end Table

end Past

end StateAtlas
