import StateAtlas.Pane.Lineage
import StateAtlas.Proofs.Except
import StateAtlas.Proofs.Pane.WellFormed
/-!
What becomes of a well-formed table when panes are opened, closed, arranged and merged.

Each operation reaches a table that is well-formed again, and that evolved by steps which never give
a new pane the name of a live one.
-/

namespace StateAtlas.PaneTable

variable {t u : PaneTable} {rank : PaneId → Nat}

/-- What a command should come to: a well-formed table that evolved by opening panes. -/
def Reaches (t : PaneTable) (opened : List PaneId) (u : PaneTable) : Prop :=
  (∃ rank, u.WellFormed rank) ∧ t.Evolves opened u

/-! ## Opening panes -/

/-- After a pane was put in, it is announced and becomes the active one. -/
theorem reaches_of_live {opened : List PaneId} {id : PaneId} (h : t.Evolves opened u)
    (hu : u.WellFormed rank) (hid : u.contains id = true) :
    t.Reaches opened ((u.announce id).setActive id) := by
  constructor
  · refine ⟨rank, (hu.announce id).setActive ?_⟩
    rwa [(SameLineage.announce u id).contains]
  · exact (h.retouch (SameWork.announce u id)).retouch (SameWork.setActive _ id)

theorem untouched_requested (t : PaneTable) (r : SpawnRequest) (id : PaneId) :
    Untouched (t.requested r id) :=
  ⟨rfl, rfl, rfl, rfl, rfl, rfl, rfl⟩

theorem untouched_union (t : PaneTable) (id : PaneId) (panes : List Pane) (spawners : List PaneId) :
    Untouched (t.union id panes spawners) :=
  ⟨rfl, rfl, rfl, rfl, rfl, rfl, rfl⟩

theorem untouched_copyOf (t : PaneTable) (id : PaneId) (p : Pane) : Untouched (t.copyOf id p) :=
  ⟨rfl, rfl, rfl, rfl, rfl, rfl, rfl⟩

theorem admits_requested {r : SpawnRequest} {id : PaneId} (hid : ¬u.contains id = true)
    (hr : ∀ s ∈ r.spawner, u.contains s = true) : u.Admits (u.requested r id) where
  name_free := hid
  spawners_live s hs := hr s (Option.mem_toList.1 hs)
  nodup_spawners := by
    show r.spawner.toList.Nodup
    cases r.spawner <;> simp
  spawned_none := rfl

/-- The table and the name with which a pane is opened. -/
def named (t : PaneTable) (r : SpawnRequest) : PaneTable × PaneId :=
  if t.primary.isNone then (t, Naming.primary) else t.nameSpawned r

/-- The table into which the pane that was asked for is put; where there is no primary pane yet, it
becomes that one. -/
def withRequested (t : PaneTable) (r : SpawnRequest) (id : PaneId) : PaneTable :=
  { t.place (t.requested r id) r.spawner r.insert with primary := t.primary.or (some id) }

theorem withRequested_eq (t : PaneTable) (r : SpawnRequest) (id : PaneId) :
    t.withRequested r id =
      if t.primary.isNone then
        { t.place (t.requested r id) r.spawner r.insert with primary := some id }
      else t.place (t.requested r id) r.spawner r.insert := by
  unfold withRequested
  cases hprimary : t.primary with
  | none => rfl
  | some root =>
    have hroot : (t.place (t.requested r id) r.spawner r.insert).primary = some root :=
      (primary_place ..).trans hprimary
    rw [Option.some_or, Option.isNone_some, if_neg Bool.false_ne_true, ← hroot]

/-- A pane is opened by putting it in under its name, announcing it and making it the active one. -/
theorem openPane_eq (t : PaneTable) (r : SpawnRequest) :
    t.openPane r =
      ((((t.named r).1.withRequested r (t.named r).2).announce (t.named r).2).setActive
        (t.named r).2, (t.named r).2) := by
  simp only [withRequested_eq]
  unfold openPane
  simp only [primary_place]
  rfl

theorem pane?_announced (t : PaneTable) (id k : PaneId) :
    ((t.announce id).setActive id).pane? k = t.pane? k := by
  rw [setActive_eq]
  unfold PaneTable.announce
  split <;> rfl

/-- Once a pane is open, the table holds the panes that it held when the pane was put in. -/
theorem pane?_openPane (t : PaneTable) (r : SpawnRequest) (k : PaneId) :
    (t.openPane r).1.pane? k =
      ((t.named r).1.place ((t.named r).1.requested r (t.named r).2) r.spawner r.insert).pane? k := by
  rw [openPane_eq, pane?_announced]
  rfl

theorem WellFormed.created_eq_nil (h : t.WellFormed rank) (hprimary : t.primary = none) :
    t.created = [] :=
  List.eq_nil_iff_forall_not_mem.2 fun id hid =>
    h.rooted.primary_ne_none ((h.rooted.linked.mem_created id).1 hid) hprimary

/-- No room is made where no pane is live. -/
theorem WellFormed.makeRoom_of_primary_eq_none (h : t.WellFormed rank) (hprimary : t.primary = none)
    (protected_ : List PaneId) : t.makeRoom protected_ = t := by
  unfold PaneTable.makeRoom
  rw [h.created_eq_nil hprimary]
  rfl

/-- A pane is opened in the table with room, which may have counted a name. -/
theorem WellFormed.named_fst (h : t.WellFormed rank) (r : SpawnRequest) :
    ∃ naming, (t.named r).1 = { t.makeRoom r.spawner.toList with naming } := by
  unfold PaneTable.named
  split
  next hprimary =>
    rw [h.makeRoom_of_primary_eq_none (Option.isNone_iff_eq_none.1 hprimary)]
    exact ⟨t.naming, rfl⟩
  next => exact ⟨_, rfl⟩

theorem WellFormed.named_snd_not_live (h : t.WellFormed rank) (r : SpawnRequest) :
    ¬(t.named r).1.contains (t.named r).2 = true := by
  unfold PaneTable.named
  split
  next hprimary =>
    -- Without a primary pane the table is empty, so the name of the first pane is free.
    exact fun hid => h.rooted.primary_ne_none hid (Option.isNone_iff_eq_none.1 hprimary)
  next => exact freshName_not_live (t.makeRoom r.spawner.toList) _

/-- The table in which a pane is opened has room for it, and still holds its spawner. -/
theorem WellFormed.named (h : t.WellFormed rank) {r : SpawnRequest}
    (hr : ∀ s ∈ r.spawner, t.contains s = true) :
    (t.named r).1.WellFormed rank ∧ Spared r.spawner.toList t (t.named r).1 ∧
      t.Evolves [] (t.named r).1 ∧
      (t.named r).1.Admits ((t.named r).1.requested r (t.named r).2) := by
  obtain ⟨naming, hnamed⟩ := h.named_fst r
  have hfree := h.named_snd_not_live r
  obtain ⟨hroom, hspared⟩ := h.makeRoom r.spawner.toList
  rw [hnamed] at hfree ⊢
  refine ⟨hroom.of_sameLineage ⟨rfl, rfl, rfl, fun _ => rfl⟩ hroom.active_live, ?_, ?_, ?_⟩
  · exact ⟨hspared.primary, hspared.protected_live, hspared.spawns⟩
  · exact ((Evolves.refl t).makeRoom r.spawner.toList).retouch ⟨fun _ => rfl, rfl⟩
  · exact admits_requested hfree fun s hs =>
      hspared.protected_live s (Option.mem_toList.2 hs) (hr s hs)

theorem WellFormed.withRequested (h : t.WellFormed rank) {r : SpawnRequest} {id : PaneId}
    (hp : t.Admits (t.requested r id)) : ∃ rank', (t.withRequested r id).WellFormed rank' := by
  rw [withRequested_eq]
  split
  next hprimary =>
    exact ⟨rank, h.placeFirst (Option.isNone_iff_eq_none.1 hprimary) hp r.spawner r.insert⟩
  next hprimary =>
    have hrank : ∀ s ∈ (t.requested r id).spawners, rank s < (r.spawner.map rank).getD 0 + 1 := by
      intro s hs
      rw [Option.mem_toList.1 hs, Option.map_some, Option.getD_some]
      omega
    -- The new pane ranks just above its spawner.
    have hroot : t.primary ≠ none := fun hnone => hprimary (Option.isNone_iff_eq_none.2 hnone)
    exact ⟨_, h.place hroot hp r.spawner r.insert hrank⟩

theorem WellFormed.openPane (h : t.WellFormed rank) {r : SpawnRequest}
    (hr : ∀ s ∈ r.spawner, t.contains s = true) :
    t.Reaches [(t.openPane r).2] (t.openPane r).1 := by
  obtain ⟨hu, -, hevolves, hp⟩ := h.named hr
  obtain ⟨rank', hput⟩ := hu.withRequested hp
  rw [openPane_eq]
  refine reaches_of_live ?_ hput ((contains_place hp r.spawner r.insert _).2 (.inl rfl))
  exact (hevolves.place r.spawner r.insert hp (untouched_requested ..)).retouch ⟨fun _ => rfl, rfl⟩

/-- What is spawned has a live spawner or none. -/
theorem spawn_eq_ok {r : SpawnRequest} {id : PaneId} (hspawn : t.spawn r = .ok (u, id)) :
    (∀ s ∈ r.spawner, t.contains s = true) ∧ t.openPane r = (u, id) := by
  unfold PaneTable.spawn at hspawn
  split at hspawn
  next spawner hspawner =>
    obtain ⟨p, hp, hspawn⟩ := bind_eq_ok.1 hspawn
    refine ⟨fun s hs => ?_, Except.ok.inj hspawn⟩
    obtain rfl := Option.some.inj (hspawner.symm.trans hs)
    exact contains_of_pane? (get_eq_ok.1 hp)
  next hnone =>
    refine ⟨fun s hs => ?_, Except.ok.inj hspawn⟩
    nomatch hnone.symm.trans hs

theorem WellFormed.spawn (h : t.WellFormed rank) {r : SpawnRequest} {id : PaneId}
    (hspawn : t.spawn r = .ok (u, id)) : t.Reaches [id] u := by
  obtain ⟨hr, hopen⟩ := spawn_eq_ok hspawn
  have hreaches := h.openPane hr
  rwa [hopen] at hreaches

/-! ## Closing panes -/

theorem WellFormed.reaches_remove (h : t.WellFormed rank) {victims : List PaneId}
    (hvictims : ∀ id ∈ victims, t.primary ≠ some id) (activate : Bool) :
    t.Reaches [] (t.remove victims activate).1 :=
  ⟨⟨rank, h.remove hvictims activate⟩, (Evolves.refl t).removeMany victims activate⟩

theorem WellFormed.destroy (h : t.WellFormed rank) {id : PaneId} {cascade activate : Bool}
    {removed : List PaneId} (hdestroy : t.destroy id cascade activate = .ok (u, removed)) :
    t.Reaches [] u := by
  unfold PaneTable.destroy at hdestroy
  obtain ⟨p, -, hdestroy⟩ := bind_eq_ok.1 hdestroy
  split at hdestroy
  next => nomatch hdestroy
  next hprimary =>
    obtain ⟨rfl, -⟩ := Prod.mk.inj (Except.ok.inj hdestroy)
    refine h.reaches_remove ?_ activate
    unfold victims
    split
    · intro other hother
      exact (of_decide_eq_true (List.mem_filter.1 hother).2).symm
    · exact List.forall_mem_singleton.2 hprimary

theorem contains_foldl_removeOne (victims : List PaneId) (t : PaneTable) (id : PaneId) :
    (victims.foldl removeOne t).contains id = true ↔ id ∉ victims ∧ t.contains id = true := by
  induction victims generalizing t with
  | nil => simp
  | cons victim victims ih =>
    rw [List.foldl_cons, ih, contains_removeOne, List.mem_cons, not_or, ne_comm, and_left_comm,
      and_assoc]

/-- Nothing is left after everything was closed. -/
theorem WellFormed.clear (h : t.WellFormed rank) : t.Reaches [] t.clear.1 := by
  -- Only the last step forgets the primary pane; until then the lineage is that of any removal.
  let u := (t.remove t.ids.reverse false).1
  have hsame : (t.ids.reverse.foldl removeOne t).SameLineage u := SameLineage.reactivate _ false
  have hlinked : u.Linked rank := h.rooted.linked.remove t.ids.reverse false
  have hempty : ∀ id, ¬u.contains id = true := by
    intro id hid
    rw [hsame.contains, contains_foldl_removeOne, List.mem_reverse, h.rooted.linked.mem_ids] at hid
    exact hid.1 hid.2
  have hnone : ∀ id, u.pane? id = none := fun id => Option.not_isSome_iff_eq_none.1 (hempty id)
  have hids : u.ids = [] :=
    List.eq_nil_iff_forall_not_mem.2 fun id hid => hempty id ((hlinked.mem_ids id).1 hid)
  have hcreated : u.created = [] :=
    List.eq_nil_iff_forall_not_mem.2 fun id hid => hempty id ((hlinked.mem_created id).1 hid)
  constructor
  · refine ⟨rank, ⟨linked_of_no_pane hids hcreated hnone, fun _ => hnone, ?_⟩, ?_⟩
    · exact fun id hid => nomatch hid
    · exact fun id hid => nomatch hid
  · exact ((Evolves.refl t).removeMany t.ids.reverse false).retouch ⟨fun _ => rfl, rfl⟩

/-! ## Arranging panes -/

theorem Reaches.reshape {opened : List PaneId} (h : t.Reaches opened u) (id : PaneId)
    (f : Geometry → Geometry) : t.Reaches opened (u.reshape id f) := by
  obtain ⟨⟨rank, hu⟩, hevolves⟩ := h
  exact ⟨⟨rank, hu.reshape id f⟩, hevolves.retouch (SameWork.reshape u id f)⟩

theorem Reaches.announce {opened : List PaneId} (h : t.Reaches opened u) (id : PaneId) :
    t.Reaches opened (u.announce id) := by
  obtain ⟨⟨rank, hu⟩, hevolves⟩ := h
  exact ⟨⟨rank, hu.announce id⟩, hevolves.retouch (SameWork.announce u id)⟩

theorem Reaches.foldl {α : Type} {f : PaneTable → α → PaneTable} {opened : List PaneId}
    (hf : ∀ {u}, t.Reaches opened u → ∀ a, t.Reaches opened (f u a)) (h : t.Reaches opened u)
    (as : List α) : t.Reaches opened (as.foldl f u) := by
  induction as generalizing u with
  | nil => exact h
  | cons a as ih => exact ih (hf h a)

theorem Reaches.setActive {opened : List PaneId} (h : t.Reaches opened u) {id : PaneId}
    (hid : u.contains id = true) : t.Reaches opened (u.setActive id) := by
  obtain ⟨⟨rank, hu⟩, hevolves⟩ := h
  exact ⟨⟨rank, hu.setActive hid⟩, hevolves.retouch (SameWork.setActive u id)⟩

theorem WellFormed.reaches_refl (h : t.WellFormed rank) : t.Reaches [] t :=
  ⟨⟨rank, h⟩, Evolves.refl t⟩

theorem WellFormed.activate (h : t.WellFormed rank) {id : PaneId} (hact : t.activate id = .ok u) :
    t.Reaches [] u := by
  obtain ⟨p, hp, hact⟩ := bind_eq_ok.1 hact
  obtain rfl := Except.ok.inj hact
  exact h.reaches_refl.setActive (contains_of_pane? (get_eq_ok.1 hp))

theorem WellFormed.arrange (h : t.WellFormed rank) {id : PaneId} {f : Geometry → Geometry}
    (harrange : t.arrange id f = .ok u) : t.Reaches [] u := by
  obtain ⟨p, -, harrange⟩ := bind_eq_ok.1 harrange
  obtain rfl := Except.ok.inj harrange
  exact h.reaches_refl.reshape id f

theorem WellFormed.toggle (h : t.WellFormed rank) {id : PaneId} (htoggle : t.toggle id = .ok u) :
    t.Reaches [] u := by
  obtain ⟨v, hv, htoggle⟩ := bind_eq_ok.1 htoggle
  have hreaches := h.arrange hv
  split at htoggle
  · split at htoggle
    · exact Except.ok.inj htoggle ▸ hreaches.reshape _ _
    · exact Except.ok.inj htoggle ▸ hreaches
  · exact Except.ok.inj htoggle ▸ hreaches

theorem WellFormed.highlight (h : t.WellFormed rank) {id : PaneId}
    (hhighlight : t.highlight id = .ok u) : t.Reaches [] u := by
  obtain ⟨p, hp, hhighlight⟩ := bind_eq_ok.1 hhighlight
  obtain rfl := Except.ok.inj hhighlight
  let others := t.ids.filter fun other => other ≠ id
  let v := others.foldl (fun t other => t.reshape other Geometry.collapse) t
  have hv : t.Reaches [] v := h.reaches_refl.foldl (fun hu other => hu.reshape other _) others
  have hsame : t.SameWork v := SameWork.foldl (fun u other => SameWork.reshape u other _) t others
  refine (hv.reshape id Geometry.expand).setActive ?_
  rw [(SameWork.reshape v id _).contains, hsame.contains]
  exact contains_of_pane? (get_eq_ok.1 hp)

/-- Highlighting a pane collapses the others and leaves alone what panes work on. -/
theorem SameWork.highlight {id : PaneId} (hhighlight : t.highlight id = .ok u) : t.SameWork u := by
  obtain ⟨p, -, hhighlight⟩ := bind_eq_ok.1 hhighlight
  obtain rfl := Except.ok.inj hhighlight
  refine ((SameWork.foldl (fun u other => ?_) t _).trans (SameWork.reshape _ id _)).trans
    (SameWork.setActive _ id)
  exact SameWork.reshape u other Geometry.collapse

/-! ## Merging panes -/

theorem Reaches.remove {opened : List PaneId} (h : t.Reaches opened u) {victims : List PaneId}
    (hvictims : ∀ id ∈ victims, u.primary ≠ some id) (activate : Bool) :
    t.Reaches opened (u.remove victims activate).1 := by
  obtain ⟨⟨rank, hu⟩, hevolves⟩ := h
  exact ⟨⟨rank, hu.remove hvictims activate⟩, hevolves.removeMany victims activate⟩

/-- Above finitely many panes there is always room for another rank. -/
theorem exists_rank_above (rank : PaneId → Nat) (ids : List PaneId) :
    ∃ r, ∀ id ∈ ids, rank id < r := by
  induction ids with
  | nil => exact ⟨0, by simp⟩
  | cons id ids ih =>
    obtain ⟨r, hr⟩ := ih
    refine ⟨max r (rank id + 1), List.forall_mem_cons.2 ⟨by omega, fun other hother => ?_⟩⟩
    exact Nat.lt_of_lt_of_le (hr other hother) (Nat.le_max_left ..)

theorem mergeInput_eq_ok {keep : Bool} {id : PaneId} {p : Pane}
    (h : t.mergeInput keep id = .ok p) :
    t.pane? id = some p ∧ (keep = false → t.primary ≠ some id) := by
  obtain ⟨q, hq, h⟩ := bind_eq_ok.1 h
  split at h
  next => nomatch h
  next hcond =>
    obtain rfl := Except.ok.inj h
    exact ⟨get_eq_ok.1 hq, fun hkeep hprimary => hcond ⟨hkeep, hprimary⟩⟩

theorem admits_union {ids : List PaneId} {panes : List Pane} {keep : Bool} {base : PaneId}
    (hnodup : ids.Nodup) (hids : ∀ id ∈ ids, u.contains id = true)
    (hpanes : keep = false → ∀ p ∈ panes, ∀ s ∈ p.spawners, u.contains s = true) :
    u.Admits (u.union (u.freshName base) panes (mergedSpawners ids panes keep)) where
  name_free := freshName_not_live u base
  spawners_live := by
    intro s hs
    change s ∈ mergedSpawners ids panes keep at hs
    unfold mergedSpawners at hs
    split at hs
    next => exact hids s hs
    next hkeep =>
      rw [List.mem_eraseDups, List.mem_filter, List.mem_flatMap] at hs
      obtain ⟨⟨p, hp, hs⟩, -⟩ := hs
      exact hpanes (Bool.not_eq_true _ ▸ hkeep) p hp s hs
  nodup_spawners := by
    show (mergedSpawners ids panes keep).Nodup
    unfold mergedSpawners
    split
    · exact hnodup
    · exact nodup_eraseDups _
  spawned_none := rfl

/-- The table in which a merged pane is put: room is made only if the inputs stay. -/
def roomFor (t : PaneTable) (ids : List PaneId) (keep : Bool) : PaneTable :=
  if keep then t.makeRoom ids else t

theorem WellFormed.roomFor (h : t.WellFormed rank) (ids : List PaneId) (keep : Bool) :
    (t.roomFor ids keep).WellFormed rank ∧ Spared ids t (t.roomFor ids keep) ∧
      t.Evolves [] (t.roomFor ids keep) := by
  cases keep with
  | true =>
    obtain ⟨hroom, hspared⟩ := h.makeRoom ids
    exact ⟨hroom, hspared, (Evolves.refl t).makeRoom ids⟩
  | false => exact ⟨h, ⟨rfl, fun _ _ => id, id⟩, Evolves.refl t⟩

/-- The pane that a merge puts in. -/
def merged (t : PaneTable) (ids : List PaneId) (panes : List Pane) (keep : Bool) : Pane :=
  (t.roomFor ids keep).union ((t.roomFor ids keep).freshName (Naming.merged ids)) panes
    (mergedSpawners ids panes keep)

/-- The table in which the merged pane has been announced, before inputs are removed. -/
def withMerged (t : PaneTable) (ids : List PaneId) (panes : List Pane) (keep : Bool) : PaneTable :=
  let p := t.merged ids panes keep
  (((t.roomFor ids keep).place p none .atEnd).announce p.id).setActive p.id

theorem openUnion_eq (t : PaneTable) (ids : List PaneId) (panes : List Pane) (keep : Bool) :
    t.openUnion ids panes keep =
      (if keep then t.withMerged ids panes keep
        else ((t.withMerged ids panes keep).remove ids false).1, (t.merged ids panes keep).id) := rfl

/-- The union of live panes can be put into the table with room. -/
theorem WellFormed.admits_merged (h : t.WellFormed rank) {ids : List PaneId} {panes : List Pane}
    (hnodup : ids.Nodup) (hids : ∀ id ∈ ids, t.contains id = true)
    (hpanes : ∀ p ∈ panes, ∃ id, t.pane? id = some p) (keep : Bool) :
    (t.roomFor ids keep).Admits (t.merged ids panes keep) := by
  obtain ⟨-, hspared, -⟩ := h.roomFor ids keep
  refine admits_union hnodup (fun id hid => hspared.protected_live id hid (hids id hid)) ?_
  intro hkeep q hq s hs
  obtain ⟨id, hid⟩ := hpanes q hq
  have hspawns : t.contains s = true := h.rooted.linked.live_of_spawns ⟨q, hid, hs⟩
  -- Without the inputs being kept there was no need to make room.
  subst hkeep
  exact hspawns

/-- The union of live panes evolves out of a table with room; the inputs go only if none of them is
the primary pane. -/
theorem WellFormed.openUnion (h : t.WellFormed rank) {ids : List PaneId} {panes : List Pane}
    {keep : Bool} (hnodup : ids.Nodup) (hne : ids ≠ [])
    (hids : ∀ id ∈ ids, t.contains id = true ∧ (keep = false → t.primary ≠ some id))
    (hpanes : ∀ p ∈ panes, ∃ id, t.pane? id = some p) :
    t.Reaches [(t.openUnion ids panes keep).2] (t.openUnion ids panes keep).1 := by
  obtain ⟨hwf, hspared, hevolves⟩ := h.roomFor ids keep
  have hp := h.admits_merged hnodup (fun id hid => (hids id hid).1) hpanes keep
  obtain ⟨id, hid⟩ := List.exists_mem_of_ne_nil ids hne
  obtain ⟨r, hr⟩ := exists_rank_above rank (t.merged ids panes keep).spawners
  have hlive : (t.roomFor ids keep).contains id = true :=
    hspared.protected_live id hid (hids id hid).1
  have hplace := hwf.place (hwf.rooted.primary_ne_none hlive) hp none .atEnd hr
  have hreaches : t.Reaches [(t.merged ids panes keep).id] (t.withMerged ids panes keep) :=
    reaches_of_live (hevolves.place none .atEnd hp (untouched_union _ _ _ _)) hplace
      ((contains_place hp none .atEnd _).2 (.inl rfl))
  rw [openUnion_eq]
  cases keep with
  | true => exact hreaches
  | false =>
    -- The inputs go last, when the new pane is live.
    refine hreaches.remove (fun id hid => ?_) false
    rw [withMerged, (SameLineage.setActive _ _).primary, (SameLineage.announce _ _).primary,
      primary_place]
    exact (hids id hid).2 rfl

/-- What a merge makes: the union of its inputs, which are live and given once each. -/
theorem merge_eq_ok {inputs : List PaneId} {keep : Bool} {id : PaneId}
    (hmerge : t.merge inputs keep = .ok (u, id)) :
    ∃ panes, inputs.eraseDups.map t.pane? = panes.map some ∧ inputs.eraseDups ≠ [] ∧
      (keep = false → ∀ i ∈ inputs.eraseDups, t.primary ≠ some i) ∧
      t.openUnion inputs.eraseDups panes keep = (u, id) := by
  simp only [PaneTable.merge] at hmerge
  split at hmerge
  next => nomatch hmerge
  next hlength =>
    obtain ⟨panes, hpanes, hmerge⟩ := bind_eq_ok.1 hmerge
    refine ⟨panes, map_eq_of_mapM_eq_ok (fun _ _ h => (mergeInput_eq_ok h).1) hpanes, ?_,
      fun hkeep i hi => ?_, Except.ok.inj hmerge⟩
    · intro hnil
      simp [hnil] at hlength
    · obtain ⟨p, -, hp⟩ := (mapM_eq_ok hpanes).1 i hi
      exact (mergeInput_eq_ok hp).2 hkeep

theorem live_of_inputs {ids : List PaneId} {panes : List Pane}
    (h : ids.map t.pane? = panes.map some) :
    (∀ i ∈ ids, t.contains i = true) ∧ ∀ p ∈ panes, ∃ i, t.pane? i = some p := by
  constructor
  · intro i hi
    have hmem : t.pane? i ∈ panes.map some := h ▸ List.mem_map_of_mem hi
    obtain ⟨p, -, hp⟩ := List.mem_map.1 hmem
    exact contains_of_pane? hp.symm
  · intro p hp
    have hmem : some p ∈ ids.map t.pane? := h ▸ List.mem_map_of_mem hp
    obtain ⟨i, -, hi⟩ := List.mem_map.1 hmem
    exact ⟨i, hi⟩

theorem WellFormed.merge (h : t.WellFormed rank) {inputs : List PaneId} {keep : Bool} {id : PaneId}
    (hmerge : t.merge inputs keep = .ok (u, id)) : t.Reaches [id] u := by
  obtain ⟨panes, hinputs, hne, hprimary, hunion⟩ := merge_eq_ok hmerge
  obtain ⟨hids, hpanes⟩ := live_of_inputs hinputs
  have hreaches := h.openUnion (nodup_eraseDups inputs) hne
    (fun i hi => ⟨hids i hi, fun hkeep => hprimary hkeep i hi⟩) hpanes
  rwa [hunion] at hreaches

end StateAtlas.PaneTable
