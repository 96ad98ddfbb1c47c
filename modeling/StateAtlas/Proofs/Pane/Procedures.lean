import StateAtlas.Proofs.Pane.Descendants
/-!
Operations on panes step by step.

A refused operation has no result, and so it does not tell what became of the table on the way.  Here
the operations are carried out in a table that stays as it is when a step is refused, one step after
the other: panes are looked up before room is made and again after it, copies are made one by one,
and each pane that is arranged is looked up first.  Whatever is refused is refused before anything
was changed, because nothing that was looked up is lost on the way.

Main statement: `outcome_procedure`.
-/

namespace StateAtlas

/-- Steps taken in a table one after the other until one is refused; what was done before that is not
undone. -/
abbrev Procedure := ExceptT PaneError (StateM PaneTable)

namespace Procedure

variable {α β : Type}

/-- What a procedure comes to, and the table that it leaves. -/
def outcome (x : Procedure α) (t : PaneTable) : Except PaneError α × PaneTable := x.run.run t

/-! ## Steps -/

/-- Looks a pane up. -/
def look (id : PaneId) : Procedure Pane := do
  match (← get).pane? id with
  | some p => return p
  | none => throw (.notFound id)

/-- Takes the name of the next pane that is spawned, and makes room for it unless it is the first. -/
def nameSpawned (r : SpawnRequest) : Procedure PaneId := do
  if (← get).primary.isNone then
    return Naming.primary
  else
    modify fun t => t.makeRoom r.spawner.toList
    let (naming, fresh) := (← get).naming.spawn
    modify fun t => { t with naming }
    return (← get).freshName fresh

/-- Opens a pane whose spawner was looked up; the first pane becomes the primary one. -/
def openPane (r : SpawnRequest) : Procedure PaneId := do
  let id ← nameSpawned r
  modify fun t => t.place (t.requested r id) r.spawner r.insert
  modify fun t => if t.primary.isNone then { t with primary := some id } else t
  modify fun t => t.announce id
  modify fun t => t.setActive id
  return id

def spawn (r : SpawnRequest) : Procedure PaneId := do
  let _ ← r.spawner.toList.mapM look
  openPane r

def destroy (id : PaneId) (cascade activate : Bool) : Procedure (List PaneId) := do
  let _ ← look id
  if (← get).primary = some id then throw (.primary id)
  let victims := (← get).victims id cascade
  modifyGet fun t => let (t, removed) := t.remove victims activate; (removed, t)

/-- Looks an input of a merge up, and refuses the primary pane if the inputs are to go. -/
def mergeInput (keep : Bool) (id : PaneId) : Procedure Pane := do
  let p ← look id
  if keep = false ∧ (← get).primary = some id then throw (.primary id)
  return p

def merge (inputs : List PaneId) (keep : Bool) : Procedure PaneId := do
  let ids := inputs.eraseDups
  if ids.length < 2 then throw (.notEnoughPanes ids.length)
  let _ ← ids.mapM (mergeInput keep)
  let panes ← ids.mapM look
  if keep then modify fun t => t.makeRoom ids
  let id := (← get).freshName (Naming.merged ids)
  modify fun t => t.place (t.union id panes (PaneTable.mergedSpawners ids panes keep)) none .atEnd
  modify fun t => t.announce id
  modify fun t => t.setActive id
  if keep then return id
  modify fun t => (t.remove ids false).1
  return id

/-- Adds a copy of a pane, which is looked up again once there is room. -/
def copy (source : PaneId) (protected_ : List PaneId) : Procedure PaneId := do
  let _ ← look source
  modify fun t => t.makeRoom protected_
  let p ← look source
  modifyGet fun t => let (t, id) := t.placeCopy source p; (id, t)

def duplicate (source : PaneId) : Procedure PaneId := do
  let id ← copy source [source]
  modify fun t => t.announce id
  modify fun t => t.setActive id
  return id

/-- Adds a copy of one more of several panes. -/
def copyNext (sources : List PaneId) (copies : List (PaneId × PaneId)) (source : PaneId) :
    Procedure (List (PaneId × PaneId)) := do
  let id ← copy source (sources ++ copies.map Prod.snd)
  return copies ++ [(source, id)]

def duplicateMany (sources : List PaneId) : Procedure (List PaneId) := do
  let _ ← sources.mapM look
  let copies ← sources.eraseDups.foldlM (copyNext sources) []
  let ids := copies.map Prod.snd
  modify fun t => ids.foldl (PaneTable.relink copies) t
  modify fun t => ids.foldl PaneTable.announce t
  modify fun t => match ids.getLast? with | some id => t.setActive id | none => t
  return ids

def activate (id : PaneId) : Procedure Unit := do
  let _ ← look id
  modify fun t => t.setActive id

def arrange (id : PaneId) (f : Geometry → Geometry) : Procedure Unit := do
  let _ ← look id
  modify fun t => t.reshape id f

def toggle (id : PaneId) : Procedure Unit := do
  arrange id Geometry.toggle
  if (← get).live.values.all fun p => p.geometry.isCollapsed then
    match ((← get).ids.filter fun other => other ≠ id).getLast? with
    | some other => arrange other Geometry.expand
    | none => return ()

def highlight (id : PaneId) : Procedure Unit := do
  let _ ← look id
  let others := (← get).ids.filter fun other => other ≠ id
  forM others fun other => arrange other Geometry.collapse
  arrange id Geometry.expand
  modify fun t => t.setActive id

end Procedure

/-- The command step by step; tells which panes were opened. -/
def PaneCommand.procedure : PaneCommand → Procedure (List PaneId)
  | .spawn r => do return [← Procedure.spawn r]
  | .destroy id cascade activating => do
    let _ ← Procedure.destroy id cascade activating
    return []
  | .merge inputs keep => do return [← Procedure.merge inputs keep]
  | .duplicate source => do return [← Procedure.duplicate source]
  | .duplicateMany sources => Procedure.duplicateMany sources
  | .activate id => do
    Procedure.activate id
    return []
  | .arrange id f => do
    Procedure.arrange id f
    return []
  | .toggle id => do
    Procedure.toggle id
    return []
  | .highlight id => do
    Procedure.highlight id
    return []
  | .clear => do
    modify fun t => t.clear.1
    return []

namespace Procedure

variable {α β : Type} {t u : PaneTable} {rank : PaneId → Nat}

/-! ## Outcomes -/

theorem outcome_modify (f : PaneTable → PaneTable) (t : PaneTable) :
    (modify f : Procedure PUnit).outcome t = (.ok ⟨⟩, f t) := rfl

theorem outcome_bind (x : Procedure α) (f : α → Procedure β) (t : PaneTable) :
    (x >>= f).outcome t = match x.outcome t with
      | (.ok a, u) => (f a).outcome u
      | (.error e, u) => (.error e, u) := by
  show (ExceptT.bindCont f (x.run.run t).1).run (x.run.run t).2 = _
  unfold outcome
  rcases x.run.run t with ⟨_ | _, _⟩ <;> rfl

theorem outcome_get_bind (f : PaneTable → Procedure β) (t : PaneTable) :
    (get >>= f).outcome t = (f t).outcome t := rfl

theorem outcome_bind_of_ok {x : Procedure α} {a : α} (h : x.outcome t = (.ok a, u))
    (f : α → Procedure β) : (x >>= f).outcome t = (f a).outcome u := by
  rw [outcome_bind, h]

theorem outcome_look (id : PaneId) (t : PaneTable) : (look id).outcome t = (t.get id, t) := by
  unfold look PaneTable.get
  rw [outcome_get_bind]
  cases t.pane? id <;> rfl

/-- A procedure that looks a pane up goes on in the same table, or is refused. -/
theorem outcome_look_bind (id : PaneId) (f : Pane → Procedure β) (t : PaneTable) :
    (look id >>= f).outcome t = match t.get id with
      | .ok p => (f p).outcome t
      | .error e => (.error e, t) := by
  rw [outcome_bind, outcome_look]
  cases t.get id <;> rfl

/-- Steps that only look at the table can be taken one after the other. -/
theorem outcome_mapM {g : α → Procedure β} {x : α → Except PaneError β}
    (hg : ∀ a, (g a).outcome t = (x a, t)) (as : List α) :
    (as.mapM g).outcome t = (as.mapM x, t) := by
  induction as with
  | nil => rfl
  | cons a as ih =>
    rw [List.mapM_cons, List.mapM_cons, outcome_bind, hg]
    cases x a with
    | error e => rfl
    | ok b =>
      show (as.mapM g >>= fun bs => pure (b :: bs)).outcome t = _
      rw [outcome_bind, ih]
      cases as.mapM x <;> rfl

/-- What a procedure should come to: the result and the table of an operation, or its error and the
table as it was. -/
def settled (t : PaneTable) : Except PaneError (PaneTable × α) → Except PaneError α × PaneTable
  | .ok (u, a) => (.ok a, u)
  | .error e => (.error e, t)

theorem settled_eq_error_iff {x : Except PaneError (PaneTable × α)} {e : PaneError} :
    settled t x = (.error e, u) ↔ x = .error e ∧ u = t := by
  cases x with
  | error e' => simp [settled, eq_comm]
  | ok r => simp [settled]

theorem settled_eq_ok_iff {x : Except PaneError (PaneTable × α)} {a : α} :
    settled t x = (.ok a, u) ↔ x = .ok (u, a) := by
  cases x with
  | error e => simp [settled]
  | ok r => simp [settled, Prod.ext_iff, and_comm]

theorem outcome_map {x : Procedure α} {y : Except PaneError (PaneTable × α)}
    (h : x.outcome t = settled t y) (g : α → β) :
    (x >>= fun a => pure (g a)).outcome t =
      settled t (y >>= fun r => .ok (r.1, g r.2)) := by
  rw [outcome_bind, h]
  cases y <;> rfl

/-- What opens no pane tells of none. -/
theorem outcome_arranging {x : Procedure Unit} {y : Except PaneError PaneTable}
    (h : x.outcome t = settled t (return (← y, ⟨⟩))) :
    (x >>= fun _ => pure ([] : List PaneId)).outcome t = settled t (return (← y, [])) := by
  rw [outcome_bind, h]
  cases y <;> rfl

/-! ## Opening and closing panes -/

theorem outcome_nameSpawned (r : SpawnRequest) (t : PaneTable) :
    (nameSpawned r).outcome t = (.ok (if t.primary.isNone then (t, Naming.primary)
      else t.nameSpawned r).2, (if t.primary.isNone then (t, Naming.primary)
      else t.nameSpawned r).1) := by
  unfold nameSpawned
  rw [outcome_get_bind]
  split <;> rfl

theorem outcome_openPane (r : SpawnRequest) (t : PaneTable) :
    (openPane r).outcome t = (.ok (t.openPane r).2, (t.openPane r).1) := by
  unfold openPane
  rw [outcome_bind, outcome_nameSpawned]
  rfl

theorem outcome_spawn (r : SpawnRequest) (t : PaneTable) :
    (spawn r).outcome t = settled t (t.spawn r) := by
  unfold spawn PaneTable.spawn
  rw [outcome_bind, outcome_mapM fun id => outcome_look id t]
  cases r.spawner with
  | none => exact outcome_openPane r t
  | some spawner =>
    dsimp only
    rw [Option.toList_some, List.mapM_cons, List.mapM_nil]
    cases t.get spawner with
    | error e => rfl
    | ok p => exact outcome_openPane r t

theorem outcome_destroy (id : PaneId) (cascade activate : Bool) (t : PaneTable) :
    (destroy id cascade activate).outcome t = settled t (t.destroy id cascade activate) := by
  unfold destroy PaneTable.destroy
  rw [outcome_look_bind]
  cases t.get id with
  | error e => rfl
  | ok p =>
    dsimp only
    rw [outcome_get_bind]
    by_cases hprimary : t.primary = some id
    · rw [if_pos hprimary, if_pos hprimary]
      rfl
    · rw [if_neg hprimary, if_neg hprimary]
      rfl

/-! ## Merging panes -/

theorem outcome_mergeInput (keep : Bool) (id : PaneId) (t : PaneTable) :
    (mergeInput keep id).outcome t = (t.mergeInput keep id, t) := by
  unfold mergeInput PaneTable.mergeInput
  rw [outcome_look_bind]
  cases t.get id with
  | error e => rfl
  | ok p =>
    dsimp only
    rw [outcome_get_bind]
    by_cases hcond : keep = false ∧ t.primary = some id
    · rw [if_pos hcond]
      exact congrArg (·, t) (if_pos hcond).symm
    · rw [if_neg hcond]
      exact congrArg (·, t) (if_neg hcond).symm

/-- The inputs that were looked up once can be looked up again. -/
theorem mapM_get_of_mergeInput {keep : Bool} {ids : List PaneId} {panes : List Pane}
    (h : ids.mapM (t.mergeInput keep) = .ok panes) : ids.mapM t.get = .ok panes := by
  induction ids generalizing panes with
  | nil => exact h
  | cons id ids ih =>
    rw [List.mapM_cons] at h ⊢
    obtain ⟨p, hp, h⟩ := bind_eq_ok.1 h
    obtain ⟨ps, hps, h⟩ := bind_eq_ok.1 h
    have hlive : t.get id = .ok p := PaneTable.get_eq_ok.2 (PaneTable.mergeInput_eq_ok hp).1
    exact bind_eq_ok.2 ⟨p, hlive, bind_eq_ok.2 ⟨ps, ih hps, h⟩⟩

theorem outcome_merge (inputs : List PaneId) (keep : Bool) (t : PaneTable) :
    (merge inputs keep).outcome t = settled t (t.merge inputs keep) := by
  unfold merge PaneTable.merge
  dsimp only
  by_cases hfew : inputs.eraseDups.length < 2
  · simp only [hfew, if_true]
    rfl
  simp only [hfew, if_false]
  rw [outcome_bind, outcome_mapM fun id => outcome_mergeInput keep id t]
  cases hpanes : inputs.eraseDups.mapM (t.mergeInput keep) with
  | error e => rfl
  | ok panes =>
    dsimp only
    rw [outcome_bind, outcome_mapM fun id => outcome_look id t, mapM_get_of_mergeInput hpanes]
    cases keep with
    | true => rfl
    | false => rfl

/-! ## Copying panes -/

/-- Making room takes no pane that is still live afterwards, so both looks find the pane. -/
theorem outcome_copy {source id : PaneId} {protected_ : List PaneId}
    (hcopy : t.copy source protected_ = .ok (u, id)) :
    (copy source protected_).outcome t = (.ok id, u) := by
  obtain ⟨p, hp, hcopy⟩ := bind_eq_ok.1 hcopy
  obtain ⟨rfl, rfl⟩ := Prod.mk.inj (Except.ok.inj hcopy)
  obtain ⟨q, hq, -⟩ := PaneTable.bare_of_pane?_makeRoom (PaneTable.get_eq_ok.1 hp)
  unfold copy
  rw [outcome_look_bind, PaneTable.get_eq_ok.2 hq]
  dsimp only
  rw [outcome_bind_of_ok (outcome_modify _ t), outcome_look_bind, hp]
  rfl

theorem outcome_duplicate (h : t.WellFormed rank) (source : PaneId) :
    (duplicate source).outcome t = settled t (t.duplicate source) := by
  unfold duplicate PaneTable.duplicate
  cases hget : t.get source with
  | error e =>
    unfold copy
    rw [outcome_bind, outcome_look_bind, hget]
    rfl
  | ok p =>
    have hlive := PaneTable.contains_of_pane? (PaneTable.get_eq_ok.1 hget)
    obtain ⟨u, id, hcopy⟩ := h.exists_copy hlive (List.mem_singleton_self source)
    rw [outcome_bind_of_ok (outcome_copy hcopy)]
    show _ = settled t (t.copy source [source] >>= _)
    rw [hcopy]
    rfl

/-- As long as each copy can be made, one is made after the other. -/
theorem outcome_copies {sources chosen : List PaneId} {copies : List (PaneId × PaneId)}
    (h : t.copySome sources chosen = .ok (u, copies)) :
    (chosen.foldlM (copyNext sources) []).outcome t = (.ok copies, u) := by
  induction chosen using List.reverseRecOn generalizing u copies with
  | nil =>
    obtain ⟨rfl, rfl⟩ := Prod.mk.inj (Except.ok.inj h)
    rfl
  | append_singleton chosen source ih =>
    obtain ⟨v, done, id, hdone, hcopy, rfl⟩ := PaneTable.copySome_concat_eq_ok.1 h
    have hnext : (copyNext sources done source).outcome v = (.ok (done ++ [(source, id)]), u) :=
      outcome_bind_of_ok (outcome_copy hcopy) _
    rw [List.foldlM_append, outcome_bind_of_ok (ih hdone), List.foldlM_cons,
      outcome_bind_of_ok hnext]
    rfl

theorem outcome_duplicateMany (h : t.WellFormed rank) (sources : List PaneId) :
    (duplicateMany sources).outcome t = settled t (t.duplicateMany sources) := by
  unfold duplicateMany
  rw [outcome_bind, outcome_mapM fun id => outcome_look id t]
  cases hpanes : sources.mapM t.get with
  | error e =>
    unfold PaneTable.duplicateMany
    rw [hpanes]
    rfl
  | ok panes =>
    have hsources : ∀ s ∈ sources, t.contains s = true := by
      intro s hs
      obtain ⟨p, -, hp⟩ := (mapM_eq_ok hpanes).1 s hs
      exact PaneTable.contains_of_pane? (PaneTable.get_eq_ok.1 hp)
    obtain ⟨v, copies, hcopies, hduplicate⟩ := h.exists_duplicateMany hsources
    dsimp only
    rw [outcome_bind_of_ok (outcome_copies hcopies), hduplicate]
    rfl

/-! ## Arranging panes -/

theorem outcome_activate (id : PaneId) (t : PaneTable) :
    (activate id).outcome t = settled t (return (← t.activate id, ⟨⟩)) := by
  unfold activate PaneTable.activate
  rw [outcome_look_bind]
  cases t.get id <;> rfl

theorem outcome_arrange (id : PaneId) (f : Geometry → Geometry) (t : PaneTable) :
    (arrange id f).outcome t = settled t (return (← t.arrange id f, ⟨⟩)) := by
  unfold arrange PaneTable.arrange
  rw [outcome_look_bind]
  cases t.get id <;> rfl

theorem outcome_arrange_of_live {id : PaneId} (hid : t.contains id = true)
    (f : Geometry → Geometry) : (arrange id f).outcome t = (.ok ⟨⟩, t.reshape id f) := by
  obtain ⟨p, hp⟩ := PaneTable.exists_pane?_iff.1 hid
  unfold arrange
  rw [outcome_look_bind, PaneTable.get_eq_ok.2 hp]
  rfl

/-- Arranging a pane closes none, so live panes can be arranged one after the other. -/
theorem outcome_arrangeMany {ids : List PaneId} (hids : ∀ id ∈ ids, t.contains id = true)
    (f : Geometry → Geometry) :
    (forM ids fun id => arrange id f).outcome t =
      (.ok ⟨⟩, ids.foldl (fun t id => t.reshape id f) t) := by
  induction ids generalizing t with
  | nil => rfl
  | cons id ids ih =>
    obtain ⟨hid, hids⟩ := List.forall_mem_cons.1 hids
    rw [List.forM_cons, outcome_bind_of_ok (outcome_arrange_of_live hid f)]
    refine ih fun other hother => ?_
    rw [(PaneTable.SameWork.reshape t id f).contains]
    exact hids other hother

theorem outcome_toggle (h : t.WellFormed rank) (id : PaneId) :
    (toggle id).outcome t = settled t (return (← t.toggle id, ⟨⟩)) := by
  unfold toggle PaneTable.toggle
  rw [outcome_bind, outcome_arrange]
  cases harrange : t.arrange id Geometry.toggle with
  | error e => rfl
  | ok u =>
    -- The pane that is opened instead is one of those on screen, all of which are live.
    obtain ⟨⟨rank', hu⟩, -⟩ := h.arrange harrange
    refine (outcome_get_bind _ u).trans ?_
    dsimp only [bind, Except.bind]
    by_cases hall : (u.live.values.all fun p => p.geometry.isCollapsed) = true
    · simp only [hall, if_true]
      refine (outcome_get_bind _ u).trans ?_
      cases hlast : (u.ids.filter fun other => other ≠ id).getLast? with
      | none => rfl
      | some other =>
        have hother := (List.mem_filter.1 (List.mem_of_getLast? hlast)).1
        exact outcome_arrange_of_live ((hu.rooted.linked.mem_ids other).1 hother) Geometry.expand
    · simp only [hall]
      rfl

theorem outcome_highlight (h : t.WellFormed rank) (id : PaneId) :
    (highlight id).outcome t = settled t (return (← t.highlight id, ⟨⟩)) := by
  unfold highlight PaneTable.highlight
  rw [outcome_look_bind]
  cases hget : t.get id with
  | error e => rfl
  | ok p =>
    have hothers : ∀ other ∈ t.ids.filter (fun other => other ≠ id), t.contains other = true :=
      fun other hother => (h.rooted.linked.mem_ids other).1 (List.mem_filter.1 hother).1
    have hsame := PaneTable.SameWork.foldl
      (fun u other => PaneTable.SameWork.reshape u other Geometry.collapse) t
      (t.ids.filter fun other => other ≠ id)
    have hid : t.contains id = true := PaneTable.contains_of_pane? (PaneTable.get_eq_ok.1 hget)
    rw [← hsame.contains] at hid
    dsimp only
    rw [outcome_get_bind, outcome_bind_of_ok (outcome_arrangeMany hothers Geometry.collapse),
      outcome_bind_of_ok (outcome_arrange_of_live hid Geometry.expand)]
    rfl

/-- **Step by step a command comes to the same as at once**, and if it is refused the table is as it
was. -/
theorem outcome_procedure (h : t.WellFormed rank) (c : PaneCommand) :
    c.procedure.outcome t = settled t (t.execute c) := by
  cases c with
  | spawn r => exact outcome_map (outcome_spawn r t) fun id => [id]
  | destroy id cascade activating =>
    exact outcome_map (outcome_destroy id cascade activating t) fun _ => []
  | merge inputs keep => exact outcome_map (outcome_merge inputs keep t) fun id => [id]
  | duplicate source => exact outcome_map (outcome_duplicate h source) fun id => [id]
  | duplicateMany sources => exact outcome_duplicateMany h sources
  | activate id => exact outcome_arranging (outcome_activate id t)
  | arrange id f => exact outcome_arranging (outcome_arrange id f t)
  | toggle id => exact outcome_arranging (outcome_toggle h id)
  | highlight id => exact outcome_arranging (outcome_highlight h id)
  | clear => rfl

end Procedure

end StateAtlas
