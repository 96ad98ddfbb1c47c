import StateAtlas.Proofs.Dictionary
import StateAtlas.Proofs.Pane.Merging
import StateAtlas.Proofs.Sync.Bus
/-!
The panes as an overview knows them.

An overview in another process has no table of panes: it keeps a registry and is told of panes by
events alone.  Whatever is done to a table, what it announces is all that it takes to keep a registry
right.  Panes that are copied together are live for a while before they are announced, and meanwhile
others are evicted and the copies are relinked.  So what a registry mirrors on the way is a table
without some panes that are hidden from it.

Main statement: `registry_mirrors`.
-/

namespace StateAtlas

/-! ## Registries -/

/-- The panes that an overview knows of, each with those that it was spawned from. -/
abbrev Registry := Dictionary PaneId (List PaneId)

/-- The registry once an event was heard: an added pane is entered with its spawners, and a removed
one is struck out everywhere. -/
def Registry.hear (r : Registry) : Event → Registry
  | .registry (.paneAdded id _ _ spawners _) => r.insert id spawners
  | .registry (.paneRemoved id) =>
    (r.erase id).mapValues fun spawners => spawners.filter fun other => other ≠ id
  | _ => r

/-- The pane that an event tells of as added, and the nodes that it is said to hold. -/
def Event.added? : Event → Option (PaneId × List NodeId)
  | .registry (.paneAdded id _ nodes _ _) => some (id, nodes)
  | _ => none

/-- Of other topics nothing is noted. -/
theorem Registry.hear_of_not_asked (r : Registry) (e : Event)
    (h : Bus.asked [.registry] e = false) : r.hear e = r := by
  cases e with
  | registry message => nomatch h
  | _ => rfl

theorem Event.added?_of_not_asked (e : Event) (h : Bus.asked [.registry] e = false) :
    e.added? = none := by
  cases e with
  | registry message => nomatch h
  | _ => rfl

namespace PaneTable

variable {t u v w : PaneTable} {rank : PaneId → Nat} {id k : PaneId} {p : Pane}
variable {hidden hidden' hidden'' opened : List PaneId} {added added' : List (PaneId × List NodeId)}

/-! ## What a registry is told -/

/-- The spawners of a pane, unless it is hidden. -/
def shown (t : PaneTable) (hidden : List PaneId) (id : PaneId) : Option (List PaneId) :=
  if id ∈ hidden then none else (t.pane? id).map Pane.spawners

/-- A registry lists the live panes that are not hidden, with their spawners. -/
def Mirrors (r : Registry) (t : PaneTable) (hidden : List PaneId) : Prop :=
  ∀ id, r.get? id = t.shown hidden id

/-- What a table announces while it becomes another tells a registry all it has to know, if some
panes are hidden at first and some are in the end; it tells of certain panes as added. -/
def Tells (t : PaneTable) (hidden : List PaneId) (added : List (PaneId × List NodeId))
    (u : PaneTable) (hidden' : List PaneId) : Prop :=
  ∃ news : List Event, u.bus = news.foldl Bus.publish t.bus ∧
    (∀ e ∈ news, e.topic = .registry ∨ e.topic = .layout) ∧
    news.filterMap Event.added? = added ∧
    ∀ r, Mirrors r t hidden → Mirrors (news.foldl Registry.hear r) u hidden'

theorem Tells.trans (h : t.Tells hidden added u hidden')
    (h' : u.Tells hidden' added' v hidden'') : t.Tells hidden (added ++ added') v hidden'' := by
  obtain ⟨news, hbus, htopics, hadded, hmirrors⟩ := h
  obtain ⟨news', hbus', htopics', hadded', hmirrors'⟩ := h'
  refine ⟨news ++ news', ?_, List.forall_mem_append.2 ⟨htopics, htopics'⟩, ?_, fun r hr => ?_⟩
  · rw [List.foldl_append, ← hbus, hbus']
  · rw [List.filterMap_append, hadded, hadded']
  · rw [List.foldl_append]
    exact hmirrors' _ (hmirrors r hr)

/-- What is done without adding a pane adds nothing. -/
theorem Tells.trans_nil (h : t.Tells hidden added u hidden') (h' : u.Tells hidden' [] v hidden'') :
    t.Tells hidden added v hidden'' := by
  have hall := h.trans h'
  rwa [List.append_nil] at hall

/-- Nothing has to be told as long as the same is shown. -/
theorem Tells.silent (hbus : u.bus = t.bus) (hsame : ∀ id, u.shown hidden' id = t.shown hidden id) :
    t.Tells hidden [] u hidden' :=
  ⟨[], hbus, List.forall_mem_nil _, rfl, fun _ hr id => (hr id).trans (hsame id).symm⟩

theorem Tells.refl (t : PaneTable) (hidden : List PaneId) : t.Tells hidden [] t hidden :=
  .silent rfl fun _ => rfl

/-- One event tells it all. -/
theorem Tells.single {e : Event} (hbus : u.bus = t.bus.publish e)
    (htopic : e.topic = .registry ∨ e.topic = .layout)
    (hmirrors : ∀ r, Mirrors r t hidden → Mirrors (r.hear e) u hidden') :
    t.Tells hidden e.added?.toList u hidden' := by
  refine ⟨[e], hbus, List.forall_mem_singleton.2 htopic, ?_, hmirrors⟩
  cases hadded : e.added? with
  | none => rw [List.filterMap_cons_none hadded, List.filterMap_nil, Option.toList_none]
  | some a => rw [List.filterMap_cons_some hadded, List.filterMap_nil, Option.toList_some]

/-! ## Changes that are of no account to a registry -/

theorem Tells.setActive (t : PaneTable) (hidden : List PaneId) (id : PaneId) :
    t.Tells hidden [] (t.setActive id) hidden := by
  unfold PaneTable.setActive
  split
  · exact .refl t hidden
  · exact .single (e := .registry (.activePane id)) rfl (.inl rfl) fun _ hr => hr

theorem Tells.reactivate (t : PaneTable) (hidden : List PaneId) (activate : Bool) :
    t.Tells hidden [] (t.reactivate activate) hidden := by
  unfold PaneTable.reactivate
  split
  · exact .refl t hidden
  · split
    · exact .setActive t hidden _
    · exact .silent rfl fun _ => rfl

theorem Tells.reshape (t : PaneTable) (hidden : List PaneId) (id : PaneId)
    (f : Geometry → Geometry) : t.Tells hidden [] (t.reshape id f) hidden := by
  refine .single (e := .relayout id) rfl (.inr rfl) fun r hr k => (hr k).trans ?_
  have hsame : ((t.reshape id f).pane? k).map Pane.spawners = (t.pane? k).map Pane.spawners :=
    Dictionary.map_get?_modify (f := fun p => { p with geometry := f p.geometry }) (fun _ => rfl)
      t.live id k
  rw [shown, shown, hsame]

theorem Tells.foldl {α : Type} {f : PaneTable → α → PaneTable} {as : List α}
    (hf : ∀ u, ∀ a ∈ as, Tells u hidden [] (f u a) hidden) (t : PaneTable) :
    t.Tells hidden [] (as.foldl f t) hidden := by
  induction as generalizing t with
  | nil => exact .refl t hidden
  | cons a as ih =>
    obtain ⟨ha, has⟩ := forall_and.1 fun u => List.forall_mem_cons.1 (hf u)
    exact (ha t).trans (ih has _)

/-- The copy that is relinked is hidden, and the spawners of other panes stay as they are. -/
theorem Tells.relink (t : PaneTable) (copies : List (PaneId × PaneId)) (hid : id ∈ hidden) :
    t.Tells hidden [] (PaneTable.relink copies t id) hidden := by
  refine .silent (by rw [relink_eq]) fun k => ?_
  by_cases hk : k ∈ hidden
  · rw [shown, shown, if_pos hk, if_pos hk]
  · have hne : k ≠ id := fun heq => hk (heq ▸ hid)
    rw [shown, shown, map_spawners_relink_of_ne hne]

/-! ## Panes that come and go -/

theorem Tells.removeOne (t : PaneTable) (hidden : List PaneId) (id : PaneId) :
    t.Tells hidden [] (t.removeOne id) hidden := by
  by_cases hid : t.contains id = true
  case neg =>
    rw [removeOne_of_not_contains hid]
    exact .refl t hidden
  refine .single (e := .registry (.paneRemoved id)) (bus_removeOne hid) (.inl rfl) fun r hr k => ?_
  have hhear : (r.hear (.registry (.paneRemoved id))).get? k =
      if id = k then none else (r.get? k).map fun spawners => spawners.filter fun s => s ≠ id := by
    rw [Registry.hear, Dictionary.get?_mapValues, Dictionary.get?_erase]
    split <;> rfl
  rw [hhear, hr k, shown, shown, pane?_removeOne t id k hid]
  by_cases hk : id = k
  · rw [if_pos hk, if_pos hk, Option.map_none, ite_self]
  · rw [if_neg hk, if_neg hk, Option.map_map]
    split
    · rfl
    · rw [Option.map_map]
      rfl

theorem Tells.remove (t : PaneTable) (hidden victims : List PaneId) (activate : Bool) :
    t.Tells hidden [] (t.remove victims activate).1 hidden :=
  (Tells.foldl (fun u victim _ => .removeOne u hidden victim) t).trans
    (.reactivate _ hidden activate)

theorem Tells.makeRoom (t : PaneTable) (hidden protected_ : List PaneId) :
    t.Tells hidden [] (t.makeRoom protected_) hidden :=
  makeRoom_induction (P := fun u => t.Tells hidden [] u hidden)
    (fun u victim hu _ => hu.trans (.remove u hidden [victim] false)) (.refl t hidden)

theorem bus_place (t : PaneTable) (p : Pane) (after : Option PaneId) (insert : InsertPolicy) :
    (t.place p after insert).bus = t.bus := by
  rw [place_eq]

/-- A new pane is hidden until it is announced. -/
theorem Tells.place (hp : t.Admits p) (after : Option PaneId) (insert : InsertPolicy)
    (hhidden : ∀ k, k ∈ hidden' ↔ k = p.id ∨ k ∈ hidden)
    (hbus : u.bus = t.bus) (hlive : u.live = (t.place p after insert).live) :
    t.Tells hidden [] u hidden' := by
  refine .silent hbus fun k => ?_
  have hget : u.pane? k = (t.place p after insert).pane? k := congrArg (·.get? k) hlive
  rw [shown, shown, hget, pane?_place t after insert hp.nodup_spawners hp.notMem_spawners]
  by_cases hk : k = p.id
  · have hnone : t.pane? k = none := Option.not_isSome_iff_eq_none.1 (hk ▸ hp.name_free)
    rw [if_pos ((hhidden k).2 (.inl hk)), hnone, Option.map_none, ite_self]
  · have hsame : k ∈ hidden' ↔ k ∈ hidden := (hhidden k).trans (or_iff_right hk)
    rw [if_neg hk]
    simp only [hsame]
    split
    · rfl
    · split
      · rw [Option.map_map]
        rfl
      · rfl

/-- A pane is shown once it is announced. -/
theorem Tells.announce (hp : t.pane? id = some p) (hid : p.id = id) (hnot : id ∉ hidden')
    (hhidden : ∀ k, k ∈ hidden ↔ k = id ∨ k ∈ hidden') :
    t.Tells hidden [(id, p.store.nodeIds)] (t.announce id) hidden' := by
  subst hid
  refine .single (e := .registry (.paneAdded ..))
    (congrArg PaneTable.bus (announce_eq hp)) (.inl rfl) fun r hr k => ?_
  have hget : (t.announce p.id).pane? k = t.pane? k := congrArg (·.get? k) (live_announce t p.id)
  rw [Registry.hear, Dictionary.get?_insert, hr k, shown, shown, hget]
  by_cases hk : k = p.id
  · subst hk
    rw [if_pos rfl, if_neg hnot, hp, Option.map_some]
  · have hsame : k ∈ hidden ↔ k ∈ hidden' := (hhidden k).trans (or_iff_right hk)
    rw [if_neg (Ne.symm hk)]
    simp only [hsame]

/-! ## Commands -/

/-- The name of a live pane, with the nodes that it holds. -/
def holding? (t : PaneTable) (id : PaneId) : Option (PaneId × List NodeId) :=
  (t.pane? id).map fun p => (id, p.store.nodeIds)

theorem holding?_congr (h : u.live = t.live) : u.holding? = t.holding? :=
  funext fun id => congrArg (fun live => (live.get? id).map fun p => (id, p.store.nodeIds)) h

/-- What a table announces while it becomes another tells a registry all it has to know, and of each
pane that was opened which nodes it holds. -/
def Reports (t : PaneTable) (opened : List PaneId) (u : PaneTable) : Prop :=
  ∃ added, t.Tells [] added u [] ∧ added.map some = opened.map u.holding?

theorem Tells.reports (h : t.Tells [] [] u []) : t.Reports [] u := ⟨[], h, rfl⟩

/-- After a pane was put in, it is announced and becomes the active one. -/
theorem reports_opened (h : t.Tells [] [] u []) (hp : u.Admits p) (hid : p.id = id)
    (after : Option PaneId) (insert : InsertPolicy) (hbus : v.bus = u.bus)
    (hlive : v.live = (u.place p after insert).live) :
    t.Reports [id] ((v.announce id).setActive id) := by
  subst hid
  have hget : v.pane? p.id = some p := by
    rw [pane?, hlive, ← pane?, pane?_place u after insert hp.nodup_spawners hp.notMem_spawners,
      if_pos rfl]
  have hshown : ((v.announce p.id).setActive p.id).pane? p.id = some p := by
    rw [pane?, live_setActive, live_announce, ← pane?, hget]
  have hplace : t.Tells [] [] v [p.id] :=
    h.trans (.place hp after insert (by simp) hbus hlive)
  have hannounce : v.Tells [p.id] [(p.id, p.store.nodeIds)] (v.announce p.id) [] :=
    .announce hget rfl (by simp) (by simp)
  refine ⟨[(p.id, p.store.nodeIds)], ?_, ?_⟩
  · exact (hplace.trans hannounce).trans_nil (.setActive _ [] p.id)
  · rw [List.map_singleton, List.map_singleton, holding?, hshown, Option.map_some]

theorem holding?_remove {victims : List PaneId} (hid : id ∉ victims) (activate : Bool) :
    (t.remove victims activate).1.holding? id = t.holding? id := by
  have hbare := map_bare_remove t victims activate id
  rw [if_neg hid] at hbare
  have hheld := congrArg (Option.map fun p => (id, p.store.nodeIds)) hbare
  rwa [Option.map_map, Option.map_map] at hheld

theorem Reports.remove (h : t.Reports opened u) {victims : List PaneId}
    (hstay : ∀ id ∈ opened, id ∉ victims) (activate : Bool) :
    t.Reports opened (u.remove victims activate).1 := by
  obtain ⟨added, htells, hadded⟩ := h
  refine ⟨added, htells.trans_nil (.remove u [] victims activate), hadded.trans ?_⟩
  exact List.map_congr_left fun id hid => (holding?_remove (hstay id hid) activate).symm

theorem WellFormed.reports_openPane (h : t.WellFormed rank) {r : SpawnRequest}
    (hr : ∀ s ∈ r.spawner, t.contains s = true) :
    t.Reports [(t.openPane r).2] (t.openPane r).1 := by
  obtain ⟨-, -, -, hp⟩ := h.named hr
  obtain ⟨naming, hnamed⟩ := h.named_fst r
  have hroom : t.Tells [] [] (t.named r).1 [] := by
    rw [hnamed]
    exact (Tells.makeRoom t [] r.spawner.toList).trans (.silent rfl fun _ => rfl)
  rw [openPane_eq]
  exact reports_opened hroom hp rfl r.spawner r.insert (bus_place _ _ r.spawner r.insert) rfl

theorem WellFormed.reports_spawn (h : t.WellFormed rank) {r : SpawnRequest}
    (hspawn : t.spawn r = .ok (u, id)) : t.Reports [id] u := by
  obtain ⟨hr, hopen⟩ := spawn_eq_ok hspawn
  have hreports := h.reports_openPane hr
  rwa [hopen] at hreports

theorem reports_destroy {cascade activate : Bool} {removed : List PaneId}
    (hdestroy : t.destroy id cascade activate = .ok (u, removed)) : t.Reports [] u := by
  obtain ⟨p, -, hdestroy⟩ := bind_eq_ok.1 hdestroy
  split at hdestroy
  next => nomatch hdestroy
  next =>
    obtain ⟨rfl, -⟩ := Prod.mk.inj (Except.ok.inj hdestroy)
    exact (Tells.remove t [] _ activate).reports

theorem WellFormed.reports_merge (h : t.WellFormed rank) {inputs : List PaneId} {keep : Bool}
    (hmerge : t.merge inputs keep = .ok (u, id)) : t.Reports [id] u := by
  obtain ⟨panes, hinputs, -, -, hunion⟩ := merge_eq_ok hmerge
  obtain ⟨hids, hpanes⟩ := live_of_inputs hinputs
  have hp := h.admits_merged (nodup_eraseDups inputs) hids hpanes keep
  have hroom : t.Tells [] [] (t.roomFor inputs.eraseDups keep) [] := by
    cases keep with
    | true => exact .makeRoom t [] _
    | false => exact .refl t []
  have hmerged : t.Reports [(t.merged inputs.eraseDups panes keep).id]
      (t.withMerged inputs.eraseDups panes keep) :=
    reports_opened hroom hp rfl none .atEnd (bus_place _ _ none .atEnd) rfl
  rw [openUnion_eq] at hunion
  obtain ⟨rfl, rfl⟩ := Prod.mk.inj hunion
  cases keep with
  | true => exact hmerged
  | false =>
    -- The name of the merged pane was free, so it is none of the inputs.
    refine hmerged.remove (fun other hother hmem => ?_) false
    obtain rfl := List.mem_singleton.1 hother
    exact hp.name_free (hids _ hmem)

/-- A copy that was put in is hidden. -/
theorem WellFormed.tells_copy (h : t.WellFormed rank) {source : PaneId} {protected_ : List PaneId}
    (hcopy : t.copy source protected_ = .ok (u, id))
    (hhidden : ∀ k, k ∈ hidden' ↔ k = id ∨ k ∈ hidden) : t.Tells hidden [] u hidden' := by
  obtain ⟨naming, p, -, hadmits, rfl⟩ := h.copy_eq_ok hcopy
  have hnamed : t.Tells hidden [] { t.makeRoom protected_ with naming } hidden :=
    (Tells.makeRoom t hidden protected_).trans (.silent rfl fun _ => rfl)
  exact hnamed.trans
    (.place hadmits (some source) p.view.insertPolicy hhidden (bus_place ..) rfl)

theorem WellFormed.reports_duplicate (h : t.WellFormed rank) {source : PaneId}
    (hduplicate : t.duplicate source = .ok (u, id)) : t.Reports [id] u := by
  obtain ⟨_, -, hduplicate⟩ := bind_eq_ok.1 hduplicate
  obtain ⟨⟨v, new⟩, hcopy, hduplicate⟩ := bind_eq_ok.1 hduplicate
  obtain ⟨rfl, rfl⟩ := Prod.mk.inj (Except.ok.inj hduplicate)
  obtain ⟨naming, p, -, hadmits, rfl⟩ := h.copy_eq_ok hcopy
  have hroom : t.Tells [] [] { t.makeRoom [source] with naming } [] :=
    (Tells.makeRoom t [] [source]).trans (.silent rfl fun _ => rfl)
  exact reports_opened hroom hadmits rfl (some source) p.view.insertPolicy (bus_place _ _ (some source) _) rfl

/-- While panes are copied, the copies are hidden. -/
theorem WellFormed.tells_copyEach (h : t.WellFormed rank) {sources : List PaneId}
    {copies : List (PaneId × PaneId)} (hsources : ∀ s ∈ sources, t.contains s = true)
    (hcopies : t.copyEach sources = .ok (u, copies)) :
    t.Tells [] [] u (copies.map Prod.snd) := by
  have hstart : Copying sources t t [] rank :=
    ⟨h, Evolves.refl t, ⟨by simp, by simp, by simp⟩, hsources, by simp, by simp⟩
  refine (foldlM_eq_ok (P := fun w => (∃ rank', Copying sources t w.1 w.2 rank') ∧
    t.Tells [] [] w.1 (w.2.map Prod.snd)) hcopies ⟨⟨rank, hstart⟩, .refl t []⟩ ?_).2
  rintro source hsource ⟨v, done⟩ ⟨w, done'⟩ ⟨⟨rank', hdone⟩, htells⟩ hstep
  obtain ⟨⟨x, new⟩, hcopy, hstep⟩ := bind_eq_ok.1 hstep
  obtain ⟨rfl, rfl⟩ := Prod.mk.inj (Except.ok.inj hstep)
  refine ⟨⟨_, hdone.step (List.mem_eraseDups.1 hsource) hcopy⟩, htells.trans ?_⟩
  exact hdone.wellFormed.tells_copy hcopy (by simp [or_comm])

/-- Panes that were hidden are shown once all of them are announced. -/
theorem Linked.tells_announceAll (h : t.Linked rank) (hnodup : hidden.Nodup)
    (hlive : ∀ id ∈ hidden, t.contains id = true) :
    ∃ added, t.Tells hidden added (hidden.foldl PaneTable.announce t) [] ∧
      added.map some = hidden.map t.holding? := by
  induction hidden generalizing t with
  | nil => exact ⟨[], .refl t [], rfl⟩
  | cons id hidden ih =>
    obtain ⟨hnot, hnodup⟩ := List.nodup_cons.1 hnodup
    obtain ⟨hid, hrest⟩ := List.forall_mem_cons.1 hlive
    obtain ⟨p, hp⟩ := exists_pane?_iff.1 hid
    have hsame := SameLineage.announce t id
    obtain ⟨added, htells, hadded⟩ :=
      ih (h.of_sameLineage hsame) hnodup fun k hk => (hsame.contains k).trans (hrest k hk)
    refine ⟨(id, p.store.nodeIds) :: added, ?_, ?_⟩
    · exact (Tells.announce hp (h.id_pane hp) hnot (by simp)).trans htells
    · have hheld : (t.announce id).holding? = t.holding? := holding?_congr (live_announce t id)
      rw [List.map_cons, List.map_cons, hadded, hheld, holding?, hp, Option.map_some]

theorem WellFormed.reports_duplicateMany (h : t.WellFormed rank) {sources : List PaneId}
    (hduplicate : t.duplicateMany sources = .ok (u, opened)) : t.Reports opened u := by
  obtain ⟨hsources, v, copies, hcopies, rfl, rfl⟩ := duplicateMany_eq_ok hduplicate
  obtain ⟨rank', hcopying⟩ := h.copyEach hsources hcopies
  let ids := copies.map Prod.snd
  let relinked := ids.foldl (PaneTable.relink copies) v
  have hrelinked : relinked.WellFormed rank' := hcopying.wellFormed_relinked
  have hlive : ∀ id ∈ ids, relinked.contains id = true := by
    intro id hid
    obtain ⟨c, hc, rfl⟩ := List.mem_map.1 hid
    rw [(SameWork.foldl (SameWork.relink copies) v ids).contains]
    exact hcopying.copied.live c hc
  have hrelink : v.Tells ids [] relinked ids := .foldl (fun w id hid => .relink w copies hid) v
  obtain ⟨added, hannounce, hadded⟩ :=
    hrelinked.rooted.linked.tells_announceAll hcopying.copied.nodup hlive
  have hall := ((h.tells_copyEach hsources hcopies).trans hrelink).trans hannounce
  have hheld : (v.withCopies copies).holding? = relinked.holding? :=
    holding?_congr (by rw [withCopies_eq])
  refine ⟨added, ?_, hheld ▸ hadded⟩
  unfold PaneTable.withCopies
  dsimp only
  split
  · exact hall.trans_nil (.setActive _ [] _)
  · exact hall

theorem tells_arrange {f : Geometry → Geometry} (harrange : t.arrange id f = .ok u) :
    t.Tells [] [] u [] := by
  obtain ⟨p, -, harrange⟩ := bind_eq_ok.1 harrange
  obtain rfl := Except.ok.inj harrange
  exact .reshape t [] id f

theorem tells_toggle (htoggle : t.toggle id = .ok u) : t.Tells [] [] u [] := by
  obtain ⟨v, harrange, htoggle⟩ := bind_eq_ok.1 htoggle
  have htells := tells_arrange harrange
  split at htoggle
  · split at htoggle
    · exact Except.ok.inj htoggle ▸ htells.trans (.reshape v [] _ _)
    · exact Except.ok.inj htoggle ▸ htells
  · exact Except.ok.inj htoggle ▸ htells

theorem tells_highlight (hhighlight : t.highlight id = .ok u) : t.Tells [] [] u [] := by
  obtain ⟨p, -, hhighlight⟩ := bind_eq_ok.1 hhighlight
  obtain rfl := Except.ok.inj hhighlight
  exact ((Tells.foldl (fun v other _ => .reshape v [] other _) t).trans (.reshape _ [] id _)).trans
    (.setActive _ [] id)

theorem tells_clear (t : PaneTable) : t.Tells [] [] t.clear.1 [] :=
  (Tells.remove t [] t.ids.reverse false).trans (.silent rfl fun _ => rfl)

/-- **Whatever a command does to a table, it reports.** -/
theorem WellFormed.reports_execute (h : t.WellFormed rank) {c : PaneCommand}
    (hexecute : t.execute c = .ok (u, opened)) : t.Reports opened u := by
  cases c with
  | spawn r =>
    obtain ⟨id, hspawn, rfl⟩ := opening_eq_ok hexecute
    exact h.reports_spawn hspawn
  | destroy id cascade activate =>
    obtain ⟨⟨v, removed⟩, hdestroy, hexecute⟩ := bind_eq_ok.1 hexecute
    obtain ⟨rfl, rfl⟩ := Prod.mk.inj (Except.ok.inj hexecute)
    exact reports_destroy hdestroy
  | merge inputs keep =>
    obtain ⟨id, hmerge, rfl⟩ := opening_eq_ok hexecute
    exact h.reports_merge hmerge
  | duplicate source =>
    obtain ⟨id, hduplicate, rfl⟩ := opening_eq_ok hexecute
    exact h.reports_duplicate hduplicate
  | duplicateMany sources => exact h.reports_duplicateMany hexecute
  | activate id =>
    obtain ⟨hactivate, rfl⟩ := arranging_eq_ok hexecute
    obtain ⟨p, -, hactivate⟩ := bind_eq_ok.1 hactivate
    obtain rfl := Except.ok.inj hactivate
    exact (Tells.setActive t [] id).reports
  | arrange id f =>
    obtain ⟨harrange, rfl⟩ := arranging_eq_ok hexecute
    exact (tells_arrange harrange).reports
  | toggle id =>
    obtain ⟨htoggle, rfl⟩ := arranging_eq_ok hexecute
    exact (tells_toggle htoggle).reports
  | highlight id =>
    obtain ⟨hhighlight, rfl⟩ := arranging_eq_ok hexecute
    exact (tells_highlight hhighlight).reports
  | clear =>
    obtain ⟨rfl, rfl⟩ := Prod.mk.inj (Except.ok.inj hexecute)
    exact (tells_clear t).reports

/-! ## Runs -/

/-- A subscriber to the registry topic who has heard all that was told knows what it has to. -/
structure Followed (t : PaneTable) (number : Nat) (heard : List Event) : Prop where
  hears : t.bus.Hears number [.registry] heard
  mirrors : Mirrors (heard.foldl Registry.hear {}) t []

theorem Followed.tells {number : Nat} {heard : List Event} (h : t.Followed number heard)
    (htells : t.Tells [] added u []) :
    ∃ news, u.Followed number (heard ++ news) ∧ news.filterMap Event.added? = added := by
  obtain ⟨news, hbus, -, hadded, hmirrors⟩ := htells
  refine ⟨news.filter (Bus.asked [.registry]), ⟨?_, ?_⟩, ?_⟩
  · exact hbus ▸ h.hears.publishAll news
  · rw [List.foldl_append, Bus.foldl_filter_asked Registry.hear_of_not_asked]
    exact hmirrors _ h.mirrors
  · rw [Bus.filterMap_filter_asked Event.added?_of_not_asked, hadded]

/-- What a subscriber heard tells the panes and their spawners. -/
theorem Followed.registry_eq {number : Nat} {heard : List Event} (h : t.Followed number heard) :
    heard.foldl Registry.hear {} = t.live.mapValues Pane.spawners := by
  refine Dictionary.ext_get? fun id => (h.mirrors id).trans ?_
  rw [shown, if_neg List.not_mem_nil, Dictionary.get?_mapValues, pane?]

theorem WellFormed.tells_act (h : t.WellFormed rank) (a : Action) :
    ∃ added, t.Tells [] added (t.act a) [] := by
  cases a with
  | command c =>
    show ∃ added, t.Tells [] added (t.perform c) []
    unfold PaneTable.perform
    split
    next hexecute =>
      obtain ⟨added, htells, -⟩ := h.reports_execute hexecute
      exact ⟨added, htells⟩
    next => exact ⟨[], .refl t []⟩
  | edit id f hkin =>
    refine ⟨[], .silent rfl fun k => ?_⟩
    have hspawners : ∀ p, (f p).spawners = p.spawners := fun p =>
      congrArg (fun place => place.2.1) (hkin p)
    have hsame : ((t.modify id f).pane? k).map Pane.spawners = (t.pane? k).map Pane.spawners :=
      Dictionary.map_get?_modify hspawners t.live id k
    rw [PaneTable.act, shown, shown, hsame]

theorem WellFormed.followed_actAll (h : t.WellFormed rank) {number : Nat} {heard : List Event}
    (hfollowed : t.Followed number heard) (actions : List Action) :
    ∃ heard', (t.actAll actions).Followed number heard' := by
  induction actions generalizing t rank heard with
  | nil => exact ⟨heard, hfollowed⟩
  | cons a actions ih =>
    obtain ⟨rank', h'⟩ := h.act a
    obtain ⟨added, htells⟩ := h.tells_act a
    obtain ⟨news, hfollowed', -⟩ := hfollowed.tells htells
    exact ih h' hfollowed'

/-- **The events on the registry topic mirror the table.**  Whoever subscribed to them when the table
was new, among other subscribers, and takes note of all events heard since, knows after any commands
and changes of single panes just the live panes and the spawners of each.  And of what a further
command announces, the added panes are just those that it opens, each with the nodes that it holds. -/
theorem registry_mirrors (maxPanes brushWindow : Nat) (before after : List (List Topic))
    (actions : List Action) :
    let bus := Bus.attended (before ++ [.registry] :: after)
    let t := PaneTable.actAll { start maxPanes brushWindow with bus } actions
    let heard := (t.bus.drain before.length).2
    heard.foldl Registry.hear {} = t.live.mapValues Pane.spawners ∧
    ∀ c u opened, t.execute c = .ok (u, opened) →
      ∃ news, (u.bus.drain before.length).2 = heard ++ news ∧
        (news.filterMap Event.added?).map some =
          opened.map fun id => (u.pane? id).map fun p => (id, p.store.nodeIds) := by
  intro bus t heard
  -- Whoever has heard nothing knows the empty table, and from then on notes what the table tells.
  have hstart : ({ start maxPanes brushWindow with bus } : PaneTable).Followed before.length [] :=
    ⟨Bus.hears_attended before [.registry] after, fun _ => rfl⟩
  have hwf := wellFormed_start maxPanes brushWindow bus fun _ => 0
  obtain ⟨rank, h⟩ := hwf.actAll actions
  obtain ⟨heard', hfollowed⟩ := hwf.followed_actAll hstart actions
  have hheard : heard = heard' := hfollowed.hears.drain
  refine ⟨hheard ▸ hfollowed.registry_eq, fun c u opened hexecute => ?_⟩
  obtain ⟨added, htells, hadded⟩ := h.reports_execute hexecute
  obtain ⟨news, hfollowed', hnews⟩ := hfollowed.tells htells
  refine ⟨news, ?_, ?_⟩
  · rw [hheard, hfollowed'.hears.drain]
  · rw [hnews, hadded]
    rfl

end PaneTable

end StateAtlas
