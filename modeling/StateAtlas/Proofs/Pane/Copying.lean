import Mathlib.Data.List.Induction
import StateAtlas.Proofs.Pane.Reaching
import StateAtlas.Proofs.Pane.Relinking
/-!
What becomes of a well-formed table when panes are copied.

Of panes that are copied together each may be the last that fits, so that others are evicted while
the copies are made; sources and copies are never among these.  A copy ranks with its source, and nobody
is spawned from a copy until all copies are made and are relinked.
-/

namespace StateAtlas.PaneTable

variable {t u : PaneTable} {rank : PaneId → Nat}

/-! ## One copy -/

theorem admits_copyOf (h : u.Linked rank) {source id : PaneId} {p : Pane}
    (hp : u.pane? source = some p) (hid : ¬u.contains id = true) : u.Admits (u.copyOf id p) where
  name_free := hid
  spawners_live s hs := h.live_of_spawns ⟨p, hp, hs⟩
  nodup_spawners := by
    have hnodup : p.spawners.Nodup := h.nodup_spawners hp
    exact hnodup
  spawned_none := rfl

/-- A copy is put into the table in which room was made, after its name was taken. -/
theorem WellFormed.copy_eq_ok (h : t.WellFormed rank) {source id : PaneId}
    {protected_ : List PaneId} (hcopy : t.copy source protected_ = .ok (u, id)) :
    ∃ naming p, let v := { t.makeRoom protected_ with naming }
      v.pane? source = some p ∧ v.Admits (v.copyOf id p) ∧
        u = v.place (v.copyOf id p) (some source) p.view.insertPolicy := by
  obtain ⟨p, hp, hcopy⟩ := bind_eq_ok.1 hcopy
  obtain ⟨rfl, rfl⟩ := Prod.mk.inj (Except.ok.inj hcopy)
  let named := (t.makeRoom protected_).naming.duplicate source
  let v : PaneTable := { t.makeRoom protected_ with naming := named.1 }
  have hv : v.Linked rank :=
    (h.makeRoom protected_).1.rooted.linked.of_sameLineage ⟨rfl, rfl, rfl, fun _ => rfl⟩
  have hsource : v.pane? source = some p := get_eq_ok.1 hp
  exact ⟨named.1, p, hsource, admits_copyOf hv hsource (freshName_not_live v named.2), rfl⟩

/-- A live pane can be copied as long as it is not evicted for its copy. -/
theorem WellFormed.exists_copy (h : t.WellFormed rank) {source : PaneId} {protected_ : List PaneId}
    (hlive : t.contains source = true) (hprotected : source ∈ protected_) :
    ∃ u id, t.copy source protected_ = .ok (u, id) := by
  obtain ⟨-, hspared⟩ := h.makeRoom protected_
  obtain ⟨p, hp⟩ := exists_pane?_iff.1 (hspared.protected_live source hprotected hlive)
  exact ⟨_, _, bind_eq_ok.2 ⟨p, get_eq_ok.2 hp, rfl⟩⟩

/-- A copy is put into a table with room, and takes over the spawners that its source has there. -/
theorem WellFormed.copy (h : t.WellFormed rank) {source id : PaneId} {protected_ : List PaneId}
    (hcopy : t.copy source protected_ = .ok (u, id)) :
    ∃ v p q insert, v.WellFormed rank ∧ Spared protected_ t v ∧ t.Evolves [] v ∧
      v.pane? source = some p ∧ v.Admits q ∧ Untouched q ∧ q.id = id ∧ q.spawners = p.spawners ∧
      u = v.place q (some source) insert := by
  obtain ⟨naming, p, hp, hadmits, rfl⟩ := h.copy_eq_ok hcopy
  obtain ⟨hroom, hspared⟩ := h.makeRoom protected_
  let v : PaneTable := { t.makeRoom protected_ with naming }
  have hv : v.WellFormed rank :=
    hroom.of_sameLineage ⟨rfl, rfl, rfl, fun _ => rfl⟩ hroom.active_live
  refine ⟨v, p, v.copyOf id p, p.view.insertPolicy, hv, ?_, ?_, hp, hadmits,
    untouched_copyOf _ _ _, rfl, rfl, rfl⟩
  · exact ⟨hspared.primary, hspared.protected_live, hspared.spawns⟩
  · exact ((Evolves.refl t).makeRoom protected_).retouch ⟨fun _ => rfl, rfl⟩

/-- A copy can have the rank of its source.  It spawned nobody, and is not protected. -/
theorem WellFormed.copied (h : t.WellFormed rank) {source id : PaneId} {protected_ : List PaneId}
    (hcopy : t.copy source protected_ = .ok (u, id)) :
    (u.WellFormed fun k => if k = id then rank source else rank k) ∧ t.Evolves [id] u ∧
      u.contains id = true ∧
      (∀ k ∈ protected_, t.contains k = true → k ≠ id ∧ u.contains k = true) ∧
      ∀ k child, u.Spawns k child → k ≠ id ∧ (t.Spawns k source ∨ t.Spawns k child) := by
  obtain ⟨v, p, q, insert, hv, hspared, hevolves, hp, hq, huntouched, rfl, hspawners, rfl⟩ :=
    h.copy hcopy
  have hcontains := contains_place hq (some source) insert
  have hspawns : ∀ k ∈ q.spawners, v.Spawns k source := fun k hk => ⟨p, hp, hspawners ▸ hk⟩
  have hprimary := hv.rooted.primary_ne_none (contains_of_pane? hp)
  refine ⟨hv.place hprimary hq _ insert fun k hk => hv.rooted.linked.rank_lt (hspawns k hk),
    hevolves.place _ insert hq huntouched, (hcontains _).2 (.inl rfl), fun k hk hlive => ?_,
    fun k child hchild => ?_⟩
  · have hlive := hspared.protected_live k hk hlive
    refine ⟨?_, (hcontains k).2 (.inr hlive)⟩
    rintro rfl
    exact hq.name_free hlive
  · have hold : v.Spawns k source ∨ v.Spawns k child := by
      rw [spawns_place hq] at hchild
      split at hchild
      · exact .inl (hspawns k hchild)
      · exact .inr hchild
    constructor
    · -- The name of the copy was not live before, so nobody was spawned from it.
      rintro rfl
      rcases hold with hold | hold
      · exact hq.name_free (hv.rooted.linked.live_of_spawns hold)
      · exact hq.name_free (hv.rooted.linked.live_of_spawns hold)
    · exact hold.imp hspared.spawns hspared.spawns

theorem WellFormed.duplicate (h : t.WellFormed rank) {source id : PaneId}
    (hduplicate : t.duplicate source = .ok (u, id)) : t.Reaches [id] u := by
  obtain ⟨_, -, hduplicate⟩ := bind_eq_ok.1 hduplicate
  obtain ⟨⟨v, id'⟩, hcopy, hduplicate⟩ := bind_eq_ok.1 hduplicate
  obtain ⟨rfl, rfl⟩ := Prod.mk.inj (Except.ok.inj hduplicate)
  obtain ⟨hwf, hevolves, hlive, -⟩ := h.copied hcopy
  exact reaches_of_live hevolves hwf hlive

/-! ## Several copies -/

/-- What holds while several panes are copied: sources and copies are live, a copy ranks with its
source, and nobody was spawned from a copy yet. -/
structure Copying (sources : List PaneId) (t u : PaneTable) (copies : List (PaneId × PaneId))
    (rank : PaneId → Nat) : Prop where
  wellFormed : u.WellFormed rank
  evolves : t.Evolves (copies.map Prod.snd) u
  copied : u.Copied rank copies
  sources_live : ∀ s ∈ sources, u.contains s = true
  fst_mem : ∀ c ∈ copies, c.1 ∈ sources
  childless : ∀ c ∈ copies, ∀ child, ¬u.Spawns c.2 child

theorem Copying.step {sources : List PaneId} {copies : List (PaneId × PaneId)} {source id : PaneId}
    {v : PaneTable} (h : Copying sources t u copies rank) (hsource : source ∈ sources)
    (hcopy : u.copy source (sources ++ copies.map Prod.snd) = .ok (v, id)) :
    Copying sources t v (copies ++ [(source, id)])
      fun k => if k = id then rank source else rank k := by
  obtain ⟨hwf, hevolves, hlive, hkept, hspawns⟩ := h.wellFormed.copied hcopy
  -- Sources and earlier copies are protected while room is made, so they stay live, and the new
  -- name is none of theirs.
  have hsources : ∀ s ∈ sources, s ≠ id ∧ v.contains s = true :=
    fun s hs => hkept s (List.mem_append_left _ hs) (h.sources_live s hs)
  have hcopies : ∀ c ∈ copies, c.2 ≠ id ∧ v.contains c.2 = true := fun c hc =>
    hkept c.2 (List.mem_append_right _ (List.mem_map_of_mem hc)) (h.copied.live c hc)
  constructor
  case wellFormed => exact hwf
  case evolves =>
    rw [List.map_append]
    exact h.evolves.trans hevolves
  case copied =>
    constructor
    case nodup =>
      rw [List.map_append, List.map_singleton]
      refine List.nodup_append.2 ⟨h.copied.nodup, by simp, ?_⟩
      intro a ha b hb
      obtain ⟨c, hc, rfl⟩ := List.mem_map.1 ha
      obtain rfl := List.mem_singleton.1 hb
      exact (hcopies c hc).1
    case live =>
      intro c hc
      rcases List.mem_append.1 hc with hc | hc
      · exact (hcopies c hc).2
      · exact List.mem_singleton.1 hc ▸ hlive
    case rank_eq =>
      intro c hc
      rcases List.mem_append.1 hc with hc | hc
      · rw [if_neg (hcopies c hc).1, if_neg (hsources _ (h.fst_mem c hc)).1]
        exact h.copied.rank_eq c hc
      · obtain rfl := List.mem_singleton.1 hc
        rw [if_pos rfl, if_neg (hsources source hsource).1]
  case sources_live => exact fun s hs => (hsources s hs).2
  case fst_mem =>
    intro c hc
    rcases List.mem_append.1 hc with hc | hc
    · exact h.fst_mem c hc
    · exact List.mem_singleton.1 hc ▸ hsource
  case childless =>
    intro c hc child hchild
    -- What the new copy is spawned from had spawned its source, so it is no copy.
    obtain ⟨hne, hold⟩ := hspawns _ _ hchild
    rcases List.mem_append.1 hc with hc | hc
    · exact hold.elim (h.childless c hc _) (h.childless c hc _)
    · exact hne (congrArg Prod.snd (List.mem_singleton.1 hc))

/-- Copies some of the sources one after the other, while all of the sources are protected. -/
def copySome (t : PaneTable) (sources chosen : List PaneId) :
    Except PaneError (PaneTable × List (PaneId × PaneId)) :=
  chosen.foldlM (fun (t, copies) source => do
    let (t, id) ← t.copy source (sources ++ copies.map Prod.snd)
    return (t, copies ++ [(source, id)])) (t, [])

theorem copyEach_eq_copySome (t : PaneTable) (sources : List PaneId) :
    t.copyEach sources = t.copySome sources sources.eraseDups := rfl

/-- Sources that come later are copied after the others. -/
theorem copySome_of_append {sources chosen later : List PaneId}
    {r : PaneTable × List (PaneId × PaneId)}
    (h : t.copySome sources (chosen ++ later) = .ok r) :
    ∃ r', t.copySome sources chosen = .ok r' := by
  rw [copySome, List.foldlM_append] at h
  obtain ⟨r', hr', -⟩ := bind_eq_ok.1 h
  exact ⟨r', hr'⟩

/-- When a further source was copied, the others had been copied before it. -/
theorem copySome_concat_eq_ok {sources chosen : List PaneId} {source : PaneId}
    {copies : List (PaneId × PaneId)} :
    t.copySome sources (chosen ++ [source]) = .ok (u, copies) ↔
      ∃ v done id, t.copySome sources chosen = .ok (v, done) ∧
        v.copy source (sources ++ done.map Prod.snd) = .ok (u, id) ∧
        copies = done ++ [(source, id)] := by
  unfold copySome
  rw [List.foldlM_append, bind_eq_ok]
  constructor
  · rintro ⟨⟨v, done⟩, hdone, hstep⟩
    rw [List.foldlM_cons] at hstep
    obtain ⟨r, hstep, hlast⟩ := bind_eq_ok.1 hstep
    obtain rfl := Except.ok.inj hlast
    obtain ⟨⟨w, id⟩, hcopy, hstep⟩ := bind_eq_ok.1 hstep
    obtain ⟨rfl, rfl⟩ := Prod.mk.inj (Except.ok.inj hstep)
    exact ⟨v, done, id, hdone, hcopy, rfl⟩
  · rintro ⟨v, done, id, hdone, hcopy, rfl⟩
    refine ⟨(v, done), hdone, ?_⟩
    rw [List.foldlM_cons, bind_eq_ok]
    exact ⟨(u, done ++ [(source, id)]), bind_eq_ok.2 ⟨(u, id), hcopy, rfl⟩, rfl⟩

theorem WellFormed.copySome (h : t.WellFormed rank) {sources chosen : List PaneId}
    {copies : List (PaneId × PaneId)} (hsources : ∀ s ∈ sources, t.contains s = true)
    (hchosen : chosen ⊆ sources) (hcopies : t.copySome sources chosen = .ok (u, copies)) :
    ∃ rank', Copying sources t u copies rank' := by
  have hstart : Copying sources t t [] rank :=
    ⟨h, Evolves.refl t, ⟨by simp, by simp, by simp⟩, hsources, by simp, by simp⟩
  -- The rank grows with the copies, so it cannot be given before they are made.
  refine foldlM_eq_ok (P := fun w => ∃ rank', Copying sources t w.1 w.2 rank') hcopies
    ⟨rank, hstart⟩ ?_
  rintro source hsource ⟨v, done⟩ ⟨w, done'⟩ ⟨rank', hdone⟩ hstep
  obtain ⟨⟨x, id⟩, hcopy, hstep⟩ := bind_eq_ok.1 hstep
  obtain ⟨rfl, rfl⟩ := Prod.mk.inj (Except.ok.inj hstep)
  exact ⟨_, hdone.step (hchosen hsource) hcopy⟩

/-- As all sources are protected, each can be copied when its turn comes. -/
theorem WellFormed.exists_copySome (h : t.WellFormed rank) {sources chosen : List PaneId}
    (hsources : ∀ s ∈ sources, t.contains s = true) (hchosen : chosen ⊆ sources) :
    ∃ u copies, t.copySome sources chosen = .ok (u, copies) := by
  induction chosen using List.reverseRecOn with
  | nil => exact ⟨t, [], rfl⟩
  | append_singleton chosen source ih =>
    obtain ⟨hchosen, hsource⟩ := List.append_subset.1 hchosen
    obtain ⟨v, done, hdone⟩ := ih hchosen
    obtain ⟨rank', hcopying⟩ := h.copySome hsources hchosen hdone
    have hmem : source ∈ sources := hsource List.mem_cons_self
    obtain ⟨u, id, hcopy⟩ := hcopying.wellFormed.exists_copy (hcopying.sources_live source hmem)
      (List.mem_append_left (done.map Prod.snd) hmem)
    exact ⟨u, _, copySome_concat_eq_ok.2 ⟨v, done, id, hdone, hcopy, rfl⟩⟩

theorem WellFormed.copyEach (h : t.WellFormed rank) {sources : List PaneId}
    {copies : List (PaneId × PaneId)} (hsources : ∀ s ∈ sources, t.contains s = true)
    (hcopies : t.copyEach sources = .ok (u, copies)) :
    ∃ rank', Copying sources t u copies rank' :=
  h.copySome hsources (fun _ hs => List.mem_eraseDups.1 hs) hcopies

/-! ## Relinking the copies -/

/-- A pane without spawners has none after a copy was relinked. -/
theorem root_relink {copies : List (PaneId × PaneId)} {id root : PaneId}
    (h : ∃ p, t.pane? root = some p ∧ p.spawners = []) :
    ∃ p, (relink copies t id).pane? root = some p ∧ p.spawners = [] := by
  obtain ⟨p, hp, hspawners⟩ := h
  by_cases hroot : root = id
  · subst hroot
    have hrespawned : respawned copies p.spawners = [] := by rw [hspawners]; rfl
    refine ⟨{ p with spawners := respawned copies p.spawners }, ?_, hrespawned⟩
    rw [pane?_relink hp (by simp [hspawners]) (by simp [hspawners]) (by simp [hrespawned])
      (by simp [hrespawned]), if_pos rfl]
  · obtain ⟨q, hq⟩ := exists_pane?_iff.1 ((contains_relink copies t id root).trans
      (contains_of_pane? hp))
    refine ⟨q, hq, List.eq_nil_iff_forall_not_mem.2 fun s hs => ?_⟩
    obtain ⟨p', hp', hmem⟩ := (spawns_relink_of_ne hroot s).1 ⟨q, hq, hs⟩
    rw [hp] at hp'
    obtain rfl := Option.some.inj hp'
    rw [hspawners] at hmem
    exact absurd hmem List.not_mem_nil

theorem WellFormed.relink (h : t.WellFormed rank) {copies : List (PaneId × PaneId)}
    (hcopied : t.Copied rank copies) {id : PaneId}
    (hold : ∀ s, t.Spawns s id → s ∉ copies.map Prod.snd) :
    (PaneTable.relink copies t id).WellFormed rank := by
  constructor
  case rooted =>
    constructor
    case linked => exact h.rooted.linked.relink hcopied hold
    case empty_of_primary_none =>
      intro hnone k
      rw [relink_eq] at hnone
      have hk := contains_relink copies t id k
      rw [contains, Dictionary.contains, ← pane?, contains, Dictionary.contains, ← pane?,
        h.rooted.empty_of_primary_none hnone] at hk
      exact Option.not_isSome_iff_eq_none.1 (by simp [hk])
    case primary_root =>
      intro root hroot
      rw [relink_eq] at hroot
      exact root_relink (h.rooted.primary_root root hroot)
  case active_live =>
    intro k hk
    rw [relink_eq] at hk
    rw [contains_relink]
    exact h.active_live k hk

/-- Copies are relinked one after the other; those that wait are not spawned from copies. -/
theorem WellFormed.relinkMany (h : t.WellFormed rank) {copies : List (PaneId × PaneId)}
    (hcopied : t.Copied rank copies) {waiting : List PaneId} (hnodup : waiting.Nodup)
    (hold : ∀ id ∈ waiting, ∀ s, t.Spawns s id → s ∉ copies.map Prod.snd) :
    (waiting.foldl (PaneTable.relink copies) t).WellFormed rank := by
  induction waiting generalizing t with
  | nil => exact h
  | cons id waiting ih =>
    obtain ⟨hnot, hnodup⟩ := List.nodup_cons.1 hnodup
    obtain ⟨hid, hwaiting⟩ := List.forall_mem_cons.1 hold
    -- Relinking one copy leaves alone the spawners of those that wait.
    refine ih (h.relink hcopied hid) ⟨hcopied.nodup, fun c hc => ?_, hcopied.rank_eq⟩ hnodup ?_
    · rw [contains_relink]
      exact hcopied.live c hc
    · intro other hother s hs
      rw [spawns_relink_of_ne (ne_of_mem_of_not_mem hother hnot)] at hs
      exact hwaiting other hother s hs

/-- The table once copies that were made are relinked and announced. -/
def withCopies (t : PaneTable) (copies : List (PaneId × PaneId)) : PaneTable :=
  let ids := copies.map Prod.snd
  let u := ids.foldl announce (ids.foldl (PaneTable.relink copies) t)
  match ids.getLast? with
  | some id => u.setActive id
  | none => u

theorem foldl_relink_eq (copies : List (PaneId × PaneId)) (ids : List PaneId) (t : PaneTable) :
    ids.foldl (PaneTable.relink copies) t =
      { t with live := (ids.foldl (PaneTable.relink copies) t).live } :=
  List.foldlRecOn (motive := fun u : PaneTable => u = { t with live := u.live }) ids _ rfl
    fun u hu id _ => by
      rw [relink_eq, hu]

theorem foldl_announce_eq (ids : List PaneId) (t : PaneTable) :
    ids.foldl announce t = { t with bus := (ids.foldl announce t).bus } :=
  List.foldlRecOn (motive := fun u : PaneTable => u = { t with bus := u.bus }) ids _ rfl
    fun u hu id _ => by
      rw [hu]
      unfold announce
      split <;> rfl

/-- What relinking and announcing copies changes: the links of panes, which pane is active, and the
bus. -/
theorem withCopies_eq (t : PaneTable) (copies : List (PaneId × PaneId)) :
    t.withCopies copies = { t with
      live := ((copies.map Prod.snd).foldl (relink copies) t).live
      active := (copies.map Prod.snd).getLast?.or t.active
      bus := (t.withCopies copies).bus } := by
  unfold withCopies
  dsimp only
  generalize copies.map Prod.snd = ids
  have hshown : ids.foldl announce (ids.foldl (relink copies) t) = { t with
      live := (ids.foldl (relink copies) t).live
      bus := (ids.foldl announce (ids.foldl (relink copies) t)).bus } := by
    rw [foldl_announce_eq, foldl_relink_eq]
  cases ids.getLast? with
  | none => exact hshown
  | some last =>
    dsimp only
    rw [setActive_eq, hshown]
    rfl

/-- What copying several panes comes to: all are copied, then all copies are relinked and
announced. -/
theorem duplicateMany_eq_ok {sources opened : List PaneId}
    (hduplicate : t.duplicateMany sources = .ok (u, opened)) :
    (∀ s ∈ sources, t.contains s = true) ∧ ∃ v copies, t.copyEach sources = .ok (v, copies) ∧
      opened = copies.map Prod.snd ∧ u = v.withCopies copies := by
  obtain ⟨panes, hpanes, hduplicate⟩ := bind_eq_ok.1 hduplicate
  obtain ⟨⟨v, copies⟩, hcopies, hduplicate⟩ := bind_eq_ok.1 hduplicate
  obtain ⟨rfl, rfl⟩ := Prod.mk.inj (Except.ok.inj hduplicate)
  refine ⟨fun s hs => ?_, v, copies, hcopies, rfl, rfl⟩
  obtain ⟨p, -, hp⟩ := (mapM_eq_ok hpanes).1 s hs
  exact contains_of_pane? (get_eq_ok.1 hp)

/-- Live panes can always be copied together. -/
theorem WellFormed.exists_duplicateMany (h : t.WellFormed rank) {sources : List PaneId}
    (hsources : ∀ s ∈ sources, t.contains s = true) :
    ∃ v copies, t.copyEach sources = .ok (v, copies) ∧
      t.duplicateMany sources = .ok (v.withCopies copies, copies.map Prod.snd) := by
  obtain ⟨v, copies, hcopies⟩ :=
    h.exists_copySome hsources fun _ hs => List.mem_eraseDups.1 hs
  obtain ⟨panes, hpanes⟩ := exists_mapM_eq_ok_iff.2 fun s hs => by
    obtain ⟨p, hp⟩ := exists_pane?_iff.1 (hsources s hs)
    exact ⟨p, get_eq_ok.2 hp⟩
  exact ⟨v, copies, hcopies, bind_eq_ok.2 ⟨panes, hpanes, bind_eq_ok.2 ⟨(v, copies), hcopies, rfl⟩⟩⟩

/-- Relinking and announcing copies leaves alone what panes work on. -/
theorem SameWork.withCopies (t : PaneTable) (copies : List (PaneId × PaneId)) :
    t.SameWork (t.withCopies copies) := by
  have hshown := (SameWork.foldl (SameWork.relink copies) t (copies.map Prod.snd)).trans
    (SameWork.foldl SameWork.announce _ (copies.map Prod.snd))
  unfold PaneTable.withCopies
  dsimp only
  split
  · exact hshown.trans (SameWork.setActive _ _)
  · exact hshown

/-- Whatever is done with the copies afterwards, they are live. -/
theorem Copying.contains_withCopies {sources : List PaneId} {copies : List (PaneId × PaneId)}
    (h : Copying sources t u copies rank) {id : PaneId} (hid : id ∈ copies.map Prod.snd) :
    (u.withCopies copies).contains id = true := by
  obtain ⟨c, hc, rfl⟩ := List.mem_map.1 hid
  rw [(SameWork.withCopies u copies).contains]
  exact h.copied.live c hc

theorem Copying.wellFormed_relinked {sources : List PaneId} {copies : List (PaneId × PaneId)}
    (h : Copying sources t u copies rank) :
    ((copies.map Prod.snd).foldl (PaneTable.relink copies) u).WellFormed rank := by
  refine h.wellFormed.relinkMany h.copied h.copied.nodup fun id _ s hs hmem => ?_
  obtain ⟨c, hc, rfl⟩ := List.mem_map.1 hmem
  exact h.childless c hc id hs

theorem WellFormed.duplicateMany (h : t.WellFormed rank) {sources opened : List PaneId}
    (hduplicate : t.duplicateMany sources = .ok (u, opened)) : t.Reaches opened u := by
  obtain ⟨hsources, v, copies, hcopies, rfl, rfl⟩ := duplicateMany_eq_ok hduplicate
  obtain ⟨rank', hcopying⟩ := h.copyEach hsources hcopies
  have hlive : ∀ id ∈ copies.map Prod.snd, (v.withCopies copies).contains id = true :=
    fun _ hid => hcopying.contains_withCopies hid
  have hrelinked : t.Reaches (copies.map Prod.snd)
      ((copies.map Prod.snd).foldl (PaneTable.relink copies) v) :=
    ⟨⟨rank', hcopying.wellFormed_relinked⟩,
      hcopying.evolves.retouch (SameWork.foldl (SameWork.relink copies) v _)⟩
  have hannounced := Reaches.foldl Reaches.announce hrelinked (copies.map Prod.snd)
  unfold PaneTable.withCopies at hlive ⊢
  dsimp only at hlive ⊢
  split
  next id hlast =>
    refine hannounced.setActive ?_
    have hid := hlive id (List.mem_of_getLast? hlast)
    rwa [hlast, (SameLineage.setActive _ id).contains] at hid
  next => exact hannounced

/-- Where nothing was copied, no room was made either. -/
theorem duplicateMany_nil {sources : List PaneId} (hduplicate : t.duplicateMany sources = .ok (u, [])) :
    u = t := by
  obtain ⟨-, v, copies, hcopies, hnone, rfl⟩ := duplicateMany_eq_ok hduplicate
  obtain rfl := List.map_eq_nil_iff.1 hnone.symm
  -- Each copy that is made is listed.
  refine foldlM_eq_ok (P := fun w => w.2 = [] → w.1 = t) hcopies (fun _ => rfl) ?_ rfl
  rintro source - ⟨w, done⟩ ⟨w', done'⟩ - hstep hnil
  obtain ⟨⟨x, new⟩, -, hstep⟩ := bind_eq_ok.1 hstep
  obtain ⟨rfl, rfl⟩ := Prod.mk.inj (Except.ok.inj hstep)
  simp at hnil

end StateAtlas.PaneTable
