import StateAtlas.Proofs.Session.Merges
import StateAtlas.Proofs.Session.Numbering
import StateAtlas.Proofs.Session.Reopening
/-!
Explorations that fail.

To explore nodes, a pane is opened first, which may close another one, and only then is anything
fetched for it.  If that fails the pane is not closed again: it stays the active one, spawned for
nodes that it does not know how to go on from, and because it was spawned for them, who asks to
explore these nodes once more is sent to a pane and nothing is fetched.  Only an exploration from a
pane that is not live is refused before anything is done.

Main statement: `failed_exploration`.
-/

namespace StateAtlas

open PaneTable

/-- What a pane holds, and the nodes that it was spawned for. -/
def Pane.stock (p : Pane) : Store × List NodeId := (p.store, p.spawnerNodes)

/-! ## Tables with the same cast -/

namespace PaneTable

variable {t u v : PaneTable} {id : PaneId} {p q : Pane}

/-- The tables agree in the panes that are live, their orders and their lineage, in what the panes
hold and what they were spawned for, and in the active pane. -/
structure SameCast (t u : PaneTable) : Prop extends SameLineage t u where
  active : u.active = t.active
  stock : ∀ id, (u.pane? id).map Pane.stock = (t.pane? id).map Pane.stock

namespace SameCast

theorem rfl (t : PaneTable) : t.SameCast t := ⟨.rfl t, Eq.refl _, fun _ => Eq.refl _⟩

theorem trans (h : t.SameCast u) (h' : u.SameCast v) : t.SameCast v :=
  ⟨h.toSameLineage.trans h'.toSameLineage, h'.active.trans h.active,
    fun id => (h'.stock id).trans (h.stock id)⟩

theorem publish (t : PaneTable) (e : Event) : t.SameCast (t.publish e) :=
  ⟨SameLineage.publish t e, Eq.refl _, fun _ => Eq.refl _⟩

/-- A pane may change as long as it stays in its place and keeps its stock. -/
theorem modify_live {f : Pane → Pane} (hkin : ∀ p, t.pane? id = some p → kin (f p) = kin p)
    (hstock : ∀ p, t.pane? id = some p → (f p).stock = p.stock) : t.SameCast (t.modify id f) := by
  refine ⟨SameLineage.modify_live hkin, Eq.refl _, fun k => ?_⟩
  rw [pane?_modify]
  split
  next hid =>
    rw [Option.map_map]
    exact Option.map_congr fun p hp => hstock p (hid ▸ hp)
  next => exact Eq.refl _

theorem modifyAll (t : PaneTable) {f : Pane → Pane} (hkin : ∀ p, kin (f p) = kin p)
    (hstock : ∀ p, (f p).stock = p.stock) : t.SameCast (t.modifyAll f) := by
  refine ⟨SameLineage.modifyAll t hkin, Eq.refl _, fun k => ?_⟩
  rw [pane?_modifyAll, Option.map_map]
  exact Option.map_congr fun p _ => hstock p

/-- A pane of the first table has a pane of the second in its place. -/
theorem pane?_right (h : t.SameCast u) (hp : t.pane? id = some p) :
    ∃ q, u.pane? id = some q ∧ kin q = kin p ∧ q.stock = p.stock := by
  have hkin := h.pane id
  have hstock := h.stock id
  rw [hp, Option.map_some] at hkin hstock
  obtain ⟨q, hq, heq⟩ := Option.map_eq_some_iff.1 hkin
  rw [hq, Option.map_some] at hstock
  exact ⟨q, hq, heq, Option.some.inj hstock⟩

/-- Which pane was spawned for nodes depends on the cast alone. -/
theorem explored?_eq (h : t.SameCast u) (nodes : List NodeId) :
    u.explored? nodes = t.explored? nodes := by
  -- A pane is looked up by the nodes that it was spawned for, and only its name is told.
  let sign (p : Pane) : PaneId × List NodeId := (p.id, p.spawnerNodes)
  have hsign : ∀ id, (u.pane? id).map sign = (t.pane? id).map sign := by
    intro id
    cases hp : t.pane? id with
    | none => rw [Option.map_eq_none_iff.1 ((h.pane id).trans (congrArg _ hp))]
    | some p =>
      obtain ⟨q, hq, hkin, hstock⟩ := h.pane?_right hp
      rw [hq]
      exact congrArg some (Prod.ext (congrArg Prod.fst hkin :) (congrArg Prod.snd hstock :))
  have hpanes : u.panes.map sign = t.panes.map sign := by
    rw [panes, panes, List.map_filterMap, List.map_filterMap, h.ids]
    exact List.filterMap_congr fun id _ => hsign id
  have htold : ∀ t : PaneTable, t.explored? nodes =
      ((t.panes.map sign).find? fun s => s.2.any nodes.contains).map Prod.fst := by
    intro t
    rw [List.find?_map, Option.map_map]
    exact Eq.refl _
  rw [htold, htold, hpanes]

end SameCast

/-- Who asks for nodes that a live pane was spawned for is sent to a pane. -/
theorem WellFormed.exists_explored? {rank : PaneId → Nat} (h : t.WellFormed rank)
    (hp : t.pane? id = some p) {nodes : List NodeId} (hspawned : p.spawnerNodes = nodes)
    (hne : nodes ≠ []) : ∃ named, t.explored? nodes = some named := by
  have hmem : p ∈ t.panes :=
    List.mem_filterMap.2 ⟨id, (h.rooted.linked.mem_ids id).2 (contains_of_pane? hp), hp⟩
  obtain ⟨n, hn⟩ := List.exists_mem_of_ne_nil nodes hne
  have hany : p.spawnerNodes.any nodes.contains = true :=
    List.any_eq_true.2 ⟨n, hspawned ▸ hn, List.contains_iff_mem.2 hn⟩
  have hfound : (t.panes.find? fun p => p.spawnerNodes.any nodes.contains).isSome = true :=
    List.find?_isSome.2 ⟨p, hmem, hany⟩
  obtain ⟨q, hq⟩ := Option.isSome_iff_exists.1 hfound
  exact ⟨q.id, congrArg (Option.map Pane.id) hq⟩

/-! ### Opening a pane -/

/-- The pane that is opened is the one that was asked for, and becomes the active pane. -/
theorem opened_openPane (t : PaneTable) (r : SpawnRequest) :
    (t.openPane r).1.active = some (t.openPane r).2 ∧
      ∃ p, (t.openPane r).1.pane? (t.openPane r).2 = some p ∧ p.spawners = r.spawner.toList ∧
        p.stock = (.ofFragment r.seed, r.spawnerNodes) := by
  have hput : ((t.openPane r).1.pane? (t.openPane r).2).map (fun p => (p.spawners, p.stock)) =
      some (r.spawner.toList, .ofFragment r.seed, r.spawnerNodes) := by
    rw [pane?_openPane, openPane_eq]
    exact (map_pane?_place (fun _ _ => rfl) _ _ r.spawner r.insert _).trans (if_pos rfl)
  obtain ⟨p, hp, heq⟩ := Option.map_eq_some_iff.1 hput
  obtain ⟨hspawners, hstock⟩ := Prod.mk.inj heq
  exact ⟨by rw [openPane_eq, setActive_eq], p, hp, hspawners, hstock⟩

end PaneTable

/-! ## Sessions -/

namespace Session

variable {s s' : Session} {pane id : PaneId} {p q source : Pane} {σ : Type}
  {backend : Backend (StateM σ)}

/-! ### What leaves the cast alone -/

theorem sameCast_publishBrush (s : Session) (id : PaneId) :
    s.table.SameCast (s.publishBrush id).table := by
  unfold Session.publishBrush
  split
  next p hp =>
    refine (SameCast.publish _ _).trans (SameCast.modify_live (fun q _ => ?_) fun q _ => ?_)
    all_goals split
    · exact q.kin_select _
    · rfl
    · simp only [Pane.select]
      split <;> rfl
    · rfl
  next => exact .rfl _

theorem sameCast_recomputeWatched (s : Session) : s.table.SameCast s.recomputeWatched.table := by
  unfold Session.recomputeWatched
  split
  · exact .rfl _
  · let r := Recurrence.detectAmong s.holdings s.watched
    have hshown : s.table.SameCast
        (s.modifyAll fun p => { p with recurring := r.forPane p.id }).table :=
      SameCast.modifyAll _ (fun _ => rfl) fun _ => rfl
    exact hshown.trans (.publish _ _)

theorem sameCast_afterGrowth (s : Session) (id : PaneId) (added : List NodeId) :
    s.table.SameCast (s.afterGrowth id added).table := by
  have hderived : s.table.SameCast (s.modify id (s.derived added)).table := by
    refine SameCast.modify_live (fun p _ => s.kin_derived added p) fun p _ => ?_
    exact congrArg (fun c => (c.1, c.2.2.1)) (s.contents_derived added p)
  exact (hderived.trans (sameCast_publishBrush _ id)).trans (sameCast_recomputeWatched _)

/-- A pane that changes in what `Pane.still` leaves out only. -/
theorem sameCast_of_still_eq (hp : s.table.pane? pane = some p) (hstill : q.still = p.still) :
    s.table.SameCast (s.modify pane fun _ => q).table := by
  refine SameCast.modify_live (fun p' hp' => ?_) fun p' hp' => ?_
  all_goals obtain rfl : p = p' := Option.some.inj (hp.symm.trans hp')
  · exact (congrArg kin hstill :)
  · exact (congrArg Pane.stock hstill :)

/-- Unless something is merged, the end of an expansion leaves the cast alone. -/
theorem sameCast_finish {t : Ticket} {fetched : Except ExploreError Fragment}
    (hfinish : ∀ delta, (s.finish t fetched).2 ≠ .ok (.merged delta)) :
    s.table.SameCast (s.finish t fetched).1.table := by
  cases hget : s.get t.pane with
  | error e =>
    simp only [Session.finish, hget]
    exact .rfl _
  | ok p =>
    cases fetched with
    | error e =>
      simp only [Session.finish, hget]
      refine SameCast.trans (SameCast.modify_live (fun p _ => p.kin_endExpansion) fun p _ => ?_)
        (.publish _ _)
      exact (congrArg Pane.stock p.still_endExpansion :)
    | ok g =>
      rcases p.store.commit_cases t.planned g (some (p.capacity s.options.paneNodeCeiling)) with
        ⟨pending, hcommit, -⟩ | hcommit
      · simp only [Session.finish, hget, mergeInto, hcommit]
        exact sameCast_of_still_eq (get_eq_ok.1 hget) p.still_endExpansion
      · simp only [Session.finish, hget, mergeInto, hcommit] at hfinish
        exact absurd rfl (hfinish _)

theorem sameCast_expand (hs : s.Sound) (frontier : List NodeId) :
    Always (fun r => (∀ delta, r.2 ≠ .ok (.merged delta)) → s.table.SameCast r.1.table)
      (s.expand backend pane frontier) := by
  unfold Session.expand
  split
  next => exact always_pure fun _ => .rfl _
  next s' t hbegin =>
    obtain ⟨-, p, q, number, hp, hstill, rfl⟩ := hs.beginExpansion_eq_ok hbegin
    have hlent : s.table.SameCast { s.table.modify pane (fun _ => q) with nextLease := number } :=
      (sameCast_of_still_eq hp hstill).trans ⟨⟨rfl, rfl, rfl, fun _ => rfl⟩, rfl, fun _ => rfl⟩
    exact fun env hmerged => hlent.trans (sameCast_finish hmerged)

/-! ### Failing -/

/-- An exploration that fails is refused at once, or a pane was opened for it, and stays. -/
theorem sameCast_explore (hs : s.Sound) (nodes : List NodeId) (force : Bool) :
    Always (fun r => ∀ e, r.2 = .error e →
      (s.table.pane? pane = none ∧ r.1 = s) ∨
      ∃ source, s.table.pane? pane = some source ∧
        (s.spawnFor source nodes).1.table.SameCast r.1.table)
      (s.explore backend pane nodes force) := by
  unfold Session.explore
  split
  next => exact always_pure nofun
  next =>
    split
    next e hget =>
      refine always_pure fun _ _ => .inl ⟨?_, rfl⟩
      refine Option.eq_none_iff_forall_ne_some.2 fun p hp => ?_
      rw [get_eq_ok.2 hp] at hget
      nomatch hget
    next source hget =>
      have hp := get_eq_ok.1 hget
      have hopened := hs.spawnFor hp nodes
      have hderived :=
        (s.spawnFor source nodes).1.sameCast_afterGrowth (s.spawnFor source nodes).2 []
      refine (sameCast_expand (hopened.settle _) nodes).bind fun r hexpanded => ?_
      obtain ⟨s', outcome⟩ := r
      dsimp only
      split
      next => exact always_pure fun _ _ => .inr ⟨source, hp, hderived.trans (hexpanded nofun)⟩
      next => exact always_pure nofun
      next =>
        split
        next => exact always_pure fun _ _ => .inr ⟨source, hp, hderived.trans (hexpanded nofun)⟩
        next => exact always_pure nofun

/-- Nothing shows that nodes were to be explored: the tables have the same cast, and no pane is
named for the nodes that was not named before. -/
structure Traceless (nodes : List NodeId) (s s' : Session) : Prop where
  sameCast : s.table.SameCast s'.table
  named : ∀ id, s'.table.explored? nodes = some id → s.table.explored? nodes = some id

/-- What is left of an exploration of nodes: a new pane, which is the active one and was spawned for
these nodes, and holds of them what the pane holds that it was spawned from.  Who asks to explore
the nodes again is sent to a pane, and nothing is fetched. -/
structure Leftover (s : Session) (source : Pane) (nodes : List NodeId) (s' : Session)
    (id : PaneId) : Prop where
  new : ¬s.table.contains id = true
  active : s'.table.active = some id
  spawned : ∃ p, s'.table.pane? id = some p ∧ p.spawners = [source.id] ∧ p.spawnerNodes = nodes ∧
    p.store = .ofFragment (seedOf source nodes)
  named : nodes ≠ [] → ∃ named, ∀ {τ : Type} (backend : Backend (StateM τ)) (env : τ) pane,
    s'.explore backend pane nodes false env = ((s', .ok (.already named)), env)

theorem Leftover.not_traceless {nodes : List NodeId} (h : s.Leftover source nodes s' id) :
    ¬Traceless nodes s s' := by
  intro htraceless
  obtain ⟨p, hp, -⟩ := h.spawned
  exact h.new ((htraceless.sameCast.contains id).symm.trans (contains_of_pane? hp))

/-- A pane that was opened to explore nodes and stays is left of the exploration. -/
theorem leftover_of_sameCast (hs : s.Sound) (hnumbered : s.Numbered)
    (hp : s.table.pane? pane = some source) {nodes : List NodeId}
    (hcast : (s.spawnFor source nodes).1.table.SameCast s'.table) :
    s.Leftover source nodes s' (s.spawnFor source nodes).2 := by
  obtain ⟨rank, hwf⟩ := hs.wellFormed
  obtain ⟨root, hprimary⟩ :=
    Option.ne_none_iff_exists'.1 (hwf.rooted.primary_ne_none (contains_of_pane? hp))
  let r := (SpawnRequest.seeded (seedOf source nodes) source.view).fromPane source.id nodes
  obtain ⟨hactive, q, hq, hspawners, hstock⟩ := s.table.opened_openPane r
  obtain ⟨hstore, hspawned⟩ := Prod.mk.inj hstock
  constructor
  case new => exact hnumbered.not_live_openPane hprimary r
  case active => exact hcast.active.trans hactive
  case spawned =>
    obtain ⟨p, hp', hkin, hstock'⟩ := hcast.pane?_right hq
    obtain ⟨hstore', hspawned'⟩ := Prod.mk.inj (hstock'.trans hstock)
    exact ⟨p, hp', (congrArg (fun k => k.2.1) hkin :).trans hspawners, hspawned', hstore'⟩
  case named =>
    intro hne
    obtain ⟨rank', hspawnedFor⟩ := (hs.spawnFor hp nodes).wellFormed
    have hfound : ∃ named, (s.spawnFor source nodes).1.table.explored? nodes = some named :=
      hspawnedFor.exists_explored? hq hspawned hne
    obtain ⟨named, hnamed⟩ := hfound
    rw [← hcast.explored?_eq] at hnamed
    refine ⟨named, fun {τ} backend env pane => ?_⟩
    simp only [Session.explore, Bool.false_eq_true, if_false, hnamed]
    rfl

/-! ### Exploring without an answer -/

/-- A backend that tells where to start from, and can be asked no more. -/
def unreachable : Backend (StateM Unit) :=
  { Backend.constant deadlock with outgoing := fun _ => return .error (.network "unreachable") }

/-- A session with its first pane. -/
def justStarted : Session :=
  ((vacant ({} : Config).options {}).serveAll unreachable [.session .start] ()).1

/-- What an exploration of the only state comes to. -/
def explorationFailed : Session × Except SessionError Explored :=
  (justStarted.explore unreachable original [⟨"s0"⟩] false ()).1

end Session

open Session

/-- **A failed exploration leaves a pane behind.**  Whatever was asked of a session, and past it of
its table and its panes: if an exploration of nodes fails, it leaves no trace if and only if the
pane that it was to start from is not live.  Otherwise a pane that was opened for it is left, the
active one, and for these nodes, if there are any, a pane is named from then on. -/
theorem failed_exploration {σ : Type} (backend : Backend (StateM σ)) (env : σ)
    (options : SessionOptions) (bus : Bus) (requests : List Request) :
    let s := ((Session.vacant options bus).serveAll backend requests env).1
    ∀ (env' : σ) (pane : PaneId) (nodes : List NodeId) (force : Bool) (e : SessionError),
      let r := (s.explore backend pane nodes force env').1
      r.2 = .error e →
      (Traceless nodes s r.1 ↔ s.table.pane? pane = none) ∧
      ∀ source, s.table.pane? pane = some source → ∃ id, s.Leftover source nodes r.1 id := by
  intro s env' pane nodes force e r he
  have hs : s.Sound := (sound_vacant options bus).serveAll requests env
  have hnumbered : s.Numbered :=
    (numbered_vacant options bus).serveAll (sound_vacant options bus) requests env
  -- An exploration that fails gives up at once, or only in the pane that it opened.
  rcases sameCast_explore hs nodes force env' e he with ⟨hdead, hsame⟩ | ⟨source, hp, hcast⟩
  · refine ⟨⟨fun _ => hdead, fun _ => ?_⟩, fun source hp => ?_⟩
    · have htraceless : Traceless nodes s s := ⟨.rfl _, fun _ hnamed => hnamed⟩
      exact hsame.symm ▸ htraceless
    · exact absurd (hp.symm.trans hdead) (Option.some_ne_none source)
  · have hleft := leftover_of_sameCast hs hnumbered hp hcast
    refine ⟨⟨fun htraceless => absurd htraceless hleft.not_traceless, fun hdead => ?_⟩, ?_⟩
    · exact absurd (hp.symm.trans hdead) (Option.some_ne_none source)
    · intro source' hp'
      obtain rfl := Option.some.inj (hp.symm.trans hp')
      exact ⟨_, hleft⟩

theorem failed_exploration_justStarted :
    ∃ e, explorationFailed.2 = .error e ∧ ¬Traceless [⟨"s0"⟩] justStarted explorationFailed.1 := by
  have hlive : justStarted.table.contains original = true := by decide +kernel
  obtain ⟨p, hp⟩ := exists_pane?_iff.1 hlive
  cases hfailed : explorationFailed.2 with
  | error e =>
    refine ⟨e, rfl, fun htraceless => ?_⟩
    have hdead := (failed_exploration unreachable () ({} : Config).options {} [.session .start] ()
      original [⟨"s0"⟩] false e hfailed).1.1 htraceless
    exact absurd (hp.symm.trans hdead) (Option.some_ne_none p)
  | ok explored =>
    have hnot : explorationFailed.2.isOk = false := by decide +kernel
    rw [hfailed] at hnot
    nomatch hnot

/-- Nothing could be fetched, but there is a second pane, which is the active one, and who asks
again is sent to it. -/
theorem exploration_leaves_pane :
    explorationFailed.2.isOk = false ∧
      justStarted.table.ids = [original] ∧ explorationFailed.1.table.ids = [original, ⟨"pane-1"⟩] ∧
      justStarted.table.active = some original ∧
      explorationFailed.1.table.active = some ⟨"pane-1"⟩ ∧
      justStarted.table.explored? [⟨"s0"⟩] = none ∧
      explorationFailed.1.table.explored? [⟨"s0"⟩] = some ⟨"pane-1"⟩ := by
  decide +kernel

end StateAtlas
