import StateAtlas.Proofs.Pane.Merging
import StateAtlas.Proofs.Session.DecoratedRuns
import StateAtlas.Proofs.Session.Exploring
import StateAtlas.Proofs.Session.Separation
import StateAtlas.Proofs.Session.Setbacks
/-!
Expansions that are redirected.

What was held back on a pane can be merged into a pane that is opened for it.  This pane begins with the
copies that the first one holds of the nodes that were planned, and room is made for it; only then the
rest is merged, whatever the ceiling, and all that depends on what the pane holds is derived from the
whole.  The first pane is not evicted, as the new one is spawned from it, and nothing else is done to it.

The nodes that were planned are expanded in the new pane if it holds them, and it holds those of them
that the first pane holds.  These are all of them if the first pane planned them itself and has stayed
live since, because a pane that stays live loses no node.

Main statement: `redirect_loses_nothing`.
-/

namespace StateAtlas

open PaneTable

/-! ## Panes that stay live -/

namespace Pane

variable {p q : Pane} {k : CommandKind} {n : NodeId}

/-- The second pane is what became of the first one, which stayed live. -/
abbrev Lasts : Pane → Pane → Prop := Relation.ReflTransGen fun p q => ∃ k, Deed k p q

theorem Course.lasts (h : Course k p q) : Lasts p q :=
  Relation.ReflTransGen.mono (fun _ _ hdeed => ⟨k, hdeed⟩) _ _ h

/-- Whatever is done to a pane, it loses no node. -/
theorem Deed.mem_nodeIds (h : Deed k p q) (hn : n ∈ p.store.nodeIds) : n ∈ q.store.nodeIds := by
  cases h with
  | tend _ hstore => exact hstore n hn
  | follow ids => simp only [Pane.select]; split <;> exact hn
  | select ids => simp only [Pane.select]; split <;> exact hn
  | undo hq =>
    obtain ⟨_, -, rfl⟩ := Option.map_eq_some_iff.1 hq
    exact hn
  | redo hq =>
    obtain ⟨_, -, rfl⟩ := Option.map_eq_some_iff.1 hq
    exact hn
  | adjust f => exact hn

theorem Lasts.mem_nodeIds (h : Lasts p q) (hn : n ∈ p.store.nodeIds) : n ∈ q.store.nodeIds := by
  induction h with
  | refl => exact hn
  | tail _ hdeed ih =>
    obtain ⟨k, hdeed⟩ := hdeed
    exact hdeed.mem_nodeIds ih

end Pane

/-! ## Opening a pane from another -/

namespace PaneTable

variable {t : PaneTable} {rank : PaneId → Nat} {id : PaneId} {p : Pane} {r : SpawnRequest}

/-- **A pane that another one is spawned from stays live** and takes note of that, and otherwise changes
at most in what it was spawned from. -/
theorem WellFormed.spawner_openPane (h : t.WellFormed rank) (hp : t.pane? id = some p)
    (hr : r.spawner = some id) :
    ∃ q, (t.openPane r).1.pane? id = some q ∧ bare q = bare p ∧
      q.spawned.contains (t.openPane r).2 = true := by
  have hlive : ∀ s ∈ r.spawner, t.contains s = true := by
    intro s hs
    obtain rfl : id = s := Option.some.inj (hr.symm.trans hs)
    exact contains_of_pane? hp
  obtain ⟨-, hspared, -, hadmits⟩ := h.named hlive
  obtain ⟨naming, hnamed⟩ := h.named_fst r
  have hspawner : id ∈ r.spawner.toList := Option.mem_toList.2 hr
  obtain ⟨q, hq⟩ := exists_pane?_iff.1 (hspared.protected_live id hspawner (hlive id hr))
  have hroom : (t.makeRoom r.spawner.toList).pane? id = some q := by
    rw [hnamed] at hq
    exact hq
  obtain ⟨p', hp', hbare⟩ := bare_of_pane?_makeRoom hroom
  obtain rfl : p = p' := Option.some.inj (hp.symm.trans hp')
  have hne : id ≠ (t.named r).2 := fun heq => hadmits.notMem_spawners (heq ▸ hspawner :)
  refine ⟨spawning (t.named r).2 q, ?_, hbare, (OrderedSet.contains_insert ..).2 (.inl ?_)⟩
  · rw [pane?_openPane, pane?_place _ r.spawner r.insert hadmits.nodup_spawners
      hadmits.notMem_spawners]
    change (if id = (t.named r).2 then _ else if id ∈ r.spawner.toList then _ else _) = _
    rw [if_neg hne, if_pos hspawner, hq]
    rfl
  · rw [openPane_eq]

end PaneTable

/-! ## Sessions -/

namespace Session

variable {s s' : Session} {pane new : PaneId} {p q : Pane} {pending : Pending} {t : Ticket}

/-! ### Seeds -/

/-- Of the nodes that are named, a pane gives the copies that it holds. -/
theorem node?_seedOf (p : Pane) {ids : List NodeId} {id : NodeId} (hid : id ∈ ids) :
    (Store.ofFragment (seedOf p ids)).node? id = p.store.node? id := by
  have hempty : Store.empty.node? id = none := rfl
  rw [Store.ofFragment, Store.node?_add, hempty, Option.none_or, seedOf]
  cases hheld : p.store.node? id with
  | none =>
    refine List.find?_eq_none.2 fun n hn => ?_
    obtain ⟨id', -, hn⟩ := List.mem_filterMap.1 hn
    have hne : n.id ≠ id := by
      rintro rfl
      rw [Store.id_of_node? hn, hn] at hheld
      nomatch hheld
    simpa using hne
  | some n =>
    have hmem : n ∈ ids.filterMap p.store.node? := List.mem_filterMap.2 ⟨id, hid, hheld⟩
    cases hfound : (ids.filterMap p.store.node?).find? fun n => n.id = id with
    | none =>
      have hne := List.find?_eq_none.1 hfound n hmem
      exact absurd (decide_eq_true (Store.id_of_node? hheld)) hne
    | some m =>
      -- Whatever is found is a copy of that node, and the pane has one.
      obtain ⟨id', -, hm⟩ := List.mem_filterMap.1 (List.mem_of_find?_eq_some hfound)
      have hname : m.id = id := by simpa using List.find?_some hfound
      rw [← hname, Store.id_of_node? hm, hm] at hheld
      exact hheld

theorem edges_seedOf (p : Pane) (ids : List NodeId) :
    (Store.ofFragment (seedOf p ids)).edges = [] := by
  rw [Store.ofFragment, Store.add_eq_foldl, seedOf, List.foldl_nil, Store.edges_foldl_insertNode]
  rfl

/-! ### What is redirected -/

/-- What a pane holds into which an expansion of another one is redirected. -/
def redirected (p : Pane) (pending : Pending) : Store :=
  ((Store.empty.add (seedOf p pending.frontier)).add pending.fetched).markExpanded pending.frontier

/-- **The copies that the first pane holds come first.** -/
theorem node?_redirected (p : Pane) (pending : Pending) {id : NodeId}
    (hid : id ∈ pending.frontier) : (redirected p pending).node? id =
      (p.store.node? id).or (pending.fetched.nodes.find? fun n => n.id = id) := by
  have hmarked : (redirected p pending).node? id =
      ((Store.ofFragment (seedOf p pending.frontier)).add pending.fetched).node? id := rfl
  rw [hmarked, Store.node?_add, node?_seedOf p hid]

theorem hasNode_redirected (p : Pane) (pending : Pending) {id : NodeId}
    (hid : id ∈ pending.frontier) : (redirected p pending).hasNode id = true ↔
      p.store.hasNode id = true ∨ ∃ n ∈ pending.fetched.nodes, n.id = id := by
  have hnode : ∀ u : Store, u.hasNode id = (u.node? id).isSome := fun _ => rfl
  rw [hnode, hnode, node?_redirected p pending hid, Option.isSome_or, Bool.or_eq_true,
    List.find?_isSome]
  simp

theorem isCollapsed_redirected (p : Pane) (pending : Pending) {id : NodeId}
    (hid : id ∈ pending.frontier) : (redirected p pending).isCollapsed id = false ↔
      p.store.hasNode id = true ∨ ∃ n ∈ pending.fetched.nodes, n.id = id :=
  (Store.isCollapsed_merge_iff hid pending.fetched).trans (hasNode_redirected p pending hid)

/-- The pane into which an expansion of another one was redirected holds just what it should, and what
it shows is derived from the whole of that.  The delta lists what came beyond the seeds. -/
structure TakesOver (m : MarkSet) (p : Pane) (pending : Pending) (q : Pane) (delta : Delta) :
    Prop where
  spawners : q.spawners = [p.id]
  spawnerNodes : q.spawnerNodes = pending.frontier
  view : q.view = p.view
  store : q.store = redirected p pending
  everAdded : ∀ id, q.everAdded.contains id = true ↔ id ∈ q.store.nodeIds
  marked : q.marked = m.decorate q.store
  fresh : q.Fresh
  nodes : q.store.nodeIds = (Store.empty.add (seedOf p pending.frontier)).nodeIds ++ delta.nodes
  edges : q.store.edgeIds = delta.edges

/-- An expansion of a pane was redirected into a new pane. -/
structure Redirects (s : Session) (p : Pane) (pending : Pending) (s' : Session) (new : PaneId)
    (delta : Delta) : Prop where
  marks : s'.marks = s.marks
  name_free : ¬s.table.contains new = true
  /-- The first pane changes at most in its lineage and in which nodes it shows as recurring. -/
  source : ∃ spawners spawned recurring,
    s'.table.pane? p.id = some { p with spawners, spawned, recurring } ∧
      spawned.contains new = true
  target : ∃ q, s'.table.pane? new = some q ∧ TakesOver s.marks p pending q delta

/-! ### Merging what was held back -/

/-- The pane grows and is derived anew, and all other panes change at most in what recurs. -/
theorem showsAs_applyPending (hp : s.table.pane? p.id = some p) (hown : p.brush.pane = p.id)
    (pending : Pending) :
    ShowsAs true
      (s.modify p.id fun _ => s.followed (p.store.apply pending).2.nodes
        { p with store := (p.store.apply pending).1 })
      (s.applyPending p pending).1 := by
  let f : Pane → Pane := fun q => { q with store := (p.store.apply pending).1 }
  have hmerged : (s.applyPending p pending).1 =
      (s.modify p.id fun _ => f p).afterGrowth p.id (p.store.apply pending).2.nodes :=
    congrArg (fun s' => s'.afterGrowth p.id (p.store.apply pending).2.nodes)
      (modify_congr (f := f) (g := fun _ => f p) hp rfl)
  have hfollowed : (s.modify p.id fun q => s.followed (p.store.apply pending).2.nodes (f q)) =
      s.modify p.id fun _ => s.followed (p.store.apply pending).2.nodes (f p) := modify_congr hp rfl
  rw [hmerged, afterGrowth_modify hp hown, hfollowed]
  exact showsAs_recount _ _ _

theorem contents_followed (s : Session) (added : List NodeId) (p : Pane) :
    (s.followed added p).contents = (s.derived added p).contents :=
  s.view_followed Pane.contents_select added p

theorem marked_followed (s : Session) (added : List NodeId) (p : Pane) :
    (s.followed added p).marked = s.marks.decorate p.store :=
  congrArg (fun d => d.2.1)
    ((s.view_followed Pane.decor_select added p).trans (s.decor_derived added p))

theorem kin_followed (s : Session) (added : List NodeId) (p : Pane) :
    kin (s.followed added p) = kin p :=
  (s.view_followed Pane.kin_select added p).trans (s.kin_derived added p)

theorem fresh_followed (s : Session) (added : List NodeId) (p : Pane) :
    (s.followed added p).Fresh :=
  (s.fresh_derived added p).of_scene_eq (s.view_followed Pane.scene_select added p)

/-! ### Redirecting -/

/-- **A pane that begins with the seeds takes the expansion over.** -/
theorem takesOver_followed {b : Brush Float} (hq : q.contents =
      (.ofFragment (seedOf p pending.frontier), p.view, pending.frontier, b))
    (hspawners : q.spawners = [p.id]) (r : OrderedSet NodeId)
    (haccounted : (s.followed (q.store.apply pending).2.nodes
      { q with store := (q.store.apply pending).1 }).Accounted) :
    TakesOver s.marks p pending
      ((s.followed (q.store.apply pending).2.nodes
        { q with store := (q.store.apply pending).1 }).withRecurring r)
      (q.store.apply pending).2 := by
  let grown : Pane := { q with store := (q.store.apply pending).1 }
  let added := (q.store.apply pending).2.nodes
  obtain ⟨hstore, hview, hnodes, -⟩ : q.store = .ofFragment (seedOf p pending.frontier) ∧
      q.view = p.view ∧ q.spawnerNodes = pending.frontier ∧ q.brush = b := by
    simpa only [Pane.contents, Prod.mk.injEq] using hq
  have hmerged : grown.store = redirected p pending :=
    (q.store.fst_apply pending).trans (by rw [hstore]; rfl)
  have hcontents := (s.contents_followed added grown).trans (s.contents_derived added grown)
  simp only [Pane.contents, Prod.mk.injEq] at hcontents
  obtain ⟨hheld, hshown, hspawned, -⟩ := hcontents
  have hids := q.store.nodeIds_apply pending
  have hkeys := q.store.edgeIds_apply pending
  -- Seeds are nodes without their edges.
  have hseeds : q.store.edgeIds = [] := by
    rw [hstore, Store.edgeIds, edges_seedOf, List.map_nil]
  constructor
  case spawners => exact (congrArg (fun k => k.2.1) (s.kin_followed added grown) :).trans hspawners
  case spawnerNodes => exact hspawned.trans hnodes
  case view => exact hshown.trans hview
  case store => exact hheld.trans hmerged
  case everAdded => exact haccounted
  case marked =>
    have hmarked := s.marked_followed added grown
    rw [← hheld] at hmarked
    exact hmarked
  case fresh => exact (s.fresh_followed added grown).of_scene_eq rfl
  case nodes =>
    refine (congrArg Store.nodeIds hheld).trans (hids.trans ?_)
    exact congrArg (fun u : Store => u.nodeIds ++ added) hstore
  case edges =>
    refine (congrArg Store.edgeIds hheld).trans (hkeys.trans ?_)
    rw [hseeds, List.nil_append]

theorem resolve_redirect_eq (hp : s.table.pane? pane = some p) (hq :
      (s.spawnFor p pending.frontier).1.table.pane? (s.spawnFor p pending.frontier).2 = some q) :
    s.resolve pane pending .redirect =
      .ok (((s.spawnFor p pending.frontier).1.applyPending q pending).1,
        .redirected (s.spawnFor p pending.frontier).2 (q.store.apply pending).2) := by
  simp only [Session.resolve, get_eq_ok.2 hp, bind, Except.bind, get_eq_ok.2 hq]
  rfl

/-- **Every expansion can be redirected.** -/
theorem redirects (hs : s.Sound) (hnumbered : s.Numbered) (hp : s.table.pane? p.id = some p)
    (pending : Pending) :
    ∃ s' new delta, s.resolve p.id pending .redirect = .ok (s', .redirected new delta) ∧
      s.Redirects p pending s' new delta := by
  obtain ⟨rank, hwf⟩ := hs.wellFormed
  obtain ⟨root, hprimary⟩ :=
    Option.ne_none_iff_exists'.1 (hwf.rooted.primary_ne_none (contains_of_pane? hp))
  let r := (SpawnRequest.seeded (seedOf p pending.frontier) p.view).fromPane p.id pending.frontier
  let u := (s.spawnFor p pending.frontier).1
  -- The pane that is opened.
  obtain ⟨window, hopened⟩ := s.table.contents_openPane r
  obtain ⟨q, hq, hcontents⟩ := Option.map_eq_some_iff.1 hopened
  obtain ⟨-, q', hq', hspawners, -⟩ := s.table.opened_openPane r
  obtain rfl : q = q' := Option.some.inj (hq.symm.trans hq')
  have hfree := hnumbered.not_live_openPane hprimary r
  have hu : u.Sound := hs.spawnFor hp pending.frontier
  have hid : q.id = (s.table.openPane r).2 := hu.id_pane hq
  have hlive : u.table.pane? q.id = some q := hid ▸ hq
  have hown : q.brush.pane = q.id := by
    rw [hid]
    exact (congrArg (fun c => c.2.2.2.pane) hcontents :)
  have hshows := showsAs_applyPending hlive hown pending
  -- The pane that it is opened from.
  obtain ⟨p', hp', hbare, hspawned⟩ := hwf.spawner_openPane (r := r) hp rfl
  have hne : p.id ≠ q.id := fun heq => hfree (hid ▸ heq ▸ contains_of_pane? hp)
  have hlasts : u.table.pane? p.id = some p' := hp'
  refine ⟨_, _, _, resolve_redirect_eq hp hq, ?marks, hfree, ?source, ?target⟩
  case marks => exact marks_afterGrowth _ _ _
  case source =>
    obtain ⟨recurring, hshown, -⟩ := hshows p.id p' ((pane?_modify_of_ne u hne _).trans hlasts)
    refine ⟨p'.spawners, p'.spawned, recurring, hshown.trans ?_, hspawned⟩
    rw [eq_of_bare_eq hbare]
    rfl
  case target =>
    let grown := u.followed (q.store.apply pending).2.nodes
      { q with store := (q.store.apply pending).1 }
    have hgrown : (u.modify q.id fun _ => grown).table.pane? q.id = some grown := by
      rw [pane?_modify_self, hlive, Option.map_some]
    obtain ⟨recurring, hshown, -⟩ := hshows q.id grown hgrown
    have haccounted : (grown.withRecurring recurring).Accounted :=
      (hu.applyPending hlive pending).accounted q.id _ hshown
    exact ⟨_, hid ▸ hshown, takesOver_followed (s := u) hcontents hspawners recurring haccounted⟩

/-! ### Expansions that a pane planned -/

/-- The pane of a name stayed live from one session to another. -/
def Keeps (pane : PaneId) (s s' : Session) : Prop :=
  ∃ p q, s.table.pane? pane = some p ∧ s'.table.pane? pane = some q ∧ p.Lasts q

/-- **A pane that a command leaves live was live before and stayed so, or it was opened** and became
what it is since then. -/
theorem Sound.keeps {σ : Type} {backend : Backend (StateM σ)} (hs : s.Sound) (c : SessionCommand) :
    Always (fun s' => ∀ id q, s'.table.pane? id = some q → Keeps id s s' ∨
      c.kind = .opening ∧ ∃ p : Pane, p.id = id ∧ Untouched p ∧ p.Lasts q)
      (s.perform backend c) := by
  intro env id q hq
  obtain ⟨p, horigin, hcourse⟩ := hs.carries c env id q hq
  cases horigin with
  | live hp => exact .inl ⟨p, q, hp, hq, hcourse.lasts⟩
  | opened hk hid huntouched => exact .inr ⟨hk, p, hid, huntouched, hcourse.lasts⟩

/-- An expansion is held back that a pane planned, which has stayed live since. -/
def HoldsBack (s : Session) (pane : PaneId) (pending : Pending) : Prop :=
  ∃ before begun met held t, Begins before pane begun t ∧ Keeps pane begun met ∧
    met.Withholds t pending held ∧ Keeps pane held s

/-- What a pane plans it holds, also while its lease is out. -/
theorem Begins.held (h : s.Begins pane s' t) :
    ∃ q, s'.table.pane? pane = some q ∧ ∀ id ∈ t.planned, id ∈ q.store.nodeIds := by
  obtain ⟨p, planned, hp, hissue, hplanned⟩ := h.issued
  have hheld : ∀ id ∈ planned, id ∈ p.store.nodeIds := fun id hid =>
    Store.hasNode_iff.1 (hplanned id hid)
  unfold Session.issue at hissue
  split at hissue
  next => nomatch hissue
  obtain ⟨⟨v, lease⟩, hv, hissue⟩ := bind_eq_ok.1 hissue
  obtain ⟨rfl, rfl⟩ := Prod.mk.inj (Except.ok.inj hissue)
  obtain ⟨q, hq, hv⟩ := bind_eq_ok.1 (mapError_eq_ok.1 hv)
  obtain ⟨rfl, rfl⟩ := Prod.mk.inj (Except.ok.inj hv)
  have hstore : q.store = p.store := (congrArg Pane.store (Pane.still_beginExpansion hq) :)
  have hpane : (s.table.modify p.id fun _ => q).pane? pane =
      if p.id = pane then (s.table.pane? pane).map fun _ => q else s.table.pane? pane :=
    pane?_modify ..
  rw [hp, Option.map_some] at hpane
  split at hpane
  next => exact ⟨q, hpane, fun id hid => hstore ▸ hheld id hid⟩
  next => exact ⟨p, hpane, hheld⟩

/-- What is held back leaves the panes with the nodes that they hold. -/
theorem Withholds.keeps (h : s.Withholds t pending s') (hp : s.table.pane? pane = some p) :
    Keeps pane s s' := by
  obtain ⟨q, g, hq, rfl, -⟩ := h.eq
  by_cases hpane : pane = t.pane
  · subst hpane
    obtain rfl := Option.some.inj (hp.symm.trans hq)
    refine ⟨p, p.endExpansion, hp, ?_, (p.course_endExpansion (k := .working)).lasts⟩
    rw [pane?_modify_self, hp, Option.map_some]
  · exact ⟨p, p, hp, (pane?_modify_of_ne s hpane _).trans hp, .refl⟩

theorem Keeps.trans (h : Keeps pane s s') {s'' : Session} (h' : Keeps pane s' s'') :
    Keeps pane s s'' := by
  obtain ⟨p, q, hp, hq, hlasts⟩ := h
  obtain ⟨q', r, hq', hr, hlasts'⟩ := h'
  obtain rfl := Option.some.inj (hq.symm.trans hq')
  exact ⟨p, r, hp, hr, hlasts.trans hlasts'⟩

/-- **What is held back on a pane that has stayed live is an expansion of nodes that it holds.** -/
theorem HoldsBack.hasNode (h : s.HoldsBack pane pending) (hp : s.table.pane? pane = some p) :
    ∀ id ∈ pending.frontier, p.store.hasNode id = true := by
  obtain ⟨before, begun, met, held, t, hbegins, hmet, hwithholds, hheld⟩ := h
  obtain ⟨q, hq, hplanned⟩ := hbegins.held
  obtain ⟨-, -, -, -, hfrontier, -⟩ := hwithholds.eq
  -- The pane stays live while the expansion is held back, too.
  obtain ⟨-, r, -, hr, -⟩ := id hmet
  obtain ⟨q', p', hq', hp', hlasts⟩ := (hmet.trans (hwithholds.keeps hr)).trans hheld
  obtain rfl := Option.some.inj (hq.symm.trans hq')
  obtain rfl := Option.some.inj (hp.symm.trans hp')
  intro id hid
  rw [hfrontier] at hid
  exact Store.hasNode_iff.2 (hlasts.mem_nodeIds (hplanned id hid))

/-! ### A redirected expansion -/

/-- The crowded session after what was fetched for its node was held back. -/
def heldUp : Session :=
  ((vacant { ({} : Config).options with paneNodeCeiling := 1 } {}).serveAll (.constant deadlock)
    [.session .start, .session (.begin original [⟨"s0"⟩]),
      .session (.finish ⟨⟨original, 0⟩, [⟨"s0"⟩]⟩ (.ok crowding))] ()).1

theorem holdsBack_heldUp :
    ∃ pending, pending.frontier = [⟨"s0"⟩] ∧ heldUp.HoldsBack original pending := by
  have hissued : (crowded.beginExpansion original [⟨"s0"⟩]).toOption.map Prod.snd =
      some ⟨⟨original, 0⟩, [⟨"s0"⟩]⟩ := by decide +kernel
  cases hbegin : crowded.beginExpansion original [⟨"s0"⟩] with
  | error e => simp [hbegin, Except.toOption] at hissued
  | ok begun =>
    obtain ⟨u, t⟩ := begun
    rw [hbegin] at hissued
    obtain rfl : t = ⟨⟨original, 0⟩, [⟨"s0"⟩]⟩ := Option.some.inj hissued
    obtain ⟨s', pending, hfinish⟩ := heldBack_crowding hbegin
    have hserved : heldUp = s' := by
      have hfirst : heldUp =
          ((crowded.after Prod.fst (crowded.beginExpansion original [⟨"s0"⟩])).finish
            ⟨⟨original, 0⟩, [⟨"s0"⟩]⟩ (.ok crowding)).1 := rfl
      rw [hfirst, hbegin]
      exact congrArg Prod.fst hfinish
    have hbegins : Begins crowded original u ⟨⟨original, 0⟩, [⟨"s0"⟩]⟩ := .expansion hbegin
    have hwithholds : u.Withholds ⟨⟨original, 0⟩, [⟨"s0"⟩]⟩ pending s' := .expansion hfinish
    obtain ⟨-, -, -, -, hfrontier, -⟩ := hwithholds.eq
    obtain ⟨p, hp, -⟩ := hbegins.held
    obtain ⟨-, q, -, hq, -⟩ := hwithholds.keeps hp
    exact ⟨pending, hfrontier, crowded, u, u, s', _, hbegins, ⟨p, p, hp, hp, .refl⟩, hwithholds,
      ⟨q, q, hq, hserved ▸ hq, .refl⟩⟩

end Session

open Session

/-- **A redirected expansion loses nothing and leaves its source alone.**  Whatever was asked of a
session, past it of its table and its panes: each expansion can be redirected from each live pane.  The
pane stays live, and changes at most in its lineage and in which nodes it shows as recurring.  A pane is
opened that is spawned from it for the frontier, holds what the seeds and then what was fetched come to,
shows all of that, and of which the delta lists what came beyond the seeds.  Of the frontier, just the
nodes that the first pane holds or that were fetched are expanded.  If what is redirected was held back
on the first pane, which has stayed live since, these are all of them, in the copies that it holds; and a
pane does stay live through each command that neither closes nor opens it. -/
theorem redirect_loses_nothing {σ : Type} (backend : Backend (StateM σ)) (env : σ)
    (options : SessionOptions) (bus : Bus) (requests : List Request) :
    let s := ((Session.vacant options bus).serveAll backend requests env).1
    (∀ (pane : PaneId) (p : Pane), s.table.pane? pane = some p → ∀ pending : Pending,
      ∃ s' new delta, s.resolve pane pending .redirect = .ok (s', .redirected new delta) ∧
        s.Redirects p pending s' new delta ∧
        (∀ id ∈ pending.frontier, (redirected p pending).isCollapsed id = false ↔
          p.store.hasNode id = true ∨ ∃ n ∈ pending.fetched.nodes, n.id = id) ∧
        (s.HoldsBack pane pending → ∀ id ∈ pending.frontier,
          (redirected p pending).isCollapsed id = false ∧
          ∃ n, p.store.node? id = some n ∧ (redirected p pending).node? id = some n)) ∧
    ∀ (c : SessionCommand) (env' : σ) (pane : PaneId) (q : Pane),
      (s.perform backend c env').1.table.pane? pane = some q →
        Keeps pane s (s.perform backend c env').1 ∨
        c.kind = .opening ∧ ∃ p : Pane, p.id = pane ∧ Untouched p ∧ p.Lasts q := by
  intro s
  have hs : s.Sound := (sound_vacant options bus).serveAll requests env
  have hnumbered : s.Numbered :=
    (numbered_vacant options bus).serveAll (sound_vacant options bus) requests env
  refine ⟨fun pane p hp pending => ?_, fun c env' => hs.keeps c env'⟩
  obtain rfl : p.id = pane := hs.id_pane hp
  obtain ⟨s', new, delta, hresolve, hredirects⟩ := redirects hs hnumbered hp pending
  refine ⟨s', new, delta, hresolve, hredirects, fun id => isCollapsed_redirected p pending,
    fun hheld id hid => ?_⟩
  -- What was held back on the pane had been planned there, so the pane holds the frontier.
  have hnode := hheld.hasNode hp id hid
  obtain ⟨n, hn⟩ := Option.isSome_iff_exists.1 hnode
  change p.store.node? id = some n at hn
  refine ⟨(isCollapsed_redirected p pending hid).2 (.inl hnode), n, hn, ?_⟩
  rw [node?_redirected p pending hid, hn, Option.some_or]

/-- What was held back in the crowded session is redirected into a second pane. -/
theorem redirect_loses_nothing_heldUp :
    ∃ p pending s' new delta, heldUp.table.pane? original = some p ∧
      pending.frontier = [⟨"s0"⟩] ∧ heldUp.HoldsBack original pending ∧
      heldUp.resolve original pending .redirect = .ok (s', .redirected new delta) ∧
      heldUp.Redirects p pending s' new delta ∧
      (redirected p pending).isCollapsed ⟨"s0"⟩ = false := by
  have hlive : heldUp.table.contains original = true := by decide +kernel
  obtain ⟨p, hp⟩ := exists_pane?_iff.1 hlive
  obtain ⟨pending, hfrontier, hheld⟩ := holdsBack_heldUp
  obtain ⟨s', new, delta, hresolve, hredirects, -, hown⟩ := (redirect_loses_nothing
    (.constant deadlock) () { ({} : Config).options with paneNodeCeiling := 1 } {}
    [.session .start, .session (.begin original [⟨"s0"⟩]),
      .session (.finish ⟨⟨original, 0⟩, [⟨"s0"⟩]⟩ (.ok crowding))]).1 original p hp pending
  have hs0 : ⟨"s0"⟩ ∈ pending.frontier := by simp [hfrontier]
  exact ⟨p, pending, s', new, delta, hp, hfrontier, hheld, hresolve, hredirects,
    (hown hheld _ hs0).1⟩

end StateAtlas
