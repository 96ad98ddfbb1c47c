import StateAtlas.Proofs.Session.Courses
import StateAtlas.Proofs.Session.Importing
/-!
Names of spawned panes.

Spawned panes are numbered, and no live pane carries a number that is yet to be given out: copies
and unions are called otherwise, and whatever opens a pane that is numbered counts it.  So a pane
that is spawned gets a name that no live pane has, nor one that had to go to make room for it.

Main statement: `PaneTable.Numbered.not_live_openPane`.
-/

namespace StateAtlas

open PaneTable

/-! ## Names -/

namespace Naming

variable {id base : PaneId} {n : Nat}

/-- All spawned panes that could have the name were counted. -/
def Allots (naming : Naming) (id : PaneId) : Prop := ∀ n, CountedAs n id → n ≤ naming.spawned

theorem CountedAs.allots (h : CountedAs n id) {naming : Naming} (hle : n ≤ naming.spawned) :
    naming.Allots id := fun _ hm => (hm.eq h).symm ▸ hle

/-- The name does not begin as those of spawned panes do. -/
def Apart (id : PaneId) : Prop := ∃ c rest, c ≠ 'p' ∧ id.text.toList = c :: rest

theorem Apart.allots (h : Apart id) (naming : Naming) : naming.Allots id := by
  rintro n ⟨rest, -, htext⟩
  obtain ⟨c, rest', hc, hid⟩ := h
  exact absurd (List.cons.inj (hid.symm.trans htext)).1 hc

theorem Apart.unique (h : Apart base) (taken : List PaneId) : Apart (unique taken base) := by
  have hnumbered : ∀ k, Apart (numbered base k) := by
    intro k
    obtain ⟨c, rest, hc, htext⟩ := h
    have hname : (numbered base k).text = base.text ++ ("-" ++ k.repr) := String.append_assoc ..
    refine ⟨c, rest ++ ("-" ++ k.repr).toList, hc, ?_⟩
    rw [hname, String.toList_append, htext, List.cons_append]
  exact unique_induction h hnumbered taken

theorem apart_merged (inputs : List PaneId) : Apart (merged inputs) :=
  ⟨'M', "ERGED-".toList ++ (String.intercalate "-" (inputs.map PaneId.text)).toList, by decide,
    String.toList_append ..⟩

theorem apart_duplicate (naming : Naming) (source : PaneId) :
    Apart (naming.duplicate source).2 := by
  let rest := source.text ++ ("-" ++ (naming.duplicates + 1).repr)
  have hname : (naming.duplicate source).2.text = "DUPLICATE-" ++ rest := by
    rw [← String.append_assoc, ← String.append_assoc]
    rfl
  refine ⟨'D', "UPLICATE-".toList ++ rest.toList, by decide, ?_⟩
  rw [hname, String.toList_append]
  rfl

end Naming

/-! ## Tables -/

namespace PaneTable

variable {t u : PaneTable} {rank : PaneId → Nat} {opened : List PaneId} {id root : PaneId}

/-- No live pane carries a number that is yet to be given out. -/
def Numbered (t : PaneTable) : Prop := ∀ id, t.contains id = true → t.naming.Allots id

theorem Numbered.of_evolves (h : t.Numbered) (hevolves : t.Evolves opened u)
    (hle : t.naming.spawned ≤ u.naming.spawned) (hopened : ∀ id ∈ opened, u.naming.Allots id) :
    u.Numbered := by
  intro id hid
  obtain ⟨p, hp⟩ := exists_pane?_iff.1 hid
  rcases hevolves.newcomer_or_survivor hp with ⟨hmem, -⟩ | ⟨-, q, hq, -⟩
  · exact hopened id hmem
  · exact fun n hn => (h id (contains_of_pane? hq) n hn).trans hle

/-! ### What is counted -/

theorem naming_announced (t : PaneTable) (id : PaneId) :
    ((t.announce id).setActive id).naming = t.naming :=
  congrArg (fun r => r.2.2.2) (t.roster_announced id)

theorem naming_place (t : PaneTable) (p : Pane) (after : Option PaneId) (insert : InsertPolicy) :
    (t.place p after insert).naming = t.naming := by
  rw [place_eq]

theorem naming_roomFor (t : PaneTable) (ids : List PaneId) (keep : Bool) :
    (t.roomFor ids keep).naming = t.naming := by
  unfold roomFor
  split
  · exact (t.settings_makeRoom ids).2
  · rfl

theorem naming_withCopies (t : PaneTable) (copies : List (PaneId × PaneId)) :
    (t.withCopies copies).naming = t.naming := by
  rw [withCopies_eq]

/-- What opens a pane counts it, unless it is the first one. -/
theorem counted_openPane (t : PaneTable) (r : SpawnRequest) :
    t.naming.spawned ≤ (t.openPane r).1.naming.spawned ∧
      Naming.CountedAs (if t.primary.isNone then 0 else t.naming.spawned + 1) (t.openPane r).2 ∧
      (if t.primary.isNone then 0 else t.naming.spawned + 1) ≤ (t.openPane r).1.naming.spawned := by
  obtain ⟨hroster, hid⟩ := t.roster_openPane r
  have hnaming : (t.openPane r).1.naming = (t.named r).1.naming :=
    congrArg (fun r => r.2.2.2) hroster
  rw [hnaming, hid, named]
  split
  next => exact ⟨Nat.le_refl _, Naming.countedAs_primary, Nat.zero_le _⟩
  next =>
    have hroom := congrArg Naming.spawned (t.settings_makeRoom r.spawner.toList).2
    have hcounted := (Naming.countedAs_spawn (t.makeRoom r.spawner.toList).naming).unique
      (t.makeRoom r.spawner.toList).live.keys
    rw [hroom] at hcounted
    have hspawned : (t.nameSpawned r).1.naming.spawned = t.naming.spawned + 1 :=
      congrArg (· + 1) hroom
    rw [hspawned]
    exact ⟨Nat.le_succ _, hcounted, Nat.le_refl _⟩

/-- **A pane that is spawned gets a name that no live pane has**, nor one that goes to make room. -/
theorem Numbered.not_live_openPane (h : t.Numbered) (hprimary : t.primary = some root)
    (r : SpawnRequest) : ¬t.contains (t.openPane r).2 = true := by
  intro hlive
  obtain ⟨-, hcounted, -⟩ := t.counted_openPane r
  rw [hprimary] at hcounted
  exact absurd (h _ hlive _ hcounted) (Nat.not_succ_le_self _)

/-! ### Commands -/

theorem Numbered.openPane (h : t.Numbered) (hwf : t.WellFormed rank) {r : SpawnRequest}
    (hr : ∀ s ∈ r.spawner, t.contains s = true) : (t.openPane r).1.Numbered := by
  obtain ⟨hle, hcounted, hnumber⟩ := t.counted_openPane r
  refine h.of_evolves (hwf.openPane hr).2 hle fun id hid => ?_
  rw [List.mem_singleton.1 hid]
  exact hcounted.allots hnumber

/-- Panes that are opened under names of another kind need not be counted. -/
theorem Numbered.of_apart (h : t.Numbered) (hevolves : t.Evolves opened u)
    (hnaming : u.naming.spawned = t.naming.spawned)
    (hopened : ∀ id ∈ opened, Naming.Apart id) : u.Numbered :=
  h.of_evolves hevolves hnaming.ge fun id hid => (hopened id hid).allots _

theorem Numbered.merge (h : t.Numbered) (hwf : t.WellFormed rank) {inputs : List PaneId}
    {keep : Bool} (hmerge : t.merge inputs keep = .ok (u, id)) : u.Numbered := by
  have hevolves := (hwf.merge hmerge).2
  obtain ⟨panes, -, -, -, hunion⟩ := merge_eq_ok hmerge
  rw [openUnion_eq] at hunion
  obtain ⟨rfl, rfl⟩ := Prod.mk.inj hunion
  have hwith : (t.withMerged inputs.eraseDups panes keep).naming = t.naming := by
    rw [withMerged, naming_announced, naming_place, naming_roomFor]
  refine h.of_apart hevolves (congrArg Naming.spawned ?_) fun id hid => ?_
  · split
    · exact hwith
    · rw [naming_remove, hwith]
  · rw [List.mem_singleton.1 hid]
    exact (Naming.apart_merged _).unique _

theorem counted_copy {source : PaneId} {protected_ : List PaneId}
    (hcopy : t.copy source protected_ = .ok (u, id)) :
    u.naming.spawned = t.naming.spawned ∧ Naming.Apart id := by
  obtain ⟨p, -, hcopy⟩ := bind_eq_ok.1 hcopy
  obtain ⟨rfl, rfl⟩ := Prod.mk.inj (Except.ok.inj hcopy)
  have hroom := congrArg Naming.spawned (t.settings_makeRoom protected_).2
  refine ⟨?_, (Naming.apart_duplicate _ _).unique _⟩
  rw [naming_place]
  exact hroom

theorem Numbered.duplicate (h : t.Numbered) (hwf : t.WellFormed rank) {source : PaneId}
    (hduplicate : t.duplicate source = .ok (u, id)) : u.Numbered := by
  have hevolves := (hwf.duplicate hduplicate).2
  obtain ⟨_, -, hduplicate⟩ := bind_eq_ok.1 hduplicate
  obtain ⟨⟨v, new⟩, hcopy, hduplicate⟩ := bind_eq_ok.1 hduplicate
  obtain ⟨rfl, rfl⟩ := Prod.mk.inj (Except.ok.inj hduplicate)
  obtain ⟨hnaming, hapart⟩ := counted_copy hcopy
  refine h.of_apart hevolves ?_ fun id hid => List.mem_singleton.1 hid ▸ hapart
  rw [naming_announced, hnaming]

theorem Numbered.duplicateMany (h : t.Numbered) (hwf : t.WellFormed rank) {sources : List PaneId}
    (hduplicate : t.duplicateMany sources = .ok (u, opened)) : u.Numbered := by
  have hevolves := (hwf.duplicateMany hduplicate).2
  obtain ⟨-, v, copies, hcopies, rfl, rfl⟩ := duplicateMany_eq_ok hduplicate
  have hcounted : v.naming.spawned = t.naming.spawned ∧
      ∀ id ∈ copies.map Prod.snd, Naming.Apart id := by
    refine foldlM_eq_ok (P := fun w => w.1.naming.spawned = t.naming.spawned ∧
      ∀ id ∈ w.2.map Prod.snd, Naming.Apart id) hcopies ⟨rfl, nofun⟩ ?_
    rintro source - ⟨w, done⟩ ⟨w', done'⟩ ⟨hnaming, hdone⟩ hstep
    obtain ⟨⟨x, new⟩, hcopy, hstep⟩ := bind_eq_ok.1 hstep
    obtain ⟨rfl, rfl⟩ := Prod.mk.inj (Except.ok.inj hstep)
    obtain ⟨hcopied, hapart⟩ := counted_copy hcopy
    refine ⟨hcopied.trans hnaming, fun id hid => ?_⟩
    rw [List.map_append, List.mem_append] at hid
    exact hid.elim (hdone id) fun hid => List.mem_singleton.1 hid ▸ hapart
  refine h.of_apart hevolves ?_ hcounted.2
  rw [naming_withCopies, hcounted.1]

theorem Numbered.destroy (h : t.Numbered) (hwf : t.WellFormed rank) {cascade activate : Bool}
    {removed : List PaneId} (hdestroy : t.destroy id cascade activate = .ok (u, removed)) :
    u.Numbered := by
  have hevolves := (hwf.destroy hdestroy).2
  obtain ⟨p, -, hdestroy⟩ := bind_eq_ok.1 hdestroy
  split at hdestroy
  next => nomatch hdestroy
  next =>
    obtain ⟨rfl, -⟩ := Prod.mk.inj (Except.ok.inj hdestroy)
    exact h.of_apart hevolves (congrArg Naming.spawned (naming_remove ..)) nofun

theorem numbered_of_no_pane (h : ∀ id, t.pane? id = none) : t.Numbered := by
  intro id hid
  obtain ⟨p, hp⟩ := exists_pane?_iff.1 hid
  rw [h id] at hp
  nomatch hp

theorem WellFormed.numbered_clear (h : t.WellFormed rank) : t.clear.1.Numbered := by
  obtain ⟨⟨rank', hcleared⟩, -⟩ := h.clear
  exact numbered_of_no_pane (hcleared.rooted.empty_of_primary_none rfl)

theorem naming_highlight (hhighlight : t.highlight id = .ok u) : u.naming = t.naming := by
  obtain ⟨p, -, hhighlight⟩ := bind_eq_ok.1 hhighlight
  obtain rfl := Except.ok.inj hhighlight
  rw [setActive_eq]
  exact List.foldlRecOn (motive := fun u : PaneTable => u.naming = t.naming) _ _ rfl
    fun u hu _ _ => hu

theorem naming_toggle (htoggle : t.toggle id = .ok u) : u.naming = t.naming := by
  obtain ⟨v, hv, htoggle⟩ := bind_eq_ok.1 htoggle
  obtain ⟨p, -, hv⟩ := bind_eq_ok.1 hv
  obtain rfl := Except.ok.inj hv
  split at htoggle
  · split at htoggle
    all_goals
      obtain rfl := Except.ok.inj htoggle
      rfl
  · obtain rfl := Except.ok.inj htoggle
    rfl

/-- **Whatever the command, no live pane carries a number that is yet to be given out.** -/
theorem Numbered.execute (h : t.Numbered) (hwf : t.WellFormed rank) {c : PaneCommand}
    (hexecute : t.execute c = .ok (u, opened)) : u.Numbered := by
  have hevolves := (hwf.execute hexecute).2
  cases c with
  | spawn r =>
    obtain ⟨id, hspawn, -⟩ := opening_eq_ok hexecute
    obtain ⟨hr, hopen⟩ := spawn_eq_ok hspawn
    have hopened := h.openPane hwf hr
    rwa [hopen] at hopened
  | destroy id cascade activate =>
    obtain ⟨⟨v, removed⟩, hdestroy, hexecute⟩ := bind_eq_ok.1 hexecute
    obtain ⟨rfl, -⟩ := Prod.mk.inj (Except.ok.inj hexecute)
    exact h.destroy hwf hdestroy
  | merge inputs keep =>
    obtain ⟨id, hmerge, -⟩ := opening_eq_ok hexecute
    exact h.merge hwf hmerge
  | duplicate source =>
    obtain ⟨id, hduplicate, -⟩ := opening_eq_ok hexecute
    exact h.duplicate hwf hduplicate
  | duplicateMany sources => exact h.duplicateMany hwf hexecute
  | activate id =>
    obtain ⟨hactivate, rfl⟩ := arranging_eq_ok hexecute
    obtain ⟨p, -, hactivate⟩ := bind_eq_ok.1 hactivate
    obtain rfl := Except.ok.inj hactivate
    exact h.of_apart hevolves (by rw [setActive_eq]) nofun
  | arrange id f =>
    obtain ⟨harrange, rfl⟩ := arranging_eq_ok hexecute
    obtain ⟨p, -, harrange⟩ := bind_eq_ok.1 harrange
    obtain rfl := Except.ok.inj harrange
    exact h.of_apart hevolves rfl nofun
  | toggle id =>
    obtain ⟨htoggle, rfl⟩ := arranging_eq_ok hexecute
    exact h.of_apart hevolves (congrArg Naming.spawned (naming_toggle htoggle)) nofun
  | highlight id =>
    obtain ⟨hhighlight, rfl⟩ := arranging_eq_ok hexecute
    exact h.of_apart hevolves (congrArg Naming.spawned (naming_highlight hhighlight)) nofun
  | clear =>
    obtain ⟨rfl, -⟩ := Prod.mk.inj (Except.ok.inj hexecute)
    exact hwf.numbered_clear

theorem Numbered.perform (h : t.Numbered) (hwf : t.WellFormed rank) (c : PaneCommand) :
    (t.perform c).Numbered := by
  unfold PaneTable.perform
  split
  next hexecute => exact h.execute hwf hexecute
  next => exact h

end PaneTable

/-! ## Sessions -/

namespace Session

variable {s s' : Session} {k : CommandKind} {id pane : PaneId} {p : Pane}

/-- No live pane carries a number that is yet to be given out. -/
abbrev Numbered (s : Session) : Prop := s.table.Numbered

/-- Where no pane is opened, none need be counted. -/
theorem Numbered.of_carries (h : s.Numbered) (hk : k ≠ .opening) (hcarries : Carries k s s')
    (hnaming : s'.table.naming = s.table.naming) : s'.Numbered := by
  intro id hid
  obtain ⟨q, hq⟩ := exists_pane?_iff.1 hid
  obtain ⟨p, horigin, -⟩ := hcarries id q hq
  rw [hnaming]
  cases horigin with
  | live hp => exact h id (contains_of_pane? hp)
  | opened hopening => exact absurd hopening hk

theorem naming_publishBrush (s : Session) (id : PaneId) :
    (s.publishBrush id).table.naming = s.table.naming :=
  congrArg (fun r => r.2.2.2) (s.roster_publishBrush id)

theorem naming_afterGrowth (s : Session) (id : PaneId) (added : List NodeId) :
    (s.afterGrowth id added).table.naming = s.table.naming :=
  congrArg (fun r => r.2.2.2) (s.roster_afterGrowth id added)

theorem naming_recomputeWatched (s : Session) :
    s.recomputeWatched.table.naming = s.table.naming := by
  unfold Session.recomputeWatched
  split <;> rfl

theorem naming_pollBrushes (s : Session) (now : Nat) :
    (s.pollBrushes now).1.table.naming = s.table.naming :=
  List.foldlRecOn (motive := fun s' : Session => s'.table.naming = s.table.naming) _ _ rfl
    fun s' hs' id _ => (s'.naming_publishBrush id).trans hs'

theorem naming_mark (s : Session) (ids : List NodeId) :
    (s.mark ids).1.table.naming = s.table.naming := by
  simp only [Session.mark]
  split <;> rfl

theorem naming_unmark (s : Session) (ids : List NodeId) :
    (s.unmark ids).1.table.naming = s.table.naming := by
  simp only [Session.unmark]
  split <;> rfl

theorem Numbered.settle (h : s.Numbered) (id : PaneId) : (s.settle id).Numbered :=
  h.of_carries (k := .working) nofun (Carries.settle s id) (s.naming_afterGrowth id [])

theorem Numbered.openPane (h : s.Numbered) (hs : s.Sound) {r : SpawnRequest}
    (hr : ∀ spawner ∈ r.spawner, s.table.contains spawner = true) :
    { s with table := (s.table.openPane r).1 }.Numbered := by
  obtain ⟨rank, hwf⟩ := hs.wellFormed
  exact PaneTable.Numbered.openPane h hwf hr

theorem Numbered.spawnFor (h : s.Numbered) (hs : s.Sound) (hp : s.table.pane? pane = some p)
    (nodes : List NodeId) : (s.spawnFor p nodes).1.Numbered := by
  refine h.openPane hs fun spawner hspawner => ?_
  obtain rfl : p.id = spawner := Option.some.inj hspawner
  exact contains_of_pane? (hs.id_pane hp ▸ hp)

/-- **Every step counts the panes that it spawns.** -/
theorem Numbered.step (h : s.Numbered) (hs : s.Sound) (hstep : Step s k s') : s'.Numbered := by
  obtain ⟨rank, hwf⟩ := hs.wellFormed
  -- What opens no pane may be done by a command of any kind.
  have hquiet : ∀ {s'}, Step s .working s' → s'.table.naming = s.table.naming → s'.Numbered :=
    fun hstep => h.of_carries (k := .working) nofun (hstep.carries hs)
  cases hstep with
  | warn pane message => exact h
  | load schema => exact h
  | enter => exact h
  | teardown => exact hwf.numbered_clear
  | lend hp hq => exact hquiet (.lend hp hq) rfl
  | drop t => exact hquiet (.drop t) rfl
  | abandon pane => exact hquiet (.abandon pane) rfl
  | withhold hp => exact hquiet (.withhold hp) rfl
  | grow hp frontier g hg => exact hquiet (.grow hp frontier g hg) (naming_afterGrowth ..)
  | tie hp frontier g hnone hg => exact hquiet (.tie hp frontier g hnone hg) rfl
  | proceed hp pending hg => exact hquiet (.proceed hp pending hg) (naming_afterGrowth ..)
  | redirect hsource pending hp hk hg =>
    have hspawned := hs.spawnFor hsource pending.frontier
    exact Numbered.of_carries (h.spawnFor hs hsource _) (k := .working) nofun
      (Step.carries hspawned (.proceed hp pending hg)) (naming_afterGrowth ..)
  | renew hp fresh hfresh => exact hquiet (.renew hp fresh hfresh) (naming_publishBrush ..)
  | openFirst seed =>
    have hopened : { s with table := _, started := true }.Numbered :=
      h.openPane hs (r := .seeded seed s.defaultView) nofun
    exact hopened.settle _
  | openFor hp nodes => exact (h.spawnFor hs hp nodes).settle _
  | unpack d =>
    unfold Session.unpack
    dsimp only
    have hopened := h.openPane hs (r := documentRequest d) nofun
    generalize s.table.openPane (documentRequest d) = r at hopened ⊢
    have hrestored : ({ s with table := r.1 }.modify r.2 fun p =>
        { p with brush := p.brush.replaceState d.brush }).Numbered :=
      hopened.of_carries (k := .working) nofun (Carries.modify fun p _ =>
        Pane.course_withBrush (p.brush.pane_execute (.replaceState d.brush))) rfl
    exact hrestored.settle r.2
  | destroy hdestroy =>
    have hrest : { s with table := _ }.Numbered := PaneTable.Numbered.destroy h hwf hdestroy
    exact hrest.of_carries (k := .working) nofun (Carries.recomputeWatched _)
      (naming_recomputeWatched _)
  | merge hmerge =>
    have hmerged : { s with table := _ }.Numbered := PaneTable.Numbered.merge h hwf hmerge
    exact hmerged.settle _
  | duplicate hduplicate =>
    have hcopied : { s with table := _ }.Numbered := PaneTable.Numbered.duplicate h hwf hduplicate
    exact hcopied.settle _
  | duplicateMany hduplicate =>
    have hcopied : { s with table := _ }.Numbered :=
      PaneTable.Numbered.duplicateMany h hwf hduplicate
    exact List.foldlRecOn (motive := Numbered) _ _ hcopied fun _ hs id _ => hs.settle id
  | highlight hhighlight => exact hquiet (.highlight hhighlight) (naming_highlight hhighlight)
  | mark ids =>
    exact h.of_carries (k := .marking) nofun (Carries.mark s ids) (s.naming_mark ids)
  | unmark ids =>
    exact h.of_carries (k := .marking) nofun (Carries.unmark s ids) (s.naming_unmark ids)
  | propagate => exact hquiet .propagate rfl
  | detect => exact hquiet .detect rfl
  | watch ids => exact hquiet (.watch ids) (naming_recomputeWatched _)
  | unwatch => exact hquiet .unwatch rfl
  | select pane ids =>
    exact h.of_carries (k := .selecting) nofun (Step.carries hs (.select pane ids rfl)) rfl
  | undo hp hq =>
    exact h.of_carries (k := .selecting) nofun (Step.carries hs (.undo hp hq rfl)) rfl
  | redo hp hq =>
    exact h.of_carries (k := .selecting) nofun (Step.carries hs (.redo hp hq rfl)) rfl
  | sync l => exact hquiet (.sync l) rfl
  | brush hp hc hf hstate => exact hquiet (.brush hp hc hf hstate) (naming_publishBrush ..)
  | postpone hp hran => exact hquiet (.postpone hp hran) rfl
  | poll now => exact hquiet (.poll now) (s.naming_pollBrushes now)
  | adjust pane hmode hdetails =>
    exact h.of_carries (k := .viewing) nofun (Step.carries hs (.adjust pane hmode hdetails rfl)) rfl
  | view pane hsync => exact hquiet (.view pane hsync) (naming_publishBrush ..)

/-! ### Requests -/

variable {σ : Type} {backend : Backend (StateM σ)}

theorem Numbered.edit (h : s.Numbered) (pane : PaneId) (e : PaneEdit) :
    (s.modify pane e.apply).Numbered := by
  intro id hid
  obtain ⟨q, hq⟩ := exists_pane?_iff.1 hid
  rcases modify_cases hq with ⟨rfl, p, hp, -⟩ | ⟨-, hp⟩
  all_goals exact h _ (contains_of_pane? hp)

theorem Numbered.serve (h : s.Numbered) (hs : s.Sound) (r : Request) :
    Always Numbered (s.serve backend r) := by
  cases r with
  | session c =>
    exact hs.perform_keeps (fun hs hstep h => h.step hs hstep) h c
  | table c =>
    obtain ⟨rank, hwf⟩ := hs.wellFormed
    exact always_pure (PaneTable.Numbered.perform h hwf c)
  | edit pane e => exact always_pure (h.edit pane e)

/-- **Whatever the requests, no live pane carries a number that is yet to be given out.** -/
theorem Numbered.serveAll (h : s.Numbered) (hs : s.Sound) (requests : List Request) :
    Always Numbered (s.serveAll backend requests) :=
  hs.serveAll_keeps (fun r _ _ hs h => h.serve hs r) h

theorem numbered_vacant (options : SessionOptions) (bus : Bus) : (vacant options bus).Numbered :=
  numbered_of_no_pane fun _ => rfl

end Session

end StateAtlas
