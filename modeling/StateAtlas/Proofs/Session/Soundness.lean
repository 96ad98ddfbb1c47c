import StateAtlas.Proofs.Pane.Accounting
import StateAtlas.Proofs.Session.Freshness
import StateAtlas.Proofs.Session.Steps
/-!
Sessions whose panes account for what they hold.

Where a session lets the store of a pane grow, the pane is for the moment behind with its account: it
owes the nodes that were added.  What is derived after the growth takes note of them.  All else that
is done to a pane leaves its account alone, so every step of a session keeps its table sound.

The table of a session can also be reached past the session, and so can its panes.  A table stays
sound as long as what is done to a pane that way keeps its links and its account.

Main statement: `Sound.serveAll`.
-/

namespace StateAtlas

open PaneTable

/-! ## Accounts -/

namespace Store

theorem nodeIds_merge (s : Store) (frontier : List NodeId) (g : Fragment) :
    (s.merge frontier g).nodeIds =
      s.nodeIds ++ (Delta.between s (s.merge frontier g)).nodes := s.nodeIds_add g

theorem nodeIds_refresh (s : Store) (fresh : List Node) :
    (s.refresh fresh).nodeIds = s.nodeIds := by
  have horder : (s.tables.refresh fresh).nodeOrder = s.tables.nodeOrder :=
    List.foldlRecOn (motive := fun t : StoreTables => t.nodeOrder = s.tables.nodeOrder) fresh _ rfl
      fun t ht n _ => (StoreTables.nodeOrder_refreshNode n).trans ht
  rw [nodeIds_eq_nodeOrder, nodeIds_eq_nodeOrder]
  exact horder

end Store

namespace Pane

variable {p q : Pane}

/-- A pane's place in the lineage, what it holds and what it noted. -/
def account (p : Pane) : (PaneId × List PaneId × OrderedSet PaneId) × List NodeId ×
    OrderedSet NodeId :=
  (kin p, p.store.nodeIds, p.everAdded)

theorem kin_of_account_eq (h : q.account = p.account) : kin q = kin p := congrArg Prod.fst h

theorem Accounted.of_account_eq (h : p.Accounted) (haccount : q.account = p.account) :
    q.Accounted := by
  obtain ⟨hids, hever⟩ : q.store.nodeIds = p.store.nodeIds ∧ q.everAdded = p.everAdded :=
    Prod.mk.inj (congrArg Prod.snd haccount)
  intro id
  rw [hever, hids]
  exact h id

theorem account_settle (p : Pane) : p.settle.account = p.account :=
  (congrArg account p.still_settle :)

theorem account_select (p : Pane) (ids : List NodeId) : (p.select ids).account = p.account := by
  simp only [select]
  split <;> rfl

theorem account_release (p : Pane) (number : Nat) : (p.release number).account = p.account :=
  (congrArg account (p.still_release number) :)

theorem account_endExpansion (p : Pane) : p.endExpansion.account = p.account :=
  (congrArg account p.still_endExpansion :)

theorem account_withBrush (p : Pane) (b : Brush Float) :
    { p with brush := b }.account = p.account := rfl

/-- Fresh copies of nodes keep the names of the nodes. -/
theorem account_refresh (p : Pane) (fresh : List Node) :
    { p with store := p.store.refresh fresh }.account = p.account :=
  congrArg (fun ids => (kin p, ids, p.everAdded)) (p.store.nodeIds_refresh fresh)

theorem account_beginExpansion {number : Nat} (h : p.beginExpansion number = .ok q) :
    q.account = p.account :=
  (congrArg account (still_beginExpansion h) :)

/-- The pane accounts for what it holds once it notes further nodes. -/
def Owes (p : Pane) (added : List NodeId) : Prop :=
  ∀ id, (p.everAdded.insertMany added).contains id = true ↔ id ∈ p.store.nodeIds

theorem owes_nil : p.Owes [] ↔ p.Accounted := Iff.rfl

/-- A pane that grew owes what was added. -/
theorem Accounted.owes (h : p.Accounted) {added : List NodeId}
    (hgrown : q.account = (kin p, p.store.nodeIds ++ added, p.everAdded)) : q.Owes added := by
  obtain ⟨hids, hever⟩ : q.store.nodeIds = p.store.nodeIds ++ added ∧ q.everAdded = p.everAdded :=
    Prod.mk.inj (congrArg Prod.snd hgrown)
  intro id
  rw [hever, hids, OrderedSet.contains_insertMany, h id, List.mem_append, or_comm]

end Pane

/-! ## Sound sessions -/

namespace Session

variable {s s' : Session} {id pane : PaneId} {p q : Pane} {added : List NodeId}

/-- The table of the session is sound. -/
abbrev Sound (s : Session) : Prop := s.table.Sound

/-- Panes keep their places and account for what they hold. -/
theorem Sound.of_sameLineage (h : s.Sound) (hlineage : s.table.SameLineage s'.table)
    (hactive : s'.table.active = s.table.active) (haccounted : s'.table.Accounted) : s'.Sound := by
  obtain ⟨rank, hwf⟩ := h.wellFormed
  refine ⟨⟨rank, hwf.of_sameLineage hlineage fun id hid => ?_⟩, haccounted⟩
  exact hwf.active_live id (hactive ▸ hid)

theorem Sound.id_pane (h : s.Sound) (hp : s.table.pane? id = some p) : p.id = id := by
  obtain ⟨rank, hwf⟩ := h.wellFormed
  exact hwf.rooted.linked.id_pane hp

/-- A pane may change as long as it keeps its links and accounts for what it holds. -/
theorem Sound.amend (h : s.Sound) {f : Pane → Pane}
    (hkin : ∀ p, s.table.pane? id = some p → kin (f p) = kin p)
    (haccounted : ∀ p, s.table.pane? id = some p → p.Accounted → (f p).Accounted) :
    (s.modify id f).Sound := by
  refine h.of_sameLineage (SameLineage.modify_live hkin) rfl fun k q hq => ?_
  rcases modify_cases hq with ⟨rfl, p, hp, rfl⟩ | ⟨-, hq⟩
  · exact haccounted p hp (h.accounted k p hp)
  · exact h.accounted k q hq

/-- A change that leaves the account of a pane alone. -/
theorem Sound.modify (h : s.Sound) {f : Pane → Pane}
    (hf : ∀ p, s.table.pane? id = some p → (f p).account = p.account) : (s.modify id f).Sound :=
  h.amend (fun p hp => Pane.kin_of_account_eq (hf p hp)) fun p hp ha =>
    ha.of_account_eq (hf p hp)

/-- Another pane with the same account is put in the place of one. -/
theorem Sound.replace (h : s.Sound) (hp : s.table.pane? id = some p)
    (haccount : q.account = p.account) : (s.modify id fun _ => q).Sound := by
  refine h.modify fun p' hp' => ?_
  obtain rfl : p = p' := Option.some.inj (hp.symm.trans hp')
  exact haccount

theorem Sound.modifyAll (h : s.Sound) {f : Pane → Pane} (hf : ∀ p, (f p).account = p.account) :
    (s.modifyAll f).Sound := by
  refine h.of_sameLineage (SameLineage.modifyAll s.table fun p => Pane.kin_of_account_eq (hf p)) rfl
    fun k q hq => ?_
  have hpane : (s.modifyAll f).table.pane? k = (s.table.pane? k).map f := pane?_modifyAll ..
  rw [hpane] at hq
  obtain ⟨p, hp, rfl⟩ := Option.map_eq_some_iff.1 hq
  exact (h.accounted k p hp).of_account_eq (hf p)

theorem Sound.publish (h : s.Sound) (e : Event) : (s.publish e).Sound :=
  h.of_sameLineage (SameLineage.publish s.table e) rfl h.accounted

theorem Sound.warn (h : s.Sound) (pane : Option PaneId) (message : String) :
    (s.warn pane message).Sound :=
  h.publish _

/-! ## Deriving what panes show -/

theorem Sound.syncSelection (h : s.Sound) (l : LinkedSelection Float) :
    (s.syncSelection l).Sound := by
  refine h.modify fun p _ => ?_
  split
  · exact p.account_select l.ids
  · rfl

theorem Sound.publishBrush (h : s.Sound) (id : PaneId) : (s.publishBrush id).Sound := by
  unfold Session.publishBrush
  split
  · exact Sound.syncSelection (h.publish _) _
  · exact h

theorem Sound.applyRecurrence (h : s.Sound) (r : Recurrence) : (s.applyRecurrence r).Sound := by
  refine Sound.publish (h.modifyAll fun p => ?_) _
  rfl

theorem Sound.recomputeWatched (h : s.Sound) : s.recomputeWatched.Sound := by
  unfold Session.recomputeWatched
  split
  · exact h
  · exact h.applyRecurrence _

theorem Sound.reproject (h : s.Sound) (id : PaneId) : (s.reproject id).Sound :=
  Sound.publishBrush (h.modify (f := fun p => p.project s.schema) fun _ _ => rfl) id

/-- Panes keep their places, and one of them may owe nodes to its account. -/
structure Owing (id : PaneId) (added : List NodeId) (s : Session) : Prop where
  wellFormed : ∃ rank, s.table.WellFormed rank
  owes : ∀ {p}, s.table.pane? id = some p → p.Owes added
  others : ∀ {k p}, k ≠ id → s.table.pane? k = some p → p.Accounted

theorem Sound.owing (h : s.Sound) (id : PaneId) : Owing id [] s :=
  ⟨h.wellFormed, fun hp => Pane.owes_nil.2 (h.accounted _ _ hp), fun _ hp => h.accounted _ _ hp⟩

/-- A pane whose store grew owes what was added. -/
theorem Sound.grown (h : s.Sound) {f : Pane → Pane}
    (hf : ∀ p, s.table.pane? id = some p →
      (f p).account = (kin p, p.store.nodeIds ++ added, p.everAdded)) :
    Owing id added (s.modify id f) := by
  obtain ⟨rank, hwf⟩ := h.wellFormed
  have hlineage := SameLineage.modify_live fun p hp =>
    (congrArg Prod.fst (hf p hp) : kin (f p) = kin p)
  refine ⟨⟨rank, hwf.of_sameLineage hlineage hwf.active_live⟩, fun {q} hq => ?_,
    fun {k q} hk hq => ?_⟩
  · rcases modify_cases hq with ⟨-, p, hp, rfl⟩ | ⟨hne, -⟩
    · exact (h.accounted id p hp).owes (hf p hp)
    · exact absurd rfl hne
  · rcases modify_cases hq with ⟨heq, -⟩ | ⟨-, hq⟩
    · exact absurd heq hk
    · exact h.accounted k q hq

theorem account_derived (s : Session) (added : List NodeId) (p : Pane) :
    (s.derived added p).account = (kin p, p.store.nodeIds, p.everAdded.insertMany added) := by
  have hnoted := Pane.account_settle { p with everAdded := p.everAdded.insertMany added }
  unfold Pane.account kin derived Pane.project
  exact hnoted

theorem Owing.derived (h : Owing id added s) : (s.modify id (s.derived added)).Sound := by
  obtain ⟨rank, hwf⟩ := h.wellFormed
  have hlineage := SameLineage.modify s.table id fun p =>
    (congrArg Prod.fst (account_derived s added p) : kin _ = kin p)
  refine ⟨⟨rank, hwf.of_sameLineage hlineage hwf.active_live⟩, fun k q hq => ?_⟩
  rcases modify_cases (s := s) hq with ⟨rfl, p, hp, rfl⟩ | ⟨hne, hq⟩
  · have hnoted : { p with everAdded := p.everAdded.insertMany added }.Accounted := h.owes hp
    exact hnoted.of_account_eq (account_derived s added p)
  · exact h.others hne hq

/-- **What is derived after a pane has grown settles what it owes.** -/
theorem Owing.afterGrowth (h : Owing id added s) : (s.afterGrowth id added).Sound :=
  (h.derived.publishBrush id).recomputeWatched

theorem Sound.settle (h : s.Sound) (id : PaneId) : (s.settle id).Sound := (h.owing id).afterGrowth

theorem Sound.settleEach (h : s.Sound) (ids : List PaneId) : (ids.foldl Session.settle s).Sound :=
  List.foldlRecOn (motive := Sound) ids _ h fun _ hs id _ => hs.settle id

/-! ## Expanding -/

/-- An expansion that was merged leaves a pane that owes what was added. -/
theorem Sound.mergedExpansion (h : s.Sound) (hp : s.table.pane? id = some p)
    (frontier : List NodeId) (g : Fragment) :
    Owing id (Delta.between p.store (p.store.merge frontier g)).nodes
      (s.modify id fun _ => { p with store := p.store.merge frontier g }.endExpansion) := by
  refine h.grown fun p' hp' => ?_
  obtain rfl : p = p' := Option.some.inj (hp.symm.trans hp')
  rw [Pane.account_endExpansion, ← Store.nodeIds_merge]
  rfl

/-- Where only edges were added, nothing is owed. -/
theorem Sound.tiedExpansion (h : s.Sound) (hp : s.table.pane? id = some p)
    {frontier : List NodeId} {g : Fragment}
    (hnone : (Delta.between p.store (p.store.merge frontier g)).nodes = []) :
    (s.modify id fun _ => { p with store := p.store.merge frontier g }.endExpansion).Sound := by
  have hids := p.store.nodeIds_merge frontier g
  rw [hnone, List.append_nil] at hids
  refine h.replace hp ?_
  rw [Pane.account_endExpansion, Pane.account, Pane.account, ← hids]
  rfl

theorem Sound.spawnFor (h : s.Sound) (hp : s.table.pane? pane = some p) (nodes : List NodeId) :
    (s.spawnFor p nodes).1.Sound := by
  refine h.openPane fun spawner hspawner => ?_
  obtain rfl : p.id = spawner := Option.some.inj hspawner
  exact contains_of_pane? (h.id_pane hp ▸ hp)

/-- What was held back and is merged now leaves a pane that owes what was added. -/
theorem Sound.mergedPending (h : s.Sound) (hp : s.table.pane? id = some p) (pending : Pending) :
    Owing id (p.store.apply pending).2.nodes
      (s.modify id fun q => { q with store := (p.store.apply pending).1 }) := by
  refine h.grown fun p' hp' => ?_
  obtain rfl : p = p' := Option.some.inj (hp.symm.trans hp')
  exact congrArg (fun ids => (kin p, ids, p.everAdded)) (Store.nodeIds_apply ..)

theorem Sound.applyPending (h : s.Sound) (hp : s.table.pane? id = some p) (pending : Pending) :
    (s.applyPending p pending).1.Sound := by
  obtain rfl : p.id = id := h.id_pane hp
  exact (h.mergedPending hp pending).afterGrowth

/-! ## Panes that come and go -/

theorem Sound.openFirst (h : s.Sound) (seed : Fragment) : (s.openFirst seed).1.Sound := by
  have hopened : { s with table := _, started := true }.Sound :=
    h.openPane (r := .seeded seed s.defaultView) nofun
  exact hopened.settle _

theorem Sound.teardown (h : s.Sound) : s.teardown.Sound := by
  let cleared : Session := { s with table := s.table.clear.1 }
  have hcleared : cleared.Sound := h.reach fun hwf => hwf.clear
  exact hcleared.of_sameLineage ⟨rfl, rfl, rfl, fun _ => rfl⟩ rfl hcleared.accounted

theorem Sound.unpack (h : s.Sound) (d : PaneDocument) : (s.unpack d).Sound := by
  unfold Session.unpack
  dsimp only
  have hopened : { s with table := (s.table.openPane (documentRequest d)).1 }.Sound :=
    h.openPane nofun
  generalize s.table.openPane (documentRequest d) = r at hopened ⊢
  exact Sound.settle (hopened.modify fun p _ => p.account_withBrush _) r.2

/-! ## Selecting, marking and brushing -/

theorem Sound.undo (h : s.Sound) (hp : s.table.pane? id = some p) (hq : p.undo? = some q) :
    (s.modify id fun _ => q).Sound := by
  obtain ⟨_, -, rfl⟩ := Option.map_eq_some_iff.1 hq
  exact h.replace hp rfl

theorem Sound.redo (h : s.Sound) (hp : s.table.pane? id = some p) (hq : p.redo? = some q) :
    (s.modify id fun _ => q).Sound := by
  obtain ⟨_, -, rfl⟩ := Option.map_eq_some_iff.1 hq
  exact h.replace hp rfl

theorem Sound.propagate (h : s.Sound) : s.propagate.Sound := by
  refine Sound.modifyAll (h.publish _) fun p => ?_
  rfl

theorem Sound.mark (h : s.Sound) (ids : List NodeId) : (s.mark ids).1.Sound := by
  have hmarked : { s with marks := (s.marks.mark ids).1 }.Sound := h
  simp only [Session.mark]
  split
  · exact hmarked
  · exact Sound.propagate (hmarked.publish _)

theorem Sound.unmark (h : s.Sound) (ids : List NodeId) : (s.unmark ids).1.Sound := by
  have hmarked : { s with marks := (s.marks.unmark ids).1 }.Sound := h
  simp only [Session.unmark]
  split
  · exact hmarked
  · exact Sound.propagate (hmarked.publish _)

theorem Sound.withWatched (h : s.Sound) (watched : OrderedSet NodeId) :
    { s with watched := watched }.Sound := h

theorem Sound.clearRecurrence (h : s.Sound) : s.clearRecurrence.Sound := by
  refine Sound.publish (Sound.modifyAll (h.withWatched {}) fun p => ?_) _
  rfl

theorem Sound.modifyBrush (h : s.Sound) (pane : PaneId) (f : Brush Float → Brush Float) :
    (s.modifyBrush pane f).Sound :=
  Sound.modify h fun p _ => p.account_withBrush _

theorem Sound.pollBrushes (h : s.Sound) (now : Nat) : (s.pollBrushes now).1.Sound := by
  have hpolled : (s.modifyAll fun p => { p with brush := (p.brush.poll now).1 }).Sound :=
    h.modifyAll fun p => p.account_withBrush _
  exact List.foldlRecOn (motive := Sound) _ _ hpolled fun _ hs id _ => hs.publishBrush id

theorem Sound.modifyView (h : s.Sound) (pane : PaneId) (f : ViewState → ViewState) :
    (s.modify pane fun p => { p with view := f p.view }).Sound :=
  h.modify (f := fun p => { p with view := f p.view }) fun _ _ => rfl

/-! ## Steps -/

/-- **Every step keeps a session sound.** -/
theorem Sound.step (h : s.Sound) {k : CommandKind} (hstep : s.Step k s') : s'.Sound := by
  cases hstep with
  | warn pane message => exact h.warn pane message
  | load schema => exact h
  | enter => exact h
  | teardown => exact h.teardown
  | lend hp hq =>
    have hlent := h.replace (h.id_pane hp ▸ hp) (Pane.account_beginExpansion hq)
    exact hlent.of_sameLineage ⟨rfl, rfl, rfl, fun _ => rfl⟩ rfl hlent.accounted
  | drop t => exact Sound.modify h fun p _ => p.account_release _
  | abandon pane => exact h.modify fun p _ => p.account_endExpansion
  | withhold hp => exact h.replace hp (Pane.account_endExpansion _)
  | grow hp frontier g => exact (h.mergedExpansion hp frontier g).afterGrowth
  | tie hp frontier g hnone => exact h.tiedExpansion hp hnone
  | proceed hp pending => exact h.applyPending hp pending
  | redirect hsource pending hp => exact (h.spawnFor hsource _).applyPending hp pending
  | renew hp fresh =>
    refine Sound.reproject (h.modify fun p' hp' => ?_) _
    obtain rfl := Option.some.inj (hp.symm.trans hp')
    exact Pane.account_refresh _ fresh
  | openFirst seed => exact h.openFirst seed
  | openFor hp nodes => exact (h.spawnFor hp nodes).settle _
  | unpack d => exact h.unpack d
  | destroy hdestroy => exact Sound.recomputeWatched (h.reach fun hwf => hwf.destroy hdestroy)
  | merge hmerge => exact Sound.settle (PaneTable.Sound.merge h hmerge) _
  | duplicate hduplicate => exact Sound.settle (PaneTable.Sound.duplicate h hduplicate) _
  | duplicateMany hduplicate =>
    exact Sound.settleEach (PaneTable.Sound.duplicateMany h hduplicate) _
  | highlight hhighlight => exact h.reach fun hwf => hwf.highlight hhighlight
  | mark ids => exact h.mark ids
  | unmark ids => exact h.unmark ids
  | propagate => exact h.propagate
  | detect => exact ((h.withWatched _).applyRecurrence _).publish _
  | watch ids => exact (h.withWatched _).recomputeWatched
  | unwatch => exact h.clearRecurrence
  | select pane ids => exact h.modify fun p _ => p.account_select _
  | undo hp hq => exact h.undo hp hq
  | redo hp hq => exact h.redo hp hq
  | sync l => exact h.syncSelection l
  | brush hp hc hf => exact (h.modifyBrush _ _).publishBrush _
  | postpone hp hran => exact h.modifyBrush _ _
  | poll now => exact h.pollBrushes now
  | adjust pane hmode hdetails => exact h.modifyView pane _
  | view pane hsync => exact (h.modifyView pane _).reproject pane

/-- A ticket is given out by a live pane, which changes in what `Pane.still` leaves out only. -/
theorem Sound.beginExpansion_eq_ok (h : s.Sound) {frontier : List NodeId} {t : Ticket}
    (hbegin : s.beginExpansion pane frontier = .ok (s', t)) :
    t.pane = pane ∧ ∃ p q number, s.table.pane? pane = some p ∧ q.still = p.still ∧
      s' = { s with table := { s.table.modify pane (fun _ => q) with nextLease := number } } := by
  obtain ⟨p, hget, hissue⟩ := bind_eq_ok.1 hbegin
  have hp := get_eq_ok.1 hget
  obtain rfl : p.id = pane := h.id_pane hp
  unfold Session.issue at hissue
  split at hissue
  next => nomatch hissue
  obtain ⟨⟨u, lease⟩, hu, hissue⟩ := bind_eq_ok.1 hissue
  obtain ⟨rfl, rfl⟩ := Prod.mk.inj (Except.ok.inj hissue)
  obtain ⟨q, hq, hu⟩ := bind_eq_ok.1 (mapError_eq_ok.1 hu)
  obtain ⟨rfl, rfl⟩ := Prod.mk.inj (Except.ok.inj hu)
  exact ⟨rfl, p, q, _, hp, Pane.still_beginExpansion hq, rfl⟩

end Session

/-! ## Requests -/

/-- A change of one pane in its place, which keeps its links and its account. -/
structure PaneEdit where
  apply : Pane → Pane
  kin_apply : ∀ p, kin (apply p) = kin p
  accounted_apply : ∀ p, p.Accounted → (apply p).Accounted

/-- What can be asked of a session, or past it of its table and panes. -/
inductive Request
  | session (c : SessionCommand)
  | table (c : PaneCommand)
  | edit (pane : PaneId) (e : PaneEdit)

namespace Session

variable {s : Session} {σ : Type} {backend : Backend (StateM σ)}

/-- The session after a request. -/
def serve (backend : Backend (StateM σ)) (s : Session) : Request → StateM σ Session
  | .session c => s.perform backend c
  | .table c => return { s with table := s.table.perform c }
  | .edit pane e => return s.modify pane e.apply

/-- The session after requests, one after the other. -/
def serveAll (backend : Backend (StateM σ)) (s : Session) (requests : List Request) :
    StateM σ Session :=
  requests.foldlM (serve backend) s

theorem Sound.edit (h : s.Sound) (pane : PaneId) (e : PaneEdit) :
    (s.modify pane e.apply).Sound :=
  h.amend (fun p _ => e.kin_apply p) fun p _ => e.accounted_apply p

theorem Sound.serve (h : s.Sound) (r : Request) : Always Sound (s.serve backend r) := by
  cases r with
  | session c => exact always_perform (fun hstep h => h.step hstep) h c
  | table c => exact always_pure (PaneTable.Sound.perform h c)
  | edit pane e => exact always_pure (h.edit pane e)

/-- **Whatever the requests, the table stays sound.** -/
theorem Sound.serveAll (h : s.Sound) (requests : List Request) :
    Always Sound (s.serveAll backend requests) := by
  induction requests generalizing s with
  | nil => exact always_pure h
  | cons r requests ih => exact (h.serve r).bind fun s' hs' => ih hs'

/-- What every step keeps of a sound session, a command keeps. -/
theorem Sound.perform_keeps {I : Session → Prop}
    (hstep : ∀ {k s s'}, s.Sound → Step s k s' → I s → I s') (hs : s.Sound) (h : I s)
    (c : SessionCommand) : Always I (s.perform backend c) := fun env =>
  (always_perform (I := fun s => s.Sound ∧ I s)
    (fun hnext h => ⟨h.1.step hnext, hstep h.1 hnext h.2⟩) ⟨hs, h⟩ c env).2

/-- What each request keeps of a sound session, all of them keep. -/
theorem Sound.serveAll_keeps {I : Session → Prop} {requests : List Request}
    (hserve : ∀ r ∈ requests, ∀ {s : Session}, s.Sound → I s → Always I (s.serve backend r))
    (hs : s.Sound) (h : I s) : Always I (s.serveAll backend requests) := by
  induction requests generalizing s with
  | nil => exact always_pure h
  | cons r requests ih =>
    obtain ⟨hr, hrequests⟩ := List.forall_mem_cons.1 hserve
    exact fun env => ih hrequests (hs.serve r env) (hr hs h env) _

theorem sound_vacant (options : SessionOptions) (bus : Bus) : (vacant options bus).Sound :=
  PaneTable.sound_start options.maxPanes options.brushWindow bus

end Session

end StateAtlas
