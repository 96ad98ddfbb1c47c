import StateAtlas.Proofs.Session.Soundness
/-!
What a session is set up with.

The options of a session, the number of panes that its table allows and the window of its brushes
are given when the session is set up, and nothing changes them.

Main statement: `setup_serveAll`.
-/

namespace StateAtlas

/-! ## Tables -/

namespace PaneTable

variable {t u : PaneTable}

/-- What a table is set up with. -/
def setup (t : PaneTable) : Nat × Nat := (t.maxPanes, t.brushWindow)

@[simp] theorem setup_modify (t : PaneTable) (id : PaneId) (f : Pane → Pane) :
    (t.modify id f).setup = t.setup := rfl

@[simp] theorem setup_modifyAll (t : PaneTable) (f : Pane → Pane) :
    (t.modifyAll f).setup = t.setup := rfl

@[simp] theorem setup_publish (t : PaneTable) (e : Event) :
    (t.publish e).setup = t.setup := rfl

@[simp] theorem setup_setActive (t : PaneTable) (id : PaneId) :
    (t.setActive id).setup = t.setup := by
  rw [setActive_eq]
  rfl

@[simp] theorem setup_announce (t : PaneTable) (id : PaneId) :
    (t.announce id).setup = t.setup := by
  unfold announce
  split <;> rfl

@[simp] theorem setup_place (t : PaneTable) (p : Pane) (after : Option PaneId)
    (insert : InsertPolicy) : (t.place p after insert).setup = t.setup := by
  rw [place_eq]
  rfl

@[simp] theorem setup_reshape (t : PaneTable) (id : PaneId) (f : Geometry → Geometry) :
    (t.reshape id f).setup = t.setup := rfl

theorem setup_foldl {α : Type} {f : PaneTable → α → PaneTable}
    (hf : ∀ t a, (f t a).setup = t.setup) (t : PaneTable) (as : List α) :
    (as.foldl f t).setup = t.setup :=
  List.foldlRecOn (motive := fun u => u.setup = t.setup) as _ rfl
    fun u hu a _ => (hf u a).trans hu

@[simp] theorem setup_remove (t : PaneTable) (victims : List PaneId) (activate : Bool) :
    (t.remove victims activate).1.setup = t.setup := by
  have hone : ∀ (u : PaneTable) id, (u.removeOne id).setup = u.setup := by
    intro u id
    unfold removeOne
    split <;> rfl
  refine Eq.trans ?_ (setup_foldl hone t victims)
  unfold remove reactivate
  dsimp only
  split
  · rfl
  · split
    · exact setup_setActive _ _
    · rfl

@[simp] theorem setup_makeRoom (t : PaneTable) (protected_ : List PaneId) :
    (t.makeRoom protected_).setup = t.setup :=
  makeRoom_induction (P := fun u => u.setup = t.setup)
    (fun u victim hu _ => (setup_remove u [victim] false).trans hu) rfl

theorem setup_named (t : PaneTable) (r : SpawnRequest) : (t.named r).1.setup = t.setup := by
  unfold named
  split
  · rfl
  · exact setup_makeRoom t _

@[simp] theorem setup_openPane (t : PaneTable) (r : SpawnRequest) :
    (t.openPane r).1.setup = t.setup := by
  rw [openPane_eq, setup_setActive, setup_announce, ← setup_named t r]
  exact setup_place _ _ r.spawner r.insert

theorem setup_destroy {id : PaneId} {cascade activate : Bool} {gone : List PaneId}
    (h : t.destroy id cascade activate = .ok (u, gone)) : u.setup = t.setup := by
  obtain ⟨p, -, h⟩ := bind_eq_ok.1 h
  split at h
  next => nomatch h
  next =>
    obtain ⟨rfl, -⟩ := Prod.mk.inj (Except.ok.inj h)
    exact setup_remove t _ _

theorem setup_merge {panes : List PaneId} {keep : Bool} {new : PaneId}
    (h : t.merge panes keep = .ok (u, new)) : u.setup = t.setup := by
  unfold merge at h
  dsimp only at h
  split at h
  next => nomatch h
  next =>
    obtain ⟨ps, -, h⟩ := bind_eq_ok.1 h
    obtain ⟨rfl, -⟩ := Prod.mk.inj (Except.ok.inj h)
    cases keep <;> simp

theorem setup_copy {source new : PaneId} {protected_ : List PaneId}
    (h : t.copy source protected_ = .ok (u, new)) : u.setup = t.setup := by
  obtain ⟨p, -, h⟩ := bind_eq_ok.1 h
  obtain ⟨rfl, -⟩ := Prod.mk.inj (Except.ok.inj h)
  exact (setup_place ..).trans (setup_makeRoom t protected_)

theorem setup_duplicate {source new : PaneId} (h : t.duplicate source = .ok (u, new)) :
    u.setup = t.setup := by
  obtain ⟨p, -, h⟩ := bind_eq_ok.1 h
  obtain ⟨⟨v, copied⟩, hcopy, h⟩ := bind_eq_ok.1 h
  obtain ⟨rfl, -⟩ := Prod.mk.inj (Except.ok.inj h)
  rw [setup_setActive, setup_announce]
  exact setup_copy hcopy

theorem setup_duplicateMany {sources new : List PaneId}
    (h : t.duplicateMany sources = .ok (u, new)) : u.setup = t.setup := by
  obtain ⟨-, v, copies, hcopies, -, rfl⟩ := duplicateMany_eq_ok h
  have hcopied : v.setup = t.setup := by
    refine foldlM_eq_ok (P := fun w => w.1.setup = t.setup) hcopies rfl ?_
    rintro source - ⟨w, done⟩ ⟨w', done'⟩ hw hstep
    obtain ⟨⟨x, copied⟩, hcopy, hstep⟩ := bind_eq_ok.1 hstep
    obtain ⟨rfl, -⟩ := Prod.mk.inj (Except.ok.inj hstep)
    exact (setup_copy hcopy).trans hw
  rw [withCopies_eq]
  exact hcopied

theorem setup_highlight {id : PaneId} (h : t.highlight id = .ok u) :
    u.setup = t.setup := by
  obtain ⟨p, -, h⟩ := bind_eq_ok.1 h
  obtain rfl := Except.ok.inj h
  rw [setup_setActive, setup_reshape]
  exact setup_foldl (fun u other => setup_reshape u other Geometry.collapse) t _

theorem setup_execute {c : PaneCommand} {opened : List PaneId}
    (h : t.execute c = .ok (u, opened)) : u.setup = t.setup := by
  cases c with
  | spawn r =>
    obtain ⟨id, h, -⟩ := opening_eq_ok h
    unfold spawn at h
    split at h
    · obtain ⟨p, -, h⟩ := bind_eq_ok.1 h
      exact congrArg (fun w : PaneTable × PaneId => w.1.setup) (Except.ok.inj h) ▸
        setup_openPane t r
    · exact congrArg (fun w : PaneTable × PaneId => w.1.setup) (Except.ok.inj h) ▸
        setup_openPane t r
  | destroy id cascade activate =>
    obtain ⟨⟨v, removed⟩, hdestroy, h⟩ := bind_eq_ok.1 h
    obtain ⟨rfl, -⟩ := Prod.mk.inj (Except.ok.inj h)
    exact setup_destroy hdestroy
  | merge inputs keep =>
    obtain ⟨id, hmerge, -⟩ := opening_eq_ok h
    exact setup_merge hmerge
  | duplicate source =>
    obtain ⟨id, hduplicate, -⟩ := opening_eq_ok h
    exact setup_duplicate hduplicate
  | duplicateMany sources => exact setup_duplicateMany h
  | activate id =>
    obtain ⟨h, -⟩ := arranging_eq_ok h
    obtain ⟨p, -, h⟩ := bind_eq_ok.1 h
    exact Except.ok.inj h ▸ setup_setActive t id
  | arrange id f =>
    obtain ⟨h, -⟩ := arranging_eq_ok h
    obtain ⟨p, -, h⟩ := bind_eq_ok.1 h
    exact Except.ok.inj h ▸ setup_reshape t id f
  | toggle id =>
    obtain ⟨h, -⟩ := arranging_eq_ok h
    obtain ⟨v, harrange, h⟩ := bind_eq_ok.1 h
    obtain ⟨p, -, harrange⟩ := bind_eq_ok.1 harrange
    obtain rfl := Except.ok.inj harrange
    split at h
    · split at h
      · exact Except.ok.inj h ▸ setup_reshape ..
      · exact Except.ok.inj h ▸ setup_reshape ..
    · exact Except.ok.inj h ▸ setup_reshape ..
  | highlight id =>
    obtain ⟨hhighlight, -⟩ := arranging_eq_ok h
    exact setup_highlight hhighlight
  | clear =>
    obtain ⟨rfl, -⟩ := Prod.mk.inj (Except.ok.inj h)
    exact setup_remove t t.ids.reverse false

theorem setup_perform (t : PaneTable) (c : PaneCommand) :
    (t.perform c).setup = t.setup := by
  unfold PaneTable.perform
  split
  next h => exact setup_execute h
  next => rfl

end PaneTable

/-! ## Sessions -/

namespace Session

open PaneTable

variable {s s' : Session} {k : CommandKind}

/-- What a session is set up with. -/
def setup (s : Session) : SessionOptions × Nat × Nat := (s.options, s.table.setup)

@[simp] theorem setup_modify (s : Session) (id : PaneId) (f : Pane → Pane) :
    (s.modify id f).setup = s.setup := rfl

@[simp] theorem setup_modifyAll (s : Session) (f : Pane → Pane) :
    (s.modifyAll f).setup = s.setup := rfl

@[simp] theorem setup_publish (s : Session) (e : Event) :
    (s.publish e).setup = s.setup := rfl

@[simp] theorem setup_publishBrush (s : Session) (id : PaneId) :
    (s.publishBrush id).setup = s.setup := by
  unfold publishBrush
  split <;> rfl

@[simp] theorem setup_recomputeWatched (s : Session) :
    s.recomputeWatched.setup = s.setup := by
  unfold recomputeWatched
  split <;> rfl

@[simp] theorem setup_afterGrowth (s : Session) (id : PaneId) (added : List NodeId) :
    (s.afterGrowth id added).setup = s.setup := by
  unfold afterGrowth
  rw [setup_recomputeWatched, setup_publishBrush, setup_modify]

@[simp] theorem setup_reproject (s : Session) (id : PaneId) :
    (s.reproject id).setup = s.setup := by
  unfold reproject
  rw [setup_publishBrush, setup_modify]

theorem setup_table {u : PaneTable} (s : Session) (h : u.setup = s.table.setup) :
    { s with table := u }.setup = s.setup := congrArg (Prod.mk s.options) h

theorem setup_openPane (s : Session) (r : SpawnRequest) :
    { s with table := (s.table.openPane r).1 }.setup = s.setup :=
  s.setup_table (PaneTable.setup_openPane s.table r)

theorem setup_foldl {α : Type} {f : Session → α → Session}
    (hf : ∀ s a, (f s a).setup = s.setup) (s : Session) (as : List α) :
    (as.foldl f s).setup = s.setup :=
  List.foldlRecOn (motive := fun s' => s'.setup = s.setup) as _ rfl
    fun s' hs' a _ => (hf s' a).trans hs'

/-- **No step changes what a session is set up with.** -/
theorem setup_step (h : s.Step k s') : s'.setup = s.setup := by
  cases h with
  | load | enter | warn | lend | drop | abandon | withhold | propagate | detect | unwatch |
      select | undo | redo | sync | postpone | adjust | tie => rfl
  | teardown => exact s.setup_table (setup_remove s.table s.table.ids.reverse false)
  | grow => exact setup_afterGrowth ..
  | proceed => exact setup_afterGrowth ..
  | renew => exact setup_reproject ..
  | view => exact setup_reproject ..
  | brush => exact setup_publishBrush ..
  | redirect hsource pending =>
    exact (setup_afterGrowth ..).trans (s.setup_openPane _)
  | openFirst seed =>
    refine (setup_afterGrowth ..).trans ?_
    exact s.setup_openPane (.seeded seed s.defaultView)
  | openFor hp nodes => exact (setup_afterGrowth ..).trans (s.setup_openPane _)
  | unpack d =>
    refine (setup_afterGrowth ..).trans ?_
    exact s.setup_openPane (documentRequest d)
  | destroy h => exact (setup_recomputeWatched _).trans (s.setup_table (setup_destroy h))
  | merge h => exact (setup_afterGrowth ..).trans (s.setup_table (setup_merge h))
  | duplicate h => exact (setup_afterGrowth ..).trans (s.setup_table (setup_duplicate h))
  | duplicateMany h =>
    exact (setup_foldl (fun s id => s.setup_afterGrowth id []) _ _).trans
      (s.setup_table (setup_duplicateMany h))
  | highlight h => exact s.setup_table (setup_highlight h)
  | mark ids =>
    simp only [Session.mark]
    split <;> rfl
  | unmark ids =>
    simp only [Session.unmark]
    split <;> rfl
  | watch ids => exact setup_recomputeWatched (s.addWatched ids)
  | poll now => exact setup_foldl setup_publishBrush _ _

variable {σ : Type} {backend : Backend (StateM σ)} {options : SessionOptions}

/-- **Whatever the requests, a session keeps what it is set up with.** -/
theorem setup_serveAll (backend : Backend (StateM σ)) (s : Session) (requests : List Request) :
    Always (fun s' => s'.setup = s.setup) (s.serveAll backend requests) := by
  suffices h : ∀ s' : Session, s'.setup = s.setup →
      Always (fun s' => s'.setup = s.setup) (s'.serveAll backend requests) from h s rfl
  induction requests with
  | nil => exact fun s' hs' => always_pure hs'
  | cons r requests ih =>
    intro s' hs'
    refine Always.bind ?_ fun s'' hs'' => ih s'' hs''
    cases r with
    | session c => exact always_perform (fun hstep h => (setup_step hstep).trans h) hs' c
    | table c => exact always_pure ((s'.setup_table (setup_perform s'.table c)).trans hs')
    | edit pane e => exact always_pure hs'

end Session

end StateAtlas
