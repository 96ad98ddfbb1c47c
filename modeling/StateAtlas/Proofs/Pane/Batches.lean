import StateAtlas.Proofs.Pane.Removal
/-!
Which table several copies lead to.

While panes are copied one after the other, others are evicted for the copies.  Which ones is known
from the start: the oldest of those that may go, as many as are too many once all copies are made.  So
what the copies are taken from, and what becomes of the other panes, does not depend on the moment at
which each copy is made.

What a pane spawned is left out here.  It changes with every copy, but it can be told from the
spawners of the panes, because the table stays linked.

Main statement: `WellFormed.copies_copySome`.
-/

namespace StateAtlas.PaneTable

variable {t u v : PaneTable} {rank : PaneId → Nat} {sources gone victims protected_ : List PaneId}
  {copies : List (PaneId × PaneId)} {id k : PaneId} {p q : Pane} {n : Nat}

/-! ## Panes but for what they spawned -/

/-- The pane without what it spawned. -/
def childless (p : Pane) : Pane := { p with spawned := {} }

/-- The pane without what it spawned, and without its spawners that are gone. -/
def pruned (gone : List PaneId) (p : Pane) : Pane :=
  { p with spawners := p.spawners.filter fun s => s ∉ gone, spawned := {} }

theorem pruned_nil (p : Pane) : pruned [] p = childless p := by
  simp [pruned, childless]

theorem pruned_pruned (gone gone' : List PaneId) (p : Pane) :
    pruned gone' (pruned gone p) = pruned (gone ++ gone') p := by
  unfold pruned
  rw [filter_notMem_append]

theorem childless_unlinkedFrom (gone : List PaneId) (p : Pane) :
    childless (unlinkedFrom gone p) = pruned gone (childless p) := by
  rw [eq_of_bare_eq (bare_unlinkedFrom gone p), spawners_unlinkedFrom]
  rfl

theorem Removes.map_childless (h : t.Removes gone u) (k : PaneId) :
    (u.pane? k).map childless =
      if k ∈ gone then none else ((t.pane? k).map childless).map (pruned gone) := by
  rw [h.pane?]
  split
  · rfl
  · rw [Option.map_map, Option.map_map]
    congr 1
    funext p
    exact childless_unlinkedFrom gone p

/-- Nothing but its colour tells a copy in which table it was made. -/
theorem copyOf_eq (hwindow : u.brushWindow = t.brushWindow) (id : PaneId) (p : Pane) :
    u.copyOf id p = { t.copyOf id p with color := Naming.color u.live.size } := by
  unfold copyOf build
  rw [hwindow]
  rfl

/-- A copy takes over no children. -/
theorem childless_copyOf (h : childless q = pruned gone p) (id : PaneId) (color : String) :
    childless { t.copyOf id q with color } = pruned gone { t.copyOf id p with color } := by
  have hq : q = { p with spawners := p.spawners.filter fun s => s ∉ gone, spawned := q.spawned } :=
    congrArg (fun r : Pane => { r with spawned := q.spawned }) h
  rw [hq]
  rfl

/-! ## The table while panes are copied -/

/-- What copies made of a table in which other panes were evicted for them; the copies are given as
pairs of a source and its copy. -/
structure Copies (t : PaneTable) (gone : List PaneId) (copies : List (PaneId × PaneId))
    (u : PaneTable) : Prop where
  /-- A copy takes no name that was live, except that of a pane evicted before. -/
  fresh : ∀ c ∈ copies, t.contains c.2 = true → c.2 ∈ gone
  other : ∀ k, k ∉ copies.map Prod.snd → (u.pane? k).map childless =
    if k ∈ gone then none else (t.pane? k).map (pruned gone)
  copy : ∀ c ∈ copies, ∃ p color, t.pane? c.1 = some p ∧
    (u.pane? c.2).map childless = some (pruned gone { t.copyOf c.2 p with color })
  /-- The other panes keep their order on screen. -/
  ids : u.ids.filter (fun k => k ∉ copies.map Prod.snd) = t.ids.filter fun k => k ∉ gone
  created : u.created = t.created.filter (fun k => k ∉ gone) ++ copies.map Prod.snd
  primary : u.primary = t.primary
  naming : u.naming = { t.naming with duplicates := t.naming.duplicates + copies.length }
  nextLease : u.nextLease = t.nextLease
  maxPanes : u.maxPanes = t.maxPanes
  brushWindow : u.brushWindow = t.brushWindow
  /-- No copy is active or announced yet, but the evictions are. -/
  inactive : ∀ c ∈ copies, u.active ≠ some c.2
  bus : u.bus = (gone.map fun k => Event.registry (.paneRemoved k)).foldl Bus.publish t.bus

theorem copies_nil (t : PaneTable) : t.Copies [] [] t := by
  constructor
  case other =>
    intro k _
    rw [if_neg List.not_mem_nil]
    exact congrArg (fun f => (t.pane? k).map f) (funext fun p => (pruned_nil p).symm)
  all_goals simp

/-- While panes are copied others are evicted, but never a copy. -/
theorem Copies.evict (h : t.Copies gone copies u) (hu : u.Linked rank)
    (hevictions : Evictions protected_ u victims v) (hkept : ∀ c ∈ copies, c.2 ∉ victims) :
    t.Copies (gone ++ victims) copies v := by
  have hremoves := hevictions.removes hu
  have hkept' : ∀ k ∈ copies.map Prod.snd, k ∉ victims := by
    intro k hk
    obtain ⟨c, hc, rfl⟩ := List.mem_map.1 hk
    exact hkept c hc
  constructor
  case fresh => exact fun c hc hlive => List.mem_append_left _ (h.fresh c hc hlive)
  case other =>
    intro k hk
    rw [hremoves.map_childless, h.other k hk]
    by_cases hv : k ∈ victims
    · simp [hv]
    by_cases hg : k ∈ gone
    · simp [hg]
    · rw [if_neg hv, if_neg hg, if_neg (by simp [hv, hg]), Option.map_map]
      congr 1
      funext p
      exact pruned_pruned gone victims p
  case copy =>
    intro c hc
    obtain ⟨p, color, hp, hcopy⟩ := h.copy c hc
    refine ⟨p, color, hp, ?_⟩
    rw [hremoves.map_childless, if_neg (hkept c hc), hcopy, Option.map_some, pruned_pruned]
  case ids =>
    rw [hremoves.ids, List.filter_comm, h.ids, filter_notMem_append]
  case created =>
    rw [hremoves.created, h.created, List.filter_append, filter_notMem_append,
      List.filter_eq_self.2 fun k hk => decide_eq_true (hkept' k hk)]
  case primary => exact hremoves.primary.trans h.primary
  case naming => exact hremoves.naming.trans h.naming
  case nextLease => exact hremoves.nextLease.trans h.nextLease
  case maxPanes => exact hremoves.maxPanes.trans h.maxPanes
  case brushWindow => exact hremoves.brushWindow.trans h.brushWindow
  case inactive => exact fun c hc hactive => h.inactive c hc (hevictions.active_of hactive)
  case bus => rw [hevictions.bus_eq hu, h.bus, List.map_append, List.foldl_append]

theorem filter_insertIdx {f : PaneId → Bool} (hid : f id = false) (ids : List PaneId) (i : Nat) :
    (ids.insertIdx i id).filter f = ids.filter f := by
  induction ids generalizing i with
  | nil => cases i <;> simp [hid]
  | cons k ids ih =>
    cases i with
    | zero => rw [List.insertIdx_zero, List.filter_cons_of_neg (by simp [hid])]
    | succ i => rw [List.insertIdx_succ_cons, List.filter_cons, List.filter_cons, ih]

theorem filter_listedAfter {f : PaneId → Bool} (hid : f id = false) (ids : List PaneId)
    (after : Option PaneId) : (listedAfter ids after id).filter f = ids.filter f := by
  unfold listedAfter
  split
  · exact filter_insertIdx hid ids _
  · simp [hid]

/-- A further copy is put in under a new name. -/
theorem Copies.add (h : t.Copies gone copies u) (hu : u.WellFormed rank) {source : PaneId}
    (insert : InsertPolicy) (hsource : source ∉ copies.map Prod.snd) (hp : u.pane? source = some p)
    (hid : ¬u.contains id = true) (hlive : ∀ c ∈ copies, u.contains c.2 = true) :
    let w : PaneTable := { u with
      naming := { u.naming with duplicates := u.naming.duplicates + 1 } }
    t.Copies gone (copies ++ [(source, id)])
      (w.place (w.copyOf id p) (some source) insert) := by
  intro w
  have hne : ∀ c ∈ copies, id ≠ c.2 := by
    rintro c hc rfl
    exact hid (hlive c hc)
  have hnew : id ∉ copies.map Prod.snd := by
    intro hmem
    obtain ⟨c, hc, heq⟩ := List.mem_map.1 hmem
    exact hne c hc heq.symm
  have hpane : ∀ k, ((w.place (w.copyOf id p) (some source) insert).pane? k).map childless =
      if id = k then some (childless (w.copyOf id p)) else (u.pane? k).map childless :=
    map_pane?_place (fun _ _ => rfl) w (w.copyOf id p) (some source) insert
  have hnames : (copies ++ [(source, id)]).map Prod.snd = copies.map Prod.snd ++ [id] := by simp
  constructor
  case fresh =>
    intro c hc hold
    rcases List.mem_append.1 hc with hc | hc
    · exact h.fresh c hc hold
    obtain rfl := List.mem_singleton.1 hc
    -- A pane that was live and is not evicted is still live, so its name is not free.
    by_contra hgone
    have hother := h.other id hnew
    obtain ⟨q, hq⟩ := exists_pane?_iff.1 hold
    rw [if_neg hgone, hq, Option.map_some] at hother
    obtain ⟨r, hr, -⟩ := Option.map_eq_some_iff.1 hother
    exact hid (contains_of_pane? hr)
  case other =>
    intro k hk
    rw [hnames, List.mem_append, List.mem_singleton, not_or] at hk
    rw [hpane, if_neg (Ne.symm hk.2), h.other k hk.1]
  case copy =>
    intro c hc
    rcases List.mem_append.1 hc with hc | hc
    · obtain ⟨q, color, hq, hcopy⟩ := h.copy c hc
      exact ⟨q, color, hq, by rw [hpane, if_neg (hne c hc), hcopy]⟩
    obtain rfl := List.mem_singleton.1 hc
    have hother := h.other source hsource
    rw [hp, Option.map_some] at hother
    split at hother
    · nomatch hother
    · obtain ⟨q, hq, hpruned⟩ := Option.map_eq_some_iff.1 hother.symm
      have hwindow : w.brushWindow = t.brushWindow := h.brushWindow
      refine ⟨q, Naming.color w.live.size, hq, ?_⟩
      rw [hpane, if_pos rfl, copyOf_eq hwindow, childless_copyOf hpruned.symm]
  case ids =>
    have hmem : id ∉ u.ids := fun hmem => hid ((hu.rooted.linked.mem_ids id).1 hmem)
    have hgone : decide (id ∉ copies.map Prod.snd ++ [id]) = false := by simp
    rw [hnames, place_eq]
    refine (filter_listedAfter (f := fun k => k ∉ copies.map Prod.snd ++ [id]) hgone _ _).trans (h.ids ▸ ?_)
    refine List.filter_congr fun k hk => ?_
    simp [ne_of_mem_of_not_mem hk hmem]
  case created =>
    rw [place_eq, hnames, ← List.append_assoc, ← h.created]
    rfl
  case inactive =>
    intro c hc hactive
    rw [active_place] at hactive
    rcases List.mem_append.1 hc with hc | hc
    · exact h.inactive c hc hactive
    · obtain rfl := List.mem_singleton.1 hc
      exact hid (hu.active_live id hactive)
  all_goals rw [place_eq]
  case bus => exact h.bus
  case naming =>
    show ({ u.naming with duplicates := u.naming.duplicates + 1 } : Naming) = _
    rw [h.naming, List.length_append, List.length_singleton, Nat.add_assoc]
  case primary => exact h.primary
  case nextLease => exact h.nextLease
  case maxPanes => exact h.maxPanes
  case brushWindow => exact h.brushWindow

/-! ## How many panes are evicted -/

/-- How many panes are too many once a number of copies is made. -/
def excess (t : PaneTable) (n : Nat) : Nat := if n = 0 then 0 else t.live.size + n - t.maxPanes

/-- The panes that are evicted for a number of copies: the oldest that may go, as many as are too
many. -/
def evicted (t : PaneTable) (sources : List PaneId) (n : Nat) : List PaneId :=
  (t.evictable sources).take (t.excess n)

theorem filter_notMem_take {as : List PaneId} (hnodup : as.Nodup) (n : Nat) :
    as.filter (fun k => k ∉ as.take n) = as.drop n := by
  obtain ⟨-, -, hdisjoint⟩ := List.nodup_append.1 ((List.take_append_drop n as).symm ▸ hnodup)
  conv_lhs => rw [← List.take_append_drop n as, List.filter_append]
  rw [List.filter_eq_nil_iff.2 (by simp), List.nil_append, List.filter_eq_self.2]
  intro k hk
  simpa using fun hmem => hdisjoint k hmem k hk rfl

theorem length_filter_notMem {as bs : List PaneId} (has : as.Nodup) (hbs : bs.Nodup)
    (hsub : bs ⊆ as) : (as.filter fun k => k ∉ bs).length + bs.length = as.length := by
  have hperm : (as.filter fun k => k ∈ bs).Perm bs :=
    (List.perm_ext_iff_of_nodup (has.filter _) hbs).2 fun k => by
      simpa [List.mem_filter] using fun hk => hsub hk
  rw [← hperm.length_eq, List.length_eq_length_filter_add (l := as) fun k => k ∉ bs]
  simp

theorem Linked.nodup_evictable (h : t.Linked rank) : (t.evictable protected_).Nodup :=
  h.nodup_created.filter _

/-- What is evicted was live, and none of it may stay. -/
theorem Linked.of_mem_evicted (h : t.Linked rank) (hk : k ∈ t.evicted sources n) :
    t.contains k = true ∧ t.stays sources k = false :=
  h.mem_evictable.1 (List.take_subset _ _ hk)

theorem Linked.source_notMem_evicted (h : t.Linked rank) (hk : k ∈ sources) :
    k ∉ t.evicted sources n := by
  intro hmem
  have hstays := (h.of_mem_evicted hmem).2
  simp [stays, hk] at hstays

/-- A copy takes no name of a pane that stays. -/
theorem Copies.source_notMem (h : t.Copies (t.evicted sources n) copies u) (ht : t.Linked rank)
    (hk : k ∈ sources) (hlive : t.contains k = true) : k ∉ copies.map Prod.snd := by
  intro hmem
  obtain ⟨c, hc, rfl⟩ := List.mem_map.1 hmem
  exact ht.source_notMem_evicted hk (h.fresh c hc hlive)

/-- Of the panes that may go those are left that were not evicted. -/
theorem Copies.evictable (h : t.Copies (t.evicted sources n) copies u) (ht : t.Linked rank) :
    u.evictable (sources ++ copies.map Prod.snd) = (t.evictable sources).drop (t.excess n) := by
  have hcopies : (copies.map Prod.snd).filter
      (fun k => !u.stays (sources ++ copies.map Prod.snd) k) = [] := by
    refine List.filter_eq_nil_iff.2 fun k hk => ?_
    simp [stays, hk]
  have hold : ∀ k ∈ t.created.filter (fun k => k ∉ t.evicted sources n),
      u.stays (sources ++ copies.map Prod.snd) k = t.stays sources k := by
    intro k hk
    obtain ⟨hk, hstay⟩ := List.mem_filter.1 hk
    have hnot : k ∉ copies.map Prod.snd := by
      intro hmem
      obtain ⟨c, hc, rfl⟩ := List.mem_map.1 hmem
      exact of_decide_eq_true hstay (h.fresh c hc ((ht.mem_created _).1 hk))
    have hcontains : (sources ++ copies.map Prod.snd).contains k = sources.contains k := by
      simp [hnot]
    rw [stays, stays, h.primary, hcontains]
  calc u.evictable (sources ++ copies.map Prod.snd)
      = (t.created.filter fun k => k ∉ t.evicted sources n).filter
          fun k => !u.stays (sources ++ copies.map Prod.snd) k := by
        rw [PaneTable.evictable, h.created, List.filter_append, hcopies, List.append_nil]
    _ = (t.created.filter fun k => k ∉ t.evicted sources n).filter fun k => !t.stays sources k :=
        List.filter_congr fun k hk => by rw [hold k hk]
    _ = (t.evictable sources).filter fun k => k ∉ t.evicted sources n := List.filter_comm ..
    _ = (t.evictable sources).drop (t.excess n) := filter_notMem_take ht.nodup_evictable _

theorem Copies.size (h : t.Copies (t.evicted sources n) copies u) (ht : t.Linked rank)
    {rank' : PaneId → Nat} (hu : u.Linked rank') :
    u.live.size + (t.evicted sources n).length = t.live.size + copies.length := by
  have hnodup : (t.evicted sources n).Nodup :=
    ht.nodup_evictable.sublist (List.take_sublist ..)
  have hlength := length_filter_notMem ht.nodup_created hnodup
    fun k hk => (ht.mem_created k).2 (ht.of_mem_evicted hk).1
  rw [hu.size_eq, ht.size_eq, h.created, List.length_append, List.length_map]
  omega

/-- For one more copy the oldest of those that may still go are evicted. -/
theorem Copies.evicted_succ (h : t.Copies (t.evicted sources copies.length) copies u)
    (ht : t.Linked rank) {rank' : PaneId → Nat} (hu : u.Linked rank') :
    t.evicted sources copies.length ++
        (u.evictable (sources ++ copies.map Prod.snd)).take (u.live.size + 1 - u.maxPanes) =
      t.evicted sources (copies.length + 1) := by
  have hsize := h.size ht hu
  rw [h.evictable ht, h.maxPanes]
  unfold evicted at hsize ⊢
  rw [← List.take_add, List.take_eq_take_iff]
  rw [List.length_take] at hsize
  unfold excess at hsize ⊢
  generalize copies.length = m at hsize ⊢
  by_cases hm : m = 0
  · rw [if_pos hm] at hsize ⊢
    rw [if_neg (Nat.succ_ne_zero m)]
    omega
  · rw [if_neg hm] at hsize ⊢
    rw [if_neg (Nat.succ_ne_zero m)]
    omega

/-! ## The copies of several panes -/

/-- **What copies make of a table**, as far as the order of the copies does not matter: the panes
evicted for them are known from their number. -/
theorem WellFormed.copies_copySome (h : t.WellFormed rank)
    (hsources : ∀ s ∈ sources, t.contains s = true) {chosen : List PaneId} (hchosen : chosen ⊆ sources)
    (hcopies : t.copySome sources chosen = .ok (u, copies)) :
    copies.map Prod.fst = chosen ∧ t.Copies (t.evicted sources copies.length) copies u := by
  have ht := h.rooted.linked
  -- The last copy is made when the others are live: room is made for it, and it is put in.
  induction chosen using List.reverseRecOn generalizing u copies with
  | nil =>
    obtain ⟨rfl, rfl⟩ := Prod.mk.inj (Except.ok.inj hcopies)
    refine ⟨rfl, ?_⟩
    rw [evicted, excess, List.length_nil, if_pos rfl, List.take_zero]
    exact copies_nil t
  | append_singleton chosen source ih =>
    obtain ⟨hchosen, hsource⟩ := List.append_subset.1 hchosen
    obtain ⟨v, done, id, hdone, hcopy, rfl⟩ := copySome_concat_eq_ok.1 hcopies
    obtain ⟨hfst, hv⟩ := ih hchosen hdone
    obtain ⟨rank', hcopying⟩ := h.copySome hsources hchosen hdone
    obtain ⟨hroom, hspared⟩ := hcopying.wellFormed.makeRoom (sources ++ done.map Prod.snd)
    have hlive : ∀ c ∈ done, (v.makeRoom (sources ++ done.map Prod.snd)).contains c.2 = true :=
      fun c hc => hspared.protected_live c.2
        (List.mem_append_right _ (List.mem_map_of_mem hc)) (hcopying.copied.live c hc)
    have hlinked := hcopying.wellFormed.rooted.linked
    have hevictions := hlinked.evictions_makeRoom (sources ++ done.map Prod.snd)
    have hw := hv.evict hlinked hevictions fun c hc =>
      ((hevictions.contains_iff hlinked c.2).1 (hlive c hc)).1
    rw [hv.evicted_succ ht hlinked] at hw
    obtain ⟨p, hp, hcopy⟩ := bind_eq_ok.1 hcopy
    obtain ⟨rfl, rfl⟩ := Prod.mk.inj (Except.ok.inj hcopy)
    have hmem : source ∈ sources := hsource List.mem_cons_self
    refine ⟨by simp [hfst], ?_⟩
    rw [List.length_append, List.length_singleton]
    exact hw.add hroom p.view.insertPolicy
      (hw.source_notMem ht hmem (hsources source hmem)) (get_eq_ok.1 hp)
      (freshName_not_live (v.makeRoom (sources ++ done.map Prod.snd)) _) hlive

end StateAtlas.PaneTable
