import StateAtlas.Proofs.Dictionary
import StateAtlas.Proofs.Pane.Commands
/-!
Which panes are evicted.

Room for a new pane is made by evicting one pane after the other, each time the oldest that is
neither the primary pane nor protected, until one more pane fits or none is left that may go.  Each
eviction takes a pane off the list of those that may go, so the evictions end; the evicted panes are
the first ones of that list, and no more than needed.

The panes of a table are as many as the names in its order of creation, because this lists the live
panes and nothing else.

Main statement: `evicts_oldest`.
-/

namespace StateAtlas.PaneTable

variable {t u v w : PaneTable} {rank : PaneId → Nat} {protected_ victims : List PaneId}
  {id victim : PaneId} {p : Pane}

/-! ## How many panes are live -/

/-- A table that has a pane more has one more pane. -/
theorem size_eq_succ (hid : ¬t.contains id = true)
    (h : ∀ k, u.contains k = true ↔ k = id ∨ t.contains k = true) :
    u.live.size = t.live.size + 1 := by
  have hsize := Dictionary.size_eq_length (d := t.live) t.live.nodup_keys fun k =>
    Dictionary.mem_keys_iff.symm
  rw [hsize, ← List.length_cons (a := id)]
  refine Dictionary.size_eq_length (List.nodup_cons.2 ⟨?_, t.live.nodup_keys⟩) fun k => ?_
  · exact fun hmem => hid (Dictionary.mem_keys_iff.1 hmem)
  · rw [List.mem_cons, Dictionary.mem_keys_iff]
    exact h k

theorem size_congr (h : ∀ k, u.contains k = true ↔ t.contains k = true) :
    u.live.size = t.live.size := by
  have hsize := Dictionary.size_eq_length (d := t.live) t.live.nodup_keys fun k =>
    Dictionary.mem_keys_iff.symm
  rw [hsize]
  exact Dictionary.size_eq_length t.live.nodup_keys fun k =>
    (h k).trans Dictionary.mem_keys_iff.symm

/-- The order of creation lists the live panes, each once. -/
theorem Linked.size_eq (h : t.Linked rank) : t.live.size = t.created.length :=
  Dictionary.size_eq_length h.nodup_created fun id => (h.mem_created id).symm

theorem size_removeOne (hid : t.contains id = true) :
    (t.removeOne id).live.size + 1 = t.live.size := by
  have hgone : ¬(t.removeOne id).contains id = true := fun hmem =>
    ((contains_removeOne t id id).1 hmem).1 rfl
  refine (size_eq_succ hgone fun k => ?_).symm
  rw [contains_removeOne]
  by_cases hk : k = id
  · simp [hk, hid]
  · simp [hk, Ne.symm hk]

/-- Each pane that is removed was one of those that were live. -/
theorem size_foldl_removeOne (hnodup : victims.Nodup)
    (hlive : ∀ id ∈ victims, t.contains id = true) :
    (victims.foldl removeOne t).live.size + victims.length = t.live.size := by
  induction victims generalizing t with
  | nil => rfl
  | cons victim victims ih =>
    obtain ⟨hnot, hnodup⟩ := List.nodup_cons.1 hnodup
    obtain ⟨hvictim, hvictims⟩ := List.forall_mem_cons.1 hlive
    have hrest : ∀ id ∈ victims, (t.removeOne victim).contains id = true := fun id hid =>
      (contains_removeOne ..).2 ⟨Ne.symm (ne_of_mem_of_not_mem hid hnot), hvictims id hid⟩
    have hsize := size_removeOne hvictim
    have hstep := ih hnodup hrest
    rw [List.foldl_cons, List.length_cons]
    omega

/-! ## What one eviction does -/

/-- Whether a pane stays whatever room is needed: it is the primary pane or a protected one. -/
def stays (t : PaneTable) (protected_ : List PaneId) (id : PaneId) : Bool :=
  some id = t.primary || protected_.contains id

/-- The panes that may be evicted, oldest first. -/
def evictable (t : PaneTable) (protected_ : List PaneId) : List PaneId :=
  t.created.filter fun id => !t.stays protected_ id

theorem oldest?_eq_head? (t : PaneTable) (protected_ : List PaneId) :
    t.oldest? protected_ = (t.evictable protected_).head? := by
  unfold evictable oldest? stays
  rw [List.head?_filter]
  congr 1
  funext id
  rw [Bool.not_or, decide_not]

theorem Linked.mem_evictable (h : t.Linked rank) {k : PaneId} :
    k ∈ t.evictable protected_ ↔ t.contains k = true ∧ t.stays protected_ k = false := by
  rw [evictable, List.mem_filter, h.mem_created, Bool.not_eq_true']

theorem maxPanes_remove (t : PaneTable) (victims : List PaneId) (activate : Bool) :
    (t.remove victims activate).1.maxPanes = t.maxPanes := by
  have hone : ∀ (u : PaneTable) id, (u.removeOne id).maxPanes = u.maxPanes := by
    intro u id
    unfold removeOne
    split <;> rfl
  have hall : (victims.foldl removeOne t).maxPanes = t.maxPanes :=
    List.foldlRecOn (motive := fun u => u.maxPanes = t.maxPanes) victims _ rfl
      fun u hu victim _ => (hone u victim).trans hu
  rw [← hall, remove]
  dsimp only
  unfold reactivate
  split
  · rfl
  · split
    · rw [setActive_eq]
    · rfl

theorem Linked.live_of_oldest? (h : t.Linked rank) (hvictim : t.oldest? protected_ = some victim) :
    t.contains victim = true := by
  rw [oldest?_eq_head?] at hvictim
  exact (h.mem_evictable.1 (List.mem_of_mem_head? hvictim)).1

/-- What an eviction does: the oldest pane that may go is no longer among those that may. -/
theorem Linked.evict (h : t.Linked rank) (hvictim : t.oldest? protected_ = some victim) :
    let u := (t.remove [victim] false).1
    u.Linked rank ∧ u.live.size + 1 = t.live.size ∧
      t.evictable protected_ = victim :: u.evictable protected_ ∧
      ∀ k, u.contains k = true ↔ k ≠ victim ∧ t.contains k = true := by
  intro u
  have hlive := h.live_of_oldest? hvictim
  rw [oldest?_eq_head?] at hvictim
  obtain ⟨rest, hrest⟩ := List.head?_eq_some_iff.1 hvictim
  have hsame : (t.removeOne victim).SameLineage u := SameLineage.reactivate (t.removeOne victim) false
  have hcontains : ∀ k, u.contains k = true ↔ k ≠ victim ∧ t.contains k = true := by
    intro k
    rw [hsame.contains, contains_removeOne, ne_comm]
  have hcreated : u.created = t.created.filter fun other => other ≠ victim := by
    rw [hsame.created, PaneTable.removeOne, if_pos hlive]
    rfl
  -- The primary pane is the same, so the same panes are to stay.
  have hstays : u.stays protected_ = t.stays protected_ := by
    unfold stays
    rw [hsame.primary, primary_removeOne]
  refine ⟨h.remove [victim] false, ?size, ?evictable, hcontains⟩
  case size =>
    rw [← size_removeOne hlive]
    exact congrArg (· + 1) (size_congr fun k => by rw [hsame.contains])
  case evictable =>
    have hnodup : (victim :: rest).Nodup := hrest ▸ h.nodup_created.filter _
    have hfilter : u.evictable protected_ =
        (t.evictable protected_).filter fun other => other ≠ victim := by
      unfold evictable
      rw [hcreated, hstays, List.filter_comm]
    rw [hfilter, hrest, List.filter_cons_of_neg (by simp)]
    congr 1
    refine (List.filter_eq_self.2 fun k hk => ?_).symm
    exact decide_eq_true fun heq => (List.nodup_cons.1 hnodup).1 (heq ▸ hk)

/-! ## The evictions that make room -/

/-- Evicting panes one after the other, until one more fits or none is left that may go.  The victims
are listed in the order in which they go. -/
inductive Evictions (protected_ : List PaneId) : PaneTable → List PaneId → PaneTable → Prop
  | fits {t : PaneTable} (hroom : t.live.size < t.maxPanes) : Evictions protected_ t [] t
  | stuck {t : PaneTable} (hfull : ¬t.live.size < t.maxPanes)
      (hnone : t.oldest? protected_ = none) : Evictions protected_ t [] t
  | evict {t u : PaneTable} {victim : PaneId} {victims : List PaneId}
      (hfull : ¬t.live.size < t.maxPanes) (hvictim : t.oldest? protected_ = some victim)
      (hrest : Evictions protected_ (t.remove [victim] false).1 victims u) :
      Evictions protected_ t (victim :: victims) u

theorem evictable_eq_nil_iff : t.evictable protected_ = [] ↔ t.oldest? protected_ = none := by
  rw [oldest?_eq_head?, List.head?_eq_none_iff]

/-- **The evictions end**, and take the first panes of those that may go: as many as are too many, or
all. -/
theorem Linked.evictions_evict (h : t.Linked rank) {n : Nat}
    (hn : (t.evictable protected_).length ≤ n) :
    Evictions protected_ t ((t.evictable protected_).take (t.live.size + 1 - t.maxPanes))
      (PaneTable.evict protected_ n t) := by
  -- Each eviction leaves one pane less that may go, so the bound is never what stops them.
  induction n generalizing t with
  | zero =>
    have hnil : t.evictable protected_ = [] := List.eq_nil_of_length_eq_zero (by omega)
    rw [hnil, List.take_nil]
    by_cases hroom : t.live.size < t.maxPanes
    · exact .fits hroom
    · exact .stuck hroom (evictable_eq_nil_iff.1 hnil)
  | succ n ih =>
    rw [PaneTable.evict]
    split
    next hroom =>
      rw [Nat.sub_eq_zero_of_le (by omega), List.take_zero]
      exact .fits hroom
    next hfull =>
      split
      next victim hvictim =>
        obtain ⟨hlinked, hsize, hevictable, -⟩ := h.evict hvictim
        have hrest := ih hlinked (by rw [hevictable, List.length_cons] at hn; omega)
        rw [maxPanes_remove] at hrest
        have hcount : t.live.size + 1 - t.maxPanes =
            (t.remove [victim] false).1.live.size + 1 - t.maxPanes + 1 := by omega
        rw [hevictable, hcount, List.take_succ_cons]
        exact .evict hfull hvictim hrest
      next hnone =>
        rw [evictable_eq_nil_iff.2 hnone, List.take_nil]
        exact .stuck hfull hnone

theorem Linked.evictions_makeRoom (h : t.Linked rank) (protected_ : List PaneId) :
    Evictions protected_ t
      ((t.evictable protected_).take (t.live.size + 1 - t.maxPanes)) (t.makeRoom protected_) :=
  h.evictions_evict (List.length_filter_le ..)

/-- Of those that may go, all but the victims are left. -/
theorem Evictions.evictable_eq (h : Evictions protected_ t victims u) (hlinked : t.Linked rank) :
    t.evictable protected_ = victims ++ u.evictable protected_ := by
  induction h with
  | fits => rfl
  | stuck => rfl
  | evict hfull hvictim hrest ih =>
    obtain ⟨hlinked', -, hevictable, -⟩ := hlinked.evict hvictim
    rw [hevictable, ih hlinked', List.cons_append]

theorem Linked.evictable_makeRoom (h : t.Linked rank) (protected_ : List PaneId) :
    (t.makeRoom protected_).evictable protected_ =
      (t.evictable protected_).drop (t.live.size + 1 - t.maxPanes) := by
  have hall := (h.evictions_makeRoom protected_).evictable_eq h
  refine List.append_cancel_left (hall.symm.trans ?_)
  exact (List.take_append_drop _ _).symm

/-- Just the victims are gone. -/
theorem Evictions.contains_iff (h : Evictions protected_ t victims u) (hlinked : t.Linked rank)
    (k : PaneId) : u.contains k = true ↔ k ∉ victims ∧ t.contains k = true := by
  induction h with
  | fits => simp
  | stuck => simp
  | evict hfull hvictim hrest ih =>
    obtain ⟨hlinked', -, -, hcontains⟩ := hlinked.evict hvictim
    rw [ih hlinked', hcontains, List.mem_cons, not_or, and_left_comm, and_assoc]

/-- Room for one more pane is made in a table by evicting panes: the shortest part, from its
beginning, of the list of those that may go that leaves room for one more, or all of the list. -/
structure MakesRoom (t : PaneTable) (protected_ victims : List PaneId) (u : PaneTable) : Prop where
  evictions : Evictions protected_ t victims u
  oldest : victims <+: t.evictable protected_
  enough : victims = t.evictable protected_ ∨ u.live.size < t.maxPanes
  /-- Fewer panes would not have been enough. -/
  fewest : ∀ fewer, fewer <+: t.evictable protected_ →
    (fewer.foldl removeOne t).live.size < t.maxPanes → victims.length ≤ fewer.length
  contains_iff : ∀ k, u.contains k = true ↔ k ∉ victims ∧ t.contains k = true

/-- The first panes of those that may go are distinct live panes. -/
theorem Linked.size_foldl_evicted (h : t.Linked rank) (hfirst : victims <+: t.evictable protected_) :
    (victims.foldl PaneTable.removeOne t).live.size + victims.length = t.live.size :=
  size_foldl_removeOne ((h.nodup_created.filter _).sublist hfirst.sublist) fun _ hid =>
    (h.mem_evictable.1 (hfirst.subset hid)).1

/-- **Making room evicts the oldest panes that may go, and no more than needed.** -/
theorem Linked.makesRoom (h : t.Linked rank) (protected_ : List PaneId) :
    ∃ victims, t.MakesRoom protected_ victims (t.makeRoom protected_) := by
  have hevictions := h.evictions_makeRoom protected_
  have hcontains := hevictions.contains_iff h
  have hfirst := List.take_prefix (t.live.size + 1 - t.maxPanes) (t.evictable protected_)
  refine ⟨_, hevictions, hfirst, ?enough, ?fewest, hcontains⟩
  case enough =>
    have hsize : (t.makeRoom protected_).live.size = _ := size_congr fun k =>
      (hcontains k).trans (contains_foldl_removeOne _ t k).symm
    have hleft := h.size_foldl_evicted hfirst
    rcases Nat.le_total (t.evictable protected_).length (t.live.size + 1 - t.maxPanes) with hle | hle
    · exact .inl (List.take_of_length_le hle)
    · refine .inr ?_
      rw [List.length_take_of_le hle] at hleft
      omega
  case fewest =>
    intro fewer hfewer hroom
    have hleft := h.size_foldl_evicted hfewer
    rw [List.length_take]
    omega

/-! ## Opening a pane where room was made -/

/-- A pane is opened in a table in which room was made for it: it takes a free name, all that may not
be evicted stay live, and there are no more panes than allowed, or else only those that may not be
evicted and the new one. -/
structure OpensInRoom (t : PaneTable) (protected_ : List PaneId) (u : PaneTable) (id : PaneId) :
    Prop where
  room : ∃ victims v, t.MakesRoom protected_ victims v ∧ ¬v.contains id = true ∧
    ∀ k, u.contains k = true ↔ k = id ∨ v.contains k = true
  spared : ∀ k, t.contains k = true → t.stays protected_ k = true →
    k ≠ id ∧ u.contains k = true
  size_le : u.live.size ≤ max t.maxPanes (1 + t.live.keys.countP (t.stays protected_))

/-- Where all that may go are gone, those are left that stay. -/
theorem Linked.size_eq_countP (h : t.Linked rank)
    (hcontains : ∀ k, u.contains k = true ↔ k ∉ t.evictable protected_ ∧ t.contains k = true) :
    u.live.size = t.live.keys.countP (t.stays protected_) := by
  rw [List.countP_eq_length_filter]
  refine Dictionary.size_eq_length (t.live.nodup_keys.filter _) fun k => ?_
  rw [← contains, hcontains, h.mem_evictable, List.mem_filter, Dictionary.mem_keys_iff, ← contains]
  cases t.stays protected_ k <;> simp

theorem Linked.opensInRoom (h : t.Linked rank)
    (hid : ¬(t.makeRoom protected_).contains id = true)
    (hu : ∀ k, u.contains k = true ↔ k = id ∨ (t.makeRoom protected_).contains k = true) :
    t.OpensInRoom protected_ u id := by
  obtain ⟨victims, hroom⟩ := h.makesRoom protected_
  refine ⟨⟨victims, _, hroom, hid, hu⟩, fun k hk hstays => ?spared, ?size⟩
  case spared =>
    have hnot : k ∉ victims := fun hmem => by
      rw [(h.mem_evictable.1 (hroom.oldest.subset hmem)).2] at hstays
      exact Bool.false_ne_true hstays
    have hkept : (t.makeRoom protected_).contains k = true := (hroom.contains_iff k).2 ⟨hnot, hk⟩
    refine ⟨?_, (hu k).2 (.inr hkept)⟩
    rintro rfl
    exact hid hkept
  case size =>
    rw [size_eq_succ hid hu]
    rcases hroom.enough with hall | hfits
    · have hleft := h.size_eq_countP fun k => hall ▸ hroom.contains_iff k
      omega
    · omega

/-- Nothing of this depends on more than which panes are live. -/
theorem OpensInRoom.congr (h : t.OpensInRoom protected_ u id)
    (hsame : ∀ k, v.contains k = u.contains k) : t.OpensInRoom protected_ v id := by
  constructor
  case room => simpa only [hsame] using h.room
  case spared => simpa only [hsame] using h.spared
  case size_le =>
    have hsize : v.live.size = u.live.size := size_congr fun k => by rw [hsame k]
    exact hsize ▸ h.size_le

/-- Putting a new pane into a table in which room was made. -/
theorem Linked.opensInRoom_place (h : t.Linked rank) (hw : w.live = (t.makeRoom protected_).live)
    (hp : w.Admits p) (after : Option PaneId) (insert : InsertPolicy) :
    t.OpensInRoom protected_ (w.place p after insert) p.id := by
  have hsame : ∀ k, w.contains k = (t.makeRoom protected_).contains k := fun k =>
    congrArg (fun live => live.contains k) hw
  refine h.opensInRoom (hsame p.id ▸ hp.name_free) fun k => ?_
  rw [contains_place hp, hsame]

/-! ## Commands that make room -/

/-- A pane that was put in is announced and becomes the active one, and no other comes or goes. -/
theorem contains_announced (t : PaneTable) (id k : PaneId) :
    ((t.announce id).setActive id).contains k = t.contains k :=
  ((SameLineage.announce t id).trans (SameLineage.setActive _ id)).contains k

theorem WellFormed.opensInRoom_spawn (h : t.WellFormed rank) {r : SpawnRequest}
    (hspawn : t.spawn r = .ok (u, id)) : t.OpensInRoom r.spawner.toList u id := by
  obtain ⟨hr, hopen⟩ := spawn_eq_ok hspawn
  obtain ⟨-, -, -, hp⟩ := h.named hr
  obtain ⟨naming, hnamed⟩ := h.named_fst r
  have hroom : (t.named r).1.live = (t.makeRoom r.spawner.toList).live := by rw [hnamed]
  rw [openPane_eq] at hopen
  obtain ⟨rfl, rfl⟩ := Prod.mk.inj hopen
  exact (h.rooted.linked.opensInRoom_place hroom hp r.spawner r.insert).congr
    fun k => contains_announced _ _ k

theorem WellFormed.opensInRoom_copy (h : t.WellFormed rank) {source : PaneId}
    (hcopy : t.copy source protected_ = .ok (u, id)) : t.OpensInRoom protected_ u id := by
  obtain ⟨naming, p, -, hadmits, rfl⟩ := h.copy_eq_ok hcopy
  exact h.rooted.linked.opensInRoom_place (w := { t.makeRoom protected_ with naming }) rfl hadmits
    (some source) p.view.insertPolicy

theorem WellFormed.opensInRoom_duplicate (h : t.WellFormed rank) {source : PaneId}
    (hduplicate : t.duplicate source = .ok (u, id)) : t.OpensInRoom [source] u id := by
  obtain ⟨_, -, hduplicate⟩ := bind_eq_ok.1 hduplicate
  obtain ⟨⟨v, new⟩, hcopy, hduplicate⟩ := bind_eq_ok.1 hduplicate
  obtain ⟨rfl, rfl⟩ := Prod.mk.inj (Except.ok.inj hduplicate)
  exact (h.opensInRoom_copy hcopy).congr (contains_announced v new)

theorem WellFormed.opensInRoom_merge (h : t.WellFormed rank) {inputs : List PaneId}
    (hmerge : t.merge inputs true = .ok (u, id)) : t.OpensInRoom inputs.eraseDups u id := by
  obtain ⟨panes, hinputs, -, -, hunion⟩ := merge_eq_ok hmerge
  obtain ⟨hlive, hpanes⟩ := live_of_inputs hinputs
  rw [openUnion_eq] at hunion
  obtain ⟨rfl, rfl⟩ := Prod.mk.inj hunion
  have hp := h.admits_merged (nodup_eraseDups inputs) hlive hpanes true
  exact (h.rooted.linked.opensInRoom_place rfl hp none .atEnd).congr (contains_announced _ _)

/-- Of several panes that are copied, each copy is opened in a table in which room was made for it,
while the sources and the copies made before are protected; and in the end all copies are live. -/
theorem WellFormed.opensInRoom_copies (h : t.WellFormed rank) {sources opened : List PaneId}
    (hduplicate : t.duplicateMany sources = .ok (u, opened)) :
    (∀ id ∈ opened, u.contains id = true) ∧
    ∀ before source after, sources.eraseDups = before ++ source :: after →
      ∃ v copies w id, t.copySome sources before = .ok (v, copies) ∧
        v.copy source (sources ++ copies.map Prod.snd) = .ok (w, id) ∧
        t.copySome sources (before ++ [source]) = .ok (w, copies ++ [(source, id)]) ∧
        v.OpensInRoom (sources ++ copies.map Prod.snd) w id := by
  obtain ⟨hsources, made, copies, hcopies, rfl, rfl⟩ := duplicateMany_eq_ok hduplicate
  constructor
  · obtain ⟨rank', hcopying⟩ := h.copyEach hsources hcopies
    exact fun id hid => hcopying.contains_withCopies hid
  · intro before source after hsplit
    have hbefore : before ⊆ sources := fun s hs =>
      List.mem_eraseDups.1 (hsplit ▸ List.mem_append_left _ hs)
    rw [copyEach_eq_copySome, hsplit, List.append_cons] at hcopies
    obtain ⟨⟨w, upTo⟩, hupTo⟩ := copySome_of_append hcopies
    obtain ⟨v, done, id, hdone, hcopy, rfl⟩ := copySome_concat_eq_ok.1 hupTo
    obtain ⟨rank', hcopying⟩ := h.copySome hsources hbefore hdone
    exact ⟨v, done, w, id, hdone, hcopy, hupTo, hcopying.wellFormed.opensInRoom_copy hcopy⟩

/-- **Which panes are evicted.**  Whatever was done to a table: when a pane is spawned, duplicated or
merged from inputs that are kept, and for every single copy when several panes are copied, the
evictions end; the victims are the oldest panes that are neither primary nor protected, no more of
them than needed for one more pane to fit, or all if that is not enough; the primary pane and the
protected ones, which are the spawner, the source, the inputs, or all sources and the copies made
before, stay live.  In the end there are as many panes as allowed at most, or one more than there are
primary and protected ones.  Every copy that is told of is live. -/
theorem evicts_oldest (maxPanes brushWindow : Nat) (bus : Bus) (actions : List Action) :
    let t := PaneTable.actAll { start maxPanes brushWindow with bus } actions
    (∀ r u id, t.spawn r = .ok (u, id) → t.OpensInRoom r.spawner.toList u id) ∧
    (∀ source u id, t.duplicate source = .ok (u, id) → t.OpensInRoom [source] u id) ∧
    (∀ inputs u id, t.merge inputs true = .ok (u, id) → t.OpensInRoom inputs.eraseDups u id) ∧
    ∀ sources u opened, t.duplicateMany sources = .ok (u, opened) →
      (∀ id ∈ opened, u.contains id = true) ∧
      ∀ before source after, sources.eraseDups = before ++ source :: after →
        ∃ v copies w id, t.copySome sources before = .ok (v, copies) ∧
          v.copy source (sources ++ copies.map Prod.snd) = .ok (w, id) ∧
          t.copySome sources (before ++ [source]) = .ok (w, copies ++ [(source, id)]) ∧
          v.OpensInRoom (sources ++ copies.map Prod.snd) w id := by
  intro t
  obtain ⟨rank, h⟩ := (wellFormed_start maxPanes brushWindow bus fun _ => 0).actAll actions
  exact ⟨fun _ _ _ => h.opensInRoom_spawn, fun _ _ _ => h.opensInRoom_duplicate,
    fun _ _ _ => h.opensInRoom_merge, fun _ _ _ => h.opensInRoom_copies⟩

end StateAtlas.PaneTable
