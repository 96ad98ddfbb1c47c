import Mathlib.Data.List.DropRight
import StateAtlas.Proofs.Pane.Eviction
import StateAtlas.Proofs.Session.Reopening
import StateAtlas.Proofs.Session.Soundness
/-!
Several documents opened one after the other.

Each document gets a pane under a name of its own, which holds what the document lists for as long
as it is live.  But for each of them room is made anew, and nothing protects the panes that were
opened just before: beside the primary pane only the last few stay, and so of many documents only the
last ones are found in live panes afterwards.

Main statement: `opens_serveAll`.
-/

namespace StateAtlas

open PaneTable

/-! ## Names that count -/

namespace Naming

variable {m n : Nat} {id base : PaneId}

/-- The name carries the number of a spawned pane; behind it more may stand, set off by a dash. -/
def CountedAs (n : Nat) (id : PaneId) : Prop :=
  ∃ rest : List Char, (∀ c ∈ rest.head?, c = '-') ∧
    id.text.toList = "pane-".toList ++ (Nat.toDigits 10 n ++ rest)

/-- The number ends where the dash or the name does. -/
theorem CountedAs.eq (h : CountedAs m id) (h' : CountedAs n id) : m = n := by
  have hdigits : ∀ k (rest : List Char), (∀ c ∈ rest.head?, c = '-') →
      (Nat.toDigits 10 k ++ rest).takeWhile (· ≠ '-') = Nat.toDigits 10 k := by
    intro k rest hrest
    have hdigit : ∀ c ∈ Nat.toDigits 10 k, decide (c ≠ '-') = true := by
      intro c hc
      have hisDigit := Nat.isDigit_of_mem_toDigits (by decide) (by decide) hc
      refine decide_eq_true ?_
      rintro rfl
      exact absurd hisDigit (by decide)
    rw [List.takeWhile_append_of_pos hdigit]
    cases rest with
    | nil => simp
    | cons c rest => simp [hrest c rfl]
  obtain ⟨rest, hrest, htext⟩ := h
  obtain ⟨rest', hrest', htext'⟩ := h'
  have hsame := List.append_cancel_left (htext.symm.trans htext')
  have htoDigits := congrArg (List.takeWhile (· ≠ '-')) hsame
  rw [hdigits m rest hrest, hdigits n rest' hrest'] at htoDigits
  rw [← Nat.ofDigitChars_toDigits (b := 10) (n := m) (by decide) (by decide), htoDigits,
    Nat.ofDigitChars_toDigits (by decide) (by decide)]

theorem countedAs_primary : CountedAs 0 primary := ⟨[], by simp, by decide⟩

theorem countedAs_spawn (naming : Naming) : CountedAs (naming.spawned + 1) naming.spawn.2 := by
  have htext : naming.spawn.2.text = "pane-" ++ (naming.spawned + 1).repr := rfl
  refine ⟨[], by simp, ?_⟩
  rw [htext, String.toList_append, Nat.toList_repr, List.append_nil]

/-- A number that is appended to make a name new stands behind a dash. -/
theorem CountedAs.unique (h : CountedAs n base) (taken : List PaneId) :
    CountedAs n (unique taken base) := by
  have hnumbered : ∀ k, CountedAs n (numbered base k) := by
    intro k
    obtain ⟨rest, hrest, htext⟩ := h
    have hname : (numbered base k).text = base.text ++ ("-" ++ k.repr) := String.append_assoc ..
    refine ⟨rest ++ '-' :: Nat.toDigits 10 k, fun c hc => ?_, ?_⟩
    · cases rest with
      | nil => exact (Option.some.inj hc).symm
      | cons c' rest => exact hrest c hc
    · rw [hname, String.toList_append, String.toList_append, Nat.toList_repr, htext]
      simp only [List.append_assoc]
      rfl
  exact unique_induction h hnumbered taken

end Naming

/-! ## The last ones of a list -/

theorem rtake_append {α : Type} (as bs : List α) (n : Nat) :
    (as ++ bs).rtake n = as.rtake (n - bs.length) ++ bs.rtake n := by
  have hfirst : as.drop (as.length + bs.length - n) = as.drop (as.length - (n - bs.length)) := by
    rcases Nat.le_total n bs.length with hle | hle
    · rw [List.drop_of_length_le (by omega), List.drop_of_length_le (by omega)]
    · congr 1
      omega
  have hsecond : as.length + bs.length - n - as.length = bs.length - n := by omega
  unfold List.rtake
  rw [List.length_append, List.drop_append, hfirst, hsecond]

theorem rtake_rtake_of_le {α : Type} (as : List α) {m n : Nat} (h : m ≤ n) :
    (as.rtake n).rtake m = as.rtake m := by
  unfold List.rtake
  rw [List.drop_drop, List.length_drop]
  rcases Nat.le_total as.length n with hle | hle
  all_goals
    congr 1
    omega

/-- When one comes in behind and the last ones are kept, what was kept for being last before the
others goes first. -/
theorem rtake_concat_eq {α : Type} (old as : List α) (a : α) (n : Nat) :
    ∃ kept, kept ⊆ old ∧
      (old ++ as.rtake (n + 1)).rtake n ++ [a] = kept ++ (as ++ [a]).rtake (n + 1) := by
  refine ⟨old.rtake (n - (as.rtake (n + 1)).length), fun _ => List.mem_of_mem_drop, ?_⟩
  rw [rtake_append, rtake_rtake_of_le as (Nat.le_succ n), List.rtake_concat_succ, List.append_assoc]

/-- In a list without repetitions the elements behind a place are those with a later one. -/
theorem mem_drop_iff {α : Type} {as : List α} (hnodup : as.Nodup) {i k : Nat} {a : α}
    (ha : as[i]? = some a) : a ∈ as.drop k ↔ k ≤ i := by
  constructor
  · intro hmem
    obtain ⟨j, hj⟩ := List.mem_iff_getElem?.1 hmem
    rw [List.getElem?_drop] at hj
    obtain ⟨hlt, -⟩ := List.getElem?_eq_some_iff.1 hj
    have hsame : k + j = i := (List.getElem?_inj hlt hnodup).1 (hj.trans ha.symm)
    omega
  · intro hle
    refine List.mem_iff_getElem?.2 ⟨i - k, ?_⟩
    rw [List.getElem?_drop, Nat.add_sub_cancel' hle, ha]

/-! ## Opening panes that nobody spawned -/

namespace PaneTable

variable {t u : PaneTable} {rank : PaneId → Nat} {root : PaneId} {r : SpawnRequest}

/-- What decides which panes are evicted for a new one and how the new one is called. -/
def roster (t : PaneTable) : List PaneId × Option PaneId × Nat × Naming :=
  (t.created, t.primary, t.maxPanes, t.naming)

theorem evictable_congr (h : u.roster = t.roster) (protected_ : List PaneId) :
    u.evictable protected_ = t.evictable protected_ := by
  simp only [roster, Prod.mk.injEq] at h
  obtain ⟨hcreated, hprimary, -⟩ := h
  unfold evictable stays
  rw [hcreated, hprimary]

theorem roster_announced (t : PaneTable) (id : PaneId) :
    ((t.announce id).setActive id).roster = t.roster := by
  rw [setActive_eq]
  unfold announce
  split <;> rfl

theorem naming_remove (t : PaneTable) (victims : List PaneId) (activate : Bool) :
    (t.remove victims activate).1.naming = t.naming := by
  have hone : ∀ (u : PaneTable) id, (u.removeOne id).naming = u.naming := by
    intro u id
    unfold removeOne
    split <;> rfl
  have hall : (victims.foldl removeOne t).naming = t.naming :=
    List.foldlRecOn (motive := fun u => u.naming = t.naming) victims _ rfl
      fun u hu victim _ => (hone u victim).trans hu
  rw [← hall, remove]
  dsimp only
  unfold reactivate
  split
  · rfl
  · split
    · rw [setActive_eq]
    · rfl

theorem settings_makeRoom (t : PaneTable) (protected_ : List PaneId) :
    (t.makeRoom protected_).maxPanes = t.maxPanes ∧ (t.makeRoom protected_).naming = t.naming :=
  makeRoom_induction (P := fun u => u.maxPanes = t.maxPanes ∧ u.naming = t.naming)
    (fun u victim hu _ => ⟨(maxPanes_remove u [victim] false).trans hu.1,
      (naming_remove u [victim] false).trans hu.2⟩) ⟨rfl, rfl⟩

/-- All panes but the primary one may go. -/
theorem WellFormed.size_eq (h : t.WellFormed rank) (hprimary : t.primary = some root) :
    t.live.size = (t.evictable []).length + 1 := by
  obtain ⟨p, hp, -⟩ := h.rooted.primary_root root hprimary
  have hroot : root ∈ t.created := (h.rooted.linked.mem_created root).2 (contains_of_pane? hp)
  have hothers : t.evictable [] = t.created.erase root := by
    rw [h.rooted.linked.nodup_created.erase_eq_filter]
    refine List.filter_congr fun id _ => ?_
    simp [stays, hprimary, bne, beq_eq_decide]
  have hlength := List.length_pos_of_mem hroot
  rw [h.rooted.linked.size_eq, hothers, List.length_erase_of_mem hroot]
  omega

/-- A pane is live if it is the primary one or may go. -/
theorem WellFormed.contains_iff (h : t.WellFormed rank) {id : PaneId} :
    t.contains id = true ↔ t.primary = some id ∨ id ∈ t.evictable [] := by
  rw [h.rooted.linked.mem_evictable]
  have hstays : t.stays [] id = decide (some id = t.primary) := Bool.or_false _
  rw [hstays, decide_eq_false_iff_not, eq_comm (a := t.primary)]
  constructor
  · intro hlive
    by_cases hroot : some id = t.primary
    · exact .inl hroot
    · exact .inr ⟨hlive, hroot⟩
  · rintro (hroot | ⟨hlive, -⟩)
    · obtain ⟨p, hp, -⟩ := h.rooted.primary_root id hroot.symm
      exact contains_of_pane? hp
    · exact hlive

theorem WellFormed.isEmpty_iff (h : t.WellFormed rank) :
    t.isEmpty = true ↔ t.primary = none := by
  have hsize : t.isEmpty = true ↔ t.live.size = 0 :=
    List.isEmpty_iff.trans List.length_eq_zero_iff.symm
  rw [hsize]
  constructor
  · intro hzero
    cases hprimary : t.primary with
    | none => rfl
    | some root => exact absurd (h.size_eq hprimary) (by omega)
  · intro hnone
    rw [h.rooted.linked.size_eq, h.created_eq_nil hnone]
    rfl

theorem roster_openPane (t : PaneTable) (r : SpawnRequest) :
    (t.openPane r).1.roster = ((t.named r).1.created ++ [(t.named r).2],
        (t.named r).1.primary.or (some (t.named r).2), (t.named r).1.maxPanes,
        (t.named r).1.naming) ∧
      (t.openPane r).2 = (t.named r).2 := by
  rw [openPane_eq]
  refine ⟨(roster_announced _ _).trans ?_, rfl⟩
  unfold roster withRequested
  rw [place_eq]
  rfl

/-- A pane that nobody spawned is opened under a new number.  The first one becomes the primary pane;
a further one leaves of the others, beside the primary pane, only the last ones that leave room for
it. -/
structure Opens (t u : PaneTable) (id : PaneId) : Prop where
  primary : u.primary = t.primary.or (some id)
  evictable : u.evictable [] =
    if t.primary.isNone then [] else (t.evictable []).rtake (t.maxPanes - 2) ++ [id]
  maxPanes : u.maxPanes = t.maxPanes
  spawned_le : t.naming.spawned ≤ u.naming.spawned
  counted : ∃ n, Naming.CountedAs n id ∧ n ≤ u.naming.spawned ∧
    (t.primary ≠ none → t.naming.spawned < n)

theorem Opens.congr {t' u' : PaneTable} {id : PaneId} (h : t.Opens u id)
    (ht : t'.roster = t.roster) (hu : u'.roster = u.roster) : t'.Opens u' id := by
  obtain ⟨hprimary, hevictable, hmaxPanes, hspawned_le, hcounted⟩ := h
  have ht' := evictable_congr ht []
  have hu' := evictable_congr hu []
  simp only [roster, Prod.mk.injEq] at ht hu
  obtain ⟨-, htprimary, htmax, htnaming⟩ := ht
  obtain ⟨-, huprimary, humax, hunaming⟩ := hu
  constructor
  case primary => rw [huprimary, htprimary, hprimary]
  case evictable => rw [hu', ht', htprimary, htmax, hevictable]
  case maxPanes => rw [humax, htmax, hmaxPanes]
  case spawned_le => rwa [hunaming, htnaming]
  case counted => rwa [hunaming, htnaming, htprimary]

theorem WellFormed.opens_first (h : t.WellFormed rank) (hprimary : t.primary = none)
    (r : SpawnRequest) : t.Opens (t.openPane r).1 (t.openPane r).2 := by
  have hcreated := h.created_eq_nil hprimary
  have hnamed : t.named r = (t, Naming.primary) := if_pos (by rw [hprimary]; rfl)
  obtain ⟨hroster, hid⟩ := t.roster_openPane r
  rw [hnamed] at hroster hid
  simp only [roster, hcreated, hprimary, List.nil_append, Option.none_or, Prod.mk.injEq] at hroster
  obtain ⟨hcreated', hprimary', hmaxPanes, hnaming⟩ := hroster
  constructor
  case primary => rw [hprimary', hid, hprimary, Option.none_or]
  case evictable => simp [evictable, stays, hcreated', hprimary', hprimary]
  case maxPanes => exact hmaxPanes
  case spawned_le => rw [hnaming]
  case counted =>
    exact ⟨0, hid ▸ Naming.countedAs_primary, Nat.zero_le _, fun hne => absurd hprimary hne⟩

theorem WellFormed.opens_further (h : t.WellFormed rank) (hprimary : t.primary = some root)
    (hr : r.spawner = none) : t.Opens (t.openPane r).1 (t.openPane r).2 := by
  let v := t.makeRoom []
  have hnamed : t.named r =
      ({ v with naming := v.naming.spawn.1 }, v.freshName v.naming.spawn.2) := by
    unfold PaneTable.named PaneTable.nameSpawned
    rw [if_neg (by simp [hprimary]), hr]
    rfl
  obtain ⟨hv, hspared⟩ := h.makeRoom []
  obtain ⟨hmaxPanes, hnaming⟩ := t.settings_makeRoom []
  have hcounted : Naming.CountedAs (t.naming.spawned + 1) (v.freshName v.naming.spawn.2) :=
    ((congrArg Naming.spawned hnaming ▸ Naming.countedAs_spawn v.naming :)).unique v.live.keys
  have hroot : v.primary = some root := hspared.primary.trans hprimary
  -- The new pane is none of those that were there, in particular not the primary one.
  have hnew : v.freshName v.naming.spawn.2 ≠ root := by
    intro heq
    obtain ⟨p, hp, -⟩ := hv.rooted.primary_root root hroot
    exact freshName_not_live v _ (heq ▸ contains_of_pane? hp)
  obtain ⟨hroster, hid⟩ := t.roster_openPane r
  rw [hnamed] at hroster hid
  simp only [roster, hroot, Option.some_or, Prod.mk.injEq] at hroster
  obtain ⟨hcreated', hprimary', hmaxPanes', hnaming'⟩ := hroster
  have hspawned : (t.openPane r).1.naming.spawned = t.naming.spawned + 1 := by
    rw [hnaming', ← hnaming]
    rfl
  constructor
  case primary => rw [hprimary', hprimary, Option.some_or]
  case evictable =>
    have hevictable : v.evictable [] = (t.evictable []).rtake (t.maxPanes - 2) := by
      rw [h.rooted.linked.evictable_makeRoom, List.rtake, h.size_eq hprimary]
      rcases Nat.lt_or_ge t.maxPanes 2 with hlt | hge
      · rw [List.drop_of_length_le (by omega), List.drop_of_length_le (by omega)]
      · congr 1
        omega
    rw [← hevictable, hid, hprimary]
    simp [evictable, stays, hcreated', hprimary', hroot, List.filter_append, hnew]
  case maxPanes => rw [hmaxPanes', hmaxPanes]
  case spawned_le => rw [hspawned]; exact Nat.le_succ _
  case counted =>
    exact ⟨_, hid ▸ hcounted, Nat.le_of_eq hspawned.symm, fun _ => Nat.lt_succ_self _⟩

theorem WellFormed.opens (h : t.WellFormed rank) (hr : r.spawner = none) :
    t.Opens (t.openPane r).1 (t.openPane r).2 := by
  cases hprimary : t.primary with
  | none => exact h.opens_first hprimary r
  | some root => exact h.opens_further hprimary hr

/-- How many panes are kept beside the primary one when a further one is opened: the new one always
is. -/
def beside (t : PaneTable) : Nat := max (t.maxPanes - 1) 1

theorem beside_eq (t : PaneTable) : t.beside = t.maxPanes - 2 + 1 := by
  unfold beside
  omega

end PaneTable

namespace Session

variable {s : Session} {d : PaneDocument} {docs : List PaneDocument}

/-! ## Opening one document -/

theorem roster_publishBrush (s : Session) (id : PaneId) :
    (s.publishBrush id).table.roster = s.table.roster := by
  unfold Session.publishBrush
  split <;> rfl

theorem roster_afterGrowth (s : Session) (id : PaneId) (added : List NodeId) :
    (s.afterGrowth id added).table.roster = s.table.roster := by
  unfold Session.afterGrowth Session.recomputeWatched
  split
  · exact roster_publishBrush ..
  · exact roster_publishBrush ..

theorem roster_warnMismatches (s : Session) (d : PaneDocument) :
    (s.warnMismatches d).table.roster = s.table.roster := by
  unfold warnMismatches
  split <;> rfl

theorem Sound.warnMismatches (h : s.Sound) (d : PaneDocument) : (s.warnMismatches d).Sound := by
  unfold Session.warnMismatches
  split
  · exact h
  · exact h.warn ..

theorem Sound.openDocument (h : s.Sound) (d : PaneDocument) : (s.openDocument d).1.Sound :=
  openDocument_fst s d ▸ (h.warnMismatches d).unpack d

theorem openDocument_eq (s : Session) (d : PaneDocument) :
    let opened := (s.warnMismatches d).table.openPane (documentRequest d)
    s.openDocument d =
      (({ s.warnMismatches d with table := opened.1 }.modify opened.2 fun p =>
        { p with brush := p.brush.replaceState d.brush }).afterGrowth opened.2 [], opened.2) := by
  simp only [openDocument, settle]

/-- A document is opened as the table opens the pane that it asks for. -/
theorem Sound.opens (h : s.Sound) (d : PaneDocument) :
    s.table.Opens (s.openDocument d).1.table (s.openDocument d).2 := by
  obtain ⟨rank, hwf⟩ := (h.warnMismatches d).wellFormed
  have hopens := hwf.opens (r := documentRequest d) rfl
  rw [openDocument_eq]
  dsimp only
  generalize (s.warnMismatches d).table.openPane (documentRequest d) = opened at hopens ⊢
  exact hopens.congr (s.roster_warnMismatches d).symm (roster_afterGrowth ..)

theorem contents_afterGrowth_of_ne {id k : PaneId} (hk : k ≠ id) (s : Session)
    (added : List NodeId) :
    ((s.afterGrowth id added).table.pane? k).map Pane.contents =
      (s.table.pane? k).map Pane.contents := by
  unfold Session.afterGrowth
  rw [contents_recomputeWatched, contents_publishBrush, pane?_modify_of_ne s hk]

/-- The other panes hold what they held. -/
theorem Sound.store_of_openDocument (h : s.Sound) {k : PaneId} {p : Pane}
    (hk : k ≠ (s.openDocument d).2) (hp : (s.openDocument d).1.table.pane? k = some p) :
    ∃ q, s.table.pane? k = some q ∧ p.store = q.store := by
  obtain ⟨rank, hwf⟩ := (h.warnMismatches d).wellFormed
  obtain ⟨-, hevolves⟩ := hwf.openPane (r := documentRequest d) nofun
  have hwarned : (s.warnMismatches d).table.pane? k = s.table.pane? k := by
    unfold Session.warnMismatches
    split <;> rfl
  rw [openDocument_eq] at hk hp
  dsimp only at hk hp
  generalize (s.warnMismatches d).table.openPane (documentRequest d) = opened at hevolves hk hp
  have hcontents := congrArg (Option.map Pane.contents) hp
  rw [contents_afterGrowth_of_ne hk, pane?_modify_of_ne _ hk] at hcontents
  obtain ⟨q, hq, hsame⟩ := Option.map_eq_some_iff.1 hcontents
  have hstore : q.store = p.store := congrArg Prod.fst hsame
  rcases hevolves.newcomer_or_survivor hq with ⟨hmem, -⟩ | ⟨-, r, hr, hwork⟩
  · exact absurd (List.mem_singleton.1 hmem) hk
  · exact ⟨r, hwarned ▸ hr, hstore.symm.trans (congrArg Pane.store hwork :)⟩

theorem store_openDocument {p : Pane}
    (hp : (s.openDocument d).1.table.pane? (s.openDocument d).2 = some p) :
    p.store = .ofFragment d.fragment := by
  obtain ⟨b, -, hcontents⟩ := s.contents_openDocument d
  rw [hp, Option.map_some] at hcontents
  exact congrArg Prod.fst (Option.some.inj hcontents)

/-! ## Opening one after the other -/

/-- Documents were opened in a session one after the other, and the panes got new numbers.  Of those
that may go the last ones are left, and each pane that is live holds its document. -/
structure Opened (s : Session) (docs : List PaneDocument) (w : Session × List PaneId) : Prop where
  sound : w.1.Sound
  maxPanes : w.1.table.maxPanes = s.table.maxPanes
  primary : w.1.table.primary = s.table.primary.or w.2.head?
  length : w.2.length = docs.length
  counted : ∀ id ∈ w.2, ∃ n, Naming.CountedAs n id ∧ n ≤ w.1.table.naming.spawned
  nodup : w.2.Nodup
  /-- What was the primary pane before is none of them. -/
  other : ∀ root, s.table.primary = some root → root ∉ w.2
  last : ∃ old, (∀ id ∈ old, id ∉ w.2) ∧ w.1.table.evictable [] =
    old ++ (w.2.drop (if s.table.primary.isNone then 1 else 0)).rtake s.table.beside
  store : ∀ x ∈ w.2.zip docs, ∀ p, w.1.table.pane? x.1 = some p → p.store = .ofFragment x.2.fragment

variable {w : Session × List PaneId}

/-- As long as there is no primary pane, no document was opened. -/
theorem Opened.eq_nil (h : s.Opened docs w) (hnone : w.1.table.primary = none) :
    s.table.primary = none ∧ w.2 = [] := by
  rw [h.primary, Option.or_eq_none_iff, List.head?_eq_none_iff] at hnone
  exact hnone

theorem Opened.new_notMem (h : s.Opened docs w) (d : PaneDocument) :
    (w.1.openDocument d).2 ∉ w.2 := by
  intro hmem
  obtain ⟨n, hn, -, hnew⟩ := (h.sound.opens d).counted
  obtain ⟨m, hm, hle⟩ := h.counted _ hmem
  have hprimary : w.1.table.primary ≠ none := fun hnone => by
    rw [(h.eq_nil hnone).2] at hmem
    exact absurd hmem List.not_mem_nil
  have hlt := hnew hprimary
  have heq := hn.eq hm
  omega

/-- A further pane is not the primary one. -/
theorem Opened.new_ne_primary (h : s.Opened docs w) (d : PaneDocument) {root : PaneId}
    (hroot : s.table.primary = some root) : root ≠ (w.1.openDocument d).2 := by
  have hopens := h.sound.opens d
  obtain ⟨rank, hwf⟩ := (h.sound.openDocument d).wellFormed
  have hprimary : w.1.table.primary = some root := by rw [h.primary, hroot, Option.some_or]
  have hmem : (w.1.openDocument d).2 ∈ (w.1.openDocument d).1.table.evictable [] := by
    rw [hopens.evictable, hprimary]
    exact List.mem_append_right _ (List.mem_singleton_self _)
  have hstays := (hwf.rooted.linked.mem_evictable.1 hmem).2
  rintro rfl
  rw [stays, hopens.primary, hprimary] at hstays
  simp at hstays

theorem nodup_evictable (h : s.Sound) : (s.table.evictable []).Nodup := by
  obtain ⟨rank, hwf⟩ := h.wellFormed
  exact hwf.rooted.linked.nodup_created.filter _

/-- Of the panes that may go the last ones are left, the new one behind the others. -/
theorem Opened.last_openNext (h : s.Opened docs w) (d : PaneDocument) :
    ∃ old, (∀ id ∈ old, id ∉ w.2 ++ [(w.1.openDocument d).2]) ∧
      (w.1.openDocument d).1.table.evictable [] =
        old ++ ((w.2 ++ [(w.1.openDocument d).2]).drop
          (if s.table.primary.isNone then 1 else 0)).rtake s.table.beside := by
  have hevictable := (h.sound.opens d).evictable
  have hnodup := nodup_evictable (h.sound.openDocument d)
  generalize w.1.openDocument d = opened at hevictable hnodup ⊢
  cases hprimary : w.1.table.primary with
  | none =>
    obtain ⟨hnone, hnil⟩ := h.eq_nil hprimary
    refine ⟨[], fun _ hid => absurd hid List.not_mem_nil, ?_⟩
    simp [hevictable, hprimary, hnone, hnil, List.rtake_nil]
  | some root =>
    obtain ⟨old, hold, hlast⟩ := h.last
    -- The first pane that was opened may be the primary one, which does not go.
    have hfirst : (if s.table.primary.isNone then 1 else 0) ≤ w.2.length := by
      split
      next hnone =>
        refine List.length_pos_iff.2 fun hnil => ?_
        rw [h.primary, Option.isNone_iff_eq_none.1 hnone, hnil] at hprimary
        exact absurd hprimary (by simp)
      next => exact Nat.zero_le _
    generalize (if s.table.primary.isNone then 1 else 0) = first at hlast hfirst ⊢
    obtain ⟨kept, hkept, hconcat⟩ :=
      rtake_concat_eq old (w.2.drop first) opened.2 (s.table.maxPanes - 2)
    have hlast' : opened.1.table.evictable [] =
        kept ++ ((w.2 ++ [opened.2]).drop first).rtake s.table.beside := by
      rw [beside_eq] at hlast ⊢
      rw [hevictable, hprimary, hlast, h.maxPanes, List.drop_append_of_le_length hfirst, ← hconcat]
      rfl
    refine ⟨kept, fun id hid hmem => ?_, hlast'⟩
    rcases List.mem_append.1 hmem with hopened | hnew
    · exact hold id (hkept hid) hopened
    · -- The name of the new pane stands behind those of the old ones already.
      rw [hlast', List.drop_append_of_le_length hfirst, beside_eq, List.rtake_concat_succ] at hnodup
      exact (List.nodup_append.1 hnodup).2.2 id hid id (List.mem_append_right _ hnew) rfl

theorem Opened.openNext (h : s.Opened docs w) (d : PaneDocument) :
    s.Opened (docs ++ [d]) (Session.openNext w d) := by
  have hopens := h.sound.opens d
  have hsound := h.sound.openDocument d
  have hnew := h.new_notMem d
  have hother : ∀ root, s.table.primary = some root → root ≠ (w.1.openDocument d).2 :=
    fun _ => h.new_ne_primary d
  have hlast := h.last_openNext d
  have hold : ∀ k p, k ≠ (w.1.openDocument d).2 →
      (w.1.openDocument d).1.table.pane? k = some p →
        ∃ q, w.1.table.pane? k = some q ∧ p.store = q.store :=
    fun _ _ hne => h.sound.store_of_openDocument hne
  have hstore : ∀ p, (w.1.openDocument d).1.table.pane? (w.1.openDocument d).2 = some p →
      p.store = .ofFragment d.fragment := fun _ => store_openDocument
  -- How the document was opened makes no difference any more.
  unfold Session.openNext
  generalize w.1.openDocument d = opened at hopens hsound hnew hother hlast hold hstore ⊢
  obtain ⟨s', id⟩ := opened
  dsimp only at hopens hsound hnew hother hlast hold hstore ⊢
  constructor
  case sound => exact hsound
  case maxPanes => exact hopens.maxPanes.trans h.maxPanes
  case primary => rw [hopens.primary, h.primary, List.head?_append, Option.or_assoc, List.head?_cons]
  case length => rw [List.length_append, List.length_append, h.length]; rfl
  case counted =>
    intro k hk
    rcases List.mem_append.1 hk with hbefore | hid
    · obtain ⟨n, hn, hle⟩ := h.counted k hbefore
      exact ⟨n, hn, hle.trans hopens.spawned_le⟩
    · obtain ⟨n, hn, hle, -⟩ := hopens.counted
      exact ⟨n, List.mem_singleton.1 hid ▸ hn, hle⟩
  case nodup =>
    refine List.nodup_append.2 ⟨h.nodup, List.nodup_singleton _, fun k hk k' hk' => ?_⟩
    rw [List.mem_singleton.1 hk']
    exact ne_of_mem_of_not_mem hk hnew
  case other =>
    intro root hroot hmem
    rcases List.mem_append.1 hmem with hbefore | hid
    · exact h.other root hroot hbefore
    · exact hother root hroot (List.mem_singleton.1 hid)
  case last => exact hlast
  case store =>
    intro x hx p hp
    rw [List.zip_append h.length] at hx
    rcases List.mem_append.1 hx with hbefore | hlastly
    · have hne : x.1 ≠ id := ne_of_mem_of_not_mem (List.of_mem_zip hbefore).1 hnew
      obtain ⟨q, hq, hsame⟩ := hold x.1 p hne hp
      exact hsame.trans (h.store x hbefore q hq)
    · obtain rfl := List.mem_singleton.1 hlastly
      exact hstore p hp

theorem Sound.opened (h : s.Sound) (docs : List PaneDocument) :
    s.Opened docs (docs.foldl Session.openNext (s, [])) := by
  induction docs using List.reverseRecOn with
  | nil =>
    refine ⟨h, rfl, by simp, rfl, nofun, List.nodup_nil, nofun, ?_, nofun⟩
    exact ⟨s.table.evictable [], nofun, by simp [List.rtake_nil]⟩
  | append_singleton docs d ih =>
    rw [List.foldl_append]
    exact ih.openNext d

/-- The pane holds the nodes that a document lists, of several with one name the first. -/
structure HoldsJust (p : Pane) (d : PaneDocument) : Prop where
  nodeIds : p.store.nodeIds = (d.nodes.map Node.id).eraseDups
  node? : ∀ id, p.store.node? id = d.nodes.find? fun n => n.id = id

theorem holdsJust_of_store_eq {p : Pane} (h : p.store = .ofFragment d.fragment) : HoldsJust p d where
  nodeIds := h ▸ Store.nodeIds_add_eq .empty d.fragment
  node? id := h ▸ (Store.node?_add .empty d.fragment id).trans (Option.none_or ..)

/-- Documents are opened in panes of different names, one for each and in their order, and a pane that
is live holds the nodes of its document.  The pane of a document is live in the end if it became the
primary pane, or if few enough documents follow.  So all are live just when there are no more
documents than fit beside the primary pane, or one more if there was none before. -/
structure Imports (s : Session) (docs : List PaneDocument) (s' : Session) (ids : List PaneId) :
    Prop where
  length : ids.length = docs.length
  nodup : ids.Nodup
  holds : ∀ x ∈ ids.zip docs, ∀ p, s'.table.pane? x.1 = some p → HoldsJust p x.2
  live_iff : ∀ (i : Nat) (id : PaneId), ids[i]? = some id →
    (s'.table.contains id = true ↔
      (s.table.isEmpty = true ∧ i = 0) ∨ docs.length ≤ i + s.table.beside)
  all_live_iff : (∀ id ∈ ids, s'.table.contains id = true) ↔
    docs.length ≤ (if s.table.isEmpty then 1 else 0) + s.table.beside

theorem Opened.live_iff (h : s.Opened docs w) {i : Nat} {id : PaneId} (hid : w.2[i]? = some id) :
    w.1.table.contains id = true ↔
      (s.table.primary = none ∧ i = 0) ∨ docs.length ≤ i + s.table.beside := by
  obtain ⟨rank, hwf⟩ := h.sound.wellFormed
  obtain ⟨old, hold, hlast⟩ := h.last
  have hmem : id ∈ w.2 := List.mem_of_getElem? hid
  have hnot : id ∉ old := fun hmem' => hold id hmem' hmem
  obtain ⟨hlt, -⟩ := List.getElem?_eq_some_iff.1 hid
  have hpos : 0 < s.table.beside := s.table.beside_eq ▸ Nat.succ_pos _
  rw [hwf.contains_iff, hlast, List.mem_append, or_iff_right hnot, List.rtake, List.drop_drop,
    mem_drop_iff h.nodup hid, List.length_drop, h.primary, ← h.length]
  cases hprimary : s.table.primary with
  | none =>
    have hfirst : w.2.head? = some id ↔ i = 0 := by
      rw [List.head?_eq_getElem?, ← hid, List.getElem?_inj (by omega) h.nodup, eq_comm]
    simp only [Option.none_or, hfirst, Option.isNone_none, if_true, true_and]
    omega
  | some root =>
    have hroot : root ≠ id := fun heq => h.other root hprimary (heq ▸ hmem)
    simp only [Option.some_or, Option.some.injEq, hroot, Option.isNone_some, Bool.false_eq_true,
      if_false, false_or, reduceCtorEq, false_and]
    omega

theorem Opened.imports (h : s.Opened docs w) (hs : s.Sound) :
    s.Imports docs { w.1 with started := true } w.2 := by
  obtain ⟨rank, hwf⟩ := hs.wellFormed
  have hempty : s.table.isEmpty = true ↔ s.table.primary = none := hwf.isEmpty_iff
  have hlive : ∀ (i : Nat) (id : PaneId), w.2[i]? = some id → (w.1.table.contains id = true ↔
      (s.table.isEmpty = true ∧ i = 0) ∨ docs.length ≤ i + s.table.beside) := by
    intro i id hid
    rw [h.live_iff hid, hempty]
  refine ⟨h.length, h.nodup, fun x hx p hp => holdsJust_of_store_eq (h.store x hx p hp), hlive, ?_⟩
  have hall : (∀ id ∈ w.2, w.1.table.contains id = true) ↔ ∀ i < w.2.length,
      (s.table.isEmpty = true ∧ i = 0) ∨ docs.length ≤ i + s.table.beside := by
    constructor
    · intro hids i hi
      exact (hlive i _ (List.getElem?_eq_getElem hi)).1 (hids _ (List.getElem_mem hi))
    · intro hids id hid
      obtain ⟨i, hi⟩ := List.mem_iff_getElem?.1 hid
      obtain ⟨hlt, -⟩ := List.getElem?_eq_some_iff.1 hi
      exact (hlive i id hi).2 (hids i hlt)
  refine hall.trans ?_
  rw [h.length]
  cases s.table.isEmpty with
  | true =>
    constructor
    · intro hids
      by_cases hmany : docs.length ≤ 1
      · exact hmany.trans (Nat.le_add_right 1 _)
      · exact (hids 1 (by omega)).resolve_left (by simp)
    · intro hle i hi
      simp only [if_true, true_and] at hle ⊢
      omega
  | false =>
    constructor
    · intro hids
      by_cases hnone : docs.length = 0
      · omega
      · have hfirst := hids 0 (by omega)
        simpa using hfirst
    · intro hle i hi
      simp only [Bool.false_eq_true, if_false, false_and, false_or] at hle ⊢
      omega

/-- **Importing.**  Whatever was asked of a session, of its table and of its panes, and whatever the
backend answered: documents are opened in as many panes of different names, and a pane that is live
in the end holds just what its document lists.  But every document takes the place of the oldest pane
when the limit is reached, be it that of a document before it, so that all of them are live only if
they fit beside the primary pane. -/
theorem imports_serveAll {σ : Type} (backend : Backend (StateM σ)) (env : σ)
    (options : SessionOptions) (bus : Bus) (requests : List Request) (docs : List PaneDocument) :
    let s := ((vacant options bus).serveAll backend requests env).1
    s.Imports docs (s.openDocuments docs).1 (s.openDocuments docs).2 := by
  intro s
  have hsound : s.Sound := (sound_vacant options bus).serveAll requests env
  exact (hsound.opened docs).imports hsound

/-- Three documents of one state each. -/
def threeDocuments : List PaneDocument :=
  ["a", "b", "c"].map fun name =>
    { version := PaneDocument.supportedVersion
      pane := Naming.primary
      nodes := [{ id := ⟨name⟩, kind := .state }]
      edges := [] }

/-- Where two panes are allowed, the third document takes the place of the second. -/
theorem import_evicts_document :
    let s := vacant ({ maxPanes := 2 } : Config).options {}
    let r := s.openDocuments threeDocuments
    r.2 = [⟨"pane-0"⟩, ⟨"pane-1"⟩, ⟨"pane-2"⟩] ∧ ¬∀ id ∈ r.2, r.1.table.contains id = true := by
  decide +kernel

end Session

end StateAtlas
