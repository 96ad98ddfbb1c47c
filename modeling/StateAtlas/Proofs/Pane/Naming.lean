import StateAtlas.Pane.Table
/-!
The search for a name that no live pane has.

A name is tried as it is, then with the numbers from two on, for as long as a live pane has what is
tried.  Nothing bounds the search but that the names tried are all different: each round is for
another live pane, so there are no more rounds than live panes.

Main statement: `PaneTable.freshName_settles`.
-/

namespace StateAtlas

/-! ## The names tried -/

namespace Naming

variable {taken : List PaneId} {base : PaneId}

theorem eq_of_numbered_eq {base : PaneId} {m n : Nat} (h : numbered base m = numbered base n) :
    m = n := by
  have htext : (base.text ++ "-" ++ m.repr).toList = (base.text ++ "-" ++ n.repr).toList :=
    congrArg (fun id : PaneId => id.text.toList) h
  simp only [String.toList_append, Nat.toList_repr] at htext
  have hdigits : Nat.toDigits 10 m = Nat.toDigits 10 n := List.append_cancel_left htext
  rw [← Nat.ofDigitChars_toDigits (b := 10) (n := m) (by decide) (by decide), hdigits,
    Nat.ofDigitChars_toDigits (by decide) (by decide)]

theorem numbered_ne (base : PaneId) (n : Nat) : numbered base n ≠ base := by
  intro h
  have htext : base.text ++ "-" ++ n.repr = base.text := congrArg PaneId.text h
  have hlength := congrArg String.length htext
  simp only [String.length_append] at hlength
  have hdash : "-".length = 1 := rfl
  omega

/-- The names tried, in their order: the name itself, then with the numbers from two on. -/
def candidate (base : PaneId) : Nat → PaneId
  | 0 => base
  | k + 1 => numbered base (k + 2)

@[simp] theorem candidate_succ (base : PaneId) (k : Nat) :
    candidate base (k + 1) = numbered base (k + 2) := rfl

theorem candidate_injective (base : PaneId) : Function.Injective (candidate base) := by
  intro j k h
  cases j with
  | zero =>
    cases k with
    | zero => rfl
    | succ k => exact absurd h.symm (numbered_ne base _)
  | succ j =>
    cases k with
    | zero => exact absurd h (numbered_ne base _)
    | succ k =>
      have hnumber : j + 2 = k + 2 := eq_of_numbered_eq h
      omega

/-- Of names tried that are all taken there are no more than taken names, since they are
different. -/
theorem le_length_of_candidates_mem {k : Nat} (h : ∀ j < k, candidate base j ∈ taken) :
    k ≤ taken.length := by
  have hnodup : ((List.range k).map (candidate base)).Nodup :=
    List.pairwise_map.2 (List.nodup_range.imp fun hne heq => hne (candidate_injective base heq))
  have hsub : (List.range k).map (candidate base) ⊆ taken := by
    intro id hid
    obtain ⟨j, hj, rfl⟩ := List.mem_map.1 hid
    exact h j (List.mem_range.1 hj)
  simpa using hnodup.length_le_of_subset hsub

/-- **The name chosen is the first one tried that is not taken.** -/
theorem unique_eq_candidate (taken : List PaneId) (base : PaneId) :
    ∃ k, unique taken base = candidate base k ∧ candidate base k ∉ taken ∧
      ∀ j < k, candidate base j ∈ taken := by
  by_cases hbase : base ∈ taken
  · have htried : ∀ k, (∀ j < k, numbered base (j + 2) ∈ taken) →
        ∀ j < k + 1, candidate base j ∈ taken := by
      intro k h j hj
      cases j with
      | zero => exact hbase
      | succ j => exact h j (by omega)
    unfold unique
    rw [if_pos (List.contains_iff_mem.2 hbase), List.find?_map]
    cases hfind : (List.range (taken.length + 1)).find? _ with
    | some k =>
      obtain ⟨hfree, -, hleast⟩ := List.find?_range_eq_some.1 hfind
      exact ⟨k + 1, rfl, by simpa using hfree, htried k fun j hj => by simpa using hleast j hj⟩
    | none =>
      -- There are more numbers to try than names taken.
      have hall : ∀ j < taken.length + 1, numbered base (j + 2) ∈ taken := by
        intro j hj
        simpa using List.find?_eq_none.1 hfind j (List.mem_range.2 hj)
      have hlength := le_length_of_candidates_mem (htried _ hall)
      omega
  · exact ⟨0, if_neg (mt List.contains_iff_mem.1 hbase), hbase, fun j hj => absurd hj j.not_lt_zero⟩

theorem unique_notMem (taken : List PaneId) (base : PaneId) : unique taken base ∉ taken := by
  obtain ⟨k, hk, hfree, -⟩ := unique_eq_candidate taken base
  rwa [hk]

/-- Whatever a name and its numbered variants have in common, the name chosen has. -/
theorem unique_induction {P : PaneId → Prop} (hbase : P base)
    (hnumbered : ∀ n, P (numbered base n)) (taken : List PaneId) : P (unique taken base) := by
  obtain ⟨k, hk, -, -⟩ := unique_eq_candidate taken base
  rw [hk]
  cases k with
  | zero => exact hbase
  | succ k => exact hnumbered (k + 2)

end Naming

/-! ## The search -/

namespace PaneTable

open Naming

variable {t : PaneTable} {base id : PaneId} {n : Nat}

/-- A search for a name that no live pane has, with a name and a number at hand: how many more
rounds it takes, and the name it ends with.  While a live pane has the name, the next number is
appended to the name that was asked for. -/
inductive Settles (t : PaneTable) (base : PaneId) : PaneId → Nat → Nat → PaneId → Prop
  | free {id : PaneId} {n : Nat} (hfree : t.contains id = false) : Settles t base id n 0 id
  | round {id : PaneId} {n rounds : Nat} {found : PaneId} (hlive : t.contains id = true)
      (hrest : Settles t base (numbered base (n + 1)) (n + 1) rounds found) :
      Settles t base id n (rounds + 1) found

/-- A search takes one course only. -/
theorem Settles.functional {r r' : Nat} {found found' : PaneId}
    (h : t.Settles base id n r found) (h' : t.Settles base id n r' found') :
    r' = r ∧ found' = found := by
  induction h generalizing r' with
  | free hfree =>
    cases h' with
    | free => exact ⟨rfl, rfl⟩
    | round hlive => exact absurd (hfree.symm.trans hlive) (by decide)
  | round hlive _ ih =>
    cases h' with
    | free hfree => exact absurd (hfree.symm.trans hlive) (by decide)
    | round _ hrest =>
      obtain ⟨rfl, rfl⟩ := ih hrest
      exact ⟨rfl, rfl⟩

/-- The search goes through the names to be tried up to the first one that is free. -/
theorem settles_candidate (t : PaneTable) (base : PaneId) (rounds start : Nat)
    (htaken : ∀ j < rounds, t.contains (candidate base (start + j)) = true)
    (hfree : t.contains (candidate base (start + rounds)) = false) :
    t.Settles base (candidate base start) (start + 1) rounds (candidate base (start + rounds)) := by
  induction rounds generalizing start with
  | zero => exact .free hfree
  | succ rounds ih =>
    have hnext : start + (rounds + 1) = start + 1 + rounds := by omega
    rw [hnext] at hfree ⊢
    refine .round (htaken 0 (by omega)) (ih (start + 1) (fun j hj => ?_) hfree)
    have hj := htaken (j + 1) (by omega)
    rwa [show start + (j + 1) = start + 1 + j by omega] at hj

/-- **The search for a name comes to an end, with the least number that makes the name new.**  In
any table and from any name, it takes at most as many rounds as there are live panes, and has no
other course.  No live pane has the name it ends with: that is the name itself if no live pane has
it, and otherwise the name with the least number from two on with which no live pane has it. -/
theorem freshName_settles (t : PaneTable) (base : PaneId) :
    (∃ rounds ≤ t.live.size, t.Settles base base 1 rounds (t.freshName base) ∧
      ∀ rounds' found, t.Settles base base 1 rounds' found →
        rounds' = rounds ∧ found = t.freshName base) ∧
    t.contains (t.freshName base) = false ∧
    (t.contains base = false → t.freshName base = base) ∧
    (t.contains base = true → ∃ n ≥ 2, t.freshName base = numbered base n ∧
      ∀ m, 2 ≤ m → m < n → t.contains (numbered base m) = true) := by
  obtain ⟨k, hname, hfree, htaken⟩ := unique_eq_candidate t.live.keys base
  have hlive : ∀ j < k, t.contains (candidate base j) = true :=
    fun j hj => Dictionary.mem_keys_iff.1 (htaken j hj)
  have hfresh : t.contains (candidate base k) = false :=
    Bool.eq_false_iff.2 (mt Dictionary.mem_keys_iff.2 hfree)
  -- The search tries one candidate after the other, up to the first that is free.
  have hsearch : t.Settles base base 1 k (candidate base k) := by
    have hsteps := t.settles_candidate base k 0
    simp only [Nat.zero_add] at hsteps
    exact hsteps hlive hfresh
  have hrounds : k ≤ t.live.size := by
    have hlength := le_length_of_candidates_mem htaken
    rwa [Dictionary.keys, List.length_map] at hlength
  rw [freshName, hname]
  refine ⟨⟨k, hrounds, hsearch, fun _ _ => hsearch.functional⟩, hfresh, fun hbase => ?_,
    fun hbase => ?_⟩
  · exact (hsearch.functional (.free hbase)).2.symm
  · cases k with
    | zero => exact absurd (hfresh.symm.trans hbase) (by decide)
    | succ k =>
      refine ⟨k + 2, by omega, rfl, fun m hm hmk => ?_⟩
      obtain ⟨j, rfl⟩ := Nat.exists_eq_add_of_le' hm
      exact hlive (j + 1) (by omega)

end PaneTable

end StateAtlas
