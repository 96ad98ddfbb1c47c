import StateAtlas.Proofs.Pane.Procedures
/-!
Which operations on panes are refused, and what is left then.

An operation is refused if it names a pane that is not live, if it is to close the primary pane, or if
it merges fewer than two distinct panes; and for no other reason, because whatever it looks up later
on is still there.  The table is then as it was.

Main statement: `refused_changes_nothing`.
-/

namespace StateAtlas

/-! ## What is refused -/

namespace PaneCommand

/-- The panes that a command names. -/
def names : PaneCommand → List PaneId
  | .spawn r => r.spawner.toList
  | .merge inputs _ => inputs
  | .duplicateMany sources => sources
  | .destroy id _ _ | .duplicate id | .activate id | .arrange id _ | .toggle id | .highlight id => [id]
  | .clear => []

/-- The panes that a command is to close by name. -/
def closes : PaneCommand → List PaneId
  | .destroy id _ _ => [id]
  | .merge inputs false => inputs
  | _ => []

/-- Whether a command merges fewer than two distinct panes. -/
def mergesTooFew : PaneCommand → Bool
  | .merge inputs _ => inputs.eraseDups.length < 2
  | _ => false

end PaneCommand

namespace PaneTable

variable {t u : PaneTable} {rank : PaneId → Nat}

/-- Whether a table permits a command: the panes that it names are live, it does not close the primary
pane, and it does not merge fewer than two. -/
structure Permits (t : PaneTable) (c : PaneCommand) : Prop where
  names_live : ∀ id ∈ c.names, t.contains id = true
  primary_kept : ∀ id ∈ c.closes, t.primary ≠ some id
  enough : c.mergesTooFew = false

theorem exists_get_eq_ok_iff {id : PaneId} : (∃ p, t.get id = .ok p) ↔ t.contains id = true := by
  simp only [get_eq_ok, exists_pane?_iff]

/-- What goes on from a pane that was looked up is refused just if the pane is not live. -/
theorem exists_get_bind_eq_ok_iff {α : Type} {id : PaneId} {f : Pane → Except PaneError α}
    (hf : t.contains id = true → ∀ p, ∃ r, f p = .ok r) :
    (∃ r, (t.get id >>= f) = .ok r) ↔ t.contains id = true := by
  constructor
  · rintro ⟨r, hr⟩
    obtain ⟨p, hp, -⟩ := bind_eq_ok.1 hr
    exact exists_get_eq_ok_iff.1 ⟨p, hp⟩
  · intro hid
    obtain ⟨p, hp⟩ := exists_get_eq_ok_iff.2 hid
    obtain ⟨r, hr⟩ := hf hid p
    exact ⟨r, bind_eq_ok.2 ⟨p, hp, hr⟩⟩

/-- What an operation is made to tell is no reason to refuse it. -/
theorem exists_bind_eq_ok_iff {α β : Type} {x : Except PaneError α} {f : α → Except PaneError β}
    (hf : ∀ a, ∃ b, f a = .ok b) : (∃ b, (x >>= f) = .ok b) ↔ ∃ a, x = .ok a := by
  constructor
  · rintro ⟨b, hb⟩
    obtain ⟨a, ha, -⟩ := bind_eq_ok.1 hb
    exact ⟨a, ha⟩
  · rintro ⟨a, ha⟩
    obtain ⟨b, hb⟩ := hf a
    exact ⟨b, bind_eq_ok.2 ⟨a, ha, hb⟩⟩

theorem exists_spawn_eq_ok_iff {r : SpawnRequest} :
    (∃ x, t.spawn r = .ok x) ↔ ∀ s ∈ r.spawner.toList, t.contains s = true := by
  unfold spawn
  cases r.spawner with
  | none => simp
  | some spawner =>
    rw [Option.toList_some, List.forall_mem_singleton]
    exact exists_get_bind_eq_ok_iff fun _ _ => ⟨_, rfl⟩

theorem exists_destroy_eq_ok_iff {id : PaneId} {cascade activate : Bool} :
    (∃ x, t.destroy id cascade activate = .ok x) ↔
      t.contains id = true ∧ t.primary ≠ some id := by
  constructor
  · rintro ⟨x, hx⟩
    obtain ⟨p, hp, hx⟩ := bind_eq_ok.1 hx
    refine ⟨exists_get_eq_ok_iff.1 ⟨p, hp⟩, fun hprimary => ?_⟩
    rw [if_pos hprimary] at hx
    nomatch hx
  · rintro ⟨hid, hprimary⟩
    exact ⟨_, destroy_of_live hid hprimary cascade activate⟩

theorem exists_mergeInput_eq_ok_iff {keep : Bool} {id : PaneId} :
    (∃ p, t.mergeInput keep id = .ok p) ↔
      t.contains id = true ∧ (keep = false → t.primary ≠ some id) := by
  constructor
  · rintro ⟨p, hp⟩
    obtain ⟨hlive, hprimary⟩ := mergeInput_eq_ok hp
    exact ⟨contains_of_pane? hlive, hprimary⟩
  · rintro ⟨hid, hprimary⟩
    refine (exists_get_bind_eq_ok_iff fun _ p => ⟨p, ?_⟩).2 hid
    exact if_neg fun hcond => hprimary hcond.1 hcond.2

theorem exists_merge_eq_ok_iff {inputs : List PaneId} {keep : Bool} :
    (∃ x, t.merge inputs keep = .ok x) ↔ ¬inputs.eraseDups.length < 2 ∧
      ∀ id ∈ inputs, t.contains id = true ∧ (keep = false → t.primary ≠ some id) := by
  unfold merge
  dsimp only
  split
  next hfew => exact iff_of_false (fun ⟨x, hx⟩ => nomatch hx) fun h => h.1 hfew
  next hfew =>
    rw [and_iff_right hfew]
    refine (exists_bind_eq_ok_iff fun panes => ⟨_, rfl⟩).trans ?_
    rw [exists_mapM_eq_ok_iff]
    simp only [List.mem_eraseDups, exists_mergeInput_eq_ok_iff]

theorem WellFormed.exists_duplicate_eq_ok_iff (h : t.WellFormed rank) {source : PaneId} :
    (∃ x, t.duplicate source = .ok x) ↔ t.contains source = true := by
  refine exists_get_bind_eq_ok_iff fun hsource p => ?_
  obtain ⟨u, id, hcopy⟩ := h.exists_copy hsource (List.mem_singleton_self source)
  exact ⟨_, bind_eq_ok.2 ⟨(u, id), hcopy, rfl⟩⟩

theorem WellFormed.exists_duplicateMany_eq_ok_iff (h : t.WellFormed rank) {sources : List PaneId} :
    (∃ x, t.duplicateMany sources = .ok x) ↔ ∀ s ∈ sources, t.contains s = true := by
  constructor
  · rintro ⟨⟨u, opened⟩, hx⟩
    exact (duplicateMany_eq_ok hx).1
  · intro hsources
    obtain ⟨v, copies, -, hduplicate⟩ := h.exists_duplicateMany hsources
    exact ⟨_, hduplicate⟩

theorem exists_arrange_eq_ok_iff {id : PaneId} {f : Geometry → Geometry} :
    (∃ u, t.arrange id f = .ok u) ↔ t.contains id = true :=
  exists_get_bind_eq_ok_iff fun _ _ => ⟨_, rfl⟩

theorem exists_toggle_eq_ok_iff {id : PaneId} :
    (∃ u, t.toggle id = .ok u) ↔ t.contains id = true := by
  refine Iff.trans (exists_bind_eq_ok_iff fun u => ?_) exists_arrange_eq_ok_iff
  split
  · split
    · exact ⟨_, rfl⟩
    · exact ⟨_, rfl⟩
  · exact ⟨_, rfl⟩

/-- A command that closes no pane by name and merges none is permitted if the panes are live. -/
theorem permits_iff_of_names {c : PaneCommand} (hcloses : c.closes = [])
    (hmerges : c.mergesTooFew = false) :
    t.Permits c ↔ ∀ id ∈ c.names, t.contains id = true := by
  refine ⟨Permits.names_live, fun hlive => ⟨hlive, fun id hid => ?_, hmerges⟩⟩
  rw [hcloses] at hid
  exact absurd hid List.not_mem_nil

theorem permits_iff_of_name {c : PaneCommand} {id : PaneId} (hnames : c.names = [id])
    (hcloses : c.closes = []) (hmerges : c.mergesTooFew = false) :
    t.Permits c ↔ t.contains id = true := by
  rw [permits_iff_of_names hcloses hmerges, hnames, List.forall_mem_singleton]

theorem permits_merge_iff {inputs : List PaneId} {keep : Bool} :
    t.Permits (.merge inputs keep) ↔ ¬inputs.eraseDups.length < 2 ∧
      ∀ id ∈ inputs, t.contains id = true ∧ (keep = false → t.primary ≠ some id) := by
  constructor
  · rintro ⟨hlive, hprimary, henough⟩
    refine ⟨of_decide_eq_false henough, fun id hid => ⟨hlive id hid, ?_⟩⟩
    rintro rfl
    exact hprimary id hid
  · rintro ⟨henough, hinputs⟩
    refine ⟨fun id hid => (hinputs id hid).1, fun id hid => ?_, decide_eq_false henough⟩
    cases keep with
    | true => exact absurd hid List.not_mem_nil
    | false => exact (hinputs id hid).2 rfl

/-- **A command is carried out just when the table permits it.** -/
theorem WellFormed.exists_execute_eq_ok_iff (h : t.WellFormed rank) {c : PaneCommand} :
    (∃ r, t.execute c = .ok r) ↔ t.Permits c := by
  -- Which panes a command tells of plays no part in whether it is refused.
  have htold : ∀ {α : Type} {x : Except PaneError α} (f : α → PaneTable × List PaneId),
      (∃ r, (x >>= fun a => Except.ok (f a)) = .ok r) ↔ ∃ a, x = .ok a :=
    fun f => exists_bind_eq_ok_iff fun a => ⟨f a, rfl⟩
  cases c with
  | spawn r =>
    rw [permits_iff_of_names rfl rfl]
    exact (htold _).trans exists_spawn_eq_ok_iff
  | destroy id cascade activating =>
    refine ((htold _).trans exists_destroy_eq_ok_iff).trans ?_
    constructor
    · rintro ⟨hid, hprimary⟩
      exact ⟨List.forall_mem_singleton.2 hid, List.forall_mem_singleton.2 hprimary, rfl⟩
    · rintro ⟨hlive, hprimary, -⟩
      exact ⟨hlive id List.mem_cons_self, hprimary id List.mem_cons_self⟩
  | merge inputs keep =>
    rw [permits_merge_iff]
    exact (htold _).trans exists_merge_eq_ok_iff
  | duplicate source =>
    rw [permits_iff_of_name rfl rfl rfl]
    exact (htold _).trans h.exists_duplicate_eq_ok_iff
  | duplicateMany sources =>
    rw [permits_iff_of_names rfl rfl]
    exact h.exists_duplicateMany_eq_ok_iff
  | activate id =>
    rw [permits_iff_of_name rfl rfl rfl]
    exact (htold _).trans (exists_get_bind_eq_ok_iff fun _ _ => ⟨_, rfl⟩)
  | arrange id f =>
    rw [permits_iff_of_name rfl rfl rfl]
    exact (htold _).trans exists_arrange_eq_ok_iff
  | toggle id =>
    rw [permits_iff_of_name rfl rfl rfl]
    exact (htold _).trans exists_toggle_eq_ok_iff
  | highlight id =>
    rw [permits_iff_of_name rfl rfl rfl]
    exact (htold _).trans (exists_get_bind_eq_ok_iff fun _ _ => ⟨_, rfl⟩)
  | clear => exact iff_of_true ⟨_, rfl⟩ ((permits_iff_of_names rfl rfl).2 nofun)

/-- **A refused command changes nothing.**  Whatever was done to a table: a command that is carried
out step by step is refused just when it names a pane that is not live, is to close the primary pane,
or merges fewer than two distinct panes.  The table is then as it was, with everything that was ever
announced on its bus; and otherwise it is what the command makes of it at once. -/
theorem refused_changes_nothing (maxPanes brushWindow : Nat) (bus : Bus) (actions : List Action) :
    let t := PaneTable.actAll { start maxPanes brushWindow with bus } actions
    ∀ c : PaneCommand,
      ((∃ e u, c.procedure.outcome t = (.error e, u)) ↔ ¬t.Permits c) ∧
      (∀ e u, c.procedure.outcome t = (.error e, u) → u = t ∧ t.execute c = .error e) ∧
      ∀ opened u, c.procedure.outcome t = (.ok opened, u) → t.execute c = .ok (u, opened) := by
  intro t c
  obtain ⟨rank, h⟩ := (wellFormed_start maxPanes brushWindow bus fun _ => 0).actAll actions
  rw [← h.exists_execute_eq_ok_iff, Procedure.outcome_procedure h c]
  refine ⟨?_, fun e u herror => ?_, fun opened u hok => Procedure.settled_eq_ok_iff.1 hok⟩
  · simp only [Procedure.settled_eq_error_iff, exists_and_left, exists_eq, and_true]
    cases t.execute c <;> simp
  · exact (Procedure.settled_eq_error_iff.1 herror).symm

end PaneTable

end StateAtlas
