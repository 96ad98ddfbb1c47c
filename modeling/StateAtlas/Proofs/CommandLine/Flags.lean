import Mathlib.Data.List.Induction
import StateAtlas.Proofs.CommandLine.Values
/-!
Which arguments are flags, and what they set.

Arguments are groups: a switch stands alone, and any other flag is followed by its value, which is
taken as it stands, even if it looks like a flag.  `Groups` says of arguments what they set, one
group after the other, and `Faulty` says of arguments what is wrong with their first group.  From
any place on, arguments are empty, or begin with a group, or are faulty, so every list of arguments
is made of groups up to its end or up to the first fault.

Main statement: `ofArguments_reads_groups`.
-/

namespace StateAtlas

namespace Flags

/-! ## Kinds of flags -/

/-- The flags that stand alone. -/
inductive Switch
  | recurrence
  | overview
  | saveConfig
deriving DecidableEq, Repr

/-- The flags whose value may be any text. -/
inductive TextFlag
  | config
  | url
  | project
  | policy
  | expand
  | mark
  | importPath
  | exportPath
deriving DecidableEq, Repr

/-- The flags whose value is a count. -/
inductive CountFlag
  | maxPanes
  | bestPath
deriving DecidableEq, Repr

/-- The flags that take a value. -/
inductive ValueFlag
  | text (flag : TextFlag)
  | count (flag : CountFlag)
  | mode
  | insert
  | onCapacity
deriving DecidableEq, Repr

/-- What a group of arguments sets. -/
inductive Setting
  | switch (flag : Switch)
  | text (flag : TextFlag) (value : String)
  | count (flag : CountFlag) (n : Nat)
  | mode (mode : DisplayMode)
  | insert (policy : InsertPolicy)
  | onCapacity (decision : CapacityDecision)
deriving DecidableEq, Repr

/-- The switch as an argument. -/
def Switch.argument : Switch → String
  | .recurrence => "--recurrence"
  | .overview => "--overview"
  | .saveConfig => "--save-config"

/-- The flag as an argument. -/
def ValueFlag.argument : ValueFlag → String
  | .text .config => "--config"
  | .text .url => "--url"
  | .text .project => "--project"
  | .text .policy => "--policy"
  | .text .expand => "--expand"
  | .text .mark => "--mark"
  | .text .importPath => "--import"
  | .text .exportPath => "--export"
  | .count .maxPanes => "--max-panes"
  | .count .bestPath => "--best-path"
  | .mode => "--mode"
  | .insert => "--insert"
  | .onCapacity => "--on-capacity"

/-- What a person is told that the flag expects. -/
def ValueFlag.expected : ValueFlag → String
  | .text .config => "a path"
  | .text .url => "a URL"
  | .text .project => "a project name"
  | .text .policy => "a scheduler name"
  | .text .expand => "a node id"
  | .text .mark => "a node id"
  | .text .importPath => "a path"
  | .text .exportPath => "a path"
  | .count .maxPanes => "a count"
  | .count .bestPath => "a step count"
  | .mode => "s|t|s+t"
  | .insert => "after|end"
  | .onCapacity => "redirect|proceed|cancel"

/-- The flags with one more setting. -/
def set (f : Flags) : Setting → Flags
  | .switch .recurrence => { f with recurrence := true }
  | .switch .overview => { f with overview := true }
  | .switch .saveConfig => { f with saveConfig := true }
  | .text .config v => { f with config := some v }
  | .text .url v => { f with url := some v }
  | .text .project v => { f with project := some v }
  | .text .policy v => { f with policy := some v }
  | .text .expand v => { f with expand := f.expand ++ [v] }
  | .text .mark v => { f with mark := f.mark ++ [v] }
  | .text .importPath v => { f with importPath := some v }
  | .text .exportPath v => { f with exportPath := some v }
  | .count .maxPanes n => { f with maxPanes := some n }
  | .count .bestPath n => { f with bestPath := some n }
  | .mode m => { f with mode := some m }
  | .insert p => { f with insert := some p }
  | .onCapacity d => { f with onCapacity := d }

/-! ## The grammar -/

/-- A text is a value of a flag, and what it sets. -/
inductive Holds : ValueFlag → String → Setting → Prop
  | text (flag : TextFlag) (v : String) : Holds (.text flag) v (.text flag v)
  | count {flag : CountFlag} {v : String} {n : Nat} (h : IsCount v n) :
      Holds (.count flag) v (.count flag n)
  | mode {v : String} {m : DisplayMode} (h : v ∈ m.words) : Holds .mode v (.mode m)
  | insert {v : String} {p : InsertPolicy} (h : v ∈ p.words) : Holds .insert v (.insert p)
  | onCapacity (d : CapacityDecision) : Holds .onCapacity d.name (.onCapacity d)

/-- A text is no value of a flag, and why. -/
inductive Refuses : ValueFlag → String → FlagError → Prop
  | count {flag : CountFlag} {v : String} {e : CountError} (h : CountFault v e) :
      Refuses (.count flag) v (.invalidCount e)
  | mode {v : String} (h : ∀ m : DisplayMode, v ∉ m.words) : Refuses .mode v (.invalidMode v)
  | insert {v : String} (h : ∀ p : InsertPolicy, v ∉ p.words) :
      Refuses .insert v (.invalidInsert v)
  | onCapacity {v : String} (h : ∀ d : CapacityDecision, v ≠ d.name) :
      Refuses .onCapacity v (.invalidDecision v)

/-- Arguments are groups, and what these set. -/
inductive Groups : List String → List Setting → Prop
  | nil : Groups [] []
  | switch (flag : Switch) {args : List String} {settings : List Setting}
      (hrest : Groups args settings) : Groups (flag.argument :: args) (.switch flag :: settings)
  | value {flag : ValueFlag} {v : String} {s : Setting} {args : List String}
      {settings : List Setting} (hv : Holds flag v s) (hrest : Groups args settings) :
      Groups (flag.argument :: v :: args) (s :: settings)

/-- Arguments do not begin with a group, and why. -/
inductive Faulty : List String → FlagError → Prop
  | unknown {arg : String} {rest : List String} (hswitch : ∀ flag : Switch, arg ≠ flag.argument)
      (hvalue : ∀ flag : ValueFlag, arg ≠ flag.argument) : Faulty (arg :: rest) (.unknown arg)
  | missingValue (flag : ValueFlag) :
      Faulty [flag.argument] (.missingValue flag.argument flag.expected)
  | invalidValue {flag : ValueFlag} {v : String} {rest : List String} {e : FlagError}
      (hv : Refuses flag v e) : Faulty (flag.argument :: v :: rest) e

variable {f g : Flags} {v arg : String} {s : Setting} {e : FlagError} {flag : ValueFlag}
  {args rest : List String} {settings : List Setting}

/-- A text is a value of a flag or it is not. -/
theorem holds_or_refuses (flag : ValueFlag) (v : String) :
    (∃ s, Holds flag v s) ∨ ∃ e, Refuses flag v e := by
  cases flag with
  | text flag => exact .inl ⟨_, .text flag v⟩
  | count flag =>
    cases h : readCount v with
    | ok n => exact .inl ⟨_, .count (readCount_eq_ok_iff.1 h)⟩
    | error e => exact .inr ⟨_, .count (readCount_eq_error_iff.1 h)⟩
  | mode =>
    by_cases h : ∃ m : DisplayMode, v ∈ m.words
    · obtain ⟨m, hm⟩ := h
      exact .inl ⟨_, .mode hm⟩
    · exact .inr ⟨_, .mode (not_exists.1 h)⟩
  | insert =>
    by_cases h : ∃ p : InsertPolicy, v ∈ p.words
    · obtain ⟨p, hp⟩ := h
      exact .inl ⟨_, .insert hp⟩
    · exact .inr ⟨_, .insert (not_exists.1 h)⟩
  | onCapacity =>
    by_cases h : ∃ d : CapacityDecision, v = d.name
    · obtain ⟨d, rfl⟩ := h
      exact .inl ⟨_, .onCapacity d⟩
    · exact .inr ⟨_, .onCapacity (not_exists.1 h)⟩

/-- An argument is a switch, or a flag with a value, or unknown. -/
theorem argument_cases (arg : String) :
    (∃ flag : Switch, arg = flag.argument) ∨ (∃ flag : ValueFlag, arg = flag.argument) ∨
      action? arg = none := by
  unfold action?
  split
  case h_1 => exact .inr (.inl ⟨.text .config, rfl⟩)
  case h_2 => exact .inr (.inl ⟨.text .url, rfl⟩)
  case h_3 => exact .inr (.inl ⟨.text .project, rfl⟩)
  case h_4 => exact .inr (.inl ⟨.mode, rfl⟩)
  case h_5 => exact .inr (.inl ⟨.insert, rfl⟩)
  case h_6 => exact .inr (.inl ⟨.count .maxPanes, rfl⟩)
  case h_7 => exact .inr (.inl ⟨.text .policy, rfl⟩)
  case h_8 => exact .inr (.inl ⟨.text .expand, rfl⟩)
  case h_9 => exact .inr (.inl ⟨.count .bestPath, rfl⟩)
  case h_10 => exact .inr (.inl ⟨.onCapacity, rfl⟩)
  case h_11 => exact .inr (.inl ⟨.text .mark, rfl⟩)
  case h_12 => exact .inl ⟨.recurrence, rfl⟩
  case h_13 => exact .inr (.inl ⟨.text .importPath, rfl⟩)
  case h_14 => exact .inr (.inl ⟨.text .exportPath, rfl⟩)
  case h_15 => exact .inl ⟨.overview, rfl⟩
  case h_16 => exact .inl ⟨.saveConfig, rfl⟩
  case h_17 => exact .inr (.inr rfl)

/-! ## What a flag does -/

theorem action?_switch (flag : Switch) :
    action? flag.argument = some (.switch fun f => f.set (.switch flag)) := by
  cases flag <;> rfl

/-- What a flag does with its value. -/
structure Takes (flag : ValueFlag) (take : Flags → String → Except FlagError Flags) : Prop where
  action?_eq : action? flag.argument = some (.value flag.expected take)
  eq_ok : ∀ {v s}, Holds flag v s → ∀ f, take f v = .ok (f.set s)
  eq_error : ∀ {v e}, Refuses flag v e → ∀ f, take f v = .error e

theorem reading_eq_ok {α : Type} {read : String → Except FlagError α} {a : α} (h : read v = .ok a)
    (put : Flags → α → Flags) (f : Flags) : reading read put f v = .ok (put f a) := by
  rw [reading, h]
  rfl

theorem reading_eq_error {α : Type} {read : String → Except FlagError α} (h : read v = .error e)
    (put : Flags → α → Flags) (f : Flags) : reading read put f v = .error e := by
  rw [reading, h]
  rfl

theorem orError_eq_ok {α : Type} {read : String → Option α} {a : α} (h : read v = some a)
    (wrong : String → FlagError) : orError wrong read v = .ok a := by
  rw [orError, h]

theorem orError_eq_error {α : Type} {read : String → Option α} (h : ∀ a, read v ≠ some a)
    (wrong : String → FlagError) : orError wrong read v = .error (wrong v) := by
  rw [orError, Option.eq_none_iff_forall_ne_some.2 h]

/-- **Every flag that takes a value takes what the grammar says**, and refuses the rest. -/
theorem exists_takes (flag : ValueFlag) : ∃ take, Takes flag take := by
  cases flag with
  | text flag =>
    have heq : action? (ValueFlag.text flag).argument =
        some (.value (ValueFlag.text flag).expected fun f v => .ok (f.set (.text flag v))) := by
      cases flag <;> rfl
    refine ⟨_, heq, fun h f => ?_, fun h => nomatch h⟩
    cases h
    rfl
  | count flag =>
    have heq : action? (ValueFlag.count flag).argument =
        some (.value (ValueFlag.count flag).expected
          (reading (fun v => (readCount v).mapError .invalidCount)
            fun f n => f.set (.count flag n))) := by
      cases flag <;> rfl
    refine ⟨_, heq, fun h f => ?_, fun h f => ?_⟩
    · cases h with
      | count hcount =>
        exact reading_eq_ok (mapError_eq_ok.2 (readCount_eq_ok_iff.2 hcount)) _ f
    · cases h with
      | count hfault =>
        refine reading_eq_error ?_ _ f
        rw [readCount_eq_error_iff.2 hfault, mapError_error]
  | mode =>
    refine ⟨_, rfl, fun h f => ?_, fun h f => ?_⟩
    · cases h with
      | mode hword =>
        exact reading_eq_ok (orError_eq_ok (DisplayMode.ofWord?_eq_some_iff.2 hword) _) _ f
    · cases h with
      | mode hnone =>
        exact reading_eq_error
          (orError_eq_error (fun m hm => hnone m (DisplayMode.ofWord?_eq_some_iff.1 hm)) _) _ f
  | insert =>
    refine ⟨_, rfl, fun h f => ?_, fun h f => ?_⟩
    · cases h with
      | insert hword =>
        exact reading_eq_ok (orError_eq_ok (InsertPolicy.ofWord?_eq_some_iff.2 hword) _) _ f
    · cases h with
      | insert hnone =>
        exact reading_eq_error
          (orError_eq_error (fun p hp => hnone p (InsertPolicy.ofWord?_eq_some_iff.1 hp)) _) _ f
  | onCapacity =>
    refine ⟨_, rfl, fun h f => ?_, fun h f => ?_⟩
    · cases h with
      | onCapacity d => exact reading_eq_ok (orError_eq_ok (CapacityDecision.ofName?_name d) _) _ f
    · cases h with
      | onCapacity hnone =>
        exact reading_eq_error (orError_eq_error
          (fun d hd => hnone d (CapacityDecision.ofName?_eq_some_iff.1 hd)) _) _ f

/-! ## Reading arguments -/

theorem readFrom_switch (f : Flags) (flag : Switch) (rest : List String) :
    readFrom f (flag.argument :: rest) = readFrom (f.set (.switch flag)) rest := by
  rw [readFrom.eq_def]
  dsimp only
  rw [action?_switch]

theorem readFrom_value (h : Holds flag v s) (f : Flags) (rest : List String) :
    readFrom f (flag.argument :: v :: rest) = readFrom (f.set s) rest := by
  obtain ⟨take, htake⟩ := exists_takes flag
  rw [readFrom.eq_def]
  dsimp only
  rw [htake.action?_eq]
  dsimp only
  rw [htake.eq_ok h]

theorem readFrom_faulty (h : Faulty args e) (f : Flags) : readFrom f args = .error e := by
  rw [readFrom.eq_def]
  cases h with
  | @unknown arg rest hswitch hvalue =>
    have hnone : action? arg = none := by
      rcases argument_cases arg with ⟨flag, h⟩ | ⟨flag, h⟩ | h
      · exact absurd h (hswitch flag)
      · exact absurd h (hvalue flag)
      · exact h
    dsimp only
    rw [hnone]
  | missingValue flag =>
    obtain ⟨take, htake⟩ := exists_takes flag
    dsimp only
    rw [htake.action?_eq]
  | @invalidValue flag v rest _ hv =>
    obtain ⟨take, htake⟩ := exists_takes flag
    dsimp only
    rw [htake.action?_eq]
    dsimp only
    rw [htake.eq_error hv]

/-- **Groups are read one after the other.** -/
theorem readFrom_append (h : Groups args settings) (f : Flags) (rest : List String) :
    readFrom f (args ++ rest) = readFrom (settings.foldl set f) rest := by
  induction h generalizing f with
  | nil => rfl
  | switch flag hrest ih =>
    rw [List.cons_append, readFrom_switch, ih]
    rfl
  | value hv hrest ih =>
    rw [List.cons_append, List.cons_append, readFrom_value hv, ih]
    rfl

/-- **Arguments are groups up to their end or up to the first fault.** -/
theorem groups_or_faulty (args : List String) :
    (∃ settings, Groups args settings) ∨ ∃ read rest settings e,
      args = read ++ rest ∧ Groups read settings ∧ Faulty rest e := by
  match args with
  | [] => exact .inl ⟨[], .nil⟩
  | arg :: rest =>
    rcases argument_cases arg with ⟨flag, rfl⟩ | ⟨flag, rfl⟩ | hnone
    · rcases groups_or_faulty rest with ⟨settings, h⟩ | ⟨read, rest', settings, e, rfl, h, hfault⟩
      · exact .inl ⟨_, .switch flag h⟩
      · exact .inr ⟨flag.argument :: read, rest', _, e, rfl, .switch flag h, hfault⟩
    · match rest with
      | [] => exact .inr ⟨[], _, [], _, rfl, .nil, .missingValue flag⟩
      | v :: rest =>
        rcases holds_or_refuses flag v with ⟨s, hv⟩ | ⟨e, hv⟩
        · rcases groups_or_faulty rest with
            ⟨settings, h⟩ | ⟨read, rest', settings, e, rfl, h, hfault⟩
          · exact .inl ⟨_, .value hv h⟩
          · exact .inr ⟨flag.argument :: v :: read, rest', _, e, rfl, .value hv h, hfault⟩
        · exact .inr ⟨[], _, [], e, rfl, .nil, .invalidValue hv⟩
    · refine .inr ⟨[], _, [], _, rfl, .nil, .unknown (fun flag h => ?_) fun flag h => ?_⟩
      · rw [h, action?_switch] at hnone
        cases hnone
      · obtain ⟨take, htake⟩ := exists_takes flag
        rw [h, htake.action?_eq] at hnone
        cases hnone

/-! ## What groups set -/

/-- The values of a flag whose value may be any text. -/
def texts (flag : TextFlag) (settings : List Setting) : List String :=
  settings.filterMap fun
    | .text flag' v => if flag' = flag then some v else none
    | _ => none

/-- The values of a flag whose value is a count. -/
def counts (flag : CountFlag) (settings : List Setting) : List Nat :=
  settings.filterMap fun
    | .count flag' n => if flag' = flag then some n else none
    | _ => none

/-- What settings amount to: a switch is on if it is set at all, a flag has the last of its values,
and the nodes to expand and to mark are all that were given, in order. -/
def ofSettings (settings : List Setting) : Flags where
  config := (texts .config settings).getLast?
  url := (texts .url settings).getLast?
  project := (texts .project settings).getLast?
  mode := (settings.filterMap fun | .mode m => some m | _ => none).getLast?
  insert := (settings.filterMap fun | .insert p => some p | _ => none).getLast?
  maxPanes := (counts .maxPanes settings).getLast?
  policy := (texts .policy settings).getLast?
  expand := texts .expand settings
  bestPath := (counts .bestPath settings).getLast?
  onCapacity :=
    (settings.filterMap fun | .onCapacity d => some d | _ => none).getLast?.getD .redirect
  mark := texts .mark settings
  recurrence := settings.contains (.switch .recurrence)
  importPath := (texts .importPath settings).getLast?
  exportPath := (texts .exportPath settings).getLast?
  overview := settings.contains (.switch .overview)
  saveConfig := settings.contains (.switch .saveConfig)

/-- One more setting counts as the last one. -/
theorem ofSettings_concat (settings : List Setting) (s : Setting) :
    ofSettings (settings ++ [s]) = (ofSettings settings).set s := by
  cases s with
  | switch flag => cases flag <;> simp [ofSettings, set, texts, counts]
  | text flag v => cases flag <;> simp [ofSettings, set, texts, counts]
  | count flag n => cases flag <;> simp [ofSettings, set, texts, counts]
  | mode m => simp [ofSettings, set, texts, counts]
  | insert p => simp [ofSettings, set, texts, counts]
  | onCapacity d => simp [ofSettings, set, texts, counts]

/-- **Settings that are made one after the other amount to the last of each kind.** -/
theorem foldl_set (settings : List Setting) : settings.foldl set {} = ofSettings settings := by
  induction settings using List.reverseRecOn with
  | nil => rfl
  | append_singleton settings s ih => rw [List.foldl_append, ih, ofSettings_concat]; rfl

/-- **Arguments are read just as the grammar says.**  They are flags just when they are groups, one
after the other to the end, and then the flags are what the groups set in their order, starting with
none: of a flag that is given several times the last value counts, except that all nodes to expand
and to mark are listed in order.  They are refused just when groups are followed by something that
does not begin with one, and then for what is wrong there, whatever follows. -/
theorem ofArguments_reads_groups (args : List String) :
    (∀ f, ofArguments args = .ok f ↔
      ∃ settings, Groups args settings ∧ f = settings.foldl set {}) ∧
    (∀ settings : List Setting, settings.foldl set {} = ofSettings settings) ∧
    ∀ e, ofArguments args = .error e ↔ ∃ read rest settings,
      args = read ++ rest ∧ Groups read settings ∧ Faulty rest e := by
  have hok : ∀ {settings}, Groups args settings →
      ofArguments args = .ok (settings.foldl set {}) := by
    intro settings h
    have hread := readFrom_append h {} []
    rwa [List.append_nil] at hread
  have herror : ∀ {read rest settings e}, args = read ++ rest → Groups read settings →
      Faulty rest e → ofArguments args = .error e := by
    rintro read rest settings e rfl h hfault
    rw [ofArguments, readFrom_append h, readFrom_faulty hfault]
  -- Arguments are groups to the end, or groups up to something faulty, and never both.
  refine ⟨fun f => ⟨fun h => ?_, ?_⟩, foldl_set, fun e => ⟨fun h => ?_, ?_⟩⟩
  · rcases groups_or_faulty args with
      ⟨settings, hgroups⟩ | ⟨read, rest, settings, e, hsplit, hgroups, hfault⟩
    · exact ⟨settings, hgroups, Except.ok.inj (h.symm.trans (hok hgroups))⟩
    · exact nomatch h.symm.trans (herror hsplit hgroups hfault)
  · rintro ⟨settings, hgroups, rfl⟩
    exact hok hgroups
  · rcases groups_or_faulty args with
      ⟨settings, hgroups⟩ | ⟨read, rest, settings, e', hsplit, hgroups, hfault⟩
    · exact nomatch h.symm.trans (hok hgroups)
    · obtain rfl := Except.error.inj (h.symm.trans (herror hsplit hgroups hfault))
      exact ⟨read, rest, settings, hsplit, hgroups, hfault⟩
  · rintro ⟨read, rest, settings, hsplit, hgroups, hfault⟩
    exact herror hsplit hgroups hfault

/-- What looks like a flag is a value behind a flag that takes one. -/
example : ofArguments ["--url", "--mark", "--expand", "4", "--url", "u", "--expand", "0"] =
    .ok { url := some "u", expand := ["4", "0"] } := by
  decide +kernel

end Flags

end StateAtlas
