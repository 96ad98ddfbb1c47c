import StateAtlas.Document.Basic
import StateAtlas.Proofs.Brush.Finite
import StateAtlas.Proofs.Model.Encoding
/-!
Pane documents as JSON, written and read again.

Settings always are read as they are written.  A constraint is if its bounds are finite; other bounds
would be written as texts.  A document is legible if its nodes are and its constraints are finite.

Main statements: `PaneDocument.ofJson?_toJson` and `PaneDocument.legible_of_ofJson?`.
-/

namespace StateAtlas

variable {depth : Nat}

/-! ## Views -/

theorem DisplayMode.ofJson?_toJson (m : DisplayMode) : ofJson? m.toJson = some m := ofName?_name m

theorem InsertPolicy.ofJson?_toJson (p : InsertPolicy) : ofJson? p.toJson = some p := ofName?_name p

namespace CategorySelection

theorem ofJson?_toJson (c : CategorySelection) : ofJson? c.toJson = some c := by
  have hattributes : Json.dictionary? Json.bool? (Json.ofDictionary .bool c.attributes) =
      some c.attributes := Json.dictionary?_ofDictionary fun _ _ => rfl
  simp [toJson, ofJson?, Json.fields?, Json.orElse, Json.bool?, hattributes]

theorem legible_toJson (c : CategorySelection) : Json.Legible (depth + 2) c.toJson := by
  have hattributes : Json.Legible (depth + 1) (Json.ofDictionary .bool c.attributes) :=
    .ofDictionary fun _ _ => .bool _
  exact .record (by simp [Json.Legible.bool, hattributes])

end CategorySelection

namespace DetailSelection

theorem ofJson?_toJson (s : DetailSelection) : ofJson? s.toJson = some s := by
  rw [ofJson?, toJson, Json.dictionary?_ofDictionary fun e _ => e.2.ofJson?_toJson]
  rfl

theorem legible_toJson (s : DetailSelection) : Json.Legible (depth + 3) s.toJson :=
  .ofDictionary fun e _ => e.2.legible_toJson

end DetailSelection

namespace ViewState

theorem ofJson?_toJson (v : ViewState) : ofJson? v.toJson = some v := by
  obtain ⟨f, hf, hmode, hpolicy, hdetails, hsync, hinsert⟩ :
      ∃ f, v.toJson.fields? ["mode", "policy", "details", "auto_sync", "insert_policy"] = some f ∧
        f "mode" = some v.mode.toJson ∧ f "policy" = some (.optional .text v.policy) ∧
        f "details" = some v.details.toJson ∧ f "auto_sync" = some (.bool v.autoSync) ∧
        f "insert_policy" = some v.insertPolicy.toJson := ⟨_, rfl, rfl, rfl, rfl, rfl, rfl⟩
  have hmode : Json.orElse .states DisplayMode.ofJson? (f "mode") = some v.mode :=
    Json.orElse_eq_some_of hmode v.mode.ofJson?_toJson
  have hpolicy : Json.maybe Json.text? (f "policy") = some v.policy :=
    Json.orElse_eq_some_of hpolicy (by cases v.policy <;> rfl)
  have hdetails : Json.orElse {} DetailSelection.ofJson? (f "details") = some v.details :=
    Json.orElse_eq_some_of hdetails v.details.ofJson?_toJson
  have hsync : Json.orElse false Json.bool? (f "auto_sync") = some v.autoSync :=
    Json.orElse_eq_some_of hsync rfl
  have hinsert : Json.orElse .afterSpawner InsertPolicy.ofJson? (f "insert_policy") =
      some v.insertPolicy := Json.orElse_eq_some_of hinsert v.insertPolicy.ofJson?_toJson
  simp only [ofJson?, hf, hmode, hpolicy, hdetails, hsync, hinsert, Option.bind_eq_bind,
    Option.bind_some]

theorem legible_toJson (v : ViewState) : Json.Legible (depth + 4) v.toJson := by
  have hpolicy : Json.Legible (depth + 3) (.optional .text v.policy) := by
    cases v.policy with
    | none => exact .null
    | some s => exact .text s
  have hdetails : Json.Legible (depth + 3) v.details.toJson := v.details.legible_toJson
  exact .record (by simp [Json.Legible.bool, Json.Legible.text, DisplayMode.toJson,
    InsertPolicy.toJson, hpolicy, hdetails])

end ViewState

/-! ## Brushes -/

theorem OrderedSet.ofList_toList (s : OrderedSet String) : ofList s.toList = s := by
  have hindex : ∀ (es : List (String × Unit)) (d : Dictionary String Unit),
      insertMany ⟨d⟩ (es.map Prod.fst) = ⟨es.foldl (fun d e => d.insert e.1 e.2) d⟩ := by
    intro es
    induction es with
    | nil => exact fun _ => rfl
    | cons e es ih => exact fun d => ih (d.insert e.1 e.2)
  exact (hindex s.index.entries .empty).trans (congrArg mk s.index.ofList_entries)

namespace Constraint

theorem isFinite_of_ofParts? {kind : String} {parts : Json} {c : Constraint Float}
    (hparts : Json.Within (depth + 1) parts) (h : ofParts? kind parts = some c) : c.IsFinite := by
  unfold ofParts? at h
  split at h
  next =>
    obtain ⟨f, hf, h⟩ := Option.bind_eq_some_iff.1 h
    obtain ⟨lo, hlo, h⟩ := Option.bind_eq_some_iff.1 h
    obtain ⟨hi, hhi, h⟩ := Option.bind_eq_some_iff.1 h
    obtain ⟨pinned, -, h⟩ := Option.bind_eq_some_iff.1 h
    obtain rfl := Option.some.inj h
    obtain ⟨v, hv, hlo⟩ := Option.bind_eq_some_iff.1 hlo
    obtain ⟨w, hw, hhi⟩ := Option.bind_eq_some_iff.1 hhi
    exact ⟨Json.isFinite_of_float? (Json.within_of_fields? hf hparts hv) hlo,
      Json.isFinite_of_float? (Json.within_of_fields? hf hparts hw) hhi⟩
  next =>
    obtain ⟨f, -, h⟩ := Option.bind_eq_some_iff.1 h
    obtain ⟨values, -, h⟩ := Option.bind_eq_some_iff.1 h
    exact Option.some.inj h ▸ trivial
  next => nomatch h

/-- The bounds of a constraint that was read are finite. -/
theorem isFinite_of_ofJson? {j : Json} {c : Constraint Float} (hj : Json.Within (depth + 1) j)
    (h : ofJson? j = some c) : c.IsFinite := by
  unfold ofJson? at h
  split at h
  next =>
    split at h
    next kind parts =>
      exact isFinite_of_ofParts? (Json.Within.list_iff.2 fun i hi =>
        Json.Within.list_iff.1 hj i (List.mem_cons_of_mem _ hi)) h
    next =>
      obtain ⟨f, -, h⟩ := Option.bind_eq_some_iff.1 h
      obtain ⟨kind, -, h⟩ := Option.bind_eq_some_iff.1 h
      split at h
      next => exact isFinite_of_ofParts? hj h
      next => nomatch h
  next => nomatch h

theorem legible_toJson {c : Constraint Float} (h : c.IsFinite) :
    Json.Legible (depth + 2) c.toJson := by
  match c, h with
  | .range lo hi pinned, ⟨hlo, hhi⟩ =>
    exact .record (by simp [Json.real_eq hlo, Json.real_eq hhi, Json.Legible.text, Json.Legible.bool,
      Json.Legible.number (n := .real lo) hlo, Json.Legible.number (n := .real hi) hhi])
  | .categories values, _ =>
    exact .record (by simp [Json.Legible.text, Json.Legible.texts])

theorem ofJson?_toJson {c : Constraint Float} (h : c.IsFinite) : ofJson? c.toJson = some c := by
  have hlegible : Json.Legible 2 c.toJson := legible_toJson h
  unfold ofJson?
  rw [if_pos hlegible.isReadable]
  match c, h with
  | .range lo hi pinned, ⟨hlo, hhi⟩ =>
    have hparts : ofParts? "range" (range lo hi pinned).toJson = some (range lo hi pinned) := by
      simp [ofParts?, toJson, Json.fields?, Json.required, Json.orElse, Json.real_eq hlo,
        Json.real_eq hhi, Json.float?, Json.bool?, Json.Number.toFloat]
    simpa [toJson, Json.fields?, Json.required, Json.text?] using hparts
  | .categories values, _ =>
    have hparts : ofParts? "categories" (categories values).toJson = some (categories values) := by
      simp [ofParts?, toJson, Json.fields?, Json.required, Json.list?_texts, oneOf,
        values.ofList_toList]
    simpa [toJson, Json.fields?, Json.required, Json.text?] using hparts

end Constraint

namespace BrushState

/-- The bounds in a brush that was read are finite. -/
theorem isFinite_of_ofJson? {j : Json} {s : BrushState Float} (hj : Json.Within (depth + 3) j)
    (h : ofJson? j = some s) : s.IsFinite := by
  obtain ⟨f, hf, h⟩ := Option.bind_eq_some_iff.1 h
  obtain ⟨constraints, hconstraints, h⟩ := Option.bind_eq_some_iff.1 h
  obtain ⟨order, -, h⟩ := Option.bind_eq_some_iff.1 h
  obtain rfl := Option.some.inj h
  rcases Json.orElse_eq_some hconstraints with rfl | ⟨v, hv, hread⟩
  · exact nofun
  · exact Json.forall_of_dictionary? hread (Json.within_of_fields? hf hj hv)
      Constraint.isFinite_of_ofJson?

theorem ofJson?_toJson {s : BrushState Float} (h : s.IsFinite) : ofJson? s.toJson = some s := by
  have hconstraints : Json.dictionary? Constraint.ofJson?
      (Json.ofDictionary Constraint.toJson s.constraints) = some s.constraints :=
    Json.dictionary?_ofDictionary fun e he => Constraint.ofJson?_toJson (h e he)
  simp [toJson, ofJson?, Json.fields?, Json.orElse, hconstraints, Json.list?_texts]

theorem legible_toJson {s : BrushState Float} (h : s.IsFinite) :
    Json.Legible (depth + 4) s.toJson := by
  have hconstraints : Json.Legible (depth + 3)
      (Json.ofDictionary Constraint.toJson s.constraints) :=
    .ofDictionary fun e he => Constraint.legible_toJson (h e he)
  exact .record (by simp [hconstraints, Json.Legible.texts])

end BrushState

/-! ## Documents -/

namespace PaneDocument

/-- Whether a document is read as it is written. -/
structure Legible (d : PaneDocument) : Prop where
  version : d.version < Nat.pow 2 32
  nodes : ∀ n ∈ d.nodes, n.Legible
  brush : d.brush.IsFinite

/-- **Every document that was read is legible.** -/
theorem legible_of_ofJson? {j : Json} {d : PaneDocument} (hj : Json.Within Json.maxDepth j)
    (h : ofJson? j = some d) : d.Legible := by
  obtain ⟨f, hf, h⟩ := Option.bind_eq_some_iff.1 h
  obtain ⟨version, hversion, h⟩ := Option.bind_eq_some_iff.1 h
  obtain ⟨pane, -, h⟩ := Option.bind_eq_some_iff.1 h
  obtain ⟨spawners, -, h⟩ := Option.bind_eq_some_iff.1 h
  obtain ⟨spawnerNodes, -, h⟩ := Option.bind_eq_some_iff.1 h
  obtain ⟨nodes, hnodes, h⟩ := Option.bind_eq_some_iff.1 h
  obtain ⟨edges, -, h⟩ := Option.bind_eq_some_iff.1 h
  obtain ⟨view, -, h⟩ := Option.bind_eq_some_iff.1 h
  obtain ⟨brush, hbrush, h⟩ := Option.bind_eq_some_iff.1 h
  obtain rfl := Option.some.inj h
  constructor
  case version =>
    obtain ⟨v, -, hread⟩ := Option.bind_eq_some_iff.1 hversion
    unfold Json.count? at hread
    split at hread
    next n =>
      split at hread
      next hn =>
        obtain rfl := Option.some.inj hread
        exact Int.ofNat_lt.1 ((Int.toNat_of_nonneg hn.1).symm ▸ hn.2)
      next => nomatch hread
    next => nomatch hread
  case nodes =>
    obtain ⟨v, hv, hread⟩ := Option.bind_eq_some_iff.1 hnodes
    exact Json.forall_of_list? hread (Json.within_of_fields? hf hj hv) Node.legible_of_ofJson?
  case brush =>
    rcases Json.orElse_eq_some hbrush with rfl | ⟨v, hv, hread⟩
    · exact BrushState.isFinite_empty
    · exact BrushState.isFinite_of_ofJson? (Json.within_of_fields? hf hj hv) hread

theorem count?_count {n bits : Nat} (h : n < Nat.pow 2 bits) :
    Json.count? bits (.count n) = some n :=
  (if_pos ⟨Int.natCast_nonneg n, Int.ofNat_lt.2 h⟩).trans (congrArg some (Int.toNat_natCast n))

theorem ofJson?_toJson {d : PaneDocument} (h : d.Legible) : ofJson? d.toJson = some d := by
  obtain ⟨f, hf, hversion, hpane, hspawners, hspawnerNodes, hnodes, hedges, hview, hbrush⟩ :
      ∃ f, d.toJson.fields?
          ["version", "pane", "spawners", "spawnerNodes", "nodes", "edges", "view", "brush"] =
          some f ∧
        f "version" = some (.count d.version) ∧ f "pane" = some d.pane.toJson ∧
        f "spawners" = some (PaneId.listToJson d.spawners) ∧
        f "spawnerNodes" = some (NodeId.listToJson d.spawnerNodes) ∧
        f "nodes" = some (.list (d.nodes.map Node.toJson)) ∧
        f "edges" = some (.list (d.edges.map Edge.toJson)) ∧
        f "view" = some d.view.toJson ∧ f "brush" = some d.brush.toJson :=
    ⟨_, rfl, rfl, rfl, rfl, rfl, rfl, rfl, rfl, rfl⟩
  have hversion := Json.required_eq_some hversion (count?_count h.version)
  have hpane := Json.required_eq_some hpane d.pane.ofJson?_toJson
  have hspawners : Json.orElse [] (Json.list? PaneId.ofJson?) (f "spawners") = some d.spawners :=
    Json.orElse_eq_some_of hspawners (Json.list?_map fun _ _ => rfl)
  have hspawnerNodes : Json.orElse [] (Json.list? NodeId.ofJson?) (f "spawnerNodes") =
      some d.spawnerNodes :=
    Json.orElse_eq_some_of hspawnerNodes (Json.list?_map fun _ _ => rfl)
  have hnodes := Json.required_eq_some hnodes
    (Json.list?_map fun n hn => Node.ofJson?_toJson (h.nodes n hn))
  have hedges := Json.required_eq_some hedges (Json.list?_map fun e _ => e.ofJson?_toJson)
  have hview : Json.orElse {} ViewState.ofJson? (f "view") = some d.view :=
    Json.orElse_eq_some_of hview d.view.ofJson?_toJson
  have hbrush : Json.orElse {} BrushState.ofJson? (f "brush") = some d.brush :=
    Json.orElse_eq_some_of hbrush (BrushState.ofJson?_toJson h.brush)
  simp only [ofJson?, hf, hversion, hpane, hspawners, hspawnerNodes, hnodes, hedges, hview, hbrush,
    Option.bind_eq_bind, Option.bind_some]

theorem legible_toJson {d : PaneDocument} (h : d.Legible) : Json.Legible Json.maxDepth d.toJson := by
  have hdepth : Json.maxDepth = Node.maxDepth + 1 + 1 := rfl
  have hversion : Json.Legible (Node.maxDepth + 1) (.count d.version) :=
    .number ⟨Int.le_trans (Int.neg_nonpos_of_nonneg (Int.natCast_nonneg _)) (Int.natCast_nonneg _),
      Int.ofNat_lt.2 (Nat.lt_trans h.version (by decide))⟩
  have hspawners : Json.Legible (Node.maxDepth + 1) (PaneId.listToJson d.spawners) :=
    .list (List.forall_mem_map.2 fun id _ => .text _)
  have hspawnerNodes : Json.Legible (Node.maxDepth + 1) (NodeId.listToJson d.spawnerNodes) :=
    .list (List.forall_mem_map.2 fun id _ => .text _)
  have hnodes : Json.Legible (Node.maxDepth + 1) (.list (d.nodes.map Node.toJson)) :=
    .list (List.forall_mem_map.2 fun n hn => Node.legible_toJson (h.nodes n hn))
  have hedges : Json.Legible (Node.maxDepth + 1) (.list (d.edges.map Edge.toJson)) :=
    .list (List.forall_mem_map.2 fun e _ => e.legible_toJson)
  have hview : Json.Legible (Node.maxDepth + 1) d.view.toJson := d.view.legible_toJson
  have hbrush : Json.Legible (Node.maxDepth + 1) d.brush.toJson := BrushState.legible_toJson h.brush
  rw [hdepth]
  exact .record (by simp only [List.forall_mem_cons, hversion, hspawners, hspawnerNodes, hnodes,
    hedges, hview, hbrush, PaneId.toJson, Json.Legible.text, true_and, List.not_mem_nil]; simp)

end PaneDocument

end StateAtlas
