import StateAtlas.Model.Fragment
import StateAtlas.Proofs.Json.Fields
import StateAtlas.Proofs.Json.Reading
/-!
Nodes and edges as JSON, written and read again.

Whatever JSON value stands for an attribute is claimed by one kind of attribute value: truth values,
numbers and texts by their own kinds, the rest by structured values.  An attribute value is legible if
it is claimed by its own kind again.  All values that are read are.

Main statements: `Node.ofJson?_toJson`, `Node.legible_of_ofJson?` and `Edge.ofJson?_toJson`.
-/

namespace StateAtlas

/-! ## Names -/

theorem NodeId.ofJson?_toJson (id : NodeId) : ofJson? id.toJson = some id := rfl

theorem PaneId.ofJson?_toJson (id : PaneId) : ofJson? id.toJson = some id := rfl

theorem NodeKind.ofJson?_toJson (k : NodeKind) : ofJson? k.toJson = some k := ofLetter?_letter k

/-! ## Attribute values -/

/-- How deep attribute values can be nested: a node, its attributes and their category stand around
them, and the fields of a fragment or document around the node. -/
def AttrValue.maxDepth : Nat := Json.maxDepth - 5

namespace AttrValue

/-- Whether an attribute value is read as it is written. -/
structure Legible (v : AttrValue) : Prop where
  rereads : ofJson? v.toJson = some v
  toJson : Json.Legible maxDepth v.toJson

/-- **Every attribute value that was read is read again as it is written.** -/
theorem legible_of_ofJson? {j : Json} {v : AttrValue} (hj : Json.Within maxDepth j)
    (h : ofJson? j = some v) : v.Legible := by
  have hstructured : ∀ {j : Json} {v : AttrValue}, Json.Within maxDepth j →
      (∀ j', j.canonical = j' → ofJson? j' =
        if j'.isReadable then some (.structured j'.canonical) else none) →
      (if j.isReadable then some (.structured j.canonical) else none) = some v → v.Legible := by
    intro j v hj hkind h
    split at h
    next hreadable =>
      obtain rfl := Option.some.inj h
      have hlegible := Json.Legible.canonical ⟨hreadable, hj⟩
      refine ⟨?_, hlegible⟩
      rw [toJson, hkind _ rfl, if_pos hlegible.isReadable, Json.canonical_canonical]
    next => nomatch h
  cases j with
  | bool b => exact Option.some.inj h ▸ ⟨rfl, .bool b⟩
  | number n =>
    have hfinite := (hj.sound n List.mem_cons_self).isFinite_toFloat
    exact Option.some.inj h ▸ ⟨rfl, .number hfinite⟩
  | text s => exact Option.some.inj h ▸ ⟨rfl, .text s⟩
  | null => exact hstructured hj (fun _ heq => heq ▸ rfl) h
  | list items => exact hstructured hj (fun _ heq => heq ▸ rfl) h
  | record fields =>
    exact hstructured hj (fun _ heq => heq ▸ Json.canonical_record fields ▸ rfl) h
  | unreadable => nomatch h

end AttrValue

/-! ## Nodes -/

namespace Node

/-- How deep nodes are nested. -/
def maxDepth : Nat := AttrValue.maxDepth + 3

/-- Whether a node is read as it is written. -/
structure Legible (n : Node) : Prop where
  attributes : ∀ c ∈ n.attributes.entries, ∀ e ∈ c.2.entries, AttrValue.Legible e.2
  weights : ∀ e ∈ n.weights.entries, e.2.isFinite = true

theorem legible_of_ofJson? {j : Json} {n : Node} (hj : Json.Within maxDepth j)
    (h : ofJson? j = some n) : n.Legible := by
  obtain ⟨f, hf, h⟩ := Option.bind_eq_some_iff.1 h
  obtain ⟨id, -, h⟩ := Option.bind_eq_some_iff.1 h
  obtain ⟨kind, -, h⟩ := Option.bind_eq_some_iff.1 h
  obtain ⟨name, -, h⟩ := Option.bind_eq_some_iff.1 h
  obtain ⟨attributes, hattributes, h⟩ := Option.bind_eq_some_iff.1 h
  obtain ⟨weights, hweights, h⟩ := Option.bind_eq_some_iff.1 h
  obtain rfl := Option.some.inj h
  constructor
  case attributes =>
    rcases Json.orElse_eq_some hattributes with rfl | ⟨v, hv, hread⟩
    · exact nofun
    · refine Json.forall_of_dictionary? (P := fun attrs : Dictionary String AttrValue =>
        ∀ e ∈ attrs.entries, e.2.Legible) hread (Json.within_of_fields? hf hj hv)
        fun hi hattrs => ?_
      exact Json.forall_of_dictionary? hattrs hi AttrValue.legible_of_ofJson?
  case weights =>
    rcases Json.orElse_eq_some hweights with rfl | ⟨v, hv, hread⟩
    · exact nofun
    · exact Json.forall_of_dictionary? (P := fun x : Float => x.isFinite = true) hread
        (Json.within_of_fields? hf hj hv) Json.isFinite_of_float?

/-- Name and weights are omitted where they are missing. -/
theorem fields?_toJson (n : Node) :
    ∃ f, n.toJson.fields? ["id", "type", "name", "details", "scheduler"] = some f ∧
      f "id" = some n.id.toJson ∧ f "type" = some n.kind.toJson ∧ f "name" = n.name.map .text ∧
      f "details" = some n.attributes.toJson ∧
      f "scheduler" = if n.weights.isEmpty then none
        else some (Json.ofDictionary (fun w => .number (.real w)) n.weights) := by
  obtain ⟨id, kind, name, attributes, weights⟩ := n
  unfold toJson
  cases weights.isEmpty with
  | true => cases name <;> exact ⟨_, rfl, rfl, rfl, rfl, rfl, rfl⟩
  | false => cases name <;> exact ⟨_, rfl, rfl, rfl, rfl, rfl, rfl⟩

theorem ofJson?_toJson {n : Node} (h : n.Legible) : ofJson? n.toJson = some n := by
  obtain ⟨f, hf, hid, hkind, hname, hattributes, hweights⟩ := n.fields?_toJson
  have hid := Json.required_eq_some hid n.id.ofJson?_toJson
  have hkind := Json.required_eq_some hkind n.kind.ofJson?_toJson
  have hname : Json.maybe Json.text? (f "name") = some n.name := by
    rw [hname]
    cases n.name <;> rfl
  have hattributes : Json.orElse {} Attributes.ofJson? (f "details") = some n.attributes :=
    Json.orElse_eq_some_of hattributes <| Json.dictionary?_ofDictionary fun c hc =>
      Json.dictionary?_ofDictionary fun e he => (h.attributes c hc e he).rereads
  have hweights : Json.orElse {} (Json.dictionary? Json.float?) (f "scheduler") =
      some n.weights := by
    have hwritten : Json.dictionary? Json.float?
        (Json.ofDictionary (fun w => .number (.real w)) n.weights) = some n.weights :=
      Json.dictionary?_ofDictionary fun _ _ => rfl
    rw [hweights]
    split
    next hempty => exact congrArg some (Dictionary.eq_empty_of_isEmpty hempty).symm
    next => exact hwritten
  simp only [ofJson?, hf, hid, hkind, hname, hattributes, hweights, Option.bind_eq_bind,
    Option.bind_some]

theorem legible_toJson {n : Node} (h : n.Legible) : Json.Legible maxDepth n.toJson := by
  have hattributes : Json.Legible (AttrValue.maxDepth + 2) n.attributes.toJson :=
    .ofDictionary fun c hc => .ofDictionary fun e he => (h.attributes c hc e he).toJson
  have hweights : Json.Legible (AttrValue.maxDepth + 2)
      (Json.ofDictionary (fun w => .number (.real w)) n.weights) :=
    .ofDictionary fun e he => .number (h.weights e he)
  refine .record fun f hf => ?_
  simp only [List.mem_append, List.mem_cons, List.not_mem_nil, or_false, List.mem_map,
    Option.mem_toList] at hf
  rcases hf with (((rfl | rfl) | ⟨s, -, rfl⟩) | rfl) | hf
  · exact .text _
  · exact .text _
  · exact .text _
  · exact hattributes
  · split at hf
    · nomatch hf
    · exact List.mem_singleton.1 hf ▸ hweights

end Node

/-! ## Edges -/

theorem Edge.ofJson?_toJson (e : Edge) : ofJson? e.toJson = some e := rfl

theorem Edge.legible_toJson (e : Edge) {depth : Nat} : Json.Legible (depth + 1) e.toJson :=
  .record (by simp [Json.Legible.text, EdgeId.toJson, NodeId.toJson])

end StateAtlas
