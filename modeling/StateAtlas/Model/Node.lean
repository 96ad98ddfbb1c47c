import StateAtlas.Model.Attribute
/-!
Nodes of the explored system: states, and the actions that lead from states to states.
-/

namespace StateAtlas

/-- Whether a node is a state or an action. -/
inductive NodeKind
  | state
  | action
deriving DecidableEq, Repr, Inhabited

namespace NodeKind

/-- The letter that stands for the kind. -/
def letter : NodeKind → String
  | .state => "s"
  | .action => "t"

/-- The kind that a letter stands for. -/
def ofLetter? : String → Option NodeKind
  | "s" => some .state
  | "t" => some .action
  | _ => none

theorem ofLetter?_letter (k : NodeKind) : ofLetter? k.letter = some k := by
  cases k <;> rfl

def toJson (k : NodeKind) : Json := .text k.letter

instance : ToJson NodeKind := ⟨NodeKind.toJson⟩

def ofJson? : Json → Option NodeKind := Json.word? ofLetter?

end NodeKind

/-- A state or an action with what is known of it. -/
structure Node where
  id : NodeId
  kind : NodeKind
  name : Option String := none
  attributes : Attributes := {}
  /-- How strongly each scheduling policy prefers the node. -/
  weights : Dictionary String Float := {}
deriving Inhabited

namespace Node

/-- Whether the node is a state. -/
def isState (n : Node) : Bool := n.kind = .state

/-- The node with a value under a category and a name. -/
def withAttribute (n : Node) (category name : String) (v : AttrValue) : Node :=
  { n with attributes := n.attributes.update category {} fun attrs => attrs.insert name v }

/-- The node with a weight under a policy. -/
def withWeight (n : Node) (policy : String) (w : Float) : Node :=
  { n with weights := n.weights.insert policy w }

/-- Whether an atomic proposition holds in the node. -/
def satisfies (n : Node) (proposition : String) : Bool :=
  ((n.attributes.find? Category.propositions proposition).map AttrValue.isTruthy).getD false

/-- The node's weight under a policy. -/
def weight? (n : Node) (policy : String) : Option Float := n.weights.get? policy

/-- What an inspector shows of the node. -/
def summary (n : Node) : Json :=
  .record [("id", n.id.toJson), ("kind", n.kind.toJson), ("attributes", n.attributes.toJson)]

def toJson (n : Node) : Json :=
  let named := n.name.toList.map fun s => ("name", Json.text s)
  let weighted := if n.weights.isEmpty then []
    else [("scheduler", Json.ofDictionary (fun w => .number (.real w)) n.weights)]
  .record <| [("id", n.id.toJson), ("type", n.kind.toJson)] ++ named ++
    [("details", n.attributes.toJson)] ++ weighted

instance : ToJson Node := ⟨Node.toJson⟩

def ofJson? (j : Json) : Option Node := do
  let f ← j.fields? ["id", "type", "name", "details", "scheduler"]
  let id ← Json.required NodeId.ofJson? (f "id")
  let kind ← Json.required NodeKind.ofJson? (f "type")
  let name ← Json.maybe Json.text? (f "name")
  let attributes ← Json.orElse {} Attributes.ofJson? (f "details")
  let weights ← Json.orElse {} (Json.dictionary? Json.float?) (f "scheduler")
  some { id, kind, name, attributes, weights }

end Node

end StateAtlas
