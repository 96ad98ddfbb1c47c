import StateAtlas.Model.Schema
/-!
Which attributes a pane projects.

A category that was never configured is projected in full, metadata excepted.  In a configured
category an attribute follows its own flag, or else the flag of the category.
-/

namespace StateAtlas

/-- The flags of one category. -/
structure CategorySelection where
  /-- The flag of attributes that have none of their own. -/
  all : Bool := false
  attributes : Dictionary String Bool := {}
deriving Inhabited

/-- The flags of the configured categories. -/
structure DetailSelection where
  categories : Dictionary String CategorySelection := {}
deriving Inhabited

namespace CategorySelection

def toJson (c : CategorySelection) : Json :=
  .record [("all", .bool c.all), ("attributes", Json.ofDictionary .bool c.attributes)]

def ofJson? (j : Json) : Option CategorySelection := do
  let f ← j.fields? ["all", "attributes"]
  let all ← Json.orElse false Json.bool? (f "all")
  let attributes ← Json.orElse {} (Json.dictionary? Json.bool?) (f "attributes")
  some { all, attributes }

end CategorySelection

namespace DetailSelection

/-- The category shown first: the results once all of them are ready, the variables until then. -/
def focus (schema : Schema) : String :=
  match schema.get? Category.results with
  | some attrs => if attrs.values.all Declaration.isReady then Category.results
    else Category.variableValues
  | none => Category.variableValues

/-- The flags to start with: the category in focus is on, results that are ready are on whatever the
focus, and metadata stay unconfigured. -/
def initial (schema : Schema) : DetailSelection :=
  let inFocus := focus schema
  ⟨.ofList <| (schema.entries.filter fun c => c.1 ≠ Category.metadata).map fun c =>
    let all : Bool := c.1 = inFocus
    (c.1, { all, attributes := c.2.mapValues fun d =>
      all || (c.1 = Category.results && d.isReady) })⟩

/-- Whether an attribute is projected. -/
def isEnabled (s : DetailSelection) (category name : String) : Bool :=
  match s.categories.get? category with
  | none => category ≠ Category.metadata
  | some c => (c.attributes.get? name).getD c.all

/-- Sets the flag of a category and of all its attributes that have one. -/
def setCategory (s : DetailSelection) (category : String) (on : Bool) : DetailSelection :=
  ⟨s.categories.update category {} fun c =>
    { all := on, attributes := c.attributes.mapValues fun _ => on }⟩

/-- Sets the flag of an attribute. -/
def setAttribute (s : DetailSelection) (category name : String) (on : Bool) : DetailSelection :=
  ⟨s.categories.update category {} fun c =>
    { c with attributes := c.attributes.insert name on }⟩

/-- The attributes with a flag of their own that is on. -/
def enabled (s : DetailSelection) : List (String × String) :=
  s.categories.entries.flatMap fun c =>
    (c.2.attributes.entries.filter Prod.snd).map fun a => (c.1, a.1)

def toJson (s : DetailSelection) : Json :=
  Json.ofDictionary CategorySelection.toJson s.categories

instance : ToJson DetailSelection := ⟨DetailSelection.toJson⟩

def ofJson? (j : Json) : Option DetailSelection :=
  (Json.dictionary? CategorySelection.ofJson? j).map DetailSelection.mk

end DetailSelection

end StateAtlas
