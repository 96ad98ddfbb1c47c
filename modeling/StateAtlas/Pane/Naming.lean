import StateAtlas.Model.Id
/-!
Names and colours of new panes.

Spawned panes and copies are numbered, each kind on its own; a merged pane is named after its
inputs.  A name that a live pane has already gets a number appended, the least from two on that
makes it new.
-/

namespace StateAtlas

/-- How many panes were spawned and copied so far. -/
structure Naming where
  spawned : Nat := 0
  duplicates : Nat := 0
deriving DecidableEq, Repr, Inhabited

namespace Naming

/-- The name of the primary pane. -/
def primary : PaneId := ⟨"pane-0"⟩

/-- The name of the next spawned pane. -/
def spawn (n : Naming) : Naming × PaneId :=
  ({ n with spawned := n.spawned + 1 }, ⟨s!"pane-{n.spawned + 1}"⟩)

/-- The name of a pane merged from others. -/
def merged (inputs : List PaneId) : PaneId :=
  ⟨"MERGED-" ++ String.intercalate "-" (inputs.map PaneId.text)⟩

/-- The name of the next copy of a pane. -/
def duplicate (n : Naming) (source : PaneId) : Naming × PaneId :=
  ({ n with duplicates := n.duplicates + 1 }, ⟨s!"DUPLICATE-{source.text}-{n.duplicates + 1}"⟩)

/-- A name with a number appended. -/
def numbered (base : PaneId) (n : Nat) : PaneId := ⟨s!"{base.text}-{n}"⟩

/-- The name itself if it is not taken, or else with the least number from two on that makes it new.
One of the first `taken.length + 1` numbers always does. -/
def unique (taken : List PaneId) (base : PaneId) : PaneId :=
  if taken.contains base then
    (((List.range (taken.length + 1)).map fun n => numbered base (n + 2)).find? fun id =>
      !taken.contains id).getD base
  else base

/-- The colours of panes. -/
def palette : List String :=
  ["#888c94", "#f51d05", "#05f7eb", "#0749f0", "#734222", "#1c005c", "#f007dc", "#09db00",
    "#F8F32B", "#f79205"]

/-- The colour of a pane that joins `live` others. -/
def color (live : Nat) : String := (palette[live % palette.length]?).getD ""

end Naming

end StateAtlas
