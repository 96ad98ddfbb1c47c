import StateAtlas.Json.Fields
/-!
The screen footprint of a pane.

A pane has a share of the row of panes, relative to the other panes, and a split between its graph
and its inspector.  Collapsing a pane leaves it the least share and remembers the one it had;
maximizing and minimizing the inspector remember the split.
-/

namespace StateAtlas

/-- Shares and splits, with what to go back to. -/
structure Geometry where
  /-- The pane's share relative to its neighbours. -/
  share : Float := 1
  /-- The share to go back to when the pane is opened again. -/
  rememberedShare : Option Float := none
  /-- The inspector's fraction of the pane. -/
  split : Float := 0.3
  /-- The split to go back to when the inspector is restored. -/
  previousSplit : Option Float := none
deriving Inhabited

/-- A change of a footprint. -/
inductive Reshaping
  | resize (share : Float)
  | collapse
  | expand
  | toggle
  | setSplit (ratio width : Float)
  /-- Gives the inspector the whole pane. -/
  | maximize
  /-- Gives the graph the whole pane. -/
  | minimize
  /-- Goes back to the split before. -/
  | restore

/-- The change that a record names. -/
def Reshaping.ofJson? (j : Json) : Option Reshaping := do
  let length (key : String) : Option Float := ((j.get? key).getD (.real 0)).real?
  match ← (← j.get? "do").text? with
  | "resize" => return .resize (← length "share")
  | "collapse" => return .collapse
  | "expand" => return .expand
  | "toggle" => return .toggle
  | "set_split" => return .setSplit (← length "ratio") (← length "px")
  | "maximize" => return .maximize
  | "minimize" => return .minimize
  | "restore" => return .restore
  | _ => none

namespace Geometry

/-- The least share; a pane of that share still stands in the row. -/
def minShare : Float := 0.005

/-- The split of a new pane. -/
def defaultSplit : Float := 0.3

/-- The least width in pixels of either side of the split. -/
def minSplitPixels : Float := 10

/-- Whether a share is too small to show anything. -/
def isCollapsedShare (share : Float) : Bool := share < 2 * minShare

/-- Whether the pane is collapsed. -/
def isCollapsed (g : Geometry) : Bool := isCollapsedShare g.share

/-- Sets the share; what is no number means the usual share. -/
def resize (g : Geometry) (share : Float) : Geometry :=
  { g with
    share := if !share.isFinite then 1 else if share < minShare then minShare else share
    rememberedShare := none }

/-- Leaves the pane the least share. -/
def collapse (g : Geometry) : Geometry :=
  { g with
    share := minShare
    rememberedShare := if g.isCollapsed then g.rememberedShare else some g.share }

/-- Gives the pane the share it had before it was collapsed, or else the usual one. -/
def expand (g : Geometry) : Geometry :=
  { g with
    share := (g.rememberedShare.filter fun s => 2 * minShare ≤ s).getD 1
    rememberedShare := none }

/-- Collapses an open pane and opens a collapsed one. -/
def toggle (g : Geometry) : Geometry := if g.isCollapsed then g.expand else g.collapse

/-- Sets the inspector's fraction of a pane of a given width, leaving both sides the least width if
there is room for it. -/
def setSplit (g : Geometry) (ratio width : Float) : Geometry :=
  let floor := if 2 * minSplitPixels < width then minSplitPixels / width else 0
  let ratio := if ratio.isFinite then ratio else defaultSplit
  let split := if ratio < floor then floor else if 1 - floor < ratio then 1 - floor else ratio
  { g with split }

/-- Sets the split to one end and remembers the split to go back to, unless one is remembered. -/
def pushSplit (g : Geometry) (split : Float) : Geometry :=
  { g with split, previousSplit := some (g.previousSplit.getD g.split) }

/-- Gives the inspector the whole pane. -/
def maximizeInspector (g : Geometry) : Geometry := g.pushSplit 1

/-- Gives the graph the whole pane. -/
def minimizeInspector (g : Geometry) : Geometry := g.pushSplit 0

/-- Goes back to the remembered split. -/
def restoreInspector (g : Geometry) : Geometry :=
  match g.previousSplit with
  | some split => { g with split, previousSplit := none }
  | none => g

def toJson (g : Geometry) : Json :=
  .record [("share", .real g.share), ("remembered_share", .optional .real g.rememberedShare),
    ("split", .real g.split), ("previous_split", .optional .real g.previousSplit)]

instance : ToJson Geometry := ⟨Geometry.toJson⟩

/-- The geometry after a change. -/
def reshape (g : Geometry) : Reshaping → Geometry
  | .resize share => g.resize share
  | .collapse => g.collapse
  | .expand => g.expand
  | .toggle => g.toggle
  | .setSplit ratio width => g.setSplit ratio width
  | .maximize => g.maximizeInspector
  | .minimize => g.minimizeInspector
  | .restore => g.restoreInspector

/-- A geometry is a record, or a list of all four of its parts. -/
def ofJson? (j : Json) : Option Geometry := do
  let f ← j.fields? ["share", "remembered_share", "split", "previous_split"]
  let whole := match j with
    | .list items => items.length = 4
    | _ => true
  if !whole then none
  let share ← Json.required Json.float? (f "share")
  let rememberedShare ← Json.maybe Json.float? (f "remembered_share")
  let split ← Json.required Json.float? (f "split")
  let previousSplit ← Json.maybe Json.float? (f "previous_split")
  some { share, rememberedShare, split, previousSplit }

end Geometry

end StateAtlas
