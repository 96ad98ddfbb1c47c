import StateAtlas.Pane.Table
/-!
Destroying panes along their lineage.

The descendants of a pane are found depth first: a pane not seen before is listed and its spawned
panes come before everything that still waits.  Each step either shortens the list of waiting panes
or uses up one of the live panes not seen yet, so the search ends.
-/

namespace StateAtlas.PaneTable

/-- How many live panes have not been seen. -/
def unseen (t : PaneTable) (seen : List PaneId) : Nat :=
  (t.live.keys.filter fun id => !seen.contains id).length

theorem unseen_cons_lt {t : PaneTable} {id : PaneId} {seen : List PaneId} {p : Pane}
    (hid : t.pane? id = some p) (hseen : ¬seen.contains id = true) :
    t.unseen (id :: seen) < t.unseen seen := by
  have hmem : id ∈ t.live.keys := by
    rw [Dictionary.mem_keys_iff, Dictionary.contains, ← pane?, hid, Option.isSome_some]
  have hsub : t.live.keys.filter (fun x => !(id :: seen).contains x) =
      (t.live.keys.filter fun x => !seen.contains x).filter fun x => x ≠ id := by
    rw [List.filter_filter]
    congr 1
    funext x
    by_cases h : x = id <;> simp [h]
  rw [unseen, unseen, hsub]
  exact List.length_filter_lt_length_iff_exists.2
    ⟨id, List.mem_filter.2 ⟨hmem, by simpa using hseen⟩, by simp⟩

/-- The live panes that can be reached from waiting ones through spawned links without passing a
seen one, in the order in which they are found. -/
def reachable (t : PaneTable) (waiting seen : List PaneId) : List PaneId :=
  match waiting with
  | [] => []
  | id :: rest =>
    if hseen : seen.contains id then t.reachable rest seen
    else match h : t.pane? id with
      | none => t.reachable rest seen
      | some p =>
        have := unseen_cons_lt h hseen
        id :: t.reachable (p.spawned.toList ++ rest) (id :: seen)
termination_by (t.unseen seen, waiting.length)
decreasing_by
  · exact Prod.Lex.right _ (by simp)
  · exact Prod.Lex.right _ (by simp)
  · exact Prod.Lex.left _ _ this

theorem reachable_nil (t : PaneTable) (seen : List PaneId) : t.reachable [] seen = [] := by
  rw [reachable]

theorem reachable_cons_of_seen {t : PaneTable} {id : PaneId} {seen : List PaneId}
    (h : seen.contains id = true) (rest : List PaneId) :
    t.reachable (id :: rest) seen = t.reachable rest seen := by
  rw [reachable, dif_pos h]

theorem reachable_cons_of_dead {t : PaneTable} {id : PaneId} {seen : List PaneId}
    (h : ¬seen.contains id = true) (hdead : t.pane? id = none) (rest : List PaneId) :
    t.reachable (id :: rest) seen = t.reachable rest seen := by
  rw [reachable, dif_neg h]
  split
  next => rfl
  next p hp => simp [hdead] at hp

theorem reachable_cons_of_live {t : PaneTable} {id : PaneId} {seen : List PaneId} {p : Pane}
    (h : ¬seen.contains id = true) (hp : t.pane? id = some p) (rest : List PaneId) :
    t.reachable (id :: rest) seen =
      id :: t.reachable (p.spawned.toList ++ rest) (id :: seen) := by
  rw [reachable, dif_neg h]
  split
  next hdead => simp [hp] at hdead
  next q hq =>
    obtain rfl := Option.some.inj (hp.symm.trans hq)
    rfl

/-- A pane and everything spawned from it, directly or not. -/
def descendants (t : PaneTable) (root : PaneId) : List PaneId := t.reachable [root] []

/-- The panes that go with one that is destroyed: on request all of its descendants, but never the
primary pane. -/
def victims (t : PaneTable) (id : PaneId) (cascade : Bool) : List PaneId :=
  if cascade then (t.descendants id).filter fun p => some p ≠ t.primary else [id]

/-- Destroys a pane, and on request all of its descendants; tells which panes were removed. -/
def destroy (t : PaneTable) (id : PaneId) (cascade activate : Bool) :
    Except PaneError (PaneTable × List PaneId) := do
  let _ ← t.get id
  if t.primary = some id then throw (.primary id)
  else return t.remove (t.victims id cascade) activate

/-- Closes every pane, the last in display order first, and starts naming anew. -/
def clear (t : PaneTable) : PaneTable × List PaneId :=
  let (t, removed) := t.remove t.ids.reverse false
  ({ t with primary := none, active := none, naming := {} }, removed)

end StateAtlas.PaneTable
