import StateAtlas.Proofs.Pane.Merging
import StateAtlas.Proofs.Session.Soundness
/-!
Merging panes of a session.

A merge makes the union of its inputs, whatever was asked of the session before.  It does not keep
what is known to be expanded, though: the merged store is put together from nodes and edges alone, so
a node that an input expanded without finding a successor is fetched again.

Main statements: `merges_into_union`, `expanded_merge_iff`.
-/

namespace StateAtlas

/-! ## Two panes to merge -/

/-- A backend that gives the same answer whatever it is asked. -/
def Backend.constant (g : Fragment) : Backend (StateM Unit) where
  initial := return .ok g
  status := return .ok {}
  outgoing _ := return .ok g
  reset _ _ := return .ok {}

namespace Session

/-- A session is started, its first pane is expanded at one state, and that pane is copied. -/
def expandAndCopy : List Request :=
  [.session .start, .session (.expand ⟨"pane-0"⟩ [⟨"s0"⟩]), .session (.duplicate ⟨"pane-0"⟩)]

/-- The names of the two panes. -/
def original : PaneId := ⟨"pane-0"⟩

@[inherit_doc original]
def copied : PaneId := ⟨"DUPLICATE-pane-0-1"⟩

/-- The table with the two panes. -/
def expandedAndCopied (g : Fragment) : PaneTable :=
  (((vacant ({} : Config).options {}).serveAll (.constant g) expandAndCopy) ()).1.table

/-- The inputs of a merge can be computed. -/
theorem inputs_eq {t : PaneTable} {ids : List PaneId} {panes : List Pane}
    (h : ids.map t.pane? = panes.map some) : panes = ids.filterMap t.pane? := by
  have hlive := congrArg (List.filterMap fun p => p) h
  simpa [List.filterMap_map, Function.comp_def] using hlive.symm

/-- One state, from which nothing leads on. -/
def deadlock : Fragment := { nodes := [{ id := ⟨"s0"⟩, kind := .state }] }

/-- One state and a step from it. -/
def oneStep : Fragment :=
  { nodes := [{ id := ⟨"s0"⟩, kind := .state }, { id := ⟨"t0"⟩, kind := .action }]
    edges := [.between ⟨"s0"⟩ "go" ⟨"t0"⟩] }

end Session

open PaneTable Session

/-! ## The union of panes -/

/-- **A merge is the union of its inputs.**  Whatever was asked of a session and past it of its table,
and whatever the backend answers: of a merge that succeeds the merged pane holds the nodes and edges
of its inputs, in their order, each as the first input has it; it notes what they noted and takes view
and brush from the first.  It is spawned from its inputs or, if these are discarded, from what they
were spawned from.  Inputs that are kept stay as they are, discarded ones are closed and nothing else
is, after the merged pane was announced. -/
theorem merges_into_union {σ : Type} (backend : Backend (StateM σ)) (env : σ)
    (options : SessionOptions) (bus : Bus) (requests : List Request) :
    let t := ((Session.vacant options bus).serveAll backend requests env).1.table
    ∀ inputs keep u id, t.merge inputs keep = .ok (u, id) →
      ∃ panes merged, t.MergesInto inputs.eraseDups keep u id panes merged := by
  intro t inputs keep u id hmerge
  have hsound : t.Sound := (Session.sound_vacant options bus).serveAll requests env
  exact hsound.mergesInto hmerge

theorem merges_into_union_of_copied :
    ∃ u id, (expandedAndCopied oneStep).merge [original, copied, original] true = .ok (u, id) ∧
      ∃ panes merged, (expandedAndCopied oneStep).MergesInto [original, copied] true u id panes
        merged := by
  obtain ⟨⟨u, id⟩, hmerge⟩ := exists_eq_ok
    (x := (expandedAndCopied oneStep).merge [original, copied, original] true) (by decide +kernel)
  exact ⟨u, id, hmerge, merges_into_union (.constant oneStep) () ({} : Config).options {}
    expandAndCopy _ true u id hmerge⟩

/-! ## What a merge forgets -/

/-- **A merge keeps a node expanded just when an edge leaves it** in an input and is the first of its
name.  Otherwise the merged pane plans to fetch what leads on from the node, even if an input had
fetched that. -/
theorem expanded_merge_iff (t : PaneTable) (inputs : List PaneId) (keep : Bool) (u : PaneTable)
    (id : PaneId) (hmerge : t.merge inputs keep = .ok (u, id)) :
    ∃ (panes : List Pane) (merged : Pane), inputs.eraseDups.map t.pane? = panes.map some ∧
      u.pane? id = some merged ∧
      ∀ n, (merged.store.isCollapsed n = false ∧ ∀ frontier, n ∉ merged.store.plan frontier) ↔
        ∃ p ∈ panes, ∃ e ∈ p.store.edges, e.source = n ∧
          panes.findSome? (fun q => q.store.edge? e.key) = some e := by
  obtain ⟨panes, merged, hinputs, hmerged, hstore⟩ := store_merge hmerge
  refine ⟨panes, merged, hinputs, hmerged, fun n => ?_⟩
  have hplan : merged.store.isCollapsed n = false → ∀ frontier, n ∉ merged.store.plan frontier := by
    intro hexpanded frontier hmem
    obtain ⟨-, -, hcollapsed⟩ := Store.mem_plan_iff.1 hmem
    exact Bool.false_ne_true (hexpanded.symm.trans hcollapsed)
  rw [and_iff_left_of_imp hplan, hstore, Store.isCollapsed_union]
  simp only [List.mem_map, List.findSome?_map, exists_exists_and_eq_and, Function.comp_def]

/-- A state from which a step leads on stays expanded. -/
theorem expanded_merge_of_step :
    ∃ u id merged, (expandedAndCopied oneStep).merge [original, copied] true = .ok (u, id) ∧
      u.pane? id = some merged ∧ merged.store.isCollapsed ⟨"s0"⟩ = false := by
  obtain ⟨⟨u, id⟩, hmerge⟩ := exists_eq_ok
    (x := (expandedAndCopied oneStep).merge [original, copied] true) (by decide +kernel)
  obtain ⟨panes, merged, hinputs, hmerged, hexpanded⟩ :=
    expanded_merge_iff (expandedAndCopied oneStep) [original, copied] true u id hmerge
  refine ⟨u, id, merged, hmerge, hmerged, ((hexpanded ⟨"s0"⟩).2 ?_).1⟩
  rw [inputs_eq hinputs]
  decide +kernel

/-- **A merge forgets deadlocks**: a state that both inputs expanded without finding a successor is
collapsed in the merged pane, which plans to fetch it once more. -/
theorem merge_forgets_deadlock :
    ∃ u id p merged, (expandedAndCopied deadlock).merge [original, copied] true = .ok (u, id) ∧
      (expandedAndCopied deadlock).pane? original = some p ∧
      u.pane? id = some merged ∧ p.store.isCollapsed ⟨"s0"⟩ = false ∧
      merged.store.isCollapsed ⟨"s0"⟩ = true ∧ merged.store.plan [⟨"s0"⟩] = [⟨"s0"⟩] := by
  obtain ⟨⟨u, id⟩, hmerge⟩ := exists_eq_ok
    (x := (expandedAndCopied deadlock).merge [original, copied] true) (by decide +kernel)
  obtain ⟨panes, merged, hinputs, hmerged, hstore⟩ := store_merge hmerge
  have hexpanded : ((expandedAndCopied deadlock).pane? original).map
      (fun p => p.store.isCollapsed ⟨"s0"⟩) = some false := by decide +kernel
  obtain ⟨p, hp, hknown⟩ := Option.map_eq_some_iff.1 hexpanded
  refine ⟨u, id, p, merged, hmerge, hp, hmerged, hknown, ?_, ?_⟩
  all_goals
    rw [hstore, inputs_eq hinputs]
    decide +kernel

end StateAtlas
