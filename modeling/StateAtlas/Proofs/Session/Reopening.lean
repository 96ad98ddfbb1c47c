import StateAtlas.Proofs.Graph.Union
import StateAtlas.Proofs.Pane.Accounting
import StateAtlas.Proofs.Session.FreshRuns
import StateAtlas.Proofs.Session.Merges
import StateAtlas.Session.Lifecycle
/-!
Panes that are opened from documents.

A document of a whole pane lists what the store holds and takes along the view, the nodes that the
pane was spawned for, and the state of the brush.  The pane that is opened from it gets its own store
and rows, its dimensions have the scales of another schema, and the state is put in before there are
any dimensions.  Nevertheless the pane comes out as it was, because the state of a fresh pane already
goes by the dimensions that its rows show.

Main statement: `reopens_as_exported`.
-/

namespace StateAtlas

open PaneTable

/-! ## Documents of whole panes -/

namespace PaneDocument

/-- Both ends of every edge of a store are kept. -/
theorem edgesBetween_nodes (s : Store) : edgesBetween s.nodes s.edges = s.edges := by
  have hkept : ∀ id, s.hasNode id = true → (s.nodes.any fun n => n.id = id) = true := by
    intro id hid
    obtain ⟨n, hn, hname⟩ := List.mem_map.1 (Store.hasNode_iff.1 hid)
    exact List.any_eq_true.2 ⟨n, hn, decide_eq_true hname⟩
  refine List.filter_eq_self.2 fun e he => ?_
  obtain ⟨hsource, htarget⟩ := Store.hasNode_ends_of_mem_edges he
  exact Bool.and_eq_true_iff.2 ⟨hkept _ hsource, hkept _ htarget⟩

theorem fragment_ofPane (p : Pane) : (ofPane p none).fragment = p.store.fragment :=
  congrArg (Fragment.mk p.store.nodes) (edgesBetween_nodes p.store)

end PaneDocument

/-! ## What panes are made of -/

namespace Pane

/-- What a document takes along of a pane. -/
def contents (p : Pane) : Store × ViewState × List NodeId × Brush Float :=
  (p.store, p.view, p.spawnerNodes, p.brush)

theorem contents_select (p : Pane) (ids : List NodeId) : (p.select ids).contents = p.contents := by
  simp only [select]
  split <;> rfl

theorem contents_noteAdded (p : Pane) (ids : List NodeId) :
    (p.noteAdded ids).contents = p.contents :=
  (congrArg contents (still_settle _) :)

/-- The second pane holds the same nodes and edges as the first in the same order, is shown in the
same way, was spawned for the same nodes, and brushes and selects the same. -/
structure Reproduces (p q : Pane) : Prop where
  nodes_eq : q.store.nodes = p.store.nodes
  edges_eq : q.store.edges = p.store.edges
  view_eq : q.view = p.view
  spawnerNodes_eq : q.spawnerNodes = p.spawnerNodes
  constraints_eq : q.brush.state.constraints = p.brush.state.constraints
  order_eq : q.brush.state.order = p.brush.state.order
  selected_eq : q.brush.selected = p.brush.selected

/-- A fresh pane is reproduced from its document, by whatever schema. -/
theorem Fresh.reproduces {p q : Pane} (h : p.Fresh) (hidle : p.brush.debounce.pending = false)
    {b : Brush Float} (hb : b.state = p.brush.state) {schema : Schema}
    (hq : q.contents = (.ofFragment (PaneDocument.ofPane p none).fragment, p.view, p.spawnerNodes,
      b.projectStore (.ofFragment (PaneDocument.ofPane p none).fragment) p.view.mode p.view.details
        schema)) : p.Reproduces q := by
  rw [PaneDocument.fragment_ofPane] at hq
  simp only [contents, Prod.mk.injEq] at hq
  obtain ⟨hstore, hview, hspawned, hbrush⟩ := hq
  have hnodes := p.store.nodes_ofFragment
  have hattributes : (Store.ofFragment p.store.fragment).attributes p.view.mode p.view.details =
      p.brush.attributes := by
    rw [h.attributes_eq, Store.attributes, Store.attributes, hnodes]
  have hstate : q.brush.state = p.brush.state :=
    hbrush ▸ h.normal.state_projectStore hb hattributes schema
  have hrows : q.brush.rows = p.brush.rows := by
    rw [hbrush, Brush.rows_projectStore, h.rows_eq, Store.rows, Store.rows, hnodes]
  have hselected : q.brush.selected = q.brush.admitted := by
    rw [hbrush]
    exact Brush.selected_recompute _
  constructor
  case nodes_eq => rw [hstore, hnodes]
  case edges_eq => rw [hstore, Store.edges_ofFragment]
  case view_eq => exact hview
  case spawnerNodes_eq => exact hspawned
  case constraints_eq => rw [hstate]
  case order_eq => rw [hstate]
  case selected_eq =>
    rw [hselected, h.current hidle]
    exact Brush.admitted_congr hrows (congrArg BrushState.constraints hstate)

end Pane

/-! ## Opening -/

theorem PaneTable.contents_openPane (t : PaneTable) (r : SpawnRequest) :
    ∃ window, ((t.openPane r).1.pane? (t.openPane r).2).map Pane.contents =
      some (.ofFragment r.seed, r.view, r.spawnerNodes, .start (t.openPane r).2 {} window) := by
  refine ⟨(t.named r).1.brushWindow, ?_⟩
  rw [pane?_openPane, openPane_eq]
  exact (map_pane?_place (fun _ _ => rfl) _ _ r.spawner r.insert _).trans (if_pos rfl)

namespace Session

theorem contents_derived (s : Session) (added : List NodeId) (p : Pane) :
    (s.derived added p).contents = (p.store, p.view, p.spawnerNodes,
      p.brush.projectStore p.store p.view.mode p.view.details s.schema) := by
  have hnoted := p.contents_noteAdded added
  simp only [Pane.contents, Prod.mk.injEq] at hnoted
  obtain ⟨hstore, hview, hnodes, hbrush⟩ := hnoted
  simp only [Pane.contents, derived, Pane.project, hstore, hview, hnodes, hbrush]

/-- What is announced of a brush leaves alone what panes are made of. -/
theorem contents_publishBrush (s : Session) (id k : PaneId) :
    ((s.publishBrush id).table.pane? k).map Pane.contents =
      (s.table.pane? k).map Pane.contents := by
  unfold Session.publishBrush
  split
  next p hp =>
    refine Dictionary.map_get?_modify (fun q => ?_) s.table.live _ k
    split
    · exact q.contents_select _
    · rfl
  next => rfl

theorem contents_recomputeWatched (s : Session) (k : PaneId) :
    (s.recomputeWatched.table.pane? k).map Pane.contents =
      (s.table.pane? k).map Pane.contents := by
  unfold Session.recomputeWatched
  split
  · rfl
  · have hpane : ∀ r : Recurrence, (s.applyRecurrence r).table.pane? k =
        (s.table.pane? k).map fun p => { p with recurring := r.forPane p.id } :=
      fun r => pane?_modifyAll ..
    rw [hpane, Option.map_map]
    rfl

theorem contents_afterGrowth (s : Session) (id : PaneId) (added : List NodeId) :
    ((s.afterGrowth id added).table.pane? id).map Pane.contents =
      (s.table.pane? id).map fun p => (s.derived added p).contents := by
  unfold Session.afterGrowth
  rw [contents_recomputeWatched, contents_publishBrush, pane?_modify_self, Option.map_map]
  rfl

/-- **A pane that is opened from a document** holds just what the document lists.  Its brush has taken
over the stored state and projects the store by the schema of the session. -/
theorem contents_openDocument (s : Session) (d : PaneDocument) :
    ∃ b : Brush Float, b.state = d.brush ∧
      ((s.openDocument d).1.table.pane? (s.openDocument d).2).map Pane.contents =
        some (.ofFragment d.fragment, d.view, d.spawnerNodes,
          b.projectStore (.ofFragment d.fragment) d.view.mode d.view.details s.schema) := by
  have hschema : (s.warnMismatches d).schema = s.schema := by
    unfold warnMismatches
    split <;> rfl
  obtain ⟨window, hopened⟩ := (s.warnMismatches d).table.contents_openPane (documentRequest d)
  unfold openDocument
  dsimp only
  generalize (s.warnMismatches d).table.openPane (documentRequest d) = r at hopened ⊢
  obtain ⟨p, hp, hcontents⟩ := Option.map_eq_some_iff.1 hopened
  refine ⟨(Brush.start r.2 {} window).replaceState d.brush,
    Brush.state_adopt_of_no_dimensions rfl d.brush, ?_⟩
  rw [settle, contents_afterGrowth, pane?_modify_self]
  simp only [Pane.contents, Prod.mk.injEq] at hcontents
  obtain ⟨hstore, hview, hnodes, hbrush⟩ := hcontents
  have hlive : ({ s.warnMismatches d with table := r.1 } : Session).table.pane? r.2 = some p := hp
  rw [hlive, Option.map_some, Option.map_some, contents_derived]
  dsimp only
  rw [hstore, hview, hnodes, hbrush, ← hschema]
  rfl

/-- One document opens one pane. -/
theorem openDocuments_singleton (s : Session) (d : PaneDocument) (k : PaneId) :
    (s.openDocuments [d]).2 = [(s.openDocument d).2] ∧
      (s.openDocuments [d]).1.table.pane? k = (s.openDocument d).1.table.pane? k := by
  rw [openDocuments, List.foldl_cons, List.foldl_nil, openNext]
  generalize s.openDocument d = r
  exact ⟨rfl, rfl⟩

/-- A document of two states, one of which has a flag that is constrained under its bare name. -/
def flagged : PaneDocument :=
  let node (id : String) (lit : Bool) : Node :=
    { id := ⟨id⟩, kind := .state, attributes := .ofList [("flags", .ofList [("lit", .bool lit)])] }
  { version := PaneDocument.supportedVersion
    pane := Naming.primary
    nodes := [node "on" true, node "off" false]
    edges := []
    brush := { constraints := .ofList [("lit", .oneOf ["true"])] } }

/-- A session with a pane opened from the document. -/
def flaggedSession : Session :=
  ((vacant ({} : Config).options {}).run (.constant {}) [.openDocuments [flagged]] ()).1

end Session

open Session

/-- **A pane that is exported and imported again comes out as it was.**  Whatever was asked of a
session, and whatever the backend answers: of a live pane for which no recomputation is pending, the
document without a selection opens in any session, whatever its schema, a pane that holds, shows and
brushes the same. -/
theorem reopens_as_exported {σ : Type} (backend : Backend (StateM σ)) (env : σ)
    (options : SessionOptions) (bus : Bus) (commands : List SessionCommand) :
    let s := ((vacant options bus).run backend commands env).1
    ∀ id p, s.table.pane? id = some p → p.brush.debounce.pending = false →
      ∀ other : Session, ∃ new q,
        (other.openDocuments [.ofPane p none]).2 = [new] ∧
        (other.openDocuments [.ofPane p none]).1.table.pane? new = some q ∧
        p.Reproduces q := by
  intro s id p hp hidle other
  have hfresh : p.Fresh :=
    ((fresh_vacant options bus).run commands env).fresh hp List.not_mem_nil
  obtain ⟨b, hstate, hopened⟩ := other.contents_openDocument (.ofPane p none)
  obtain ⟨q, hq, hcontents⟩ := Option.map_eq_some_iff.1 hopened
  obtain ⟨hnew, hlive⟩ := other.openDocuments_singleton (.ofPane p none)
    (other.openDocument (.ofPane p none)).2
  exact ⟨_, q, hnew, hlive.trans hq, hfresh.reproduces hidle hstate hcontents⟩

/-- A constraint that a document brings under a bare name comes back under its key. -/
theorem reopens_as_exported_flagged :
    ∃ p, flaggedSession.table.pane? Naming.primary = some p ∧
      p.brush.debounce.pending = false ∧ p.brush.selected = [⟨"on"⟩] ∧
      p.brush.state.constraints.keys = ["flags/lit"] ∧
      ∃ new q, (flaggedSession.openDocuments [.ofPane p none]).2 = [new] ∧
        (flaggedSession.openDocuments [.ofPane p none]).1.table.pane? new = some q ∧
        p.Reproduces q := by
  have hlive : (flaggedSession.table.pane? Naming.primary).map (fun p =>
      (p.brush.debounce.pending, p.brush.selected, p.brush.state.constraints.keys)) =
        some (false, [⟨"on"⟩], ["flags/lit"]) := by decide +kernel
  obtain ⟨p, hp, hfacts⟩ := Option.map_eq_some_iff.1 hlive
  simp only [Prod.mk.injEq] at hfacts
  obtain ⟨hidle, hselected, hkeys⟩ := hfacts
  exact ⟨p, hp, hidle, hselected, hkeys,
    reopens_as_exported (.constant {}) () ({} : Config).options {} [.openDocuments [flagged]] _ p
      hp hidle flaggedSession⟩

end StateAtlas
