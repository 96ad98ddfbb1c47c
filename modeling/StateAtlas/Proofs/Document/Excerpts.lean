import StateAtlas.Proofs.Session.Reopening
/-!
Documents of parts of panes.

A document of a pane lists the nodes of its store or, with a selection, those that are selected or
not on display, and the edges between the nodes that it lists.  Whatever the selection, and whether or
not the pane holds what is selected, this is a graph in its own right: the names in it are distinct
because they are so in the store, and no edge is listed without its ends.  So a store that is filled
with it passes over nothing, and a pane that is opened from it holds just what it lists.

Main statement: `lists_what_is_kept`.
-/

namespace StateAtlas

namespace PaneDocument

variable {p : Pane} {selection : Option (List NodeId)}

theorem keptNodes_sublist (p : Pane) (selection : Option (List NodeId)) :
    (keptNodes p selection).Sublist p.store.nodes := by
  cases selection with
  | none => exact .refl _
  | some chosen => exact List.filter_sublist

/-- With a selection, a node on display is kept only if it is selected. -/
theorem mem_keptNodes_iff {n : Node} :
    n ∈ keptNodes p selection ↔ n ∈ p.store.nodes ∧
      ∀ chosen ∈ selection, p.view.mode.admits n.kind = false ∨ n.id ∈ chosen := by
  cases selection with
  | none => simp [keptNodes]
  | some chosen =>
    simp [keptNodes]

theorem edgesBetween_sublist (nodes : List Node) (edges : List Edge) :
    (edgesBetween nodes edges).Sublist edges :=
  List.filter_sublist

theorem mem_edgesBetween_iff {nodes : List Node} {edges : List Edge} {e : Edge} :
    e ∈ edgesBetween nodes edges ↔
      e ∈ edges ∧ e.source ∈ nodes.map Node.id ∧ e.target ∈ nodes.map Node.id := by
  simp [edgesBetween]

/-- **What a document of a pane lists is a graph.** -/
theorem closed_ofPane (p : Pane) (selection : Option (List NodeId)) :
    (ofPane p selection).fragment.Closed := by
  refine p.store.closed_fragment.of_sublist (keptNodes_sublist p selection)
    (edgesBetween_sublist _ p.store.edges) ?_
  intro e he
  exact (mem_edgesBetween_iff.1 he).2

end PaneDocument

/-- **A document lists just what is kept, and none of it is lost.**  Of a pane and any selection the
document lists, in the order of the store, the nodes that are selected or not on display, or all of
them without a selection, and the edges of which both ends are listed.  An empty store that is filled
with them holds all of them and reports each of them as new, and a pane that any session opens from
the document holds just them. -/
theorem lists_what_is_kept (p : Pane) (selection : Option (List NodeId)) :
    let d := PaneDocument.ofPane p selection
    let filled := Store.empty.add d.fragment
    let brought := (Store.empty.addReporting d.fragment).2
    (d.nodes.Sublist p.store.nodes ∧ ∀ n, n ∈ d.nodes ↔ n ∈ p.store.nodes ∧
      ∀ chosen ∈ selection, p.view.mode.admits n.kind = false ∨ n.id ∈ chosen) ∧
    (d.edges.Sublist p.store.edges ∧ ∀ e, e ∈ d.edges ↔ e ∈ p.store.edges ∧
      e.source ∈ d.nodes.map Node.id ∧ e.target ∈ d.nodes.map Node.id) ∧
    (filled.nodes = d.nodes ∧ filled.edges = d.edges) ∧
    (brought.nodes = d.nodes.map Node.id ∧ brought.edges = d.edges.map Edge.id) ∧
    ∀ s : Session, ∃ new q, (s.openDocuments [d]).2 = [new] ∧
      (s.openDocuments [d]).1.table.pane? new = some q ∧
      q.store.nodes = d.nodes ∧ q.store.edges = d.edges := by
  intro d filled brought
  have hbrought : brought = .between .empty filled := congrArg Prod.snd (Store.addReporting_eq ..)
  -- The ends of its edges are in the document, so no edge is left out when it is added.
  have hclosed : d.fragment.Closed := PaneDocument.closed_ofPane p selection
  have hnodes : filled.nodes = d.nodes := hclosed.nodes_ofFragment
  have hedges : filled.edges = d.edges := hclosed.edges_ofFragment
  refine ⟨⟨PaneDocument.keptNodes_sublist p selection, fun n => PaneDocument.mem_keptNodes_iff⟩,
    ⟨PaneDocument.edgesBetween_sublist _ _, fun e => PaneDocument.mem_edgesBetween_iff⟩,
    ⟨hnodes, hedges⟩, ⟨?nodes, ?edges⟩, fun s => ?opened⟩
  case nodes =>
    calc brought.nodes = (Delta.between .empty filled).nodes := congrArg Delta.nodes hbrought
      _ = filled.nodeIds := (Store.nodeIds_add Store.empty d.fragment).symm
      _ = d.nodes.map Node.id := congrArg (List.map Node.id) hnodes
  case edges =>
    calc brought.edges = (Delta.between .empty filled).edges := congrArg Delta.edges hbrought
      _ = filled.edgeIds := (Store.edgeIds_add Store.empty d.fragment).symm
      _ = d.edges.map Edge.id := congrArg (List.map Edge.id) hedges
  case opened =>
    obtain ⟨b, -, hopened⟩ := s.contents_openDocument d
    obtain ⟨q, hq, hcontents⟩ := Option.map_eq_some_iff.1 hopened
    obtain ⟨hnew, hlive⟩ := s.openDocuments_singleton d (s.openDocument d).2
    have hstore : q.store = filled := congrArg Prod.fst hcontents
    exact ⟨_, q, hnew, hlive.trans hq, hstore ▸ hnodes, hstore ▸ hedges⟩

end StateAtlas
