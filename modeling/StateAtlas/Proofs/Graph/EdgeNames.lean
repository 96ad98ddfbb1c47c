import StateAtlas.Graph.Store
/-!
When an addition keeps every transition.

A store tells edges apart by their derived names, `source-label->target`, and of several edges with
one name it keeps the one that came first.  Ends and labels are texts of the backend's choice.  As
long as no source contains a `-` and no label a `>`, the name determines all three; in general it
does not, and then an edge whose ends are held can be lost to one that leads elsewhere.

Main statements: `add_keeps_transitions_iff`, which says when nothing is lost, and
`represents_of_plain`, by which names without separators are enough for that.
-/

namespace StateAtlas

/-! ## Names and transitions -/

/-- A text up to the first separator, and what follows it, are determined by the whole. -/
theorem split_at_first {sep : Char} {l l' rest rest' : List Char} (hl : sep ∉ l) (hl' : sep ∉ l')
    (h : l ++ sep :: rest = l' ++ sep :: rest') : l = l' ∧ rest = rest' := by
  induction l generalizing l' with
  | nil =>
    cases l' with
    | nil => exact ⟨rfl, (List.cons.inj h).2⟩
    | cons c cs => exact absurd ((List.cons.inj h).1 ▸ List.mem_cons_self) hl'
  | cons c cs ih =>
    cases l' with
    | nil => exact absurd ((List.cons.inj h).1 ▸ List.mem_cons_self) hl
    | cons c' cs' =>
      obtain ⟨rfl, htail⟩ := List.cons.inj h
      obtain ⟨rfl, hrest⟩ := ih (fun hmem => hl (List.mem_cons_of_mem _ hmem))
        (fun hmem => hl' (List.mem_cons_of_mem _ hmem)) htail
      exact ⟨rfl, hrest⟩

namespace Edge

/-- What an edge says: from where one can go, by which label, and to where. -/
def transition (e : Edge) : NodeId × String × NodeId := (e.source, e.label, e.target)

@[simp] theorem transition_normalized (e : Edge) : e.normalized.transition = e.transition := rfl

theorem key_eq_of_transition_eq {e e' : Edge} (h : e.transition = e'.transition) :
    e.key = e'.key := by
  simp only [transition, Prod.mk.injEq] at h
  obtain ⟨hsource, hlabel, htarget⟩ := h
  rw [key, key, hsource, hlabel, htarget]

theorem toList_key (e : Edge) :
    e.key.text.toList =
      e.source.text.toList ++ '-' :: ((e.label.toList ++ ['-']) ++ '>' :: e.target.text.toList) := by
  simp [key, EdgeId.derive]

/-- **Names without separators tell transitions apart.**  The first `-` ends the source, and the
first `>` ends the label and the dash behind it. -/
theorem transition_eq_of_key_eq {e e' : Edge} (h : e.key = e'.key)
    (hsource : '-' ∉ e.source.text.toList) (hsource' : '-' ∉ e'.source.text.toList)
    (hlabel : '>' ∉ e.label.toList) (hlabel' : '>' ∉ e'.label.toList) :
    e.transition = e'.transition := by
  have htext : e.key.text.toList = e'.key.text.toList := by rw [h]
  rw [toList_key, toList_key] at htext
  obtain ⟨hs, hrest⟩ := split_at_first hsource hsource' htext
  -- The dash behind the label is no `>`, so it can go with the label.
  have hdash : ∀ {l : List Char}, '>' ∉ l → '>' ∉ l ++ ['-'] := by
    intro l hl
    simpa using hl
  obtain ⟨hl, ht⟩ := split_at_first (hdash hlabel) (hdash hlabel') hrest
  have hs' : e.source = e'.source := congrArg NodeId.mk (String.toList_injective hs)
  have hl' : e.label = e'.label := String.toList_injective (List.append_cancel_right hl)
  have ht' : e.target = e'.target := congrArg NodeId.mk (String.toList_injective ht)
  rw [transition, transition, hs', hl', ht']

end Edge

namespace Store

/-! ## What an addition puts in -/

/-- The store with nodes put in, but no edges yet. -/
def putNodes (s : Store) (ns : List Node) : Store := ns.foldl insertNode s

/-- Whether both ends of an edge are held. -/
def joins (s : Store) (e : Edge) : Bool := s.hasNode e.source && s.hasNode e.target

/-- The edges of a fragment whose two ends are held once its nodes are put in. -/
def joined (s : Store) (g : Fragment) : List Edge := g.edges.filter (s.putNodes g.nodes).joins

theorem joins_insertEdge (s : Store) (e : Edge) : (s.insertEdge e).joins = s.joins := by
  funext e'
  rw [joins, joins, Bool.eq_iff_iff]
  simp only [Bool.and_eq_true, hasNode_iff, nodeIds, nodes_insertEdge]

theorem edge?_of_mem_edges {s : Store} {e : Edge} (h : e ∈ s.edges) : s.edge? e.key = some e := by
  obtain ⟨k, -, hk⟩ := List.mem_filterMap.1 h
  rw [(s.consistent.key_edge hk).1]
  exact hk

theorem mem_edges_of_edge? {s : Store} {k : EdgeId} {e : Edge} (h : s.edge? k = some e) :
    e ∈ s.edges := by
  rw [edge?_eq_find?] at h
  exact List.mem_of_find?_eq_some h

theorem normalized_of_mem_edges {s : Store} {e : Edge} (h : e ∈ s.edges) : e.normalized = e := by
  rw [Edge.normalized, ← id_eq_key_of_mem_edges h]

theorem edge?_insertEdge (s : Store) (e : Edge) (k : EdgeId) :
    (s.insertEdge e).edge? k =
      (s.edge? k).or (if s.joins e ∧ e.key = k then some e.normalized else none) := by
  unfold insertEdge StoreTables.insertEdge edge? joins hasNode
  split
  next hskip =>
    cases hk : s.tables.edgeTable.get? k with
    | some e' => rfl
    | none =>
      -- If `k` is the name of the edge, it is passed over for want of an end.
      rw [Option.none_or, if_neg]
      rintro ⟨hends, rfl⟩
      rw [StoreTables.holdsEnds, hends] at hskip
      simp [Dictionary.contains, hk] at hskip
  next htake =>
    simp only [Bool.or_eq_true, Bool.not_eq_true', not_or, Bool.not_eq_false] at htake
    by_cases hk : e.key = k
    · subst hk
      have hnone : s.tables.edgeTable.get? e.key = none := by
        simpa [Dictionary.contains] using htake.1
      have hends := htake.2
      rw [StoreTables.holdsEnds] at hends
      rw [StoreTables.get?_appendEdge_self, hnone, Option.none_or, if_pos ⟨hends, rfl⟩]
    · rw [StoreTables.get?_appendEdge (Ne.symm hk), if_neg (fun h => hk h.2), Option.or_none]

/-- Of edges with one name the first is kept, among those whose ends are held. -/
theorem edge?_foldl_insertEdge (es : List Edge) (s : Store) (k : EdgeId) :
    (es.foldl insertEdge s).edge? k =
      (s.edge? k).or (((es.filter s.joins).find? fun e => e.key = k).map Edge.normalized) := by
  induction es generalizing s with
  | nil => simp
  | cons e es ih =>
    -- Edges bring no nodes, so the ends that are held stay the same on the way.
    rw [List.foldl_cons, ih, joins_insertEdge, edge?_insertEdge, Option.or_assoc]
    congr 1
    by_cases hjoins : s.joins e = true
    · by_cases hk : e.key = k <;> simp [hjoins, hk]
    · simp [hjoins]

/-- An edge that is held is held under its derived name. -/
theorem find?_key_edges (s : Store) (k : EdgeId) :
    (s.edges.find? fun e => e.key = k).map Edge.normalized = s.edge? k := by
  cases hfind : s.edges.find? fun e => e.key = k with
  | none =>
    rw [Option.map_none, eq_comm, edge?_eq_find?, List.find?_eq_none]
    intro e he
    rw [id_eq_key_of_mem_edges he]
    exact List.find?_eq_none.1 hfind e he
  | some e =>
    have hmem := List.mem_of_find?_eq_some hfind
    obtain rfl : e.key = k := by simpa using List.find?_some hfind
    rw [edge?_of_mem_edges hmem, Option.map_some, normalized_of_mem_edges hmem]

/-- **An addition keeps the edges held**, and of those brought the first of each name whose ends are
held. -/
theorem edge?_add_eq_or (s : Store) (g : Fragment) (k : EdgeId) :
    (s.add g).edge? k =
      (s.edge? k).or (((s.joined g).find? fun e => e.key = k).map Edge.normalized) := by
  have hsame : (s.putNodes g.nodes).edge? k = s.edge? k := by
    rw [edge?_eq_find?, edge?_eq_find?, putNodes, edges_foldl_insertNode]
  rw [add_eq_foldl, ← putNodes, edge?_foldl_insertEdge, hsame, joined]

/-- **An addition keeps the first edge of each name**, among the edges held before and those of the
fragment whose ends are held. -/
theorem edge?_add (s : Store) (g : Fragment) (k : EdgeId) :
    (s.add g).edge? k =
      ((s.edges ++ s.joined g).find? fun e => e.key = k).map Edge.normalized := by
  rw [edge?_add_eq_or, List.find?_append, Option.map_or, find?_key_edges]

/-! ## Which transitions an addition keeps -/

/-- Whether a store says of a transition that one can take it. -/
def Represents (s : Store) (e : Edge) : Prop := ∃ e' ∈ s.edges, e'.transition = e.transition

/-- A transition is kept if no other of its name is held or brought. -/
theorem represents_of_joined {s : Store} {g : Fragment} {e : Edge} (he : e ∈ s.joined g)
    (hname : ∀ x ∈ s.edges ++ s.joined g, x.key = e.key → x.transition = e.transition) :
    (s.add g).Represents e := by
  have hsome : ((s.edges ++ s.joined g).find? fun x => x.key = e.key).isSome = true :=
    List.find?_isSome.2 ⟨e, List.mem_append_right _ he, by simp⟩
  obtain ⟨x, hx⟩ := Option.isSome_iff_exists.1 hsome
  have hkey : x.key = e.key := by simpa using List.find?_some hx
  refine ⟨x.normalized, mem_edges_of_edge? (k := e.key) ?_, ?_⟩
  · rw [edge?_add, hx, Option.map_some]
  · exact hname x (List.mem_of_find?_eq_some hx) hkey

/-- Two transitions of one name are not both kept. -/
theorem transition_eq_of_represents {s : Store} {e e' : Edge} (h : s.Represents e)
    (h' : s.Represents e') (hkey : e.key = e'.key) : e.transition = e'.transition := by
  obtain ⟨x, hx, hxe⟩ := h
  obtain ⟨x', hx', hxe'⟩ := h'
  have hsame : x.key = x'.key :=
    (Edge.key_eq_of_transition_eq hxe).trans (hkey.trans (Edge.key_eq_of_transition_eq hxe').symm)
  have hedge := edge?_of_mem_edges hx
  rw [hsame, edge?_of_mem_edges hx', Option.some.injEq] at hedge
  rw [← hxe, ← hxe', hedge]

/-- Sources without a `-` and labels without a `>` are enough for nothing to be lost. -/
theorem represents_of_plain {s : Store} {g : Fragment}
    (hsource : ∀ x ∈ s.edges ++ g.edges, '-' ∉ x.source.text.toList)
    (hlabel : ∀ x ∈ s.edges ++ g.edges, '>' ∉ x.label.toList) {e : Edge} (he : e ∈ s.joined g) :
    (s.add g).Represents e := by
  have hsub : ∀ x ∈ s.edges ++ s.joined g, x ∈ s.edges ++ g.edges := by
    intro x hx
    rcases List.mem_append.1 hx with hheld | hnew
    · exact List.mem_append_left _ hheld
    · exact List.mem_append_right _ (List.mem_filter.1 hnew).1
  have he' := hsub e (List.mem_append_right _ he)
  refine represents_of_joined he fun x hx hkey => ?_
  have hx' := hsub x hx
  exact Edge.transition_eq_of_key_eq hkey (hsource x hx') (hsource e he') (hlabel x hx')
    (hlabel e he')

/-- **An addition keeps every transition whose ends are held just when names tell transitions
apart**: when none of the edges brought shares its name with one, held or brought, that says
something else. -/
theorem add_keeps_transitions_iff (s : Store) (g : Fragment) :
    (∀ e ∈ g.edges, (s.putNodes g.nodes).hasNode e.source = true →
      (s.putNodes g.nodes).hasNode e.target = true → (s.add g).Represents e) ↔
    ∀ e ∈ s.joined g, ∀ x ∈ s.edges ++ s.joined g, x.key = e.key → x.transition = e.transition := by
  have hjoined : ∀ e, e ∈ s.joined g ↔ e ∈ g.edges ∧
      (s.putNodes g.nodes).hasNode e.source = true ∧
      (s.putNodes g.nodes).hasNode e.target = true := by
    intro e
    rw [joined, List.mem_filter, joins, Bool.and_eq_true]
  constructor
  · intro hkeeps e he x hx hkey
    -- If both were kept under one name, they would say the same.
    have hkept : ∀ y ∈ s.joined g, (s.add g).Represents y := by
      intro y hy
      obtain ⟨hmem, hsource, htarget⟩ := (hjoined y).1 hy
      exact hkeeps y hmem hsource htarget
    have hx' : (s.add g).Represents x := by
      rcases List.mem_append.1 hx with hheld | hnew
      · exact ⟨x, (s.edges_isPrefix_add g).subset hheld, rfl⟩
      · exact hkept x hnew
    exact transition_eq_of_represents hx' (hkept e he) hkey
  · intro hname e hmem hsource htarget
    have he := (hjoined e).2 ⟨hmem, hsource, htarget⟩
    exact represents_of_joined he (hname e he)

/-- The edges from `a` by `b-c` and from `a-b` by `c` have one name: of two transitions whose ends
are all held the second is lost. -/
theorem add_loses_transition :
    let first : Edge := { source := ⟨"a"⟩, label := "b-c", target := ⟨"t0"⟩ }
    let second : Edge := { source := ⟨"a-b"⟩, label := "c", target := ⟨"t0"⟩ }
    let g : Fragment :=
      { nodes := [{ id := ⟨"a"⟩, kind := .state }, { id := ⟨"a-b"⟩, kind := .state },
          { id := ⟨"t0"⟩, kind := .action }]
        edges := [first, second] }
    second ∈ g.edges ∧ (empty.putNodes g.nodes).hasNode second.source = true ∧
      (empty.putNodes g.nodes).hasNode second.target = true ∧
      ¬(empty.add g).Represents second := by
  intro first second g
  have hedges : (empty.add g).edges = [first.normalized] := by decide
  refine ⟨by decide, by decide, by decide, ?_⟩
  rintro ⟨e, he, htransition⟩
  rw [hedges, List.mem_singleton] at he
  subst he
  exact absurd htransition (by decide)

end Store

end StateAtlas
