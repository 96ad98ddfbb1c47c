import Mathlib.Data.List.Induction
import StateAtlas.Proofs.Graph.Union
/-!
From states to states, forward and backward.

Forward a store looks up the edges that leave a node and backward those that enter it, in tables of
their own.  Both tables list the edges that are held, in the order in which they came, so either way
the neighbours can be read off the edges: the same edge that leads from a state to an action, or from
an action to a state, is found from both of its ends.

Main statement: `navigates_both_ways`.
-/

namespace StateAtlas

/-! ## Lists that gather lists -/

section

variable {α β : Type} [BEq α] [LawfulBEq α]

/-- A list has the elements of lists, each once, in the order in which the lists first bring them. -/
structure Gathers (parts : List (List α)) (as : List α) : Prop where
  nodup : as.Nodup
  mem_iff : ∀ a, a ∈ as ↔ ∃ part ∈ parts, a ∈ part
  inOrder : as = parts.flatten.eraseDups

theorem gathers_iff {parts : List (List α)} {as : List α} :
    Gathers parts as ↔ as = parts.flatten.eraseDups := by
  refine ⟨Gathers.inOrder, ?_⟩
  rintro rfl
  refine ⟨nodup_eraseDups _, fun a => ?_, rfl⟩
  rw [List.mem_eraseDups, List.mem_flatten]

/-- Repetitions may be left out of the last part beforehand. -/
theorem eraseDups_append_right [DecidableEq α] (as bs : List α) :
    (as ++ bs.eraseDups).eraseDups = (as ++ bs).eraseDups := by
  induction bs using List.reverseRecOn with
  | nil => rfl
  | append_singleton bs b ih =>
    rw [eraseDups_concat, ← List.append_assoc, eraseDups_concat, ← ih]
    by_cases hmem : b ∈ bs
    · rw [if_pos hmem, if_pos (List.mem_append_right as hmem)]
    · rw [if_neg hmem, ← List.append_assoc, eraseDups_concat]
      simp only [List.mem_append, List.mem_eraseDups]

/-- Repetitions may be left out of each part beforehand. -/
theorem eraseDups_flatMap_eraseDups [DecidableEq α] (f : β → List α) (bs : List β) :
    (bs.flatMap fun b => (f b).eraseDups).eraseDups = (bs.flatMap f).eraseDups := by
  induction bs with
  | nil => rfl
  | cons b bs ih =>
    calc ((b :: bs).flatMap fun b => (f b).eraseDups).eraseDups
      _ = (f b ++ (bs.flatMap fun b => (f b).eraseDups)).eraseDups := by
        rw [List.flatMap_cons, eraseDups_append_left]
      _ = (f b ++ bs.flatMap f).eraseDups := by
        rw [← eraseDups_append_right, ih, eraseDups_append_right]
      _ = ((b :: bs).flatMap f).eraseDups := by rw [List.flatMap_cons]

theorem gathers_flatMap (f : β → List α) (bs : List β) :
    Gathers (bs.map f) (bs.flatMap f).eraseDups :=
  gathers_iff.2 rfl

/-- What several sources bring gathers what each brings on its own. -/
theorem gathers_singletons [DecidableEq α] (f : β → List α) (bs : List β) :
    Gathers (bs.map fun b => ([b].flatMap f).eraseDups) (bs.flatMap f).eraseDups := by
  rw [gathers_iff, ← eraseDups_flatMap_eraseDups, List.flatMap_def]
  simp only [List.flatMap_singleton]

end

namespace Store

variable {s : Store} {kind : NodeKind} {x y : NodeId}

/-! ## Neighbours by the edges -/

/-- Names under which nodes of a kind stand, each once. -/
def ofKind (s : Store) (kind : NodeKind) (ids : List NodeId) : List NodeId :=
  ids.eraseDups.filter fun id => (s.node? id).any fun n => n.kind = kind

/-- The nodes of a kind that edges lead to from a node, each once, in the order of the edges. -/
def targets (s : Store) (kind : NodeKind) (x : NodeId) : List NodeId :=
  s.ofKind kind ((s.edges.filter fun e => e.source = x).map Edge.target)

/-- The nodes of a kind that edges lead from to a node, each once, in the order of the edges. -/
def origins (s : Store) (kind : NodeKind) (y : NodeId) : List NodeId :=
  s.ofKind kind ((s.edges.filter fun e => e.target = y).map Edge.source)

theorem map_id_pick (s : Store) (kind : NodeKind) (ids : List NodeId) :
    (s.pick kind ids).map Node.id = s.ofKind kind ids := by
  unfold pick ofKind
  induction ids.eraseDups with
  | nil => rfl
  | cons id ids ih =>
    cases hn : s.node? id with
    | none => simpa [hn] using ih
    | some n =>
      by_cases hkind : n.kind = kind
      · simpa [hn, hkind, id_of_node? hn] using ih
      · simpa [hn, hkind] using ih

theorem map_id_successors (s : Store) (kind : NodeKind) (x : NodeId) :
    (s.successors x kind).map Node.id = s.targets kind x := by
  rw [successors, map_id_pick, outgoing_eq_filter, targets]

theorem map_id_predecessors (s : Store) (kind : NodeKind) (y : NodeId) :
    (s.predecessors y kind).map Node.id = s.origins kind y := by
  rw [predecessors, map_id_pick, incoming_eq_filter, origins]

theorem mem_targets_iff : y ∈ s.targets kind x ↔ s.Links x y ∧ s.Holds kind y := by
  simp [targets, ofKind, Links, Holds, Option.any_eq_true, and_assoc]

theorem mem_origins_iff : x ∈ s.origins kind y ↔ s.Links x y ∧ s.Holds kind x := by
  simp [origins, ofKind, Links, Holds, Option.any_eq_true, and_assoc, and_comm]

/-! ## States by way of an action -/

/-- The states that a state leads to by an action, as often as it does, in the order of the edges. -/
def onward (s : Store) (x : NodeId) : List NodeId := (s.targets .action x).flatMap (s.targets .state)

/-- The states that lead to a state by an action, as often as they do, in the order of the edges. -/
def backward (s : Store) (y : NodeId) : List NodeId :=
  (s.origins .action y).flatMap (s.origins .state)

theorem nextStates_eq (s : Store) (sources : List NodeId) :
    s.nextStates sources = (sources.flatMap s.onward).eraseDups := by
  have honward : ∀ x, ((s.successors x .action).flatMap fun a =>
      (s.successors a.id .state).map Node.id) = s.onward x := by
    intro x
    rw [onward, ← map_id_successors, List.flatMap_map]
    simp only [map_id_successors]
  simp only [nextStates, honward]

theorem previousStates_eq (s : Store) (targets : List NodeId) :
    s.previousStates targets = (targets.flatMap s.backward).eraseDups := by
  have hbackward : ∀ y, ((s.predecessors y .action).flatMap fun a =>
      (s.predecessors a.id .state).map Node.id) = s.backward y := by
    intro y
    rw [backward, ← map_id_predecessors, List.flatMap_map]
    simp only [map_id_predecessors]
  simp only [previousStates, hbackward]

theorem mem_onward_iff (hx : s.Holds .state x) : y ∈ s.onward x ↔ s.Hop x y := by
  simp only [onward, List.mem_flatMap, mem_targets_iff]
  constructor
  · rintro ⟨a, ⟨hxa, ha⟩, hay, hy⟩
    exact ⟨hx, ⟨a, hxa, ha, hay⟩, hy⟩
  · rintro ⟨-, ⟨a, hxa, ha, hay⟩, hy⟩
    exact ⟨a, ⟨hxa, ha⟩, hay, hy⟩

theorem mem_backward_iff (hy : s.Holds .state y) : x ∈ s.backward y ↔ s.Hop x y := by
  simp only [backward, List.mem_flatMap, mem_origins_iff]
  constructor
  · rintro ⟨a, ⟨hay, ha⟩, hxa, hx⟩
    exact ⟨hx, ⟨a, hxa, ha, hay⟩, hy⟩
  · rintro ⟨hx, ⟨a, hxa, ha, hay⟩, -⟩
    exact ⟨a, ⟨hay, ha⟩, hxa, hx⟩

/-- **Forward and backward lead along the same ways.**  One state is next to another just if that one
is previous to it.  Either way several states lead to what each of them leads to, without repetition,
in the order in which it is first reached along the edges. -/
theorem navigates_both_ways (s : Store) :
    (∀ x y, s.Holds .state x → s.Holds .state y →
      (y ∈ s.nextStates [x] ↔ x ∈ s.previousStates [y])) ∧
    (∀ sources, Gathers (sources.map fun x => s.nextStates [x]) (s.nextStates sources) ∧
      Gathers (sources.map s.onward) (s.nextStates sources)) ∧
    (∀ targets, Gathers (targets.map fun y => s.previousStates [y]) (s.previousStates targets) ∧
      Gathers (targets.map s.backward) (s.previousStates targets)) := by
  refine ⟨fun x y hx hy => ?inverse, fun sources => ?forward, fun targets => ?backward⟩
  case inverse =>
    calc y ∈ s.nextStates [x]
      _ ↔ s.Hop x y := by
        rw [nextStates_eq, List.mem_eraseDups, List.flatMap_singleton, mem_onward_iff hx]
      _ ↔ x ∈ s.previousStates [y] := by
        rw [previousStates_eq, List.mem_eraseDups, List.flatMap_singleton, mem_backward_iff hy]
  case forward =>
    simp only [nextStates_eq]
    exact ⟨gathers_singletons s.onward sources, gathers_flatMap s.onward sources⟩
  case backward =>
    simp only [previousStates_eq]
    exact ⟨gathers_singletons s.backward targets, gathers_flatMap s.backward targets⟩

/-- Two actions lead from one state on, one of them by two edges and back to where it started. -/
theorem navigates_both_ways_fork :
    let s := Store.ofFragment
      { nodes := [{ id := ⟨"a"⟩, kind := .state }, { id := ⟨"t0"⟩, kind := .action },
          { id := ⟨"t1"⟩, kind := .action }, { id := ⟨"b"⟩, kind := .state }]
        edges := [{ source := ⟨"a"⟩, label := "go", target := ⟨"t1"⟩ },
          { source := ⟨"a"⟩, label := "try", target := ⟨"t1"⟩ },
          { source := ⟨"a"⟩, label := "go", target := ⟨"t0"⟩ },
          { source := ⟨"t0"⟩, label := "go", target := ⟨"a"⟩ },
          { source := ⟨"t1"⟩, label := "go", target := ⟨"b"⟩ },
          { source := ⟨"t1"⟩, label := "stay", target := ⟨"a"⟩ }] }
    s.Holds .state ⟨"a"⟩ ∧ s.Holds .state ⟨"b"⟩ ∧ s.nextStates [⟨"a"⟩] = [⟨"b"⟩, ⟨"a"⟩] ∧
      ⟨"a"⟩ ∈ s.previousStates [⟨"b"⟩] := by
  intro s
  have ha : s.Holds .state ⟨"a"⟩ := holds_state_iff.2 (by decide)
  have hb : s.Holds .state ⟨"b"⟩ := holds_state_iff.2 (by decide)
  have hnext : s.nextStates [⟨"a"⟩] = [⟨"b"⟩, ⟨"a"⟩] := by decide
  refine ⟨ha, hb, hnext, ((navigates_both_ways s).1 _ _ ha hb).1 ?_⟩
  rw [hnext]
  exact List.mem_cons_self

end Store

end StateAtlas
