import StateAtlas.Proofs.Decimal.Order
import StateAtlas.Proofs.Graph.Neighbours
/-!
Which state is the best to go on with.

The best next state is chosen twice over: among the actions that a state leads to and among the states
that the chosen action leads to.  Each time the choice falls on the first of the heaviest, where a
node without a weight weighs zero.  This needs weights that are numbers, since a NaN, heavier than
nothing and lighter than nothing, takes the place of whatever was chosen before it.

Passing through a list keeps the first of the heaviest of what has been passed; `FirstHeaviest.concat`
is one step of it.

Main statement: `leads_to_first_heaviest`.
-/

namespace StateAtlas

/-! ## The first of the heaviest -/

section

variable {α β : Type} {weight weight' : α → Float} {as : List α} {a b : α}

/-- An element of a list weighs at least as much as every element, which none before it does. -/
structure FirstHeaviest (weight : α → Float) (as : List α) (a : α) : Prop where
  heaviest : ∀ b ∈ as, weight b ≤ weight a
  first : ∃ before after, as = before ++ a :: after ∧ ∀ b ∈ before, ¬∀ c ∈ as, weight c ≤ weight b

namespace FirstHeaviest

theorem mem (h : FirstHeaviest weight as a) : a ∈ as := by
  obtain ⟨before, after, rfl, -⟩ := h.first
  exact List.mem_append_right before List.mem_cons_self

/-- One more element takes over just if it is not at most as heavy. -/
theorem concat (h : FirstHeaviest weight as a) (ha : (weight a).isNaN = false)
    (hb : (weight b).isNaN = false) :
    FirstHeaviest weight (as ++ [b]) (if weight b ≤ weight a then a else b) := by
  by_cases hle : weight b ≤ weight a
  · rw [if_pos hle]
    refine ⟨fun c hc => ?_, ?_⟩
    · rcases List.mem_append.1 hc with hc | hc
      · exact h.heaviest c hc
      · rwa [List.mem_singleton.1 hc]
    · obtain ⟨before, after, has, hbefore⟩ := h.first
      refine ⟨before, after ++ [b], by simp [has], fun c hc hall => hbefore c hc fun d hd => ?_⟩
      exact hall d (List.mem_append_left [b] hd)
  · rw [if_neg hle]
    have hgreater : weight a ≤ weight b := (Decimal.le_or_le ha hb).resolve_right hle
    refine ⟨fun c hc => ?_, as, [], rfl, fun c hc hall => ?_⟩
    · rcases List.mem_append.1 hc with hc | hc
      · exact Decimal.le_of_le_of_le (h.heaviest c hc) hgreater
      · rw [List.mem_singleton.1 hc]
        exact (Decimal.le_or_le hb hb).elim id id
    · -- Whatever weighs as much as the new element would outweigh the old choice.
      have hnew := hall b (List.mem_append_right as (List.mem_singleton_self b))
      exact hle (Decimal.le_of_le_of_le hnew (h.heaviest c hc))

theorem eq (h : FirstHeaviest weight as a) (h' : FirstHeaviest weight as b) : a = b := by
  obtain ⟨before, after, has, hbefore⟩ := h.first
  obtain ⟨before', after', has', hbefore'⟩ := h'.first
  rcases List.append_eq_append_iff.1 (has.symm.trans has') with
    ⟨between, hbetween, hrest⟩ | ⟨between, hbetween, hrest⟩
  · cases between with
    | nil => exact (List.cons.inj hrest).1
    | cons c between =>
      obtain ⟨rfl, -⟩ := List.cons.inj hrest
      exact absurd h.heaviest (hbefore' a (by simp [hbetween]))
  · cases between with
    | nil => exact (List.cons.inj hrest).1.symm
    | cons c between =>
      obtain ⟨rfl, -⟩ := List.cons.inj hrest
      exact absurd h'.heaviest (hbefore b (by simp [hbetween]))

theorem congr (h : FirstHeaviest weight as a) (heq : ∀ b ∈ as, weight' b = weight b) :
    FirstHeaviest weight' as a := by
  obtain ⟨before, after, has, hbefore⟩ := h.first
  refine ⟨fun b hb => ?_, before, after, has, fun b hb hall => hbefore b hb fun c hc => ?_⟩
  · rw [heq a h.mem, heq b hb]
    exact h.heaviest b hb
  · have hb' : b ∈ as := has ▸ List.mem_append_left (a :: after) hb
    rw [← heq c hc, ← heq b hb']
    exact hall c hc

theorem map {f : β → α} {bs : List β} {b : β} (h : FirstHeaviest (fun b => weight (f b)) bs b) :
    FirstHeaviest weight (bs.map f) (f b) := by
  obtain ⟨before, after, hbs, hbefore⟩ := h.first
  refine ⟨List.forall_mem_map.2 h.heaviest, before.map f, after.map f, by simp [hbs], ?_⟩
  rw [List.forall_mem_map]
  intro c hc hall
  exact hbefore c hc fun d hd => hall (f d) (List.mem_map_of_mem hd)

end FirstHeaviest

end

/-! ## Nodes by their weights -/

theorem firstHeaviest_foldl {policy : String} {seen ns : List Node} {n : Node}
    (h : FirstHeaviest (Node.weight · policy) seen n)
    (hnumbers : ∀ m ∈ seen ++ ns, (m.weight policy).isNaN = false) :
    FirstHeaviest (Node.weight · policy) (seen ++ ns) (ns.foldl (heavier policy) n) := by
  induction ns generalizing seen n with
  | nil => rwa [List.append_nil]
  | cons m ns ih =>
    have hn := hnumbers n (List.mem_append_left _ h.mem)
    have hm := hnumbers m (List.mem_append_right _ List.mem_cons_self)
    -- The choice so far was made among the nodes seen; the next node joins them.
    rw [List.append_cons] at hnumbers ⊢
    exact ih (h.concat hn hm) hnumbers

theorem firstHeaviest_of_heaviest? {policy : String} {ns : List Node} {n : Node}
    (hnumbers : ∀ m ∈ ns, (m.weight policy).isNaN = false) (h : heaviest? policy ns = some n) :
    FirstHeaviest (Node.weight · policy) ns n := by
  cases ns with
  | nil => nomatch h
  | cons m ns =>
    obtain rfl := Option.some.inj h
    have hm := hnumbers m List.mem_cons_self
    have hstart : FirstHeaviest (Node.weight · policy) [m] m := by
      refine ⟨?_, [], [], rfl, nofun⟩
      rw [List.forall_mem_singleton]
      exact (Decimal.le_or_le hm hm).elim id id
    exact firstHeaviest_foldl hstart hnumbers

theorem heaviest?_eq_none_iff {policy : String} {ns : List Node} :
    heaviest? policy ns = none ↔ ns = [] := by
  cases ns <;> simp [heaviest?]

namespace Store

variable {s : Store} {policy : String} {kind : NodeKind} {x y : NodeId}

/-- The weight of the node under a name, zero where it has none. -/
def weightOf (s : Store) (policy : String) (id : NodeId) : Float :=
  ((s.node? id).map fun n => n.weight policy).getD 0

/-- The weights of all nodes under a policy are numbers. -/
def Weighs (s : Store) (policy : String) : Prop := ∀ n ∈ s.nodes, (n.weight policy).isNaN = false

instance (s : Store) (policy : String) : Decidable (s.Weighs policy) :=
  inferInstanceAs (Decidable (∀ n ∈ s.nodes, (n.weight policy).isNaN = false))

theorem weightOf_id {n : Node} (h : s.node? n.id = some n) :
    s.weightOf policy n.id = n.weight policy := by
  rw [weightOf, h]
  rfl

/-- The choice among the targets of a node. -/
def heaviestTarget? (s : Store) (policy : String) (kind : NodeKind) (x : NodeId) : Option NodeId :=
  (heaviest? policy (s.successors x kind)).map Node.id

theorem heaviestTarget?_eq_none_iff :
    s.heaviestTarget? policy kind x = none ↔ s.targets kind x = [] := by
  rw [heaviestTarget?, Option.map_eq_none_iff, heaviest?_eq_none_iff, ← map_id_successors,
    List.map_eq_nil_iff]

theorem firstHeaviest_of_heaviestTarget? (h : s.Weighs policy)
    (hy : s.heaviestTarget? policy kind x = some y) :
    FirstHeaviest (s.weightOf policy) (s.targets kind x) y := by
  obtain ⟨n, hn, rfl⟩ := Option.map_eq_some_iff.1 hy
  have hheld : ∀ m ∈ s.successors x kind, s.node? m.id = some m := fun m hm =>
    (mem_successors_iff.1 hm).2.1
  have hfirst := firstHeaviest_of_heaviest? (fun m hm => h m (mem_nodes_of_node? (hheld m hm))) hn
  rw [← map_id_successors]
  exact (hfirst.congr fun m hm => weightOf_id (hheld m hm)).map

theorem heaviestTarget?_eq_some_iff (h : s.Weighs policy) :
    s.heaviestTarget? policy kind x = some y ↔
      FirstHeaviest (s.weightOf policy) (s.targets kind x) y := by
  refine ⟨firstHeaviest_of_heaviestTarget? h, fun hy => ?_⟩
  cases hz : s.heaviestTarget? policy kind x with
  | none =>
    have hmem := hy.mem
    rw [heaviestTarget?_eq_none_iff.1 hz] at hmem
    exact absurd hmem List.not_mem_nil
  | some z => rw [(firstHeaviest_of_heaviestTarget? h hz).eq hy]

/-- The best next state is chosen among the targets of the action that is chosen first. -/
theorem bestNext?_eq (s : Store) (x : NodeId) (policy : String) :
    s.bestNext? x policy =
      (s.heaviestTarget? policy .action x).bind (s.heaviestTarget? policy .state) := by
  unfold bestNext? heaviestTarget?
  rw [Option.bind_map]
  simp only [Option.bind_eq_bind, Option.map_eq_bind, Function.comp_def]

/-- **The best next state is the first heaviest target of the first heaviest action.**  There is none
just if the state leads to no action or that action to no state. -/
theorem leads_to_first_heaviest (s : Store) (x : NodeId) (policy : String)
    (h : s.Weighs policy) :
    (∀ y, s.bestNext? x policy = some y ↔
      ∃ a, FirstHeaviest (s.weightOf policy) (s.targets .action x) a ∧
        FirstHeaviest (s.weightOf policy) (s.targets .state a) y) ∧
    (s.bestNext? x policy = none ↔
      s.targets .action x = [] ∨
      ∃ a, FirstHeaviest (s.weightOf policy) (s.targets .action x) a ∧
        s.targets .state a = []) := by
  rw [bestNext?_eq]
  refine ⟨fun y => ?some, ?none⟩
  case some => simp only [Option.bind_eq_some_iff, heaviestTarget?_eq_some_iff h]
  case none =>
    have hnone : ∀ kind x, s.targets kind x = [] ↔ s.heaviestTarget? policy kind x = none :=
      fun _ _ => heaviestTarget?_eq_none_iff.symm
    simp only [hnone, ← heaviestTarget?_eq_some_iff h]
    cases s.heaviestTarget? policy .action x <;> simp

/-- Of three actions the last two weigh the same, and the first of these leads to a state that weighs
less than nothing, then to one without a weight and to one that weighs nothing. -/
theorem leads_to_first_heaviest_tie :
    let weighing (w : Float) : Dictionary String Float := .ofList [("fair", w)]
    let s := Store.ofFragment
      { nodes := [{ id := ⟨"a"⟩, kind := .state },
          { id := ⟨"t0"⟩, kind := .action, weights := weighing 0.25 },
          { id := ⟨"t1"⟩, kind := .action, weights := weighing 0.5 },
          { id := ⟨"t2"⟩, kind := .action, weights := weighing 0.5 },
          { id := ⟨"b"⟩, kind := .state, weights := weighing (-1) },
          { id := ⟨"c"⟩, kind := .state }, { id := ⟨"d"⟩, kind := .state, weights := weighing 0 }]
        edges := [{ source := ⟨"a"⟩, label := "go", target := ⟨"t0"⟩ },
          { source := ⟨"a"⟩, label := "go", target := ⟨"t2"⟩ },
          { source := ⟨"a"⟩, label := "go", target := ⟨"t1"⟩ },
          { source := ⟨"t2"⟩, label := "go", target := ⟨"b"⟩ },
          { source := ⟨"t2"⟩, label := "go", target := ⟨"c"⟩ },
          { source := ⟨"t2"⟩, label := "go", target := ⟨"d"⟩ }] }
    s.Weighs "fair" ∧ s.bestNext? ⟨"a"⟩ "fair" = some ⟨"c"⟩ ∧
      ∃ a, FirstHeaviest (s.weightOf "fair") (s.targets .action ⟨"a"⟩) a ∧
        FirstHeaviest (s.weightOf "fair") (s.targets .state a) ⟨"c"⟩ := by
  intro weighing s
  have hweighs : s.Weighs "fair" := by decide +kernel
  have hbest : s.bestNext? ⟨"a"⟩ "fair" = some ⟨"c"⟩ := by decide +kernel
  exact ⟨hweighs, hbest, ((leads_to_first_heaviest s ⟨"a"⟩ "fair" hweighs).1 ⟨"c"⟩).1 hbest⟩

end Store

end StateAtlas
