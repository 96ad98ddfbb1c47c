import StateAtlas.Proofs.Pane.Removal
/-!
Destroying a pane and what was spawned from it.

The lineage is no tree: a merged pane and its copies have several spawners, so the search for the
descendants of a pane can meet one of them more than once.  It lists each once, and all of them: in
each state of the search every link from a pane that was seen leads to one that was seen or waits.

With its descendants or alone, a pane that is destroyed takes nothing from the others but their links
to what is gone.

Main statement: `destroys_closure`.
-/

namespace StateAtlas.PaneTable

variable {t u : PaneTable} {rank : PaneId → Nat} {waiting seen : List PaneId} {id k root : PaneId}
  {p : Pane}

/-- Whether a live pane lists another as spawned from it. -/
def Leads (t : PaneTable) (parent child : PaneId) : Prop :=
  ∃ p, t.pane? parent = some p ∧ p.spawned.contains child = true

/-! ## The search -/

/-- Nothing is listed twice, nor what was seen before. -/
theorem nodup_reachable (t : PaneTable) (waiting seen : List PaneId) :
    (t.reachable waiting seen).Nodup ∧ ∀ id ∈ t.reachable waiting seen, id ∉ seen := by
  induction waiting, seen using reachable.induct t with
  | case1 seen => simp [reachable_nil]
  | case2 seen id rest hseen ih => rwa [reachable_cons_of_seen hseen]
  | case3 seen id rest hseen hdead ih => rwa [reachable_cons_of_dead hseen hdead]
  | case4 seen id rest hseen p hp _ ih =>
    obtain ⟨hnodup, hfresh⟩ := ih
    rw [reachable_cons_of_live hseen hp]
    refine ⟨List.nodup_cons.2 ⟨fun hmem => hfresh id hmem List.mem_cons_self, hnodup⟩, ?_⟩
    refine List.forall_mem_cons.2 ⟨by simpa using hseen, fun other hother hmem => ?_⟩
    exact hfresh other hother (List.mem_cons_of_mem _ hmem)

/-- Whatever is listed is live and can be reached from a waiting pane. -/
theorem exists_path_of_mem_reachable (hid : id ∈ t.reachable waiting seen) :
    t.contains id = true ∧ ∃ w ∈ waiting, Relation.ReflTransGen t.Leads w id := by
  induction waiting, seen using reachable.induct t with
  | case1 seen => simp [reachable_nil] at hid
  | case2 seen w rest hseen ih =>
    rw [reachable_cons_of_seen hseen] at hid
    obtain ⟨hlive, w', hw', hpath⟩ := ih hid
    exact ⟨hlive, w', List.mem_cons_of_mem _ hw', hpath⟩
  | case3 seen w rest hseen hdead ih =>
    rw [reachable_cons_of_dead hseen hdead] at hid
    obtain ⟨hlive, w', hw', hpath⟩ := ih hid
    exact ⟨hlive, w', List.mem_cons_of_mem _ hw', hpath⟩
  | case4 seen w rest hseen p hp _ ih =>
    rw [reachable_cons_of_live hseen hp] at hid
    rcases List.mem_cons.1 hid with rfl | hid
    · exact ⟨contains_of_pane? hp, id, List.mem_cons_self, .refl⟩
    obtain ⟨hlive, w', hw', hpath⟩ := ih hid
    refine ⟨hlive, ?_⟩
    rcases List.mem_append.1 hw' with hw' | hw'
    · have hlink : t.Leads w w' := ⟨p, hp, OrderedSet.mem_toList.1 hw'⟩
      exact ⟨w, List.mem_cons_self, hpath.head hlink⟩
    · exact ⟨w', List.mem_cons_of_mem _ hw', hpath⟩

/-- What a search must keep to miss nothing: each link from a pane that was seen leads to one that was
seen or that waits. -/
def Frontier (t : PaneTable) (waiting seen : List PaneId) : Prop :=
  ∀ a ∈ seen, ∀ b, t.Leads a b → t.contains b = true → b ∈ seen ∨ b ∈ waiting

/-- A pane that was seen or is not live need not wait any longer. -/
theorem Frontier.tail {rest : List PaneId} (h : t.Frontier (id :: rest) seen)
    (hid : t.contains id = true → id ∈ seen) : t.Frontier rest seen := by
  intro a ha b hlink hb
  rcases h a ha b hlink hb with hmem | hmem
  · exact .inl hmem
  rcases List.mem_cons.1 hmem with rfl | hmem
  · exact .inl (hid hb)
  · exact .inr hmem

/-- A pane is seen, and what it spawned waits from then on. -/
theorem Frontier.step {rest : List PaneId} (h : t.Frontier (id :: rest) seen)
    (hp : t.pane? id = some p) : t.Frontier (p.spawned.toList ++ rest) (id :: seen) := by
  intro a ha b hlink hb
  rcases List.mem_cons.1 ha with rfl | ha
  · obtain ⟨q, hq, hmem⟩ := hlink
    obtain rfl := Option.some.inj (hp.symm.trans hq)
    exact .inr (List.mem_append_left _ (OrderedSet.mem_toList.2 hmem))
  rcases h a ha b hlink hb with hmem | hmem
  · exact .inl (List.mem_cons_of_mem _ hmem)
  rcases List.mem_cons.1 hmem with rfl | hmem
  · exact .inl List.mem_cons_self
  · exact .inr (List.mem_append_right _ hmem)

/-- The search lists the live panes that wait, and with a pane all live panes that it leads to. -/
theorem reachable_complete (h : t.Frontier waiting seen) :
    (∀ w ∈ waiting, t.contains w = true → w ∈ seen ∨ w ∈ t.reachable waiting seen) ∧
    t.Frontier [] (seen ++ t.reachable waiting seen) := by
  -- The frontier is what carries the induction: what a seen pane leads to is seen itself or waits.
  induction waiting, seen using reachable.induct t with
  | case1 seen =>
    rw [reachable_nil, List.append_nil]
    exact ⟨fun w hw => absurd hw List.not_mem_nil, h⟩
  | case2 seen w rest hseen ih =>
    have hw : w ∈ seen := by simpa using hseen
    obtain ⟨hwaiting, hclosed⟩ := ih (h.tail fun _ => hw)
    rw [reachable_cons_of_seen hseen]
    exact ⟨List.forall_mem_cons.2 ⟨fun _ => .inl hw, hwaiting⟩, hclosed⟩
  | case3 seen w rest hseen hdead ih =>
    have hw : ¬t.contains w = true := Option.not_isSome_iff_eq_none.2 hdead
    obtain ⟨hwaiting, hclosed⟩ := ih (h.tail fun hlive => absurd hlive hw)
    rw [reachable_cons_of_dead hseen hdead]
    exact ⟨List.forall_mem_cons.2 ⟨fun hlive => absurd hlive hw, hwaiting⟩, hclosed⟩
  | case4 seen w rest hseen p hp _ ih =>
    obtain ⟨hwaiting, hclosed⟩ := ih (h.step hp)
    rw [reachable_cons_of_live hseen hp]
    have hmem : ∀ k, k ∈ w :: seen ∨ k ∈ t.reachable (p.spawned.toList ++ rest) (w :: seen) →
        k ∈ seen ∨ k ∈ w :: t.reachable (p.spawned.toList ++ rest) (w :: seen) := by
      simp only [List.mem_cons]
      tauto
    refine ⟨List.forall_mem_cons.2 ⟨fun _ => .inr List.mem_cons_self, fun k hk hlive => ?_⟩, ?_⟩
    · exact hmem k (hwaiting k (List.mem_append_right _ hk) hlive)
    · intro a ha b hlink hb
      have ha' : a ∈ w :: seen ++ t.reachable (p.spawned.toList ++ rest) (w :: seen) := by
        simpa [or_left_comm] using ha
      have hb' := (hclosed a ha' b hlink hb).resolve_right List.not_mem_nil
      exact .inl (List.mem_append.2 (hmem b (List.mem_append.1 hb')))

/-! ## Descendants -/

/-- The descendants of a live pane are listed from itself on. -/
theorem descendants_eq_cons (hp : t.pane? root = some p) :
    t.descendants root = root :: t.reachable p.spawned.toList [root] := by
  rw [descendants, reachable_cons_of_live (by simp) hp, List.append_nil]

theorem nodup_descendants (t : PaneTable) (root : PaneId) : (t.descendants root).Nodup :=
  (nodup_reachable t [root] []).1

theorem live_of_mem_descendants (hk : k ∈ t.descendants root) : t.contains k = true :=
  (exists_path_of_mem_reachable hk).1

theorem Linked.leads_iff (h : t.Linked rank) {parent child : PaneId} :
    t.Leads parent child ↔ t.Spawns parent child := by
  constructor
  · rintro ⟨p, hp, hmem⟩
    exact (h.mem_spawned hp child).1 hmem
  · intro hspawns
    obtain ⟨p, hp⟩ := exists_pane?_iff.1 (h.live_of_spawns hspawns)
    exact ⟨p, hp, (h.mem_spawned hp child).2 hspawns⟩

/-- **The descendants of a pane are the panes that spawned links lead to**, itself included. -/
theorem Linked.mem_descendants_iff (h : t.Linked rank) (hroot : t.contains root = true) :
    k ∈ t.descendants root ↔ Relation.ReflTransGen t.Leads root k := by
  constructor
  · intro hk
    obtain ⟨-, w, hw, hpath⟩ := exists_path_of_mem_reachable hk
    exact List.mem_singleton.1 hw ▸ hpath
  · intro hpath
    have hstart : t.Frontier [root] [] := fun a ha => absurd ha List.not_mem_nil
    obtain ⟨hwaiting, hclosed⟩ := reachable_complete hstart
    induction hpath with
    | refl => exact (hwaiting root List.mem_cons_self hroot).resolve_left List.not_mem_nil
    | @tail a b _ hlink ih =>
      obtain ⟨q, hq, -⟩ := h.leads_iff.1 hlink
      exact (hclosed a ih b hlink (contains_of_pane? hq)).resolve_right List.not_mem_nil

/-- Nobody spawned the primary pane, so it is no descendant of another. -/
theorem WellFormed.primary_notMem_descendants (h : t.WellFormed rank)
    (hroot : t.contains root = true) (hprimary : t.primary ≠ some root) (hk : t.primary = some k) :
    k ∉ t.descendants root := by
  intro hmem
  rcases ((h.rooted.linked.mem_descendants_iff hroot).1 hmem).cases_tail with heq | ⟨a, -, hlink⟩
  · exact hprimary (heq ▸ hk)
  obtain ⟨p, hp, hspawners⟩ := h.rooted.primary_root k hk
  obtain ⟨q, hq, hmem⟩ := h.rooted.linked.leads_iff.1 hlink
  obtain rfl := Option.some.inj (hp.symm.trans hq)
  rw [hspawners] at hmem
  exact List.not_mem_nil hmem

/-- With a pane that is not the primary one all of its descendants go. -/
theorem WellFormed.victims_eq (h : t.WellFormed rank) (hroot : t.contains root = true)
    (hprimary : t.primary ≠ some root) (cascade : Bool) :
    t.victims root cascade = if cascade then t.descendants root else [root] := by
  unfold victims
  split
  · refine List.filter_eq_self.2 fun k hk => decide_eq_true fun heq => ?_
    exact h.primary_notMem_descendants hroot hprimary heq.symm hk
  · rfl

/-! ## Destroying a pane -/

/-- Distinct live panes that are removed are told of as they are. -/
theorem remove_snd_eq {victims : List PaneId} (hnodup : victims.Nodup)
    (hlive : ∀ id ∈ victims, t.contains id = true) (activate : Bool) :
    (t.remove victims activate).2 = victims := by
  show (victims.filter t.contains).eraseDups = victims
  rw [List.filter_eq_self.2 hlive, eraseDups_of_nodup hnodup]

/-- What is left once some panes were destroyed: of the others each keeps what it works on and where
it stands, and loses from its lineage just the panes that are gone; and the active pane stays active
unless it is gone.  If no pane is active then, the last one in display order can be made so. -/
structure Destroys (t : PaneTable) (gone : List PaneId) (activate : Bool) (u : PaneTable) : Prop where
  contains_iff : ∀ k, u.contains k = true ↔ k ∉ gone ∧ t.contains k = true
  survivor : ∀ k p, t.pane? k = some p → k ∉ gone → ∃ q, u.pane? k = some q ∧ bare q = bare p ∧
    q.spawners = p.spawners.filter (fun s => s ∉ gone) ∧
    ∀ child, q.spawned.contains child = true ↔ child ∉ gone ∧ p.spawned.contains child = true
  ids : u.ids = t.ids.filter fun k => k ∉ gone
  created : u.created = t.created.filter fun k => k ∉ gone
  primary : u.primary = t.primary
  active : u.active = if t.active.any (fun k => k ∉ gone) then t.active
    else if activate then u.ids.getLast? else none

theorem destroy_of_live (hroot : t.contains root = true) (hprimary : t.primary ≠ some root)
    (cascade activate : Bool) :
    t.destroy root cascade activate = .ok (t.remove (t.victims root cascade) activate) := by
  obtain ⟨p, hp⟩ := exists_pane?_iff.1 hroot
  unfold PaneTable.destroy
  rw [get_eq_ok.2 hp]
  exact if_neg hprimary

/-- A live pane other than the primary one can always be destroyed. -/
theorem WellFormed.destroys (h : t.WellFormed rank) (hroot : t.contains root = true)
    (hprimary : t.primary ≠ some root) (cascade activate : Bool) :
    let removed := if cascade then t.descendants root else [root]
    ∃ u, t.destroy root cascade activate = .ok (u, removed) ∧ t.Destroys removed activate u := by
  intro removed
  have hnodup : removed.Nodup := by
    show (if cascade then t.descendants root else [root]).Nodup
    split
    · exact nodup_descendants t root
    · exact List.nodup_singleton root
  have hlive : ∀ k ∈ removed, t.contains k = true := by
    show ∀ k ∈ if cascade then t.descendants root else [root], _
    split
    · exact fun k => live_of_mem_descendants
    · exact List.forall_mem_singleton.2 hroot
  have hremoves := removes_remove hnodup hlive activate
  refine ⟨(t.remove removed activate).1, ?_, hremoves.contains_iff, fun k p => hremoves.survivor,
    hremoves.ids, hremoves.created, hremoves.primary, h.active_remove removed activate⟩
  rw [destroy_of_live hroot hprimary, h.victims_eq hroot hprimary]
  exact congrArg Except.ok (Prod.ext rfl (remove_snd_eq hnodup hlive activate))

/-- **What destroying a pane removes.**  Whatever was done to a table: of a live pane other than the
primary one the descendants are, from the pane itself on and without repetition, the panes that
spawned links lead to.  Destroying the pane is never refused; it removes just these, or the pane
alone, and tells of them in this order. -/
theorem destroys_closure (maxPanes brushWindow : Nat) (bus : Bus) (actions : List Action) :
    let t := PaneTable.actAll { start maxPanes brushWindow with bus } actions
    ∀ root, t.contains root = true → t.primary ≠ some root →
      (t.descendants root).head? = some root ∧ (t.descendants root).Nodup ∧
      (∀ k, k ∈ t.descendants root ↔ Relation.ReflTransGen t.Leads root k) ∧
      ∀ cascade activate, let removed := if cascade then t.descendants root else [root]
        ∃ u, t.destroy root cascade activate = .ok (u, removed) ∧ t.Destroys removed activate u := by
  intro t root hroot hprimary
  obtain ⟨rank, h⟩ := (wellFormed_start maxPanes brushWindow bus fun _ => 0).actAll actions
  obtain ⟨p, hp⟩ := exists_pane?_iff.1 hroot
  refine ⟨?_, nodup_descendants t root, fun k => h.rooted.linked.mem_descendants_iff hroot,
    h.destroys hroot hprimary⟩
  rw [descendants_eq_cons hp, List.head?_cons]

/-- A pane spawned two others, which were merged. -/
def diamond : List Action :=
  [.command (.spawn {}),
    .command (.spawn { spawner := some ⟨"pane-0"⟩ }),
    .command (.spawn { spawner := some ⟨"pane-1"⟩ }),
    .command (.spawn { spawner := some ⟨"pane-1"⟩ }),
    .command (.merge [⟨"pane-2"⟩, ⟨"pane-3"⟩] true)]

theorem destroys_closure_diamond :
    let t := PaneTable.actAll { start 8 0 with bus := {} } diamond
    t.contains ⟨"pane-1"⟩ = true ∧ t.primary ≠ some ⟨"pane-1"⟩ ∧
      ∃ u, t.destroy ⟨"pane-1"⟩ true true = .ok (u, t.descendants ⟨"pane-1"⟩) ∧
        t.Destroys (t.descendants ⟨"pane-1"⟩) true u := by
  intro t
  have hroot : t.contains ⟨"pane-1"⟩ = true := by decide +kernel
  have hprimary : t.primary ≠ some ⟨"pane-1"⟩ := by decide +kernel
  have hdestroys := (destroys_closure 8 0 {} diamond ⟨"pane-1"⟩ hroot hprimary).2.2.2
  exact ⟨hroot, hprimary, hdestroys true true⟩

/-- Of two panes spawned from the primary one, the active one was destroyed and none was made active
in its place. -/
def noneActive : List Action :=
  [.command (.spawn {}),
    .command (.spawn { spawner := some ⟨"pane-0"⟩ }),
    .command (.spawn { spawner := some ⟨"pane-0"⟩ }),
    .command (.destroy ⟨"pane-2"⟩ false false)]

/-- **A pane becomes active though the active one was not removed**, if none was active. -/
theorem destroy_activates_without_need :
    let t := PaneTable.actAll { start 8 0 with bus := {} } noneActive
    t.contains ⟨"pane-1"⟩ = true ∧ t.primary ≠ some ⟨"pane-1"⟩ ∧
      ∃ u, t.destroy ⟨"pane-1"⟩ false true = .ok (u, [⟨"pane-1"⟩]) ∧
        t.active ≠ some ⟨"pane-1"⟩ ∧ u.active ≠ t.active := by
  intro t
  have hroot : t.contains ⟨"pane-1"⟩ = true := by decide +kernel
  have hprimary : t.primary ≠ some ⟨"pane-1"⟩ := by decide +kernel
  have hbefore : t.active = none := by decide +kernel
  have hafter : (t.remove [⟨"pane-1"⟩] true).1.active = some ⟨"pane-0"⟩ := by decide +kernel
  have hremoved : (t.remove [⟨"pane-1"⟩] true).2 = [⟨"pane-1"⟩] :=
    remove_snd_eq (List.nodup_singleton _) (List.forall_mem_singleton.2 hroot) true
  refine ⟨hroot, hprimary, (t.remove [⟨"pane-1"⟩] true).1, ?_, by simp [hbefore], ?_⟩
  · rw [destroy_of_live hroot hprimary]
    exact congrArg Except.ok (Prod.ext rfl hremoved)
  · rw [hbefore, hafter]
    exact Option.some_ne_none _

end StateAtlas.PaneTable
