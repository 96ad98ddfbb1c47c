import StateAtlas.Proofs.Session.Announcements
import StateAtlas.Proofs.Session.HeldRows
import StateAtlas.Proofs.Session.Timelines
/-!
Panes that are left alone.

What is done in one pane goes through what the panes of a session share: the table, the bus, the
marks, and what recurs.  What a brush selects is applied to the pane that the selection names.  In
every session that can be reached this is the brush's own pane, so whatever is done in a pane
replaces that pane and no other; only which nodes are shown as recurring may change everywhere, when
a pane grows.

Main statement: `panes_stay_apart`.
-/

namespace StateAtlas

open PaneTable

/-- A brush that was recomputed because the clock said so selects what every constraint admits. -/
theorem Brush.selected_of_ran {b : Brush Float} {asked : Debounce × Bool}
    (hran : (b.runIf asked).2 = true) :
    (b.runIf asked).1.selected = (b.runIf asked).1.admitted := by
  rcases b.runIf_cases asked with ⟨-, heq⟩ | ⟨-, heq⟩
  · rw [heq]
    exact Brush.selected_recompute _
  · rw [heq] at hran
    exact absurd hran Bool.false_ne_true

/-- A brush that was given rows anew selects what every constraint admits. -/
theorem Brush.selected_projectStore (b : Brush Float) (s : Store) (mode : DisplayMode)
    (details : DetailSelection) (schema : Schema) :
    (b.projectStore s mode details schema).selected =
      (b.projectStore s mode details schema).admitted :=
  Brush.selected_recompute _

/-! ## Panes that heed their brush -/

namespace Pane

variable {p q : Pane} {again : Prop}

theorem selection_of_bearing_eq (h : q.bearing = p.bearing) : q.selection = p.selection :=
  congrArg (fun b => b.2.2.1.present) h

theorem autoSync_of_bearing_eq (h : q.bearing = p.bearing) :
    q.view.autoSync = p.view.autoSync :=
  congrArg (fun b => b.2.2.2) h

/-- The pane with what its brush selects as its selection, if it follows its brush. -/
def heed (p : Pane) : Pane := if p.view.autoSync then p.select p.brush.linked.ids else p

theorem selection_select (p : Pane) (ids : List NodeId) :
    (p.select ids).selection = p.held ids := by
  simp only [select]
  split <;> rfl

/-- What the constraints admit of the rows of a pane's brush is held, each node once. -/
theorem HeldRows.selects_admitted (h : p.HeldRows) : p.Selects p.brush.admitted := by
  have hsub : p.brush.admitted.Sublist (p.brush.rows.map Row.id) := List.filter_sublist.map Row.id
  refine ⟨h.nodup.sublist hsub, fun n hn => ?_⟩
  obtain ⟨row, hrow, rfl⟩ := List.mem_map.1 (hsub.subset hn)
  exact h.held row hrow

/-- What the brush of a pane selects becomes the pane's selection as it is. -/
theorem HeldRows.selection_heed (h : p.HeldRows) (hselected : p.brush.selected = p.brush.admitted)
    (hauto : p.view.autoSync = true) : p.heed.selection = p.heed.brush.selected := by
  rw [heed, if_pos hauto, Session.brush_select, selection_select,
    Brush.ids_linked h.nodup hselected, hselected]
  exact h.selects_admitted.held_eq

/-- What becomes of the selection of a pane, given whether its brush was recomputed. -/
structure Minds (p q : Pane) (again : Prop) : Prop where
  keeps : p.view.autoSync = false ∨ ¬again → q.selection = p.selection
  follows : p.HeldRows → p.view.autoSync = true → again → q.selection = q.brush.selected

theorem minds_of_selection_eq (h : q.selection = p.selection) (hnot : ¬again) : Minds p q again :=
  ⟨fun _ => h, fun _ _ hagain => absurd hagain hnot⟩

/-- The phase of a pane makes no difference to that. -/
theorem Minds.of_still_eq {r : Pane} (h : r.Minds q again) (hstill : r.still = p.still) :
    p.Minds q again := by
  have hselection : r.selection = p.selection := (congrArg Pane.selection hstill :)
  have hauto : r.view.autoSync = p.view.autoSync := (congrArg (fun p => p.view.autoSync) hstill :)
  have hscene : r.scene = p.scene := (congrArg Pane.scene hstill :)
  exact ⟨fun hor => (h.keeps (hauto ▸ hor)).trans hselection,
    fun hrows hon => h.follows (hrows.of_scene_eq hscene) (hauto.trans hon)⟩

/-- A pane whose brush was recomputed heeds it. -/
theorem minds_heed (hselection : q.selection = p.selection)
    (hauto : q.view.autoSync = p.view.autoSync) (hagain : again)
    (hselected : q.brush.selected = q.brush.admitted) (hrows : p.HeldRows → q.HeldRows) :
    Minds p q.heed again where
  keeps h := by
    have hoff : q.view.autoSync = false := hauto.trans (h.resolve_right (not_not_intro hagain))
    rw [heed, hoff]
    exact hselection
  follows h hon _ := (hrows h).selection_heed hselected (hauto.trans hon)

end Pane

/-! ## Commands that are about one pane -/

namespace SessionCommand

/-- The pane in which a command expands, brushes, selects or changes settings. -/
def about? : SessionCommand → Option PaneId
  | .finish t _ => some t.pane
  | .expand pane _ | .refresh pane | .select pane _ | .undo pane | .redo pane
  | .selectWhere pane _ | .brush pane _ _ | .brushCoalesced pane _ _ _ | .selectExtreme pane _ _
  | .setMode pane _ | .setPolicy pane _ | .setDetails pane _ | .setAutoSync pane _ => some pane
  | _ => none

/-- Whether a command may add to a pane. -/
def expands : SessionCommand → Bool
  | .finish .. | .expand .. => true
  | _ => false

end SessionCommand

namespace Session

variable {s s' s'' : Session} {pane : PaneId} {p q : Pane} {σ : Type}
  {backend : Backend (StateM σ)} {grew : Bool}

/-- The command recomputes the brush of the pane that it is about. -/
def Recomputes (backend : Backend (StateM σ)) (s : Session) (env : σ) : SessionCommand → Prop
  | .brush pane dimension c => ∃ s', s.brush pane dimension c = .ok s'
  | .brushCoalesced pane dimension c now =>
    ∃ s', s.brushCoalesced pane dimension c now = .ok (s', true)
  | .selectExtreme pane dimension which =>
    ∃ s', s.selectExtreme pane dimension which = .ok (s', true)
  | .setMode pane mode => ∃ s', s.setMode pane mode = .ok s'
  | .setDetails pane details => ∃ s', s.setDetails pane details = .ok s'
  | .refresh pane => ∃ n, (s.refresh backend pane env).1.2 = .ok n
  | .finish t fetched => ∃ delta, (s.finish t fetched).2 = .ok (.merged delta)
  | .expand pane frontier => ∃ delta, (s.expand backend pane frontier env).1.2 = .ok (.merged delta)
  | _ => False

/-- The same panes are live, but nodes may be shown as recurring that were not, or the other way
round. -/
def ShowsAs (grew : Bool) (s s' : Session) : Prop :=
  ∀ id q, s.table.pane? id = some q →
    ∃ r, s'.table.pane? id = some (q.withRecurring r) ∧ (grew = false → r = q.recurring)

theorem showsAs_of_pane?_eq (h : ∀ id, s'.table.pane? id = s.table.pane? id) :
    ShowsAs grew s s' :=
  fun id q hq => ⟨q.recurring, (h id).trans hq, fun _ => rfl⟩

theorem ShowsAs.refl (grew : Bool) (s : Session) : ShowsAs grew s s :=
  showsAs_of_pane?_eq fun _ => rfl

theorem ShowsAs.of_pane?_eq (h : ShowsAs grew s' s'')
    (heq : ∀ id, s.table.pane? id = s'.table.pane? id) : ShowsAs grew s s'' :=
  fun id q hq => h id q ((heq id).symm.trans hq)

/-- A pane of the session is replaced by another one, and no other pane is. -/
theorem showsAs_of_eq_modify {f : Pane → Pane} (hp : s.table.pane? pane = some p)
    (hs' : s' = s.modify pane f) : ShowsAs grew (s.modify pane fun _ => f p) s' := by
  rw [hs', modify_congr (g := fun _ => f p) hp rfl]
  exact .refl grew _

theorem showsAs_of_eq (hp : s.table.pane? pane = some p) (hs' : s' = s) :
    ShowsAs grew (s.modify pane fun _ => p) s' := by
  rw [hs', modify_eq_self hp rfl]
  exact .refl grew s

/-! ### What is announced of a brush -/

/-- What a pane's own brush selects is heeded by that pane. -/
theorem publishBrush_eq (hq : s.table.pane? pane = some q) (hown : q.brush.pane = pane) :
    s.publishBrush pane = (s.modify pane Pane.heed).tell [.linkedSelection q.brush.linked] := by
  have hpane : q.brush.linked.pane = pane := hown
  unfold publishBrush
  rw [hq]
  dsimp only
  unfold publishSelection syncSelection
  rw [hpane, modify_congr (g := fun p => if p.view.autoSync then
    p.select q.brush.linked.ids else p) (f := Pane.heed) hq rfl]
  rfl

/-- A pane changes and its brush is announced. -/
theorem showsAs_publishBrush (hp : s.table.pane? pane = some p) {f : Pane → Pane}
    (hown : (f p).brush.pane = pane) :
    ShowsAs grew (s.modify pane fun _ => (f p).heed) ((s.modify pane f).publishBrush pane) := by
  have hq : (s.modify pane f).table.pane? pane = some (f p) := by
    rw [pane?_modify_self, hp, Option.map_some]
  have hheeded : (s.modify pane f).modify pane Pane.heed = s.modify pane fun _ => (f p).heed := by
    rw [modify_modify]
    exact modify_congr hp rfl
  rw [publishBrush_eq hq hown, hheeded]
  exact showsAs_of_pane?_eq fun _ => rfl

/-- When a pane grew, all that changes beside it is what recurs. -/
theorem showsAs_recount (s : Session) (grew : Bool) (told : List Event) :
    ShowsAs true s ((s.recount grew).tell told) := by
  intro id q hq
  obtain ⟨r, hr⟩ := pane?_recount hq grew
  exact ⟨r, hr, nofun⟩

/-! ### One command -/

/-- What a command makes of the pane that it is about, which is live. -/
def Confined (backend : Backend (StateM σ)) (s : Session) (pane : PaneId) (p : Pane) (env : σ)
    (c : SessionCommand) : Prop :=
  ∃ q, ShowsAs c.expands (s.modify pane fun _ => q) (s.perform backend c env).1 ∧
    (c.kind ≠ .selecting → p.Minds q (s.Recomputes backend env c))

theorem brush_eq_ok (hp : s.table.pane? pane = some p) (dimension : String)
    (c : Option (Constraint Float)) : s.brush pane dimension c =
      .ok ((s.modifyBrush pane fun b => b.brush dimension c).publishBrush pane) := by
  rw [Session.brush, get_eq_ok.2 hp]
  rfl

theorem perform_brush_eq (hp : s.table.pane? pane = some p) (dimension : String)
    (c : Option (Constraint Float)) (env : σ) :
    (s.perform backend (.brush pane dimension c) env).1 =
      (s.modifyBrush pane fun b => b.brush dimension c).publishBrush pane :=
  congrArg (s.after id) (brush_eq_ok hp dimension c)

theorem confined_brush (hp : s.table.pane? pane = some p) (hown : p.brush.pane = pane)
    (dimension : String) (c : Option (Constraint Float)) (env : σ) :
    s.Confined backend pane p env (.brush pane dimension c) := by
  have hbrush := brush_eq_ok hp dimension c
  refine ⟨Pane.heed { p with brush := p.brush.brush dimension c }, ?_, fun _ => ?_⟩
  · rw [perform_brush_eq hp]
    exact showsAs_publishBrush hp (f := fun p => { p with brush := p.brush.brush dimension c }) hown
  · exact Pane.minds_heed rfl rfl ⟨_, hbrush⟩ (Brush.selected_recompute _) fun h =>
      h.execute (c := .brush dimension c) rfl

theorem confined_brushCoalesced (hp : s.table.pane? pane = some p) (hown : p.brush.pane = pane)
    (dimension : String) (c : Option (Constraint Float)) (now : Nat) (env : σ) :
    s.Confined backend pane p env (.brushCoalesced pane dimension c now) := by
  let b := (p.brush.brushCoalesced dimension c now).1
  have hpane : b.pane = pane :=
    (p.brush.pane_execute (.brushCoalesced dimension c now)).trans hown
  have hbrush : s.brushCoalesced pane dimension c now =
      .ok (if (p.brush.brushCoalesced dimension c now).2 then
        (s.modifyBrush pane fun _ => b).publishBrush pane else s.modifyBrush pane fun _ => b,
        (p.brush.brushCoalesced dimension c now).2) := by
    rw [Session.brushCoalesced, get_eq_ok.2 hp]
    rfl
  have hperform : (s.perform backend (.brushCoalesced pane dimension c now) env).1 =
      if (p.brush.brushCoalesced dimension c now).2 then
        (s.modifyBrush pane fun _ => b).publishBrush pane else s.modifyBrush pane fun _ => b := by
    change s.after Prod.fst (s.brushCoalesced pane dimension c now) = _
    rw [hbrush]
    rfl
  cases hran : (p.brush.brushCoalesced dimension c now).2 with
  | false =>
    rw [hran] at hbrush hperform
    refine ⟨{ p with brush := b }, ?_, fun _ => Pane.minds_of_selection_eq rfl ?_⟩
    · exact showsAs_of_eq_modify hp hperform
    · rintro ⟨s', hs'⟩
      rw [hbrush] at hs'
      exact absurd (Prod.mk.inj (Except.ok.inj hs')).2 Bool.false_ne_true
  | true =>
    rw [hran] at hbrush hperform
    have hselected : b.selected = b.admitted := Brush.selected_of_ran hran
    refine ⟨Pane.heed { p with brush := b }, ?_, fun _ => ?_⟩
    · rw [hperform]
      exact showsAs_publishBrush hp (f := fun p => { p with brush := b }) hpane
    · exact Pane.minds_heed rfl rfl ⟨_, hbrush⟩ hselected fun h =>
        h.execute (c := .brushCoalesced dimension c now) rfl

theorem confined_selectExtreme (hp : s.table.pane? pane = some p) (hown : p.brush.pane = pane)
    (dimension : String) (which : Extreme) (env : σ) :
    s.Confined backend pane p env (.selectExtreme pane dimension which) := by
  cases hextreme : p.brush.selectExtreme? dimension which with
  | none =>
    have hselect : s.selectExtreme pane dimension which = .ok (s, false) := by
      simp only [Session.selectExtreme, get_eq_ok.2 hp, bind, Except.bind, hextreme]
      rfl
    refine ⟨p, ?_, fun _ => Pane.minds_of_selection_eq rfl ?_⟩
    · refine showsAs_of_eq hp ?_
      change s.after Prod.fst (s.selectExtreme pane dimension which) = s
      rw [hselect]
      rfl
    · rintro ⟨s', hs'⟩
      rw [hselect] at hs'
      exact absurd (Prod.mk.inj (Except.ok.inj hs')).2 Bool.false_ne_true
  | some b =>
    have hselect : s.selectExtreme pane dimension which =
        .ok ((s.modifyBrush pane fun _ => b).publishBrush pane, true) := by
      simp only [Session.selectExtreme, get_eq_ok.2 hp, bind, Except.bind, hextreme]
      rfl
    have hb : (p.brush.execute (.selectExtreme dimension which)).1 = b := by
      simp only [Brush.execute, hextreme]
      rfl
    refine ⟨Pane.heed { p with brush := b }, ?_, fun _ => ?_⟩
    · have hpane : b.pane = pane :=
        hb ▸ (p.brush.pane_execute (.selectExtreme dimension which)).trans hown
      have hperform : (s.perform backend (.selectExtreme pane dimension which) env).1 =
          (s.modifyBrush pane fun _ => b).publishBrush pane := by
        change s.after Prod.fst (s.selectExtreme pane dimension which) = _
        rw [hselect]
        rfl
      rw [hperform]
      exact showsAs_publishBrush hp (f := fun p => { p with brush := b }) hpane
    · obtain ⟨d, c, -, -, hrecomputed⟩ := Brush.selectExtreme?_eq_some hextreme
      have hselected : b.selected = b.admitted := by
        rw [hrecomputed]
        exact Brush.selected_recompute _
      refine Pane.minds_heed rfl rfl ⟨_, hselect⟩ hselected fun h => ?_
      exact hb ▸ h.execute (c := .selectExtreme dimension which) rfl

/-- A pane that changes is projected anew. -/
theorem showsAs_reproject (hp : s.table.pane? pane = some p) {f : Pane → Pane}
    (hown : (f p).brush.pane = pane) :
    ShowsAs grew (s.modify pane fun _ => ((f p).project s.schema).heed)
      ((s.modify pane f).reproject pane) := by
  have hprojected : (s.modify pane f).modify pane (fun p => p.project s.schema) =
      s.modify pane fun p => (f p).project s.schema := modify_modify ..
  have hreproject : (s.modify pane f).reproject pane =
      (s.modify pane fun p => (f p).project s.schema).publishBrush pane :=
    congrArg (fun s' => s'.publishBrush pane) hprojected
  rw [hreproject]
  exact showsAs_publishBrush hp (f := fun p => (f p).project s.schema) hown

/-- What changes a live pane and projects it anew. -/
theorem confined_reproject (hp : s.table.pane? pane = some p) {c : SessionCommand} {f : Pane → Pane}
    {env : σ} (hperform : (s.perform backend c env).1 = (s.modify pane f).reproject pane)
    (hagain : s.Recomputes backend env c) (hown : (f p).brush.pane = pane)
    (hselection : (f p).selection = p.selection)
    (hauto : (f p).view.autoSync = p.view.autoSync) : s.Confined backend pane p env c := by
  refine ⟨((f p).project s.schema).heed, ?_, fun _ => ?_⟩
  · rw [hperform]
    exact showsAs_reproject hp hown
  · exact Pane.minds_heed hselection hauto hagain (Brush.selected_projectStore ..) fun _ =>
      (f p).heldRows_project s.schema

/-- Settings by which a pane is projected anew. -/
theorem confined_setView (hp : s.table.pane? pane = some p) (hown : p.brush.pane = pane)
    {c : SessionCommand} {f : ViewState → ViewState} (hauto : ∀ v, (f v).autoSync = v.autoSync)
    {env : σ} {shown : Except SessionError Session}
    (hshown : shown = do return (← s.modifyView pane f).reproject pane)
    (hperform : (s.perform backend c env).1 = s.after id shown)
    (hagain : (∃ s', shown = .ok s') → s.Recomputes backend env c) :
    s.Confined backend pane p env c := by
  have hset : shown =
      .ok ((s.modify pane fun p => { p with view := f p.view }).reproject pane) := by
    rw [hshown, modifyView, modifyLive_eq hp]
    rfl
  refine confined_reproject hp (f := fun p => { p with view := f p.view }) ?_ (hagain ⟨_, hset⟩)
    hown rfl (hauto p.view)
  rw [hperform, hset]
  rfl

/-- What changes a live pane without asking its brush. -/
theorem confined_modifyLive (hp : s.table.pane? pane = some p) {c : SessionCommand}
    {f : Pane → Pane} {env : σ}
    (hperform : (s.perform backend c env).1 = s.after id (s.modifyLive pane f))
    (hminds : c.kind ≠ .selecting → p.Minds (f p) (s.Recomputes backend env c)) :
    s.Confined backend pane p env c := by
  refine ⟨f p, showsAs_of_eq_modify hp ?_, hminds⟩
  rw [hperform, modifyLive_eq hp]
  rfl

/-- What may put another pane in the place of one, and tells whether it did. -/
theorem confined_moved (hp : s.table.pane? pane = some p) {c : SessionCommand} {env : σ}
    {p? : Option Pane} {moved : Except SessionError (Session × Bool)}
    (hmoved : moved = .ok ((p?.map fun q => s.modify pane fun _ => q).getD s, p?.isSome))
    (hperform : (s.perform backend c env).1 = s.after Prod.fst moved)
    (hc : c.kind = .selecting) : s.Confined backend pane p env c := by
  refine ⟨p?.getD p, showsAs_of_eq_modify (f := fun _ => p?.getD p) hp ?_, fun hne => absurd hc hne⟩
  rw [hperform, hmoved]
  cases p? with
  | none => exact (modify_eq_self hp rfl).symm
  | some q => rfl

theorem undo_eq_ok (hp : s.table.pane? pane = some p) : s.undo pane =
    .ok ((p.undo?.map fun q => s.modify pane fun _ => q).getD s, p.undo?.isSome) := by
  rw [Session.undo, get_eq_ok.2 hp]
  cases hundo : p.undo? <;> simp only [bind, Except.bind, hundo] <;> rfl

theorem redo_eq_ok (hp : s.table.pane? pane = some p) : s.redo pane =
    .ok ((p.redo?.map fun q => s.modify pane fun _ => q).getD s, p.redo?.isSome) := by
  rw [Session.redo, get_eq_ok.2 hp]
  cases hredo : p.redo? <;> simp only [bind, Except.bind, hredo] <;> rfl

theorem confined_refresh (hp : s.table.pane? pane = some p) (hown : p.brush.pane = pane) (env : σ) :
    s.Confined backend pane p env (.refresh pane) := by
  obtain ⟨⟨store, updated⟩, env', hfetched⟩ :
      ∃ answer env', backend.refresh p.store env = (answer, env') := ⟨_, _, rfl⟩
  cases updated with
  | error e =>
    have hrefresh : (s.refresh backend pane env).1 =
        (s.warn (some pane) s!"refresh failed: {e.message}", .error (.explore e)) := by
      simp only [Session.refresh, get_eq_ok.2 hp, bind, StateT.bind, hfetched]
      rfl
    refine ⟨p, ?_, fun _ => Pane.minds_of_selection_eq rfl ?_⟩
    · change ShowsAs _ _ (s.refresh backend pane env).1.1
      rw [hrefresh, modify_eq_self hp rfl]
      exact showsAs_of_pane?_eq fun _ => rfl
    · rintro ⟨n, hn⟩
      rw [hrefresh] at hn
      cases hn
  | ok n =>
    have hrefresh : (s.refresh backend pane env).1 =
        ((s.modify pane fun p => { p with store }).reproject pane, .ok n) := by
      simp only [Session.refresh, get_eq_ok.2 hp, bind, StateT.bind, hfetched]
      rfl
    exact confined_reproject hp (f := fun p => { p with store }) (congrArg Prod.fst hrefresh)
      ⟨n, congrArg Prod.snd hrefresh⟩ hown rfl rfl

/-! ### Expansions -/

theorem bearing_derived (s : Session) (added : List NodeId) (p : Pane) :
    (s.derived added p).bearing = p.bearing := by
  have hsettled : (p.noteAdded added).bearing = p.bearing :=
    (congrArg Pane.bearing
      (Pane.still_settle { p with everAdded := p.everAdded.insertMany added }) :)
  rw [← hsettled]
  simp only [Session.derived, Pane.project]
  rfl

theorem bearing_takeOver (store : Store) (p : Pane) : (p.takeOver store).bearing = p.bearing :=
  (congrArg Pane.bearing { p with store }.still_endExpansion :)

/-- What is fetched for a pane is minded if it is merged. -/
theorem minds_committed (s : Session) (p : Pane) (c : Store × Outcome) :
    p.Minds ((s.committed p c).change p)
      (∃ delta, (s.committed p c).result = .ok (.merged delta)) := by
  obtain ⟨store, outcome⟩ := c
  cases outcome with
  | merged delta =>
    have hbearing := (s.bearing_derived delta.nodes (p.takeOver store)).trans
      (bearing_takeOver store p)
    exact Pane.minds_heed (Pane.selection_of_bearing_eq hbearing)
      (Pane.autoSync_of_bearing_eq hbearing) ⟨delta, rfl⟩ (Brush.selected_projectStore ..)
      fun _ => (s.fresh_derived _ _).heldRows
  | capacityExceeded pending =>
    refine Pane.minds_of_selection_eq (congrArg Pane.selection p.still_endExpansion :) ?_
    rintro ⟨delta, hdelta⟩
    cases hdelta

theorem minds_finishing (s : Session) (p : Pane) (t : Ticket)
    (fetched : Except ExploreError Fragment) :
    p.Minds ((s.finishing p t fetched).change p)
      (∃ delta, (s.finishing p t fetched).result = .ok (.merged delta)) := by
  cases fetched with
  | error e =>
    refine Pane.minds_of_selection_eq (congrArg Pane.selection p.still_endExpansion :) ?_
    rintro ⟨delta, hdelta⟩
    cases hdelta
  | ok g => exact s.minds_committed p _

/-- A ticket that is finished changes its pane. -/
theorem showsAs_finish {t : Ticket} (hp : s.table.pane? t.pane = some p)
    (hown : p.brush.pane = t.pane) (fetched : Except ExploreError Fragment) :
    ShowsAs true (s.modify t.pane fun _ => (s.finishing p t fetched).change p)
      (s.finish t fetched).1 := by
  have hchanged : (s.modify t.pane fun _ => (s.finishing p t fetched).change p) =
      s.modify t.pane (s.finishing p t fetched).change := modify_congr hp rfl
  rw [finish_eq hp hown fetched, hchanged]
  exact showsAs_recount _ _ _

theorem result_finish {t : Ticket} (hp : s.table.pane? t.pane = some p)
    (hown : p.brush.pane = t.pane) (fetched : Except ExploreError Fragment) :
    (s.finish t fetched).2 = (s.finishing p t fetched).result := by
  rw [finish_eq hp hown fetched]

theorem confined_finish {t : Ticket} (hp : s.table.pane? t.pane = some p)
    (hown : p.brush.pane = t.pane) (fetched : Except ExploreError Fragment) (env : σ) :
    s.Confined backend t.pane p env (.finish t fetched) := by
  refine ⟨_, showsAs_finish hp hown fetched, fun _ => ?_⟩
  change p.Minds _ (∃ delta, (s.finish t fetched).2 = .ok (.merged delta))
  rw [result_finish hp hown fetched]
  exact s.minds_finishing p t fetched

theorem confined_expand (hs : s.Sound) (hp : s.table.pane? pane = some p)
    (hown : p.brush.pane = pane) (frontier : List NodeId) (env : σ) :
    s.Confined backend pane p env (.expand pane frontier) := by
  have hperform : (s.perform backend (.expand pane frontier) env).1 =
      (s.expand backend pane frontier env).1.1 := rfl
  cases hbegin : s.beginExpansion pane frontier with
  | error e =>
    have hexpand : s.expand backend pane frontier env = ((s, .error e), env) := by
      unfold Session.expand
      rw [hbegin]
      rfl
    refine ⟨p, showsAs_of_eq hp (by rw [hperform, hexpand]), fun _ => ?_⟩
    refine Pane.minds_of_selection_eq rfl ?_
    rintro ⟨delta, hdelta⟩
    rw [hexpand] at hdelta
    cases hdelta
  | ok begun =>
    obtain ⟨s', t⟩ := begun
    obtain ⟨rfl, p', q, number, hp', hstill, rfl⟩ := hs.beginExpansion_eq_ok hbegin
    obtain rfl := Option.some.inj (hp.symm.trans hp')
    let s' : Session := { s with table := { s.table.modify t.pane (fun _ => q) with
      nextLease := number } }
    have hq : s'.table.pane? t.pane = some q := by
      have hlent : (s.modify t.pane fun _ => q).table.pane? t.pane = some q := by
        rw [pane?_modify_self, hp, Option.map_some]
      exact hlent
    -- What becomes of the pane is put where it was before it gave out the ticket.
    have hlent : ∀ r id, (s.modify t.pane fun _ => r).table.pane? id =
        (s'.modify t.pane fun _ => r).table.pane? id := by
      intro r id
      have htwice : (s.modify t.pane fun _ => q).modify t.pane (fun _ => r) =
          s.modify t.pane fun _ => r := modify_modify ..
      rw [← htwice]
      rfl
    have hown' : q.brush.pane = t.pane :=
      (congrArg (fun r => r.brush.pane) hstill :).trans hown
    have hexpand : (s.expand backend t.pane frontier env).1 =
        s'.finish t (backend.fetch t.planned env).1 := by
      unfold Session.expand
      rw [hbegin]
      rfl
    let fetched := (backend.fetch t.planned env).1
    refine ⟨(s'.finishing q t fetched).change q, ?_, fun _ => ?_⟩
    · rw [hperform, hexpand]
      exact (showsAs_finish hq hown' fetched).of_pane?_eq (hlent _)
    · change p.Minds _ (∃ delta, (s.expand backend t.pane frontier env).1.2 = .ok (.merged delta))
      rw [hexpand, result_finish hq hown']
      exact (s'.minds_finishing q t fetched).of_still_eq hstill

/-! ### All commands -/

/-- Settings that no brush reads. -/
theorem confined_adjust (hp : s.table.pane? pane = some p) {c : SessionCommand}
    {f : ViewState → ViewState} {env : σ}
    (hperform : (s.perform backend c env).1 = s.after id (s.modifyView pane f))
    (hagain : ¬s.Recomputes backend env c) : s.Confined backend pane p env c :=
  confined_modifyLive hp hperform fun _ => Pane.minds_of_selection_eq rfl hagain

/-- **A command makes another pane of the one that it is about**, and touches no other pane. -/
theorem confined (hs : s.Sound) (hp : s.table.pane? pane = some p) (hown : p.brush.pane = pane)
    {c : SessionCommand} (hc : c.about? = some pane) (env : σ) :
    s.Confined backend pane p env c := by
  cases c with
  | finish t fetched =>
    obtain rfl := Option.some.inj hc
    exact confined_finish hp hown fetched env
  | expand pane' frontier =>
    obtain rfl := Option.some.inj hc
    exact confined_expand hs hp hown frontier env
  | refresh pane' =>
    obtain rfl := Option.some.inj hc
    exact confined_refresh hp hown env
  | select pane' ids =>
    obtain rfl := Option.some.inj hc
    exact confined_modifyLive hp rfl fun hne => absurd rfl hne
  | undo pane' =>
    obtain rfl := Option.some.inj hc
    exact confined_moved hp (undo_eq_ok hp) rfl rfl
  | redo pane' =>
    obtain rfl := Option.some.inj hc
    exact confined_moved hp (redo_eq_ok hp) rfl rfl
  | selectWhere pane' proposition =>
    obtain rfl := Option.some.inj hc
    exact confined_modifyLive hp rfl fun hne => absurd rfl hne
  | brush pane' dimension c =>
    obtain rfl := Option.some.inj hc
    exact confined_brush hp hown dimension c env
  | brushCoalesced pane' dimension c now =>
    obtain rfl := Option.some.inj hc
    exact confined_brushCoalesced hp hown dimension c now env
  | selectExtreme pane' dimension which =>
    obtain rfl := Option.some.inj hc
    exact confined_selectExtreme hp hown dimension which env
  | setMode pane' mode =>
    obtain rfl := Option.some.inj hc
    exact confined_setView hp hown (f := fun v => { v with mode }) (fun _ => rfl) rfl rfl id
  | setDetails pane' details =>
    obtain rfl := Option.some.inj hc
    exact confined_setView hp hown (f := fun v => { v with details }) (fun _ => rfl) rfl rfl id
  | setPolicy pane' policy =>
    obtain rfl := Option.some.inj hc
    exact confined_adjust hp rfl id
  | setAutoSync pane' on =>
    obtain rfl := Option.some.inj hc
    exact confined_adjust hp rfl id
  | _ => cases hc

/-- Selecting in a pane asks no brush. -/
theorem kind_ne_of_recomputes {c : SessionCommand} {env : σ} (h : s.Recomputes backend env c) :
    c.kind ≠ .selecting := by
  intro hkind
  cases c with
  | select | undo | redo | selectWhere => exact h
  | resolve pane pending decision => exact h
  | _ => cases hkind

/-- A command about a pane that is not live is refused and changes nothing. -/
theorem perform_of_not_live (hdead : s.table.pane? pane = none) {c : SessionCommand}
    (hc : c.about? = some pane) (env : σ) : (s.perform backend c env).1 = s := by
  have hget : s.get pane = .error (.pane (.notFound pane)) := by
    rw [Session.get, PaneTable.get, hdead]
    rfl
  have hlive (f : Pane → Pane) : s.modifyLive pane f = .error (.pane (.notFound pane)) := by
    rw [modifyLive, hget]
    rfl
  cases c with
  | finish t fetched =>
    obtain rfl := Option.some.inj hc
    change (s.finish t fetched).1 = s
    simp only [Session.finish, hget]
  | expand pane' frontier =>
    obtain rfl := Option.some.inj hc
    change (s.expand backend pane' frontier env).1.1 = s
    rw [Session.expand, Session.beginExpansion, hget]
    rfl
  | refresh pane' =>
    obtain rfl := Option.some.inj hc
    change (s.refresh backend pane' env).1.1 = s
    rw [Session.refresh, hget]
    rfl
  | select pane' ids =>
    obtain rfl := Option.some.inj hc
    exact congrArg (s.after id) (hlive _)
  | selectWhere pane' proposition =>
    obtain rfl := Option.some.inj hc
    exact congrArg (s.after id) (hlive _)
  | setPolicy pane' policy =>
    obtain rfl := Option.some.inj hc
    exact congrArg (s.after id) (hlive _)
  | setAutoSync pane' on =>
    obtain rfl := Option.some.inj hc
    exact congrArg (s.after id) (hlive _)
  | setMode pane' mode =>
    obtain rfl := Option.some.inj hc
    change s.after id (s.setMode pane' mode) = s
    rw [Session.setMode, modifyView, hlive]
    rfl
  | setDetails pane' details =>
    obtain rfl := Option.some.inj hc
    change s.after id (s.setDetails pane' details) = s
    rw [Session.setDetails, modifyView, hlive]
    rfl
  | undo pane' =>
    obtain rfl := Option.some.inj hc
    change s.after Prod.fst (s.undo pane') = s
    rw [Session.undo, hget]
    rfl
  | redo pane' =>
    obtain rfl := Option.some.inj hc
    change s.after Prod.fst (s.redo pane') = s
    rw [Session.redo, hget]
    rfl
  | brush pane' dimension c =>
    obtain rfl := Option.some.inj hc
    change s.after id (s.brush pane' dimension c) = s
    rw [Session.brush, hget]
    rfl
  | brushCoalesced pane' dimension c now =>
    obtain rfl := Option.some.inj hc
    change s.after Prod.fst (s.brushCoalesced pane' dimension c now) = s
    rw [Session.brushCoalesced, hget]
    rfl
  | selectExtreme pane' dimension which =>
    obtain rfl := Option.some.inj hc
    change s.after Prod.fst (s.selectExtreme pane' dimension which) = s
    rw [Session.selectExtreme, hget]
    rfl
  | _ => cases hc

/-- What a command about a pane makes of a session in which no brush speaks for another pane. -/
theorem Sound.apart (hs : s.Sound) (hown : s.Own) (backend : Backend (StateM σ))
    {c : SessionCommand} (hc : c.about? = some pane) (env : σ) :
    (∀ id q, id ≠ pane → s.table.pane? id = some q →
      ∃ r, (s.perform backend c env).1.table.pane? id = some (q.withRecurring r) ∧
        (c.expands = false → r = q.recurring)) ∧
    ∀ p, s.table.pane? pane = some p →
      ∃ q, (s.perform backend c env).1.table.pane? pane = some q ∧
        (s.HeldRows → p.view.autoSync = true → s.Recomputes backend env c →
          q.selection = q.brush.selected) ∧
        (c.kind ≠ .selecting → p.view.autoSync = false ∨ ¬s.Recomputes backend env c →
          q.selection = p.selection) := by
  refine ⟨fun id q hne hq => ?_, fun p hp => ?_⟩
  · rcases Option.eq_none_or_eq_some (s.table.pane? pane) with hdead | ⟨p, hp⟩
    · rw [perform_of_not_live hdead hc env]
      exact ⟨q.recurring, hq, fun _ => rfl⟩
    · have hconfined : s.Confined backend pane p env c := confined hs hp (hown pane p hp) hc env
      obtain ⟨_, hshows, -⟩ := hconfined
      exact hshows id q ((pane?_modify_of_ne s hne _).trans hq)
  · have hconfined : s.Confined backend pane p env c := confined hs hp (hown pane p hp) hc env
    obtain ⟨q, hshows, hminds⟩ := hconfined
    have hq : (s.modify pane fun _ => q).table.pane? pane = some q := by
      rw [pane?_modify_self, hp, Option.map_some]
    obtain ⟨r, hr, -⟩ := hshows pane q hq
    refine ⟨q.withRecurring r, hr, fun hrows hauto hagain => ?_, fun hk => (hminds hk).keeps⟩
    exact (hminds (kind_ne_of_recomputes hagain)).follows (hrows pane p hp) hauto hagain

/-- A pane and its copy are expanding, and the pane follows its brush. -/
def followBoth : List Request := expandBoth ++ [.session (.setAutoSync original true)]

@[inherit_doc followBoth]
def bothFollowing : Session :=
  ((vacant ({} : Config).options {}).serveAll (.constant (oneState ⟨"s0"⟩)) followBoth ()).1

theorem live_bothFollowing : bothFollowing.table.contains copied = true ∧
    (bothFollowing.table.pane? original).map (fun p => p.view.autoSync) = some true := by
  decide +kernel

end Session

open Session

/-- **Panes stay apart.**  Whatever was asked of a session, past it of its table, and of its panes
as long as they keep their brushes: a command that expands, brushes, selects or changes settings in
a pane leaves every other live pane as it is, but for what the pane shows as recurring, and that may
change only when something is expanded.  If the command recomputes the pane's brush and the pane
follows its brush, then what the brush selects becomes the pane's selection, as long as no brush was
given rows of other nodes past the session.  If the pane does not follow its brush, or the brush is
not recomputed, only selecting, undoing and redoing change the pane's selection. -/
theorem panes_stay_apart {σ : Type} (backend : Backend (StateM σ)) (env : σ)
    (options : SessionOptions) (bus : Bus) (requests : List Request)
    (hrequests : ∀ r ∈ requests, r.KeepsBrush) :
    let s := ((Session.vacant options bus).serveAll backend requests env).1
    ∀ (c : SessionCommand) (env' : σ) (pane : PaneId), c.about? = some pane →
      let s' := (s.perform backend c env').1
      (∀ id q, id ≠ pane → s.table.pane? id = some q →
        ∃ r, s'.table.pane? id = some (q.withRecurring r) ∧
          (c.expands = false → r = q.recurring)) ∧
      ∀ p, s.table.pane? pane = some p → ∃ q, s'.table.pane? pane = some q ∧
        ((∀ r ∈ requests, r.KeepsRows) → p.view.autoSync = true →
          s.Recomputes backend env' c → q.selection = q.brush.selected) ∧
        (c.kind ≠ .selecting → p.view.autoSync = false ∨ ¬s.Recomputes backend env' c →
          q.selection = p.selection) := by
  intro s c env' pane hc
  have hs : s.Sound := (sound_vacant options bus).serveAll requests env
  have hown : s.Own := (own_vacant options bus).serveAll (sound_vacant options bus) hrequests env
  obtain ⟨hothers, hpane⟩ := hs.apart hown backend hc env'
  refine ⟨hothers, fun p hp => ?_⟩
  obtain ⟨q, hq, hfollows, hkeeps⟩ := hpane p hp
  refine ⟨q, hq, fun hrows => hfollows ?_, hkeeps⟩
  exact (heldRows_vacant options bus).serveAll (sound_vacant options bus) hrows env

theorem panes_stay_apart_followBoth :
    (∀ r ∈ followBoth, r.KeepsBrush) ∧ (∀ r ∈ followBoth, r.KeepsRows) ∧ ∃ p q s',
      bothFollowing.table.pane? copied = some p ∧
      bothFollowing.brush original "depth" none = .ok s' ∧ s'.table.pane? copied = some p ∧
      s'.table.pane? original = some q ∧ q.selection = q.brush.selected := by
  have hbrushes : ∀ r ∈ followBoth, r.KeepsBrush := by
    simp [followBoth, expandBoth, Request.KeepsBrush]
  have hrows : ∀ r ∈ followBoth, r.KeepsRows := by
    simp [followBoth, expandBoth, Request.KeepsRows]
  obtain ⟨hcopied, horiginal⟩ := live_bothFollowing
  obtain ⟨p, hp⟩ := exists_pane?_iff.1 hcopied
  obtain ⟨o, ho, hauto⟩ := Option.map_eq_some_iff.1 horiginal
  have hbrush := brush_eq_ok ho "depth" none
  have hperform : (bothFollowing.perform (.constant (oneState ⟨"s0"⟩))
      (.brush original "depth" none) ()).1 = _ := perform_brush_eq ho "depth" none ()
  obtain ⟨hothers, hpane⟩ := panes_stay_apart (.constant (oneState ⟨"s0"⟩)) () ({} : Config).options
    {} followBoth hbrushes (.brush original "depth" none) () original rfl
  obtain ⟨r, hr, hsame⟩ := hothers copied p (by decide) hp
  obtain ⟨q, hq, hfollows, -⟩ := hpane o ho
  obtain rfl := hsame rfl
  refine ⟨hbrushes, hrows, p, q, _, hp, hbrush, ?_, ?_, hfollows hrows hauto ⟨_, hbrush⟩⟩
  · exact (congrArg (fun s' => s'.table.pane? copied) hperform).symm.trans hr
  · exact (congrArg (fun s' => s'.table.pane? original) hperform).symm.trans hq

end StateAtlas
