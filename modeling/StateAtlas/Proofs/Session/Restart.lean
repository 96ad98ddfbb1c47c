import StateAtlas.Proofs.Session.Idle
import StateAtlas.Proofs.Session.PastDesk
import StateAtlas.Proofs.Session.Setup
/-!
Sessions after their end.

When a session ends, every pane is closed and all that the panes share is forgotten, except for the
schema, which stays until the next start loads another.  What is left besides is a past, on which
nothing that comes later depends.  So a session that goes on after its end does what a session does
that is only just set up and happens to have the same schema; and where the schema is empty, or is
loaded anew before anything else, it does what a session does that is only just set up.

Main statement: `serveAll_teardown`.
-/

namespace StateAtlas

open PaneTable

/-- The table is one that was only just set up, but for the leases that were given out and for its
bus. -/
theorem PaneTable.WellFormed.eq_start {t : PaneTable} {rank : PaneId → Nat} (h : t.WellFormed rank)
    (hprimary : t.primary = none) (hnaming : t.naming = {}) :
    t = { live := {}, naming := {}, nextLease := t.nextLease, maxPanes := t.maxPanes
          brushWindow := t.brushWindow, bus := t.bus } := by
  have hnone : ∀ id, t.pane? id = none := h.rooted.empty_of_primary_none hprimary
  have hdead : ∀ id, ¬t.contains id = true := fun id hid => by
    obtain ⟨p, hp⟩ := exists_pane?_iff.1 hid
    nomatch (hnone id).symm.trans hp
  have hlive : t.live = {} := Dictionary.ext_get? hnone
  have hids : t.ids = [] :=
    List.eq_nil_iff_forall_not_mem.2 fun id hid => hdead id ((h.rooted.linked.mem_ids id).1 hid)
  have hcreated : t.created = [] :=
    List.eq_nil_iff_forall_not_mem.2 fun id hid => hdead id ((h.rooted.linked.mem_created id).1 hid)
  have hactive : t.active = none :=
    Option.eq_none_iff_forall_ne_some.2 fun id hid => hdead id (h.active_live id hid)
  cases t
  simp_all

namespace Session

variable {s : Session}

/-- The session that is only just set up, with a schema loaded. -/
def ready (options : SessionOptions) (schema : Schema) : Session := { init options with schema }

/-- What an ended session leaves behind. -/
def remains (s : Session) : Past where
  leases := s.teardown.table.nextLease
  bus := s.teardown.table.bus
  deaf := by
    intro subscription hmem
    obtain ⟨-, -, rfl⟩ := List.mem_map.1 hmem
    rfl

/-- **A session that ended is one that is only just set up**, but for its past and its schema. -/
theorem Sound.teardown_eq (h : s.Sound) {options : SessionOptions} (bus : Bus)
    (hsetup : s.setup = (vacant options bus).setup) :
    s.teardown = s.remains.session (ready options s.schema) := by
  obtain ⟨rank, hwf⟩ := h.teardown.wellFormed
  have hoptions : s.options = options := congrArg Prod.fst hsetup
  have hkept : s.teardown.table.setup = (vacant options bus).table.setup :=
    congrArg Prod.snd ((setup_step (.teardown (k := .ending) rfl)).trans hsetup)
  obtain ⟨hmaxPanes, hbrushWindow⟩ := Prod.mk.inj hkept
  have htable : s.teardown.table = s.remains.table (ready options s.schema).table := by
    rw [hwf.eq_start rfl rfl, hmaxPanes, hbrushWindow]
    rfl
  have hteardown : s.teardown = { options := s.options, table := s.teardown.table
                                  schema := s.schema } := rfl
  rw [hteardown, htable, hoptions]
  rfl

theorem blank_init (options : SessionOptions) : ({ session := init options } : Desk).Blank :=
  ⟨rfl, rfl, rfl, rfl, rfl, rfl, rfl⟩

variable {σ τ : Type}

/-- **A session that goes on after its end**, whatever was asked of it, of its table and of its
panes before and whatever the backend answered.  Operations answer the same, and lead to the same
desk but for its past, as where a session is only just set up with the same options and has the same
schema loaded.  If the schema is empty, or no pane is opened before a schema is loaded, it need not
be loaded there. -/
theorem serveAll_teardown (earlier : Backend (StateM σ)) (env : σ) (options : SessionOptions)
    (bus : Bus) (requests : List Request) (later : Backend (StateM τ)) (env' : τ)
    (operations : List Operation) :
    let s := ((vacant options bus).serveAll earlier requests env).1
    let ended := ({ session := s.teardown } : Desk).serveAll later operations env'
    let ready := ({ session := ready options s.schema } : Desk).serveAll later operations env'
    let fresh := ({ session := init options } : Desk).serveAll later operations env'
    ∃ past : Past, ended = ((past.desk ready.1.1, ready.1.2), ready.2) ∧
      (s.schema = {} ∨ Desk.LoadsFirst later env' operations → ∃ kept,
        ended = ((past.desk (fresh.1.1.withSchema kept), fresh.1.2), fresh.2)) := by
  intro s ended ready fresh
  have hsound : s.Sound := (sound_vacant options bus).serveAll requests env
  have hsetup : s.setup = (vacant options bus).setup :=
    setup_serveAll earlier (vacant options bus) requests env
  -- Of what the session was before, only a past of the table remains, to which no operation looks.
  have hended : ended = ((s.remains.desk ready.1.1, ready.1.2), ready.2) := by
    show ({ session := s.teardown } : Desk).serveAll later operations env' = _
    rw [hsound.teardown_eq bus hsetup]
    exact congrFun (s.remains.serveAll_desk { session := Session.ready options s.schema } later
      operations) env'
  refine ⟨s.remains, hended, fun hschema => ?_⟩
  -- A schema that is loaded before any pane is opened replaces the one that was there.
  obtain ⟨kept, hready⟩ : ∃ kept,
      ready = ((fresh.1.1.withSchema kept, fresh.1.2), fresh.2) := by
    rcases hschema with hempty | hloads
    · refine ⟨fresh.1.1.session.schema, ?_⟩
      show ({ session := Session.ready options s.schema } : Desk).serveAll later operations env' = _
      rw [hempty]
      rfl
    · exact (blank_init options).serveAll_withSchema hloads s.schema
  exact ⟨kept, by rw [hended, hready]⟩

/-! ## A schema that stays -/

/-- A backend of an empty system that declares an attribute to be boolean. -/
def declaring : Backend (StateM Unit) where
  initial := return .ok {}
  status := return .ok { states := .ofList [("c", .ofList [("x", { type := some "boolean" })])] }
  outgoing _ := return .ok {}
  reset _ _ := return .ok {}

/-- A document of one state that has a text for the attribute. -/
def texted : PaneDocument where
  version := PaneDocument.supportedVersion
  pane := Naming.primary
  nodes := [({ id := ⟨"a"⟩, kind := .state } : Node).withAttribute "c" "x" (.text "high")]
  edges := []

/-- The document's attribute has an end to select after a new beginning, but not where the
declaration that it is boolean was left behind. -/
theorem teardown_keeps_schema :
    let options := ({} : Config).options
    let s := ((vacant options {}).serveAll declaring [.session .start] ()).1
    let operations := [.openDocuments [texted], .selectExtreme Naming.primary "x" .least]
    let answers (s : Session) := (({ session := s } : Desk).serveAll declaring operations ()).1.2
    (answers s.teardown).map Answer.told? = [none, some false] ∧
      (answers (init options)).map Answer.told? = [none, some true] := by
  decide +kernel

end Session

end StateAtlas
