import StateAtlas.Proofs.Document.Encoding
import StateAtlas.Proofs.Session.Merges
import StateAtlas.Proofs.Session.Provenance
/-!
Documents, read as they are written.

Nodes come in with fragments and documents that were read.  A node that was read is legible, and so is
one whose parts were; the bounds of a brush that took over only states that were read are finite.  So
every document that was read, and every document of a pane that such nodes and states were put into,
is read again as it is written, provided that the doubles in it are.

Main statement: `decoding_undoes_encoding`.
-/

namespace StateAtlas

/-! ## What was read -/

/-- The fragment that bytes are the text of. -/
def Fragment.read? (bs : List UInt8) : Option Fragment := (Json.ofBytes? bs).bind ofJson?

/-- A node that was read with a fragment or with a document. -/
inductive Node.Decoded : Node → Prop
  | fragment {bs : List UInt8} {g : Fragment} {n : Node} (hg : Fragment.read? bs = some g)
      (hn : n ∈ g.nodes) : Decoded n
  | document {bs : List UInt8} {d : PaneDocument} {n : Node} (hd : PaneDocument.read bs = .ok d)
      (hn : n ∈ d.nodes) : Decoded n

/-- The state of a brush that was read with a document. -/
def BrushState.Decoded (s : BrushState Float) : Prop :=
  ∃ bs d, PaneDocument.read bs = .ok d ∧ d.brush = s

/-- What was read may come in. -/
def Feed.decoded : Feed := ⟨Node.Decoded, BrushState.Decoded⟩

theorem Fragment.legible_of_read? {bs : List UInt8} {g : Fragment} (h : read? bs = some g) :
    ∀ n ∈ g.nodes, n.Legible := by
  obtain ⟨j, hj, h⟩ := Option.bind_eq_some_iff.1 h
  have hwithin : Json.Within (Node.maxDepth + 1 + 1) j := Json.within_of_ofBytes? hj
  obtain ⟨f, hf, h⟩ := Option.bind_eq_some_iff.1 h
  obtain ⟨nodes, hnodes, h⟩ := Option.bind_eq_some_iff.1 h
  obtain ⟨edges, -, h⟩ := Option.bind_eq_some_iff.1 h
  obtain rfl := Option.some.inj h
  rcases Json.orElse_eq_some hnodes with rfl | ⟨v, hv, hread⟩
  · exact nofun
  · exact Json.forall_of_list? hread (Json.within_of_fields? hf hwithin hv) Node.legible_of_ofJson?

namespace PaneDocument

variable {bs : List UInt8} {d : PaneDocument}

theorem read_eq_ok (h : read bs = .ok d) :
    ∃ j, Json.ofBytes? bs = some j ∧ ofJson? j = some d ∧ d.version = supportedVersion := by
  unfold read at h
  split at h
  next => nomatch h
  next d' hd' =>
    obtain ⟨j, hj, hd'⟩ := Option.bind_eq_some_iff.1 hd'
    split at h
    next hversion =>
      obtain rfl := Except.ok.inj h
      exact ⟨j, hj, hd', hversion⟩
    next => nomatch h

theorem legible_of_read (h : read bs = .ok d) : d.Legible := by
  obtain ⟨j, hj, hd, -⟩ := read_eq_ok h
  exact legible_of_ofJson? (Json.within_of_ofBytes? hj) hd

end PaneDocument

theorem Node.Decoded.legible {n : Node} (h : n.Decoded) : n.Legible := by
  cases h with
  | fragment hg hn => exact Fragment.legible_of_read? hg n hn
  | document hd hn => exact (PaneDocument.legible_of_read hd).nodes n hn

theorem Node.From.legible {n : Node} (h : n.From Node.Decoded) : n.Legible := by
  obtain ⟨m, hm, hattributes⟩ := h.attributes
  obtain ⟨m', hm', hweights⟩ := h.weights
  exact ⟨hattributes ▸ hm.legible.attributes, hweights ▸ hm'.legible.weights⟩

theorem BrushState.Decoded.isFinite {s : BrushState Float} (h : s.Decoded) : s.IsFinite := by
  obtain ⟨bs, d, hd, rfl⟩ := h
  exact (PaneDocument.legible_of_read hd).brush

/-! ## Documents -/

/-- Whether a number is a finite double. -/
def Json.Number.isFiniteDouble : Json.Number → Bool
  | .whole _ => false
  | .real x => x.isFinite

namespace PaneDocument

/-- A document that was read, or one of a pane, or of what a selection leaves of it, that read nodes
and states were put into. -/
inductive Known : PaneDocument → Prop
  | read {bs : List UInt8} {d : PaneDocument} (hd : PaneDocument.read bs = .ok d) : Known d
  | exported {p : Pane} (hp : p.Fed .decoded) (selection : Option (List NodeId)) :
      Known (ofPane p selection)

/-- Whether the finite doubles in the text of a document are read as they are printed. -/
def KeepsDoubles (d : PaneDocument) : Prop :=
  ∀ n ∈ d.toJson.numbers, n.isFiniteDouble = true → n.Rereads

instance (d : PaneDocument) : Decidable d.KeepsDoubles :=
  inferInstanceAs (Decidable (∀ n ∈ d.toJson.numbers, n.isFiniteDouble = true → n.Rereads))

variable {bs : List UInt8} {d : PaneDocument} {p : Pane}

theorem mem_nodes_of_mem_keptNodes {selection : Option (List NodeId)} {n : Node}
    (h : n ∈ keptNodes p selection) : n ∈ p.store.nodes := by
  cases selection with
  | none => exact h
  | some chosen => exact List.mem_of_mem_filter h

theorem legible_ofPane (h : p.Fed .decoded) (selection : Option (List NodeId)) :
    (ofPane p selection).Legible where
  version := show supportedVersion < Nat.pow 2 32 by decide
  nodes n hn := (h.nodes n (mem_nodes_of_mem_keptNodes hn)).legible
  brush := (h.brush.bounded fun _ hs => hs.isFinite).state

theorem Known.legible (h : d.Known) : d.Legible := by
  cases h with
  | read hd => exact legible_of_read hd
  | exported hp selection => exact legible_ofPane hp selection

theorem Known.version_eq (h : d.Known) : d.version = supportedVersion := by
  cases h with
  | read hd =>
    obtain ⟨j, -, -, hversion⟩ := read_eq_ok hd
    exact hversion
  | exported hp selection => rfl

/-! ## Reading again -/

/-- The text of a legible document gives back the document as JSON. -/
theorem ofBytes?_text (h : d.Legible) (hdoubles : d.KeepsDoubles) :
    Json.ofBytes? (DocumentFile.bytesOf d.text) = some d.toJson := by
  have hlegible := d.legible_toJson h
  refine Json.ofBytes?_pretty hlegible fun n hn => ?_
  have hsound := hlegible.within.sound n hn
  cases n with
  | whole n => exact Json.rereads_whole hsound
  | real x => exact hdoubles _ hn hsound

/-- The text of a legible document is read as the document, or refused for its version. -/
theorem read_text (h : d.Legible) (hdoubles : d.KeepsDoubles) :
    read (DocumentFile.bytesOf d.text) =
      if d.version = supportedVersion then .ok d else .error (.version d.version) := by
  rw [read, ofBytes?_text h hdoubles, Option.bind_some, ofJson?_toJson h]

theorem KeepsDoubles.withVersion (h : d.KeepsDoubles) (v : Nat) :
    { d with version := v }.KeepsDoubles := by
  unfold KeepsDoubles toJson at h ⊢
  simp only [Json.forall_numbers_record, List.forall_mem_cons] at h ⊢
  refine ⟨fun n hn hdouble => ?_, h.2⟩
  obtain rfl := List.mem_singleton.1 hn
  nomatch hdouble

end PaneDocument

open PaneDocument
open DocumentFile (bytesOf)

/-! ## A pane with a lamp -/

/-- A state with an attribute value of each kind and a weight, as a backend sends it. -/
def Fragment.lamp : Fragment :=
  (Fragment.read? (bytesOf ("\x7b\"nodes\":[\x7b\"id\":\"s0\",\"type\":\"s\",\"name\":\"lamp\"," ++
    "\"details\":\x7b\"m\":\x7b\"on\":true,\"x\":0.5,\"hue\":\"red\",\"log\":[1,null]\x7d\x7d," ++
    "\"scheduler\":\x7b\"fair\":-0.25\x7d\x7d]\x7d"))).getD {}

theorem Fragment.admits_lamp : Feed.decoded.AdmitsFragment .lamp := by
  unfold Fragment.lamp
  generalize bytesOf _ = bs
  cases hg : Fragment.read? bs with
  | none => exact nofun
  | some g => exact fun n hn => .fragment hg hn

theorem Feed.supplies_constant {F : Feed} {g : Fragment} (hg : F.AdmitsFragment g) :
    F.Supplies (.constant g) := by
  have hanswer : F.AdmitsAnswer (.ok g) := fun g' hg' => Except.ok.inj hg' ▸ hg
  exact ⟨fun _ => hanswer, fun _ _ => hanswer, fun _ _ _ g' hg' => Except.ok.inj hg' ▸ nofun⟩

namespace Session

/-- A session is started, and its first pane is brushed. -/
def brushLamp : List Call :=
  [.session .start, .session (.brush Naming.primary "x" (some (.range 0.75 1.5 false)))]

/-- The session with the lamp, brushed. -/
def lampSession : Session :=
  ((vacant ({} : Config).options {}).answerAll (.constant .lamp) brushLamp ()).1

end Session

/-! ## Decoding and encoding -/

/-- **Decoding undoes encoding.**  A document that was read, and any document of a pane that read nodes
and states of brushes were put into, is read from its text as it was, provided that the finite doubles
in it are read as they are printed.  Whatever calls are made to a session whose backend answers with
fragments that were read, all its live panes are such panes.  A document of another version is refused
for its version: whatever bytes it was read from, and also if a document of the supported version is
written under the other version. -/
theorem decoding_undoes_encoding :
    (∀ d : PaneDocument, d.Known → d.KeepsDoubles → read (bytesOf d.text) = .ok d) ∧
    (∀ {σ : Type} (backend : Backend (StateM σ)) (env : σ) (options : SessionOptions) (bus : Bus)
      (calls : List Call), Feed.decoded.Supplies backend →
      (∀ call ∈ calls, Feed.decoded.AdmitsCall call) →
      ∀ id p, ((Session.vacant options bus).answerAll backend calls env).1.table.pane? id = some p →
        ∀ selection, (ofPane p selection).Known) ∧
    (∀ bs d, (Json.ofBytes? bs).bind ofJson? = some d → d.version ≠ supportedVersion →
      read bs = .error (.version d.version)) ∧
    ∀ d : PaneDocument, d.Known → d.KeepsDoubles →
      ∀ v < Nat.pow 2 32, v ≠ supportedVersion →
        read (bytesOf { d with version := v }.text) = .error (.version v) := by
  refine ⟨fun d hd hdoubles => ?_, fun backend env options bus calls hbackend hcalls id p hp =>
    .exported ?_, fun bs d hd hversion => ?_, fun d hd hdoubles v hv hversion => ?_⟩
  · rw [read_text hd.legible hdoubles, if_pos hd.version_eq]
  · exact Session.always_fed (Session.fed_vacant options bus) hbackend hcalls env id p hp
  · unfold PaneDocument.read
    rw [hd]
    exact if_neg hversion
  · have hlegible : { d with version := v }.Legible := ⟨hv, hd.legible.nodes, hd.legible.brush⟩
    rw [read_text hlegible (hdoubles.withVersion v)]
    exact if_neg hversion

/-- The pane with the lamp is read from its document as it was, and refused under another version. -/
theorem decoding_undoes_encoding_lamp :
    ∃ p, Session.lampSession.table.pane? Naming.primary = some p ∧ p.store.nodeIds = [⟨"s0"⟩] ∧
      p.brush.state.constraints.keys = ["m/x"] ∧
      let d := ofPane p none
      let renumbered := { d with version := 2 }
      d.KeepsDoubles ∧ read (bytesOf d.text) = .ok d ∧
        (Json.ofBytes? (bytesOf renumbered.text)).bind ofJson? = some renumbered ∧
        read (bytesOf renumbered.text) = .error (.version 2) ∧
        read (bytesOf { d with version := 3 }.text) = .error (.version 3) := by
  obtain ⟨hread, hrun, hversion, hrenumbered⟩ := decoding_undoes_encoding
  have hlive : (Session.lampSession.table.pane? Naming.primary).map (fun p =>
      (p.store.nodeIds, p.brush.state.constraints.keys, decide (ofPane p none).KeepsDoubles)) =
        some ([⟨"s0"⟩], ["m/x"], true) := by decide +kernel
  obtain ⟨p, hp, hfacts⟩ := Option.map_eq_some_iff.1 hlive
  simp only [Prod.mk.injEq, decide_eq_true_eq] at hfacts
  obtain ⟨hids, hkeys, hdoubles⟩ := hfacts
  have hcalls : ∀ call ∈ Session.brushLamp, Feed.decoded.AdmitsCall call := by
    intro call hcall
    rcases List.mem_pair.1 hcall with rfl | rfl <;> exact trivial
  have hknown : (ofPane p none).Known :=
    hrun (.constant .lamp) () ({} : Config).options {} Session.brushLamp
      (Feed.supplies_constant Fragment.admits_lamp) hcalls _ p hp none
  have hlegible : { ofPane p none with version := 2 }.Legible :=
    ⟨show 2 < Nat.pow 2 32 by decide, hknown.legible.nodes, hknown.legible.brush⟩
  have hrenumbering : (Json.ofBytes? (bytesOf { ofPane p none with version := 2 }.text)).bind
      ofJson? = some { ofPane p none with version := 2 } := by
    rw [ofBytes?_text hlegible (hdoubles.withVersion 2), Option.bind_some, ofJson?_toJson hlegible]
  exact ⟨p, hp, hids, hkeys, hdoubles, hread _ hknown hdoubles, hrenumbering,
    hversion _ _ hrenumbering (show 2 ≠ supportedVersion by decide),
    hrenumbered _ hknown hdoubles 3 (by decide) (by decide)⟩

end StateAtlas
