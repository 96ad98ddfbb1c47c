import StateAtlas.Overview.Relay
import StateAtlas.Proofs.Model.Encoding
/-!
Messages to the overview and their frames, written and read again.

A message is a record of its type and its parts, in which empty lists of spawners are left out.  It has
no numbers and no piece without a value, so that it is read as it is written whatever its names are.
Its frame is taken off a stream as it was put there, unless it is too long.

Main statements: `RegistryMessage.ofFrame?_frameBody` and `Frame.split_flatMap_encode`.
-/

namespace StateAtlas

namespace RegistryMessage

/-! ## Lists of names -/

theorem list?_nodeIds (ids : List NodeId) :
    Json.list? NodeId.ofJson? (NodeId.listToJson ids) = some ids :=
  Json.list?_map fun id _ => id.ofJson?_toJson

theorem list?_paneIds (ids : List PaneId) :
    Json.list? PaneId.ofJson? (PaneId.listToJson ids) = some ids :=
  Json.list?_map fun id _ => id.ofJson?_toJson

/-! ## Parts -/

/-- The fields of the message of a new pane; each list of spawners is missing if it is empty. -/
theorem fields?_paneAdded (id : PaneId) (color : String) (nodes : List NodeId)
    (spawners : List PaneId) (spawnerNodes : List NodeId) :
    ∃ j f, (paneAdded id color nodes spawners spawnerNodes).data? = some j ∧
      j.fields? ["id", "color", "nodeIds", "spawnerIds", "spawnerNodeIds"] = some f ∧
      f "id" = some id.toJson ∧ f "color" = some (.text color) ∧
      f "nodeIds" = some (NodeId.listToJson nodes) ∧
      f "spawnerIds" =
        (if spawners.isEmpty then none else some (PaneId.listToJson spawners)) ∧
      f "spawnerNodeIds" =
        (if spawnerNodes.isEmpty then none else some (NodeId.listToJson spawnerNodes)) := by
  dsimp only [data?]
  cases spawners.isEmpty <;> cases spawnerNodes.isEmpty <;>
    exact ⟨_, _, rfl, rfl, rfl, rfl, rfl, rfl, rfl⟩

/-- A list that is left out if it is empty stands for itself. -/
theorem orElse_nil {α : Type} {as : List α} {read : Json → Option α} {j : Json}
    (h : Json.list? read j = some as) :
    Json.orElse [] (Json.list? read) (if as.isEmpty then none else some j) = some as := by
  split
  next hempty => rw [List.isEmpty_iff.1 hempty]; rfl
  next => exact h

theorem ofData?_data? (m : RegistryMessage) : ofData? m.typeName m.data? = some m := by
  cases m with
  | paneAdded id color nodes spawners spawnerNodes =>
    obtain ⟨j, f, hj, hf, hid, hcolor, hnodes, hspawners, hspawnerNodes⟩ :=
      fields?_paneAdded id color nodes spawners spawnerNodes
    have hid := Json.required_eq_some hid id.ofJson?_toJson
    have hcolor : Json.required Json.text? (f "color") = some color :=
      Json.required_eq_some hcolor rfl
    have hnodes := Json.required_eq_some hnodes (list?_nodeIds nodes)
    have hspawners : Json.orElse [] (Json.list? PaneId.ofJson?) (f "spawnerIds") = some spawners :=
      hspawners ▸ orElse_nil (list?_paneIds spawners)
    have hspawnerNodes : Json.orElse [] (Json.list? NodeId.ofJson?) (f "spawnerNodeIds") =
        some spawnerNodes := hspawnerNodes ▸ orElse_nil (list?_nodeIds spawnerNodes)
    simp only [typeName, ofData?, hj, hf, hid, hcolor, hnodes, hspawners, hspawnerNodes,
      Option.bind_eq_bind, Option.bind_some]
  | paneRemoved id => rfl
  | activePane id => rfl
  | duplicatePaneIds ids => exact congrArg (Option.map duplicatePaneIds) (list?_paneIds ids)
  | resetPaneNodeMarkings => rfl

theorem listToJson_nodeIds (ids : List NodeId) :
    NodeId.listToJson ids = Json.texts (ids.map NodeId.text) :=
  congrArg Json.list (List.map_map ..).symm

theorem listToJson_paneIds (ids : List PaneId) :
    PaneId.listToJson ids = Json.texts (ids.map PaneId.text) :=
  congrArg Json.list (List.map_map ..).symm

/-- Whether a value is a text or a list of texts. -/
def Textual (j : Json) : Prop := (∃ s, j = .text s) ∨ ∃ ss, j = Json.texts ss

/-- The parts of a message are texts and lists of texts. -/
theorem textual_of_data? {m : RegistryMessage} {j : Json} (h : m.data? = some j) :
    ∃ fields, j = .record fields ∧ ∀ f ∈ fields, Textual f.2 := by
  cases m with
  | paneAdded id color nodes spawners spawnerNodes =>
    obtain rfl := Option.some.inj h
    refine ⟨_, rfl, fun f hf => ?_⟩
    simp only [List.mem_append, List.mem_cons, List.not_mem_nil, or_false] at hf
    rcases hf with ((rfl | rfl | rfl) | hf) | hf
    · exact .inl ⟨_, rfl⟩
    · exact .inl ⟨_, rfl⟩
    · exact .inr ⟨_, listToJson_nodeIds nodes⟩
    · split at hf
      · nomatch hf
      · exact List.mem_singleton.1 hf ▸ .inr ⟨_, listToJson_paneIds spawners⟩
    · split at hf
      · nomatch hf
      · exact List.mem_singleton.1 hf ▸ .inr ⟨_, listToJson_nodeIds spawnerNodes⟩
  | paneRemoved id =>
    obtain rfl := Option.some.inj h
    exact ⟨_, rfl, List.forall_mem_singleton.2 (.inl ⟨_, rfl⟩)⟩
  | activePane id =>
    obtain rfl := Option.some.inj h
    exact ⟨_, rfl, List.forall_mem_singleton.2 (.inl ⟨_, rfl⟩)⟩
  | duplicatePaneIds ids =>
    obtain rfl := Option.some.inj h
    exact ⟨_, rfl, List.forall_mem_singleton.2 (.inr ⟨_, listToJson_paneIds ids⟩)⟩
  | resetPaneNodeMarkings => nomatch h

/-- What holds of texts and of all records of texts and lists of texts holds of the fields of every
message. -/
theorem forall_fields_toJson {P : Json → Prop} (m : RegistryMessage) (text : ∀ s, P (.text s))
    (record : ∀ fields : List (String × Json), (∀ f ∈ fields, Textual f.2) → P (.record fields)) :
    ∀ f ∈ ("type", .text m.typeName) :: m.data?.toList.map fun j => ("data", j), P f.2 := by
  refine List.forall_mem_cons.2 ⟨text _, List.forall_mem_map.2 fun j hj => ?_⟩
  obtain ⟨fields, rfl, hfields⟩ := textual_of_data? (Option.mem_toList.1 hj)
  exact record fields hfields

/-! ## Messages -/

theorem fields?_toJson (m : RegistryMessage) :
    ∃ f, m.toJson.fields? ["type", "data"] = some f ∧ f "type" = some (.text m.typeName) ∧
      f "data" = m.data? := by
  unfold toJson
  cases m.data? <;> exact ⟨_, rfl, rfl, rfl⟩

/-- **A message is read from its record as it was.** -/
theorem ofJson?_toJson (m : RegistryMessage) : ofJson? m.toJson = some m := by
  obtain ⟨f, hf, htype, hdata⟩ := m.fields?_toJson
  have htype : Json.required Json.text? (f "type") = some m.typeName :=
    Json.required_eq_some htype rfl
  have hfirst : dataFirst (("type", .text m.typeName) :: m.data?.toList.map fun j => ("data", j)) =
      false := rfl
  unfold toJson at hf ⊢
  simp only [ofJson?, hf, htype, hdata, hfirst, Bool.false_and, Option.bind_eq_bind,
    Option.bind_some]
  exact m.ofData?_data?

theorem numbers_toJson (m : RegistryMessage) : m.toJson.numbers = [] := by
  have hrecord : ∀ fields : List (String × Json),
      (∀ f ∈ fields, Textual f.2) → (Json.record fields).numbers = [] := by
    intro fields h
    refine (Json.numbersOfFields_eq fields).trans (List.flatMap_eq_nil_iff.2 fun f hf => ?_)
    rcases h f hf with ⟨s, hs⟩ | ⟨ss, hss⟩
    · rw [hs]
      rfl
    · rw [hss, Json.numbers_texts]
  have hfields := m.forall_fields_toJson (P := fun j => j.numbers = []) (fun _ => rfl) hrecord
  exact (Json.numbersOfFields_eq _).trans (List.flatMap_eq_nil_iff.2 hfields)

theorem legible_toJson (m : RegistryMessage) {depth : Nat} :
    Json.Legible (depth + 3) m.toJson := by
  refine .record (m.forall_fields_toJson .text fun fields h => .record fun f hf => ?_)
  rcases h f hf with ⟨s, hs⟩ | ⟨ss, hss⟩
  · exact hs ▸ .text s
  · exact hss ▸ .texts ss

/-- **Every message is read from the body of its frame as it was.** -/
theorem ofFrame?_frameBody (m : RegistryMessage) : ofFrame? m.frameBody = some m := by
  have hread := Json.ofBytes?_compact m.legible_toJson (by rw [numbers_toJson]; exact nofun)
  rw [ofFrame?, frameBody, hread, Option.bind_some, ofJson?_toJson]

end RegistryMessage

/-! ## Frames in a stream -/

namespace Frame

theorem split_encode_append {body : List UInt8} (h : body.length ≤ maxLength) (bs : List UInt8) :
    split (encode body ++ bs) = { split bs with frames := body :: (split bs).frames } := by
  have hheader : (encode body ++ bs).take headerLength = bigEndian headerLength body.length := by
    rw [encode, List.append_assoc, List.take_left' (length_bigEndian ..)]
  have hbody : (encode body ++ bs).drop headerLength = body ++ bs := by
    rw [encode, List.append_assoc, List.drop_left' (length_bigEndian ..)]
  have hlength : ofBigEndian (bigEndian headerLength body.length) = body.length :=
    ofBigEndian_bigEndian _ _ (Nat.lt_of_le_of_lt h (by decide))
  have hcomplete : ¬ (encode body ++ bs).length < headerLength := by simp [encode, headerLength]
  have hfits : ¬ (body ++ bs).length < body.length := by simp
  rw [split, hheader, hbody, hlength, if_neg hcomplete]
  dsimp only
  rw [if_neg (Nat.not_lt.2 h), if_neg hfits, List.drop_left, List.take_left]

/-- **Frames are taken off a stream as they were put there**, whatever follows them. -/
theorem split_flatMap_encode {bodies : List (List UInt8)}
    (h : ∀ body ∈ bodies, body.length ≤ maxLength) (bs : List UInt8) :
    split (bodies.flatMap encode ++ bs) =
      { split bs with frames := bodies ++ (split bs).frames } := by
  induction bodies with
  | nil => rfl
  | cons body bodies ih =>
    rw [List.flatMap_cons, List.append_assoc, split_encode_append (h body List.mem_cons_self),
      ih fun body hbody => h body (List.mem_cons_of_mem _ hbody)]
    rfl

/-- A stream of frames and nothing else. -/
theorem split_flatMap_encode_self {bodies : List (List UInt8)}
    (h : ∀ body ∈ bodies, body.length ≤ maxLength) :
    split (bodies.flatMap encode) = ⟨bodies, [], false⟩ := by
  have hempty : split [] = ⟨[], [], false⟩ := by rw [split]; rfl
  have hsplit := split_flatMap_encode h []
  rwa [List.append_nil, hempty, List.append_nil] at hsplit

end Frame

end StateAtlas
