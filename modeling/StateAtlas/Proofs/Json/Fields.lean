import StateAtlas.Json.Fields
import StateAtlas.Proofs.Except
import StateAtlas.Proofs.Json.Structure
/-!
Typed data in JSON values, written and read again.

Readers look at the parts of a value, which are nested one level less deep.  So what a reader makes
of a value within a depth is made of parts within smaller depths.
-/

namespace StateAtlas.Json

variable {α : Type} {depth : Nat} {j : Json}

/-! ## Parts of what is read -/

/-- Fields are parts of the value. -/
theorem within_of_fields? {names : List String} {f : Fields} (h : fields? names j = some f)
    (hj : Within (depth + 1) j) {name : String} {v : Json} (hv : f name = some v) :
    Within depth v := by
  unfold fields? at h
  split at h
  next fields =>
    split at h
    next =>
      obtain rfl := Option.some.inj h
      dsimp only at hv
      split at hv
      next =>
        obtain ⟨e, he, rfl⟩ := Option.map_eq_some_iff.1 hv
        exact Within.record_iff.1 hj e (List.mem_of_find?_eq_some he)
      next => nomatch hv
    next => nomatch h
  next items =>
    split at h
    next =>
      obtain rfl := Option.some.inj h
      obtain ⟨e, he, rfl⟩ := Option.map_eq_some_iff.1 hv
      have hmem := List.mem_of_find?_eq_some he
      exact Within.list_iff.1 hj e.2 (List.of_mem_zip hmem).2
    next => nomatch h
  next => nomatch h

/-- A field that was read was there or stands for its fallback. -/
theorem orElse_eq_some {fallback a : α} {read : Json → Option α} {v : Option Json}
    (h : orElse fallback read v = some a) : a = fallback ∨ ∃ j, v = some j ∧ read j = some a := by
  cases v with
  | none => exact .inl (Option.some.inj h).symm
  | some j => exact .inr ⟨j, rfl, h⟩

theorem forall_of_list? {P : α → Prop} {read : Json → Option α} {as : List α}
    (h : list? read j = some as) (hj : Within (depth + 1) j)
    (hread : ∀ {i a}, Within depth i → read i = some a → P a) : ∀ a ∈ as, P a := by
  unfold list? at h
  split at h
  next items =>
    intro a ha
    obtain ⟨i, hi, hia⟩ := mapM_eq_some h a ha
    exact hread (Within.list_iff.1 hj i hi) hia
  next => nomatch h

theorem forall_of_dictionary? {P : α → Prop} {read : Json → Option α} {d : Dictionary String α}
    (h : dictionary? read j = some d) (hj : Within (depth + 1) j)
    (hread : ∀ {i a}, Within depth i → read i = some a → P a) : ∀ e ∈ d.entries, P e.2 := by
  unfold dictionary? at h
  split at h
  next fields =>
    obtain ⟨es, hes, rfl⟩ := Option.map_eq_some_iff.1 h
    intro e he
    obtain ⟨f, hf, hfe⟩ := mapM_eq_some hes e (Dictionary.mem_of_mem_entries_ofList he)
    obtain ⟨a, ha, rfl⟩ := Option.map_eq_some_iff.1 hfe
    exact hread (Within.record_iff.1 hj f hf) ha
  next => nomatch h

/-- A double that is read is finite. -/
theorem isFinite_of_float? {x : Float} (hj : Within depth j) (h : float? j = some x) :
    x.isFinite = true := by
  cases j with
  | number n => exact Option.some.inj h ▸ (hj.sound n List.mem_cons_self).isFinite_toFloat
  | _ => nomatch h

/-! ## Reading what was written -/

theorem required_eq_some {read : Json → Option α} {v : Option Json} {a : α} (hv : v = some j)
    (h : read j = some a) : required read v = some a := hv ▸ h

theorem orElse_eq_some_of {fallback a : α} {read : Json → Option α} {v : Option Json}
    (hv : v = some j) (h : read j = some a) : orElse fallback read v = some a := hv ▸ h

theorem list?_map {read : Json → Option α} {write : α → Json} {as : List α}
    (h : ∀ a ∈ as, read (write a) = some a) : list? read (.list (as.map write)) = some as :=
  mapM_map_eq_some h

theorem dictionary?_ofDictionary {read : Json → Option α} {write : α → Json}
    {d : Dictionary String α} (h : ∀ e ∈ d.entries, read (write e.2) = some e.2) :
    dictionary? read (ofDictionary write d) = some d := by
  have hentries : (d.entries.map fun e => (e.1, write e.2)).mapM
      (fun f => (read f.2).map fun v => (f.1, v)) = some d.entries :=
    mapM_map_eq_some fun e he => by rw [h e he]; rfl
  rw [ofDictionary, dictionary?, hentries, Option.map_some, Dictionary.ofList_entries]

theorem Legible.ofDictionary {write : α → Json} {d : Dictionary String α}
    (h : ∀ e ∈ d.entries, Legible depth (write e.2)) :
    Legible (depth + 1) (ofDictionary write d) :=
  .record (List.forall_mem_map.2 h)

theorem Legible.texts (ss : List String) : Legible (depth + 1) (texts ss) :=
  .list (List.forall_mem_map.2 fun s _ => .text s)

theorem numbers_texts (ss : List String) : numbers (texts ss) = [] := by
  rw [texts, numbers, numbersOfEach_eq, List.flatMap_eq_nil_iff]
  exact List.forall_mem_map.2 fun _ _ => rfl

theorem list?_texts (ss : List String) : list? text? (texts ss) = some ss := list?_map fun _ _ => rfl

/-- A finite double. -/
theorem real_eq {x : Float} (h : x.isFinite = true) : real x = .number (.real x) := if_pos h

end StateAtlas.Json
