import Mathlib.Data.List.TakeWhile
import StateAtlas.Document.Basic
import StateAtlas.Proofs.Brush.Dimensions
/-!
What a document refers to and does not carry.

A constraint refers to an attribute by its dimension key, `category/name`, or by its bare name, and
an enabled detail by category and name.  What is referred to and carried by no node is listed.  But
a key is read up to its first separator, so an attribute is found by its key only if its category
has no separator.  The key of another attribute is listed although a node carries the attribute,
unless some attribute that is carried is found by the same text.

Main statement: `mismatches_exact`.
-/

namespace StateAtlas

/-- An attribute, by category and name, goes by its dimension key and by its bare name. -/
def GoesBy (key : String) (a : String × String) : Prop := dimensionKey a.1 a.2 = key ∨ a.2 = key

/-- An attribute is found by its bare name, and by its dimension key if the category has no
separator. -/
def FoundBy (key : String) (a : String × String) : Prop :=
  '/' ∉ a.1.toList ∧ dimensionKey a.1 a.2 = key ∨ a.2 = key

theorem FoundBy.goesBy {key : String} {a : String × String} (h : FoundBy key a) : GoesBy key a :=
  h.imp_left And.right

/-- A text that has a separator is split at the first one. -/
theorem span_eq_append {sep c : Char} {l before after : List Char}
    (h : l.span (· ≠ sep) = (before, c :: after)) : sep ∉ before ∧ l = before ++ sep :: after := by
  rw [List.span_eq_takeWhile_dropWhile, Prod.mk.injEq] at h
  obtain ⟨hbefore, hafter⟩ := h
  have hc : c = sep := by
    have hhead := List.head?_dropWhile_not (fun c => decide (c ≠ sep)) l
    rw [hafter] at hhead
    simpa using hhead
  constructor
  · intro hmem
    rw [← hbefore] at hmem
    simpa using List.mem_takeWhile_imp hmem
  · rw [← hc, ← hafter, ← hbefore, List.takeWhile_append_dropWhile]

namespace PaneDocument

variable {d : PaneDocument} {key : String} {a : String × String}

/-- A node of the document carries an attribute. -/
def Carries (d : PaneDocument) (a : String × String) : Prop :=
  ∃ n ∈ d.nodes, ∃ v, n.attributes.find? a.1 a.2 = some v

theorem carries_iff : d.carries a.1 a.2 = true ↔ d.Carries a := by
  simp only [carries, Carries, List.any_eq_true, Option.isSome_iff_exists]

theorem carriesName_iff : d.carriesName key = true ↔ ∃ a, d.Carries a ∧ a.2 = key := by
  simp only [carriesName, List.any_eq_true]
  constructor
  · rintro ⟨n, hn, attrs, hattrs, hname⟩
    obtain ⟨⟨category, _⟩, hentry, rfl⟩ := List.mem_map.1 hattrs
    obtain ⟨v, hv⟩ := Option.isSome_iff_exists.1 hname
    have hcategory := Dictionary.get?_eq_some_iff.2 hentry
    exact ⟨(category, key), ⟨n, hn, v, Option.bind_eq_some_iff.2 ⟨_, hcategory, hv⟩⟩, rfl⟩
  · rintro ⟨⟨category, _⟩, ⟨n, hn, v, hfind⟩, rfl⟩
    obtain ⟨attrs, hattrs, hv⟩ := Option.bind_eq_some_iff.1 hfind
    have hentry := Dictionary.get?_eq_some_iff.1 hattrs
    exact ⟨n, hn, attrs, List.mem_map.2 ⟨_, hentry, rfl⟩, Option.isSome_iff_exists.2 ⟨v, hv⟩⟩

/-- **A key means an attribute that is carried just when one that is carried is found by it.** -/
theorem carriesKey_iff : d.carriesKey key = true ↔ ∃ a, d.Carries a ∧ FoundBy key a := by
  simp only [carriesKey, Bool.or_eq_true, carriesName_iff, FoundBy, and_or_left, exists_or]
  rw [or_comm]
  refine or_congr_left ⟨fun h => ?_, ?_⟩
  · split at h
    next category c name hspan =>
      obtain ⟨hcategory, hkey⟩ := span_eq_append hspan
      refine ⟨(.ofList category, .ofList name), carries_iff.1 h, ?_, String.toList_injective ?_⟩
      · rwa [String.toList_ofList]
      · rw [toList_dimensionKey, String.toList_ofList, String.toList_ofList, hkey]
    next => cases h
  · rintro ⟨a, ha, hcategory, rfl⟩
    rw [toList_dimensionKey, span_at_first hcategory]
    dsimp only
    rw [String.ofList_toList, String.ofList_toList]
    exact carries_iff.2 ha

/-- **Mismatches are exact for what can be found by its key.**  Of every document, the constraints
come first and then the enabled details, both in their order.  An enabled detail is listed just when
no node carries the attribute.  The key of a constraint is listed just when no attribute that a node
carries is found by it.  So it is listed just when no attribute that a node carries goes by it, if
and only if there is no such attribute or one of them is found by it; in particular the key of an
attribute that is carried is never listed if the category has no separator. -/
theorem mismatches_exact (d : PaneDocument) :
    ∃ (keys : List String) (details : List (String × String)),
      d.mismatches = keys ++ details.map (fun a => dimensionKey a.1 a.2) ∧
      keys.Sublist d.brush.constraints.keys ∧ details.Sublist d.view.details.enabled ∧
      (∀ a ∈ d.view.details.enabled, a ∈ details ↔ ¬d.Carries a) ∧
      (∀ key ∈ d.brush.constraints.keys,
        (key ∈ keys ↔ ∀ a, d.Carries a → ¬FoundBy key a) ∧
        ((key ∈ keys ↔ ∀ a, d.Carries a → ¬GoesBy key a) ↔
          ((∃ a, d.Carries a ∧ GoesBy key a) → ∃ a, d.Carries a ∧ FoundBy key a))) ∧
      ∀ a, d.Carries a → '/' ∉ a.1.toList → dimensionKey a.1 a.2 ∉ keys := by
  let keys := d.brush.constraints.keys.filter fun key => !d.carriesKey key
  have hlisted : ∀ {key}, key ∈ keys ↔
      key ∈ d.brush.constraints.keys ∧ ∀ a, d.Carries a → ¬FoundBy key a := by
    intro key
    simp [keys, ← Bool.not_eq_true, carriesKey_iff]
  refine ⟨keys, d.view.details.enabled.filter fun a => !d.carries a.1 a.2, rfl,
    List.filter_sublist, List.filter_sublist, fun a ha => ?_, fun key hkey => ?_, ?_⟩
  · simp [ha, ← Bool.not_eq_true, carries_iff]
  · have hexact : key ∈ keys ↔ ∀ a, d.Carries a → ¬FoundBy key a := by
      rw [hlisted, and_iff_right hkey]
    refine ⟨hexact, ?_⟩
    rw [hexact]
    constructor
    · rintro h ⟨a, ha, hgoes⟩
      by_contra hnone
      exact h.1 (fun a ha hfound => hnone ⟨a, ha, hfound⟩) a ha hgoes
    · intro h
      refine ⟨fun hnone a ha hgoes => ?_, fun hnone a ha hfound => hnone a ha hfound.goesBy⟩
      obtain ⟨a', ha', hfound⟩ := h ⟨a, ha, hgoes⟩
      exact hnone a' ha' hfound
  · intro a ha hcategory hmem
    exact (hlisted.1 hmem).2 a ha (.inl ⟨hcategory, rfl⟩)

/-- The attribute `c` of the category `a/b` is carried, and its key is listed. -/
theorem mismatches_list_carried :
    let n : Node :=
      { id := ⟨"x"⟩, kind := .state, attributes := .ofList [("a/b", .ofList [("c", .number 1)])] }
    let d : PaneDocument :=
      { version := 1, pane := ⟨"pane-0"⟩, nodes := [n], edges := []
        brush := { constraints := .ofList [(dimensionKey "a/b" "c", .between 0 2)] } }
    d.Carries ("a/b", "c") ∧ d.mismatches = [dimensionKey "a/b" "c"] := by
  intro n d
  exact ⟨⟨n, List.mem_cons_self, .number 1, rfl⟩, by decide +kernel⟩

end PaneDocument

end StateAtlas
