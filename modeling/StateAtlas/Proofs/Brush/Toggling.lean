import StateAtlas.Brush.Details
import StateAtlas.Proofs.Dictionary
/-!
Which attributes a change of the detail selection touches.

Whether an attribute is projected is told by its own flag, or else by the flag of its category, or
else, if the category was never configured, by its being no metadata.  Setting the flag of one
attribute configures its category, and the flag that a category begins with is off.  So the other
attributes of a category keep what they have if it was configured before, and all of them are off
afterwards if it was not.  Every later change finds the category configured.

Main statement: `toggles_one_attribute`.
-/

namespace StateAtlas

/-- A change of a detail selection. -/
inductive DetailEdit
  | setCategory (category : String) (on : Bool)
  | setAttribute (category name : String) (on : Bool)

/-- The category that a change is about. -/
def DetailEdit.category : DetailEdit → String
  | .setCategory c _ => c
  | .setAttribute c _ _ => c

namespace DetailSelection

variable {s : DetailSelection} {category name : String}

/-- The selection after a change. -/
def edit (s : DetailSelection) : DetailEdit → DetailSelection
  | .setCategory category on => s.setCategory category on
  | .setAttribute category name on => s.setAttribute category name on

/-- The selection after several changes. -/
def editAll (s : DetailSelection) (edits : List DetailEdit) : DetailSelection := edits.foldl edit s

/-! ## Configured categories -/

/-- Whether a category has flags. -/
def isConfigured (s : DetailSelection) (category : String) : Bool := s.categories.contains category

/-- A change configures its category, and no other one. -/
theorem isConfigured_edit (s : DetailSelection) (e : DetailEdit) (category : String) :
    (s.edit e).isConfigured category = true ↔
      s.isConfigured category = true ∨ e.category = category := by
  cases e <;> rw [or_comm] <;> exact Dictionary.contains_insert ..

/-- What was configured stays so, and only changes configure. -/
theorem isConfigured_editAll (s : DetailSelection) (edits : List DetailEdit) (category : String) :
    (s.editAll edits).isConfigured category = true ↔
      s.isConfigured category = true ∨ ∃ e ∈ edits, e.category = category := by
  induction edits generalizing s with
  | nil => simp [editAll]
  | cons e edits ih =>
    show ((s.edit e).editAll edits).isConfigured category = true ↔ _
    rw [ih, isConfigured_edit, or_assoc, List.exists_mem_cons_iff]

/-- What is not configured is projected, metadata excepted. -/
theorem isEnabled_of_not_configured (h : s.isConfigured category = false) (name : String) :
    s.isEnabled category name = decide (category ≠ Category.metadata) := by
  have hnone : s.categories.get? category = none :=
    Option.isNone_iff_eq_none.1 (Option.isSome_eq_false_iff.1 h)
  rw [isEnabled, hnone]

/-! ## Setting the flag of an attribute -/

/-- What is projected after the flag of an attribute was set. -/
theorem isEnabled_setAttribute (s : DetailSelection) (category name : String) (on : Bool)
    (category' name' : String) : (s.setAttribute category name on).isEnabled category' name' =
      if category' = category then
        if name' = name then on else s.isConfigured category && s.isEnabled category name'
      else s.isEnabled category' name' := by
  rw [isEnabled, setAttribute, Dictionary.get?_update]
  by_cases hcategory : category' = category
  · subst hcategory
    rw [if_pos rfl, if_pos rfl]
    dsimp only
    rw [Dictionary.get?_insert]
    by_cases hname : name' = name
    · rw [if_pos hname.symm, if_pos hname, Option.getD_some]
    · rw [if_neg (Ne.symm hname), if_neg hname, isConfigured, Dictionary.contains, isEnabled]
      -- A category that was not configured begins with its flag off.
      cases s.categories.get? category' with
      | none => rfl
      | some flags => rfl
  · rw [if_neg (Ne.symm hcategory), if_neg hcategory]
    rfl

/-- Another attribute of the same category is projected after the flag was set if the category was
configured and the attribute was projected before. -/
theorem isEnabled_setAttribute_sibling (s : DetailSelection) (category : String)
    {name name' : String} (hne : name' ≠ name) (on : Bool) :
    (s.setAttribute category name on).isEnabled category name' =
      (s.isConfigured category && s.isEnabled category name') := by
  rw [isEnabled_setAttribute, if_pos rfl, if_neg hne]

theorem isEnabled_setAttribute_elsewhere (s : DetailSelection) {category category' : String}
    (hne : category' ≠ category) (name : String) (on : Bool) (name' : String) :
    (s.setAttribute category name on).isEnabled category' name' = s.isEnabled category' name' := by
  rw [isEnabled_setAttribute, if_neg hne]

/-- Nothing but the attribute is touched just when its category was configured or is that of
metadata. -/
theorem keeps_others_iff (s : DetailSelection) (category name : String) (on : Bool) :
    (∀ category' name', (category', name') ≠ (category, name) →
      (s.setAttribute category name on).isEnabled category' name' =
        s.isEnabled category' name') ↔
      s.isConfigured category = true ∨ category = Category.metadata := by
  constructor
  · intro hframe
    by_contra hnot
    obtain ⟨hconfigured, hmetadata⟩ := not_or.1 hnot
    rw [Bool.not_eq_true] at hconfigured
    -- There is always another attribute, which was projected as nothing said otherwise.
    have hother : name.push 'x' ≠ name := fun heq => by
      simpa using congrArg String.length heq
    have hsame := hframe category (name.push 'x') fun heq => hother (Prod.mk.inj heq).2
    rw [s.isEnabled_setAttribute_sibling category hother, hconfigured,
      isEnabled_of_not_configured hconfigured, decide_eq_true hmetadata] at hsame
    cases hsame
  · intro hkept category' name' hne
    by_cases hcategory : category' = category
    · subst hcategory
      have hname : name' ≠ name := fun heq => hne (by rw [heq])
      rw [s.isEnabled_setAttribute_sibling category' hname]
      cases hconfigured : s.isConfigured category' with
      | true => rw [Bool.true_and]
      | false =>
        have hmetadata : category' = Category.metadata := hkept.resolve_left (by simp [hconfigured])
        rw [isEnabled_of_not_configured hconfigured, Bool.false_and]
        simp [hmetadata]
    · exact s.isEnabled_setAttribute_elsewhere hcategory name on name'

/-- **Setting the flag of an attribute touches the other attributes of its category just when it
configures the category.**  Whatever a selection was at the beginning and however it was changed:
after the flag of an attribute is set, the attribute is projected if the flag is on, and what is
projected of other categories is as it was.  Of its own category, the other attributes are as they
were if the category was configured, at the beginning or by some change, and all of them are off if
it was not.  So nothing but the attribute is touched if and only if its category was configured or
is that of metadata. -/
theorem toggles_one_attribute (start : DetailSelection) (edits : List DetailEdit)
    (category name : String) (on : Bool) :
    let s := start.editAll edits
    let s' := s.setAttribute category name on
    s'.isEnabled category name = on ∧
    (∀ category' name', category' ≠ category →
      s'.isEnabled category' name' = s.isEnabled category' name') ∧
    (∀ name', name' ≠ name →
      s'.isEnabled category name' = (s.isConfigured category && s.isEnabled category name')) ∧
    (s.isConfigured category = true ↔
      start.isConfigured category = true ∨ ∃ e ∈ edits, e.category = category) ∧
    ((∀ category' name', (category', name') ≠ (category, name) →
        s'.isEnabled category' name' = s.isEnabled category' name') ↔
      s.isConfigured category = true ∨ category = Category.metadata) := by
  intro s s'
  refine ⟨?_, ?_, ?_, start.isConfigured_editAll edits category,
    s.keeps_others_iff category name on⟩
  · rw [isEnabled_setAttribute, if_pos rfl, if_pos rfl]
  · intro category' name' hne
    exact s.isEnabled_setAttribute_elsewhere hne name on name'
  · intro name' hne
    exact s.isEnabled_setAttribute_sibling category hne on

/-- In a category that was never configured, one attribute is switched on and another one is no
longer projected. -/
theorem toggle_hides_sibling :
    let s : DetailSelection := {}
    s.isEnabled "Rewards" "steps" = true ∧
      (s.setAttribute "Rewards" "cost" true).isEnabled "Rewards" "steps" = false := by
  decide +kernel

end DetailSelection

end StateAtlas
