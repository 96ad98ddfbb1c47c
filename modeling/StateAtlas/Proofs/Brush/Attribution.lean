import StateAtlas.Proofs.Brush.Growth
/-!
Which readings stand on which dimension.

An attribute is shown if it is enabled and some node on display has a reading of it.  It should have a
dimension of its own, on which each row holds what its node has of the attribute.  But rows and
dimensions know an attribute by its key only, `category/name`, and both parts are texts of the
backend's choice.  Where two attributes that are shown have one key, only the first gets a dimension,
and a row holds on it whichever of the two comes last.

Main statement: `shows_each_iff`.
-/

namespace StateAtlas

/-- What a node has of an attribute, whether that is enabled or not. -/
def Node.reading? (n : Node) (category name : String) : Option (Reading Float) :=
  (n.attributes.find? category name).bind Reading.ofValue?

namespace Store

variable {s : Store} {mode : DisplayMode} {details : DetailSelection} {a : String × String}

/-- An attribute, by category and name, is shown: it is enabled, and a node that the mode admits has a
reading of it. -/
def Shows (s : Store) (mode : DisplayMode) (details : DetailSelection) (a : String × String) : Prop :=
  details.isEnabled a.1 a.2 = true ∧
    ∃ n ∈ s.nodes, mode.admits n.kind = true ∧ ∃ r, n.reading? a.1 a.2 = some r

/-- Attributes that are shown under one key are one attribute. -/
def KeysApart (s : Store) (mode : DisplayMode) (details : DetailSelection) : Prop :=
  ∀ a a', s.Shows mode details a → s.Shows mode details a' →
    dimensionKey a.1 a.2 = dimensionKey a'.1 a'.2 → a = a'

/-- What is shown are the attributes that the profiles of the admitted nodes have readings of. -/
theorem shows_iff : s.Shows mode details a ↔
    ∃ n ∈ s.nodes, mode.admits n.kind = true ∧ ∃ r, (a.1, a.2, r) ∈ (n.profile details).readings := by
  simp only [Node.mem_readings_iff]
  constructor
  · rintro ⟨henabled, n, hn, hadmits, r, hr⟩
    exact ⟨n, hn, hadmits, r, henabled, hr⟩
  · rintro ⟨n, hn, hadmits, r, henabled, hr⟩
    exact ⟨henabled, n, hn, hadmits, r, hr⟩

/-- What tells the attributes of a store apart does so for each node on display. -/
theorem KeysApart.node (h : s.KeysApart mode details) {n : Node} (hn : n ∈ s.nodes)
    (hadmits : mode.admits n.kind = true) (key : String) : n.KeyApart details key := by
  intro x hx y hy hkey hkey'
  have hshown : ∀ z ∈ (n.profile details).readings, s.Shows mode details (z.1, z.2.1) :=
    fun z hz => shows_iff.2 ⟨n, hn, hadmits, z.2.2, hz⟩
  exact Prod.mk.inj (h _ _ (hshown x hx) (hshown y hy) (hkey.trans hkey'.symm))

end Store

namespace Brush

variable {b : Brush Float} {s : Store} {mode : DisplayMode} {details : DetailSelection}
  {schema : Schema} {a : String × String}

/-- Each attribute that is shown has a dimension of its own and its own values: there is a row for each
admitted node and a dimension for each attribute that is shown, each of them once, and on each
dimension a row holds what its node has of the attribute. -/
structure ShowsEach (b : Brush Float) (s : Store) (mode : DisplayMode) (details : DetailSelection) :
    Prop where
  rows_eq : b.rows.map Row.id = (s.nodes.filter fun n => mode.admits n.kind).map Node.id
  nodup_attributes : b.attributes.Nodup
  mem_attributes_iff : ∀ a, a ∈ b.attributes ↔ s.Shows mode details a
  reading_eq : ∀ d ∈ b.dimensions, ∀ r ∈ b.rows, ∀ n ∈ s.nodes, n.id = r.id →
    r.values.get? d.key = n.reading? d.category d.name

/-- Only what is shown has a dimension. -/
theorem shows_of_mem_attributes (h : a ∈ (b.projectStore s mode details schema).attributes) :
    s.Shows mode details a := by
  rw [attributes_projectStore] at h
  obtain ⟨p, hp, r, hr⟩ := exists_reading_of_mem_declaredBy h
  obtain ⟨n, hn, hadmits, rfl⟩ := mem_profiles_iff.1 hp
  exact Store.shows_iff.2 ⟨n, hn, hadmits, r, hr⟩

/-- Whatever is shown, there is a dimension of its key. -/
theorem exists_mem_attributes (b : Brush Float) (schema : Schema) (h : s.Shows mode details a) :
    ∃ a' ∈ (b.projectStore s mode details schema).attributes,
      dimensionKey a'.1 a'.2 = dimensionKey a.1 a.2 := by
  obtain ⟨n, hn, hadmits, r, hr⟩ := Store.shows_iff.1 h
  rw [attributes_projectStore]
  exact exists_mem_declaredBy (mem_profiles_iff.2 ⟨n, hn, hadmits, rfl⟩) hr

/-- Under the key of an attribute that is shown, a row holds what its node has of it, if keys tell
attributes apart. -/
theorem get?_row_eq_reading? (h : s.KeysApart mode details) (ha : s.Shows mode details a) {n : Node}
    (hn : n ∈ s.nodes) (hadmits : mode.admits n.kind = true) :
    (Row.ofProfile (n.profile details)).values.get? (dimensionKey a.1 a.2) =
      n.reading? a.1 a.2 := by
  ext r
  rw [(h.node hn hadmits _).get?_row_eq_some_iff]
  constructor
  · rintro ⟨category, name, hkey, hr⟩
    have hshown : s.Shows mode details (category, name) :=
      Store.shows_iff.2 ⟨n, hn, hadmits, r, hr⟩
    obtain rfl : a = (category, name) := h a _ ha hshown hkey
    exact (Node.mem_readings_iff.1 hr).2
  · exact fun hr => ⟨a.1, a.2, rfl, Node.mem_readings_iff.2 ⟨ha.1, hr⟩⟩

/-- **Each attribute that is shown has a dimension of its own and its own values just when keys tell
the attributes apart that are shown.** -/
theorem shows_each_iff (b : Brush Float) (s : Store) (mode : DisplayMode)
    (details : DetailSelection) (schema : Schema) :
    (b.projectStore s mode details schema).ShowsEach s mode details ↔ s.KeysApart mode details := by
  constructor
  · -- Both have a dimension, and whatever the attributes are, dimensions have distinct keys.
    intro h a a' ha ha' hkey
    exact List.inj_on_of_nodup_map (b.nodup_keys_project _ _)
      ((h.mem_attributes_iff a).2 ha) ((h.mem_attributes_iff a').2 ha') hkey
  · intro h
    constructor
    case rows_eq => rw [rows_projectStore, Store.map_id_rows]
    case nodup_attributes => exact (b.nodup_keys_project _ _).of_map keyOf
    case mem_attributes_iff =>
      refine fun a => ⟨shows_of_mem_attributes, fun ha => ?_⟩
      -- The dimension of its key might be that of another attribute.
      obtain ⟨a', ha', hkey⟩ := b.exists_mem_attributes schema ha
      obtain rfl : a' = a := h a' a (shows_of_mem_attributes ha') ha hkey
      exact ha'
    case reading_eq =>
      intro d hd r hr n hn hid
      rw [rows_projectStore] at hr
      obtain ⟨m, hm, rfl⟩ := List.mem_map.1 hr
      obtain ⟨hmem, hadmits⟩ := List.mem_filter.1 hm
      obtain rfl : n = m := List.inj_on_of_nodup_map s.nodup_nodeIds hn hmem hid
      have hshown : s.Shows mode details (d.category, d.name) :=
        shows_of_mem_attributes (List.mem_map_of_mem hd)
      exact get?_row_eq_reading? h hshown hn hadmits

/-- The attributes `b/c` of the category `a` and `c` of the category `a/b` have one key.  Only the
first has a dimension, on which the row holds the value of the second. -/
theorem shows_one_of_two :
    let n : Node :=
      { id := ⟨"x"⟩, kind := .state
        attributes := .ofList
          [("a", .ofList [("b/c", .bool true)]), ("a/b", .ofList [("c", .bool false)])] }
    let s := Store.ofFragment ⟨[n], []⟩
    let b := (start ⟨"pane-0"⟩ {} 0).projectStore s .states {} {}
    s.Shows .states {} ("a", "b/c") ∧ s.Shows .states {} ("a/b", "c") ∧
      b.attributes = [("a", "b/c")] ∧
      (∀ r ∈ b.rows, (r.values.get? "a/b/c").map Reading.label = some "false") ∧
      ¬b.ShowsEach s .states {} := by
  intro n s b
  have hn : n ∈ s.nodes := List.mem_cons_self
  have hfirst : s.Shows .states {} ("a", "b/c") :=
    ⟨by decide +kernel, n, hn, rfl, .bool true, by rfl⟩
  have hsecond : s.Shows .states {} ("a/b", "c") :=
    ⟨by decide +kernel, n, hn, rfl, .bool false, by rfl⟩
  have hattributes : b.attributes = [("a", "b/c")] := by decide +kernel
  refine ⟨hfirst, hsecond, hattributes, by decide +kernel, fun h => ?_⟩
  have hmem := (h.mem_attributes_iff ("a/b", "c")).2 hsecond
  rw [hattributes] at hmem
  exact absurd hmem (by decide)

end Brush

end StateAtlas
