import StateAtlas.Proofs.Brush.Axes
import StateAtlas.Proofs.Brush.Truth
import StateAtlas.Proofs.Decimal.Division
/-!
What is drawn between two pixels, and what a brush admits there.

Rows are drawn on a point axis by their labels.  Brushing an interval of pixels selects the points
that lie in it.  On a nominal axis these become a set of labels, which admits just the rows drawn
there.  On a boolean axis they become the number of a truth value, which admits rows by their
numbers; both go together as long as the readings are plain.

Pixels are compared before they are divided by the length of the axis and positions afterwards,
which is the same as division keeps the order of doubles.

Main statement: `admits_drawn`.
-/

namespace StateAtlas

open AxisNumber Reading

/-! ## Positions -/

section

variable {α : Type} [AxisNumber α]

/-- Whether a position lies between two others, given in any order. -/
def liesBetween (a b x : α) : Bool :=
  let (p, q) := if le a b then (a, b) else (b, a)
  le p x && le x q

theorem liesBetween_of_le {a b : α} (h : le a b = true) (x : α) :
    liesBetween a b x = (le a x && le x b) := by
  rw [liesBetween, if_pos h]

theorem liesBetween_of_not_le {a b : α} (h : le a b = false) (x : α) :
    liesBetween a b x = (le b x && le x a) := by
  rw [liesBetween, if_neg (h ▸ Bool.false_ne_true)]

/-- The points of a scale that lie between two positions. -/
def pointsBetween (values : List String) (a b : α) : List String :=
  (values.zipIdx.filter fun (_, i) => liesBetween a b (Scale.pointAt i values.length)).map Prod.fst

theorem Scale.invert_point (values : List String) (a b : α) :
    (Scale.point values).invert a b = .values (pointsBetween values a b) := rfl

/-- The points that lie between two positions are those that stand between them. -/
theorem mem_pointsBetween_iff {values : List String} (hnodup : values.Nodup) {a b : α}
    {label : String} : label ∈ pointsBetween values a b ↔
      ∃ x, (Scale.point values).pointPosition? label = some x ∧ liesBetween a b x = true := by
  have hindex {i : Nat} : (label, i) ∈ values.zipIdx ↔ values.idxOf? label = some i := by
    rw [List.mem_zipIdx_iff_getElem?, List.getElem?_eq_some_iff, List.idxOf?_eq_some_iff]
    refine exists_congr fun hi => ⟨fun heq => ⟨heq, fun j hj hat => ?_⟩, And.left⟩
    -- Points are distinct, so a label stands at its first position only.
    have hsame : j = i := hnodup.getElem_inj_iff.1 (hat.trans heq.symm)
    omega
  simp only [pointsBetween, List.mem_map, List.mem_filter, Prod.exists, exists_and_right,
    exists_eq_right, hindex, Scale.pointPosition?, Option.map_eq_some_iff]
  constructor
  · rintro ⟨i, hi, hlies⟩
    exact ⟨_, ⟨i, hi, rfl⟩, hlies⟩
  · rintro ⟨_, ⟨i, hi, rfl⟩, hlies⟩
    exact ⟨i, hi, hlies⟩

end

section

variable {p q l x : Float}

theorem isLength_one : Brush.IsLength (ofNat 1 : Float) := by
  unfold Brush.IsLength
  decide +kernel

/-- Between two quotients there is something only if numbers were divided. -/
theorem isNaN_of_liesBetween (h : liesBetween (p / l) (q / l) x = true) :
    p.isNaN = false ∧ q.isNaN = false := by
  cases hle : le (p / l) (q / l) with
  | true =>
    have hnumbers := isNaN_of_le hle
    exact ⟨Decimal.isNaN_of_div hnumbers.1, Decimal.isNaN_of_div hnumbers.2⟩
  | false =>
    rw [liesBetween_of_not_le hle, Bool.and_eq_true] at h
    exact ⟨Decimal.isNaN_of_div (isNaN_of_le h.2).2, Decimal.isNaN_of_div (isNaN_of_le h.1).1⟩

/-- **What lies between two pixels, divided by a length, lies between the quotients.** -/
theorem liesBetween_div_iff (hp : p.isNaN = false) (hq : q.isNaN = false)
    (hne : equal p q = false) (hl : Brush.IsLength l) :
    liesBetween (p / l) (q / l) x = true ↔
      le (least p q / l) x = true ∧ le x (greatest p q / l) = true := by
  obtain ⟨hfinite, hpositive⟩ := Bool.and_eq_true_iff.1 hl
  obtain ⟨hle, hnot⟩ := Bool.and_eq_true_iff.1 hpositive
  rw [Bool.not_eq_true'] at hnot
  have hmono {p q : Float} (h : le p q = true) : le (p / l) (q / l) = true :=
    decide_eq_true (Decimal.float_div_le_div (of_decide_eq_true h) (of_decide_eq_true hle)
      (of_decide_eq_false hnot) hfinite)
  have hself : le p p = true := (le_or_le_of_isNaN hp hp).elim id id
  rw [← Bool.and_eq_true]
  cases hpq : le p q with
  | true =>
    have hqp : le q p = false := by simpa [equal, hpq] using hne
    have hleast : least p q = p := by simp [least, lt, hself, hqp]
    have hgreatest : greatest p q = q := by simp [greatest, lt, hself, hpq, hqp]
    rw [hleast, hgreatest, liesBetween_of_le (hmono hpq)]
  | false =>
    have hqp : le q p = true := (le_or_le_of_isNaN hp hq).resolve_left (hpq ▸ Bool.false_ne_true)
    have hleast : least p q = q := by simp [least, lt, hself, hpq, hqp]
    have hgreatest : greatest p q = p := by simp [greatest, lt, hself, hpq]
    rw [hleast, hgreatest]
    have hge : le (q / l) (p / l) = true := hmono hqp
    cases hquotient : le (p / l) (q / l) with
    | false => rw [liesBetween_of_not_le hquotient]
    | true =>
      -- Distinct pixels may fall together once they are divided.
      rw [liesBetween_of_le hquotient, Bool.and_eq_true, Bool.and_eq_true]
      exact ⟨fun h => ⟨le_trans_float hge h.1, le_trans_float h.2 hge⟩,
        fun h => ⟨le_trans_float hquotient h.1, le_trans_float h.2 hquotient⟩⟩

end

namespace Brush

variable {b : Brush Float} {d : Dimension Float} {r : Row Float} {p q : Float}

/-- Whether a row is drawn between two pixels of an axis. -/
def DrawnBetween (b : Brush Float) (d : Dimension Float) (r : Row Float) (p q : Float) : Prop :=
  ∃ v x, r.values.get? d.key = some v ∧ d.scale.position? v = some x ∧
    le (least p q / b.axisLength) x = true ∧ le x (greatest p q / b.axisLength) = true

/-- Whether a constraint on a dimension admits just the rows that are drawn between two pixels. -/
def AdmitsDrawn (b : Brush Float) (d : Dimension Float) (c : Constraint Float) (p q : Float) :
    Prop :=
  ∀ r ∈ b.rows, (r.values.get? d.key).any c.admits = true ↔ b.DrawnBetween d r p q

/-- A constraint admits what is drawn if it admits the readings whose labels lie between. -/
theorem admitsDrawn_iff (hb : b.LaidOut) {values : List String} (hscale : d.scale = .point values)
    (hnodup : values.Nodup) (hp : p.isNaN = false) (hq : q.isNaN = false)
    (hne : equal p q = false) {c : Constraint Float} :
    b.AdmitsDrawn d c p q ↔ ∀ v ∈ b.readings d.key, c.admits v = true ↔
      v.label ∈ pointsBetween values (p / b.axisLength) (q / b.axisLength) := by
  have hlength : IsLength b.axisLength := hb.axisLength.elim (fun h => h ▸ isLength_one) id
  have hdrawn (v : Reading Float) :
      v.label ∈ pointsBetween values (p / b.axisLength) (q / b.axisLength) ↔
        ∃ x, d.scale.position? v = some x ∧ le (least p q / b.axisLength) x = true ∧
          le x (greatest p q / b.axisLength) = true := by
    rw [mem_pointsBetween_iff hnodup, hscale]
    exact exists_congr fun x => and_congr_right' (liesBetween_div_iff hp hq hne hlength)
  simp only [AdmitsDrawn, DrawnBetween, mem_readings_iff, hdrawn, forall_exists_index, and_imp]
  constructor
  · intro h v r hr hv
    have hrow := h r hr
    simpa [hv] using hrow
  · intro h r hr
    cases hv : r.values.get? d.key with
    | none => simp
    | some v => simpa [hv] using h v r hr hv

/-- What is stored when a nominal dimension is brushed admits what is drawn. -/
theorem admitsDrawn_nominal (hb : b.LaidOut) {name : String} (hname : b.dimension? name = some d)
    (hkind : d.kind = .nominal) (hne : equal p q = false) {c : Constraint Float}
    (hc : (b.brushPixels name p q).constraint? name = some c) : b.AdmitsDrawn d c p q := by
  have hd : d ∈ b.dimensions := mem_of_dimension? hname
  have hscale := hb.scale_nominal hd hkind
  let covered := pointsBetween (b.labels d.key) (p / b.axisLength) (q / b.axisLength)
  have hasked : constraintBetween? d (p / b.axisLength) (q / b.axisLength) =
      some (.oneOf covered) := by
    rw [constraintBetween?, hscale, hkind, Scale.invert_point]
  rw [constraint?_brushPixels hname hne, hasked, Option.bind_some, Constraint.oneOf] at hc
  have hadmits (v : Reading Float) : c.admits v = true ↔ v.label ∈ covered := by
    rw [normalize?_categories_eq_some hc]
    exact OrderedSet.contains_ofList covered v.label
  -- A set without labels is not stored, so some point lies between the two pixels.
  have hcovered : covered ≠ [] := by
    intro hnil
    rw [hnil] at hc
    cases hc
  obtain ⟨label, hlabel⟩ := List.exists_mem_of_ne_nil covered hcovered
  obtain ⟨x, -, hx⟩ := (mem_pointsBetween_iff (nodup_eraseDups _)).1 hlabel
  obtain ⟨hp, hq⟩ := isNaN_of_liesBetween hx
  rw [admitsDrawn_iff hb hscale (nodup_eraseDups _) hp hq hne]
  exact fun v _ => hadmits v

/-- The truth values that stand between two positions. -/
def truthsBetween (x y : Float) : List Bool :=
  [false, true].filter fun t => liesBetween x y (Scale.pointAt (if t then 1 else 0) 2)

theorem pointsBetween_truths (x y : Float) :
    pointsBetween ["false", "true"] x y = (truthsBetween x y).map truthLabel := by
  rw [pointsBetween, zipIdx_truthLabels, List.filter_map, List.map_map]
  rfl

theorem truthsBetween_cases (x y : Float) : truthsBetween x y = [] ∨
    (∃ t, truthsBetween x y = [t]) ∨ truthsBetween x y = [false, true] := by
  simp only [truthsBetween, List.filter]
  split <;> split <;> simp

/-- The range of the truth values that are brushed; a single one is pinned. -/
def truthRange? (ts : List Bool) : Option (Constraint Float) :=
  match least? (ts.map truthNumber), greatest? (ts.map truthNumber) with
  | some lo, some hi => some (.range lo hi (equal lo hi))
  | _, _ => none

theorem truthRange?_one (t : Bool) :
    truthRange? [t] = some (.range (truthNumber t) (truthNumber t) true) := by
  simp [truthRange?, least?, greatest?]

theorem truthRange?_both :
    truthRange? [false, true] = some (.range (truthNumber false) (truthNumber true) false) := by
  simp [truthRange?, least?, greatest?, least, greatest, lt]

/-- The range of both truth values is not stored. -/
theorem normalize?_both (hb : b.LaidOut) (hd : d ∈ b.dimensions) (hkind : d.kind = .boolean) :
    b.normalize? d.key (.range (truthNumber false) (truthNumber true) false) = none := by
  have hdimension := hb.dimension?_key hd
  have hscale : d.scale = .point ["false", "true"] := hb.scale_boolean hd hkind
  obtain ⟨name, category, kind, scale⟩ := d
  obtain rfl : kind = .boolean := hkind
  obtain rfl : scale = .point ["false", "true"] := hscale
  have hfinite (t : Bool) : isFinite (truthNumber t) = true := by
    revert t
    decide +kernel
  rw [normalize?, hdimension]
  simp [hfinite, least, greatest, lt, show (ofNat 0 : Float) = truthNumber false from rfl,
    show (ofNat 1 : Float) = truthNumber true from rfl]

/-- What is asked for on a boolean dimension is the range of the truth values between. -/
theorem constraintBetween?_boolean (hscale : d.scale = .point ["false", "true"])
    (hkind : d.kind = .boolean) (x y : Float) :
    constraintBetween? d x y = truthRange? (truthsBetween x y) := by
  have hnumbers : ((truthsBetween x y).map truthLabel).map (fun label =>
      (ofNat (if label = "true" then 1 else 0) : Float)) = (truthsBetween x y).map truthNumber := by
    rw [List.map_map]
    exact List.map_congr_left fun t _ => by cases t <;> rfl
  rw [constraintBetween?, hscale, hkind, Scale.invert_point, pointsBetween_truths, truthRange?]
  dsimp only
  rw [hnumbers]
  generalize (truthsBetween x y).map truthNumber = numbers
  cases least? numbers <;> cases greatest? numbers <;> rfl

/-- What is stored when a boolean dimension is brushed is the one truth value drawn there. -/
theorem exists_truth_of_brushPixels (hb : b.LaidOut) {name : String}
    (hname : b.dimension? name = some d) (hkind : d.kind = .boolean) (hne : equal p q = false)
    {c : Constraint Float} (hc : (b.brushPixels name p q).constraint? name = some c) :
    ∃ t, c = .range (truthNumber t) (truthNumber t) true ∧
      pointsBetween ["false", "true"] (p / b.axisLength) (q / b.axisLength) = [truthLabel t] := by
  have hd : d ∈ b.dimensions := mem_of_dimension? hname
  rw [constraint?_brushPixels hname hne,
    constraintBetween?_boolean (hb.scale_boolean hd hkind) hkind] at hc
  rw [pointsBetween_truths]
  rcases truthsBetween_cases (p / b.axisLength) (q / b.axisLength) with hnone | ⟨t, hone⟩ | hboth
  · rw [hnone] at hc
    cases hc
  · rw [hone, truthRange?_one, Option.bind_some] at hc
    refine ⟨t, ?_, by rw [hone]; rfl⟩
    simpa [least, greatest] using (normalize?_range_eq_some hc).1
  · rw [hboth, truthRange?_both, Option.bind_some, normalize?_both hb hd hkind] at hc
    cases hc

/-- **On point axes what is drawn in the brushed interval is what is admitted, as long as readings
are plain.**  Whatever was asked of a brush, whatever the length of its axes: let two distinct
pixels of a dimension be brushed and a constraint be stored.  If the dimension is nominal, the
constraint admits just the rows that are drawn between the pixels.  If it is boolean, one truth
value is drawn there, and the constraint is the range of its number.  This admits just the rows
drawn there if and only if every reading under the key is a truth value, or passes for the one that
was brushed neither as it is written nor as a number. -/
theorem admits_drawn (pane : PaneId) (state : BrushState Float) (window : Nat)
    (commands : List BrushCommand) :
    let b := (start pane state window).run commands
    ∀ name d, b.dimension? name = some d → ∀ p q, equal p q = false →
      ∀ c, (b.brushPixels name p q).constraint? name = some c →
        (d.kind = .nominal → b.AdmitsDrawn d c p q) ∧
        (d.kind = .boolean → ∃ t, c = .range (truthNumber t) (truthNumber t) true ∧
          (b.AdmitsDrawn d c p q ↔ ∀ v ∈ b.readings d.key, v.Plain t)) := by
  intro b name d hname p q hne c hc
  have hb : b.LaidOut := ((Reached.start pane state window).run commands).laidOut
  refine ⟨fun hkind => admitsDrawn_nominal hb hname hkind hne hc, fun hkind => ?_⟩
  -- Of the two points of a boolean axis just one lies in the brushed interval.
  obtain ⟨t, rfl, hpoints⟩ := exists_truth_of_brushPixels hb hname hkind hne hc
  refine ⟨t, rfl, ?_⟩
  have hscale : d.scale = .point ["false", "true"] :=
    hb.scale_boolean (mem_of_dimension? hname) hkind
  have hnodup : ["false", "true"].Nodup := by decide
  have hmem : truthLabel t ∈
      pointsBetween ["false", "true"] (p / b.axisLength) (q / b.axisLength) :=
    hpoints ▸ List.mem_singleton_self _
  obtain ⟨x, -, hx⟩ := (mem_pointsBetween_iff hnodup).1 hmem
  obtain ⟨hp, hq⟩ := isNaN_of_liesBetween hx
  calc b.AdmitsDrawn d (.range (truthNumber t) (truthNumber t) true) p q
    _ ↔ ∀ v ∈ b.readings d.key, v.countsAs t = true ↔ v.label ∈ [truthLabel t] := by
        rw [admitsDrawn_iff hb hscale hnodup hp hq hne, hpoints]
        rfl
    _ ↔ ∀ v ∈ b.readings d.key, v.Plain t := by
        refine forall₂_congr fun v _ => ?_
        rw [List.mem_singleton]
        exact iff_comm.trans (label_eq_iff_countsAs_iff t v)

/-- A boolean axis of texts: the row of the text `true` is drawn between the two pixels, and the
constraint that is stored does not admit it. -/
theorem admits_none_drawn :
    let n (id value : String) : Node :=
      { id := ⟨id⟩, kind := .state, attributes := .ofList [("v", .ofList [("on", .text value)])] }
    let schema : Schema := .ofList [("v", .ofList [("on", { type := some "boolean" })])]
    let b := (start ⟨"pane-0"⟩ {} 0).run
      [.project (.ofFragment ⟨[n "x" "true", n "y" "false"], []⟩) .states {} schema, .resize 300]
    ∃ d c, b.dimension? "on" = some d ∧ d.kind = .boolean ∧
      (b.brushPixels "on" 150 250).constraint? "on" = some c ∧
      (b.brushPixels "on" 150 250).selected = [] ∧ ¬b.AdmitsDrawn d c 150 250 := by
  intro n schema b
  have hmissed : ((b.dimension? "on").any fun d => d.kind = .boolean &&
      ((b.brushPixels "on" 150 250).constraint? "on").any fun c =>
        b.rows.any fun r => (r.values.get? d.key).any fun v => !c.admits v &&
          (d.scale.position? v).any fun x => le (least 150 250 / b.axisLength) x &&
            le x (greatest 150 250 / b.axisLength)) = true := by
    decide +kernel
  simp only [Option.any_eq_true, List.any_eq_true, Bool.and_eq_true, decide_eq_true_eq] at hmissed
  obtain ⟨d, hd, hkind, c, hc, r, hr, v, hv, hadmits, x, hx, hbetween⟩ := hmissed
  refine ⟨d, c, hd, hkind, hc, by decide +kernel, fun h => ?_⟩
  have hadmitted := (h r hr).2 ⟨v, x, hv, hx, hbetween⟩
  rw [hv, Option.any_some] at hadmitted
  rw [hadmitted] at hadmits
  cases hadmits

end Brush

end StateAtlas
