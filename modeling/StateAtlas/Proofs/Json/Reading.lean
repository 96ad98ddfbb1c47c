import StateAtlas.Json.Reader
import StateAtlas.Proofs.Except
import StateAtlas.Proofs.Json.Scanning
/-!
Tokens read as values.

The tokens of a value that is nested no deeper than values can be are read as that value, wherever a
value can stand.  And whatever is read is nested no deeper and has only numbers that can stand in JSON
text: a list or record too far inside is read as a piece without a value.

Main statements: `ofBytes?_compact`, `ofBytes?_pretty` and `within_of_ofBytes?`.
-/

namespace StateAtlas.Json

open Reader

/-! ## Reading what was written -/

/-- Tokens read where a value can stand, or the first value of a list, complete a value there. -/
def Delivers (tokens : List Token) (frames : List Frame) (j : Json) : Prop :=
  ∀ more expect, expect = .value ∨ expect = .firstItem →
    (tokens ++ more).foldlM step? ⟨frames, expect⟩ = more.foldlM step? (complete frames j)

section

variable {frames : List Frame} {j : Json} {ts more : List Token} {r : Reader} {t : Token}

theorem foldlM_cons_of_step? {r' : Reader} (h : step? r t = some r') :
    (t :: more).foldlM step? r = more.foldlM step? r' := by
  rw [List.foldlM_cons, h]
  rfl

theorem delivers_single (h : value? frames t = some (complete frames j)) (ht : t ≠ .closeList) :
    Delivers [t] frames j := by
  rintro more expect (rfl | rfl)
  · exact foldlM_cons_of_step? h
  · refine foldlM_cons_of_step? (Eq.trans ?_ h)
    unfold step?
    split <;> simp_all

theorem close_eq (h : frames.length < maxDepth) (j : Json) : close frames j = complete frames j := by
  rw [close, if_pos h]

theorem Delivers.value (h : Delivers ts frames j) (more : List Token) :
    (ts ++ more).foldlM step? ⟨frames, .value⟩ = more.foldlM step? (complete frames j) :=
  h more .value (.inl rfl)

end

/-! ### Lists -/

/-- The further values of a list, each behind a comma. -/
theorem foldlM_items {items done : List Json} {outer : List Frame} {more : List Token}
    (h : ∀ j ∈ items, ∀ done, Delivers (tokens j) (.list done :: outer) j) :
    ((items.flatMap fun j => .comma :: tokens j) ++ more).foldlM step?
        ⟨.list done :: outer, .separator⟩ =
      more.foldlM step? ⟨.list (items.reverse ++ done) :: outer, .separator⟩ := by
  induction items generalizing done with
  | nil => rfl
  | cons j items ih =>
    have hcomma : step? ⟨.list done :: outer, .separator⟩ .comma =
        some ⟨.list done :: outer, .value⟩ := rfl
    rw [List.flatMap_cons, List.cons_append, List.cons_append, foldlM_cons_of_step? hcomma,
      List.append_assoc, (h j List.mem_cons_self done).value]
    exact (ih fun j hj => h j (List.mem_cons_of_mem _ hj)).trans (by simp)

theorem intercalate_comma {α : Type} (f : α → List Token) (a : α) (rest : List α) :
    [Token.comma].intercalate ((a :: rest).map f) = f a ++ rest.flatMap fun b => .comma :: f b := by
  induction rest generalizing a with
  | nil => simp
  | cons b rest ih =>
    rw [List.map_cons, List.map_cons, List.intercalate_cons_cons, ← List.map_cons, ih]
    simp

theorem delivers_list {items : List Json} {frames : List Frame} (hdepth : frames.length < maxDepth)
    (h : ∀ j ∈ items, ∀ done, Delivers (tokens j) (.list done :: frames) j) :
    Delivers (tokens (.list items)) frames (.list items) := by
  intro more expect hexpect
  have hopen : step? ⟨frames, expect⟩ .openList = some ⟨.list [] :: frames, .firstItem⟩ := by
    rcases hexpect with rfl | rfl
    · rfl
    · unfold step?
      split <;> simp_all [Reader.value?]
  rw [tokens, tokensOfEach_eq, List.append_assoc, List.append_assoc, List.singleton_append,
    List.singleton_append, foldlM_cons_of_step? hopen]
  cases items with
  | nil =>
    have hclose : step? ⟨.list [] :: frames, .firstItem⟩ .closeList =
        some (complete frames (.list [])) := congrArg some (close_eq hdepth _)
    exact foldlM_cons_of_step? hclose
  | cons j items =>
    have hclose : step? ⟨.list (items.reverse ++ [j]) :: frames, .separator⟩ .closeList =
        some (complete frames (.list (j :: items))) := by
      have hdone : (items.reverse ++ [j]).reverse = j :: items := by simp
      exact hdone ▸ congrArg some (close_eq hdepth _)
    rw [intercalate_comma, List.append_assoc,
      h j List.mem_cons_self [] _ .firstItem (.inr rfl)]
    exact (foldlM_items fun j hj => h j (List.mem_cons_of_mem _ hj)).trans
      (foldlM_cons_of_step? hclose)

/-! ### Records -/

/-- The fields of a record as the reader keeps them, last first. -/
def doneFields (fields : List (String × Json)) : List (Option String × Json) :=
  (fields.map fun f => (some f.1, f.2)).reverse

theorem recordOf_doneFields (fields : List (String × Json)) :
    recordOf (doneFields fields) = .record fields := by
  have hkeys : (fields.map fun f => (some f.1, f.2)).mapM
      (fun (e : Option String × Json) => e.1.map fun k => (k, e.2)) = some fields :=
    mapM_map_eq_some fun _ _ => rfl
  unfold recordOf doneFields
  rw [List.reverse_reverse, hkeys]

/-- The key of a field, its value and the colon between them. -/
theorem foldlM_field {f : String × Json} {done : List (Option String × Json)}
    {key : Option String} {outer : List Frame} {expect : Expect} {more : List Token}
    (hexpect : expect = .key ∨ expect = .firstKey)
    (h : Delivers (tokens f.2) (.record done (some f.1) :: outer) f.2) :
    (([Token.text (some f.1), .colon] ++ tokens f.2) ++ more).foldlM step?
        ⟨.record done key :: outer, expect⟩ =
      more.foldlM step? ⟨.record ((some f.1, f.2) :: done) none :: outer, .separator⟩ := by
  have hkey : step? ⟨.record done key :: outer, expect⟩ (.text (some f.1)) =
      some ⟨.record done (some f.1) :: outer, .colon⟩ := by
    rcases hexpect with rfl | rfl <;> rfl
  have hcolon : step? ⟨.record done (some f.1) :: outer, .colon⟩ .colon =
      some ⟨.record done (some f.1) :: outer, .value⟩ := rfl
  rw [List.append_assoc, List.cons_append, foldlM_cons_of_step? hkey, List.singleton_append,
    foldlM_cons_of_step? hcolon, h.value]
  rfl

/-- The further fields of a record, each behind a comma. -/
theorem foldlM_fields {fields : List (String × Json)} {done : List (Option String × Json)}
    {outer : List Frame} {more : List Token}
    (h : ∀ f ∈ fields, ∀ done key, Delivers (tokens f.2) (.record done key :: outer) f.2) :
    ((fields.flatMap fun f => .comma :: ([Token.text (some f.1), .colon] ++ tokens f.2)) ++ more).foldlM
        step? ⟨.record done none :: outer, .separator⟩ =
      more.foldlM step? ⟨.record (doneFields fields ++ done) none :: outer, .separator⟩ := by
  induction fields generalizing done with
  | nil => rfl
  | cons f fields ih =>
    have hcomma : step? ⟨.record done none :: outer, .separator⟩ .comma =
        some ⟨.record done none :: outer, .key⟩ := rfl
    rw [List.flatMap_cons, List.cons_append, List.cons_append, foldlM_cons_of_step? hcomma,
      List.append_assoc _ _ more, foldlM_field (.inl rfl) (h f List.mem_cons_self done _)]
    exact (ih fun f hf => h f (List.mem_cons_of_mem _ hf)).trans (by simp [doneFields])

theorem delivers_record {fields : List (String × Json)} {frames : List Frame}
    (hdepth : frames.length < maxDepth)
    (h : ∀ f ∈ fields, ∀ done key, Delivers (tokens f.2) (.record done key :: frames) f.2) :
    Delivers (tokens (.record fields)) frames (.record fields) := by
  intro more expect hexpect
  have hopen : step? ⟨frames, expect⟩ .openRecord =
      some ⟨.record [] none :: frames, .firstKey⟩ := by
    rcases hexpect with rfl | rfl
    · rfl
    · unfold step?
      split <;> simp_all [Reader.value?]
  rw [tokens, tokensOfFields_eq, List.append_assoc, List.append_assoc, List.singleton_append,
    List.singleton_append, foldlM_cons_of_step? hopen]
  cases fields with
  | nil =>
    have hclose : step? ⟨.record [] none :: frames, .firstKey⟩ .closeRecord =
        some (complete frames (.record [])) := congrArg some (close_eq hdepth _)
    exact foldlM_cons_of_step? hclose
  | cons f fields =>
    have hdone : recordOf (doneFields fields ++ [(some f.1, f.2)]) = .record (f :: fields) := by
      rw [← recordOf_doneFields]
      simp [doneFields]
    have hclose : step? ⟨.record (doneFields fields ++ [(some f.1, f.2)]) none :: frames,
        .separator⟩ .closeRecord = some (complete frames (.record (f :: fields))) :=
      hdone ▸ congrArg some (close_eq hdepth _)
    rw [intercalate_comma, List.append_assoc,
      foldlM_field (.inr rfl) (h f List.mem_cons_self [] _)]
    exact (foldlM_fields fun f hf => h f (List.mem_cons_of_mem _ hf)).trans
      (foldlM_cons_of_step? hclose)

/-! ### Values -/

/-- **The tokens of a value are read as the value, unless it is nested too deeply.** -/
theorem delivers_tokens {j : Json} {frames : List Frame} (hreadable : j.isReadable = true)
    (hdepth : frames.length + j.height ≤ maxDepth) : Delivers (tokens j) frames j := by
  induction j using parts_induction generalizing frames with
  | null => exact delivers_single rfl nofun
  | bool b => exact delivers_single rfl nofun
  | number n => exact delivers_single rfl nofun
  | text s => exact delivers_single rfl nofun
  | unreadable => nomatch hreadable
  | list items ih =>
    rw [height] at hdepth
    have hitems := heightEach_le_iff.1 (Nat.le_refl (heightEach items))
    refine delivers_list (by omega) fun j hj done => ?_
    have hj' := hitems j hj
    exact ih j hj (allReadable_iff.1 hreadable j hj) (by rw [List.length_cons]; omega)
  | record fields ih =>
    rw [height] at hdepth
    have hfields := heightFields_le_iff.1 (Nat.le_refl (heightFields fields))
    refine delivers_record (by omega) fun f hf done key => ?_
    have hf' := hfields f hf
    exact ih f hf (allFieldsReadable_iff.1 hreadable f hf) (by rw [List.length_cons]; omega)

theorem ofTokens?_tokens {j : Json} (h : Legible maxDepth j) : ofTokens? (tokens j) = some j := by
  have hdepth : ([] : List Frame).length + j.height ≤ maxDepth :=
    (Nat.zero_add j.height).symm ▸ h.within.height_le
  have hread := (delivers_tokens h.isReadable hdepth).value []
  rw [List.append_nil] at hread
  rw [ofTokens?, Reader.start, hread]
  rfl

/-- A legible value is read as it is written on one line, if its numbers are. -/
theorem ofBytes?_compact {j : Json} (h : Legible maxDepth j)
    (hnumbers : ∀ n ∈ j.numbers, n.Rereads) : ofBytes? j.compact.toUTF8.toList = some j := by
  rw [ofBytes?, scan?_compact hnumbers, Option.bind_some, ofTokens?_tokens h]

/-- **A legible value is read as it is written**, if its numbers are. -/
theorem ofBytes?_pretty {j : Json} (h : Legible maxDepth j) (hnumbers : ∀ n ∈ j.numbers, n.Rereads) :
    ofBytes? j.pretty.toUTF8.toList = some j := by
  rw [ofBytes?, scan?_pretty hnumbers, Option.bind_some, ofTokens?_tokens h]

/-! ## What is read -/

/-- Whether the number that a token may be can stand in JSON text. -/
def Token.Sound : Token → Prop
  | .number (some n) => n.Sound
  | _ => True

theorem sound_of_wordToken? {done : List Char} {t : Token} (h : wordToken? done = some t) :
    t.Sound := by
  unfold wordToken? at h
  dsimp only at h
  split at h
  · exact Option.some.inj h ▸ trivial
  · exact Option.some.inj h ▸ trivial
  · exact Option.some.inj h ▸ trivial
  · obtain ⟨n, hn, rfl⟩ := Option.map_eq_some_iff.1 h
    match n with
    | some n => exact sound_of_numberOfWord? hn
    | none => trivial

theorem sound_of_scanBlank? {b : UInt8} {s : Scan} {t : Token}
    (h : scanBlank? b = some (s, some t)) : t.Sound := by
  unfold scanBlank? at h
  split at h
  all_goals try split at h
  all_goals simp only [Option.some.injEq, Prod.mk.injEq, reduceCtorEq, and_false] at h
  all_goals exact h.2 ▸ trivial

theorem sound_of_scanByte? {s s' : Scan} {b : UInt8} {ts : List Token}
    (h : scanByte? s b = some (s', ts)) : ∀ t ∈ ts, t.Sound := by
  have hblank : ∀ {s' : Scan} {next : Option Token}, scanBlank? b = some (s', next) →
      ∀ t ∈ next.toList, t.Sound := by
    intro s' next hnext t ht
    obtain rfl := Option.mem_toList.1 ht
    exact sound_of_scanBlank? hnext
  -- Within a text only the closing quote makes a token; outside of it a byte ends a word, stands
  -- for itself or is blank.
  cases s with
  | blank =>
    obtain ⟨⟨s'', next⟩, hnext, heq⟩ := Option.map_eq_some_iff.1 h
    obtain ⟨-, rfl⟩ := Prod.mk.inj heq
    exact hblank hnext
  | word done =>
    rw [scanByte?] at h
    split at h
    · obtain ⟨-, rfl⟩ := Prod.mk.inj (Option.some.inj h)
      exact List.forall_mem_nil _
    · obtain ⟨token, htoken, h⟩ := Option.bind_eq_some_iff.1 h
      obtain ⟨⟨s'', next⟩, hnext, h⟩ := Option.bind_eq_some_iff.1 h
      obtain ⟨-, rfl⟩ := Prod.mk.inj (Option.some.inj h)
      exact List.forall_mem_cons.2 ⟨sound_of_wordToken? htoken, hblank hnext⟩
  | quoted done =>
    rw [scanByte?] at h
    split at h
    · obtain ⟨-, rfl⟩ := Prod.mk.inj (Option.some.inj h)
      exact List.forall_mem_singleton.2 trivial
    split at h
    · obtain ⟨-, rfl⟩ := Prod.mk.inj (Option.some.inj h)
      exact List.forall_mem_nil _
    split at h
    · cases h
    · obtain ⟨-, rfl⟩ := Prod.mk.inj (Option.some.inj h)
      exact List.forall_mem_nil _
  | escaped done =>
    rw [scanByte?] at h
    split at h
    · obtain ⟨-, rfl⟩ := Prod.mk.inj (Option.some.inj h)
      exact List.forall_mem_nil _
    · obtain ⟨_, -, heq⟩ := Option.map_eq_some_iff.1 h
      obtain ⟨-, rfl⟩ := Prod.mk.inj heq
      exact List.forall_mem_nil _
  | hex done digits value =>
    obtain ⟨_, -, heq⟩ := Option.map_eq_some_iff.1 h
    obtain ⟨-, rfl⟩ := Prod.mk.inj heq
    exact List.forall_mem_nil _

theorem sound_of_scanFrom? {s : Scan} {found ts : List Token} {bs : List UInt8}
    (h : scanFrom? s found bs = some ts) (hfound : ∀ t ∈ found, t.Sound) : ∀ t ∈ ts, t.Sound := by
  induction bs generalizing s found with
  | nil =>
    cases s with
    | blank =>
      obtain rfl := Option.some.inj h
      exact fun t ht => hfound t (List.mem_reverse.1 ht)
    | word done =>
      obtain ⟨t, ht, rfl⟩ := Option.map_eq_some_iff.1 h
      exact fun t' ht' => List.forall_mem_cons.2 ⟨sound_of_wordToken? ht, hfound⟩ t'
        (List.mem_reverse.1 ht')
    | _ => cases h
  | cons b bs ih =>
    rw [scanFrom?] at h
    split at h
    next s' tokens hstep =>
      refine ih h fun t ht => ?_
      rcases List.mem_append.1 ht with ht | ht
      · exact sound_of_scanByte? hstep t (List.mem_reverse.1 ht)
      · exact hfound t ht
    next => cases h

/-- The values that an open list or record holds so far. -/
def Frame.values : Frame → List Json
  | .list done => done
  | .record done _ => done.map Prod.snd

/-- Whether all values in open lists and records are nested no deeper than there is room. -/
def FramesWithin : List Frame → Prop
  | [] => True
  | f :: outer => (∀ j ∈ f.values, Within (maxDepth - (outer.length + 1)) j) ∧ FramesWithin outer

namespace Reader

/-- Whether all values that the reader holds are nested no deeper than there is room. -/
structure Bounded (r : Reader) : Prop where
  frames : FramesWithin r.frames
  value : ∀ j, r.expect = .nothing j → Within maxDepth j

theorem bounded_complete {frames : List Frame} {j : Json} (h : FramesWithin frames)
    (hj : Within (maxDepth - frames.length) j) : (complete frames j).Bounded := by
  match frames, h with
  | [], _ =>
    refine ⟨trivial, fun j' hj' => ?_⟩
    obtain rfl := Expect.nothing.inj hj'
    exact hj
  | .list done :: outer, h => exact ⟨⟨List.forall_mem_cons.2 ⟨hj, h.1⟩, h.2⟩, nofun⟩
  | .record done key :: outer, h => exact ⟨⟨List.forall_mem_cons.2 ⟨hj, h.1⟩, h.2⟩, nofun⟩

/-- What is closed is within the depth if that leaves room around it. -/
theorem bounded_close {outer : List Frame} {j : Json} (h : FramesWithin outer)
    (hj : outer.length < maxDepth → Within (maxDepth - (outer.length + 1) + 1) j) :
    (close outer j).Bounded := by
  refine bounded_complete h ?_
  split
  next hlt => exact (hj hlt).mono (by omega)
  next => exact .unreadable

theorem within_recordOf {done : List (Option String × Json)} {depth : Nat}
    (h : ∀ j ∈ done.map Prod.snd, Within depth j) : Within (depth + 1) (recordOf done) := by
  unfold recordOf
  split
  next fields hfields =>
    refine Within.record_iff.2 fun f hf => ?_
    obtain ⟨e, he, heq⟩ := mapM_eq_some hfields f hf
    obtain ⟨k, -, rfl⟩ := Option.map_eq_some_iff.1 heq
    exact h e.2 (List.mem_map_of_mem (List.mem_reverse.1 he))
  next => exact .unreadable

theorem bounded_value? {frames : List Frame} {t : Token} {r : Reader} (h : FramesWithin frames)
    (ht : t.Sound) (hr : value? frames t = some r) : r.Bounded := by
  cases t with
  | openList => exact Option.some.inj hr ▸ ⟨⟨nofun, h⟩, nofun⟩
  | openRecord => exact Option.some.inj hr ▸ ⟨⟨nofun, h⟩, nofun⟩
  | null => exact Option.some.inj hr ▸ bounded_complete h .null
  | bool b => exact Option.some.inj hr ▸ bounded_complete h (.bool b)
  | number n =>
    refine Option.some.inj hr ▸ bounded_complete h ?_
    cases n with
    | some n => exact .number ht
    | none => exact .unreadable
  | text s =>
    refine Option.some.inj hr ▸ bounded_complete h ?_
    cases s with
    | some s => exact .text s
    | none => exact .unreadable
  | _ => nomatch hr

theorem bounded_step? {r r' : Reader} {t : Token} (h : r.Bounded) (ht : t.Sound)
    (hr : step? r t = some r') : r'.Bounded := by
  obtain ⟨frames, expect⟩ := r
  have hframes : FramesWithin frames := h.frames
  unfold step? at hr
  dsimp only at hr
  split at hr
  · exact Option.some.inj hr ▸ bounded_close hframes.2 fun _ => Within.list_iff.2 nofun
  · exact bounded_value? hframes ht hr
  · exact bounded_value? hframes ht hr
  · exact Option.some.inj hr ▸ bounded_close hframes.2 fun _ => Within.record_iff.2 nofun
  · exact Option.some.inj hr ▸ ⟨hframes, nofun⟩
  · exact Option.some.inj hr ▸ ⟨hframes, nofun⟩
  · exact Option.some.inj hr ▸ ⟨hframes, nofun⟩
  · exact Option.some.inj hr ▸ bounded_close hframes.2 fun _ =>
      Within.list_iff.2 fun j hj => hframes.1 j (List.mem_reverse.1 hj)
  · exact Option.some.inj hr ▸ ⟨hframes, nofun⟩
  · exact Option.some.inj hr ▸ bounded_close hframes.2 fun _ => within_recordOf hframes.1
  · exact Option.some.inj hr ▸ ⟨hframes, nofun⟩
  · nomatch hr

theorem bounded_foldlM {r r' : Reader} {ts : List Token} (h : r.Bounded) (hts : ∀ t ∈ ts, t.Sound)
    (hr : ts.foldlM step? r = some r') : r'.Bounded := by
  induction ts generalizing r with
  | nil => exact Option.some.inj hr ▸ h
  | cons t ts ih =>
    obtain ⟨r'', hstep, hr⟩ := Option.bind_eq_some_iff.1 ((List.foldlM_cons ..).symm.trans hr)
    exact ih (bounded_step? h (hts t List.mem_cons_self) hstep)
      (fun t ht => hts t (List.mem_cons_of_mem _ ht)) hr

end Reader

/-- **What is read is nested no deeper than values can be**, and its numbers can stand in text. -/
theorem within_of_ofBytes? {bs : List UInt8} {j : Json} (h : ofBytes? bs = some j) :
    Within maxDepth j := by
  obtain ⟨ts, hscan, hread⟩ := Option.bind_eq_some_iff.1 h
  have hsound : ∀ t ∈ ts, t.Sound := sound_of_scanFrom? hscan nofun
  have hstart : Reader.start.Bounded := ⟨trivial, nofun⟩
  unfold ofTokens? at hread
  split at hread
  next j' hfold =>
    obtain rfl := Option.some.inj hread
    exact (bounded_foldlM hstart hsound hfold).value _ rfl
  next => nomatch hread

end StateAtlas.Json
