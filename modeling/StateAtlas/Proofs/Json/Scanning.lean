import StateAtlas.Proofs.Json.Quoting
import StateAtlas.Proofs.Json.Structure
/-!
Written values as tokens.

Blanks, punctuation and texts between quotation marks are tokens whatever follows.  A word goes on for
as long as letters, digits, signs and points follow, so it is only read as it was written if it is
followed by something else.  Wherever a value ends, a comma, a bracket, a new line or the end does.

Main statements: `scan?_compact` and `scan?_pretty`.
-/

namespace StateAtlas.Json

/-! ## Texts that are tokens -/

/-- Characters that the scanner takes for tokens, whatever follows. -/
def Scans (cs : List Char) (tokens : List Token) : Prop :=
  ∀ found rest, scanFrom? .blank found (encode cs ++ rest) =
    scanFrom? .blank (tokens.reverse ++ found) rest

/-- Whether bytes go on with something that does not belong to a word. -/
def EndsWord (rest : List UInt8) : Prop := ∀ b, rest.head? = some b → isWordByte b = false

/-- Characters that the scanner takes for tokens if no part of a word follows. -/
def ScansWord (cs : List Char) (tokens : List Token) : Prop :=
  ∀ found rest, EndsWord rest → scanFrom? .blank found (encode cs ++ rest) =
    scanFrom? .blank (tokens.reverse ++ found) rest

section

variable {cs ds : List Char} {ts us : List Token}

theorem Scans.scansWord (h : Scans cs ts) : ScansWord cs ts := fun found rest _ => h found rest

theorem Scans.nil : Scans [] [] := fun _ _ => rfl

theorem Scans.append (h : Scans cs ts) (h' : Scans ds us) : Scans (cs ++ ds) (ts ++ us) := by
  intro found rest
  rw [encode_append, List.append_assoc, h, h', List.reverse_append, List.append_assoc]

theorem Scans.append_word (h : Scans cs ts) (h' : ScansWord ds us) :
    ScansWord (cs ++ ds) (ts ++ us) := by
  intro found rest hrest
  rw [encode_append, List.append_assoc, h, h' _ _ hrest, List.reverse_append, List.append_assoc]

/-- What follows a word ends it. -/
theorem ScansWord.append (h : ScansWord cs ts) (h' : Scans ds us)
    (hends : ∀ rest, EndsWord (encode ds ++ rest)) : Scans (cs ++ ds) (ts ++ us) := by
  intro found rest
  rw [encode_append, List.append_assoc, h _ _ (hends rest), h', List.reverse_append,
    List.append_assoc]

/-- A character between tokens that is one token or none. -/
theorem scans_single {c : Char} {t : Option Token} (hc : c.toNat < 0x80)
    (h : scanBlank? (UInt8.ofNat c.toNat) = some (.blank, t)) : Scans [c] t.toList := by
  intro found rest
  rw [encode_cons, encode_nil, utf8EncodeChar_of_lt hc]
  refine scanFrom?_cons ?_ found rest
  rw [scanByte?, h]
  rfl

theorem scans_mark {c : Char} {t : Token} (hc : c.toNat < 0x80)
    (h : scanBlank? (UInt8.ofNat c.toNat) = some (.blank, some t)) : Scans [c] [t] :=
  scans_single hc h

theorem scans_blank {c : Char} (hc : c.toNat < 0x80)
    (h : scanBlank? (UInt8.ofNat c.toNat) = some (.blank, none)) : Scans [c] [] :=
  scans_single hc h

theorem scans_quote (s : String) : Scans (quote s).toList [.text (some s)] :=
  scanFrom?_quote s

end

/-! ## Words -/

theorem ofNat_toNat_ofNat {c : Char} (h : c.toNat < 0x80) :
    Char.ofNat (UInt8.ofNat c.toNat).toNat = c := by
  rw [UInt8.toNat_ofNat', Nat.mod_eq_of_lt (by omega), Char.ofNat_toNat]

theorem isWordByte_ofNat {c : Char} (h : isWordChar c = true) :
    isWordByte (UInt8.ofNat c.toNat) = true := by
  rw [isWordByte, ofNat_toNat_ofNat (toNat_lt_of_isWordChar h)]
  exact h

theorem scanBlank?_of_isWordChar {c : Char} (h : isWordChar c = true) :
    scanBlank? (UInt8.ofNat c.toNat) = some (.word [c], none) := by
  unfold scanBlank?
  rw [ofNat_toNat_ofNat (toNat_lt_of_isWordChar h), isWordByte_ofNat h]
  split
  all_goals first | rfl | nomatch h

theorem scanFrom?_word {cs : List Char} (h : ∀ c ∈ cs, isWordChar c = true) (done : List Char)
    (found : List Token) (rest : List UInt8) :
    scanFrom? (.word done) found (encode cs ++ rest) =
      scanFrom? (.word (cs.reverse ++ done)) found rest := by
  induction cs generalizing done with
  | nil => rfl
  | cons c cs ih =>
    have hc := h c List.mem_cons_self
    have hlt := toNat_lt_of_isWordChar hc
    have hstep : scanByte? (.word done) (UInt8.ofNat c.toNat) = some (.word (c :: done), []) := by
      rw [scanByte?, if_pos (isWordByte_ofNat hc), ofNat_toNat_ofNat hlt]
    rw [encode_cons, utf8EncodeChar_of_lt hlt, List.append_assoc, List.singleton_append,
      scanFrom?_cons hstep, List.reverse_nil, List.nil_append,
      ih fun c hc => h c (List.mem_cons_of_mem _ hc)]
    simp

theorem endsWord_cons {c : Char} (hc : c.toNat < 0x80)
    (h : isWordByte (UInt8.ofNat c.toNat) = false) (cs : List Char) (rest : List UInt8) :
    EndsWord (encode (c :: cs) ++ rest) := by
  rw [encode_cons, utf8EncodeChar_of_lt hc]
  rintro b hb
  obtain rfl : UInt8.ofNat c.toNat = b := Option.some.inj hb
  exact h

/-- What follows a word makes it a token. -/
theorem scanFrom?_endWord {done : List Char} {t : Token} {rest : List UInt8}
    (htoken : wordToken? done = some t) (hrest : EndsWord rest) (found : List Token) :
    scanFrom? (.word done) found rest = scanFrom? .blank (t :: found) rest := by
  cases rest with
  | nil => simp [scanFrom?, htoken]
  | cons b rest =>
    have hb : isWordByte b = false := hrest b rfl
    simp only [scanFrom?, scanByte?, hb, htoken]
    cases scanBlank? b with
    | none => rfl
    | some next => simp

theorem scansWord_of_wordToken? {word : List Char} {t : Token}
    (hword : ∀ c ∈ word, isWordChar c = true) (hne : word ≠ [])
    (htoken : wordToken? word.reverse = some t) : ScansWord word [t] := by
  intro found rest hrest
  obtain ⟨c, cs, rfl⟩ := List.exists_cons_of_ne_nil hne
  have hc := hword c List.mem_cons_self
  have hstart : scanByte? .blank (UInt8.ofNat c.toNat) = some (.word [c], []) := by
    rw [scanByte?, scanBlank?_of_isWordChar hc]
    rfl
  rw [encode_cons, utf8EncodeChar_of_lt (toNat_lt_of_isWordChar hc), List.append_assoc,
    List.singleton_append, scanFrom?_cons hstart, List.reverse_nil, List.nil_append,
    scanFrom?_word fun c hc => hword c (List.mem_cons_of_mem _ hc), ← List.reverse_cons]
  exact scanFrom?_endWord htoken hrest found

theorem scansWord_number {n : Number} (h : n.Rereads) :
    ScansWord n.toText.toList [.number (some n)] := by
  refine scansWord_of_wordToken? (isWordChar_of_numberOfWord? h) (ne_nil_of_numberOfWord? h) ?_
  have hword : String.ofList n.toText.toList.reverse.reverse = n.toText := by
    rw [List.reverse_reverse, String.ofList_toList]
  -- None of the other words is a number.
  unfold Number.Rereads at h
  unfold wordToken?
  dsimp only
  rw [hword, List.reverse_reverse]
  split
  next heq =>
    rw [heq] at h
    nomatch h
  next heq =>
    rw [heq] at h
    nomatch h
  next heq =>
    rw [heq] at h
    nomatch h
  next => rw [h]; rfl

/-! ## Values -/

mutual

/-- The tokens that a value is written as. -/
def tokens : Json → List Token
  | .null => [.null]
  | .bool b => [.bool b]
  | .number n => [.number (some n)]
  | .text s => [.text (some s)]
  | .list items => [.openList] ++ [Token.comma].intercalate (tokensOfEach items) ++ [.closeList]
  | .record fields =>
    [.openRecord] ++ [Token.comma].intercalate (tokensOfFields fields) ++ [.closeRecord]
  | .unreadable => [.null]

def tokensOfEach : List Json → List (List Token)
  | [] => []
  | j :: rest => tokens j :: tokensOfEach rest

def tokensOfFields : List (String × Json) → List (List Token)
  | [] => []
  | (key, j) :: rest => ([.text (some key), .colon] ++ tokens j) :: tokensOfFields rest

end

theorem tokensOfEach_eq (items : List Json) : tokensOfEach items = items.map tokens := by
  induction items with
  | nil => rfl
  | cons j items ih => rw [tokensOfEach, ih, List.map_cons]

theorem tokensOfFields_eq (fields : List (String × Json)) : tokensOfFields fields =
    fields.map fun f => [.text (some f.1), .colon] ++ tokens f.2 := by
  induction fields with
  | nil => rfl
  | cons f fields ih => rw [tokensOfFields, ih, List.map_cons]

theorem compactEach_eq (items : List Json) : compactEach items = items.map compact := by
  induction items with
  | nil => rfl
  | cons j items ih => rw [compactEach, ih, List.map_cons]

theorem compactFields_eq (fields : List (String × Json)) :
    compactFields fields = fields.map fun f => quote f.1 ++ ":" ++ compact f.2 := by
  induction fields with
  | nil => rfl
  | cons f fields ih => rw [compactFields, ih, List.map_cons]

theorem prettyEach_eq (level : Nat) (items : List Json) :
    prettyEach level items = items.map (prettyAt level) := by
  induction items with
  | nil => rfl
  | cons j items ih => rw [prettyEach, ih, List.map_cons]

theorem prettyFields_eq (level : Nat) (fields : List (String × Json)) :
    prettyFields level fields = fields.map fun f => quote f.1 ++ ": " ++ prettyAt level f.2 := by
  induction fields with
  | nil => rfl
  | cons f fields ih => rw [prettyFields, ih, List.map_cons]

/-- The blanks at the head of a line. -/
def newLine (level : Nat) : List Char := ("\n".pushn ' ' (2 * level)).toList

theorem newLine_eq (level : Nat) : newLine level = '\n' :: List.replicate (2 * level) ' ' := by
  rw [newLine, String.pushn]
  generalize 2 * level = n
  induction n with
  | zero => rfl
  | succ n ih => rw [Nat.repeat, String.toList_push, ih, List.replicate_succ']; rfl

theorem scans_newLine (level : Nat) : Scans (newLine level) [] := by
  have hblank : Scans [' '] [] := scans_blank (by decide) rfl
  have hblanks : ∀ n, Scans (List.replicate n ' ') [] := by
    intro n
    induction n with
    | zero => exact .nil
    | succ n ih => exact hblank.append ih
  have hbreak : Scans ['\n'] [] := scans_blank (by decide) rfl
  rw [newLine_eq]
  exact hbreak.append (hblanks _)

section

variable {α : Type} {items : List α} {f : α → String} {g : α → List Token}

/-- Written parts with something that is read as a comma between them. -/
theorem scansWord_intercalate (h : ∀ a ∈ items, ScansWord (f a).toList (g a)) {sep : List Char}
    (hsep : Scans sep [.comma]) (hends : ∀ rest, EndsWord (encode sep ++ rest)) :
    ScansWord (sep.intercalate (items.map fun a => (f a).toList))
      ([Token.comma].intercalate (items.map g)) := by
  induction items with
  | nil => exact Scans.nil.scansWord
  | cons a items ih =>
    have ha := h a List.mem_cons_self
    have hrest := ih fun a ha => h a (List.mem_cons_of_mem _ ha)
    cases items with
    | nil => simpa using ha
    | cons a' items =>
      simp only [List.map_cons, List.intercalate_cons_cons] at hrest ⊢
      exact (ha.append hsep hends).append_word hrest

/-- Written parts between two brackets. -/
theorem scans_block {opening closing : String} {o c : Token} (ho : Scans opening.toList [o])
    (hc : Scans closing.toList [c]) (h : ∀ a ∈ items, ScansWord (f a).toList (g a)) (level : Nat) :
    Scans (block opening closing level (items.map f)).toList
      ([o] ++ [Token.comma].intercalate (items.map g) ++ [c]) := by
  unfold block
  split
  next hempty =>
    obtain rfl : items = [] := by simpa using hempty
    rw [String.toList_append]
    exact ho.append hc
  next =>
    have hcomma : Scans (',' :: newLine (level + 1)) [.comma] :=
      (scans_mark (c := ',') (by decide) rfl).append (scans_newLine (level + 1))
    have hparts := scansWord_intercalate h hcomma (endsWord_cons (c := ',') (by decide) rfl _)
    have hclose : Scans (newLine level ++ closing.toList) [c] := (scans_newLine level).append hc
    have hends : ∀ rest, EndsWord (encode (newLine level ++ closing.toList) ++ rest) :=
      newLine_eq level ▸ endsWord_cons (c := '\n') (by decide) rfl _
    have hinner := hparts.append hclose hends
    have hopen : Scans (opening.toList ++ newLine (level + 1)) [o] :=
      ho.append (scans_newLine (level + 1))
    have hall := hopen.append hinner
    simpa [String.toList_intercalate, newLine, Function.comp_def] using hall

end

/-! ### Brackets -/

theorem scans_openList : Scans "[".toList [.openList] := scans_mark (c := '[') (by decide) rfl

theorem scans_closeList : Scans "]".toList [.closeList] := scans_mark (c := ']') (by decide) rfl

theorem scans_openRecord : Scans "\x7b".toList [.openRecord] :=
  scans_mark (c := '\x7b') (by decide) rfl

theorem scans_closeRecord : Scans "\x7d".toList [.closeRecord] :=
  scans_mark (c := '\x7d') (by decide) rfl

theorem scans_colon : Scans ":".toList [.colon] := scans_mark (c := ':') (by decide) rfl

/-! ### Whole values -/

/-- **A value written on one line is read as its tokens.** -/
theorem scansWord_compact {j : Json} (h : ∀ n ∈ j.numbers, n.Rereads) :
    ScansWord (compact j).toList (tokens j) := by
  have hnull : ScansWord "null".toList [.null] :=
    scansWord_of_wordToken? (List.all_eq_true.1 (by decide)) (by decide) rfl
  have htrue : ScansWord "true".toList [.bool true] :=
    scansWord_of_wordToken? (List.all_eq_true.1 (by decide)) (by decide) rfl
  have hfalse : ScansWord "false".toList [.bool false] :=
    scansWord_of_wordToken? (List.all_eq_true.1 (by decide)) (by decide) rfl
  have hcomma : Scans [','] [.comma] := scans_mark (by decide) rfl
  -- The comma behind a part ends the word that the part ends with.
  have hends : ∀ rest, EndsWord (encode [','] ++ rest) := endsWord_cons (by decide) rfl []
  induction j using parts_induction with
  | null => exact hnull
  | bool b =>
    cases b with
    | true => exact htrue
    | false => exact hfalse
  | number n => exact scansWord_number (h n List.mem_cons_self)
  | text s => exact (scans_quote s).scansWord
  | unreadable => exact hnull
  | list items ih =>
    have hparts := scansWord_intercalate
      (fun j hj => ih j hj (forall_numbers_list.1 h j hj)) hcomma hends
    have hinner := hparts.append scans_closeList (endsWord_cons (c := ']') (by decide) rfl [])
    have hall := scans_openList.append hinner
    rw [compact, tokens, compactEach_eq, tokensOfEach_eq]
    simpa [String.toList_intercalate, Function.comp_def] using hall.scansWord
  | record fields ih =>
    have hfield : ∀ f ∈ fields, ScansWord (quote f.1 ++ ":" ++ compact f.2).toList
        ([.text (some f.1), .colon] ++ tokens f.2) := by
      intro f hf
      have hvalue := ih f hf (forall_numbers_record.1 h f hf)
      simpa using ((scans_quote f.1).append scans_colon).append_word hvalue
    have hparts := scansWord_intercalate hfield hcomma hends
    have hinner := hparts.append scans_closeRecord (endsWord_cons (c := '\x7d') (by decide) rfl [])
    have hall := scans_openRecord.append hinner
    rw [compact, tokens, compactFields_eq, tokensOfFields_eq]
    simpa [String.toList_intercalate, Function.comp_def] using hall.scansWord

/-- **A value written over several lines is read as its tokens.** -/
theorem scansWord_prettyAt {j : Json} (h : ∀ n ∈ j.numbers, n.Rereads) (level : Nat) :
    ScansWord (prettyAt level j).toList (tokens j) := by
  induction j using parts_induction generalizing level with
  | list items ih =>
    rw [prettyAt, tokens, prettyEach_eq, tokensOfEach_eq]
    refine (scans_block scans_openList scans_closeList (fun j hj => ?_) level).scansWord
    exact ih j hj (forall_numbers_list.1 h j hj) (level + 1)
  | record fields ih =>
    have hcolon : Scans [':', ' '] [.colon] :=
      scans_colon.append (scans_blank (c := ' ') (by decide) rfl)
    rw [prettyAt, tokens, prettyFields_eq, tokensOfFields_eq]
    refine (scans_block scans_openRecord scans_closeRecord (fun f hf => ?_) level).scansWord
    have hfield := ((scans_quote f.1).append hcolon).append_word
      (ih f hf (forall_numbers_record.1 h f hf) (level + 1))
    simpa using hfield
  | _ => exact scansWord_compact h

theorem scan?_of_scansWord {s : String} {ts : List Token} (h : ScansWord s.toList ts) :
    Token.scan? s.toUTF8.toList = some ts := by
  have hscan := h [] [] nofun
  rw [List.append_nil, List.append_nil] at hscan
  rw [toList_toUTF8, Token.scan?, hscan, scanFrom?, List.reverse_reverse]

theorem scan?_compact {j : Json} (h : ∀ n ∈ j.numbers, n.Rereads) :
    Token.scan? j.compact.toUTF8.toList = some (tokens j) :=
  scan?_of_scansWord (scansWord_compact h)

theorem scan?_pretty {j : Json} (h : ∀ n ∈ j.numbers, n.Rereads) :
    Token.scan? j.pretty.toUTF8.toList = some (tokens j) :=
  scan?_of_scansWord (scansWord_prettyAt h 0)

end StateAtlas.Json
