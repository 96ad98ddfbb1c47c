import Mathlib.Tactic.IntervalCases
import StateAtlas.Json.Printer
import StateAtlas.Json.Token
/-!
Texts between quotation marks, written and read again.

The scanner sees bytes.  The bytes of a character that is not one of the seven-bit ones are never
taken for a quotation mark, a backslash or a control, so such a character is read as it stands.  Any
other character has one byte, and where it is escaped the escape stands for that byte.

Main statement: `scanFrom?_quote`.
-/

namespace StateAtlas.Json

/-! ## Characters as bytes -/

/-- The bytes of characters. -/
def encode (cs : List Char) : List UInt8 := cs.flatMap String.utf8EncodeChar

@[simp] theorem encode_nil : encode [] = [] := rfl

@[simp] theorem encode_cons (c : Char) (cs : List Char) :
    encode (c :: cs) = String.utf8EncodeChar c ++ encode cs := rfl

@[simp] theorem encode_append (cs ds : List Char) : encode (cs ++ ds) = encode cs ++ encode ds :=
  List.flatMap_append

theorem toList_loop (bs : ByteArray) (i : Nat) (found : List UInt8) :
    ByteArray.toList.loop bs i found = found.reverse ++ bs.data.toList.drop i := by
  fun_induction ByteArray.toList.loop bs i found with
  | case1 i found hi ih =>
    have hlt : i < bs.data.toList.length := by simpa using hi
    have hget : bs.get! i = bs.data.toList[i] := getElem!_pos bs.data i hi
    rw [ih, List.drop_eq_getElem_cons hlt, hget]
    simp
  | case2 i found hi =>
    rw [List.drop_eq_nil_of_le (by simpa using Nat.le_of_not_lt hi), List.append_nil]

theorem toList_toUTF8 (s : String) : s.toUTF8.toList = encode s.toList := by
  rw [ByteArray.toList, toList_loop, String.toUTF8, ← String.utf8Encode_toList, List.utf8Encode]
  simp [encode]

theorem textOfBytes?_encode (s : String) : textOfBytes? (encode s.toList) = some s := by
  have hbytes : (⟨(encode s.toList).toArray⟩ : ByteArray) = s.toByteArray := by
    rw [← String.utf8Encode_toList, List.utf8Encode]
    apply ByteArray.ext
    simp [encode]
  rw [textOfBytes?, hbytes, String.fromUTF8?, dif_pos s.isValidUTF8]
  rfl

theorem utf8EncodeChar_of_lt {c : Char} (h : c.toNat < 0x80) :
    String.utf8EncodeChar c = [UInt8.ofNat c.toNat] :=
  if_pos (Nat.le_of_lt_succ h)

/-- The bytes of a character beyond the seven-bit ones are no bytes of seven-bit characters. -/
theorem le_of_mem_utf8EncodeChar {c : Char} (h : 0x80 ≤ c.toNat) {b : UInt8}
    (hb : b ∈ String.utf8EncodeChar c) : 0x80 ≤ b.toNat := by
  have hofNat : ∀ m, 0x80 ≤ m → m < 0x100 → b = UInt8.ofNat m → 0x80 ≤ b.toNat := by
    rintro m hle hlt rfl
    rwa [UInt8.toNat_ofNat', Nat.mod_eq_of_lt hlt]
  have hnot : ¬ c.val.toNat ≤ 127 := Nat.not_le_of_lt h
  simp only [String.utf8EncodeChar, if_neg hnot] at hb
  split at hb
  · simp only [List.mem_cons, List.not_mem_nil, or_false] at hb
    rcases hb with hb | hb <;> exact hofNat _ (by omega) (by omega) hb
  split at hb
  · simp only [List.mem_cons, List.not_mem_nil, or_false] at hb
    rcases hb with hb | hb | hb <;> exact hofNat _ (by omega) (by omega) hb
  · simp only [List.mem_cons, List.not_mem_nil, or_false] at hb
    rcases hb with hb | hb | hb | hb <;> exact hofNat _ (by omega) (by omega) hb

/-! ## Inside quotation marks -/

/-- What the scanner takes, inside quotation marks, for the given bytes of a text. -/
def Spells (written : List Char) (bs : List UInt8) : Prop :=
  ∃ pieces : List Piece,
    (∀ done found rest, scanFrom? (.quoted done) found (encode written ++ rest) =
      scanFrom? (.quoted (pieces.reverse ++ done)) found rest) ∧
    ∀ more, textBytes? (pieces ++ more) = (textBytes? more).map (bs ++ ·)

namespace Spells

variable {written written' : List Char} {bs bs' : List UInt8}

theorem nil : Spells [] [] := ⟨[], fun _ _ _ => rfl, fun more => by simp⟩

theorem append (h : Spells written bs) (h' : Spells written' bs') :
    Spells (written ++ written') (bs ++ bs') := by
  obtain ⟨pieces, hscan, htext⟩ := h
  obtain ⟨pieces', hscan', htext'⟩ := h'
  refine ⟨pieces ++ pieces', fun done found rest => ?_, fun more => ?_⟩
  · rw [encode_append, List.append_assoc, hscan, hscan', List.reverse_append, List.append_assoc]
  · rw [List.append_assoc, htext, htext', Option.map_map]
    exact congrArg (fun f => (textBytes? more).map f) (funext fun _ => (List.append_assoc ..).symm)

end Spells

theorem scanFrom?_cons {s s' : Scan} {b : UInt8} {tokens : List Token}
    (h : scanByte? s b = some (s', tokens)) (found : List Token) (rest : List UInt8) :
    scanFrom? s found (b :: rest) = scanFrom? s' (tokens.reverse ++ found) rest := by
  rw [scanFrom?, h]

/-- A byte that stands for itself inside quotation marks. -/
def IsPlain (b : UInt8) : Prop := b ≠ 0x22 ∧ b ≠ 0x5C ∧ ¬ b < 0x20

theorem isPlain_iff {b : UInt8} :
    IsPlain b ↔ b.toNat ≠ 0x22 ∧ b.toNat ≠ 0x5C ∧ 0x20 ≤ b.toNat := by
  rw [IsPlain, Ne, Ne, ← UInt8.toNat_inj, ← UInt8.toNat_inj, UInt8.lt_iff_toNat_lt, Nat.not_lt]
  rfl

theorem scanFrom?_plain {bs : List UInt8} (h : ∀ b ∈ bs, IsPlain b) (done : List Piece)
    (found : List Token) (rest : List UInt8) :
    scanFrom? (.quoted done) found (bs ++ rest) =
      scanFrom? (.quoted ((bs.map Piece.byte).reverse ++ done)) found rest := by
  induction bs generalizing done with
  | nil => rfl
  | cons b bs ih =>
    obtain ⟨hquote, hescape, hcontrol⟩ := h b List.mem_cons_self
    have hstep : scanByte? (.quoted done) b = some (.quoted (.byte b :: done), []) := by
      simp only [scanByte?, if_neg hquote, if_neg hescape, if_neg hcontrol]
    rw [List.cons_append, scanFrom?_cons hstep, List.reverse_nil, List.nil_append,
      ih fun b hb => h b (List.mem_cons_of_mem _ hb)]
    simp

theorem textBytes?_byte (bs : List UInt8) (more : List Piece) :
    textBytes? (bs.map Piece.byte ++ more) = (textBytes? more).map (bs ++ ·) := by
  induction bs with
  | nil => simp
  | cons b bs ih =>
    rw [List.map_cons, List.cons_append, textBytes?, ih, Option.map_map]
    rfl

theorem spells_plain {c : Char} (h : ∀ b ∈ String.utf8EncodeChar c, IsPlain b) :
    Spells [c] (String.utf8EncodeChar c) := by
  refine ⟨(String.utf8EncodeChar c).map .byte, fun done found rest => ?_, textBytes?_byte _⟩
  rw [encode_cons, encode_nil, List.append_nil]
  exact scanFrom?_plain h done found rest

theorem scanByte?_backslash (done : List Piece) :
    scanByte? (.quoted done) 0x5C = some (.escaped done, []) := rfl

/-- A character behind a backslash. -/
theorem spells_escaped {c : Char} {b b' : UInt8} (hc : String.utf8EncodeChar c = [b'])
    (hb : simpleEscape? b' = some b) (hu : b' ≠ 0x75) : Spells ['\\', c] [b] := by
  refine ⟨[.byte b], fun done found rest => ?_, textBytes?_byte [b]⟩
  have hescape : scanByte? (.escaped done) b' = some (.quoted (.byte b :: done), []) := by
    simp only [scanByte?, if_neg hu, hb]
    rfl
  rw [encode_cons, encode_cons, hc, encode_nil]
  exact (scanFrom?_cons (scanByte?_backslash done) ..).trans (scanFrom?_cons hescape ..)

/-! ## Escapes -/

theorem hexValue?_digitChar {d : Nat} (h : d < 16) :
    hexValue? (UInt8.ofNat (Nat.digitChar d).toNat) = some d := by
  interval_cases d <;> rfl

theorem toList_hexDigits {n : Nat} (h : n < 0x20) :
    (hexDigits n 4).toList = ['0', '0', Nat.digitChar (n / 16), Nat.digitChar (n % 16)] := by
  interval_cases n <;> rfl

theorem utf8EncodeChar_digitChar {d : Nat} (h : d < 16) :
    String.utf8EncodeChar (Nat.digitChar d) = [UInt8.ofNat (Nat.digitChar d).toNat] := by
  interval_cases d <;> rfl

theorem textBytes?_unit {n : Nat} (h : n < 0x20) (more : List Piece) :
    textBytes? (.unit n :: more) = (textBytes? more).map ([UInt8.ofNat n] ++ ·) := by
  have hbytes : (String.singleton (Char.ofNat n)).toUTF8.toList = [UInt8.ofNat n] := by
    rw [toList_toUTF8]
    interval_cases n <;> rfl
  rw [textBytes?.eq_def]
  dsimp only
  rw [if_neg (by omega), if_neg (by omega), hbytes]

/-- A character given by its code. -/
theorem spells_unit {n : Nat} (h : n < 0x20) :
    Spells ('\\' :: 'u' :: (hexDigits n 4).toList) [UInt8.ofNat n] := by
  refine ⟨[.unit n], fun done found rest => ?_, textBytes?_unit h⟩
  -- The first two of the four digits are zeros, the others are those of the code.
  have hhigh : n / 16 < 16 := by omega
  have hlow : n % 16 < 16 := by omega
  have hn : 16 * (n / 16) + n % 16 = n := by omega
  have hunit : scanByte? (.escaped done) 0x75 = some (.hex done 0 0, []) := rfl
  have hzero : ∀ digits, digits ≠ 3 →
      scanByte? (.hex done digits 0) 0x30 = some (.hex done (digits + 1) 0, []) := by
    intro digits hdigits
    simp [scanByte?, show hexValue? 0x30 = some 0 from rfl, hdigits]
  have hdigit : ∀ {d}, d < 16 → ∀ digits value,
      scanByte? (.hex done digits value) (UInt8.ofNat (Nat.digitChar d).toNat) =
        some (if digits = 3 then .quoted (.unit (16 * value + d) :: done)
          else .hex done (digits + 1) (16 * value + d), []) := by
    intro d hd digits value
    rw [scanByte?, hexValue?_digitChar hd]
    rfl
  have hthird : scanByte? (.hex done 2 0) (UInt8.ofNat (Nat.digitChar (n / 16)).toNat) =
      some (.hex done 3 (n / 16), []) := by
    rw [hdigit hhigh]
    simp
  have hlast : scanByte? (.hex done 3 (n / 16)) (UInt8.ofNat (Nat.digitChar (n % 16)).toNat) =
      some (.quoted (.unit n :: done), []) := by
    rw [hdigit hlow, if_pos rfl, hn]
  rw [toList_hexDigits h]
  simp only [encode_cons, encode_nil, utf8EncodeChar_digitChar hhigh,
    utf8EncodeChar_digitChar hlow]
  calc scanFrom? (.quoted done) found (0x5C :: 0x75 :: 0x30 :: 0x30 ::
        UInt8.ofNat (Nat.digitChar (n / 16)).toNat ::
          UInt8.ofNat (Nat.digitChar (n % 16)).toNat :: rest)
    _ = scanFrom? (.escaped done) found _ := scanFrom?_cons (scanByte?_backslash done) ..
    _ = scanFrom? (.hex done 0 0) found _ := scanFrom?_cons hunit ..
    _ = scanFrom? (.hex done 1 0) found _ := scanFrom?_cons (hzero 0 (by decide)) ..
    _ = scanFrom? (.hex done 2 0) found _ := scanFrom?_cons (hzero 1 (by decide)) ..
    _ = scanFrom? (.hex done 3 (n / 16)) found _ := scanFrom?_cons hthird ..
    _ = scanFrom? (.quoted (.unit n :: done)) found rest := scanFrom?_cons hlast ..

/-- **Every character is written such that it is read again.** -/
theorem spells_escape (c : Char) : Spells (escape c).toList (String.utf8EncodeChar c) := by
  unfold escape
  split
  · exact spells_escaped (c := '"') rfl rfl (by decide)
  · exact spells_escaped (c := '\\') rfl rfl (by decide)
  · exact spells_escaped (c := 'n') rfl rfl (by decide)
  · exact spells_escaped (c := 'r') rfl rfl (by decide)
  · exact spells_escaped (c := 't') rfl rfl (by decide)
  · exact spells_escaped (c := 'b') rfl rfl (by decide)
  · exact spells_escaped (c := 'f') rfl rfl (by decide)
  next hquote hbackslash _ _ _ _ _ =>
    split
    next hcontrol =>
      rw [utf8EncodeChar_of_lt (by omega), String.toList_append]
      exact spells_unit hcontrol
    next hshown =>
      have htext : c.toString.toList = [c] := by simp [Char.toString]
      rw [htext]
      refine spells_plain fun b hb => isPlain_iff.2 ?_
      by_cases hlt : c.toNat < 0x80
      · rw [utf8EncodeChar_of_lt hlt, List.mem_singleton] at hb
        rw [hb, UInt8.toNat_ofNat', Nat.mod_eq_of_lt (by omega)]
        exact ⟨fun h => hquote (Char.toNat_inj.1 h), fun h => hbackslash (Char.toNat_inj.1 h),
          Nat.le_of_not_lt hshown⟩
      · have hle := le_of_mem_utf8EncodeChar (Nat.le_of_not_lt hlt) hb
        omega

theorem spells_text (cs : List Char) :
    Spells (cs.flatMap fun c => (escape c).toList) (encode cs) := by
  induction cs with
  | nil => exact .nil
  | cons c cs ih => exact (spells_escape c).append ih

/-! ## Quoted texts -/

theorem toList_quote (s : String) :
    (quote s).toList = '"' :: (s.toList.flatMap (fun c => (escape c).toList) ++ ['"']) := by
  have hfold : ∀ (cs : List Char) (out : String),
      (cs.foldl (fun out c => out ++ escape c) out).toList =
        out.toList ++ cs.flatMap fun c => (escape c).toList := by
    intro cs
    induction cs with
    | nil => simp
    | cons c cs ih => simp [ih]
  rw [quote, String.toList_append, String.toList_append, hfold]
  rfl

/-- **A quoted text is read as the text.** -/
theorem scanFrom?_quote (s : String) (found : List Token) (rest : List UInt8) :
    scanFrom? .blank found (encode (quote s).toList ++ rest) =
      scanFrom? .blank (.text (some s) :: found) rest := by
  obtain ⟨pieces, hscan, htext⟩ := spells_text s.toList
  have htoken : textToken (pieces.reverse ++ []) = .text (some s) := by
    have hbytes : textBytes? pieces = some (encode s.toList) := by
      simpa [textBytes?] using htext []
    rw [textToken, List.append_nil, List.reverse_reverse, hbytes, Option.bind_some,
      textOfBytes?_encode]
  have hclose : scanByte? (.quoted (pieces.reverse ++ [])) 0x22 =
      some (.blank, [.text (some s)]) := by
    rw [scanByte?, if_pos rfl, htoken]
  have hopen : scanByte? .blank 0x22 = some (.quoted [], []) := rfl
  rw [toList_quote, encode_cons, encode_append]
  calc scanFrom? .blank found (0x22 :: (encode (s.toList.flatMap fun c => (escape c).toList) ++
        [0x22] ++ rest))
    _ = scanFrom? (.quoted []) found (encode _ ++ [0x22] ++ rest) := scanFrom?_cons hopen ..
    _ = scanFrom? (.quoted (pieces.reverse ++ [])) found (0x22 :: rest) := by
      rw [List.append_assoc, hscan]
      rfl
    _ = scanFrom? .blank (.text (some s) :: found) rest := scanFrom?_cons hclose ..

end StateAtlas.Json
