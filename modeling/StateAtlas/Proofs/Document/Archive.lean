import StateAtlas.Document.Archive
/-!
Archives that store files as they are give the files back.

A number is read from where it was written, whatever stands before and behind it, if it fits the bytes
that it has.  So the reader finds the closing record at the end, from there the directory, in the
directory one listing for each file, and at the place that the listing tells the file itself.

Main statement: `keeps_plain`.
-/

namespace StateAtlas.Archive

/-! ## Formats that can be relied on -/

/-- An archive of files starts with the mark of archives, and the files are found in it again, in
order and with their names and bytes. -/
structure Format.Keeps (format : Format) (entries : List Entry) : Prop where
  marked : ∃ rest, format.write entries = 0x50 :: 0x4b :: rest
  returned : format.members (format.write entries) =
    .ok (entries.map fun e => .ok { name := e.name, bytes := .ok e.bytes })

/-- The number of files and the lengths of names and parts fit the fields that they have. -/
structure Fits (entries : List Entry) : Prop where
  count : entries.length < 0x10000
  names : ∀ e ∈ entries, e.name.length < 0x10000
  records : (entries.flatMap record).length < 0x100000000
  directory : (listings entries 0).length < 0x100000000

instance (entries : List Entry) : Decidable (Fits entries) :=
  decidable_of_iff
    (entries.length < 0x10000 ∧ (∀ e ∈ entries, e.name.length < 0x10000) ∧
      (entries.flatMap record).length < 0x100000000 ∧ (listings entries 0).length < 0x100000000)
    ⟨fun ⟨hcount, hnames, hrecords, hdirectory⟩ => ⟨hcount, hnames, hrecords, hdirectory⟩,
      fun h => ⟨h.count, h.names, h.records, h.directory⟩⟩

/-! ## Numbers in place -/

variable {e : Entry} {entries : List Entry} {before after rest : List UInt8}
  {n start position width width' : Nat}

/-- What stands before a number does not matter. -/
theorem numberAt?_append (h : before.length ≤ position) :
    numberAt? (before ++ rest) position width =
      numberAt? rest (position - before.length) width := by
  unfold numberAt?
  rw [List.drop_append, List.drop_eq_nil_of_le h, List.nil_append]

theorem numberAt?_skip (h : width' ≤ position) :
    numberAt? (littleEndian width' n ++ rest) position width =
      numberAt? rest (position - width') width := by
  have hlength := length_littleEndian width' n
  rw [numberAt?_append (hlength.symm ▸ h), hlength]

/-- A number is read where it was written. -/
theorem numberAt?_littleEndian (h : n < Nat.pow 256 width) :
    numberAt? (littleEndian width n ++ rest) 0 width = some n := by
  have hfield : (littleEndian width n ++ rest).take width = littleEndian width n :=
    List.take_left' (length_littleEndian width n)
  rw [numberAt?, List.drop_zero, hfield, length_littleEndian, if_pos rfl,
    ofLittleEndian_littleEndian width n h]

theorem numberAt?_two (h : n < 0x10000) :
    numberAt? (littleEndian 2 n ++ rest) 0 2 = some n :=
  numberAt?_littleEndian h

theorem numberAt?_four (h : n < 0x100000000) :
    numberAt? (littleEndian 4 n ++ rest) 0 4 = some n :=
  numberAt?_littleEndian h

/-! ## Files -/

@[simp] theorem length_description (e : Entry) : (description e).length = 26 := by
  simp [description]

/-- The listing of a file as it is read. -/
def listed (e : Entry) (start : Nat) : Listing :=
  { name := e.name
    method := 0
    isEncrypted := false
    checksum := checksum e.bytes
    length := e.bytes.length
    start }

/-- The bytes of a file stand where its listing tells. -/
theorem stored_listed (hname : e.name.length < 0x10000) :
    stored (before ++ (record e ++ rest)) (listed e before.length) = .ok e.bytes := by
  have hrecord : (before ++ (record e ++ rest)).drop before.length = record e ++ rest :=
    List.drop_left
  have hmark : numberAt? (record e ++ rest) 0 4 = some recordMark := by
    simp only [record, List.append_assoc]
    exact numberAt?_four (by decide)
  have hlength : numberAt? (record e ++ rest) 26 2 = some e.name.length := by
    simp only [record, description, List.append_assoc, numberAt?_skip, Nat.reduceLeDiff,
      Nat.reduceSub]
    exact numberAt?_two hname
  have hextra : numberAt? (record e ++ rest) 28 2 = some 0 := by
    simp only [record, description, List.append_assoc, numberAt?_skip, Nat.reduceLeDiff,
      Nat.reduceSub]
    exact numberAt?_two (by decide)
  have hbytes : (record e ++ rest).drop (30 + e.name.length + 0) = e.bytes ++ rest := by
    rw [record, List.append_assoc _ e.bytes]
    refine List.drop_left' ?_
    simp
    omega
  simp only [stored, listed, hrecord, hmark, hlength, hextra, hbytes, List.take_left]
  rfl

/-- A file is taken out as it was put in. -/
theorem member_listed (hname : e.name.length < 0x10000) :
    member (before ++ (record e ++ rest)) (listed e before.length) =
      .ok { name := e.name, bytes := .ok e.bytes } := by
  have hintact : intact (listed e before.length) e.bytes = .ok e.bytes := by
    simp [intact, listed]
  rw [member, stored_listed hname]
  exact congrArg (fun bytes => Except.ok (Member.mk e.name bytes)) hintact

/-! ## The directory -/

theorem length_listing (e : Entry) (start : Nat) :
    (listing e start).length = 46 + e.name.length := by
  simp [listing]
  omega

/-- A listing is read as it was written. -/
theorem read?_listing (hname : e.name.length < 0x10000) (hbytes : e.bytes.length < 0x100000000)
    (hstart : start < 0x100000000) :
    Listing.read? 0 (listing e start ++ rest) = some (listed e start, rest) := by
  have hzero : 0 < 0x10000 := by decide
  have hmark : listingMark < 0x100000000 := by decide
  have hchecksum : (checksum e.bytes).toNat < 0x100000000 := (checksum e.bytes).toNat_lt
  have hnumbers : numberAt? (listing e start ++ rest) 0 4 = some listingMark ∧
      numberAt? (listing e start ++ rest) 8 2 = some 0 ∧
      numberAt? (listing e start ++ rest) 10 2 = some 0 ∧
      numberAt? (listing e start ++ rest) 16 4 = some (checksum e.bytes).toNat ∧
      numberAt? (listing e start ++ rest) 20 4 = some e.bytes.length ∧
      numberAt? (listing e start ++ rest) 28 2 = some e.name.length ∧
      numberAt? (listing e start ++ rest) 30 2 = some 0 ∧
      numberAt? (listing e start ++ rest) 32 2 = some 0 ∧
      numberAt? (listing e start ++ rest) 42 4 = some start := by
    simp only [listing, description, List.append_assoc, numberAt?_skip, Nat.reduceLeDiff,
      Nat.reduceSub, numberAt?_two hzero, numberAt?_two hname, numberAt?_four hmark,
      numberAt?_four hchecksum, numberAt?_four hbytes, numberAt?_four hstart, and_self]
  have hname' : (listing e start ++ rest).drop 46 = e.name ++ rest := by
    rw [listing, List.append_assoc _ e.name]
    exact List.drop_left' (by simp)
  have hrest : (listing e start ++ rest).drop (46 + e.name.length) = rest :=
    List.drop_left' (length_listing e start)
  have hlength : ¬(listing e start ++ rest).length < 46 + e.name.length := by
    rw [List.length_append, length_listing]
    omega
  obtain ⟨h0, h8, h10, h16, h20, h28, h30, h32, h42⟩ := hnumbers
  simp only [Listing.read?, h0, h8, h10, h16, h20, h28, h30, h32, h42, Option.bind_eq_bind,
    Option.bind_some, Nat.add_zero, hlength, hname', hrest, List.take_left]
  simp [listed]

/-- The listings of files whose first record starts at a position, as they are read. -/
def listedFrom : List Entry → Nat → List Listing
  | [], _ => []
  | e :: entries, start => listed e start :: listedFrom entries (start + (record e).length)

/-- A directory is read as it was written. -/
theorem listings?_listings (hnames : ∀ e ∈ entries, e.name.length < 0x10000)
    (hlength : start + (entries.flatMap record).length < 0x100000000) :
    listings? 0 entries.length (listings entries start ++ rest) =
      some (listedFrom entries start) := by
  induction entries generalizing start with
  | nil => rfl
  | cons e entries ih =>
    rw [List.flatMap_cons, List.length_append] at hlength
    have hrecord : (record e).length = 30 + e.name.length + e.bytes.length := by
      simp [record]
      omega
    have hfirst : Listing.read? 0 (listing e start ++ (listings entries
        (start + (record e).length) ++ rest)) = _ :=
      read?_listing (hnames e List.mem_cons_self) (by omega) (by omega)
    have hrest := ih (fun e he => hnames e (List.mem_cons_of_mem _ he))
      (show start + (record e).length + _ < _ by omega)
    rw [listings, List.append_assoc, List.length_cons, listings?, hfirst]
    simp [hrest, listedFrom]

/-- All files are taken out as they were put in. -/
theorem map_member_listedFrom (hnames : ∀ e ∈ entries, e.name.length < 0x10000) :
    (listedFrom entries before.length).map
        (member (before ++ (entries.flatMap record ++ rest))) =
      entries.map fun e => .ok { name := e.name, bytes := .ok e.bytes } := by
  induction entries generalizing before with
  | nil => rfl
  | cons e entries ih =>
    have hrest := @ih (before ++ record e) fun e he => hnames e (List.mem_cons_of_mem _ he)
    rw [List.length_append] at hrest
    rw [List.flatMap_cons, listedFrom, List.map_cons, List.map_cons, List.append_assoc (record e),
      member_listed (hnames e List.mem_cons_self), ← List.append_assoc before, hrest]

/-! ## The closing record -/

section

variable {test : List UInt8 → Bool} {bs found : List UInt8}

theorem lastSuffix?_eq_none (h : ∀ cs, cs <:+ bs → test cs = false) :
    lastSuffix? test bs = none := by
  induction bs with
  | nil => rfl
  | cons b bs ih =>
    rw [lastSuffix?, ih fun cs hcs => h cs (hcs.trans (List.suffix_cons b bs)),
      h _ List.suffix_rfl]
    rfl

/-- If no shorter part at the end passes a test, the whole is found. -/
theorem lastSuffix?_self (htest : test bs = true) (hnil : bs ≠ [])
    (hshorter : ∀ cs, cs.length < bs.length → test cs = false) :
    lastSuffix? test bs = some bs := by
  cases bs with
  | nil => exact absurd rfl hnil
  | cons b bs =>
    rw [lastSuffix?, lastSuffix?_eq_none fun cs hcs => hshorter cs (Nat.lt_succ_of_le hcs.length_le)]
    exact if_pos htest

/-- What is found at the end is found behind whatever else there is. -/
theorem lastSuffix?_append (h : lastSuffix? test bs = some found) :
    lastSuffix? test (before ++ bs) = some found := by
  induction before with
  | nil => exact h
  | cons b before ih => rw [List.cons_append, lastSuffix?, ih]

/-- What starts with a closing record is as long as one. -/
theorem closingLength_le_of_startsClosing (h : startsClosing bs = true) :
    closingLength ≤ bs.length := by
  rw [startsClosing, Bool.and_eq_true, Option.isSome_iff_exists] at h
  obtain ⟨-, n, hn⟩ := h
  rw [numberAt?] at hn
  split at hn
  next hfield =>
    rw [List.length_take, List.length_drop] at hfield
    unfold closingLength
    omega
  next => nomatch hn

end

variable {count length : Nat}

theorem length_closing (count length start : Nat) :
    (closing count length start).length = closingLength := by
  simp [closing, closingLength]

/-- The numbers of a closing record are read as they were written. -/
theorem numberAt?_closing (hcount : count < 0x10000) (hlength : length < 0x100000000)
    (hstart : start < 0x100000000) :
    numberAt? (closing count length start) 0 4 = some closingMark ∧
      numberAt? (closing count length start) 4 2 = some 0 ∧
      numberAt? (closing count length start) 6 2 = some 0 ∧
      numberAt? (closing count length start) 8 2 = some count ∧
      numberAt? (closing count length start) 12 4 = some length ∧
      numberAt? (closing count length start) 16 4 = some start ∧
      numberAt? (closing count length start) 20 2 = some 0 := by
  have hzero : 0 < 0x10000 := by decide
  have hmark : closingMark < 0x100000000 := by decide
  have hcomment : numberAt? (littleEndian 2 0) 0 2 = some 0 := by decide
  simp only [closing, List.append_assoc, numberAt?_skip, Nat.reduceLeDiff, Nat.reduceSub,
    numberAt?_two hzero, numberAt?_two hcount, numberAt?_four hmark, numberAt?_four hlength,
    numberAt?_four hstart, hcomment, and_self]

/-- The closing record is found where it stands. -/
theorem closing?_append (hcount : count < 0x10000) (hlength : length < 0x100000000)
    (hstart : start < 0x100000000) :
    closing? (before ++ closing count length start) = some (closing count length start) := by
  obtain ⟨hmark, -, -, -, -, -, hcomment⟩ := numberAt?_closing hcount hlength hstart
  have hstarts : startsClosing (closing count length start) = true := by
    simp [startsClosing, hmark, hcomment]
  -- Without a comment nothing behind the mark is long enough to be taken for a closing record.
  have hfound : lastSuffix? startsClosing (closing count length start) =
      some (closing count length start) := by
    refine lastSuffix?_self hstarts ?_ fun cs hcs => ?_
    · exact List.ne_nil_of_length_pos (length_closing .. ▸ by decide)
    · refine Bool.eq_false_iff.2 fun hcs' => ?_
      rw [length_closing] at hcs
      exact absurd hcs (Nat.not_lt.2 (closingLength_le_of_startsClosing hcs'))
  have hnear : ((before ++ closing count length start).reverse.take
      (closingLength + maxComment)).reverse =
        (before.reverse.take maxComment).reverse ++ closing count length start := by
    rw [List.reverse_append, ← length_closing count length start, ← List.length_reverse,
      List.take_length_add_append, List.reverse_append, List.reverse_reverse]
  rw [closing?, hnear]
  exact lastSuffix?_append hfound

/-! ## Archives -/

/-- The closing record tells where the directory is. -/
theorem directory?_append {records directory : List UInt8} (hcount : count < 0x10000)
    (hdirectory : directory.length < 0x100000000) (hrecords : records.length < 0x100000000) :
    directory? (records ++ directory ++ closing count directory.length records.length) =
      listings? 0 count (directory ++ closing count directory.length records.length) := by
  obtain ⟨-, h4, h6, h8, h12, h16, h20⟩ := numberAt?_closing hcount hdirectory hrecords
  have hposition : (records ++ directory ++
      closing count directory.length records.length).length - closingLength =
        directory.length + records.length := by
    simp only [List.length_append, length_closing]
    omega
  have hdrop : (records ++ directory ++ closing count directory.length records.length).drop
      records.length = directory ++ closing count directory.length records.length := by
    rw [List.append_assoc]
    exact List.drop_left
  simp only [directory?, closing?_append hcount hdirectory hrecords, Option.bind_eq_bind,
    Option.bind_some, length_closing, hposition, h4, h6, h8, h12, h16, h20]
  simp

/-- The directory is found as it was written. -/
theorem directory?_write (h : Fits entries) :
    directory? (write entries) = some (listedFrom entries 0) := by
  refine (directory?_append h.count h.directory h.records).trans (listings?_listings h.names ?_)
  rw [Nat.zero_add]
  exact h.records

theorem exists_write_eq (entries : List Entry) : ∃ rest, write entries = 0x50 :: 0x4b :: rest := by
  have hrecord : littleEndian 4 recordMark = [0x50, 0x4b, 0x03, 0x04] := by decide
  have hclosing : littleEndian 4 closingMark = [0x50, 0x4b, 0x05, 0x06] := by decide
  cases entries with
  | nil => simp [write, listings, closing, hclosing]
  | cons e entries => simp [write, record, hrecord]

theorem members_eq {bs : List UInt8} {found : List Listing} (h : directory? bs = some found) :
    members bs = .ok (found.map (member bs)) := by
  unfold members
  rw [h]

/-- **Archives that store files as they are can be relied on**, for files that fit. -/
theorem keeps_plain (h : Fits entries) : plain.Keeps entries := by
  refine ⟨exists_write_eq entries, (members_eq (directory?_write h)).trans ?_⟩
  have hmembers := @map_member_listedFrom entries [] (listings entries 0 ++
    closing entries.length (listings entries 0).length (entries.flatMap record).length) h.names
  rw [List.nil_append, List.length_nil, ← List.append_assoc] at hmembers
  rw [← hmembers, write]

end StateAtlas.Archive
