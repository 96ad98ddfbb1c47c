/-!
Archives: several named files in one file, each stored as it is.

An archive is a list of records, each a header and the bytes of one file, then a directory with one
listing per file, and last a closing record that tells where the directory is.  Numbers are written
with their lowest byte first.

A reader starts from the closing record, the last one in the file, so an archive may be followed by
a comment and may follow other data; what stands before the archive shifts every position in it.
-/

namespace StateAtlas.Archive

/-- One file of an archive. -/
structure Entry where
  name : List UInt8
  bytes : List UInt8
deriving DecidableEq, Repr, Inhabited

/-! ## Numbers and checksums -/

/-- The bytes of a number, the lowest first. -/
def littleEndian : Nat → Nat → List UInt8
  | 0, _ => []
  | width + 1, n => UInt8.ofNat (n % 256) :: littleEndian width (n / 256)

/-- The number that bytes are, the lowest first. -/
def ofLittleEndian : List UInt8 → Nat
  | [] => 0
  | b :: rest => b.toNat + 256 * ofLittleEndian rest

@[simp] theorem length_littleEndian (width n : Nat) : (littleEndian width n).length = width := by
  induction width generalizing n with
  | zero => rfl
  | succ width ih => simp [littleEndian, ih]

theorem ofLittleEndian_littleEndian (width n : Nat) (h : n < Nat.pow 256 width) :
    ofLittleEndian (littleEndian width n) = n := by
  induction width generalizing n with
  | zero => simp at h; simp [littleEndian, ofLittleEndian, h]
  | succ width ih =>
    have hn : n / 256 < Nat.pow 256 width :=
      Nat.div_lt_of_lt_mul (by rwa [Nat.pow_eq, Nat.pow_succ, Nat.mul_comm] at h)
    simp only [littleEndian, ofLittleEndian, ih _ hn]
    have : (UInt8.ofNat (n % 256)).toNat = n % 256 := by simp
    omega

/-- One bit of the checksum's division. -/
def checksumBit (c : UInt32) : UInt32 :=
  if c &&& 1 = 1 then (c >>> 1) ^^^ 0xEDB88320 else c >>> 1

/-- One byte of the checksum. -/
def checksumByte (c : UInt32) (b : UInt8) : UInt32 :=
  (List.range 8).foldl (fun c _ => checksumBit c) (c ^^^ b.toUInt32)

/-- The cyclic redundancy check of bytes. -/
def checksum (bs : List UInt8) : UInt32 := bs.foldl checksumByte 0xFFFFFFFF ^^^ 0xFFFFFFFF

/-! ## Writing -/

/-- What begins the header of a file. -/
def recordMark : Nat := 0x04034b50

/-- What begins a listing of the directory. -/
def listingMark : Nat := 0x02014b50

/-- What begins the closing record. -/
def closingMark : Nat := 0x06054b50

/-- The part of a header that is repeated in the directory: the version that can read it, no flags,
stored as it is, the first of January 1980, and the checksum and lengths. -/
def description (e : Entry) : List UInt8 :=
  littleEndian 2 20 ++ littleEndian 2 0 ++ littleEndian 2 0 ++ littleEndian 2 0 ++
    littleEndian 2 0x21 ++ littleEndian 4 (checksum e.bytes).toNat ++
    littleEndian 4 e.bytes.length ++ littleEndian 4 e.bytes.length ++
    littleEndian 2 e.name.length ++ littleEndian 2 0

/-- The header and the bytes of a file. -/
def record (e : Entry) : List UInt8 :=
  littleEndian 4 recordMark ++ description e ++ e.name ++ e.bytes

/-- The listing of a file whose record starts at a position. -/
def listing (e : Entry) (start : Nat) : List UInt8 :=
  littleEndian 4 listingMark ++ littleEndian 2 20 ++ description e ++ littleEndian 2 0 ++
    littleEndian 2 0 ++ littleEndian 2 0 ++ littleEndian 4 0 ++ littleEndian 4 start ++ e.name

/-- The listings of files whose first record starts at a position. -/
def listings : List Entry → Nat → List UInt8
  | [], _ => []
  | e :: rest, start => listing e start ++ listings rest (start + (record e).length)

/-- The closing record of a directory of a length, `count` listings long, at a position. -/
def closing (count length start : Nat) : List UInt8 :=
  littleEndian 4 closingMark ++ littleEndian 2 0 ++ littleEndian 2 0 ++ littleEndian 2 count ++
    littleEndian 2 count ++ littleEndian 4 length ++ littleEndian 4 start ++ littleEndian 2 0

/-- The archive of files. -/
def write (entries : List Entry) : List UInt8 :=
  let records := entries.flatMap record
  let directory := listings entries 0
  records ++ directory ++ closing entries.length directory.length records.length

/-! ## Reading -/

/-- The number of `width` bytes at a position. -/
def numberAt? (bs : List UInt8) (position width : Nat) : Option Nat :=
  let field := (bs.drop position).take width
  if field.length = width then some (ofLittleEndian field) else none

/-- What the directory tells of a file. -/
structure Listing where
  name : List UInt8
  /-- How the bytes are stored. -/
  method : Nat
  isEncrypted : Bool
  checksum : UInt32
  /-- How many bytes are stored. -/
  length : Nat
  /-- Where the file's record starts. -/
  start : Nat
deriving DecidableEq, Repr

/-- The listing that bytes start with, and what follows it; positions are shifted by `shift`. -/
def Listing.read? (shift : Nat) (bs : List UInt8) : Option (Listing × List UInt8) := do
  if (← numberAt? bs 0 4) ≠ listingMark then none
  let flags ← numberAt? bs 8 2
  let method ← numberAt? bs 10 2
  let checksum ← numberAt? bs 16 4
  let length ← numberAt? bs 20 4
  let nameLength ← numberAt? bs 28 2
  let rest := nameLength + (← numberAt? bs 30 2) + (← numberAt? bs 32 2)
  let start ← numberAt? bs 42 4
  if bs.length < 46 + rest then none
  let listing : Listing :=
    { name := (bs.drop 46).take nameLength
      method
      isEncrypted := flags % 2 = 1
      checksum := UInt32.ofNat checksum
      length
      start := start + shift }
  some (listing, bs.drop (46 + rest))

/-- The first `count` listings of a directory. -/
def listings? (shift : Nat) : Nat → List UInt8 → Option (List Listing)
  | 0, _ => some []
  | count + 1, bs => do
    let (l, rest) ← Listing.read? shift bs
    return l :: (← listings? shift count rest)

/-- The length of a closing record without its comment. -/
def closingLength : Nat := 22

/-- The longest comment that a closing record has room for. -/
def maxComment : Nat := 0xFFFF

/-- The shortest part at the end of bytes that passes a test. -/
def lastSuffix? (test : List UInt8 → Bool) : List UInt8 → Option (List UInt8)
  | [] => none
  | b :: rest =>
    match lastSuffix? test rest with
    | some found => some found
    | none => if test (b :: rest) then some (b :: rest) else none

/-- Whether bytes start with a closing record, its comment aside. -/
def startsClosing (bs : List UInt8) : Bool :=
  numberAt? bs 0 4 = some closingMark && (numberAt? bs 20 2).isSome

/-- The last closing record and what follows it, if it is near enough to the end. -/
def closing? (bs : List UInt8) : Option (List UInt8) :=
  lastSuffix? startsClosing (bs.reverse.take (closingLength + maxComment)).reverse

/-- The directory of an archive. -/
def directory? (bs : List UInt8) : Option (List Listing) := do
  let closing ← closing? bs
  let position := bs.length - closing.length
  let commentLength ← numberAt? closing 20 2
  if closing.length < closingLength + commentLength then none
  if (← numberAt? closing 4 2) ≠ (← numberAt? closing 6 2) then none
  let count ← numberAt? closing 8 2
  let length ← numberAt? closing 12 4
  let start ← numberAt? closing 16 4
  if position < length + start then none
  let shift := position - length - start
  listings? shift count (bs.drop (start + shift))

/-- Why a file cannot be taken out of an archive. -/
inductive ReadError
  /-- The archive is not well formed, or asks for what is not supported. -/
  | malformed
  /-- The stored bytes are not those that were put in. -/
  | damaged
deriving DecidableEq, Repr

/-- Whether a method is one of compressing, which nothing here undoes. -/
def compresses (method : Nat) : Bool := [8, 12, 93].contains method

/-- The stored bytes of a file. -/
def stored (bs : List UInt8) (l : Listing) : Except ReadError (List UInt8) := do
  if l.isEncrypted then throw .malformed
  let record := bs.drop l.start
  match numberAt? record 0 4, numberAt? record 26 2, numberAt? record 28 2 with
  | some mark, some nameLength, some extraLength =>
    if mark ≠ recordMark || !(l.method = 0 || compresses l.method) then throw .malformed
    return (record.drop (30 + nameLength + extraLength)).take l.length
  | _, _, _ => throw .malformed

/-- The bytes of a file, if they are what was put in. -/
def intact (l : Listing) (bs : List UInt8) : Except ReadError (List UInt8) :=
  if l.method = 0 && checksum bs = l.checksum then .ok bs else .error .damaged

/-! ## Formats -/

/-- A file as it is found in an archive: its name is known before its bytes are taken out. -/
structure Member where
  name : List UInt8
  bytes : Except ReadError (List UInt8)

/-- A way to put files into an archive and to find them there again, in the order of its
directory. -/
structure Format where
  write : List Entry → List UInt8
  members : List UInt8 → Except ReadError (List (Except ReadError Member))

/-- The file of a listing. -/
def member (bs : List UInt8) (l : Listing) : Except ReadError Member := do
  let found ← stored bs l
  return { name := l.name, bytes := intact l found }

/-- The files of an archive that stores them as they are. -/
def members (bs : List UInt8) : Except ReadError (List (Except ReadError Member)) :=
  match directory? bs with
  | none => .error .malformed
  | some listings => .ok (listings.map (member bs))

/-- Archives that store files as they are. -/
def plain : Format := { write, members }

end StateAtlas.Archive
