import StateAtlas.Document.Archive
import StateAtlas.Document.Basic
/-!
Files of documents: exactly one document is a file of its own, any other number of them is an
archive.  Which of the two a file is shows in its first two bytes, since no document starts like an
archive.
-/

namespace StateAtlas.DocumentFile

/-- The two forms of a file. -/
inductive Form
  | document
  | archive
deriving DecidableEq, Repr

namespace Form

/-- The form in one word. -/
def name : Form → String
  | .document => "json"
  | .archive => "zip"

/-- The form of a file, by how it starts. -/
def ofBytes : List UInt8 → Form
  | 0x50 :: 0x4b :: _ => .archive
  | _ => .document

end Form

/-- A text as bytes. -/
def bytesOf (s : String) : List UInt8 := s.toUTF8.toList

/-- The name of the `i`-th document of an archive. -/
def entryName (i : Nat) : String := s!"graph{i}.json"

/-- The documents as files of an archive. -/
def entries (docs : List PaneDocument) : List Archive.Entry :=
  docs.zipIdx.map fun (d, i) => ⟨bytesOf (entryName i), bytesOf d.text⟩

/-- Whether a file of an archive holds a document, by its name. -/
def isDocumentName (name : List UInt8) : Bool := (bytesOf ".json").isSuffixOf name

/-- What a failure inside an archive means. -/
def ofReadError : Archive.ReadError → DocumentError
  | .malformed => .archive
  | .damaged => .file

/-- The document of one file of an archive; files with other names are passed over. -/
def readMember (found : Except Archive.ReadError Archive.Member) :
    Except DocumentError (List PaneDocument) := do
  let m ← found.mapError ofReadError
  if isDocumentName m.name then
    let text ← m.bytes.mapError ofReadError
    return [← PaneDocument.read text]
  else return []

section

variable (format : Archive.Format)

/-- The archive of documents in a format. -/
def writeArchiveIn (docs : List PaneDocument) : List UInt8 := format.write (entries docs)

/-- The documents of an archive in a format, in the order of its directory. -/
def readArchiveIn (bs : List UInt8) : Except DocumentError (List PaneDocument) := do
  let members ← (format.members bs).mapError ofReadError
  return (← members.mapM readMember).flatten

/-- The file of documents, with archives in a format. -/
def writeIn (docs : List PaneDocument) : List UInt8 :=
  match docs with
  | [d] => bytesOf d.text
  | docs => writeArchiveIn format docs

/-- The documents of a file, with archives in a format. -/
def readIn (bs : List UInt8) : Except DocumentError (List PaneDocument) :=
  match Form.ofBytes bs with
  | .archive => readArchiveIn format bs
  | .document => return [← PaneDocument.read bs]

end

/-- The archive of documents. -/
def writeArchive (docs : List PaneDocument) : List UInt8 := writeArchiveIn Archive.plain docs

/-- The documents of an archive, in the order of its directory. -/
def readArchive (bs : List UInt8) : Except DocumentError (List PaneDocument) :=
  readArchiveIn Archive.plain bs

/-- The file of documents. -/
def write (docs : List PaneDocument) : List UInt8 := writeIn Archive.plain docs

/-- The documents of a file. -/
def read (bs : List UInt8) : Except DocumentError (List PaneDocument) := readIn Archive.plain bs

end StateAtlas.DocumentFile
