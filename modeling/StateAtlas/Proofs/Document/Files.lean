import StateAtlas.CommandLine.Memory
import StateAtlas.Proofs.Document.Archive
import StateAtlas.Proofs.Document.RoundTrip
/-!
Files of documents, read as they were written.

The writer goes by the number of documents and the reader by the first two bytes.  They agree, because
the text of a document starts with a brace and an archive, even that of no documents, with the mark of
archives.  The names that the writer gives the documents of an archive are names of documents to the
reader, which takes them in the order of the directory.

What an archive keeps and what a system retains is relied on here, as `Archive.Format.Keeps` and
`Host.Retains` say; archives that store files as they are do so for files that fit, and the system in
memory retains every file.

Main statement: `reads_what_it_writes`.
-/

namespace StateAtlas

/-! ## Systems that can be relied on -/

section

variable {m : Type → Type} [Monad m]

/-- What is read after a file has been written is what was written. -/
def Host.Retains (host : Host m) (path : String) (bytes : List UInt8) : Prop :=
  (do if ← host.writeFile path bytes then return some (← host.readFile path) else return none) =
    (do if ← host.writeFile path bytes then return some (some bytes) else return none)

end

/-- In a tree of files a file is read as it was written. -/
theorem FileTree.read?_of_write? {t t' : FileTree} {path : String} {bytes : List UInt8}
    (h : t.write? path bytes = some t') : t'.read? path = some bytes := by
  obtain ⟨parts, hparts, h⟩ := Option.bind_eq_some_iff.1 h
  split at h
  next => nomatch h
  next =>
    obtain rfl := Option.some.inj h
    simp [read?, hparts]

theorem Memory.retains (runtimeDir : Option String) (path : String) (bytes : List UInt8) :
    (host runtimeDir).Retains path bytes := by
  unfold Host.Retains
  funext memory
  simp only [host, bind, StateT.bind, get, getThe, MonadStateOf.get, StateT.get, pure]
  cases hwrite : memory.files.write? path bytes with
  | none => rfl
  | some files =>
    have hread := FileTree.read?_of_write? hwrite
    exact congrArg (fun found => (some found, { memory with files })) hread

/-- A document is read from its text as it was. -/
def PaneDocument.Rereads (d : PaneDocument) : Prop := read (DocumentFile.bytesOf d.text) = .ok d

theorem PaneDocument.Legible.rereads {d : PaneDocument} (h : d.Legible) (hdoubles : d.KeepsDoubles)
    (hversion : d.version = supportedVersion) : d.Rereads :=
  (read_text h hdoubles).trans (if_pos hversion)

namespace DocumentFile

open PaneDocument (Rereads)

variable {format : Archive.Format} {docs : List PaneDocument} {d : PaneDocument}

/-! ## Two forms of files -/

theorem bytesOf_append (s t : String) : bytesOf (s ++ t) = bytesOf s ++ bytesOf t := by
  simp only [bytesOf, Json.toList_toUTF8, String.toList_append, Json.encode_append]

/-- The text of a document starts with a brace. -/
theorem ofBytes_text (d : PaneDocument) : Form.ofBytes (bytesOf d.text) = .document := by
  have htext : ∃ rest, d.text = "\x7b" ++ rest := by
    simp only [PaneDocument.text, PaneDocument.toJson, Json.pretty, Json.prettyAt, Json.block]
    split
    · exact ⟨_, rfl⟩
    · exact ⟨_, by rw [String.append_assoc, String.append_assoc, String.append_assoc]⟩
  obtain ⟨rest, hrest⟩ := htext
  have hbrace : bytesOf "\x7b" = [0x7b] := by decide +kernel
  rw [hrest, bytesOf_append, hbrace]
  rfl

theorem ofBytes_writeArchiveIn (h : format.Keeps (entries docs)) :
    Form.ofBytes (writeArchiveIn format docs) = .archive := by
  obtain ⟨rest, hrest⟩ := h.marked
  rw [writeArchiveIn, hrest]
  rfl

/-- A file of exactly one document is a document, and any other an archive. -/
theorem ofBytes_writeIn (h : format.Keeps (entries docs)) :
    Form.ofBytes (writeIn format docs) = if docs.length = 1 then .document else .archive := by
  match docs with
  | [] => exact ofBytes_writeArchiveIn h
  | [d] => exact ofBytes_text d
  | d :: d' :: docs =>
    rw [if_neg (by simp)]
    exact ofBytes_writeArchiveIn h

/-! ## Reading what was written -/

theorem isDocumentName_entryName (i : Nat) : isDocumentName (bytesOf (entryName i)) = true := by
  have hname : entryName i = "graph" ++ toString i ++ ".json" := rfl
  rw [isDocumentName, List.isSuffixOf_iff_suffix, hname, bytesOf_append]
  exact List.suffix_append _ _

/-- A document is taken from the file that it was put into. -/
theorem readMember_entry (h : d.Rereads) (i : Nat) :
    readMember (.ok { name := bytesOf (entryName i), bytes := .ok (bytesOf d.text) }) =
      .ok [d] := by
  have hread : PaneDocument.read (bytesOf d.text) = .ok d := h
  simp only [readMember, Except.mapError, bind, Except.bind, isDocumentName_entryName, if_true, hread]
  rfl

/-- The documents of an archive are read as they were written, in their order. -/
theorem readArchiveIn_writeArchiveIn (hdocs : ∀ d ∈ docs, d.Rereads)
    (hformat : format.Keeps (entries docs)) :
    readArchiveIn format (writeArchiveIn format docs) = .ok docs := by
  have hmembers : (entries docs).mapM (fun e => readMember (.ok ⟨e.name, .ok e.bytes⟩)) =
      .ok (docs.zipIdx.map fun numbered => [numbered.1]) := by
    rw [entries, List.mapM_map]
    exact mapM_eq_ok_map fun numbered hmem =>
      readMember_entry (hdocs _ (List.fst_mem_of_mem_zipIdx hmem)) numbered.2
  have hflat : (docs.zipIdx.map fun numbered => [numbered.1]).flatten = docs := by
    rw [← List.flatMap_def, ← List.flatMap_map Prod.fst (fun d => [d]), List.zipIdx_map_fst,
      List.flatMap_singleton']
  rw [readArchiveIn, writeArchiveIn, hformat.returned]
  simp only [Except.mapError, bind, Except.bind, List.mapM_map, Function.comp_def, hmembers, hflat]
  rfl

/-- The documents of a file are read as they were written, in their order. -/
theorem readIn_writeIn (hdocs : ∀ d ∈ docs, d.Rereads) (hformat : format.Keeps (entries docs)) :
    readIn format (writeIn format docs) = .ok docs := by
  by_cases hone : docs.length = 1
  case pos =>
    obtain ⟨d, rfl⟩ := List.length_eq_one_iff.1 hone
    have hread : PaneDocument.read (bytesOf d.text) = .ok d := hdocs d List.mem_cons_self
    rw [writeIn, readIn, ofBytes_text, hread]
    rfl
  case neg =>
    have hwrite : writeIn format docs = writeArchiveIn format docs := by
      unfold writeIn
      split
      next => exact absurd rfl hone
      next => rfl
    rw [hwrite, readIn, ofBytes_writeArchiveIn hformat]
    exact readArchiveIn_writeArchiveIn hdocs hformat

end DocumentFile

namespace Host

variable {m : Type → Type} [Monad m] [LawfulMonad m] {host : Host m} {format : Archive.Format}
  {path : String} {docs : List PaneDocument}

/-- The documents in what is read back of a file, once it is written. -/
def reloaded (format : Archive.Format) :
    Option (Option (List UInt8)) → Except DocumentError (List PaneDocument)
  | some (some bytes) => DocumentFile.readIn format bytes
  | _ => .error .file

/-- What comes after documents are saved is done if the file could be written. -/
theorem run_save_bind (k : Unit → ExceptT DocumentError m (List PaneDocument)) :
    (host.save format path docs >>= k).run = (do
      if ← host.writeFile path (DocumentFile.writeIn format docs) then (k ()).run
      else return .error .file) := by
  rw [save, bind_assoc]
  refine (ExceptT.run_bind_lift _ _).trans (bind_congr fun written => ?_)
  cases written with
  | false => simp
  | true => simp

theorem run_load : (host.load format path).run = (do
    return reloaded format (some (← host.readFile path))) := by
  refine (ExceptT.run_bind_lift _ _).trans (bind_congr fun found => ?_)
  cases found with
  | none => rfl
  | some bytes => rfl

/-- Documents are loaded as they were saved, if they were. -/
theorem load_save (hhost : host.Retains path (DocumentFile.writeIn format docs))
    (hread : DocumentFile.readIn format (DocumentFile.writeIn format docs) = .ok docs) :
    (do host.save format path docs; host.load format path) =
      (do host.save format path docs; return docs) := by
  -- Both sides are what the two runs of the system come to, read as documents.
  have hmap := congrArg (reloaded format <$> ·) hhost
  simp only [map_bind, apply_ite, map_pure] at hmap
  refine ExceptT.ext ?_
  rw [run_save_bind, run_save_bind, run_load, ExceptT.run_pure, ← hread]
  exact hmap

end Host

namespace DocumentFile

/-- **Reading a file of documents undoes writing it.**  Documents that are read from their text as
they were are found again in their archive and in their file, all of them and in order, if the format
of archives keeps files and the system retains what was written; how the file starts tells a single
document from any other number of them.  Saving and loading then comes to saving alone. -/
theorem reads_what_it_writes {m : Type → Type} [Monad m] [LawfulMonad m] (format : Archive.Format)
    (docs : List PaneDocument) (hdocs : ∀ d ∈ docs, d.Rereads)
    (hformat : format.Keeps (entries docs)) (host : Host m) (path : String)
    (hhost : host.Retains path (writeIn format docs)) :
    readArchiveIn format (writeArchiveIn format docs) = .ok docs ∧
    Form.ofBytes (writeIn format docs) = (if docs.length = 1 then .document else .archive) ∧
    readIn format (writeIn format docs) = .ok docs ∧
    (do host.save format path docs; host.load format path) =
      (do host.save format path docs; return docs) :=
  have hread := readIn_writeIn hdocs hformat
  ⟨readArchiveIn_writeArchiveIn hdocs hformat, ofBytes_writeIn hformat, hread,
    Host.load_save hhost hread⟩

/-- The document of a pane with the lamp. -/
def lamp (pane : PaneId) : PaneDocument :=
  { version := PaneDocument.supportedVersion, pane, nodes := Fragment.lamp.nodes, edges := [] }

theorem legible_lamp (pane : PaneId) : (lamp pane).Legible where
  version := show PaneDocument.supportedVersion < Nat.pow 2 32 by decide
  nodes n hn := (Fragment.admits_lamp n hn).legible
  brush := BrushState.isFinite_empty

/-- Two panes with the lamp are read from the archive that they were written to. -/
theorem reads_what_it_writes_lamps :
    let docs := [lamp ⟨"pane-0"⟩, lamp ⟨"pane-1"⟩]
    let host := Memory.host none
    (∀ d ∈ docs, d.Rereads) ∧ Archive.plain.Keeps (entries docs) ∧
      host.Retains "panes.zip" (write docs) ∧ readArchive (writeArchive docs) = .ok docs ∧
      Form.ofBytes (write docs) = .archive ∧ read (write docs) = .ok docs ∧
      (do host.save Archive.plain "panes.zip" docs; host.load Archive.plain "panes.zip") =
        (do host.save Archive.plain "panes.zip" docs; return docs) := by
  intro docs host
  have hdocs : ∀ d ∈ docs, d.Rereads := by
    have hdoubles : ∀ d ∈ docs, d.KeepsDoubles := by decide +kernel
    intro d hd
    rcases List.mem_pair.1 hd with rfl | rfl
    · exact (legible_lamp _).rereads (hdoubles _ hd) rfl
    · exact (legible_lamp _).rereads (hdoubles _ hd) rfl
  have hformat : Archive.plain.Keeps (entries docs) := Archive.keeps_plain (by decide +kernel)
  have hhost : host.Retains "panes.zip" (write docs) := Memory.retains none _ _
  obtain ⟨harchive, hform, hread, hload⟩ :=
    reads_what_it_writes Archive.plain docs hdocs hformat host "panes.zip" hhost
  exact ⟨hdocs, hformat, hhost, harchive, hform, hread, hload⟩

end DocumentFile

end StateAtlas
