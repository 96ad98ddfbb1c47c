import StateAtlas.Dictionary
/-!
A directory of files in memory.

Paths are relative to the directory; directories on the way to a file come into being with it.
-/

namespace StateAtlas

/-- Files by the parts of their paths, and the directories that hold them. -/
structure FileTree where
  files : List (List String × List UInt8) := []
deriving DecidableEq, Repr, Inhabited

namespace FileTree

/-- The parts of a path, leaving out those that lead nowhere. -/
def partsOf (path : String) : List String :=
  (path.splitOn "/").filter fun part => part ≠ "" && part ≠ "."

/-- The parts of the path of a file; a path that ends like that of a directory has none. -/
def filePath? (path : String) : Option (List String) :=
  match (path.splitOn "/").getLast? with
  | none | some "" | some "." | some ".." => none
  | some _ => some (partsOf path)

/-- The bytes of a file. -/
def read? (t : FileTree) (path : String) : Option (List UInt8) :=
  (filePath? path).bind fun parts => t.files.lookup parts

/-- Whether a path is that of a directory on the way to a file. -/
def isDirectory (t : FileTree) (parts : List String) : Bool :=
  t.files.any fun f => parts.isPrefixOf f.1 && parts.length < f.1.length

/-- Whether a file stands where a path needs a directory. -/
def isBlocked (t : FileTree) (parts : List String) : Bool :=
  t.files.any fun f => f.1.isPrefixOf parts && f.1.length < parts.length

/-- Writes a file, over the one that may be there. -/
def write? (t : FileTree) (path : String) (bytes : List UInt8) : Option FileTree := do
  let parts ← filePath? path
  if t.isDirectory parts || t.isBlocked parts then none
  else some ⟨(parts, bytes) :: t.files.filter fun f => f.1 ≠ parts⟩

end FileTree

end StateAtlas
