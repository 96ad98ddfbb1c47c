import StateAtlas.CommandLine.Program
/-!
A system in memory that the program can run on.
-/

namespace StateAtlas

/-- The files of a working directory and the user's configuration. -/
structure Memory where
  files : FileTree := {}
  config : Option String := none
deriving DecidableEq, Repr, Inhabited

/-- The system in memory, with a directory for sockets or without. -/
def Memory.host (runtimeDir : Option String) : Host (StateM Memory) where
  readFile path := do return (← get).files.read? path
  writeFile path bytes := do
    match (← get).files.write? path bytes with
    | none => return false
    | some files =>
      modify fun memory => { memory with files }
      return true
  readConfig := do return (← get).config.map DocumentFile.bytesOf
  writeConfig text := do
    modify fun memory => { memory with config := some text }
    return true
  runtimeDir

end StateAtlas
