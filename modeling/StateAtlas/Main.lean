import StateAtlas.CommandLine.Program
/-!
The command line: the program on the real file system.
-/

namespace StateAtlas

/-- What comes of an action that may fail. -/
def attempt {α : Type} (action : IO α) : IO (Option α) := do
  match ← action.toBaseIO with
  | .ok a => return some a
  | .error _ => return none

/-- Where the user's configuration is: below the directory for configurations, if that is given by
an absolute path, or else below the home directory. -/
def configPath : IO (Option String) := do
  let dir := (← IO.getEnv "XDG_CONFIG_HOME").filter fun dir => dir.startsWith "/"
  let home := (← IO.getEnv "HOME").map fun home => home ++ "/.config"
  return (dir <|> home).map fun dir => dir ++ "/statespace/explorer.toml"

/-- The directory that a path lies in, if it names one. -/
def parentOf (path : String) : Option String :=
  match (path.splitOn "/").dropLast with
  | [] | [""] => none
  | parts => some (String.intercalate "/" parts)

/-- Reads a file. -/
def readBytes (path : String) : IO (Option (List UInt8)) := do
  return (← attempt (IO.FS.readBinFile path)).map ByteArray.toList

/-- Writes a file and the directories on the way to it; tells whether that went well. -/
def writeBytes (path : String) (bytes : List UInt8) : IO Bool := do
  let written ← attempt do
    if let some dir := parentOf path then IO.FS.createDirAll dir
    IO.FS.writeBinFile path bytes.toByteArray
  return written.isSome

/-- The system that the program runs on. -/
def systemHost (runtimeDir : Option String) : Host IO where
  readFile := readBytes
  writeFile := writeBytes
  readConfig := do
    match ← configPath with
    | some path => readBytes path
    | none => return none
  writeConfig text := do
    match ← configPath with
    | some path => writeBytes path text.toUTF8.toList
    | none => return false
  runtimeDir

end StateAtlas

/-- Runs the program with the arguments of the command line. -/
def main (args : List String) : IO UInt32 := do
  let host := StateAtlas.systemHost (← IO.getEnv "XDG_RUNTIME_DIR")
  let report ← StateAtlas.Program.run host .unreachable args
  IO.print report.output
  match report.failure with
  | none => return 0
  | some e =>
    IO.eprintln s!"Error: {e.message}"
    return 1
