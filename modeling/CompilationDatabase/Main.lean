/-
The command line.

The files below the working directory are read before the run and the changes
are written after it; the run itself is `Recorder.run`.
-/
import CompilationDatabase.Recorder.Run
import CompilationDatabase.Script.Program

namespace CompilationDatabase.Main

/-- The directory that a run leaves its traces in. -/
def scratch : String := "/.scratch/traces"

/-- Runs programs, and says what is to be said, without the time. -/
def platform : Recorder.Platform where
  launch := Script.launch
  format := Log.Format.plain fun _ => ""
  refusal _ := "not a list of entries"

/-- The variables that a run may ask for. -/
def variableNames : List String := ["PATH", "HOME", "CDB_LIBRARY", "CDB_LOG", "LD_PRELOAD"]

/-- The variables of the process. -/
def readEnvironment : IO Environment := do
  let settings ← variableNames.mapM fun name => do
    return (← IO.getEnv name).map (name, ·)
  return settings.filterMap id

/-- Adds what is below a directory at a location. -/
partial def readTree (directory : IO.FS.DirEntry) (location : Location) (files : FileSystem) :
    IO FileSystem := do
  let entries ← directory.path.readDir
  entries.foldlM (fun files entry => do
    let place := location ++ [entry.fileName]
    if ← entry.path.isDir then readTree entry place (files.insert place .directory)
    else return files.insert place (.file (← IO.FS.readBinFile entry.path))) files

/-- The files below the working directory. -/
def readFiles : IO FileSystem := do
  let home := (← IO.currentDir).toString
  let location := (Path.pieces home).filter (· ≠ "")
  let base : Except FileError FileSystem := do
    let files ← FileSystem.empty.writeWithParents "/dev/null" .empty
    files.makeDirectories home
  let files ← readTree ⟨home, ""⟩ location (base.toOption.getD FileSystem.empty)
  return { files with workingDirectory := location }

/-- Writes what a run changed below the working directory. -/
def writeChanges (before after : FileSystem) : IO Unit := do
  let own := before.workingDirectory
  let pathOf (place : Location) : String := "/" ++ "/".intercalate place
  for (place, node) in after.entries do
    if own.isPrefixOf place && before.node? place ≠ some node then
      match node with
      | .directory => IO.FS.createDirAll (pathOf place)
      | .file content =>
        IO.FS.createDirAll (pathOf place.dropLast)
        IO.FS.writeBinFile (pathOf place) content
  for (place, node) in before.entries do
    if own.isPrefixOf place && (after.node? place).isNone && node.isFile then
      IO.FS.removeFile (pathOf place)

end CompilationDatabase.Main

open CompilationDatabase in
/-- Runs the recorder. -/
def main (arguments : List String) : IO UInt32 := do
  let files ← Main.readFiles
  let environment ← Main.readEnvironment
  let outcome := Recorder.run Main.platform Main.scratch arguments environment files
  Main.writeChanges files outcome.files
  IO.print outcome.stdout
  IO.eprint outcome.stderr
  return outcome.code.toNat.toUInt32
