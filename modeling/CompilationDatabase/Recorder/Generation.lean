/-
Making the database from the traces of a build.

First everything is read: the traces and, if the database is to be extended,
the entries it has.  Then the entries are put together, either as they are or
without duplicates and missing files.  Only then the database is written.  So
a run that fails before the last step changes nothing.
-/
import CompilationDatabase.Database.File
import CompilationDatabase.Entry.Identity
import CompilationDatabase.Recorder.Collection

namespace CompilationDatabase.Recorder

/-- How the database is made. -/
structure Settings where
  /-- The path of the database. -/
  output : String := "compile_commands.json"
  /-- Whether the entries that the database has are kept. -/
  append : Bool := false
  /-- Whether the entries are written as found. -/
  raw : Bool := false
  /-- Whether links are recorded. -/
  link : Bool := false
deriving DecidableEq, Repr

/-- What a run read and wrote. -/
structure Summary where
  /-- How many trace files were read. -/
  traceFiles : Nat
  /-- How many records they held. -/
  records : Nat
  /-- How many entries the records gave. -/
  entries : Nat
  /-- How many entries were written. -/
  written : Nat
deriving DecidableEq, Repr

/-- Why no database was made. -/
inductive Failure where
  /-- The traces cannot be listed. -/
  | traces (fault : UnlistedTraces)
  /-- The database cannot be read or written. -/
  | database (fault : Database.Fault)
deriving DecidableEq, Repr

namespace Failure

/-- The text shown for the failure, which has its cause. -/
def message (refusal : String → String) : Failure → String
  | traces fault => fault.message
  | database fault => fault.message refusal

/-- Why it failed. -/
def cause (refusal : String → String) : Failure → String
  | traces fault => fault.cause.message
  | database fault => fault.cause refusal

end Failure

/-- What is to be written, once all is read. -/
structure Draft where
  /-- What the traces gave. -/
  collection : Collection
  /-- The entries of the new database. -/
  entries : List Entry
deriving DecidableEq, Repr

/-- The entries that the database has, if they are kept. -/
def prior (fs : FileSystem) (settings : Settings) : Except Failure (List Entry) :=
  if settings.append then (Database.load fs settings.output).mapError .database else .ok []

/-- Reads all there is to read, and puts the entries together. -/
def draft (fs : FileSystem) (traces : String) (settings : Settings) : Except Failure Draft := do
  let files ← (traceFiles fs traces).mapError .traces
  let collection := collect fs files settings.link
  let prior ← prior fs settings
  let entries := if settings.raw then prior ++ collection.entries
    else (merge fs.contains prior collection.entries).1
  return ⟨collection, entries⟩

/-- Makes the database from the traces in the directory. -/
def generate (fs : FileSystem) (traces : String) (settings : Settings) :
    Except Failure Summary × FileSystem :=
  match draft fs traces settings with
  | .error failure => (.error failure, fs)
  | .ok draft =>
    match Database.save fs settings.output draft.entries with
    | (.error fault, after) => (.error (.database fault), after)
    | (.ok _, after) =>
      let summary :=
        { traceFiles := draft.collection.traceFiles
          records := draft.collection.records
          entries := draft.collection.entries.length
          written := draft.entries.length }
      (.ok summary, after)

/-- What is said when the entries are put together. -/
def assemblyLog (fs : FileSystem) (settings : Settings) (prior fresh : List Entry) :
    List Log.Event :=
  if settings.raw then []
  else
    let stats := (merge fs.contains prior fresh).2
    mergeLog fs.contains prior fresh ++
      [.deduplicated stats.kept stats.duplicates stats.missing]

/-- What is said of the database that was made. -/
def Summary.log (summary : Summary) (output : String) : List Log.Event :=
  [.saved output summary.written,
    .made output summary.traceFiles summary.records summary.entries summary.written]

/-- What is said of the database, once the traces are read. -/
def databaseLog (fs : FileSystem) (traces : String) (settings : Settings) (fresh : List Entry) :
    List Log.Event :=
  let loading := if settings.append then Database.loadLog fs settings.output else []
  loading ++
    match prior fs settings with
    | .error _ => []
    | .ok prior =>
      assemblyLog fs settings prior fresh ++
        match (generate fs traces settings).1 with
        | .error _ => []
        | .ok summary => summary.log settings.output

/-- What is said in making the database. -/
def generateLog (fs : FileSystem) (traces : String) (settings : Settings) : List Log.Event :=
  match traceFiles fs traces with
  | .error _ => []
  | .ok files =>
    collectLog fs files settings.link ++
      databaseLog fs traces settings (collect fs files settings.link).entries

end CompilationDatabase.Recorder
