/-
Collecting the entries of traces.

Each file of the trace directory is read in the order of the names; a file
that cannot be read gives nothing, and neither does a record whose invocation
cannot be classified, and the rest is collected all the same.

* `traceFiles` — the files of a trace directory;
* `collect` — the entries of trace files, with counts of what was read.
-/
import CompilationDatabase.Entry.Recorded
import CompilationDatabase.Trace.Codec

namespace CompilationDatabase.Recorder

/-- A trace directory that cannot be listed. -/
structure UnlistedTraces where
  /-- The directory. -/
  path : String
  /-- Why it cannot be listed. -/
  cause : FileError
deriving DecidableEq, Repr

/-- The text shown for the fault. -/
def UnlistedTraces.message (fault : UnlistedTraces) : String :=
  "cannot list trace directory " ++ fault.path ++ ": " ++ fault.cause.message

/-- The files directly inside the directory, in the order of their names. -/
def traceFiles (fs : FileSystem) (directory : String) : Except UnlistedTraces (List String) :=
  match fs.list directory with
  | .error cause => .error ⟨directory, cause⟩
  | .ok children =>
    let names := (children.filter (·.2.isFile)).map Prod.fst
    .ok ((names.mergeSort (· ≤ ·)).map (Path.under directory))

/-- What was found in a number of trace files. -/
structure Collection where
  /-- The entries. -/
  entries : List Entry := []
  /-- How many files could be read. -/
  traceFiles : Nat := 0
  /-- How many records they held. -/
  records : Nat := 0
deriving DecidableEq, Repr

namespace Collection

/-- Takes one more record, with its entries if its invocation can be classified. -/
def addRecord (fs : FileSystem) (found : Collection) (record : Trace.Record) : Collection :=
  match Entry.ofRecord fs record with
  | .error _ => found
  | .ok entries => { found with entries := found.entries ++ entries }

/-- Takes one more trace file, with its records if it can be read. -/
def addFile (fs : FileSystem) (found : Collection) (file : String) : Collection :=
  match Trace.load fs file with
  | .error _ => found
  | .ok records =>
    let counted := { found with
      traceFiles := found.traceFiles + 1
      records := found.records + records.length }
    records.foldl (addRecord fs) counted

end Collection

/-- What is found in the trace files, in order; entries of links only if asked. -/
def collect (fs : FileSystem) (files : List String) (link : Bool) : Collection :=
  let found := files.foldl (Collection.addFile fs) {}
  if link then found else { found with entries := found.entries.filter (!·.isLink) }

/-- What is said of a record. -/
def recordLog (fs : FileSystem) (record : Trace.Record) : List Log.Event :=
  Entry.ofRecordLog fs record ++
    match Entry.ofRecord fs record with
    | .error fault => [.recordSkipped record.pid fault.message]
    | .ok _ => []

/-- What is said of a trace file. -/
def fileLog (fs : FileSystem) (file : String) : List Log.Event :=
  match Trace.load fs file with
  | .error fault => [.fileSkipped file fault.message]
  | .ok records => Trace.loadLog fs file ++ records.flatMap (recordLog fs)

/-- What is said in collecting. -/
def collectLog (fs : FileSystem) (files : List String) (link : Bool) : List Log.Event :=
  files.flatMap (fileLog fs) ++
    if link then []
    else
      let all := (collect fs files true).entries.length
      [.linksDropped (all - (collect fs files false).entries.length)]

end CompilationDatabase.Recorder
