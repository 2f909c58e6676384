/-
The entries that a recorded process contributes.

A linker that links gives one entry, for its output, with the object files
among its input files.  A compiler that compiles gives one entry for each
source file among them.  All other processes give none.  Paths are taken from
the directory of the process.
-/
import CompilationDatabase.CommandLine.Quoting
import CompilationDatabase.Compiler.Invocation
import CompilationDatabase.Entry.Basic
import CompilationDatabase.Path.Normal
import CompilationDatabase.Trace.Record

namespace CompilationDatabase.Entry

open Compiler

/-- What a linker writes if it is not told. -/
def defaultOutput : String := "a.out"

/-- The entry of a link. -/
def linked (record : Trace.Record) (c : Classification) : Entry where
  command := CommandLine.join record.command
  directory := record.directory
  file := Path.absolute record.directory (c.output.getD defaultOutput)
  objects := some ((c.files.filter isObjectFile).map (Path.absolute record.directory))

/-- The entry of one compiled file. -/
def compiled (record : Trace.Record) (file : String) : Entry where
  command := CommandLine.join record.command
  directory := record.directory
  file := Path.absolute record.directory file

/-- The entries of a process whose invocation is classified. -/
def ofClassification (record : Trace.Record) (c : Classification) : List Entry :=
  if isLinker record.executable && c.action == .link then [linked record c]
  else if isCompiler record.executable && c.action == .compile then
    (c.files.filter isSourceFile).map (compiled record)
  else []

/-- The entries of a process, whose invocation is read in its own directory. -/
def ofRecord (fs : FileSystem) (record : Trace.Record) : Except UnreadableList (List Entry) :=
  (classifyIn fs record.directory record.command).map (ofClassification record)

/-- What is said of a process that contributes no entries. -/
def ofClassificationLog (record : Trace.Record) (c : Classification) : List Log.Event :=
  if isLinker record.executable && c.action == .link then []
  else if isCompiler record.executable && c.action == .compile then []
  else [.noEntries record.executable c.action.name]

/-- What is said in making the entries of a process. -/
def ofRecordLog (fs : FileSystem) (record : Trace.Record) : List Log.Event :=
  classifyLog fs record.directory record.command ++
    match classifyIn fs record.directory record.command with
    | .error _ => []
    | .ok c => ofClassificationLog record c

end CompilationDatabase.Entry
