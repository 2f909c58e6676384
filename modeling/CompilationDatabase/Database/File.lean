/-
The file of a compilation database.

A database is a text file: a JSON array of entries in their order, indented by
four blanks, with a line feed at the end.  A file that does not exist is an
empty database.  A database is written beside its place and then moved there,
so that its file is never half written; if that fails, nothing is left behind.
What is said of a text that is no list of entries depends on how the text was
read, and is a parameter (`refusal`).

* `load` — the entries of a database;
* `save` — the file system with the entries written, or as it was before.
-/
import CompilationDatabase.Entry.Json
import CompilationDatabase.FileSystem.Change
import CompilationDatabase.Log.Event

namespace CompilationDatabase.Database

/-- Why a database cannot be read or written. -/
inductive Fault where
  /-- The file cannot be read. -/
  | unreadable (path : String) (cause : FileError)
  /-- The file cannot be written. -/
  | unwritable (path : String) (cause : FileError)
  /-- The text of the file is not a list of entries. -/
  | malformed (path content : String)
deriving DecidableEq, Repr

namespace Fault

/-- What went wrong with which file. -/
def heading : Fault → String
  | unreadable path _ => "cannot read " ++ path
  | unwritable path _ => "cannot write " ++ path
  | malformed path _ => "malformed compilation database " ++ path

/-- Why it went wrong, in the words of the system or in those that a text is refused
with. -/
def cause (refusal : String → String) : Fault → String
  | unreadable _ cause => cause.message
  | unwritable _ cause => cause.message
  | malformed _ content => refusal content

/-- The text shown for the fault, which has its cause. -/
def message (refusal : String → String) (fault : Fault) : String :=
  fault.heading ++ ": " ++ fault.cause refusal

end Fault

/-- The entries of the database at the path. -/
def load (fs : FileSystem) (path : String) : Except Fault (List Entry) :=
  match fs.readText path with
  | .error .noSuchFile => .ok []
  | .error cause => .error (.unreadable path cause)
  | .ok text =>
    match parseEntries? text with
    | some entries => .ok entries
    | none => .error (.malformed path text)

/-- What is said in loading the database. -/
def loadLog (fs : FileSystem) (path : String) : List Log.Event :=
  match fs.readText path with
  | .error .noSuchFile => [.noDatabase path]
  | .error _ => []
  | .ok text =>
    match parseEntries? text with
    | some entries => [.loaded path entries.length]
    | none => []

/-- The path that a database is written to before it is moved to its place. -/
def temporaryPath (path : String) : String := path ++ ".tmp"

/-- The bytes of a database with the entries. -/
def contentOf (entries : List Entry) : ByteArray :=
  (renderEntries (Entry.sort entries)).toUTF8

/-- Writes the entries to the path, or leaves the path as it is. -/
def save (fs : FileSystem) (path : String) (entries : List Entry) :
    Except Fault Unit × FileSystem :=
  let temporary := temporaryPath path
  match fs.write temporary (contentOf entries) with
  | .error cause => (.error (.unwritable path cause), (fs.remove temporary).toOption.getD fs)
  | .ok written =>
    match written.rename temporary path with
    | .error cause =>
      (.error (.unwritable path cause), (written.remove temporary).toOption.getD written)
    | .ok moved => (.ok (), moved)

end CompilationDatabase.Database
