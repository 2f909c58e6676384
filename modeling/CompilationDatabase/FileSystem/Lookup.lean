/-
Following paths.

A path is followed piece by piece: each piece needs a directory to be met in,
an empty or dot piece stays there, `..` goes up (at the root it stays), and a
name must exist.  A slash at the end is an empty last piece, so it asks for a
directory.

* `FileSystem.resolve` — the location a path leads to;
* `FileSystem.read`, `FileSystem.readText` — the content of a file;
* `FileSystem.list` — what is directly inside a directory;
* `FileSystem.contains` — whether a path leads anywhere.
-/
import CompilationDatabase.FileSystem.Basic
import CompilationDatabase.Path.Basic
import CompilationDatabase.Text.Utf8

namespace CompilationDatabase.FileSystem

/-- The greatest length of a name, in bytes. -/
def maxNameLength : Nat := 255

/-- The greatest length of a path, in bytes. -/
def maxPathLength : Nat := 4095

/-- Refuses paths that are never followed, and says where the others start. -/
def start (fs : FileSystem) (path : String) : Except FileError Location :=
  if path.toList.contains '\x00' then .error .nulInPath
  else if path.isEmpty then .error .noSuchFile
  else if path.utf8ByteSize > maxPathLength then .error .nameTooLong
  else .ok (if Path.isAbsolute path then [] else fs.workingDirectory)

/-- Follows one piece of a path. -/
def step (fs : FileSystem) (location : Location) (piece : String) : Except FileError Location :=
  match fs.node? location with
  | none => .error .noSuchFile
  | some (.file _) => .error .notDirectory
  | some .directory =>
    if Path.isStay piece then .ok location
    else if piece = ".." then .ok location.dropLast
    else if piece.utf8ByteSize > maxNameLength then .error .nameTooLong
    else if (fs.node? (location ++ [piece])).isSome then .ok (location ++ [piece])
    else .error .noSuchFile

/-- Follows the pieces of a path from a location. -/
def walk (fs : FileSystem) (location : Location) (pieces : List String) :
    Except FileError Location :=
  pieces.foldlM fs.step location

/-- The location that a path leads to. -/
def resolve (fs : FileSystem) (path : String) : Except FileError Location :=
  (fs.start path).bind fun location => fs.walk location (Path.pieces path)

/-- The node that a path leads to. -/
def lookup (fs : FileSystem) (path : String) : Except FileError Node :=
  (fs.resolve path).bind fun location =>
    match fs.node? location with
    | some node => .ok node
    | none => .error .noSuchFile

/-- Whether the path leads to a file or a directory. -/
def contains (fs : FileSystem) (path : String) : Bool :=
  match fs.lookup path with
  | .ok _ => true
  | .error _ => false

/-- The bytes of the file that a path leads to. -/
def read (fs : FileSystem) (path : String) : Except FileError ByteArray :=
  (fs.lookup path).bind fun node =>
    match node with
    | .file content => .ok content
    | .directory => .error .isDirectory

/-- The text of the file that a path leads to. -/
def readText (fs : FileSystem) (path : String) : Except FileError String :=
  (fs.read path).bind fun content =>
    match String.fromUTF8? content with
    | some text => .ok text
    | none => .error .notText

theorem readText_of_read {fs : FileSystem} {path text : String}
    (h : fs.read path = .ok text.toUTF8) : fs.readText path = .ok text := by
  rw [readText, h]
  simp only [Except.bind, Text.fromUTF8?_toUTF8]

/-- The names and nodes inside the directory that a path leads to. -/
def list (fs : FileSystem) (path : String) : Except FileError (List (String × Node)) :=
  (fs.resolve path).bind fun location =>
    match fs.node? location with
    | some .directory => .ok (fs.children location)
    | some (.file _) => .error .notDirectory
    | none => .error .noSuchFile

end CompilationDatabase.FileSystem
