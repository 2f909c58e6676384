/-
Changing files.

An operation that may create or remove a name splits its path into the
directory that holds the name, and the name (`FileSystem.target`).  The
operations return the changed file system, or why nothing was changed.

* `FileSystem.write` — puts a file where the path leads;
* `FileSystem.rename` — moves a file onto another path;
* `FileSystem.remove` — removes a file;
* `FileSystem.makeDirectory`, `FileSystem.makeDirectories` — make a directory,
  the latter with all that leads to it.
-/
import CompilationDatabase.FileSystem.Lookup

namespace CompilationDatabase

/-- The place that the last name of a path stands for. -/
structure Target where
  /-- The directory that holds the name. -/
  directory : Location
  /-- The name; it is empty if the path is the root. -/
  name : String
  /-- Whether slashes follow the name. -/
  trailingSlash : Bool
deriving DecidableEq, Repr

namespace Target

/-- The location of the name. -/
def location (t : Target) : Location := t.directory ++ [t.name]

/-- Whether the path ends in no name of its own: in the root, `.` or `..`. -/
def isSpecial (t : Target) : Bool :=
  Path.isStay t.name || t.name == ".."

/-- Whether the name is longer than a name may be. -/
def isTooLong (t : Target) : Bool :=
  t.name.utf8ByteSize > FileSystem.maxNameLength

end Target

namespace FileSystem

/-- The directory and the name that a path ends in. -/
def target (fs : FileSystem) (path : String) : Except FileError Target :=
  (fs.start path).bind fun origin =>
    let pieces := Path.pieces path
    let stem := (pieces.reverse.dropWhile (· == "")).reverse
    -- the empty piece makes sure that what holds the name is a directory
    (fs.walk origin (stem.dropLast ++ [""])).map fun directory =>
      ⟨directory, stem.getLast?.getD "", pieces.length != stem.length⟩

/-- The file system after a file with the content was written at the path. -/
def write (fs : FileSystem) (path : String) (content : ByteArray) : Except FileError FileSystem :=
  (fs.target path).bind fun t =>
    if t.isSpecial || t.trailingSlash then .error .isDirectory
    else if t.isTooLong then .error .nameTooLong
    else if fs.node? t.location = some .directory then .error .isDirectory
    else .ok (fs.insert t.location (.file content))

/-- The file system after the file at the old path was moved to the new one,
in place of any file there. -/
def rename (fs : FileSystem) (old new : String) : Except FileError FileSystem :=
  (fs.target old).bind fun source => (fs.target new).bind fun goal =>
    if source.isSpecial || goal.isSpecial then .error .busy
    else if source.isTooLong then .error .nameTooLong
    else match fs.node? source.location with
      | none => .error .noSuchFile
      | some .directory => .error .isDirectory
      | some (.file content) =>
        if source.trailingSlash || goal.trailingSlash then .error .notDirectory
        else if goal.isTooLong then .error .nameTooLong
        else if fs.node? goal.location = some .directory then .error .isDirectory
        else .ok ((fs.erase source.location).insert goal.location (.file content))

/-- The file system after the file at the path was removed. -/
def remove (fs : FileSystem) (path : String) : Except FileError FileSystem :=
  (fs.target path).bind fun t =>
    if t.isSpecial then .error .isDirectory
    else if t.isTooLong then .error .nameTooLong
    else match fs.node? t.location with
      | none => .error .noSuchFile
      | some .directory => .error .isDirectory
      | some (.file _) =>
        if t.trailingSlash then .error .notDirectory else .ok (fs.erase t.location)

/-- The file system after a directory was made at the path. -/
def makeDirectory (fs : FileSystem) (path : String) : Except FileError FileSystem :=
  (fs.target path).bind fun t =>
    if t.isSpecial then .error .alreadyExists
    else if t.isTooLong then .error .nameTooLong
    else match fs.node? t.location with
      | some _ => .error .alreadyExists
      | none => .ok (fs.insert t.location .directory)

/-- Follows one piece of a path, making a directory where the name is new. -/
def stepMaking (fs : FileSystem) (location : Location) (piece : String) :
    Except FileError (FileSystem × Location) :=
  match fs.step location piece with
  | .ok next => .ok (fs, next)
  | .error .noSuchFile =>
    .ok (fs.insert (location ++ [piece]) .directory, location ++ [piece])
  | .error e => .error e

/-- The file system after the directories along the pieces were made. -/
def makeAlong (fs : FileSystem) (location : Location) (pieces : List String) :
    Except FileError FileSystem :=
  let follow (state : FileSystem × Location) (piece : String) := state.1.stepMaking state.2 piece
  (pieces.foldlM follow (fs, location)).map Prod.fst

/-- The file system after the directory at the path and all that lead to it
were made, where they did not exist. -/
def makeDirectories (fs : FileSystem) (path : String) : Except FileError FileSystem :=
  (fs.start path).bind fun origin => fs.makeAlong origin (Path.pieces path ++ [""])

/-- The file system after a file was written at the path, and before it the
directories that lead to it were made. -/
def writeWithParents (fs : FileSystem) (path : String) (content : ByteArray) :
    Except FileError FileSystem :=
  (fs.start path).bind fun origin =>
    let stem := ((Path.pieces path).reverse.dropWhile (· == "")).reverse
    (fs.makeAlong origin stem.dropLast).bind fun fs => fs.write path content

end FileSystem

end CompilationDatabase
