/-
Paths as text.

A path is a string; its pieces are what stands between its slashes.  This file
holds what can be said of a path without looking at any file system: whether
it is absolute, where it leads when taken from a directory, and the extension
of the file it names.
-/

namespace CompilationDatabase.Path

/-- What stands between the slashes of a path, empty pieces included. -/
def pieces (path : String) : List String :=
  (path.toList.splitOn '/').map String.ofList

/-- Whether the path starts at the root. -/
def isAbsolute (path : String) : Bool :=
  path.toList.head? == some '/'

/-- The path taken from a directory: itself if absolute, else the directory
followed by the path, with a slash between unless one is there. -/
def under (directory path : String) : String :=
  if isAbsolute path || directory.isEmpty then path
  else if directory.toList.getLast? == some '/' then directory ++ path
  else directory ++ "/" ++ path

/-- Whether a piece stays in the directory it is met in. -/
def isStay (piece : String) : Bool :=
  piece == "" || piece == "."

/-- The name of the file or directory that the path leads to, if the path says
it: empty and dot pieces at its end are passed over, and a path that ends by
going up names nothing. -/
def fileName? (path : String) : Option String :=
  match ((pieces path).filter (!isStay ·)).getLast? with
  | some name => if name = ".." then none else some name
  | none => none

/-- The part of a name after its last dot.  A dot at the start of a name
begins no extension. -/
def nameExtension? (name : List Char) : Option (List Char) :=
  match name.reverse.dropWhile (· ≠ '.') with
  | [] => none
  | [_] => none
  | _ => some (name.reverse.takeWhile (· ≠ '.')).reverse

/-- The extension of the file that the path names. -/
def extension? (path : String) : Option String :=
  (fileName? path).bind fun name => (nameExtension? name.toList).map String.ofList

end CompilationDatabase.Path
