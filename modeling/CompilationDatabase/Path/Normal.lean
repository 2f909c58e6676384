/-
Lexical normal form of paths.

`normalize` drops empty and dot pieces and lets `..` cancel the name before
it, without asking the file system: at the root `..` is dropped, at the start
of a relative path it is kept, and a path of which nothing is left is `.`.
`absolute` does the same to a path taken from a directory.
-/
import CompilationDatabase.Path.Basic

namespace CompilationDatabase.Path

/-- Takes one more piece onto the names found so far, the latest first. -/
def collapse (rooted : Bool) (names : List String) (piece : String) : List String :=
  if isStay piece then names
  else if piece = ".." then
    match names with
    | [] => if rooted then [] else [".."]
    | last :: rest => if last = ".." then ".." :: names else rest
  else piece :: names

/-- The names that are left of a path, in order. -/
def normalNames (path : String) : List String :=
  ((pieces path).foldl (collapse (isAbsolute path)) []).reverse

/-- The path made of the names, from the root or not. -/
def render (rooted : Bool) (names : List String) : String :=
  if rooted then "/" ++ "/".intercalate names
  else if names.isEmpty then "."
  else "/".intercalate names

/-- The path without `.`, `..` and repeated slashes, as far as its text tells. -/
def normalize (path : String) : String :=
  render (isAbsolute path) (normalNames path)

/-- The normal form of a path taken from a directory. -/
def absolute (directory path : String) : String :=
  normalize (under directory path)

end CompilationDatabase.Path
