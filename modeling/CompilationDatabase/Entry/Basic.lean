/-
Entries of a compilation database.

An entry says how one file was built: where, with which command, and, for a
linked file, from which object files.  `Entry.order` is the order in which a
database lists its entries: by file, directory, command and objects, texts by
code points, and an entry without objects before one with.
-/

namespace CompilationDatabase

/-- One entry of a compilation database. -/
structure Entry where
  /-- The invocation as a command line. -/
  command : String
  /-- The working directory of the invocation. -/
  directory : String
  /-- The source file, or the file that was linked. -/
  file : String
  /-- The object files of a link; `none` for a compilation. -/
  objects : Option (List String) := none
deriving DecidableEq, Repr, Inhabited

namespace Entry

/-- Whether the entry is about a link. -/
def isLink (e : Entry) : Bool := e.objects.isSome

/-- The order of entries in a database. -/
def order (a b : Entry) : Ordering :=
  (compare a.file b.file).then <| (compare a.directory b.directory).then <|
    (compare a.command b.command).then (compare a.objects b.objects)

/-- Whether the first entry may stand before the second. -/
def le (a b : Entry) : Bool := (a.order b).isLE

/-- The entries in the order of a database. -/
def sort (entries : List Entry) : List Entry := entries.mergeSort le

end Entry

end CompilationDatabase
