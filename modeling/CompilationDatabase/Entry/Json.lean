/-
Entries as JSON.

An entry is written as an object with its members in alphabetical order; the
objects are left out if there are none.  On reading, members may stand in any
order, unknown ones are passed over and known ones may not be repeated.  An
array of the values in the same order is read as well, and its last value may
be left off.
-/
import CompilationDatabase.Entry.Basic
import CompilationDatabase.Json.Parser
import CompilationDatabase.Json.Printer

namespace CompilationDatabase

namespace Entry

/-- The document of an entry. -/
def toJson (e : Entry) : Json :=
  let objects := match e.objects with
    | some objects => [(some "objects", Json.array (objects.map Json.ofString))]
    | none => []
  .object <|
    [(some "command", Json.ofString e.command), (some "directory", Json.ofString e.directory),
      (some "file", Json.ofString e.file)] ++ objects

/-- The objects of an entry: a list of texts, or nothing. -/
def objectsOfJson? : Json → Option (Option (List String))
  | .null => some none
  | document => (document.strings?).map some

/-- The entry whose values stand in order. -/
def ofItems? : List Json → Option Entry
  | [command, directory, file] => do
    return ⟨← command.string?, ← directory.string?, ← file.string?, none⟩
  | [command, directory, file, objects] => do
    return ⟨← command.string?, ← directory.string?, ← file.string?, ← objectsOfJson? objects⟩
  | _ => none

/-- The values met under one key. -/
def valuesOf (key : String) (members : List (Option String × Json)) : List Json :=
  (members.filter (·.1 = some key)).map Prod.snd

/-- The text under a key that has to be there once. -/
def member? (key : String) (members : List (Option String × Json)) : Option String :=
  match valuesOf key members with
  | [value] => value.string?
  | _ => none

/-- The entry of the members. -/
def ofMembers? (members : List (Option String × Json)) : Option Entry := do
  -- a key that is no text cannot be compared with the known ones
  guard (members.all (·.1.isSome))
  let command ← member? "command" members
  let directory ← member? "directory" members
  let file ← member? "file" members
  let objects ← match valuesOf "objects" members with
    | [] => some none
    | [value] => objectsOfJson? value
    | _ => none
  return ⟨command, directory, file, objects⟩

/-- The entry that the document is. -/
def ofJson? : Json → Option Entry
  | .array items => ofItems? items
  | .object members => ofMembers? members
  | _ => none

end Entry

/-- The text of a database with the entries, in their order. -/
def renderEntries (entries : List Entry) : String :=
  String.ofList (Json.pretty 0 (.array (entries.map Entry.toJson)) ++ ['\n'])

/-- The entries of the text of a database. -/
def parseEntries? (text : String) : Option (List Entry) := do
  match ← Json.parse? text with
  | .array items => items.mapM Entry.ofJson?
  | _ => none

end CompilationDatabase
