/-
Fields.

A word of a script becomes any number of fields: what a parameter stands for
is split at its blanks unless it is quoted, and a field with `*` or `?` outside
quotes stands for the files whose names match it, if there are any.

* `Mark.fields` — the fields of an expanded word;
* `Field.fileNames` — what a field stands for in a file system.
-/
import CompilationDatabase.FileSystem.Lookup
import CompilationDatabase.Text.Pattern

namespace CompilationDatabase.Script

/-- The characters of a field, and whether each is quoted. -/
abbrev Field := List (Char × Bool)

/-- One step of an expanded word. -/
inductive Mark where
  /-- A character, quoted or not. -/
  | char (c : Char) (quoted : Bool)
  /-- A quoted text begins here, which may be empty. -/
  | opening
  /-- One field ends here and the next begins. -/
  | boundary
deriving DecidableEq, Repr

namespace Mark

/-- A quoted text. -/
def quoted (text : String) : List Mark := opening :: text.toList.map (char · true)

/-- A text that is not quoted and not split. -/
def plain (text : String) : List Mark := text.toList.map (char · false)

/-- A text that is split at its blanks. -/
def splitAtBlanks (text : String) : List Mark :=
  text.toList.map fun c =>
    if c = ' ' || c = '\t' || c = '\n' then boundary else char c false

/-- The character of a mark that has one. -/
def char? : Mark → Option (Char × Bool)
  | char c quoted => some (c, quoted)
  | _ => none

/-- The fields of an expanded word.  A field without characters exists only if
a quoted text begins in it. -/
def fields (marks : List Mark) : List Field :=
  ((marks.splitOn boundary).filter (!·.isEmpty)).map (·.filterMap char?)

/-- The characters of an expanded word that is not split, with blanks at its
boundaries. -/
def text (marks : List Mark) : String :=
  String.ofList <| marks.filterMap fun mark =>
    match mark with
    | char c _ => some c
    | opening => none
    | boundary => some ' '

end Mark

namespace Field

/-- The characters of a field. -/
def text (field : Field) : String := String.ofList (field.map Prod.fst)

/-- Whether the field has a character that matches others. -/
def isPattern (field : Field) : Bool :=
  field.any fun (c, quoted) => !quoted && (c = '*' || c = '?')

/-- The names that a field matches. -/
def pattern : Field → Text.Pattern
  | [] => .nothing
  | (c, quoted) :: rest =>
    let first : Text.Pattern :=
      if !quoted && c = '*' then .many (.one fun _ => true)
      else if !quoted && c = '?' then .one fun _ => true
      else .char c
    .seq first (pattern rest)

/-- Whether a name matches the field.  A dot at the start of a name is only
matched by itself. -/
def matchesName (field : Field) (name : String) : Bool :=
  field.pattern.accepts name.toList &&
    (name.toList.head? != some '.' || (field.head?.map Prod.fst) == some '.')

/-- The paths that begin with `stem` and go on as the pieces say. -/
def pathsFrom (fs : FileSystem) (stem : String) : List Field → List String
  | [] => [stem]
  | piece :: pieces =>
    let slash := if pieces.isEmpty then "" else "/"
    let names :=
      if piece.isPattern then
        let children := (fs.list (if stem.isEmpty then "." else stem)).toOption.getD []
        ("." :: ".." :: children.map Prod.fst).filter piece.matchesName
      else if fs.contains (stem ++ piece.text ++ slash) then [piece.text]
      else []
    names.flatMap fun name => pathsFrom fs (stem ++ name ++ slash) pieces

/-- The pieces between the slashes of a field. -/
def pieces : Field → List Field
  | [] => [[]]
  | (c, quoted) :: rest =>
    if c = '/' then [] :: pieces rest
    else
      match pieces rest with
      | [] => [[(c, quoted)]]
      | piece :: others => ((c, quoted) :: piece) :: others

/-- The files that the field matches, in the order of their paths; the field
itself if it matches none. -/
def fileNames (fs : FileSystem) (field : Field) : List String :=
  if field.isPattern then
    match (pathsFrom fs "" field.pieces).mergeSort (· ≤ ·) with
    | [] => [field.text]
    | names => names
  else [field.text]

end Field

end CompilationDatabase.Script
