/-
JSON documents.

A document is read without losing what matters to its reader: members stand in
the order they were written, also repeated ones, and a number is kept as its
text, whatever its size.

A string can be well-formed and yet be no text: it may name half of a
surrogate pair.  Such a string is `none`; a reader that passes over it need
not mind.
-/

namespace CompilationDatabase

/-- A JSON document. -/
inductive Json where
  | null
  | bool (value : Bool)
  /-- A number as it is written. -/
  | number (literal : String)
  /-- A string, if it is a text. -/
  | string (text? : Option String)
  | array (items : List Json)
  /-- The members in order, each with its key. -/
  | object (members : List (Option String × Json))

namespace Json

/-- The document of a text. -/
def ofString (text : String) : Json := string (some text)

/-- The text of a document that is one. -/
def string? : Json → Option String
  | string text? => text?
  | _ => none

/-- The texts of a document that is an array of them. -/
def strings? : Json → Option (List String)
  | array items => items.mapM string?
  | _ => none

end Json

end CompilationDatabase
