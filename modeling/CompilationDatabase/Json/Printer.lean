/-
Writing JSON.

In a string the quote, the backslash and the control characters below the
space are escaped, five of the latter by a letter and the others by four
hexadecimal digits; all else stands as it is.

* `Json.compact` — without any blanks;
* `Json.pretty` — each item and member on a line of its own, four blanks for
  each level; empty arrays and objects are closed at once.
-/
import CompilationDatabase.Json.Basic
import CompilationDatabase.Text.Hexadecimal

namespace CompilationDatabase.Json

/-- The letter that stands behind a backslash for a character. -/
def escapeLetter? : Char → Option Char
  | '"' => some '"'
  | '\\' => some '\\'
  | '\x08' => some 'b'
  | '\x0c' => some 'f'
  | '\n' => some 'n'
  | '\r' => some 'r'
  | '\t' => some 't'
  | _ => none

/-- One character of a string as it is written. -/
def escapeChar (c : Char) : List Char :=
  match escapeLetter? c with
  | some letter => ['\\', letter]
  | none => if c.toNat < 0x20 then '\\' :: 'u' :: Text.hexDigits 4 c.toNat else [c]

/-- A string with its quotes. -/
def quoted (text : String) : List Char :=
  '"' :: (text.toList.flatMap escapeChar ++ ['"'])

/-- A string that may be no text; half of a surrogate pair is written as the
replacement character. -/
def quoted? (text? : Option String) : List Char :=
  quoted (text?.getD "\ufffd")

/-- The pieces with a separator between them. -/
def separated (separator : List Char) : List (List Char) → List Char
  | [] => []
  | [piece] => piece
  | piece :: pieces => piece ++ separator ++ separated separator pieces

mutual

/-- The document without blanks. -/
def compact : Json → List Char
  | null => "null".toList
  | bool true => "true".toList
  | bool false => "false".toList
  | number literal => literal.toList
  | string text? => quoted? text?
  | array items => '[' :: (separated [','] (compactItems items) ++ [']'])
  | object members => '\x7b' :: (separated [','] (compactMembers members) ++ ['\x7d'])

/-- Each item without blanks. -/
def compactItems : List Json → List (List Char)
  | [] => []
  | item :: items => compact item :: compactItems items

/-- Each member without blanks. -/
def compactMembers : List (Option String × Json) → List (List Char)
  | [] => []
  | (key?, value) :: members => (quoted? key? ++ ':' :: compact value) :: compactMembers members

end

/-- The start of a line at a level. -/
def newline (level : Nat) : List Char := '\n' :: List.replicate (4 * level) ' '

/-- Pieces between brackets, each on a line of its own. -/
def block (level : Nat) (opening closing : Char) : List (List Char) → List Char
  | [] => [opening, closing]
  | pieces =>
    opening :: newline (level + 1) ++ separated (',' :: newline (level + 1)) pieces
      ++ newline level ++ [closing]

mutual

/-- The document with its items and members on lines of their own. -/
def pretty (level : Nat) : Json → List Char
  | null => "null".toList
  | bool true => "true".toList
  | bool false => "false".toList
  | number literal => literal.toList
  | string text? => quoted? text?
  | array items => block level '[' ']' (prettyItems (level + 1) items)
  | object members => block level '\x7b' '\x7d' (prettyMembers (level + 1) members)

/-- Each item at a level. -/
def prettyItems (level : Nat) : List Json → List (List Char)
  | [] => []
  | item :: items => pretty level item :: prettyItems level items

/-- Each member at a level. -/
def prettyMembers (level : Nat) : List (Option String × Json) → List (List Char)
  | [] => []
  | (key?, value) :: members =>
    (quoted? key? ++ ':' :: ' ' :: pretty level value) :: prettyMembers level members

end

end CompilationDatabase.Json
