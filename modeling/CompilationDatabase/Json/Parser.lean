/-
Reading JSON.

The grammar is the strict one: no comments, no commas too many, no raw control
characters in strings, numbers without leading zeros, and nothing but blanks
around the document.  `Json.parse?` returns `none` for any other text.

Documents nest, so the reader counts its steps; `steps` of them are enough for
any text of the length.
-/
import CompilationDatabase.Json.Basic

namespace CompilationDatabase.Json

/-- The blanks of JSON. -/
def isSpace (c : Char) : Bool :=
  c = ' ' || c = '\t' || c = '\n' || c = '\r'

/-- The text from its first character that is not blank. -/
def skipSpace (text : List Char) : List Char := text.dropWhile isSpace

/-- The value of a hexadecimal digit of either case. -/
def hexValue? (c : Char) : Option Nat :=
  if '0' ≤ c && c ≤ '9' then some (c.toNat - 48)
  else if 'a' ≤ c && c ≤ 'f' then some (c.toNat - 87)
  else if 'A' ≤ c && c ≤ 'F' then some (c.toNat - 55)
  else none

/-- The value of four hexadecimal digits. -/
def hexUnit? (a b c d : Char) : Option Nat := do
  let a ← hexValue? a
  let b ← hexValue? b
  let c ← hexValue? c
  let d ← hexValue? d
  return ((a * 16 + b) * 16 + c) * 16 + d

/-- The code point that a letter behind a backslash stands for. -/
def unescape? : Char → Option Nat
  | '"' => some 0x22
  | '\\' => some 0x5C
  | '/' => some 0x2F
  | 'b' => some 0x08
  | 'f' => some 0x0C
  | 'n' => some 0x0A
  | 'r' => some 0x0D
  | 't' => some 0x09
  | _ => none

/-- Reads a string behind its first quote: the code points and halves of
surrogate pairs up to the closing quote, and the text behind it. -/
def units? : List Char → Option (List Nat × List Char)
  | '"' :: rest => some ([], rest)
  | '\\' :: 'u' :: a :: b :: c :: d :: rest => do
    let unit ← hexUnit? a b c d
    let (units, rest) ← units? rest
    return (unit :: units, rest)
  | '\\' :: c :: rest => do
    let unit ← unescape? c
    let (units, rest) ← units? rest
    return (unit :: units, rest)
  | c :: rest =>
    if c.toNat < 0x20 then none
    else do
      let (units, rest) ← units? rest
      return (c.toNat :: units, rest)
  | [] => none

/-- Whether the unit is the first half of a surrogate pair. -/
def isLeading (unit : Nat) : Bool := 0xD800 ≤ unit && unit < 0xDC00

/-- Whether the unit is the second half of a surrogate pair. -/
def isTrailing (unit : Nat) : Bool := 0xDC00 ≤ unit && unit < 0xE000

/-- The text of the units, if no half stands without the other. -/
def charsOfUnits? : List Nat → Option (List Char)
  | [] => some []
  | [unit] => if isLeading unit || isTrailing unit then none else some [Char.ofNat unit]
  | unit :: next :: rest =>
    if isTrailing unit then none
    else if isLeading unit then
      if isTrailing next then
        let code := 0x10000 + (unit - 0xD800) * 0x400 + (next - 0xDC00)
        (charsOfUnits? rest).map (Char.ofNat code :: ·)
      else none
    else (charsOfUnits? (next :: rest)).map (Char.ofNat unit :: ·)

/-- Reads a string behind its first quote. -/
def text? (text : List Char) : Option (Option String × List Char) :=
  (units? text).map fun (units, rest) => ((charsOfUnits? units).map String.ofList, rest)

/-- Splits off one or more digits. -/
def digits? (text : List Char) : Option (List Char × List Char) :=
  match text.takeWhile Char.isDigit with
  | [] => none
  | digits => some (digits, text.dropWhile Char.isDigit)

/-- Splits off the whole part of a number: zero, or digits that do not begin
with zero. -/
def whole? (text : List Char) : Option (List Char × List Char) := do
  let (digits, rest) ← digits? text
  match digits with
  | '0' :: _ :: _ => none
  | _ => return (digits, rest)

/-- Splits off the part behind the point, if there is a point. -/
def fraction? : List Char → Option (List Char × List Char)
  | '.' :: rest => (digits? rest).map fun (digits, rest) => ('.' :: digits, rest)
  | text => some ([], text)

/-- Splits off the exponent, if there is one. -/
def exponent? : List Char → Option (List Char × List Char)
  | e :: rest =>
    if e = 'e' || e = 'E' then
      match rest with
      | sign :: more =>
        if sign = '+' || sign = '-' then
          (digits? more).map fun (digits, rest) => (e :: sign :: digits, rest)
        else (digits? rest).map fun (digits, rest) => (e :: digits, rest)
      | [] => none
    else some ([], e :: rest)
  | [] => some ([], [])

/-- Splits off a number without its sign. -/
def magnitude? (text : List Char) : Option (List Char × List Char) := do
  let (whole, rest) ← whole? text
  let (fraction, rest) ← fraction? rest
  let (exponent, rest) ← exponent? rest
  return (whole ++ fraction ++ exponent, rest)

/-- Splits off a number. -/
def number? : List Char → Option (List Char × List Char)
  | '-' :: rest => (magnitude? rest).map fun (literal, rest) => ('-' :: literal, rest)
  | text => magnitude? text

mutual

/-- Reads a document at the start of a text, in at most so many steps. -/
def value? : Nat → List Char → Option (Json × List Char)
  | 0, _ => none
  | n + 1, text =>
    match skipSpace text with
    | 'n' :: 'u' :: 'l' :: 'l' :: rest => some (null, rest)
    | 't' :: 'r' :: 'u' :: 'e' :: rest => some (bool true, rest)
    | 'f' :: 'a' :: 'l' :: 's' :: 'e' :: rest => some (bool false, rest)
    | '"' :: rest => (text? rest).map fun (text?, rest) => (string text?, rest)
    | '[' :: rest =>
      match skipSpace rest with
      | ']' :: rest => some (array [], rest)
      | rest => (items? n rest).map fun (items, rest) => (array items, rest)
    | '\x7b' :: rest =>
      match skipSpace rest with
      | '\x7d' :: rest => some (object [], rest)
      | rest => (members? n rest).map fun (members, rest) => (object members, rest)
    | text => (number? text).map fun (literal, rest) => (number (String.ofList literal), rest)

/-- Reads the items of an array up to its closing bracket. -/
def items? : Nat → List Char → Option (List Json × List Char)
  | 0, _ => none
  | n + 1, text => do
    let (item, rest) ← value? n text
    match skipSpace rest with
    | ',' :: rest =>
      let (items, rest) ← items? n rest
      return (item :: items, rest)
    | ']' :: rest => return ([item], rest)
    | _ => none

/-- Reads the members of an object up to its closing brace. -/
def members? : Nat → List Char → Option (List (Option String × Json) × List Char)
  | 0, _ => none
  | n + 1, text => do
    let '"' :: rest := skipSpace text | none
    let (key?, rest) ← text? rest
    let ':' :: rest := skipSpace rest | none
    let (value, rest) ← value? n rest
    match skipSpace rest with
    | ',' :: rest =>
      let (members, rest) ← members? n rest
      return ((key?, value) :: members, rest)
    | '\x7d' :: rest => return ([(key?, value)], rest)
    | _ => none

end

/-- A number of steps that is enough for a text of the length. -/
def steps (length : Nat) : Nat := 2 * length + 2

/-- The document that the text is. -/
def parse? (text : String) : Option Json := do
  let (document, rest) ← value? (steps text.length) text.toList
  if (skipSpace rest).isEmpty then some document else none

end CompilationDatabase.Json
