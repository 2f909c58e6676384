/-
Classes of characters.

A class is a list of closed ranges of code points, ascending and apart.  Two
classes are small enough to stand here; the two large ones have tables of
their own (`Text/DecimalDigit.lean`, `Text/WordCharacter.lean`).

* `isAsciiBlank` — space, tab, line feed, form feed, carriage return;
* `isBlank` — the characters with the Unicode property White_Space.

`trim` removes the characters of a class from both ends of a text.
-/

namespace CompilationDatabase.Text

/-- Whether a code point lies in one of the ranges. -/
def inRanges (ranges : List (Nat × Nat)) (code : Nat) : Bool :=
  ranges.any fun range => range.1 ≤ code && code ≤ range.2

/-- The blanks of ASCII: space, tab, line feed, form feed and carriage return. -/
def isAsciiBlank (c : Char) : Bool :=
  c = ' ' || c = '\t' || c = '\n' || c = '\x0c' || c = '\r'

/-- The 25 code points with the Unicode property White_Space. -/
def blankRanges : List (Nat × Nat) :=
  [(0x09, 0x0D), (0x20, 0x20), (0x85, 0x85), (0xA0, 0xA0), (0x1680, 0x1680), (0x2000, 0x200A),
    (0x2028, 0x2029), (0x202F, 0x202F), (0x205F, 0x205F), (0x3000, 0x3000)]

/-- The blanks of Unicode. -/
def isBlank (c : Char) : Bool :=
  inRanges blankRanges c.toNat

/-- The text without the characters of the class at its start. -/
def trimStart (p : Char → Bool) (text : List Char) : List Char :=
  text.dropWhile p

/-- The text without the characters of the class at its end. -/
def trimEnd (p : Char → Bool) (text : List Char) : List Char :=
  (text.reverse.dropWhile p).reverse

/-- The text without the characters of the class at either end. -/
def trim (p : Char → Bool) (text : List Char) : List Char :=
  trimEnd p (trimStart p text)

end CompilationDatabase.Text
