/-
Regular patterns.

A pattern describes a set of texts (`Pattern.Matches`).  `Pattern.accepts`
decides it by taking one character after another off the pattern: after the
character `c` of a text, what is left of the text has to match
`pattern.after c`.

The patterns of this library are anchored at both ends, so there is no
question of which match is found: a text is in the set or not.
-/

namespace CompilationDatabase.Text

/-- A set of texts, written as an expression. -/
inductive Pattern where
  /-- No text at all. -/
  | never
  /-- The empty text. -/
  | nothing
  /-- One character of the class. -/
  | one (p : Char → Bool)
  /-- A text of the first pattern followed by one of the second. -/
  | seq (a b : Pattern)
  /-- A text of either pattern. -/
  | either (a b : Pattern)
  /-- Any number of texts of the pattern, one after another. -/
  | many (a : Pattern)

namespace Pattern

/-- The texts that a pattern stands for. -/
inductive Matches : Pattern → List Char → Prop where
  | nothing : Matches nothing []
  | one {p : Char → Bool} {c : Char} (h : p c = true) : Matches (one p) [c]
  | seq {a b : Pattern} {s t : List Char} (hs : Matches a s) (ht : Matches b t) :
      Matches (seq a b) (s ++ t)
  | left {a b : Pattern} {s : List Char} (h : Matches a s) : Matches (either a b) s
  | right {a b : Pattern} {s : List Char} (h : Matches b s) : Matches (either a b) s
  | stop {a : Pattern} : Matches (many a) []
  | more {a : Pattern} {s t : List Char} (hs : Matches a s) (ht : Matches (many a) t) :
      Matches (many a) (s ++ t)

/-- Whether the empty text matches. -/
def isNullable : Pattern → Bool
  | never => false
  | nothing => true
  | one _ => false
  | seq a b => a.isNullable && b.isNullable
  | either a b => a.isNullable || b.isNullable
  | many _ => true

/-- The sequence of two patterns, in fewer words where one of them is trivial. -/
def seqSimple : Pattern → Pattern → Pattern
  | never, _ => never
  | nothing, b => b
  | a, b => seq a b

/-- The choice of two patterns, in fewer words where one of them is trivial. -/
def eitherSimple : Pattern → Pattern → Pattern
  | never, b => b
  | a, never => a
  | a, b => either a b

/-- What has to follow the character `c`. -/
def after (c : Char) : Pattern → Pattern
  | never => never
  | nothing => never
  | one p => if p c then nothing else never
  | seq a b =>
    if a.isNullable then eitherSimple (seqSimple (a.after c) b) (b.after c)
    else seqSimple (a.after c) b
  | either a b => eitherSimple (a.after c) (b.after c)
  | many a => seqSimple (a.after c) (many a)

/-- Whether the text matches the pattern. -/
def accepts (pattern : Pattern) (text : List Char) : Bool :=
  (text.foldl (fun rest c => rest.after c) pattern).isNullable

/-- The pattern of one given character. -/
def char (c : Char) : Pattern := one (· == c)

/-- The pattern of one given text. -/
def word : List Char → Pattern
  | [] => nothing
  | c :: cs => seq (char c) (word cs)

/-- The texts of the pattern, and the empty one. -/
def optional (a : Pattern) : Pattern := either a nothing

/-- One or more texts of the pattern. -/
def oneOrMore (a : Pattern) : Pattern := seq a (many a)

/-- At most `n` texts of the pattern. -/
def upTo : Nat → Pattern → Pattern
  | 0, _ => nothing
  | n + 1, a => optional (seq a (upTo n a))

/-- The texts of any of the patterns. -/
def anyOf (patterns : List Pattern) : Pattern := patterns.foldr either never

end Pattern

end CompilationDatabase.Text
