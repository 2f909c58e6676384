/-
Words of a command line.

A recorded command is one line of text; `split` recovers the arguments by
quote removal and field splitting alone: no variables, globs or operators.
The reader is a machine that takes one character at a time (`Reader.step`),
so that reading a text in two pieces is reading one after the other.

* Blanks are space, tab, line feed and carriage return.
* A line continuation (backslash, then line feed or carriage return and line
  feed) is skipped, between words and inside them.
* Single quotes keep all up to the next one.  In double quotes a backslash
  escapes `\`, `"`, `$` and a backquote, and removes a line feed; before any
  other character it stands for itself.
* Elsewhere a backslash escapes the next character, and stands for itself at
  the end of the text.

Adjacent parts join into one word.  The only fault is a quote that is never
closed.
-/
import CompilationDatabase.CommandLine.Span

namespace CompilationDatabase.CommandLine

/-- A word after quote removal, with the range of the text that spells it. -/
structure Word where
  /-- The characters of the word. -/
  value : String
  /-- Where the word is spelled. -/
  span : Span
deriving DecidableEq, Repr

/-- The two kinds of quotes. -/
inductive Quote where
  | single
  | double
deriving DecidableEq, Repr

/-- A quote that is opened and never closed; the span runs from the quote to
the end of the text. -/
structure UnclosedQuote where
  /-- The kind of the quote. -/
  quote : Quote
  /-- From the quote to the end of the text. -/
  span : Span
deriving DecidableEq, Repr

/-- The text shown for the fault. -/
def UnclosedQuote.message (fault : UnclosedQuote) : String :=
  let kind := match fault.quote with
    | .single => "single"
    | .double => "double"
  "unterminated " ++ kind ++ " quote at position " ++ toString fault.span.start

/-- The characters that separate words. -/
def isSeparator (c : Char) : Bool :=
  c = ' ' || c = '\t' || c = '\n' || c = '\r'

/-- The characters that a backslash escapes inside double quotes. -/
def isEscapable (c : Char) : Bool :=
  c = '\\' || c = '"' || c = '$' || c = '\x60'

/-- What the reader has to remember of the characters just read.  Offsets are
those of the character that opened the mode. -/
inductive Mode where
  /-- Outside quotes. -/
  | plain
  /-- After a backslash outside quotes. -/
  | escape (start : Nat)
  /-- After a backslash and a carriage return outside quotes. -/
  | escapeReturn (start : Nat)
  /-- Inside single quotes. -/
  | single (start : Nat)
  /-- Inside double quotes. -/
  | double (start : Nat)
  /-- After a backslash inside double quotes. -/
  | doubleEscape (start : Nat)
deriving DecidableEq, Repr

/-- The state of reading a command line. -/
structure Reader where
  /-- The number of bytes read. -/
  offset : Nat := 0
  /-- The words completed. -/
  words : Array Word := #[]
  /-- The word that is being read, if one has begun. -/
  current : Option Word := none
  /-- The mode. -/
  mode : Mode := .plain
deriving DecidableEq, Repr

namespace Reader

/-- The word being read, or one that begins at `start`. -/
def begun (r : Reader) (start : Nat) : Word :=
  r.current.getD ⟨"", ⟨start, start⟩⟩

/-- Puts a character into the word, which begins at `start` if none has begun
and reaches to `stop`. -/
def put (r : Reader) (start : Nat) (c : Char) (stop : Nat) : Reader :=
  let word := r.begun start
  { r with current := some ⟨word.value.push c, ⟨word.span.start, stop⟩⟩ }

/-- Extends the word, which begins at `start` if none has begun, up to `stop`. -/
def reach (r : Reader) (start stop : Nat) : Reader :=
  let word := r.begun start
  { r with current := some ⟨word.value, ⟨word.span.start, stop⟩⟩ }

/-- Completes the word being read, if any. -/
def flush (r : Reader) : Reader :=
  { r with words := r.words ++ r.current.toArray, current := none }

/-- Reads a character outside quotes; `offset` is where it stands. -/
def stepPlain (r : Reader) (offset : Nat) (c : Char) : Reader :=
  if isSeparator c then r.flush
  else if c = '\'' then { r with mode := .single offset }
  else if c = '"' then { r with mode := .double offset }
  else if c = '\\' then { r with mode := .escape offset }
  else r.put offset c (offset + c.utf8Size)

/-- Reads one character. -/
def step (r : Reader) (c : Char) : Reader :=
  let here := r.offset
  let next := r.offset + c.utf8Size
  let r := { r with offset := next }
  match r.mode with
  | .plain => r.stepPlain here c
  | .escape start =>
    if c = '\n' then { r with mode := .plain }
    else if c = '\r' then { r with mode := .escapeReturn start }
    else { r.put start c next with mode := .plain }
  | .escapeReturn start =>
    if c = '\n' then { r with mode := .plain }
    else { r.put start '\r' here with mode := .plain }.stepPlain here c
  | .single start =>
    if c = '\'' then { r.reach start next with mode := .plain }
    else r.put start c next
  | .double start =>
    if c = '"' then { r.reach start next with mode := .plain }
    else if c = '\\' then { r with mode := .doubleEscape start }
    else r.put start c next
  | .doubleEscape start =>
    if isEscapable c then { r.put start c next with mode := .double start }
    else if c = '\n' then { r with mode := .double start }
    else { (r.put start '\\' here).put start c next with mode := .double start }

/-- Reads a text from left to right. -/
def run (r : Reader) (text : List Char) : Reader :=
  text.foldl step r

/-- The words at the end of the text. -/
def finish (r : Reader) : Except UnclosedQuote (List Word) :=
  match r.mode with
  | .plain => .ok r.flush.words.toList
  | .escape start => .ok (r.put start '\\' r.offset).flush.words.toList
  | .escapeReturn start => .ok (r.put start '\r' r.offset).flush.words.toList
  | .single start => .error ⟨.single, ⟨start, r.offset⟩⟩
  | .double start => .error ⟨.double, ⟨start, r.offset⟩⟩
  | .doubleEscape start => .error ⟨.double, ⟨start, r.offset⟩⟩

theorem run_append (r : Reader) (a b : List Char) : r.run (a ++ b) = (r.run a).run b :=
  List.foldl_append

end Reader

/-- The words of a command line, each with its span. -/
def tokenize (text : String) : Except UnclosedQuote (List Word) :=
  (({} : Reader).run text.toList).finish

/-- The values of the words of a command line. -/
def split (text : String) : Except UnclosedQuote (List String) :=
  (tokenize text).map fun words => words.map (·.value)

end CompilationDatabase.CommandLine
