/-
Tokens of scripts.

A script is cut into words, operators and redirections; comments, blanks and
line continuations are left out.  Quotes and parameters are taken apart here,
so a word is a list of parts.  `tokens?` returns `none` for a script with an
open quote or bracket, or with what is not supported.

The reader counts its steps: one for each character is enough.
-/
import CompilationDatabase.Script.Command

namespace CompilationDatabase.Script

/-- A token of a script. -/
inductive Token where
  /-- A word. -/
  | word (word : Word)
  /-- An operator between commands, or a line feed. -/
  | control (symbol : String)
  /-- A redirection, with the number of the descriptor if it is written. -/
  | redirect (descriptor : Option Char) (symbol : String)
deriving Repr

/-- The operators between commands, longer ones before their beginnings. -/
def controlSymbols : List String := ["&&", "||", ";;", "|", "&", ";", "(", ")", "\n"]

/-- The operators that redirect, longer ones before their beginnings. -/
def redirectSymbols : List String := ["<<", ">>", ">&", "<&", ">|", "<>", "<", ">"]

/-- The first of the symbols that the text begins with. -/
def symbol? (symbols : List String) (text : List Char) : Option String :=
  symbols.find? fun symbol => symbol.toList.isPrefixOf text

/-- The characters that end a word outside quotes. -/
def endsWord (c : Char) : Bool :=
  c = ' ' || c = '\t' || c = '\n' || c = ';' || c = '&' || c = '|' || c = '<' || c = '>' ||
    c = '(' || c = ')'

/-- The characters that begin a name. -/
def beginsName (c : Char) : Bool := c.isAlpha || c = '_'

/-- The characters of a name. -/
def inName (c : Char) : Bool := c.isAlphanum || c = '_'

/-- The parameters whose names are single characters. -/
def isSpecial (c : Char) : Bool :=
  c.isDigit || c = '@' || c = '*' || c = '#' || c = '?' || c = '$' || c = '!' || c = '-'

/-- Where parts are read. -/
structure Context where
  /-- Whether they are quoted. -/
  quoted : Bool
  /-- The character that ends them; without one they end with the word. -/
  closing : Option Char
deriving DecidableEq, Repr

namespace Context

/-- A word outside quotes. -/
def bare : Context := ⟨false, none⟩

/-- Double quotes. -/
def quotes : Context := ⟨true, some '"'⟩

/-- The braces around a parameter. -/
def braces (quoted : Bool) : Context := ⟨quoted, some '\x7d'⟩

/-- Whether the parts end before the character. -/
def stops (context : Context) (c : Char) : Bool :=
  match context.closing with
  | some closing => c = closing
  | none => endsWord c

/-- Whether the character stands for itself. -/
def isPlain (context : Context) (c : Char) : Bool :=
  !(context.stops c || c = '\\' || c = '"' || c = '$' || c = '\x60' ||
    (!context.quoted && c = '\''))

/-- Whether a backslash before the character is removed. -/
def escapes (context : Context) (c : Char) : Bool :=
  !context.quoted || c = '$' || c = '\x60' || c = '"' || c = '\\' ||
    context.closing = some c

end Context

/-- Splits a text at the bracket that closes one opened before it; brackets in
quotes do not count. -/
def closed? : Nat → Option Char → List Char → Option (List Char × List Char)
  | _, _, [] => none
  | depth, none, '\\' :: c :: rest =>
    (closed? depth none rest).map fun (inside, rest) => ('\\' :: c :: inside, rest)
  | depth, none, c :: rest =>
    let next := if c = '(' then depth + 1 else if c = ')' then depth - 1 else depth
    if c = ')' && depth = 0 then some ([], rest)
    else
      let quote := if c = '\'' || c = '"' then some c else none
      (closed? next quote rest).map fun (inside, rest) => (c :: inside, rest)
  | depth, some quote, c :: rest =>
    let still := if c = quote then none else some quote
    (closed? depth still rest).map fun (inside, rest) => (c :: inside, rest)

/-- Splits a text at the first of the characters, which has to be there. -/
def upTo? (closing : Char) (text : List Char) : Option (List Char × List Char) :=
  match text.dropWhile (· ≠ closing) with
  | [] => none
  | _ :: rest => some (text.takeWhile (· ≠ closing), rest)

/-- The name of a parameter at the start of a text. -/
def parameterName? : List Char → Option (String × List Char)
  | [] => none
  | c :: rest =>
    if isSpecial c then some (String.singleton c, rest)
    else if beginsName c then
      some (String.ofList (c :: rest.takeWhile inName), rest.dropWhile inName)
    else none

/-- The name of a parameter in braces: a number may have many digits. -/
def bracedName? (text : List Char) : Option (String × List Char) :=
  match text.takeWhile Char.isDigit with
  | [] => parameterName? text
  | digits => some (String.ofList digits, text.dropWhile Char.isDigit)

mutual

/-- Reads parts up to what ends them, which is taken only if it closes. -/
def parts? : Nat → Context → List Char → Option (List Part × List Char)
  | 0, _, _ => none
  | n + 1, context, text =>
    match text with
    | [] => if context.closing.isNone then some ([], []) else none
    | c :: rest =>
      if context.stops c then some ([], if context.closing.isNone then text else rest)
      else do
        let (first, rest) ← part? n context c rest
        let (others, rest) ← parts? n context rest
        return (first ++ others, rest)

/-- Reads the part that begins with the character; a line continuation is none. -/
def part? : Nat → Context → Char → List Char → Option (List Part × List Char)
  | 0, _, _, _ => none
  | n + 1, context, c, rest =>
    if c = '\\' then
      match rest with
      | [] => some ([.text true "\\"], [])
      | d :: rest =>
        if d = '\n' then some ([], rest)
        else if context.escapes d then some ([.text true (String.singleton d)], rest)
        else some ([.text true (String.ofList ['\\', d])], rest)
    else if c = '\'' && !context.quoted then do
      let (inside, rest) ← upTo? '\'' rest
      return ([.text true (String.ofList inside)], rest)
    else if c = '"' then do
      let (inside, rest) ← parts? n .quotes rest
      return (if inside.isEmpty then [.text true ""] else inside, rest)
    else if c = '\x60' then do
      let (inside, rest) ← upTo? '\x60' rest
      return ([.output context.quoted (String.ofList inside)], rest)
    else if c = '$' then do
      let (part, rest) ← dollar? n context.quoted rest
      return ([part], rest)
    else
      some ([.text context.quoted (String.ofList (c :: rest.takeWhile context.isPlain))],
        rest.dropWhile context.isPlain)

/-- Reads what follows a dollar sign. -/
def dollar? : Nat → Bool → List Char → Option (Part × List Char)
  | 0, _, _ => none
  | n + 1, quoted, text =>
    match text with
    | '\x7b' :: rest => do
      let (name, rest) ← bracedName? rest
      braced? n quoted name rest
    | '(' :: '(' :: _ => none
    | '(' :: rest => do
      let (inside, rest) ← closed? 0 none rest
      return (.output quoted (String.ofList inside), rest)
    | _ =>
      match parameterName? text with
      | some (name, rest) => some (.parameter quoted name .value true [], rest)
      | none => some (.text quoted "$", text)

/-- Reads what follows the name of a parameter in braces. -/
def braced? : Nat → Bool → String → List Char → Option (Part × List Char)
  | 0, _, _, _ => none
  | n + 1, quoted, name, text => do
    let (asked, emptyCounts, rest) ← match text with
      | '\x7d' :: _ => some (Asked.value, true, text)
      | '-' :: rest => some (.otherwise, true, rest)
      | '+' :: rest => some (.instead, true, rest)
      | ':' :: '-' :: rest => some (.otherwise, false, rest)
      | ':' :: '+' :: rest => some (.instead, false, rest)
      | _ => none
    let (words, rest) ← parts? n (.braces quoted) rest
    return (.parameter quoted name asked emptyCounts words, rest)

end

/-- A redirection at the start of a text. -/
def redirection? (text : List Char) : Option (Token × List Char) :=
  match symbol? redirectSymbols text, text with
  | some symbol, _ => some (.redirect none symbol, text.drop symbol.length)
  | none, c :: rest =>
    if c.isDigit then
      (symbol? redirectSymbols rest).map fun symbol =>
        (.redirect (some c) symbol, rest.drop symbol.length)
    else none
  | none, [] => none

/-- The tokens of a text, in at most so many steps. -/
def tokensWithin? : Nat → List Char → Option (List Token)
  | 0, _ => none
  | n + 1, text =>
    match text with
    | [] => some []
    | ' ' :: rest => tokensWithin? n rest
    | '\t' :: rest => tokensWithin? n rest
    | '\\' :: '\n' :: rest => tokensWithin? n rest
    | '#' :: rest => tokensWithin? n (rest.dropWhile (· ≠ '\n'))
    | _ =>
      match redirection? text with
      | some (token, rest) => (tokensWithin? n rest).map (token :: ·)
      | none =>
        match symbol? controlSymbols text with
        | some symbol =>
          (tokensWithin? n (text.drop symbol.length)).map (.control symbol :: ·)
        | none => do
          let (word, rest) ← parts? (2 * n + 2) .bare text
          let others ← tokensWithin? n rest
          return .word word :: others

/-- The tokens of a script. -/
def tokens? (script : String) : Option (List Token) :=
  tokensWithin? (script.length + 1) script.toList

end CompilationDatabase.Script
