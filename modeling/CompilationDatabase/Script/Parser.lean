/-
Reading scripts.

Tokens are put together by recursive descent.  A word is a keyword only where
a command may begin.  `parse?` returns `none` for a text that is no script.

The reader counts its steps; a few for each token are enough.
-/
import CompilationDatabase.Script.Token

namespace CompilationDatabase.Script

/-- The words that begin, divide or end commands. -/
def keywords : List String :=
  ["if", "then", "elif", "else", "fi", "while", "until", "for", "in", "do", "done", "!", "\x7b",
    "\x7d"]

/-- The keywords that end a list of commands. -/
def closers : List String := ["then", "elif", "else", "fi", "do", "done", "\x7d"]

/-- The keyword that the token is. -/
def keyword? : Token → Option String
  | .word [.text false characters] => if keywords.contains characters then some characters else none
  | _ => none

/-- Whether the token is the operator. -/
def isControl (symbol : String) : Token → Bool
  | .control other => other == symbol
  | _ => false

/-- The tokens without the line feeds before them. -/
def skipLines (tokens : List Token) : List Token := tokens.dropWhile (isControl "\n")

/-- Whether a list of commands ends before the tokens. -/
def closes : List Token → Bool
  | [] => true
  | token :: _ =>
    isControl ")" token ||
      match keyword? token with
      | some word => closers.contains word
      | none => false

/-- The tokens behind a keyword, which has to come first. -/
def expect? (word : String) : List Token → Option (List Token)
  | token :: rest => if keyword? token = some word then some rest else none
  | [] => none

/-- The descriptor that a redirection is about. -/
def descriptor? : Option Char → Option Descriptor
  | none => some .output
  | some '1' => some .output
  | some '2' => some .errors
  | some _ => none

/-- The redirection of a token and the word behind it. -/
def redirectionOf? (descriptor : Option Char) (symbol : String) (target : Word) :
    Option Redirection :=
  match symbol with
  | "<" => if descriptor.all (· == '0') then some (.input target) else none
  | ">" => (descriptor? descriptor).map (.file · target false)
  | ">|" => (descriptor? descriptor).map (.file · target false)
  | ">>" => (descriptor? descriptor).map (.file · target true)
  | ">&" =>
    match target with
    | [.text _ "1"] => (descriptor? descriptor).map (.duplicate · .output)
    | [.text _ "2"] => (descriptor? descriptor).map (.duplicate · .errors)
    | _ => none
  | _ => none

/-- Reads the redirections at the start of the tokens. -/
def redirections? : List Token → Option (List Redirection × List Token)
  | .redirect descriptor symbol :: .word target :: rest => do
    let first ← redirectionOf? descriptor symbol target
    let (others, rest) ← redirections? rest
    return (first :: others, rest)
  | tokens => some ([], tokens)

/-- The variable and the value that a word sets, if it sets one. -/
def assignment? : Word → Option (String × Word)
  | .text false characters :: rest =>
    let name := characters.toList.takeWhile inName
    match characters.toList.dropWhile inName with
    | '=' :: value =>
      if (name.head?.map beginsName).getD false then
        let first := if value.isEmpty then [] else [Part.text false (String.ofList value)]
        some (String.ofList name, first ++ rest)
      else none
    | _ => none
  | _ => none

/-- Reads the words and redirections at the start of the tokens. -/
def items? : List Token → Option (List Word × List Redirection × List Token)
  | .word word :: rest => do
    let (words, redirections, rest) ← items? rest
    return (word :: words, redirections, rest)
  | .redirect descriptor symbol :: .word target :: rest => do
    let first ← redirectionOf? descriptor symbol target
    let (words, redirections, rest) ← items? rest
    return (words, first :: redirections, rest)
  | .redirect .. :: _ => none
  | tokens => some ([], [], tokens)

/-- Reads a simple command, which is not empty.  The words in front that set
variables are told apart from the others. -/
def simple? (tokens : List Token) : Option (Command × List Token) := do
  let (words, redirections, rest) ← items? tokens
  if words.isEmpty && redirections.isEmpty then none
  else
    let assignments := ((words.map assignment?).takeWhile Option.isSome).filterMap id
    return (.simple assignments (words.drop assignments.length) redirections, rest)

/-- Reads the items of a loop over words, up to the keyword `do`. -/
def loopItems? : List Token → Option (Option (List Word) × List Token)
  | tokens =>
    match skipLines tokens with
    | .word [.text false "in"] :: rest =>
      let (words, _, rest) := (items? rest).getD ([], [], rest)
      match rest with
      | .control ";" :: rest => (expect? "do" (skipLines rest)).map (some words, ·)
      | .control "\n" :: rest => (expect? "do" (skipLines rest)).map (some words, ·)
      | _ => none
    | .control ";" :: rest => (expect? "do" (skipLines rest)).map (none, ·)
    | rest => (expect? "do" rest).map (none, ·)

/-- Reads the redirections behind a command that is no simple one. -/
def withRedirections (body : Command) (tokens : List Token) : Option (Command × List Token) :=
  (redirections? tokens).map fun (redirections, rest) =>
    (if redirections.isEmpty then body else .redirected body redirections, rest)

mutual

/-- Reads commands up to what closes their list. -/
def commands? : Nat → List Token → Option (Command × List Token)
  | 0, _ => none
  | n + 1, tokens =>
    let tokens := skipLines tokens
    if closes tokens then some (.nothing, tokens)
    else do
      let (first, rest) ← pipeline? n tokens
      let (first, rest) ← chain? n first rest
      match rest with
      | .control symbol :: more =>
        if symbol = ";" || symbol = "&" || symbol = "\n" then
          let (others, rest) ← commands? n more
          return (.sequence first others, rest)
        else if symbol = ")" then return (first, rest)
        else none
      | _ => if closes rest then return (first, rest) else none

/-- Reads what follows a command after `&&` and `||`. -/
def chain? : Nat → Command → List Token → Option (Command × List Token)
  | 0, _, _ => none
  | n + 1, first, tokens =>
    match tokens with
    | .control "&&" :: rest => do
      let (second, rest) ← pipeline? n (skipLines rest)
      chain? n (.both first second) rest
    | .control "||" :: rest => do
      let (second, rest) ← pipeline? n (skipLines rest)
      chain? n (.either first second) rest
    | _ => some (first, tokens)

/-- Reads commands with `|` between them, possibly negated. -/
def pipeline? : Nat → List Token → Option (Command × List Token)
  | 0, _ => none
  | n + 1, tokens =>
    match expect? "!" tokens with
    | some rest => (pipes? n rest).map fun (command, rest) => (.negated command, rest)
    | none => pipes? n tokens

/-- Reads commands with `|` between them. -/
def pipes? : Nat → List Token → Option (Command × List Token)
  | 0, _ => none
  | n + 1, tokens => do
    let (first, rest) ← command? n tokens
    match rest with
    | .control "|" :: rest =>
      let (second, rest) ← pipes? n (skipLines rest)
      return (.pipe first second, rest)
    | _ => return (first, rest)

/-- Reads one command. -/
def command? : Nat → List Token → Option (Command × List Token)
  | 0, _ => none
  | n + 1, tokens =>
    match tokens with
    | [] => none
    | token :: rest =>
      if isControl "(" token then do
        let (body, rest) ← commands? n rest
        match rest with
        | .control ")" :: rest => withRedirections (.subshell body) rest
        | _ => none
      else
        match keyword? token with
        | none => simple? tokens
        | some "if" => do
          let (command, rest) ← branches? n rest
          withRedirections command rest
        | some "while" => loop? n true rest
        | some "until" => loop? n false rest
        | some "for" =>
          match rest with
          | .word [.text false name] :: rest => do
            let (items, rest) ← loopItems? rest
            let (body, rest) ← commands? n rest
            withRedirections (.each name items body) (← expect? "done" rest)
          | _ => none
        | some "\x7b" => do
          let (body, rest) ← commands? n rest
          withRedirections body (← expect? "\x7d" rest)
        | some "in" => simple? tokens
        | some _ => none

/-- Reads a loop behind its first keyword. -/
def loop? : Nat → Bool → List Token → Option (Command × List Token)
  | 0, _, _ => none
  | n + 1, whileTrue, tokens => do
    let (test, rest) ← commands? n tokens
    let (body, rest) ← commands? n (← expect? "do" rest)
    withRedirections (.loop whileTrue test body) (← expect? "done" rest)

/-- Reads a test and what depends on it. -/
def branches? : Nat → List Token → Option (Command × List Token)
  | 0, _ => none
  | n + 1, tokens => do
    let (test, rest) ← commands? n tokens
    let (whenTrue, rest) ← commands? n (← expect? "then" rest)
    match rest with
    | [] => none
    | token :: rest =>
      match keyword? token with
      | some "fi" => return (.conditional test whenTrue .nothing, rest)
      | some "elif" =>
        let (whenFalse, rest) ← branches? n rest
        return (.conditional test whenTrue whenFalse, rest)
      | some "else" =>
        let (whenFalse, rest) ← commands? n rest
        return (.conditional test whenTrue whenFalse, ← expect? "fi" rest)
      | _ => none

end

/-- The command of a script. -/
def parse? (script : String) : Option Command := do
  let tokens ← tokens? script
  let (command, rest) ← commands? (6 * tokens.length + 6) tokens
  if rest.isEmpty then some command else none

end CompilationDatabase.Script
