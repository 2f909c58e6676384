/-
Programs that print.

`echo` prints its arguments, with escapes taken for what they stand for;
`printf` prints them under a format, again and again until none is left;
`cat` prints files, `ls` the names in directories, `pwd` the working directory
and `env` the environment.
-/
import CompilationDatabase.Script.Utility
import CompilationDatabase.Text.Hexadecimal

namespace CompilationDatabase.Script

/-- The byte that a letter behind a backslash stands for. -/
def letterByte? : Char → Option UInt8
  | 'a' => some 7
  | 'b' => some 8
  | 't' => some 9
  | 'n' => some 10
  | 'v' => some 11
  | 'f' => some 12
  | 'r' => some 13
  | '\\' => some 92
  | _ => none

/-- The value of digits of base eight. -/
def octalValue (digits : List Char) : Nat :=
  digits.foldl (fun value c => value * 8 + (c.toNat - 48)) 0

/-- The byte that the text behind a backslash stands for, and the number of
characters that say it.  A number has up to three digits; `zero` asks for one
more in front of them, a zero. -/
def escapeByte? (zero : Bool) : List Char → Option (UInt8 × Nat)
  | [] => none
  | c :: rest =>
    let isOctal (c : Char) : Bool := '0' ≤ c && c ≤ '7'
    if zero && c = '0' then
      let digits := (rest.take 3).takeWhile isOctal
      some ((octalValue digits).toUInt8, digits.length + 1)
    else if !zero && isOctal c then
      let digits := ((c :: rest).take 3).takeWhile isOctal
      some ((octalValue digits).toUInt8, digits.length)
    else if !zero && c = '"' then some (34, 1)
    else (letterByte? c).map (·, 1)

/-- The bytes of a character. -/
def bytesOf (c : Char) : List UInt8 := (String.singleton c).toUTF8.toList

/-- The bytes of a text with escapes, and whether an escape ended it early. -/
def unescaped (zero : Bool) (text : List Char) : List UInt8 × Bool :=
  match text with
  | [] => ([], false)
  | '\\' :: rest =>
    if rest.head? = some 'c' then ([], true)
    else
      match escapeByte? zero rest with
      | some (byte, used) =>
        let (others, ended) := unescaped zero (rest.drop used)
        (byte :: others, ended)
      | none =>
        let (others, ended) := unescaped zero rest
        (92 :: others, ended)
  | c :: rest =>
    let (others, ended) := unescaped zero rest
    (bytesOf c ++ others, ended)
termination_by text.length
decreasing_by all_goals simp only [List.length_drop, List.length_cons]; omega

/-- Bytes as an array. -/
def packed (bytes : List UInt8) : ByteArray := ⟨bytes.toArray⟩

/-- Prints its arguments; `-n` leaves out the line feed. -/
def echo : Utility := fun call =>
  let (silent, arguments) := match call.arguments with
    | "-n" :: rest => (true, rest)
    | arguments => (false, arguments)
  let (bytes, ended) := unescaped true (" ".intercalate arguments).toList
  { files := call.files
    output := packed (if silent || ended then bytes else bytes ++ [10]) }

/-- A piece of a format. -/
inductive Directive where
  /-- Bytes that are printed as they are. -/
  | text (bytes : List UInt8)
  /-- An argument, with the least width and the most characters or digits. -/
  | argument (left zeros : Bool) (width : Nat) (precision : Option Nat) (kind : Char)

/-- The number that the text begins with, and what follows it. -/
def leadingNumber (text : List Char) : Nat × List Char :=
  (((String.ofList (text.takeWhile Char.isDigit)).toNat?).getD 0, text.dropWhile Char.isDigit)

/-- Reads what follows a percent sign. -/
def directive? (text : List Char) : Option (Directive × List Char) :=
  let isFlag (c : Char) : Bool := c = '-' || c = '0' || c = '+' || c = ' ' || c = '#'
  let flags := text.takeWhile isFlag
  let (width, rest) := leadingNumber (text.dropWhile isFlag)
  let (precision, rest) := match rest with
    | '.' :: rest =>
      let (number, rest) := leadingNumber rest
      (some number, rest)
    | _ => (none, rest)
  match rest with
  | kind :: rest =>
    if "sbcdiuoxX".toList.contains kind then
      some (.argument (flags.contains '-') (flags.contains '0') width precision kind, rest)
    else none
  | [] => none

/-- The pieces of a format, in at most so many steps; `none` if one is unknown. -/
def directives? : Nat → List Char → Option (List Directive)
  | 0, _ => none
  | n + 1, text =>
    match text with
    | [] => some []
    | '%' :: '%' :: rest => (directives? n rest).map (.text [37] :: ·)
    | '%' :: rest => do
      let (first, rest) ← directive? rest
      return first :: (← directives? n rest)
    | _ =>
      let plain := text.takeWhile (· ≠ '%')
      (directives? n (text.dropWhile (· ≠ '%'))).map (.text (unescaped false plain).1 :: ·)

/-- The digits of a number in a base up to sixteen. -/
def digitsIn (base value : Nat) : List Char :=
  (Nat.toDigits base value).map Char.toLower

/-- An argument as its kind asks, without regard to the width. -/
def convert (kind : Char) (precision : Option Nat) (argument : String) : List UInt8 :=
  let number := argument.toInt?.getD 0
  let padded (digits : List Char) : List Char :=
    List.replicate (precision.getD 0 - digits.length) '0' ++ digits
  let bytes (text : List Char) : List UInt8 := text.flatMap bytesOf
  match kind with
  | 's' => (bytes argument.toList).take (precision.getD argument.utf8ByteSize)
  | 'b' => (unescaped true argument.toList).1
  | 'c' => (bytes argument.toList).take 1
  | 'o' => bytes (padded (digitsIn 8 number.toNat))
  | 'x' => bytes (padded (digitsIn 16 number.toNat))
  | 'X' => bytes ((padded (digitsIn 16 number.toNat)).map Char.toUpper)
  | _ => bytes ((if number < 0 then ['-'] else []) ++ padded (digitsIn 10 number.natAbs))

/-- Fills bytes up to a width. -/
def fill (left : Bool) (padding : UInt8) (width : Nat) (bytes : List UInt8) : List UInt8 :=
  let missing := List.replicate (width - bytes.length) padding
  if left then bytes ++ missing else missing ++ bytes

/-- Prints the arguments under the pieces of a format, and returns those left;
an argument that is missing is empty. -/
def formatOnce : List Directive → List String → List UInt8 × List String
  | [], arguments => ([], arguments)
  | .text bytes :: pieces, arguments =>
    let (others, left) := formatOnce pieces arguments
    (bytes ++ others, left)
  | .argument left zeros width precision kind :: pieces, arguments =>
    let padding := if zeros && !left && kind ≠ 's' then 48 else 32
    let bytes := fill left padding width (convert kind precision (arguments.headD ""))
    let (others, rest) := formatOnce pieces arguments.tail
    (bytes ++ others, rest)

/-- Repeats a format until no arguments are left, at most so many times. -/
def formatAll : Nat → List Directive → List String → List UInt8
  | 0, _, _ => []
  | n + 1, pieces, arguments =>
    let (bytes, left) := formatOnce pieces arguments
    if left.isEmpty || left.length = arguments.length then bytes
    else bytes ++ formatAll n pieces left

/-- Prints its other arguments under the format that is the first. -/
def printFormatted : Utility := fun call =>
  let arguments := if call.arguments.head? = some "--" then call.arguments.tail else call.arguments
  match arguments with
  | [] => { files := call.files, status := 2, errors := "usage: printf format [arg ...]\n" }
  | format :: arguments =>
    match directives? (format.length + 1) format.toList with
    | some pieces =>
      { files := call.files
        output := packed (formatAll (arguments.length + 1) pieces arguments) }
    | none => { files := call.files, status := 2, errors := "printf: invalid directive\n" }

/-- Prints files one after the other, or what there is to read. -/
def cat : Utility := fun call =>
  let (_, operands) := splitOptions call.arguments
  let operands := if operands.isEmpty then ["-"] else operands
  let printOne (answer : Answer) (operand : String) : Answer :=
    if operand = "-" then { answer with output := answer.output ++ call.input }
    else match answer.files.read operand with
      | .ok content => { answer with output := answer.output ++ content }
      | .error cause => answer.complain ("cat: " ++ operand ++ ": " ++ cause.message)
  operands.foldl printOne { files := call.files }

/-- The names that are listed of a directory. -/
def listedNames (options : List String) (children : List (String × Node)) : List String :=
  let names := (children.map Prod.fst).mergeSort (· ≤ ·)
  if hasLetter options ['a'] then "." :: ".." :: names
  else if hasLetter options ['A'] then names
  else names.filter (·.toList.head? ≠ some '.')

/-- Lists the files and directories it is given. -/
def ls : Utility := fun call =>
  let (options, operands) := splitOptions call.arguments
  let operands := if operands.isEmpty then ["."] else operands.mergeSort (· ≤ ·)
  let lines (names : List String) : String := String.join (names.map (· ++ "\n"))
  let printOne (answer : Answer) (operand : String) : Answer :=
    match answer.files.lookup operand with
    | .error cause =>
      let complaint := answer.complain ("ls: cannot access '" ++ operand ++ "': " ++ cause.message)
      { complaint with status := 2 }
    | .ok (.file _) => answer.print (lines [operand])
    | .ok .directory =>
      if hasLetter options ['d'] then answer.print (lines [operand])
      else
        let gap := if answer.output.isEmpty then "" else "\n"
        let heading := if operands.length = 1 then "" else gap ++ operand ++ ":\n"
        let children := (answer.files.list operand).toOption.getD []
        answer.print (heading ++ lines (listedNames options children))
  operands.foldl printOne { files := call.files }

/-- Prints the working directory. -/
def pwd : Utility := fun call =>
  Answer.print { files := call.files } (pathOf call.files.workingDirectory ++ "\n")

/-- Prints the environment. -/
def printEnvironment : Utility := fun call =>
  let lines := call.environment.map fun (name, value) => name ++ "=" ++ value ++ "\n"
  Answer.print { files := call.files } (String.join lines)

end CompilationDatabase.Script
