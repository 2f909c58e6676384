/-
Tests of texts, numbers and files.

What a test asks is told by the number of its arguments first, so that a text
that looks like an operator is still a text.
-/
import CompilationDatabase.Script.Utility

namespace CompilationDatabase.Script

/-- The answer to a question about one argument, `none` for an unknown one. -/
def testOne? (fs : FileSystem) (operator operand : String) : Option Bool :=
  let node? := (fs.lookup operand).toOption
  match operator with
  | "-n" => some (operand ≠ "")
  | "-z" => some (operand = "")
  | "-e" => some node?.isSome
  | "-r" => some node?.isSome
  | "-w" => some node?.isSome
  | "-f" => some (node?.any Node.isFile)
  | "-d" => some (node?.any (!·.isFile))
  | "-x" => some (node?.any (!·.isFile))
  | "-s" =>
    some <| match node? with
      | some (.file content) => content.size ≠ 0
      | some .directory => true
      | none => false
  | "-h" => some false
  | "-L" => some false
  | "-t" => some false
  | _ => none

/-- The answer to a question about two arguments, `none` for an unknown one or
for a comparison of what are no numbers. -/
def testTwo? (left operator right : String) : Option Bool := do
  let compare (holds : Int → Int → Bool) : Option Bool := do
    return holds (← left.toInt?) (← right.toInt?)
  match operator with
  | "=" => return left = right
  | "==" => return left = right
  | "!=" => return left ≠ right
  | "<" => return left < right
  | ">" => return right < left
  | "-eq" => compare (· == ·)
  | "-ne" => compare (· != ·)
  | "-lt" => compare (· < ·)
  | "-le" => compare (· ≤ ·)
  | "-gt" => compare (· > ·)
  | "-ge" => compare (· ≥ ·)
  | _ => none

/-- The answer to a test of up to four arguments, with both ways to combine
two tests of more. -/
def test? (fs : FileSystem) : List String → Option Bool
  | [] => some false
  | [text] => some (text ≠ "")
  | ["!", text] => some (text = "")
  | [operator, operand] => testOne? fs operator operand
  | [left, operator, right] =>
    match testTwo? left operator right with
    | some answer => some answer
    | none =>
      if left = "!" then (testOne? fs operator right).map (!·)
      else if operator = "-a" then some (left ≠ "" && right ≠ "")
      else if operator = "-o" then some (left ≠ "" || right ≠ "")
      else none
  | "!" :: rest => (test? fs rest).map (!·)
  | operator :: operand :: "-a" :: rest => do
    return (← testOne? fs operator operand) && (← test? fs rest)
  | operator :: operand :: "-o" :: rest => do
    return (← testOne? fs operator operand) || (← test? fs rest)
  | left :: operator :: right :: "-a" :: rest => do
    return (← testTwo? left operator right) && (← test? fs rest)
  | left :: operator :: right :: "-o" :: rest => do
    return (← testTwo? left operator right) || (← test? fs rest)
  | _ => none

/-- The status of a test: zero if it holds, one if not, two if it is none. -/
def testStatus : Option Bool → Nat
  | some true => 0
  | some false => 1
  | none => 2

/-- Tests its arguments. -/
def test : Utility := fun call =>
  { files := call.files, status := testStatus (test? call.files call.arguments) }

/-- Tests its arguments up to a closing bracket. -/
def bracketTest : Utility := fun call =>
  if call.arguments.getLast? = some "]" then test { call with arguments := call.arguments.dropLast }
  else { files := call.files, status := 2, errors := "[: missing ]\n" }

end CompilationDatabase.Script
