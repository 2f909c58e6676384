/-
Programs that scripts use.

A program gets its arguments, its environment, what it reads and the files;
it answers with a status, what it writes and the files as it leaves them.
This file holds what the programs share.
-/
import CompilationDatabase.FileSystem.Change
import CompilationDatabase.Recorder.Environment

namespace CompilationDatabase.Script

/-- What a program is started with. -/
structure Call where
  /-- The arguments behind the name of the program. -/
  arguments : List String
  /-- The environment. -/
  environment : Environment
  /-- What there is to read. -/
  input : ByteArray
  /-- The files. -/
  files : FileSystem

/-- How a program ended and what it left. -/
structure Answer where
  /-- The files. -/
  files : FileSystem
  /-- The status, zero for success. -/
  status : Nat := 0
  /-- What it wrote to its output. -/
  output : ByteArray := .empty
  /-- What it wrote about its errors. -/
  errors : String := ""

/-- A program. -/
abbrev Utility := Call → Answer

namespace Answer

/-- The answer with one more line about an error, and the status of a failure. -/
def complain (answer : Answer) (message : String) : Answer :=
  { answer with status := 1, errors := answer.errors ++ message ++ "\n" }

/-- The answer with more output. -/
def print (answer : Answer) (text : String) : Answer :=
  { answer with output := answer.output ++ text.toUTF8 }

/-- The answer after a change of the files, or a complaint if it was refused. -/
def change (answer : Answer) (about : String) (change : FileSystem → Except FileError FileSystem) :
    Answer :=
  match change answer.files with
  | .ok files => { answer with files }
  | .error cause => answer.complain (about ++ ": " ++ cause.message)

end Answer

/-- Splits off the options in front of the operands; `--` ends them. -/
def splitOptions : List String → List String × List String
  | [] => ([], [])
  | argument :: rest =>
    if argument = "--" then ([], rest)
    else if argument.toList.head? = some '-' && argument ≠ "-" then
      let (options, operands) := splitOptions rest
      (argument :: options, operands)
    else ([], argument :: rest)

/-- Whether one of the letters is among the options. -/
def hasLetter (options : List String) (letters : List Char) : Bool :=
  options.any fun option =>
    option.toList.any letters.contains && !("--".toList.isPrefixOf option.toList)

/-- A location as an absolute path. -/
def pathOf (location : Location) : String := "/" ++ "/".intercalate location

end CompilationDatabase.Script
