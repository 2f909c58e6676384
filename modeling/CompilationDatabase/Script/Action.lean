/-
Actions of the shell itself.

These commands change the shell that runs them, so they are no programs: they
end the shell, move it to another directory, and set its variables and
arguments.
-/
import CompilationDatabase.Script.Parser
import CompilationDatabase.Script.Shell

namespace CompilationDatabase.Script

/-- The signals by name. -/
def signals : List (String × Nat) :=
  [("HUP", 1), ("INT", 2), ("QUIT", 3), ("ILL", 4), ("TRAP", 5), ("ABRT", 6), ("BUS", 7),
    ("FPE", 8), ("KILL", 9), ("USR1", 10), ("SEGV", 11), ("USR2", 12), ("PIPE", 13),
    ("ALRM", 14), ("TERM", 15), ("STKFLT", 16), ("CHLD", 17), ("CONT", 18), ("URG", 23),
    ("XCPU", 24), ("XFSZ", 25), ("VTALRM", 26), ("PROF", 27), ("WINCH", 28), ("IO", 29),
    ("PWR", 30), ("SYS", 31)]

/-- The signals that a process does not mind. -/
def harmlessSignals : List String := ["CHLD", "CONT", "URG", "WINCH"]

/-- The number of a signal, which may be given by name or number. -/
def signal? (text : String) : Option Nat :=
  match text.toNat? with
  | some number => some number
  | none => signals.lookup text

/-- Whether a signal ends a process. -/
def isFatal (signal : Nat) : Bool :=
  signals.any fun (name, number) => number == signal && !harmlessSignals.contains name

/-- Splits a text at its first equals sign. -/
def splitAtEquals (text : String) : String × Option String :=
  match text.toList.dropWhile (· ≠ '=') with
  | [] => (text, none)
  | _ :: value =>
    (String.ofList (text.toList.takeWhile (· ≠ '=')), some (String.ofList value))

namespace Shell

/-- Ends the shell. -/
def exit (shell : Shell) (streams : Streams) : List String → Shell
  | [] => shell.finish (.exited shell.status)
  | text :: _ =>
    match text.toNat? with
    | some number => shell.finish (.exited (number % 256))
    | none => (shell.complain streams 2 ("exit: Illegal number: " ++ text)).finish (.exited 2)

/-- Moves the shell to a directory. -/
def changeDirectory (shell : Shell) (streams : Streams) (arguments : List String) : Shell :=
  let path := arguments.headD ((shell.value? "HOME").getD "")
  let refused := shell.complain streams 2 ("cd: can't cd to " ++ path)
  match shell.files.resolve path with
  | .error _ => refused
  | .ok location =>
    if shell.files.node? location = some .directory then
      let moved := { shell with files := { shell.files with workingDirectory := location } }
      (moved.set "PWD" (pathOf location)).done 0
    else refused

/-- Exports variables, some of which are set as well. -/
def shareAll (shell : Shell) (arguments : List String) : Shell :=
  let step (shell : Shell) (argument : String) : Shell :=
    match splitAtEquals argument with
    | (name, some value) => (shell.set name value).share name
    | (name, none) => shell.share name
  (arguments.foldl step shell).done 0

/-- Drops arguments of the script, one if no number is given.  A shell that
has fewer ends. -/
def shift (shell : Shell) (streams : Streams) (arguments : List String) : Shell :=
  let number := ((arguments.headD "1").toNat?).getD 1
  if number ≤ shell.arguments.length then
    { shell with arguments := shell.arguments.drop number, status := 0 }
  else (shell.complain streams 2 "shift: can't shift that many").finish (.exited 2)

/-- Replaces the arguments of the script. -/
def replaceArguments (shell : Shell) (arguments : List String) : Shell :=
  let (options, operands) := splitOptions arguments
  if operands.isEmpty && !(arguments.contains "--") then shell.done 0
  else { shell with arguments := operands, status := if options.isEmpty then 0 else shell.status }

/-- Sends a signal to processes, of which only the shell itself is known. -/
def signal (shell : Shell) (streams : Streams) (arguments : List String) : Shell :=
  let (name, processes) := match arguments with
    | "-s" :: name :: processes => (name, processes)
    | first :: rest =>
      match first.toList with
      | '-' :: name => (String.ofList name, rest)
      | _ => ("TERM", arguments)
    | [] => ("TERM", [])
  match signal? name with
  | none => shell.complain streams 2 ("kill: invalid signal " ++ name)
  | some number =>
    if processes.isEmpty then shell.complain streams 2 "kill: no process"
    else if processes.any (· ≠ process) then shell.complain streams 1 "kill: No such process"
    else if isFatal number then shell.finish (.killed number)
    else shell.done 0

/-- The shell after one of its actions, if the name is that of one. -/
def act? (shell : Shell) (streams : Streams) (name : String) (arguments : List String) :
    Option Shell :=
  match name with
  | ":" => some (shell.done 0)
  | "exit" => some (shell.exit streams arguments)
  | "cd" => some (shell.changeDirectory streams arguments)
  | "export" => some (shell.shareAll arguments)
  | "unset" => some ((arguments.foldl unset shell).done 0)
  | "shift" => some (shell.shift streams arguments)
  | "set" => some (shell.replaceArguments arguments)
  | "kill" => some (shell.signal streams arguments)
  | _ => none

end Shell

end CompilationDatabase.Script
