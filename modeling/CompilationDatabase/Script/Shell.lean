/-
The state of a shell.

A shell has files, variables, arguments and the status of the command it ran
last.  What commands write is collected in buffers: the first is the output of
the whole run, the second its errors, and any other belongs to a command whose
output is wanted by another.
-/
import CompilationDatabase.Recorder.Run
import CompilationDatabase.Script.Command
import CompilationDatabase.Script.Field
import CompilationDatabase.Script.Utility

namespace CompilationDatabase.Script

/-- Where written bytes go. -/
inductive Sink where
  | buffer (index : Nat)
  | file (location : Location)
  | nowhere
deriving DecidableEq, Repr

/-- What a command reads from and writes to. -/
structure Streams where
  input : ByteArray := .empty
  output : Sink := .buffer 0
  errors : Sink := .buffer 1

namespace Streams

/-- Where a descriptor leads. -/
def sink (streams : Streams) : Descriptor → Sink
  | .output => streams.output
  | .errors => streams.errors

/-- The streams with a descriptor led elsewhere. -/
def lead (streams : Streams) (descriptor : Descriptor) (sink : Sink) : Streams :=
  match descriptor with
  | .output => { streams with output := sink }
  | .errors => { streams with errors := sink }

end Streams

/-- The state of a shell. -/
structure Shell where
  files : FileSystem
  /-- The variables that are set. -/
  bindings : Environment
  /-- The names of those that programs get. -/
  exported : List String
  /-- The name of the script. -/
  name : String
  /-- The arguments of the script. -/
  arguments : List String
  /-- The status of the last command. -/
  status : Nat := 0
  /-- How the shell ended, once it has. -/
  ending : Option ExitStatus := none
  /-- What was written. -/
  buffers : Array ByteArray := #[.empty, .empty]

namespace Shell

/-- The variables with the latest setting of each alone. -/
def latest (environment : Environment) : Environment :=
  environment.foldr (fun setting others => setting :: others.filter (·.1 ≠ setting.1)) []

/-- A shell that starts in an environment. -/
def start (files : FileSystem) (environment : Environment) (name : String)
    (arguments : List String) (buffers : Array ByteArray) : Shell where
  files := files
  bindings := ("PWD", pathOf files.workingDirectory) :: (latest environment).filter (·.1 ≠ "PWD")
  exported := "PWD" :: environment.map Prod.fst
  name := name
  arguments := arguments
  buffers := buffers

/-- The shell after a variable was set. -/
def set (shell : Shell) (name value : String) : Shell :=
  { shell with bindings := (name, value) :: shell.bindings.filter (·.1 ≠ name) }

/-- The shell after a variable was forgotten. -/
def unset (shell : Shell) (name : String) : Shell :=
  { shell with
    bindings := shell.bindings.filter (·.1 ≠ name)
    exported := shell.exported.filter (· ≠ name) }

/-- The shell after a variable was exported. -/
def share (shell : Shell) (name : String) : Shell :=
  { shell with exported := name :: shell.exported.filter (· ≠ name) }

/-- The environment of the programs that the shell starts. -/
def environment (shell : Shell) : Environment :=
  shell.bindings.filter fun (name, _) => shell.exported.contains name

/-- The shell after a command ended with a status. -/
def done (shell : Shell) (status : Nat) : Shell := { shell with status }

/-- The shell at its end. -/
def finish (shell : Shell) (ending : ExitStatus) : Shell :=
  { shell with status := ending.code, ending := some ending }

/-- How the shell ended, or ends if nothing follows. -/
def exitStatus (shell : Shell) : ExitStatus := shell.ending.getD (.exited shell.status)

/-- The shell after bytes were written. -/
def put (shell : Shell) (sink : Sink) (bytes : ByteArray) : Shell :=
  match sink with
  | .buffer index => { shell with buffers := shell.buffers.modify index (· ++ bytes) }
  | .file location =>
    match shell.files.node? location with
    | some (.file content) =>
      { shell with files := shell.files.insert location (.file (content ++ bytes)) }
    | _ => shell
  | .nowhere => shell

/-- The shell after a line about an error was written, with a status. -/
def complain (shell : Shell) (streams : Streams) (status : Nat) (message : String) : Shell :=
  (shell.put streams.errors (shell.name ++ ": " ++ message ++ "\n").toUTF8).done status

/-- The shell after a program ended. -/
def take (shell : Shell) (streams : Streams) (answer : Answer) : Shell :=
  let shell := { shell with files := answer.files }
  ((shell.put streams.output answer.output).put streams.errors answer.errors.toUTF8).done
    answer.status

/-- The shell after a part of its script ran in a shell of its own: what was
written stays, and so does a signal, which was sent to both. -/
def afterOwn (shell own : Shell) : Shell :=
  { shell with
    files := { own.files with workingDirectory := shell.files.workingDirectory }
    buffers := own.buffers
    status := own.exitStatus.code
    ending := match own.ending with
      | some (.killed signal) => some (.killed signal)
      | _ => none }

/-- Splits off the last buffer. -/
def popBuffer (shell : Shell) : ByteArray × Shell :=
  (shell.buffers.back?.getD .empty, { shell with buffers := shell.buffers.pop })

/-- The text that stands for the process of the shell. -/
def process : String := "4096"

/-- The value of a parameter other than the list of arguments. -/
def value? (shell : Shell) (name : String) : Option String :=
  match name with
  | "#" => some (toString shell.arguments.length)
  | "?" => some (toString shell.status)
  | "$" => some process
  | "0" => some shell.name
  | "@" => if shell.arguments.isEmpty then none else some (" ".intercalate shell.arguments)
  | "*" => if shell.arguments.isEmpty then none else some (" ".intercalate shell.arguments)
  | "-" => some ""
  | _ =>
    match name.toNat? with
    | some number => shell.arguments[number - 1]?
    | none => shell.bindings.lookup name

/-- Texts with boundaries between them. -/
def separate : List (List Mark) → List Mark
  | [] => []
  | [marks] => marks
  | marks :: others => marks ++ Mark.boundary :: separate others

/-- What a parameter expands to. -/
def marksOf (shell : Shell) (quoted : Bool) (name : String) : List Mark :=
  if name = "@" && quoted then separate (shell.arguments.map Mark.quoted)
  else if (name = "@" || name = "*") && !quoted then
    separate (shell.arguments.map Mark.splitAtBlanks)
  else
    let value := (shell.value? name).getD ""
    if quoted then Mark.quoted value else Mark.splitAtBlanks value

end Shell

end CompilationDatabase.Script
