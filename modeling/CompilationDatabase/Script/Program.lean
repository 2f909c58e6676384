/-
Running scripts and programs.

A program is found by its name: in the directories of the search path, unless
the name has a slash.  The programs that scripts use are known; nothing else
can be started.

`run` runs a command of a script.  Scripts may go on for ever, so it counts
its steps, and a shell that runs out of them is killed.

All of it comes to `launch`, one `Launcher` among those that the recorder can
have; nothing is proved of it, or needed.

* `locate` — the program of a name;
* `run` — a command of a script;
* `launch` — a program as the recorder starts it.
-/
import CompilationDatabase.Script.Action
import CompilationDatabase.Script.Arranging
import CompilationDatabase.Script.Printing
import CompilationDatabase.Script.Testing

namespace CompilationDatabase.Script

/-- What can be started. -/
inductive Program where
  /-- A program that runs on its own. -/
  | utility (utility : Utility)
  /-- A shell. -/
  | shell
  /-- A program in a changed environment. -/
  | environment

/-- Does nothing, and ends with a status. -/
def quiet (status : Nat) : Utility := fun call => { files := call.files, status }

/-- The programs by name. -/
def programs : List (String × Program) :=
  [("sh", .shell), ("env", .environment), ("true", .utility (quiet 0)),
    ("false", .utility (quiet 1)), ("sleep", .utility (quiet 0)), ("echo", .utility echo),
    ("printf", .utility printFormatted), ("cat", .utility cat), ("ls", .utility ls),
    ("pwd", .utility pwd), ("test", .utility test), ("[", .utility bracketTest),
    ("cp", .utility cp), ("mv", .utility mv), ("rm", .utility rm), ("mkdir", .utility mkdir),
    ("rmdir", .utility rmdir), ("touch", .utility touch)]

/-- The directories that the programs are in. -/
def programDirectories : List String := ["/bin", "/usr/bin"]

/-- The search path if the environment has none. -/
def defaultSearchPath : String := "/bin:/usr/bin"

/-- Looks for a program in directories, in order.  A file that is no program
is passed over; if there is nothing else, it is refused. -/
def search (files : FileSystem) (name : String) : List String → Except FileError Program
  | [] => .error .noSuchFile
  | directory :: rest =>
    let found := if programDirectories.contains directory then programs.lookup name else none
    match found with
    | some program => .ok program
    | none =>
      match search files name rest with
      | .ok program => .ok program
      | .error cause =>
        if Path.isStay name || name = ".." || files.contains (Path.under directory name) then
          .error .permissionDenied
        else .error cause

/-- The program that a name stands for.  No file is a program. -/
def locate (files : FileSystem) (searchPath : Option String) (name : String) :
    Except FileError Program :=
  if name.isEmpty then .error .noSuchFile
  else if name.toList.contains '/' then
    (files.lookup name).bind fun _ => .error .permissionDenied
  else if name.utf8ByteSize > FileSystem.maxNameLength then .error .nameTooLong
  else search files name ((searchPath.getD defaultSearchPath).splitOn ":")

/-- The location whose files are gone as soon as they are written. -/
def nullDevice : Location := ["dev", "null"]

/-- Opens a file for writing, from its start or behind what it has. -/
def openSink (files : FileSystem) (path : String) (append : Bool) :
    Except FileError (Sink × FileSystem) :=
  match files.resolve path with
  | .ok location =>
    if location = nullDevice then .ok (.nowhere, files)
    else if append then
      if files.node? location = some .directory then .error .isDirectory
      else .ok (.file location, files)
    else (files.write path .empty).map fun files => (.file location, files)
  | .error _ => do
    let files ← files.write path .empty
    return (.file (← files.resolve path), files)

/-- The text without the line feeds at its end. -/
def trimLines (text : List Char) : List Char :=
  Text.trimEnd (· = '\n') text

/-- The variables set in front of a program, and the program. -/
def splitSettings (arguments : List String) : Environment × List String :=
  let isSetting (argument : String) : Bool := (splitAtEquals argument).2.isSome
  ((arguments.takeWhile isSetting).map fun argument =>
      ((splitAtEquals argument).1, (splitAtEquals argument).2.getD ""),
    arguments.dropWhile isSetting)

namespace Shell

/-- The shell after one that took its place as a process of its own. -/
def afterProcess (shell own : Shell) : Shell :=
  { shell.afterOwn own with ending := none }

/-- The shell after variables were set and exported. -/
def shareSettings (shell : Shell) (settings : Environment) : Shell :=
  settings.foldl (fun shell (name, value) => (shell.set name value).share name) shell

/-- The shell after it could not start a program. -/
def cannotStart (shell : Shell) (streams : Streams) (name : String) (cause : FileError) : Shell :=
  let status := if cause = .noSuchFile || cause = .notDirectory then 127 else 126
  shell.complain streams status (name ++ ": " ++ cause.message)

end Shell

mutual

/-- Runs a command. -/
def run : Nat → Streams → Command → Shell → Shell
  | 0, _, _, shell => shell.finish (.killed 9)
  | n + 1, streams, command, shell =>
    match command with
    | .nothing => shell
    | .simple assignments words redirections =>
      runSimple n streams assignments words redirections shell
    | .sequence first second =>
      let shell := run n streams first shell
      if shell.ending.isSome then shell else run n streams second shell
    | .both first second =>
      let shell := run n streams first shell
      if shell.ending.isSome || shell.status ≠ 0 then shell else run n streams second shell
    | .either first second =>
      let shell := run n streams first shell
      if shell.ending.isSome || shell.status = 0 then shell else run n streams second shell
    | .negated command =>
      let shell := run n streams command shell
      if shell.ending.isSome then shell else shell.done (if shell.status = 0 then 1 else 0)
    | .pipe first second =>
      let (written, shell) := collect n streams first shell
      if shell.ending.isSome then shell
      else shell.afterOwn (run n { streams with input := written } second shell)
    | .conditional test whenTrue whenFalse =>
      let shell := run n streams test shell
      if shell.ending.isSome then shell
      else if shell.status = 0 then run n streams whenTrue shell
      else
        match whenFalse with
        | .nothing => shell.done 0
        | _ => run n streams whenFalse shell
    | .loop whileTrue test body => runLoop n streams whileTrue test body 0 shell
    | .each name items body =>
      match items with
      | none => runEach n streams name shell.arguments body shell
      | some words =>
        let (values, shell) := expandAll n streams words shell
        runEach n streams name values body shell
    | .redirected body redirections =>
      match redirect n streams redirections shell with
      | (none, shell) => shell
      | (some streams, shell) => run n streams body shell
    | .subshell body => shell.afterOwn (run n streams body shell)

/-- Runs a command as its own shell, and returns what it writes. -/
def collect : Nat → Streams → Command → Shell → ByteArray × Shell
  | 0, _, _, shell => (.empty, shell.finish (.killed 9))
  | n + 1, streams, command, shell =>
    let streams := { streams with output := .buffer shell.buffers.size }
    let own := run n streams command { shell with buffers := shell.buffers.push .empty }
    (shell.afterOwn own).popBuffer

/-- Runs a body as long as a test succeeds, or as long as it fails; `status` is
that of the last body. -/
def runLoop : Nat → Streams → Bool → Command → Command → Nat → Shell → Shell
  | 0, _, _, _, _, _, shell => shell.finish (.killed 9)
  | n + 1, streams, whileTrue, test, body, status, shell =>
    let shell := run n streams test shell
    if shell.ending.isSome then shell
    else if (shell.status == 0) ≠ whileTrue then shell.done status
    else
      let shell := run n streams body shell
      if shell.ending.isSome then shell
      else runLoop n streams whileTrue test body shell.status shell

/-- Runs a body for each of the values. -/
def runEach : Nat → Streams → String → List String → Command → Shell → Shell
  | 0, _, _, _, _, shell => shell.finish (.killed 9)
  | n + 1, streams, name, values, body, shell =>
    match values with
    | [] => shell
    | value :: values =>
      let shell := run n streams body (shell.set name value)
      if shell.ending.isSome then shell else runEach n streams name values body shell

/-- Runs a simple command: its words are expanded first, then its redirections,
then what its variables are set to. -/
def runSimple :
    Nat → Streams → List (String × Word) → List Word → List Redirection → Shell → Shell
  | 0, _, _, _, _, shell => shell.finish (.killed 9)
  | n + 1, streams, assignments, words, redirections, shell =>
    let (arguments, shell) := expandAll n streams words shell
    match redirect n streams redirections shell with
    | (none, shell) => shell
    | (some streams, shell) =>
      let (settings, shell) := expandSettings n streams assignments shell
      if shell.ending.isSome then shell
      else
        match arguments with
        | [] =>
          let after := settings.foldl (fun shell (name, value) => shell.set name value) shell
          if assignments.any (fun (_, word) => word.any Part.isOutput) then after else after.done 0
        | name :: arguments =>
          if settings.isEmpty then invoke n streams name arguments shell
          else
            let after := invoke n streams name arguments (shell.shareSettings settings)
            { after with bindings := shell.bindings, exported := shell.exported }

/-- Expands words to fields, and fields to file names. -/
def expandAll : Nat → Streams → List Word → Shell → List String × Shell
  | 0, _, _, shell => ([], shell.finish (.killed 9))
  | n + 1, streams, words, shell =>
    match words with
    | [] => ([], shell)
    | word :: words =>
      let (marks, shell) := expand n streams word shell
      let fields := (Mark.fields marks).flatMap (Field.fileNames shell.files)
      let (others, shell) := expandAll n streams words shell
      (fields ++ others, shell)

/-- Expands what variables are set to, which is not split. -/
def expandSettings : Nat → Streams → List (String × Word) → Shell → Environment × Shell
  | 0, _, _, shell => ([], shell.finish (.killed 9))
  | n + 1, streams, assignments, shell =>
    match assignments with
    | [] => ([], shell)
    | (name, word) :: rest =>
      let (marks, shell) := expand n streams word shell
      let (others, shell) := expandSettings n streams rest shell
      ((name, Mark.text marks) :: others, shell)

/-- Expands the parts of a word. -/
def expand : Nat → Streams → List Part → Shell → List Mark × Shell
  | 0, _, _, shell => ([], shell.finish (.killed 9))
  | n + 1, streams, parts, shell =>
    match parts with
    | [] => ([], shell)
    | part :: parts =>
      let (first, shell) := match part with
        | .text true characters => (Mark.quoted characters, shell)
        | .text false characters => (Mark.plain characters, shell)
        | .parameter quoted name asked emptyCounts words =>
          let isMissing := match shell.value? name with
            | some value => value.isEmpty && !emptyCounts
            | none => true
          if asked = .value || (asked = .otherwise && !isMissing) then
            (shell.marksOf quoted name, shell)
          else if asked = .instead && isMissing then
            (if quoted then Mark.quoted "" else [], shell)
          else expand n streams words shell
        | .output quoted script =>
          match parse? script with
          | none => ([], shell.finish (.exited 2))
          | some command =>
            let (written, shell) := collect n streams command shell
            let text := String.ofList (trimLines ((String.fromUTF8? written).getD "").toList)
            (if quoted then Mark.quoted text else Mark.splitAtBlanks text, shell)
      let (others, shell) := expand n streams parts shell
      (first ++ others, shell)

/-- Follows redirections in order; a file that cannot be opened is complained
about. -/
def redirect : Nat → Streams → List Redirection → Shell → Option Streams × Shell
  | 0, _, _, shell => (none, shell.finish (.killed 9))
  | n + 1, streams, redirections, shell =>
    match redirections with
    | [] => (some streams, shell)
    | .duplicate descriptor other :: rest =>
      redirect n (streams.lead descriptor (streams.sink other)) rest shell
    | .input source :: rest =>
      let (marks, shell) := expand n streams source shell
      let path := Mark.text marks
      match shell.files.read path with
      | .ok input => redirect n { streams with input } rest shell
      | .error cause =>
        (none, shell.complain streams 2 ("cannot open " ++ path ++ ": " ++ cause.message))
    | .file descriptor target append :: rest =>
      let (marks, shell) := expand n streams target shell
      let path := Mark.text marks
      match openSink shell.files path append with
      | .ok (sink, files) => redirect n (streams.lead descriptor sink) rest { shell with files }
      | .error cause =>
        (none, shell.complain streams 2 ("cannot create " ++ path ++ ": " ++ cause.message))

/-- Runs an action of the shell, or a program as a process of its own. -/
def invoke : Nat → Streams → String → List String → Shell → Shell
  | 0, _, _, _, shell => shell.finish (.killed 9)
  | n + 1, streams, name, arguments, shell =>
    match shell.act? streams name arguments with
    | some shell => shell
    | none =>
      let command := if name = "exec" then arguments else name :: arguments
      match name, command with
      | "eval", _ => runScript n streams (" ".intercalate arguments) shell
      | _, [] => shell.done 0
      | _, program :: rest =>
        match locate shell.files (shell.bindings.lookup "PATH") program with
        | .error cause =>
          let shell := shell.cannotStart streams program cause
          if name = "exec" then shell.finish (.exited shell.status) else shell
        | .ok found =>
          let own := become n streams found rest shell
          if name = "exec" then own else shell.afterProcess own

/-- Runs a script. -/
def runScript : Nat → Streams → String → Shell → Shell
  | 0, _, _, shell => shell.finish (.killed 9)
  | n + 1, streams, script, shell =>
    match parse? script with
    | some command => run n streams command shell
    | none => (shell.complain streams 2 "Syntax error").finish (.exited 2)

/-- Turns a process into a program and runs it to its end. -/
def become : Nat → Streams → Program → List String → Shell → Shell
  | 0, _, _, _, shell => shell.finish (.killed 9)
  | n + 1, streams, program, arguments, shell =>
    match program with
    | .utility utility =>
      let answer := utility
        { arguments, environment := shell.environment, input := streams.input
          files := shell.files }
      let after := shell.take streams answer
      after.finish (.exited after.status)
    | .environment =>
      let (settings, command) := splitSettings (splitOptions arguments).2
      let shell := shell.shareSettings settings
      match command with
      | [] => become n streams (.utility printEnvironment) [] shell
      | name :: arguments =>
        match locate shell.files (shell.bindings.lookup "PATH") name with
        | .error cause =>
          let shell := shell.cannotStart streams name cause
          shell.finish (.exited shell.status)
        | .ok found => become n streams found arguments shell
    | .shell =>
      let start := Shell.start shell.files shell.environment
      let own := match arguments with
        | [] =>
          let script := (String.fromUTF8? streams.input).getD ""
          runScript n streams script (start "sh" [] shell.buffers)
        | "-c" :: script :: rest =>
          runScript n streams script (start (rest.headD "sh") rest.tail shell.buffers)
        | file :: rest =>
          match shell.files.readText file with
          | .ok script => runScript n streams script (start file rest shell.buffers)
          | .error cause =>
            let own := start "sh" [] shell.buffers
            (own.complain streams 2 ("cannot open " ++ file ++ ": " ++ cause.message)).finish
              (.exited 2)
      own.finish own.exitStatus

end

/-- The number of steps after which a shell is killed. -/
def maxSteps : Nat := 20000

/-- Whether a text has a null character. -/
def hasNul (text : String) : Bool := text.toList.contains '\x00'

/-- Starts a program and runs it to its end. -/
def launch : Launcher := fun command environment files =>
  match command with
  | [] => .error .noSuchFile
  | name :: arguments =>
    if command.any hasNul || environment.any (fun (name, value) => hasNul name || hasNul value) then
      .error .nulInArgument
    else
      (locate files (environment.lookup "PATH") name).map fun program =>
        let shell := Shell.start files environment name arguments #[.empty, .empty]
        let ended := become maxSteps {} program arguments shell
        let written (index : Nat) : String :=
          (String.fromUTF8? (ended.buffers.getD index .empty)).getD ""
        { status := ended.exitStatus
          files := ended.files
          stdout := written 0
          stderr := written 1 }

end CompilationDatabase.Script
