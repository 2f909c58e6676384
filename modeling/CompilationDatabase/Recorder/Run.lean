/-
A whole run of the recorder.

The build is run with a fresh scratch directory for its traces; then the
database is made from what it left there, whatever the build answered.  The
exit code is that of the build if both went well.  What the recorder says of its
work goes to standard error, before and behind what the build writes there.

What runs a program is a parameter (`Launcher`): the recorder asks of it only
that it says how the program ended and what it left behind, or why it could
not be started.  So is the look of the log, and what is said of a text that is
refused as a database (`Platform`).

A run is taken to go on undisturbed: nobody interrupts it, the directory for the
traces gets a new name, and nothing but the build changes files meanwhile.  All names
are text, and a directory can be listed as a whole or not at all.
-/
import CompilationDatabase.Log.Line
import CompilationDatabase.Recorder.Environment
import CompilationDatabase.Recorder.Exit
import CompilationDatabase.Recorder.Options

namespace CompilationDatabase

/-- How a process ended. -/
inductive ExitStatus where
  | exited (code : Nat)
  | killed (signal : Nat)
deriving DecidableEq, Repr

/-- The exit code of a process; death by a signal counts from 128 on. -/
def ExitStatus.code : ExitStatus → Nat
  | exited code => code
  | killed signal => 128 + signal

/-- A process that has ended. -/
structure Ended where
  /-- How it ended. -/
  status : ExitStatus
  /-- The files it left. -/
  files : FileSystem
  /-- What it wrote to standard output. -/
  stdout : String := ""
  /-- What it wrote to standard error. -/
  stderr : String := ""

/-- Runs a command, the program first, with an environment. -/
abbrev Launcher := List String → Environment → FileSystem → Except FileError Ended

namespace Recorder

/-- What the recorder has from elsewhere. -/
structure Platform where
  /-- Runs programs. -/
  launch : Launcher
  /-- How the log is written. -/
  format : Log.Format
  /-- What is said of a text that is refused as a database. -/
  refusal : String → String

/-- Runs the build with the variables set, or says how to end without it. -/
def runBuild (launch : Launcher) (command : List String) (environment extra : Environment)
    (fs : FileSystem) : Except Trouble Ended :=
  match command with
  | [] => .error { cause := .exit unstartedCode "no build command given" }
  | program :: _ =>
    match launch command (environment.setAll extra) fs with
    | .ok ended => .ok { ended with
        files := { ended.files with workingDirectory := fs.workingDirectory } }
    | .error cause =>
      .error { cause := .exit unstartedCode ("cannot run " ++ program ++ ": " ++ cause.message) }

/-- What a run of the recorder leaves behind. -/
structure Outcome where
  /-- The exit code. -/
  code : Int
  /-- The files. -/
  files : FileSystem
  /-- What was written to standard output. -/
  stdout : String := ""
  /-- What was written to standard error. -/
  stderr : String := ""

/-- The line shown for an error. -/
def errorLine (message : Option String) : String :=
  match message with
  | some message => "cdb: " ++ message ++ "\n"
  | none => ""

/-- The error of a failure to make the database at the path. -/
def Failure.trouble (failure : Failure) (refusal : String → String) (output : String) : Trouble :=
  let chain := [failure.message refusal, failure.cause refusal]
  Trouble.within { cause := .plain chain } ("cannot write " ++ output)

/-- What is said before the build is run. -/
def startLog (fs : FileSystem) (library : String) (build : List String) : List Log.Event :=
  libraryLog fs library ++ build.head?.toList.map .starting

/-- What is said after it, with the files that it left. -/
def endLog (code : Nat) (fs : FileSystem) (traces : String) (settings : Settings) :
    List Log.Event :=
  .finished code :: generateLog fs traces settings

/-- Runs the build and makes the database; `scratch` is a fresh path for the
directory of traces, which is gone at the end. -/
def record (platform : Platform) (scratch : String) (options : Options) (build : List String)
    (environment : Environment) (fs : FileSystem) : Outcome :=
  let log := platform.format.opened (logLevel options.verbosity) (logFilter? environment)
  let failed (trouble : Trouble) (files : FileSystem) (stdout said : String) : Outcome :=
    let (code, message) := trouble.ending
    { code, files, stdout, stderr := said ++ errorLine message }
  match fs.makeDirectories scratch with
  | .error cause =>
    failed (Trouble.within { cause := .plain [cause.message] } "cannot create scratch directory")
      fs "" log.notice
  | .ok prepared =>
    let clean (files : FileSystem) : FileSystem :=
      match files.resolve scratch with
      | .ok location => files.eraseTree location
      | .error _ => files
    let library := options.library.getD (libraryOf environment)
    let extra :=
      recordingVariables prepared library scratch (environment.nonEmpty? preloadVariable)
    let early := startLog prepared library build
    let announced := log.notice ++ log.lines 0 early
    match runBuild platform.launch build environment extra prepared with
    | .error trouble => failed trouble (clean prepared) "" announced
    | .ok ended =>
      -- the build writes to the same standard error
      let late := endLog ended.status.code ended.files scratch options.settings
      let said := announced ++ ended.stderr ++ log.lines early.length late
      match generate ended.files scratch options.settings with
      | (.ok _, files) =>
        { code := ended.status.code
          files := clean files
          stdout := ended.stdout
          stderr := said }
      | (.error failure, files) =>
        failed (failure.trouble platform.refusal options.settings.output) (clean files)
          ended.stdout said

/-- The line shown for the version. -/
def versionLine : String := "cdb 0.2.0\n"

/-- The text shown for help, line by line. -/
def helpLines : List String :=
  [ "Run a build and write the compiler invocations to compile_commands.json",
    "",
    "Usage: cdb [OPTIONS] <BUILD>...",
    "",
    "Arguments:",
    "  <BUILD>...  Build command to run",
    "",
    "Options:",
    "  -o, --output <FILE>   Database file to write [default: compile_commands.json]",
    "  -a, --append          Merge with the existing database instead of replacing it",
    "  -r, --raw             Write entries as found, without deduplication or existence checks",
    "  -l, --link            Also record linker invocations",
    "  -v, --verbose...      Increase log verbosity (-v info, -vv debug, -vvv trace)",
    "      --library <PATH>  Interception library to preload [env: CDB_LIBRARY]",
    "  -h, --help            Print help",
    "  -V, --version         Print version" ]

/-- The text shown for help. -/
def helpText : String := String.join (helpLines.map (· ++ "\n"))

/-- The exit code for arguments that are refused. -/
def usageCode : Int := 2

/-- The recorder with its arguments. -/
def run (platform : Platform) (scratch : String) (arguments : List String)
    (environment : Environment) (fs : FileSystem) : Outcome :=
  match parseArguments arguments with
  | .error fault =>
    { code := usageCode
      files := fs
      stderr := "error: " ++ fault.message ++ "\n\nUsage: cdb [OPTIONS] <BUILD>...\n" }
  | .ok .help => { code := 0, files := fs, stdout := helpText }
  | .ok .version => { code := 0, files := fs, stdout := versionLine }
  | .ok (.record options build) => record platform scratch options build environment fs

end Recorder

end CompilationDatabase
