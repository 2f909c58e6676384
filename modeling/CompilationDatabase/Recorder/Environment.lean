/-
The environment of a recorded build.

The build is told by variables where to leave its traces, and which library to
load into each of its processes.  A variable that is set to the empty text
counts as not set.
-/
import CompilationDatabase.FileSystem.Lookup
import CompilationDatabase.Log.Event

namespace CompilationDatabase

/-- Variables with their values, the latest setting first. -/
abbrev Environment := List (String × String)

namespace Environment

/-- The value of a variable that is set to some text. -/
def nonEmpty? (environment : Environment) (name : String) : Option String :=
  (environment.lookup name).filter (· ≠ "")

/-- The environment after the variables were set as well, in order. -/
def setAll (environment settings : Environment) : Environment :=
  settings.reverse ++ environment

end Environment

namespace Recorder

/-- Where the interception library is, unless told otherwise. -/
def defaultLibrary : String := "/usr/local/lib/libear.so"

/-- The interception library that the environment names. -/
def libraryOf (environment : Environment) : String :=
  (environment.nonEmpty? "CDB_LIBRARY").getD defaultLibrary

/-- The filter for log lines that the environment names. -/
def logFilter? (environment : Environment) : Option String :=
  environment.nonEmpty? "CDB_LOG"

/-- Names the directory that the traces are left in. -/
def traceDirectoryVariable : String := "INTERCEPT_BUILD_TARGET_DIR"

/-- Names the libraries that are loaded into each process. -/
def preloadVariable : String := "LD_PRELOAD"

/-- What the build is told: the trace directory and, if the library exists,
the library before any other that is loaded already. -/
def recordingVariables (fs : FileSystem) (library traces : String) (existing : Option String) :
    Environment :=
  let preload := match existing with
    | some others => library ++ ":" ++ others
    | none => library
  (traceDirectoryVariable, traces) ::
    if fs.contains library then [(preloadVariable, preload)] else []

/-- What is said of a library that does not exist. -/
def libraryLog (fs : FileSystem) (library : String) : List Log.Event :=
  if fs.contains library then [] else [.noLibrary library]

/-- The level of the log for a number of requests to be more verbose. -/
def logLevel : Nat → Log.Level
  | 0 => .warn
  | 1 => .info
  | 2 => .debug
  | _ => .trace

end Recorder

end CompilationDatabase
