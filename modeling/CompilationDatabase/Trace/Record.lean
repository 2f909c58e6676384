/-
Records of started processes.

The interception library writes one record for each process a build starts:
who started it, how, where, and with which arguments.
-/

namespace CompilationDatabase.Trace

/-- One intercepted start of a process. -/
structure Record where
  /-- The process. -/
  pid : String
  /-- The process that started it. -/
  ppid : String
  /-- The name of the intercepted function. -/
  function : String
  /-- The working directory of the process. -/
  directory : String
  /-- The arguments, the executable first. -/
  command : List String
deriving DecidableEq, Repr

namespace Record

/-- The executable as it was invoked. -/
def executable (r : Record) : String := r.command.headD ""

/-- The arguments after the executable. -/
def arguments (r : Record) : List String := r.command.drop 1

end Record

end CompilationDatabase.Trace
