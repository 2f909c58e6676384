/-
How a run of the recorder ends.

An error may carry the exit code and the message to end with; any other error
ends with one code, and its message is the chain of what was being done, the
outermost first, down to the cause.
-/

namespace CompilationDatabase.Recorder

/-- The exit code for a failure of the recorder itself. -/
def internalCode : Int := 70

/-- The exit code if the build cannot be started. -/
def unstartedCode : Int := 127

/-- What went wrong in the first place. -/
inductive Cause where
  /-- An error that says how to end. -/
  | exit (code : Int) (message : String)
  /-- Any other error: its message, and those of its causes behind it. -/
  | plain (messages : List String)
deriving DecidableEq, Repr

/-- An error with what was being done when it arose, the innermost first. -/
structure Trouble where
  /-- What went wrong in the first place. -/
  cause : Cause
  /-- What was being done. -/
  contexts : List String := []
deriving DecidableEq, Repr

namespace Trouble

/-- The error, seen from one level further out. -/
def within (t : Trouble) (context : String) : Trouble :=
  { t with contexts := t.contexts ++ [context] }

/-- The exit code, and the message if there is one to show. -/
def ending (t : Trouble) : Int × Option String :=
  match t.cause with
  | .exit code message => (code, if message.isEmpty then none else some message)
  | .plain messages => (internalCode, some (": ".intercalate (t.contexts.reverse ++ messages)))

end Trouble

end CompilationDatabase.Recorder
