/-
What the recorder says of its work.

Whoever leaves something out, or finishes something, says so by an event.  An
event belongs to a part of the program, has a level, and shows a text with
named values behind it.  Which events are written is decided elsewhere
(`Log/Line.lean`); each function that says anything has its events beside it,
under its own name with `Log` behind it.

* `Event` — all that may be said;
* `Event.level`, `Event.part` — by which an event is let through or not;
* `Event.message`, `Event.fields` — what is shown.
-/

namespace CompilationDatabase.Log

/-- How much an event matters, the most first. -/
inductive Level where
  | warn
  | info
  | debug
  | trace
deriving DecidableEq, Repr, Ord

/-- The name of the level. -/
def Level.name : Level → String
  | warn => "warn"
  | info => "info"
  | debug => "debug"
  | trace => "trace"

/-- The part of the program that an event comes from. -/
inductive Part where
  /-- Running the build. -/
  | build
  /-- Making a database from traces. -/
  | generation
  /-- Reading traces. -/
  | traces
  /-- Reading invocations. -/
  | invocations
  /-- Making entries. -/
  | entries
  /-- Leaving out entries. -/
  | identities
  /-- Reading and writing databases. -/
  | databases
deriving DecidableEq, Repr

/-- A value that is shown with an event. -/
inductive Value where
  /-- A text as it is. -/
  | plain (text : String)
  /-- A text in quotes. -/
  | quoted (text : String)
  | number (value : Nat)
deriving DecidableEq, Repr

/-- What may be said. -/
inductive Event where
  /-- The interception library does not exist. -/
  | noLibrary (library : String)
  /-- The build is about to be started. -/
  | starting (program : String)
  /-- The build has ended. -/
  | finished (code : Nat)
  /-- A trace file cannot be read. -/
  | fileSkipped (path error : String)
  /-- The invocation of a record cannot be classified. -/
  | recordSkipped (pid error : String)
  /-- Entries of links were left out. -/
  | linksDropped (count : Nat)
  /-- Duplicates and missing files were left out. -/
  | deduplicated (kept duplicates missing : Nat)
  /-- The database is made. -/
  | made (output : String) (traceFiles records entries written : Nat)
  /-- A group of a trace has too few fields. -/
  | fieldsMissing (count : Nat)
  /-- A group of a trace has no directory. -/
  | directoryMissing (pid : String)
  /-- A group of a trace has no arguments. -/
  | commandMissing (pid : String)
  /-- No rule is for the argument. -/
  | unmatched (token : String)
  /-- A flag has too few arguments behind it. -/
  | valueMissing (flag rule : String)
  /-- A process contributes no entries. -/
  | noEntries (executable action : String)
  /-- A command line is refused. -/
  | unsplittable (command error : String)
  /-- The file of an entry does not exist. -/
  | fileMissing (file : String)
  /-- An entry says the same as an earlier one. -/
  | duplicate (file : String)
  /-- There is no database yet. -/
  | noDatabase (path : String)
  /-- A database was read. -/
  | loaded (path : String) (count : Nat)
  /-- A database was written. -/
  | saved (path : String) (count : Nat)
deriving DecidableEq, Repr

namespace Event

/-- How much the event matters. -/
def level : Event → Level
  | noLibrary .. | fileSkipped .. | recordSkipped .. => .warn
  | fieldsMissing .. | directoryMissing .. | commandMissing .. => .warn
  | starting .. | finished .. | made .. => .info
  | linksDropped .. | deduplicated .. | valueMissing .. => .debug
  | unsplittable .. | fileMissing .. => .debug
  | noDatabase .. | loaded .. | saved .. => .debug
  | unmatched .. | noEntries .. | duplicate .. => .trace

/-- The part of the program that the event comes from. -/
def part : Event → Part
  | noLibrary .. | starting .. | finished .. => .build
  | fileSkipped .. | recordSkipped .. | linksDropped .. | deduplicated .. | made .. => .generation
  | fieldsMissing .. | directoryMissing .. | commandMissing .. => .traces
  | unmatched .. | valueMissing .. => .invocations
  | noEntries .. => .entries
  | unsplittable .. | fileMissing .. | duplicate .. => .identities
  | noDatabase .. | loaded .. | saved .. => .databases

/-- The text shown for the event. -/
def message : Event → String
  | noLibrary .. => "interception library not found, no commands will be recorded"
  | starting .. => "starting build"
  | finished .. => "build finished"
  | fileSkipped .. => "skipping trace file"
  | recordSkipped .. => "skipping exec record"
  | linksDropped .. => "dropped link entries"
  | deduplicated .. => "deduplicated entries"
  | made .. => "wrote compilation database"
  | fieldsMissing .. => "skipping trace record with missing fields"
  | directoryMissing .. => "skipping trace record without a working directory"
  | commandMissing .. => "skipping trace record with an empty command"
  | unmatched .. => "unrecognized flag, skipping"
  | valueMissing .. => "flag is missing its value"
  | noEntries .. => "invocation contributes no entries"
  | unsplittable .. => "unsplittable command, cutting at whitespace"
  | fileMissing .. => "dropping entry for missing file"
  | duplicate .. => "dropping duplicate entry"
  | noDatabase .. => "no prior database"
  | loaded .. => "loaded prior database"
  | saved .. => "wrote database"

/-- The named values shown behind the text. -/
def fields : Event → List (String × Value)
  | noLibrary library => [("library", .plain library)]
  | starting program => [("program", .plain program)]
  | finished code => [("code", .number code)]
  | fileSkipped path error => [("path", .plain path), ("error", .plain error)]
  | recordSkipped pid error => [("pid", .plain pid), ("error", .plain error)]
  | linksDropped count => [("dropped", .number count)]
  | deduplicated kept duplicates missing =>
    [("kept", .number kept), ("duplicates", .number duplicates), ("missing", .number missing)]
  | made output traceFiles records entries written =>
    [("output", .plain output), ("trace_files", .number traceFiles), ("records", .number records),
      ("entries", .number entries), ("written", .number written)]
  | fieldsMissing count => [("fields", .number count)]
  | directoryMissing pid | commandMissing pid => [("pid", .plain pid)]
  | unmatched token => [("token", .quoted token)]
  | valueMissing flag rule => [("flag", .quoted flag), ("rule", .quoted rule)]
  | noEntries executable action => [("executable", .quoted executable), ("action", .plain action)]
  | unsplittable command error => [("command", .quoted command), ("error", .plain error)]
  | fileMissing file | duplicate file => [("file", .plain file)]
  | noDatabase path => [("path", .plain path)]
  | loaded path count | saved path count => [("path", .plain path), ("count", .number count)]

end Event

end CompilationDatabase.Log
