/-
The written form of records.

A trace is a sequence of groups, each ended by a group separator.  A group has
five fields with field separators between them; the last field holds the
arguments, each ended by a token separator.  Blanks of ASCII around a group do
not count.  Groups with fewer fields, without a directory or without arguments
are skipped, fields beyond the fifth are ignored.

* `Record.encode` — the group of one record;
* `parse` — the records of a trace;
* `load` — the records of a trace file.
-/
import CompilationDatabase.FileSystem.Lookup
import CompilationDatabase.Log.Event
import CompilationDatabase.Text.CharacterClass
import CompilationDatabase.Trace.Record

namespace CompilationDatabase.Trace

/-- Ends a group. -/
def groupSeparator : Char := '\x1d'

/-- Stands between the fields of a group. -/
def fieldSeparator : Char := '\x1e'

/-- Ends an argument. -/
def tokenSeparator : Char := '\x1f'

/-- The record as the interception library writes it. -/
def Record.encode (r : Record) : String :=
  let fields := [r.pid, r.ppid, r.function, r.directory].map fun field =>
    field.toList ++ [fieldSeparator]
  let tokens := r.command.map fun token => token.toList ++ [tokenSeparator]
  String.ofList (fields.flatten ++ tokens.flatten ++ [groupSeparator])

/-- The arguments written in a field.  Each is ended by a separator, so the
piece after the last separator is empty and is none of them. -/
def parseTokens (field : List Char) : List String :=
  let tokens := field.splitOn tokenSeparator
  let tokens := if tokens.getLast? = some [] then tokens.dropLast else tokens
  tokens.map String.ofList

/-- The record of a group, if the group has one. -/
def parseGroup (group : List Char) : Option Record :=
  match group.splitOn fieldSeparator with
  | pid :: ppid :: function :: directory :: tokens :: _ =>
    let command := parseTokens tokens
    if directory.isEmpty || command.isEmpty then none
    else some
      { pid := String.ofList pid
        ppid := String.ofList ppid
        function := String.ofList function
        directory := String.ofList directory
        command }
  | _ => none

/-- The records of a trace, in order. -/
def parse (content : String) : List Record :=
  (content.toList.splitOn groupSeparator).filterMap fun group =>
    let group := Text.trim Text.isAsciiBlank group
    if group.isEmpty then none else parseGroup group

/-- What is said of a group, which is why it has no record. -/
def groupLog (group : List Char) : List Log.Event :=
  match group.splitOn fieldSeparator with
  | pid :: _ :: _ :: directory :: tokens :: _ =>
    if directory.isEmpty then [.directoryMissing (String.ofList pid)]
    else if (parseTokens tokens).isEmpty then [.commandMissing (String.ofList pid)]
    else []
  | fields => [.fieldsMissing fields.length]

/-- What is said in reading a trace. -/
def parseLog (content : String) : List Log.Event :=
  (content.toList.splitOn groupSeparator).flatMap fun group =>
    let group := Text.trim Text.isAsciiBlank group
    if group.isEmpty then [] else groupLog group

/-- Why a trace file has no records to give. -/
inductive ReadError where
  /-- The file cannot be read. -/
  | unreadable (path : String) (cause : FileError)
  /-- The file is not text. -/
  | notText (path : String)
deriving DecidableEq, Repr

/-- The text shown for the error. -/
def ReadError.message : ReadError → String
  | unreadable path cause => "failed to read trace file " ++ path ++ ": " ++ cause.message
  | notText path => "trace file " ++ path ++ " is not valid UTF-8"

/-- The records of a trace file. -/
def load (fs : FileSystem) (path : String) : Except ReadError (List Record) :=
  match fs.read path with
  | .error cause => .error (.unreadable path cause)
  | .ok content =>
    match String.fromUTF8? content with
    | some text => .ok (parse text)
    | none => .error (.notText path)

/-- What is said in reading a trace file. -/
def loadLog (fs : FileSystem) (path : String) : List Log.Event :=
  match fs.readText path with
  | .error _ => []
  | .ok text => parseLog text

end CompilationDatabase.Trace
