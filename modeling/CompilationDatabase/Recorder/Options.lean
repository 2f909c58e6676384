/-
The arguments of the recorder.

Options come first: long ones (`--output FILE`, `--output=FILE`), short ones
(`-o FILE`) and short ones in a cluster (`-al`, `-lo FILE`, `-oFILE` as long as
each character of it is the letter of an option).  The build begins behind
`--`, or at the first argument that is no option, and takes all that follows.

A value is the next argument, unless that is `--` or an option; it may not be
empty.  No option but `-v` may be repeated.
-/
import CompilationDatabase.Recorder.Generation

namespace CompilationDatabase.Recorder

/-- The options. -/
inductive Flag where
  | output
  | append
  | raw
  | link
  | verbose
  | library
  | help
  | version
deriving DecidableEq, Repr

namespace Flag

/-- All options. -/
def all : List Flag := [output, append, raw, link, verbose, library, help, version]

/-- The name behind two dashes. -/
def name : Flag → String
  | output => "output"
  | append => "append"
  | raw => "raw"
  | link => "link"
  | verbose => "verbose"
  | library => "library"
  | help => "help"
  | version => "version"

/-- The letter behind one dash. -/
def letter? : Flag → Option Char
  | output => some 'o'
  | append => some 'a'
  | raw => some 'r'
  | link => some 'l'
  | verbose => some 'v'
  | library => none
  | help => some 'h'
  | version => some 'V'

/-- Whether the option takes a value. -/
def takesValue : Flag → Bool
  | output => true
  | library => true
  | _ => false

/-- The option of a name. -/
def ofName? (text : String) : Option Flag := all.find? (·.name == text)

/-- The option of a letter. -/
def ofLetter? (c : Char) : Option Flag := all.find? (·.letter? == some c)

end Flag

/-- Why the arguments are refused. -/
inductive UsageError where
  /-- There is no build. -/
  | noBuild
  /-- The option has no value. -/
  | noValue (flag : Flag)
  /-- The option takes no value and has one. -/
  | unexpectedValue (flag : Flag)
  /-- The option was given before. -/
  | repeated (flag : Flag)
deriving DecidableEq, Repr

namespace UsageError

/-- The text shown for the error. -/
def message : UsageError → String
  | noBuild => "the following required arguments were not provided: <BUILD>..."
  | noValue flag => "a value is required for '--" ++ flag.name ++ "' but none was supplied"
  | unexpectedValue flag => "unexpected value for '--" ++ flag.name ++ "' found"
  | repeated flag => "the argument '--" ++ flag.name ++ "' cannot be used multiple times"

end UsageError

/-- The options read so far. -/
structure Options where
  output : Option String := none
  append : Bool := false
  raw : Bool := false
  link : Bool := false
  /-- How often more log lines were asked for, at most 255 times. -/
  verbosity : Nat := 0
  library : Option String := none
deriving DecidableEq, Repr

/-- How the database is made under the options. -/
def Options.settings (o : Options) : Settings :=
  { output := o.output.getD "compile_commands.json"
    append := o.append
    raw := o.raw
    link := o.link }

/-- What the arguments ask for. -/
inductive Request where
  | help
  | version
  /-- Run the build and make the database. -/
  | record (options : Options) (build : List String)
deriving DecidableEq, Repr

/-- Sets the value of an option that takes one. -/
def Options.setValue (o : Options) (flag : Flag) (value : String) : Except UsageError Options :=
  if value.isEmpty then .error (.noValue flag)
  else match flag with
    | .output =>
      if o.output.isSome then .error (.repeated flag) else .ok { o with output := some value }
    | .library =>
      if o.library.isSome then .error (.repeated flag) else .ok { o with library := some value }
    | _ => .error (.unexpectedValue flag)

/-- What an argument is while options are read. -/
inductive Reading where
  /-- The two dashes before the build. -/
  | dashes
  /-- An option by its name, with a value behind an equals sign if there is one. -/
  | long (flag : Flag) (value : Option String)
  /-- Options by their letters. -/
  | cluster (letters : List Char)
  /-- Anything else. -/
  | other
deriving DecidableEq, Repr

/-- The argument as an option. -/
def Reading.of (argument : String) : Reading :=
  match argument.toList with
  | ['-', '-'] => .dashes
  | '-' :: '-' :: text =>
    let name := String.ofList (text.takeWhile (· ≠ '='))
    match Flag.ofName? name, text.dropWhile (· ≠ '=') with
    | some flag, _ :: value => .long flag (some (String.ofList value))
    | some flag, [] => .long flag none
    | none, _ => .other
  | '-' :: letters =>
    if letters.isEmpty || letters.any (Flag.ofLetter? · |>.isNone) then .other
    else .cluster letters
  | _ => .other

/-- How the reading goes on after an option. -/
inductive Progress where
  /-- With the options so far. -/
  | next (options : Options)
  /-- With a value for the option. -/
  | value (options : Options) (flag : Flag)
  /-- Not at all: the answer is known. -/
  | done (request : Request)
deriving DecidableEq, Repr

/-- Takes an option without a value. -/
def Options.take (o : Options) : Flag → Except UsageError Progress
  | .append =>
    if o.append then .error (.repeated .append) else .ok (.next { o with append := true })
  | .raw => if o.raw then .error (.repeated .raw) else .ok (.next { o with raw := true })
  | .link => if o.link then .error (.repeated .link) else .ok (.next { o with link := true })
  | .verbose => .ok (.next { o with verbosity := min (o.verbosity + 1) 255 })
  | .help => .ok (.done .help)
  | .version => .ok (.done .version)
  | flag => .ok (.value o flag)

/-- Takes the options of a cluster; what is behind the letter of an option
with a value is that value. -/
def Options.takeCluster (o : Options) : List Char → Except UsageError Progress
  | [] => .ok (.next o)
  | c :: rest =>
    match Flag.ofLetter? c with
    | none => .ok (.next o)
    | some flag =>
      if flag.takesValue && !rest.isEmpty then
        (o.setValue flag (String.ofList rest)).map .next
      else do
        match ← o.take flag with
        | .next o => o.takeCluster rest
        | progress => .ok progress

/-- Reads the arguments; `pending` is the option whose value comes next. -/
def readArguments (o : Options) (pending : Option Flag) :
    List String → Except UsageError Request
  | [] =>
    match pending with
    | some flag => .error (.noValue flag)
    | none => .error .noBuild
  | argument :: rest =>
    match pending, Reading.of argument with
    | some flag, .other => do readArguments (← o.setValue flag argument) none rest
    | some flag, _ => .error (.noValue flag)
    | none, .dashes => if rest.isEmpty then .error .noBuild else .ok (.record o rest)
    | none, .long flag (some value) => do
      if flag.takesValue then readArguments (← o.setValue flag value) none rest
      else .error (.unexpectedValue flag)
    | none, .long flag none => do
      match ← o.take flag with
      | .next o => readArguments o none rest
      | .value o flag => readArguments o (some flag) rest
      | .done request => .ok request
    | none, .cluster letters => do
      match ← o.takeCluster letters with
      | .next o => readArguments o none rest
      | .value o flag => readArguments o (some flag) rest
      | .done request => .ok request
    | none, .other => .ok (.record o (argument :: rest))

/-- What the arguments ask for. -/
def parseArguments (arguments : List String) : Except UsageError Request :=
  readArguments {} none arguments

end CompilationDatabase.Recorder
