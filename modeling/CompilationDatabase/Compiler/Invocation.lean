/-
What one invocation of a compiler driver does.

The arguments are read from left to right.  At each one the rule found for it
takes its values and changes the classification; an argument without a rule is
passed over, and a flag with too few arguments behind it ends the reading.
The only fault is a list of input files that cannot be read.

* `Classification` — the action, the input files, the output and the rest;
* `Rule.apply` — one rule at a cursor;
* `iterate`, `scan` — one argument after the other;
* `classifyIn` — the whole invocation, as run in a directory.
-/
import CompilationDatabase.Compiler.Cursor
import CompilationDatabase.Compiler.Executable
import CompilationDatabase.Compiler.Rule
import CompilationDatabase.Compiler.SourceFile
import CompilationDatabase.FileSystem.Lookup
import CompilationDatabase.Log.Event
import CompilationDatabase.Text.CharacterClass

namespace CompilationDatabase.Compiler

/-- What an invocation does, and with which files. -/
structure Classification where
  /-- The action. -/
  action : Action := .link
  /-- The input files, in the order they were met. -/
  files : List String := []
  /-- The output file that was asked for last. -/
  output : Option String := none
  /-- The language that was asked for last. -/
  language : Option String := none
  /-- Whether the executable is a driver for C++. -/
  isCxx : Bool := false
  /-- The options that are kept. -/
  options : List String := []
  /-- The architectures. -/
  architectures : List String := []
deriving DecidableEq, Repr, Inhabited

/-- The language that was asked for, else that of the first source file. -/
def Classification.sourceLanguage? (c : Classification) : Option String :=
  c.language <|> c.files.findSome? languageOf?

/-- A list of input files that cannot be read. -/
structure UnreadableList where
  /-- The path of the list. -/
  path : String
  /-- Why it cannot be read. -/
  cause : FileError
deriving DecidableEq, Repr

/-- The text shown for the fault. -/
def UnreadableList.message (fault : UnreadableList) : String :=
  "failed to read file list " ++ fault.path ++ ": " ++ fault.cause.message

/-- The files of a list: its lines without blanks around, and without the
lines that are blank. -/
def listedFiles (content : String) : List String :=
  ((content.toList.splitOn '\n').map (Text.trim Text.isBlank)).filterMap fun line =>
    if line.isEmpty then none else some (String.ofList line)

/-- Reads a list of files, whose path is taken from the directory. -/
def readFileList (fs : FileSystem) (directory path : String) :
    Except UnreadableList (List String) :=
  let place := Path.under directory path
  match fs.readText place with
  | .ok content => .ok (listedFiles content)
  | .error cause => .error ⟨place, cause⟩

/-- Why a rule did not come to an end. -/
inductive Halt where
  /-- The flag needs more arguments than there are. -/
  | endOfArguments
  /-- A list of files cannot be read. -/
  | unreadable (fault : UnreadableList)
deriving DecidableEq, Repr

/-- The classification after a rule took the flag and its values. -/
def Rule.effectOn (rule : Rule) (fs : FileSystem) (directory flag : String)
    (values : List String) (c : Classification) : Except UnreadableList Classification :=
  let value := values.headD ""
  match rule.effect with
  | .action asked => .ok { c with action := c.action.escalate asked }
  | .architecture => .ok { c with architectures := c.architectures ++ [value] }
  | .fileList => (readFileList fs directory value).map fun files => { c with files }
  | .file => .ok { c with files := c.files ++ [flag] }
  | .language => .ok { c with language := some value }
  | .output => .ok { c with output := some value }
  | .option =>
    -- a separate value is kept joined, so that both spellings give one option
    let kept := if rule.arity = .joinedOrSeparate then [String.join (flag :: values)]
      else flag :: values
    .ok { c with options := c.options ++ kept }
  | .aliasOf spelling => .ok { c with options := c.options ++ [spelling] }
  | .ignore => .ok c

/-- Takes the rule's arguments at the cursor, whose argument is the flag, and changes
the classification as they say. -/
def Rule.apply (rule : Rule) (fs : FileSystem) (directory flag : String) (cursor : Cursor)
    (c : Classification) : Except Halt Unit × Cursor × Classification :=
  match cursor.take (rule.extra flag) with
  | (.error _, next) => (.error .endOfArguments, next, c)
  | (.ok values, next) =>
    match rule.effectOn fs directory flag values c with
    | .error fault => (.error (.unreadable fault), next, c)
    | .ok after => (.ok (), next, after)

theorem Rule.cursor_apply (rule : Rule) (fs : FileSystem) (directory flag : String)
    (cursor : Cursor) (c : Classification) :
    (rule.apply fs directory flag cursor c).2.1 = (cursor.take (rule.extra flag)).2 := by
  unfold Rule.apply
  split
  · simp_all
  · split <;> simp_all

/-- How the reading goes on after the argument under a cursor. -/
inductive Iteration where
  /-- From another cursor on. -/
  | next (cursor : Cursor) (c : Classification)
  /-- Not at all; the cursor is left where it is then. -/
  | last (cursor : Cursor) (result : Except UnreadableList Classification)

/-- The cursor afterwards. -/
def Iteration.cursor : Iteration → Cursor
  | next cursor _ => cursor
  | last cursor _ => cursor

/-- What is done at an argument. -/
def iterate (fs : FileSystem) (directory token : String) (cursor : Cursor) (c : Classification) :
    Iteration :=
  match findRule token with
  | none => .next cursor.skip c
  | some rule =>
    match rule.apply fs directory token cursor c with
    | (.ok _, behind, after) => .next behind after
    | (.error .endOfArguments, behind, after) => .last behind (.ok after)
    | (.error (.unreadable fault), behind, _) => .last behind (.error fault)

/-- An argument that was looked at is behind the cursor. -/
theorem remaining_iterate_lt {cursor : Cursor} {token : String} (h : cursor.current? = some token)
    (fs : FileSystem) (directory : String) (c : Classification) :
    (iterate fs directory token cursor c).cursor.remaining < cursor.remaining := by
  have hcurrent : cursor.current? ≠ none := by simp [h]
  rw [iterate]
  cases findRule token with
  | none => exact Cursor.remaining_skip_lt hcurrent
  | some rule =>
    have htake := Cursor.remaining_take_lt (rule.extra token) hcurrent
    rw [← rule.cursor_apply fs directory token cursor c] at htake
    dsimp only
    generalize rule.apply fs directory token cursor c = applied at htake ⊢
    -- whatever the rule came to, the cursor is where it left it
    rcases applied with ⟨(_ | fault) | _, behind, after⟩
    all_goals exact htake

/-- Reads the arguments from the cursor on. -/
def scan (fs : FileSystem) (directory : String) (cursor : Cursor) (c : Classification) :
    Except UnreadableList Classification :=
  match _ : cursor.current? with
  | none => .ok c
  | some token =>
    match _ : iterate fs directory token cursor c with
    | .next behind after => scan fs directory behind after
    | .last _ result => result
termination_by cursor.remaining
decreasing_by
  have hlt := remaining_iterate_lt ‹cursor.current? = some token› fs directory c
  rwa [‹iterate fs directory token cursor c = _›] at hlt

/-- What is said at an argument. -/
def iterateLog (fs : FileSystem) (directory token : String) (cursor : Cursor)
    (c : Classification) : List Log.Event :=
  match findRule token with
  | none => [.unmatched token]
  | some rule =>
    match (rule.apply fs directory token cursor c).1 with
    | .error .endOfArguments => [.valueMissing token rule.name]
    | _ => []

/-- What is said in reading the arguments from the cursor on. -/
def scanLog (fs : FileSystem) (directory : String) (cursor : Cursor) (c : Classification) :
    List Log.Event :=
  match _ : cursor.current? with
  | none => []
  | some token =>
    iterateLog fs directory token cursor c ++
      match _ : iterate fs directory token cursor c with
      | .next behind after => scanLog fs directory behind after
      | .last _ _ => []
termination_by cursor.remaining
decreasing_by
  have hlt := remaining_iterate_lt ‹cursor.current? = some token› fs directory c
  rwa [‹iterate fs directory token cursor c = _›] at hlt

/-- What is known before any argument is read. -/
def initialClassification (command : List String) : Classification where
  isCxx := match command with
    | executable :: _ => Compiler.isCxx executable
    | [] => false

/-- What the invocation does when it is run in the directory. -/
def classifyIn (fs : FileSystem) (directory : String) (command : List String) :
    Except UnreadableList Classification :=
  scan fs directory ⟨command.drop 1, 0⟩ (initialClassification command)

/-- What is said in reading the invocation. -/
def classifyLog (fs : FileSystem) (directory : String) (command : List String) :
    List Log.Event :=
  scanLog fs directory ⟨command.drop 1, 0⟩ (initialClassification command)

/-- What the invocation does when it is run in the working directory. -/
def classify (fs : FileSystem) (command : List String) :
    Except UnreadableList Classification :=
  classifyIn fs "" command

end CompilationDatabase.Compiler
