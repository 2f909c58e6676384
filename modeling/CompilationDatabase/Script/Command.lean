/-
Build scripts.

A build is often a short script: commands that are run in turn, depending on
how the one before ended, with their output led into files or into each other.
This file holds what a script says (`Command`) and the words it is made of
(`Part`), before anything is looked up or run.

The recorder does not read scripts.  They are here to have builds to record:
`Main` runs its builds with the launcher made from them, and so can whoever tries
the recorder on a build.  Nothing is proved of scripts, and nothing that is proved
of the recorder depends on them, for there the launcher is a parameter
(`Recorder.Platform.launch`).
-/

namespace CompilationDatabase.Script

/-- What a parameter is asked for besides its value. -/
inductive Asked where
  /-- The value alone. -/
  | value
  /-- The words in place of a missing value. -/
  | otherwise
  /-- The words in place of a value that is there, and else nothing. -/
  | instead
deriving DecidableEq, Repr

/-- A part of a word.  Only what is not quoted is split into fields and
matched against file names. -/
inductive Part where
  /-- Characters that stand for themselves. -/
  | text (quoted : Bool) (characters : String)
  /-- A parameter.  Its value is missing if it is not set or, unless empty
  values count, if it is empty. -/
  | parameter (quoted : Bool) (name : String) (asked : Asked) (emptyCounts : Bool)
      (words : List Part)
  /-- What a script writes to its output. -/
  | output (quoted : Bool) (script : String)
deriving Repr

/-- Whether the part is what a script writes. -/
def Part.isOutput : Part → Bool
  | output _ _ => true
  | _ => false

/-- A word of a script. -/
abbrev Word := List Part

/-- Where a command writes. -/
inductive Descriptor where
  | output
  | errors
deriving DecidableEq, Repr

/-- A change of where a command reads or writes. -/
inductive Redirection where
  /-- Reads from a file. -/
  | input (source : Word)
  /-- Writes to a file, from its start or behind what it has. -/
  | file (descriptor : Descriptor) (target : Word) (append : Bool)
  /-- Writes where the other descriptor does. -/
  | duplicate (descriptor other : Descriptor)
deriving Repr

/-- What a script says. -/
inductive Command where
  /-- Nothing. -/
  | nothing
  /-- Sets variables and runs a program or an action of the shell. -/
  | simple (assignments : List (String × Word)) (words : List Word)
      (redirections : List Redirection)
  /-- One after the other. -/
  | sequence (first second : Command)
  /-- The second only if the first succeeds. -/
  | both (first second : Command)
  /-- The second only if the first fails. -/
  | either (first second : Command)
  /-- Succeeds if the command fails. -/
  | negated (command : Command)
  /-- The second reads what the first writes. -/
  | pipe (first second : Command)
  /-- Either command, depending on how the test ends. -/
  | conditional (test whenTrue whenFalse : Command)
  /-- The body as long as the test succeeds, or as long as it fails. -/
  | loop (whileTrue : Bool) (test body : Command)
  /-- The body for each of the items, or for each argument of the script. -/
  | each (name : String) (items : Option (List Word)) (body : Command)
  /-- A command with redirections of its own. -/
  | redirected (body : Command) (redirections : List Redirection)
  /-- A command whose variables and directory are its own. -/
  | subshell (body : Command)
deriving Repr

end CompilationDatabase.Script
