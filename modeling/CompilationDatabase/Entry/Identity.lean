/-
Which entries are the same.

Two entries say the same if they agree on the file, the directory and the
arguments behind the executable: a wrapper and the compiler it starts give one
entry.  The arguments are compared as the reader of command lines sees them;
a command line that it refuses is cut at its first blank instead.

* `Entry.key` — the text that identifies an entry;
* `Entry.identity` — its digest;
* `dedupe` — an entry for each identity whose file exists, the first of them.
-/
import CompilationDatabase.CommandLine.Quoting
import CompilationDatabase.Digest.Sha256
import CompilationDatabase.Entry.Basic
import CompilationDatabase.FileSystem.Lookup
import CompilationDatabase.Log.Event
import CompilationDatabase.Text.CharacterClass

namespace CompilationDatabase

namespace Entry

/-- What follows the first run of non-blank characters. -/
def afterFirstRun (text : List Char) : List Char :=
  Text.trimStart Text.isBlank
    ((Text.trimStart Text.isBlank text).dropWhile (!Text.isBlank ·))

/-- The arguments of a command line behind the executable. -/
def argumentsOf (command : String) : String :=
  match CommandLine.split command with
  | .ok words => CommandLine.join (words.drop 1)
  | .error _ => String.ofList (afterFirstRun command.toList)

/-- What is said of a command line that is refused. -/
def argumentsLog (command : String) : List Log.Event :=
  match CommandLine.split command with
  | .ok _ => []
  | .error unclosed => [.unsplittable command unclosed.message]

/-- The text that identifies the entry. -/
def key (e : Entry) : String :=
  e.file ++ "\x00" ++ e.directory ++ "\x00" ++ argumentsOf e.command

/-- The identity of the entry. -/
def identity (e : Entry) : String :=
  Digest.sha256 e.key.toUTF8

end Entry

/-- How many entries were kept, and why the others were not. -/
structure DedupeStats where
  kept : Nat := 0
  /-- Entries with the identity of an earlier one. -/
  duplicates : Nat := 0
  /-- Entries whose file does not exist. -/
  missing : Nat := 0
deriving DecidableEq, Repr

/-- The state of going through a list of entries. -/
structure Dedupe where
  /-- The identities met. -/
  seen : List String := []
  /-- The entries kept. -/
  kept : Array Entry := #[]
  duplicates : Nat := 0
  missing : Nat := 0

/-- Takes one more entry: it is kept if its file exists and no entry with its
identity was kept before. -/
def Dedupe.step (present : String → Bool) (d : Dedupe) (e : Entry) : Dedupe :=
  if !present e.file then { d with missing := d.missing + 1 }
  else if d.seen.contains e.identity then { d with duplicates := d.duplicates + 1 }
  else { d with seen := e.identity :: d.seen, kept := d.kept.push e }

/-- What is said of one more entry. -/
def Dedupe.stepLog (present : String → Bool) (d : Dedupe) (e : Entry) : List Log.Event :=
  if !present e.file then [.fileMissing e.file]
  else Entry.argumentsLog e.command ++
    if d.seen.contains e.identity then [.duplicate e.file] else []

/-- What is said in going through the entries that are left. -/
def Dedupe.log (present : String → Bool) : Dedupe → List Entry → List Log.Event
  | _, [] => []
  | d, e :: rest => d.stepLog present e ++ Dedupe.log present (d.step present e) rest

/-- Drops the entries whose file does not exist, and of each identity all but
the first that is left. -/
def dedupe (present : String → Bool) (entries : List Entry) : List Entry × DedupeStats :=
  let d := entries.foldl (Dedupe.step present) {}
  (d.kept.toList, ⟨d.kept.size, d.duplicates, d.missing⟩)

/-- The entries of an earlier database followed by fresh ones, without
duplicates; the earlier ones take precedence. -/
def merge (present : String → Bool) (prior fresh : List Entry) : List Entry × DedupeStats :=
  dedupe present (prior ++ fresh)

/-- What is said in merging. -/
def mergeLog (present : String → Bool) (prior fresh : List Entry) : List Log.Event :=
  Dedupe.log present {} (prior ++ fresh)

end CompilationDatabase
