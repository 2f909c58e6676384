/-
What an identity says of an entry.

The text behind an identity puts a NUL between the file, the directory and the
arguments.  A file and a directory without a NUL are told from what follows, so
the text gives all three (`key_eq_iff`); and the arguments are written in one
way only, so their text gives them (`argumentsOf_of_split`).

* `identity_eq_iff` — unless their digests collide, two entries have the same
  identity just if they agree on the file, the directory and the arguments.
-/
import CompilationDatabase.Entry.Identity
import CompilationDatabase.Proofs.CommandLine.Replay
import CompilationDatabase.Proofs.Text.Splitting

namespace CompilationDatabase.Entry

open CommandLine

variable {a b : Entry}

theorem toList_key (e : Entry) :
    e.key.toList = e.file.toList ++ '\x00' ::
      (e.directory.toList ++ '\x00' :: (argumentsOf e.command).toList) := by
  simp [key]

theorem key_eq_iff (hfile : '\x00' ∉ a.file.toList) (hfile' : '\x00' ∉ b.file.toList)
    (hdirectory : '\x00' ∉ a.directory.toList) (hdirectory' : '\x00' ∉ b.directory.toList) :
    a.key = b.key ↔ a.file = b.file ∧ a.directory = b.directory ∧
      argumentsOf a.command = argumentsOf b.command := by
  rw [← String.toList_inj, toList_key, toList_key, Text.append_separator_inj hfile hfile',
    Text.append_separator_inj hdirectory hdirectory']
  simp only [String.toList_inj]

theorem argumentsOf_of_split {command : String} {words : List String}
    (h : split command = .ok words) : argumentsOf command = join (words.drop 1) := by
  rw [argumentsOf, h]

theorem argumentsOf_join (words : List String) :
    argumentsOf (join words) = join (words.drop 1) :=
  argumentsOf_of_split (split_join words)

/-- Whether the digest tells the texts of the two entries apart. -/
def NoCollision (a b : Entry) : Prop :=
  Digest.sha256 a.key.toUTF8 = Digest.sha256 b.key.toUTF8 → a.key = b.key

theorem NoCollision.identity_eq_iff_key_eq (h : NoCollision a b) :
    a.identity = b.identity ↔ a.key = b.key :=
  ⟨h, fun hkey => by rw [identity, identity, hkey]⟩

/-- **Unless their digests collide, two entries have the same identity just if
they agree on the file, the directory and the arguments.** -/
theorem identity_eq_iff {words words' : List String}
    (hfile : '\x00' ∉ a.file.toList) (hfile' : '\x00' ∉ b.file.toList)
    (hdirectory : '\x00' ∉ a.directory.toList) (hdirectory' : '\x00' ∉ b.directory.toList)
    (hsplit : split a.command = .ok words) (hsplit' : split b.command = .ok words')
    (hdigest : NoCollision a b) :
    a.identity = b.identity ↔
      a.file = b.file ∧ a.directory = b.directory ∧ words.drop 1 = words'.drop 1 := by
  rw [hdigest.identity_eq_iff_key_eq, key_eq_iff hfile hfile' hdirectory hdirectory',
    argumentsOf_of_split hsplit, argumentsOf_of_split hsplit', join_inj]

/-- A wrapper and the compiler it starts, quoted in other ways, are the same; an
option makes a difference. -/
theorem identity_eq_iff_wrapper :
    let wrapped : Entry := ⟨"ccache  '-c' a.c", "/w", "/w/a.c", none⟩
    let compiled : Entry := ⟨"/usr/bin/cc -c \"a.c\"", "/w", "/w/a.c", some []⟩
    let debugged : Entry := ⟨"cc -c -g a.c", "/w", "/w/a.c", none⟩
    wrapped.identity = compiled.identity ∧ wrapped.identity ≠ debugged.identity := by
  intro wrapped compiled debugged
  have hsplit : split wrapped.command = .ok ["ccache", "-c", "a.c"] :=
    toOption_eq_some_iff.mp (by decide +kernel)
  have hsplit' : split compiled.command = .ok ["/usr/bin/cc", "-c", "a.c"] :=
    toOption_eq_some_iff.mp (by decide +kernel)
  have hsplit'' : split debugged.command = .ok ["cc", "-c", "-g", "a.c"] :=
    toOption_eq_some_iff.mp (by decide +kernel)
  have hkey : NoCollision wrapped compiled := fun _ => by decide +kernel
  have hdigest : NoCollision wrapped debugged := fun h => absurd h (by decide +kernel)
  constructor
  · refine (identity_eq_iff ?_ ?_ ?_ ?_ hsplit hsplit' hkey).mpr (by decide)
    all_goals decide
  · refine mt (identity_eq_iff ?_ ?_ ?_ ?_ hsplit hsplit'' hdigest).mp (by decide)
    all_goals decide

end CompilationDatabase.Entry
