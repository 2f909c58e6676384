/-
A command line that is written is read back.

Each argument is written so that the reader finds it as one word: one that
stands as it is by the test that let it stand (`isPlain`), and one in quotes
because inside them the reader undoes what `escape` does (`Reader.run_escape`).
Neither ends in a backslash, so the space behind it ends the word.

* `split_quote` — a written argument is one word, the argument;
* `split_join_and_join_injective` — the arguments of a written command line are
  those it was written for, so no two lists of arguments are written alike.
-/
import CompilationDatabase.CommandLine.Quoting
import CompilationDatabase.Proofs.CommandLine.Reading
import Mathlib.Logic.Function.Defs

namespace CompilationDatabase.CommandLine

namespace Reader

/-- Inside double quotes, reading an escaped text puts the text into the word. -/
theorem run_escape {r : Reader} {start : Nat} (h : r.mode = .double start) (text : List Char) :
    (r.run (escape text)).mode = .double start ∧ (r.run (escape text)).words = r.words ∧
      ((r.run (escape text)).begun start).value.toList = (r.begun start).value.toList ++ text := by
  induction text generalizing r with
  | nil => simp [escape, run, h]
  | cons c text ih =>
    rw [escape]
    by_cases hc : isEscapable c
    · rw [if_pos hc]
      -- the backslash only changes the mode, and the character behind it is put
      have hput : r.run ('\\' :: c :: escape text) =
          Reader.run (r.run ['\\', c]) (escape text) := rfl
      have hmode : (r.run ['\\', c]).mode = .double start := by
        simp [run, step_eq, h, hc, advance]
      obtain ⟨ihmode, ihwords, ihvalue⟩ := ih hmode
      rw [hput]
      refine ⟨ihmode, ihwords.trans ?_, ihvalue.trans ?_⟩
      · simp [run, step_eq, h, hc, advance, put]
      · simp [run, step_eq, h, hc, advance, put, begun]
    · -- neither the quote nor the backslash is left as it is, so the character is put
      rw [if_neg hc]
      have hquote : c ≠ '"' := fun heq => hc (by simp [heq, isEscapable])
      have hbackslash : c ≠ '\\' := fun heq => hc (by simp [heq, isEscapable])
      have hstep : r.step c = (r.advance c).put start c (r.advance c).offset := by
        rw [step_eq, h]
        simp [hquote, hbackslash]
      obtain ⟨ihmode, ihwords, ihvalue⟩ := ih (r := r.step c) (by rw [hstep]; exact h)
      refine ⟨ihmode, ihwords.trans ?_, ihvalue.trans ?_⟩
      · rw [hstep]; rfl
      · rw [hstep]; simp [put, begun, advance]

end Reader

theorem split_enclose (argument : String) : split (enclose argument) = .ok [argument] := by
  have htext : (enclose argument).toList = '"' :: (escape argument.toList ++ ['"']) := by
    simp [enclose]
  have hopen : (({} : Reader).step '"').mode = .double 0 := rfl
  obtain ⟨hmode, hwords, hvalue⟩ := Reader.run_escape hopen argument.toList
  generalize hinside : (({} : Reader).step '"').run (escape argument.toList) = inside at *
  have hrun : ({} : Reader).run (enclose argument).toList = inside.step '"' := by
    rw [htext, ← hinside]
    exact Reader.run_append (({} : Reader).step '"') (escape argument.toList) ['"']
  -- the last quote ends the word begun at offset 0
  have hclose : inside.step '"'
      = { (inside.advance '"').reach 0 (inside.advance '"').offset with mode := .plain } := by
    rw [Reader.step_eq, hmode]
    rfl
  have hword : (inside.begun 0).value = argument := by
    rw [← String.toList_inj, hvalue]
    rfl
  unfold split tokenize
  rw [hrun, hclose]
  simp only [Reader.finish, Reader.flush, Reader.reach, Reader.advance, hwords, Except.map]
  show Except.ok [(inside.begun 0).value] = Except.ok [argument]
  rw [hword]

theorem isPlain_eq_true_iff (argument : String) :
    isPlain argument ↔ argument.toList.getLast? ≠ some '\\' ∧ split argument = .ok [argument] := by
  unfold isPlain
  split
  · rename_i word hword
    simp [hword]
  · rename_i hword
    have : split argument ≠ .ok [argument] := fun h => hword argument h
    simp [this]

/-- A written argument is one word, the argument. -/
theorem split_quote (argument : String) : split (quote argument) = .ok [argument] := by
  unfold quote
  split
  · rename_i hplain
    exact ((isPlain_eq_true_iff argument).mp hplain).2
  · exact split_enclose argument

/-- A written argument does not escape what follows it. -/
theorem getLast?_quote_ne (argument : String) : (quote argument).toList.getLast? ≠ some '\\' := by
  unfold quote
  split
  · rename_i hplain
    exact ((isPlain_eq_true_iff argument).mp hplain).1
  · simp [enclose, List.getLast?_cons]

theorem join_cons_cons (first second : String) (rest : List String) :
    join (first :: second :: rest) = quote first ++ " " ++ join (second :: rest) := by
  simp only [join, List.map_cons, String.intercalate_cons_cons]

theorem split_join (arguments : List String) : split (join arguments) = .ok arguments := by
  induction arguments with
  | nil => rfl
  | cons first rest ih =>
    cases rest with
    | nil => simpa [join] using split_quote first
    | cons second rest =>
      rw [join_cons_cons]
      exact split_append_space (split_quote first) (getLast?_quote_ne first) ih

theorem join_inj {a b : List String} : join a = join b ↔ a = b := by
  refine ⟨fun h => ?_, fun h => by rw [h]⟩
  have hread := split_join a
  rw [h, split_join] at hread
  exact (Except.ok.inj hread).symm

/-- **A command line that is written is read back**, whatever the arguments;
so no two lists of arguments are written alike. -/
theorem split_join_and_join_injective :
    (∀ arguments : List String, split (join arguments) = .ok arguments) ∧
      Function.Injective join := by
  refine ⟨split_join, fun a b h => ?_⟩
  have hread : (.ok a : Except UnclosedQuote (List String)) = .ok b := by
    rw [← split_join a, ← split_join b, h]
  exact Except.ok.inj hread

end CompilationDatabase.CommandLine
