/-
A place in a list of arguments.

A cursor only moves forward and stops behind the last argument.
-/

namespace CompilationDatabase.Compiler

/-- A position in a list of arguments. -/
structure Cursor where
  /-- The arguments. -/
  arguments : List String
  /-- The number of arguments before the cursor. -/
  position : Nat := 0
deriving DecidableEq, Repr

/-- A value was asked for behind the last argument. -/
structure EndOfArguments where
deriving DecidableEq, Repr

/-- The text shown for the fault. -/
def EndOfArguments.message (_ : EndOfArguments) : String :=
  "unexpected end of arguments"

namespace Cursor

/-- The argument under the cursor. -/
def current? (c : Cursor) : Option String := c.arguments[c.position]?

/-- The cursor behind the argument under it. -/
def skip (c : Cursor) : Cursor :=
  { c with position := min (c.position + 1) c.arguments.length }

/-- Moves to the next argument and returns it.  The cursor moves even if there
is none, so that a flag without its value is not met again. -/
def advance (c : Cursor) : Except EndOfArguments String × Cursor :=
  match c.skip.current? with
  | some argument => (.ok argument, c.skip)
  | none => (.error ⟨⟩, c.skip)

/-- Whether the cursor is behind the last argument. -/
def isDone (c : Cursor) : Bool := c.arguments.length ≤ c.position

/-- The number of arguments from the cursor on. -/
def remaining (c : Cursor) : Nat := c.arguments.length - c.position

/-- Moves over `n` more arguments and behind them, and returns them. -/
def take : Nat → Cursor → Except EndOfArguments (List String) × Cursor
  | 0, c => (.ok [], c.skip)
  | n + 1, c =>
    match c.advance with
    | (.error fault, next) => (.error fault, next)
    | (.ok value, next) =>
      match take n next with
      | (.error fault, last) => (.error fault, last)
      | (.ok values, last) => (.ok (value :: values), last)

theorem remaining_skip_lt {c : Cursor} (h : c.current? ≠ none) :
    c.skip.remaining < c.remaining := by
  have hlt : c.position < c.arguments.length := by
    simpa [current?, List.getElem?_eq_none_iff] using h
  simp only [skip, remaining]
  omega

theorem remaining_skip_le (c : Cursor) : c.skip.remaining ≤ c.remaining := by
  simp only [skip, remaining]
  omega

theorem snd_advance (c : Cursor) : c.advance.2 = c.skip := by
  unfold advance
  split <;> rfl

theorem remaining_take_le (n : Nat) (c : Cursor) : (c.take n).2.remaining ≤ c.skip.remaining := by
  induction n generalizing c with
  | zero => exact Nat.le_refl _
  | succ n ih =>
    unfold take
    have hskip := snd_advance c
    split
    · rename_i next hadv
      rw [hadv] at hskip
      exact Nat.le_of_eq (congrArg remaining hskip)
    · rename_i value next hadv
      rw [hadv] at hskip
      simp only at hskip
      subst hskip
      have h := Nat.le_trans (ih c.skip) (remaining_skip_le c.skip)
      split
      · rename_i htake; rw [htake] at h; exact h
      · rename_i htake; rw [htake] at h; exact h

/-- Taking any number of arguments leaves fewer. -/
theorem remaining_take_lt {c : Cursor} (n : Nat) (h : c.current? ≠ none) :
    (c.take n).2.remaining < c.remaining :=
  Nat.lt_of_le_of_lt (remaining_take_le n c) (remaining_skip_lt h)

end Cursor

end CompilationDatabase.Compiler
