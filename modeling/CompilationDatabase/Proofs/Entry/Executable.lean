/-
The executable and the identity of an entry.

Behind an executable that is written without quotes, the rest of a command line is
read as it is read alone (`split_append_space`, `split_append_space_error`).  So one
executable in place of another changes neither whether the command line can be split
nor what stands behind the first word; and where it cannot be split, the first blank is
the one behind the executable (`afterFirstRun_append`).  The two ways to find the
arguments differ in what they take for a blank: a no-break space belongs to a word, and
is trimmed off the text.

* `argumentsOf_append` — the arguments behind an executable are told by the rest;
* `identity_eq_of_executables` — so the identity is the same for every executable.
-/
import CompilationDatabase.Proofs.CommandLine.Unquoted
import CompilationDatabase.Proofs.Entry.Identity

namespace CompilationDatabase.Entry

open CommandLine

/-- Whether a text stands for an executable without quotes: it is not empty, and holds
neither quotes nor backslashes nor blanks. -/
def IsExecutable (name : String) : Prop :=
  name ≠ "" ∧ ∀ c ∈ name.toList, c ∉ ['\'', '"', '\\'] ∧ Text.isBlank c = false

instance (name : String) : Decidable (IsExecutable name) :=
  decidable_of_iff (name ≠ "" ∧ name.toList.all fun c =>
      c ∉ ['\'', '"', '\\'] ∧ Text.isBlank c = false) <| by
    simp only [IsExecutable, List.all_eq_true, decide_eq_true_eq]

variable {name : String}

/-- A separator of words is a blank, so such a text is one word, itself. -/
theorem IsExecutable.isBare (h : IsExecutable name) : IsBare name := by
  refine ⟨h.1, fun c hc hspecial => ?_⟩
  obtain ⟨hmark, hblank⟩ := h.2 c hc
  have happend : c ∈ [' ', '\t', '\n', '\r'] ++ ['\'', '"', '\\'] := hspecial
  rcases List.mem_append.mp happend with hseparator | hquote
  · have hblanks : [' ', '\t', '\n', '\r'].all Text.isBlank = true := by decide
    rw [List.all_eq_true.mp hblanks c hseparator] at hblank
    cases hblank
  · exact hmark hquote

theorem IsExecutable.getLast?_ne (h : IsExecutable name) : name.toList.getLast? ≠ some '\\' := by
  intro hlast
  exact (h.2 '\\' (List.mem_of_getLast? hlast)).1 (by simp)

/-! ### The text behind the first blank -/

/-- What is cut at the first blank after the executable is the rest, without the blanks
at its start. -/
theorem afterFirstRun_append (h : IsExecutable name) (rest : List Char) :
    afterFirstRun (name.toList ++ ' ' :: rest) = Text.trimStart Text.isBlank rest := by
  obtain ⟨hne, hname⟩ := h
  obtain ⟨c, more, hcons⟩ := List.exists_cons_of_ne_nil (mt String.toList_eq_nil_iff.mp hne)
  have hstart : Text.trimStart Text.isBlank (name.toList ++ ' ' :: rest)
      = name.toList ++ ' ' :: rest := by
    have hc : Text.isBlank c = false := (hname c (hcons ▸ List.mem_cons_self)).2
    rw [Text.trimStart, hcons, List.cons_append, List.dropWhile_cons_of_neg (by simp [hc])]
  have hrun : (name.toList ++ ' ' :: rest).dropWhile (!Text.isBlank ·) = ' ' :: rest := by
    rw [List.dropWhile_append_of_pos fun d hd => by simp [(hname d hd).2]]
    exact List.dropWhile_cons_of_neg (by decide)
  rw [afterFirstRun, hstart, hrun]
  exact List.dropWhile_cons_of_pos (by decide)

theorem argumentsOf_of_split_error {command : String} {fault : UnclosedQuote}
    (h : split command = .error fault) :
    argumentsOf command = String.ofList (afterFirstRun command.toList) := by
  rw [argumentsOf, h]

/-! ### The arguments behind an executable -/

/-- The arguments behind an executable are told by the rest of the command line alone. -/
theorem argumentsOf_append (h : IsExecutable name) (rest : String) :
    argumentsOf (name ++ " " ++ rest) =
      match split rest with
      | .ok words => join words
      | .error _ => String.ofList (Text.trimStart Text.isBlank rest.toList) := by
  have hname := split_of_isBare h.isBare
  cases hrest : split rest with
  | ok words =>
    exact argumentsOf_of_split (split_append_space hname h.getLast?_ne hrest)
  | error fault =>
    have hline := split_append_space_error hname h.getLast?_ne hrest
    have htext : (name ++ " " ++ rest).toList = name.toList ++ ' ' :: rest.toList := by simp
    rw [argumentsOf_of_split_error hline, htext, afterFirstRun_append h]

/-- **The executable does not matter to the identity**: whatever follows it, and whether
or not that can be split, another executable gives the same identity.  What matters are
the words that follow, or, behind a quote that is left open, the text that follows
without the blanks at its start. -/
theorem identity_eq_of_executables {first second : String} (hfirst : IsExecutable first)
    (hsecond : IsExecutable second) (rest directory file : String)
    (objects objects' : Option (List String)) :
    (⟨first ++ " " ++ rest, directory, file, objects⟩ : Entry).identity =
        (⟨second ++ " " ++ rest, directory, file, objects'⟩ : Entry).identity ∧
      (∀ words, split rest = .ok words → argumentsOf (first ++ " " ++ rest) = join words) ∧
      ∀ fault, split rest = .error fault →
        argumentsOf (first ++ " " ++ rest) =
          String.ofList (Text.trimStart Text.isBlank rest.toList) := by
  have harguments := argumentsOf_append hfirst rest
  refine ⟨?_, fun words hwords => ?_, fun fault hfault => ?_⟩
  · have hsame : argumentsOf (first ++ " " ++ rest) = argumentsOf (second ++ " " ++ rest) :=
      harguments.trans (argumentsOf_append hsecond rest).symm
    rw [identity, identity, key, key, hsame]
  · rw [harguments, hwords]
  · rw [harguments, hfault]

/-- Behind a no-break space, a word begins with it, and text that cannot be split does
not. -/
theorem identity_eq_of_executables_blank :
    IsExecutable "ccache" ∧ IsExecutable "/opt/é/cc" ∧
      argumentsOf ("ccache" ++ " " ++ "\u00a0-c a.c") = "\u00a0-c a.c" ∧
      argumentsOf ("ccache" ++ " " ++ "\u00a0-c 'a.c") = "-c 'a.c" ∧
      (⟨"ccache" ++ " " ++ "\u00a0-c 'a.c", "/w", "/w/a.c", none⟩ : Entry).identity =
        (⟨"/opt/é/cc" ++ " " ++ "\u00a0-c 'a.c", "/w", "/w/a.c", some []⟩ : Entry).identity := by
  have hwrapper : IsExecutable "ccache" := by decide +kernel
  have hcompiler : IsExecutable "/opt/é/cc" := by decide +kernel
  have hwords : split "\u00a0-c a.c" = .ok ["\u00a0-c", "a.c"] :=
    toOption_eq_some_iff.mp (by decide +kernel)
  have hfault : split "\u00a0-c 'a.c" = .error ⟨.single, ⟨5, 9⟩⟩ := rfl
  obtain ⟨-, hsplit, -⟩ :=
    identity_eq_of_executables hwrapper hcompiler "\u00a0-c a.c" "/w" "/w/a.c" none none
  obtain ⟨hsame, -, hunsplit⟩ :=
    identity_eq_of_executables hwrapper hcompiler "\u00a0-c 'a.c" "/w" "/w/a.c" none (some [])
  refine ⟨hwrapper, hcompiler, (hsplit _ hwords).trans (by decide +kernel),
    (hunsplit _ hfault).trans (by decide +kernel), hsame⟩

end CompilationDatabase.Entry
