/-
Line continuations put anywhere into a command line.

A line continuation changes where the words behind it stand, and nothing else.  So
two readers are compared that differ in offsets alone (`Reader.Alike`); they go on so
whatever they read.  Outside quotes and inside double quotes a reader that has read a
backslash and a line feed is like one that has not (`Reader.alike_continue`).  A
carriage return that waits for its line feed is escaped if another character comes,
and then it makes no difference whether that is the next character of the text or the
backslash of the line continuation (`Reader.finish_run_putReturn`).

* `Continuable` — the points of a text where a line may be continued;
* `split_continued` — there a line continuation changes no word.
-/
import CompilationDatabase.Proofs.CommandLine.Unclosed

namespace CompilationDatabase.CommandLine

/-- The modes differ at most in their offsets. -/
inductive Mode.Alike : Mode → Mode → Prop where
  | plain : Alike plain plain
  | escape (m n : Nat) : Alike (escape m) (escape n)
  | escapeReturn (m n : Nat) : Alike (escapeReturn m) (escapeReturn n)
  | single (m n : Nat) : Alike (single m) (single n)
  | double (m n : Nat) : Alike (double m) (double n)
  | doubleEscape (m n : Nat) : Alike (doubleEscape m) (doubleEscape n)

namespace Reader

/-- The readers differ at most in where the words stand. -/
structure Alike (r r' : Reader) : Prop where
  words : r.words.toList.map (·.value) = r'.words.toList.map (·.value)
  current : r.current.map (·.value) = r'.current.map (·.value)
  mode : r.mode.Alike r'.mode

namespace Alike

variable {r r' : Reader}

theorem begun (h : r.Alike r') (start start' : Nat) :
    (r.begun start).value = (r'.begun start').value := by
  have hcurrent := h.current
  unfold Reader.begun
  cases hr : r.current with
  | none =>
    cases hr' : r'.current with
    | none => rfl
    | some word => simp [hr, hr'] at hcurrent
  | some word =>
    cases hr' : r'.current with
    | none => simp [hr, hr'] at hcurrent
    | some word' => simpa [hr, hr'] using hcurrent

theorem put (h : r.Alike r') (c : Char) (start stop start' stop' : Nat) :
    (r.put start c stop).Alike (r'.put start' c stop') where
  words := h.words
  current := congrArg (fun value : String => some (value.push c)) (h.begun start start')
  mode := h.mode

theorem reach (h : r.Alike r') (start stop start' stop' : Nat) :
    (r.reach start stop).Alike (r'.reach start' stop') where
  words := h.words
  current := congrArg some (h.begun start start')
  mode := h.mode

theorem withMode (h : r.Alike r') {mode mode' : Mode} (hmode : mode.Alike mode') :
    ({ r with mode } : Reader).Alike { r' with mode := mode' } where
  words := h.words
  current := h.current
  mode := hmode

theorem advance (h : r.Alike r') (c : Char) : (r.advance c).Alike (r'.advance c) where
  words := h.words
  current := h.current
  mode := h.mode

theorem flush (h : r.Alike r') : r.flush.Alike r'.flush where
  words := by
    have hcurrent (r : Reader) : r.current.toArray.toList.map (·.value)
        = (r.current.map (·.value)).toList := by
      cases r.current <;> rfl
    simp only [Reader.flush, Array.toList_append, List.map_append, h.words, hcurrent, h.current]
  current := rfl
  mode := h.mode

theorem stepPlain (h : r.Alike r') (offset offset' : Nat) (c : Char) :
    (r.stepPlain offset c).Alike (r'.stepPlain offset' c) := by
  unfold Reader.stepPlain
  split
  · exact h.flush
  · split
    · exact h.withMode (.single _ _)
    · split
      · exact h.withMode (.double _ _)
      · split
        · exact h.withMode (.escape _ _)
        · exact h.put c _ _ _ _

theorem step (h : r.Alike r') (c : Char) : (r.step c).Alike (r'.step c) := by
  have hnext := h.advance c
  have hmode := h.mode
  rw [step_eq, step_eq]
  generalize r.mode = mode at hmode
  generalize r'.mode = mode' at hmode
  cases hmode with
  | plain => exact hnext.stepPlain _ _ c
  | escape m n =>
    simp only
    split
    · exact hnext.withMode .plain
    · split
      · exact hnext.withMode (.escapeReturn _ _)
      · exact (hnext.put c _ _ _ _).withMode .plain
  | escapeReturn m n =>
    simp only
    split
    · exact hnext.withMode .plain
    · exact ((hnext.put '\r' _ _ _ _).withMode .plain).stepPlain _ _ c
  | single m n =>
    simp only
    split
    · exact (hnext.reach _ _ _ _).withMode .plain
    · exact hnext.put c _ _ _ _
  | double m n =>
    simp only
    split
    · exact (hnext.reach _ _ _ _).withMode .plain
    · split
      · exact hnext.withMode (.doubleEscape _ _)
      · exact hnext.put c _ _ _ _
  | doubleEscape m n =>
    simp only
    split
    · exact (hnext.put c _ _ _ _).withMode (.double _ _)
    · split
      · exact hnext.withMode (.double _ _)
      · exact ((hnext.put '\\' _ _ _ _).put c _ _ _ _).withMode (.double _ _)

theorem run (h : r.Alike r') (text : List Char) : (r.run text).Alike (r'.run text) := by
  induction text generalizing r r' with
  | nil => exact h
  | cons c text ih => exact ih (h.step c)

/-- At the end they have words of the same values, or neither is done. -/
theorem finish (h : r.Alike r') :
    r.finish.toOption.map (·.map (·.value)) = r'.finish.toOption.map (·.map (·.value)) := by
  have hwords {r r' : Reader} (h : r.Alike r') :
      (some r.flush.words.toList).map (·.map (·.value))
        = (some r'.flush.words.toList).map (·.map (·.value)) := congrArg some h.flush.words
  have hmode := h.mode
  unfold Reader.finish
  generalize r.mode = mode at hmode
  generalize r'.mode = mode' at hmode
  cases hmode with
  | plain => exact hwords h
  | escape m n => exact hwords (h.put '\\' _ _ _ _)
  | escapeReturn m n => exact hwords (h.put '\r' _ _ _ _)
  | single m n | double m n | doubleEscape m n => rfl

end Alike

/-! ### A line continuation -/

theorem Alike.refl (r : Reader) : r.Alike r where
  words := rfl
  current := rfl
  mode := by cases r.mode <;> constructor

/-- Outside quotes and inside double quotes, a line continuation changes offsets alone. -/
theorem alike_continue {r : Reader} (h : r.mode = .plain ∨ ∃ start, r.mode = .double start) :
    ((r.step '\\').step '\n').Alike r := by
  have hsame : (r.advance '\\' |>.advance '\n').Alike r := ⟨rfl, rfl, (Alike.refl r).mode⟩
  rcases h with hmode | ⟨start, hmode⟩
  · have hbackslash : r.step '\\' = { r.advance '\\' with mode := .escape r.offset } := by
      rw [step_eq, hmode]
      rfl
    rw [hbackslash, step_eq]
    refine ⟨rfl, rfl, ?_⟩
    rw [hmode]
    exact .plain
  · have hbackslash : r.step '\\' = { r.advance '\\' with mode := .doubleEscape start } := by
      rw [step_eq, hmode]
      rfl
    rw [hbackslash, step_eq]
    refine ⟨rfl, rfl, ?_⟩
    rw [hmode]
    exact .double _ _

/-- The reader with the carriage return in its word that waited for a line feed. -/
def putReturn (r : Reader) (start : Nat) : Reader :=
  { r.put start '\r' r.offset with mode := .plain }

theorem finish_run_continue {r : Reader} (h : r.mode = .plain ∨ ∃ start, r.mode = .double start)
    (text : List Char) :
    (r.run ('\\' :: '\n' :: text)).finish.toOption.map (·.map (·.value))
      = (r.run text).finish.toOption.map (·.map (·.value)) :=
  ((alike_continue h).run text).finish

/-- A carriage return behind a backslash is escaped if no line feed follows. -/
theorem finish_run_putReturn {r : Reader} {start : Nat} (h : r.mode = .escapeReturn start)
    {text : List Char} (htext : text.head? ≠ some '\n') :
    ((r.putReturn start).run text).finish = (r.run text).finish := by
  cases text with
  | nil =>
    show (r.putReturn start).finish = r.finish
    rw [finish, finish, h]
    rfl
  | cons c text =>
    have hc : c ≠ '\n' := by simpa using htext
    have hstep : (r.putReturn start).step c = r.step c := by
      rw [step_eq, step_eq, h]
      simp only [if_neg hc]
      rfl
    show (((r.putReturn start).step c).run text).finish = ((r.step c).run text).finish
    rw [hstep]

/-! ### What stands before a point -/

/-- What a text ends in if the reader is in a mode outside quotes behind it. -/
def EscapeAfter (text : List Char) : Mode → Prop
  | .plain => ¬ EndsInEscape text
  | .escape _ => EndsInEscape text
  | .escapeReturn _ => ∃ before, text = before ++ ['\\', '\r'] ∧ ¬ EndsInEscape before
  | .single _ | .double _ | .doubleEscape _ => True

theorem escapeAfter_stepPlain {r : Reader} {text : List Char} (hmode : r.mode = .plain)
    (htext : ¬ EndsInEscape text) (offset : Nat) (c : Char) :
    EscapeAfter (text ++ [c]) (r.stepPlain offset c).mode := by
  unfold stepPlain
  split
  · rename_i hc
    have hne : c ≠ '\\' := by
      rintro rfl
      exact absurd hc (by decide)
    show EscapeAfter _ r.mode
    rw [hmode]
    exact not_endsInEscape_append hne
  · split
    · trivial
    · split
      · trivial
      · split
        · rename_i hc
          rw [hc]
          exact endsInEscape_append_backslash.mpr htext
        · rename_i hc
          show EscapeAfter _ r.mode
          rw [hmode]
          exact not_endsInEscape_append hc

theorem escapeAfter_step {text : List Char} (h : EscapeAfter text (after text).mode) (c : Char) :
    EscapeAfter (text ++ [c]) (after (text ++ [c])).mode := by
  rw [after_append_singleton, step_eq]
  cases hmode : (after text).mode with
  | plain =>
    rw [hmode] at h
    exact escapeAfter_stepPlain (r := (after text).advance c) hmode h _ c
  | escape start =>
    rw [hmode] at h
    simp only
    split
    · exact EndsInEscape.not_append h c
    · split
      · rename_i hc
        obtain ⟨before, rfl, hbefore⟩ := EndsInEscape.exists_before h
        exact ⟨before, by simp [hc], hbefore⟩
      · exact EndsInEscape.not_append h c
  | escapeReturn start =>
    rw [hmode] at h
    obtain ⟨before, rfl, -⟩ := h
    have hreturn : ¬ EndsInEscape (before ++ ['\\', '\r']) := by
      rw [List.append_cons]
      exact not_endsInEscape_append (by decide)
    simp only
    split
    · rename_i hc
      exact not_endsInEscape_append (by simp [hc])
    · exact escapeAfter_stepPlain (by rfl) hreturn _ c
  | single start =>
    simp only
    split
    · rename_i hc
      exact not_endsInEscape_append (by simp [hc])
    · show EscapeAfter _ (after text).mode
      rw [hmode]
      trivial
  | double start =>
    simp only
    split
    · rename_i hc
      exact not_endsInEscape_append (by simp [hc])
    · split
      · trivial
      · show EscapeAfter _ (after text).mode
        rw [hmode]
        trivial
  | doubleEscape start =>
    simp only
    repeat' split
    all_goals trivial

theorem escapeAfter (text : List Char) : EscapeAfter text (after text).mode := by
  induction text using List.reverseRecOn with
  | nil => exact (by decide : ¬ EndsInEscape [])
  | append_singleton text c ih => exact escapeAfter_step ih c

end Reader

/-- A point of a text, told by what stands before and behind it, at which a line may be
continued. -/
structure Continuable (before behind : String) : Prop where
  /-- The point is not inside single quotes. -/
  unquoted : ∀ fault, tokenize before = .error fault → fault.quote ≠ .single
  /-- It is not behind a backslash that would escape what is put there. -/
  unescaped : ¬ EndsInEscape before.toList
  /-- It does not part the carriage return and the line feed of a line continuation. -/
  apart : ∀ text rest : String, before = text ++ "\\\r" → behind = "\n" ++ rest →
    EndsInEscape text.toList ∨ ∃ fault, tokenize before = .error fault

theorem split_eq_ok_iff {text : String} {words : List String} :
    split text = .ok words ↔ (tokenize text).toOption.map (·.map (·.value)) = some words := by
  rw [← toOption_eq_some_iff, split, toOption_map]

/-- At such a point a carriage return behind a backslash does not wait for the line feed
that comes. -/
theorem Continuable.head?_ne {before behind : String} (h : Continuable before behind) {start : Nat}
    (hmode : (Reader.after before.toList).mode = .escapeReturn start) :
    behind.toList.head? ≠ some '\n' := by
  intro hhead
  have hescape := Reader.escapeAfter before.toList
  rw [hmode] at hescape
  obtain ⟨text, htext, hnot⟩ := hescape
  obtain ⟨rest, hrest⟩ := List.head?_eq_some_iff.mp hhead
  have hbefore : before = String.ofList text ++ "\\\r" := by
    rw [← String.toList_inj, htext]
    simp
  have hbehind : behind = "\n" ++ String.ofList rest := by
    rw [← String.toList_inj, hrest]
    simp
  rcases h.apart _ _ hbefore hbehind with hends | ⟨fault, hfault⟩
  · rw [String.toList_ofList] at hends
    exact hnot hends
  · rw [tokenize, ← Reader.after, Reader.finish, hmode] at hfault
    cases hfault

/-- **A line continuation changes no word** wherever it is put: between words, in the
middle of one, beside a quote or inside double quotes.  The text with it is read just
if the text without it is. -/
theorem split_continued {before behind : String} (h : Continuable before behind)
    (words : List String) :
    split (before ++ "\\\n" ++ behind) = .ok words ↔ split (before ++ behind) = .ok words := by
  have hwith : (before ++ "\\\n" ++ behind).toList
      = before.toList ++ '\\' :: '\n' :: behind.toList := by simp
  rw [split_eq_ok_iff, split_eq_ok_iff, tokenize, tokenize, hwith, String.toList_append,
    Reader.run_append, Reader.run_append, ← Reader.after]
  cases hmode : (Reader.after before.toList).mode with
  | plain => rw [Reader.finish_run_continue (.inl hmode)]
  | double start => rw [Reader.finish_run_continue (.inr ⟨start, hmode⟩)]
  | escapeReturn start =>
    -- the next character is no line feed, nor is the backslash of the line continuation
    rw [← Reader.finish_run_putReturn hmode (h.head?_ne hmode),
      ← Reader.finish_run_putReturn hmode (by simp), Reader.finish_run_continue (.inl rfl)]
  | escape start =>
    have hescape := Reader.escapeAfter before.toList
    rw [hmode] at hescape
    exact absurd hescape h.unescaped
  | doubleEscape start =>
    have hopen := Reader.openAfter before.toList
    rw [hmode] at hopen
    exact absurd hopen.2 h.unescaped
  | single start =>
    have hfault : tokenize before
        = .error ⟨.single, ⟨start, (Reader.after before.toList).offset⟩⟩ := by
      rw [tokenize, ← Reader.after, Reader.finish, hmode]
    exact absurd rfl (h.unquoted _ hfault)

/-- The line is continued inside double quotes, behind one that is escaped, and behind a
carriage return that is. -/
theorem split_continued_escaped :
    let before := "a\\\\ 'b'\"c\\\""
    let behind := "$\" d"
    (Continuable before behind ∧
      split (before ++ "\\\n" ++ behind) = .ok ["a\\", "bc\"$", "d"]) ∧
    Continuable "a\\\r" " b" ∧ split ("a\\\r" ++ "\\\n" ++ " b") = .ok ["a\r", "b"] := by
  intro before behind
  have hopen : tokenize before = .error ⟨.double, ⟨7, 11⟩⟩ := by decide +kernel
  have hdone : tokenize "a\\\r" = .ok [⟨"a\r", ⟨0, 3⟩⟩] :=
    toOption_eq_some_iff.mp (by decide +kernel)
  have hquoted : Continuable before behind := by
    refine ⟨fun fault hfault => ?_, by decide +kernel, fun _ _ _ _ => .inr ⟨_, hopen⟩⟩
    obtain rfl := Except.error.inj (hopen.symm.trans hfault)
    decide
  have hreturn : Continuable "a\\\r" " b" := by
    refine ⟨fun fault hfault => ?_, by decide +kernel, fun text rest _ hrest => ?_⟩
    · cases hdone.symm.trans hfault
    · have hhead := congrArg (fun text : String => text.toList.head?) hrest
      simp at hhead
  refine ⟨⟨hquoted, ?_⟩, hreturn, ?_⟩
  · exact (split_continued hquoted _).mpr (toOption_eq_some_iff.mp (by decide +kernel))
  · exact (split_continued hreturn _).mpr (toOption_eq_some_iff.mp (by decide +kernel))

end CompilationDatabase.CommandLine
