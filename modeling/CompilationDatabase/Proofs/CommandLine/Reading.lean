/-
Reading a text that stands behind another one.

What the reader does from some point on depends only on its mode and on the
word it has begun; the words before and the number of bytes read are carried
along.  So a reader put behind other words (`Reader.behind`) reads the same
words, with their spans moved (`Reader.run_behind`).  A space that follows a
complete text brings the reader to its start again (`Reader.step_space`).

* `tokenize_append_space` — the words of two texts with a space between are
  the words of the one and the moved words of the other;
* `tokenize_spaced` — so the second text is read there as it is read alone.
-/
import CompilationDatabase.CommandLine.Word
import CompilationDatabase.Proofs.Result

namespace CompilationDatabase.CommandLine

/-- The word with its span moved by `n` bytes. -/
def Word.shift (w : Word) (n : Nat) : Word := ⟨w.value, w.span.shift n⟩

/-- The fault with its span moved by `n` bytes. -/
def UnclosedQuote.shift (fault : UnclosedQuote) (n : Nat) : UnclosedQuote :=
  ⟨fault.quote, fault.span.shift n⟩

/-- The mode with its offset moved by `n` bytes. -/
def Mode.shift (n : Nat) : Mode → Mode
  | plain => plain
  | escape start => escape (start + n)
  | escapeReturn start => escapeReturn (start + n)
  | single start => single (start + n)
  | double start => double (start + n)
  | doubleEscape start => doubleEscape (start + n)

/-- What reading gives if `words` stand before the text, which begins `n` bytes
later. -/
def behindWords (words : List Word) (n : Nat) (result : Except UnclosedQuote (List Word)) :
    Except UnclosedQuote (List Word) :=
  (result.map fun more => words ++ more.map (·.shift n)).mapError (·.shift n)

namespace Reader

/-- The reader as it is if `words` were completed, and `n` bytes read, before
it began. -/
def behind (words : Array Word) (n : Nat) (r : Reader) : Reader where
  offset := r.offset + n
  words := words ++ r.words.map (·.shift n)
  current := r.current.map (·.shift n)
  mode := r.mode.shift n

variable {words : Array Word} {n : Nat}

theorem begun_behind (r : Reader) (start : Nat) :
    (r.behind words n).begun (start + n) = (r.begun start).shift n := by
  cases h : r.current <;> simp [begun, behind, h, Word.shift, Span.shift]

theorem put_behind (r : Reader) (start : Nat) (c : Char) (stop : Nat) :
    (r.behind words n).put (start + n) c (stop + n) = (r.put start c stop).behind words n := by
  simp only [put, begun_behind]
  rfl

theorem reach_behind (r : Reader) (start stop : Nat) :
    (r.behind words n).reach (start + n) (stop + n) = (r.reach start stop).behind words n := by
  simp only [reach, begun_behind]
  rfl

theorem flush_behind (r : Reader) : (r.behind words n).flush = r.flush.behind words n := by
  cases h : r.current <;> simp [flush, behind, h]

theorem stepPlain_behind (r : Reader) (offset : Nat) (c : Char) :
    (r.behind words n).stepPlain (offset + n) c = (r.stepPlain offset c).behind words n := by
  unfold stepPlain
  split
  · exact flush_behind r
  · split
    · rfl
    · split
      · rfl
      · split
        · rfl
        · rw [Nat.add_right_comm]
          exact put_behind r offset c _

/-- The reader with the bytes of a character counted. -/
def advance (r : Reader) (c : Char) : Reader := { r with offset := r.offset + c.utf8Size }

theorem advance_behind (r : Reader) (c : Char) :
    (r.behind words n).advance c = (r.advance c).behind words n := by
  simp only [advance, behind, Nat.add_right_comm]

/-- What is done with a character, by the mode it is met in. -/
theorem step_eq (r : Reader) (c : Char) :
    r.step c = match r.mode with
      | .plain => (r.advance c).stepPlain r.offset c
      | .escape start =>
        if c = '\n' then { r.advance c with mode := .plain }
        else if c = '\r' then { r.advance c with mode := .escapeReturn start }
        else { (r.advance c).put start c (r.advance c).offset with mode := .plain }
      | .escapeReturn start =>
        if c = '\n' then { r.advance c with mode := .plain }
        else { (r.advance c).put start '\r' r.offset with mode := .plain }.stepPlain r.offset c
      | .single start =>
        if c = '\'' then { (r.advance c).reach start (r.advance c).offset with mode := .plain }
        else (r.advance c).put start c (r.advance c).offset
      | .double start =>
        if c = '"' then { (r.advance c).reach start (r.advance c).offset with mode := .plain }
        else if c = '\\' then { r.advance c with mode := .doubleEscape start }
        else (r.advance c).put start c (r.advance c).offset
      | .doubleEscape start =>
        if isEscapable c then
          { (r.advance c).put start c (r.advance c).offset with mode := .double start }
        else if c = '\n' then { r.advance c with mode := .double start }
        else
          { ((r.advance c).put start '\\' r.offset).put start c (r.advance c).offset with
            mode := .double start } := rfl

/-- Reading a character commutes with being put behind. -/
theorem step_behind (r : Reader) (c : Char) :
    (r.behind words n).step c = (r.step c).behind words n := by
  have hstop : ((r.advance c).behind words n).offset = (r.advance c).offset + n := rfl
  have hmode : (r.behind words n).mode = r.mode.shift n := rfl
  have hhere : (r.behind words n).offset = r.offset + n := rfl
  rw [step_eq, step_eq, advance_behind, hstop, hmode, hhere]
  -- the offset that a mode carries moves as those of the reader do
  cases r.mode with
  | plain => exact stepPlain_behind _ _ _
  | escape start =>
    simp only [Mode.shift, put_behind]
    split
    · rfl
    · split
      · rfl
      · rfl
  | escapeReturn start =>
    simp only [Mode.shift, put_behind]
    split
    · rfl
    · exact stepPlain_behind { (r.advance c).put start '\r' r.offset with mode := .plain } _ _
  | single start =>
    simp only [Mode.shift, put_behind, reach_behind]
    split
    · rfl
    · rfl
  | double start =>
    simp only [Mode.shift, put_behind, reach_behind]
    split
    · rfl
    · split
      · rfl
      · rfl
  | doubleEscape start =>
    simp only [Mode.shift, put_behind]
    split
    · rfl
    · split
      · rfl
      · rfl

theorem run_behind (r : Reader) (text : List Char) :
    (r.behind words n).run text = (r.run text).behind words n := by
  induction text generalizing r with
  | nil => rfl
  | cons c text ih =>
    show ((r.behind words n).step c).run text = ((r.step c).run text).behind words n
    rw [step_behind, ih]

theorem finish_behind (r : Reader) :
    (r.behind words n).finish = behindWords words.toList n r.finish := by
  have hwords (r : Reader) : (r.behind words n).flush.words.toList
      = words.toList ++ r.flush.words.toList.map (·.shift n) := by
    rw [flush_behind]
    simp [behind]
  have hmode : (r.behind words n).mode = r.mode.shift n := rfl
  have hhere : (r.behind words n).offset = r.offset + n := rfl
  unfold finish
  rw [hmode, hhere]
  cases r.mode with
  | plain => exact congrArg Except.ok (hwords r)
  | escape start =>
    simp only [Mode.shift, put_behind, hwords]
    rfl
  | escapeReturn start =>
    simp only [Mode.shift, put_behind, hwords]
    rfl
  | single start => rfl
  | double start => rfl
  | doubleEscape start => rfl

/-! ### The space behind a complete text -/

theorem offset_stepPlain (r : Reader) (offset : Nat) (c : Char) :
    (r.stepPlain offset c).offset = r.offset := by
  unfold stepPlain
  repeat' split
  all_goals rfl

theorem offset_step (r : Reader) (c : Char) : (r.step c).offset = r.offset + c.utf8Size := by
  rw [step_eq]
  cases r.mode with
  | plain => exact offset_stepPlain _ _ _
  | escapeReturn start =>
    simp only
    split
    · rfl
    · exact offset_stepPlain _ _ _
  | escape start | single start | double start | doubleEscape start =>
    simp only
    repeat' split
    all_goals rfl

theorem offset_run (r : Reader) (text : List Char) :
    (r.run text).offset = r.offset + Text.byteCount text := by
  induction text generalizing r with
  | nil => rfl
  | cons c text ih =>
    show ((r.step c).run text).offset = _
    rw [ih, offset_step, Text.byteCount_cons, Nat.add_assoc]

/-- The reader after a text, from its start. -/
def after (text : List Char) : Reader := ({} : Reader).run text

theorem after_append_singleton (text : List Char) (c : Char) :
    after (text ++ [c]) = (after text).step c :=
  run_append {} text [c]

theorem offset_after (text : List Char) : (after text).offset = Text.byteCount text := by
  rw [after, offset_run]
  exact Nat.zero_add _

theorem mode_stepPlain_ne_escape {r : Reader} {offset : Nat} {c : Char} (hr : r.mode = .plain)
    (hc : c ≠ '\\') (start : Nat) : (r.stepPlain offset c).mode ≠ .escape start := by
  unfold stepPlain
  repeat' split
  all_goals simp_all [flush, put]

/-- Only a backslash escapes what follows it. -/
theorem mode_step_ne_escape (r : Reader) {c : Char} (hc : c ≠ '\\') (start : Nat) :
    (r.step c).mode ≠ .escape start := by
  rw [step_eq]
  cases hmode : r.mode with
  | plain => exact mode_stepPlain_ne_escape (r := r.advance c) hmode hc start
  | escapeReturn start =>
    -- unless it is a line feed, the character is met again as one of plain text
    simp only
    split
    · simp
    · exact mode_stepPlain_ne_escape rfl hc _
  | escape start | single start | double start | doubleEscape start =>
    simp only
    repeat' split
    all_goals simp_all [put, advance]

/-- A text that does not end in a backslash escapes nothing behind it. -/
theorem mode_run_ne_escape {text : List Char} (h : text.getLast? ≠ some '\\') (start : Nat) :
    (({} : Reader).run text).mode ≠ .escape start := by
  -- only the last character matters, whatever the mode before it
  rcases List.eq_nil_or_concat text with rfl | ⟨text, c, rfl⟩
  · simp [run]
  · rw [List.concat_eq_append] at h ⊢
    rw [run_append]
    exact mode_step_ne_escape _ (by simpa using h) start

/-- A reader without a word begun is as at its start, behind the words it has. -/
theorem eq_behind_of_idle {r : Reader} (hmode : r.mode = .plain) (hcurrent : r.current = none) :
    r = ({} : Reader).behind r.words r.offset := by
  obtain ⟨offset, words, current, mode⟩ := r
  obtain rfl : mode = .plain := hmode
  obtain rfl : current = none := hcurrent
  simp [behind, Mode.shift]

theorem flush_eq_behind {r : Reader} (h : r.mode = .plain) :
    r.flush = ({} : Reader).behind r.flush.words r.offset :=
  eq_behind_of_idle (r := r.flush) h rfl

/-- A space behind a complete text brings the reader to its start again, behind
the words of the text. -/
theorem step_space {r : Reader} {done : List Word} (h : r.finish = .ok done)
    (hescape : ∀ start, r.mode ≠ .escape start) :
    r.step ' ' = ({} : Reader).behind done.toArray (r.offset + 1) := by
  rw [finish] at h
  rw [step_eq]
  -- the other modes are those of an open quote, in which the text is not complete
  cases hmode : r.mode with
  | plain =>
    rw [hmode] at h
    obtain rfl : r.flush.words.toList = done := Except.ok.inj h
    exact flush_eq_behind (r := r.advance ' ') hmode
  | escape start => exact absurd hmode (hescape start)
  | escapeReturn start =>
    rw [hmode] at h
    obtain rfl : (r.put start '\r' r.offset).flush.words.toList = done := Except.ok.inj h
    exact flush_eq_behind (r := { (r.advance ' ').put start '\r' r.offset with mode := .plain }) rfl
  | single start | double start | doubleEscape start => simp [hmode] at h

end Reader

/-- The words of two texts with a space between: those of the first text, and
behind them those of the second, as long as the first is complete and does not
end in a backslash. -/
theorem tokenize_append_space {a b : String} {words : List Word} (h : tokenize a = .ok words)
    (ha : a.toList.getLast? ≠ some '\\') :
    tokenize (a ++ " " ++ b)
      = behindWords words (Text.byteCount a.toList + 1) (tokenize b) := by
  have hspace := Reader.step_space h (Reader.mode_run_ne_escape ha)
  rw [Reader.offset_run] at hspace
  have htext : (a ++ " " ++ b).toList = a.toList ++ ' ' :: b.toList := by simp
  unfold tokenize
  rw [htext, Reader.run_append]
  show ((({} : Reader).run a.toList).step ' ' |>.run b.toList).finish = _
  rw [hspace, Reader.run_behind, Reader.finish_behind]
  simp

/-- **Reading distributes over a joining space**: behind a text that is complete
and does not end in a backslash, a space and another text are read as that other
text, moved, whether its words or its fault. -/
theorem tokenize_spaced {a : String} {words : List Word} (ha : tokenize a = .ok words)
    (hlast : a.toList.getLast? ≠ some '\\') (b : String) :
    let n := a.utf8ByteSize + 1
    (∀ all, tokenize (a ++ " " ++ b) = .ok all ↔ ∃ more, tokenize b = .ok more ∧
      all = words ++ more.map fun w => ⟨w.value, ⟨w.span.start + n, w.span.stop + n⟩⟩) ∧
    (∀ fault, tokenize (a ++ " " ++ b) = .error fault ↔ ∃ own, tokenize b = .error own ∧
      fault = ⟨own.quote, ⟨own.span.start + n, own.span.stop + n⟩⟩) := by
  intro n
  have happend : tokenize (a ++ " " ++ b) = behindWords words n (tokenize b) := by
    rw [tokenize_append_space ha hlast, Text.byteCount_toList]
  rw [happend]
  cases tokenize b with
  | ok more =>
    refine ⟨fun all => ⟨fun h => ⟨more, rfl, ?_⟩, ?_⟩, fun fault => iff_of_false nofun nofun⟩
    · exact (Except.ok.inj h).symm
    · rintro ⟨_, hmore, rfl⟩
      obtain rfl := Except.ok.inj hmore
      rfl
  | error own =>
    refine ⟨fun all => iff_of_false nofun nofun, fun fault => ⟨fun h => ⟨own, rfl, ?_⟩, ?_⟩⟩
    · exact (Except.error.inj h).symm
    · rintro ⟨_, hown, rfl⟩
      obtain rfl := Except.error.inj hown
      rfl

/-- Behind a line continuation, a word and an open quote are moved alike. -/
theorem tokenize_spaced_continued :
    let a := "é'b'\\\n"
    tokenize a = .ok [⟨"éb", ⟨0, 5⟩⟩] ∧ a.toList.getLast? ≠ some '\\' ∧
      tokenize (a ++ " " ++ "c") = .ok [⟨"éb", ⟨0, 5⟩⟩, ⟨"c", ⟨8, 9⟩⟩] ∧
      tokenize (a ++ " " ++ "c \"") = .error ⟨.double, ⟨10, 11⟩⟩ := by
  intro a
  have ha : tokenize a = .ok [⟨"éb", ⟨0, 5⟩⟩] :=
    toOption_eq_some_iff.mp (by decide +kernel)
  have hlast : a.toList.getLast? ≠ some '\\' := by decide +kernel
  have hword : tokenize "c" = .ok [⟨"c", ⟨0, 1⟩⟩] := rfl
  have hopen : tokenize "c \"" = .error ⟨.double, ⟨2, 3⟩⟩ := rfl
  refine ⟨ha, hlast, ?_, ?_⟩
  · exact ((tokenize_spaced ha hlast "c").1 _).mpr ⟨_, hword, rfl⟩
  · exact ((tokenize_spaced ha hlast "c \"").2 _).mpr ⟨_, hopen, rfl⟩

/-- The values of the words of two texts with a space between. -/
theorem split_append_space {a b : String} {values more : List String} (ha : split a = .ok values)
    (hlast : a.toList.getLast? ≠ some '\\') (hb : split b = .ok more) :
    split (a ++ " " ++ b) = .ok (values ++ more) := by
  unfold split at *
  obtain ⟨words, hwords, rfl⟩ := map_eq_ok_iff.mp ha
  obtain ⟨rest, hrest, rfl⟩ := map_eq_ok_iff.mp hb
  rw [tokenize_append_space hwords hlast, hrest]
  show Except.ok ((words ++ rest.map (·.shift (Text.byteCount a.toList + 1))).map (·.value)) = _
  rw [List.map_append, List.map_map]
  rfl

/-- A fault of the second text is one of both together, moved. -/
theorem split_append_space_error {a b : String} {values : List String} {fault : UnclosedQuote}
    (ha : split a = .ok values) (hlast : a.toList.getLast? ≠ some '\\')
    (hb : split b = .error fault) :
    split (a ++ " " ++ b) = .error (fault.shift (Text.byteCount a.toList + 1)) := by
  unfold split at *
  obtain ⟨words, hwords, rfl⟩ := map_eq_ok_iff.mp ha
  rw [tokenize_append_space hwords hlast]
  cases hrest : tokenize b with
  | ok more => simp [hrest, Except.map] at hb
  | error own =>
    rw [hrest] at hb
    obtain rfl : own = fault := Except.error.inj hb
    rfl

end CompilationDatabase.CommandLine
