/-
Arguments that stand without quotes.

Whether an argument may stand as it is, is asked of the reader: it has to be one
word, itself.  What a reader has put into words, and may still put there, grows by at
most one for each character read (`Reader.size_step_le`).  A separator or a quote adds
nothing, and a backslash and what it escapes add one; what is lost so is never made up
for.  So a text that is read as itself holds nothing special.

* `isPlain_iff_isBare` — the texts that are read as themselves;
* `quote_eq_self_iff` — the arguments that are written without quotes.
-/
import CompilationDatabase.Proofs.CommandLine.Replay

namespace CompilationDatabase.CommandLine

/-- The characters that mean something outside quotes. -/
def isSpecial (c : Char) : Bool :=
  isSeparator c || c = '\'' || c = '"' || c = '\\'

/-- Whether an argument is a word of characters that stand for themselves. -/
def IsBare (argument : String) : Prop :=
  argument ≠ "" ∧ ∀ c ∈ argument.toList, c ∉ [' ', '\t', '\n', '\r', '\'', '"', '\\']

theorem isSpecial_eq_false_iff (c : Char) :
    isSpecial c = false ↔ c ∉ [' ', '\t', '\n', '\r', '\'', '"', '\\'] := by
  simp [isSpecial, isSeparator, and_assoc]

/-- How many characters, read in a mode, may be put into a word later. -/
def Mode.owed : Mode → Nat
  | escape _ | escapeReturn _ | doubleEscape _ => 1
  | plain | single _ | double _ => 0

namespace Reader

/-! ### What reading gives is no longer than what it takes -/

/-- The number of characters in words. -/
def letters (r : Reader) : Nat :=
  ((r.words.toList ++ r.current.toList).flatMap (·.value.toList)).length

/-- The number of characters in words, with those that may still come there. -/
def size (r : Reader) : Nat := r.letters + r.mode.owed

theorem letters_advance (r : Reader) (c : Char) : (r.advance c).letters = r.letters := rfl

theorem letters_withMode (r : Reader) (mode : Mode) :
    ({ r with mode } : Reader).letters = r.letters := rfl

theorem letters_put (r : Reader) (start : Nat) (c : Char) (stop : Nat) :
    (r.put start c stop).letters = r.letters + 1 := by
  cases h : r.current <;> simp [put, begun, letters, h, Nat.add_assoc]

theorem letters_reach (r : Reader) (start stop : Nat) :
    (r.reach start stop).letters = r.letters := by
  cases h : r.current <;> simp [reach, begun, letters, h]

theorem letters_flush (r : Reader) : r.flush.letters = r.letters := by
  cases h : r.current <;> simp [flush, letters, h]

/-- Outside quotes separators and quotes are not put into a word. -/
theorem size_stepPlain {r : Reader} (h : r.mode = .plain) (offset : Nat) (c : Char) :
    (r.stepPlain offset c).size
      = r.size + if isSeparator c || c = '\'' || c = '"' then 0 else 1 := by
  unfold stepPlain
  split
  · rename_i hc
    have hsize : r.flush.size = r.size := congrArg (· + r.mode.owed) (letters_flush r)
    simpa [hc] using hsize
  · split
    · rename_i hc
      simp [hc, size, letters, h, Mode.owed]
    · split
      · rename_i hc
        simp [hc, size, letters, h, Mode.owed]
      · rename_i hseparator hsingle hdouble
        split
        · simp [hseparator, hsingle, hdouble, size, letters, h, Mode.owed]
        · have hsize : (r.put offset c (offset + c.utf8Size)).size = r.letters + 1 + r.mode.owed :=
            congrArg (· + r.mode.owed) (letters_put ..)
          rw [hsize, size]
          simp [hseparator, hsingle, hdouble]
          omega

theorem size_stepPlain_le {r : Reader} (h : r.mode = .plain) (offset : Nat) (c : Char) :
    (r.stepPlain offset c).size ≤ r.size + 1 := by
  rw [size_stepPlain h]
  split <;> omega

/-- A character adds at most one to what is in words or may still come there. -/
theorem size_step_le (r : Reader) (c : Char) : (r.step c).size ≤ r.size + 1 := by
  rw [step_eq]
  cases hmode : r.mode with
  | plain => exact size_stepPlain_le (r := r.advance c) hmode _ _
  | escapeReturn start =>
    simp only
    split
    · simp only [size, letters_withMode, letters_advance, hmode, Mode.owed]
      omega
    · -- the carriage return is put, and then the character is met outside quotes
      refine Nat.le_trans (size_stepPlain_le (by rfl) _ _) ?_
      simp only [size, letters_withMode, letters_put, letters_advance, hmode, Mode.owed]
      omega
  | escape start | single start | double start | doubleEscape start =>
    have hput : ((r.advance c).put start c (r.advance c).offset).mode = r.mode := rfl
    simp only
    repeat' split
    all_goals
      simp only [size, letters_withMode, letters_put, letters_reach, letters_advance, hput, hmode,
        Mode.owed]
      omega

theorem size_run_le (r : Reader) (text : List Char) :
    (r.run text).size ≤ r.size + text.length := by
  induction text generalizing r with
  | nil => exact Nat.le_refl _
  | cons c text ih =>
    have hstep := size_step_le r c
    calc ((r.step c).run text).size
        ≤ (r.step c).size + text.length := ih _
      _ ≤ r.size + (text.length + 1) := by omega

/-- Outside quotes, a separator or a quote adds nothing. -/
theorem size_step_mark {r : Reader} (h : r.mode = .plain) {c : Char} (hc : isSpecial c = true)
    (hbackslash : c ≠ '\\') : (r.step c).size = r.size := by
  have hmark : (isSeparator c || c = '\'' || c = '"') = true := by
    simpa [isSpecial, hbackslash] using hc
  rw [step_eq, h]
  simp only
  rw [size_stepPlain (r := r.advance c) h, if_pos hmark]
  rfl

/-- What stands behind a backslash outside quotes comes into the word in place of it. -/
theorem size_step_escape {r : Reader} {start : Nat} (h : r.mode = .escape start) (c : Char) :
    (r.step c).size ≤ r.size := by
  rw [step_eq, h]
  simp only
  repeat' split
  all_goals
    simp only [size, letters_withMode, letters_put, letters_advance, h, Mode.owed]
    omega

/-- At the end no more characters come into words than may. -/
theorem length_le_size_of_finish {r : Reader} {words : List Word} (h : r.finish = .ok words) :
    (words.flatMap (·.value.toList)).length ≤ r.size := by
  have hflush (r : Reader) :
      (r.flush.words.toList.flatMap (·.value.toList)).length = r.letters := by
    rw [← letters_flush, letters]
    simp [flush]
  rw [finish] at h
  cases hmode : r.mode with
  | plain =>
    rw [hmode] at h
    obtain rfl := Except.ok.inj h
    rw [hflush]
    exact Nat.le_add_right _ _
  | escape start | escapeReturn start =>
    rw [hmode] at h
    obtain rfl := Except.ok.inj h
    rw [hflush, letters_put, size, hmode]
    exact Nat.le_refl _
  | single start | double start | doubleEscape start =>
    rw [hmode] at h
    cases h

/-! ### Characters that stand for themselves -/

theorem step_of_bare {r : Reader} (h : r.mode = .plain) {c : Char} (hc : isSpecial c = false) :
    r.step c = (r.advance c).put r.offset c (r.advance c).offset := by
  simp only [isSpecial, Bool.or_eq_false_iff, decide_eq_false_iff_not] at hc
  rw [step_eq, h]
  simp [stepPlain, hc]
  rfl

/-- Outside quotes, they are put into the word as they are. -/
theorem run_of_bare {r : Reader} (h : r.mode = .plain) {text : List Char}
    (htext : ∀ c ∈ text, isSpecial c = false) :
    (r.run text).mode = .plain ∧ (r.run text).words = r.words ∧
      ∀ start, ((r.run text).begun start).value.toList = (r.begun start).value.toList ++ text := by
  induction text generalizing r with
  | nil => simp [run, h]
  | cons c text ih =>
    obtain ⟨hc, hrest⟩ := List.forall_mem_cons.mp htext
    have hstep := step_of_bare h hc
    obtain ⟨hmode, hwords, hvalue⟩ := ih (r := r.step c) (by rw [hstep]; exact h) hrest
    refine ⟨hmode, hwords.trans ?_, fun start => (hvalue start).trans ?_⟩
    · rw [hstep]
      rfl
    · rw [hstep]
      cases hcurrent : r.current <;> simp [put, begun, advance, hcurrent]

end Reader

theorem split_of_isBare {argument : String} (h : IsBare argument) :
    split argument = .ok [argument] := by
  obtain ⟨hne, hbare⟩ := h
  obtain ⟨hmode, hwords, hvalue⟩ := Reader.run_of_bare (r := {}) rfl
    fun c hc => (isSpecial_eq_false_iff c).mpr (hbare c hc)
  unfold split tokenize
  generalize Reader.run {} argument.toList = r at *
  rw [Reader.finish, hmode]
  cases hcurrent : r.current with
  | none =>
    -- a word is begun, as characters were put into it
    exact absurd (by simpa [Reader.begun, hcurrent] using hvalue 0) hne
  | some word =>
    have hword : word.value = argument := by
      rw [← String.toList_inj]
      simpa [Reader.begun, hcurrent] using hvalue 0
    simp [Reader.flush, hcurrent, hwords, Except.map, hword]

/-- At the first special character less is put into words than is read: it is lost, or it
is a backslash, and what stands behind it is put alone. -/
theorem size_after_lt {text : List Char} (hlast : text.getLast? ≠ some '\\') {c : Char}
    (hc : c ∈ text) (hspecial : isSpecial c = true) :
    (Reader.after text).size < text.length := by
  have hsome : (text.find? isSpecial).isSome := List.find?_isSome.mpr ⟨c, hc, hspecial⟩
  obtain ⟨first, hfirst⟩ := Option.isSome_iff_exists.mp hsome
  obtain ⟨hmark, bare, rest, rfl, hbare⟩ := List.find?_eq_some_iff_append.mp hfirst
  obtain ⟨hmode, -, -⟩ := Reader.run_of_bare (r := {}) rfl fun d hd => by simpa using hbare d hd
  have hsize : (Reader.run {} bare).size ≤ 0 + bare.length := Reader.size_run_le {} bare
  rw [Reader.after, Reader.run_append]
  generalize Reader.run {} bare = r at hmode hsize
  simp only [List.length_append, List.length_cons]
  by_cases hbackslash : first = '\\'
  · subst hbackslash
    cases rest with
    | nil => exact absurd (by simp) hlast
    | cons next rest =>
      have hescape : (r.step '\\').mode = .escape r.offset := by
        rw [Reader.step_eq, hmode]
        rfl
      have hstep := Reader.size_step_le r '\\'
      have hnext := Reader.size_step_escape hescape next
      have hrest := Reader.size_run_le ((r.step '\\').step next) rest
      show (((r.step '\\').step next).run rest).size < _
      simp only [List.length_cons]
      omega
  · have hstep := Reader.size_step_mark hmode hmark hbackslash
    have hrest := Reader.size_run_le (r.step first) rest
    show ((r.step first).run rest).size < _
    omega

theorem isBare_of_split {argument : String} (hlast : argument.toList.getLast? ≠ some '\\')
    (h : split argument = .ok [argument]) : IsBare argument := by
  obtain ⟨words, hwords, hvalues⟩ := map_eq_ok_iff.mp h
  -- the one word has all the characters of the text
  have hletters : words.flatMap (·.value.toList) = argument.toList := by
    have hlists := congrArg (List.flatMap String.toList) hvalues
    rw [List.flatMap_map] at hlists
    exact hlists.trans (List.flatMap_singleton String.toList argument)
  have hle := Reader.length_le_size_of_finish hwords
  rw [hletters] at hle
  refine ⟨?_, fun c hc => ?_⟩
  · rintro rfl
    cases h
  · rw [← isSpecial_eq_false_iff]
    cases hspecial : isSpecial c with
    | false => rfl
    | true => exact absurd (size_after_lt hlast hc hspecial) (Nat.not_lt.mpr hle)

/-- A text is read as itself just if all its characters stand for themselves. -/
theorem isPlain_iff_isBare (argument : String) : isPlain argument ↔ IsBare argument := by
  rw [isPlain_eq_true_iff]
  refine ⟨fun h => isBare_of_split h.1 h.2, fun h => ⟨fun hlast => ?_, split_of_isBare h⟩⟩
  exact absurd (h.2 _ (List.mem_of_getLast? hlast)) (by decide)

theorem length_le_length_escape (text : List Char) : text.length ≤ (escape text).length := by
  induction text with
  | nil => exact Nat.le_refl _
  | cons c text ih =>
    rw [escape]
    split
    · simp only [List.length_cons]
      omega
    · simp only [List.length_cons]
      omega

theorem enclose_ne_self (argument : String) : enclose argument ≠ argument := by
  intro heq
  have hescape := length_le_length_escape argument.toList
  have hlength := congrArg List.length (String.toList_inj.mpr heq)
  simp only [enclose, String.toList_ofList, List.length_cons, List.length_append] at hlength
  omega

/-- **Just the arguments without special characters stand without quotes**, the empty
one apart; any other is written between double quotes, and so not as it is. -/
theorem quote_eq_self_iff (argument : String) :
    (quote argument = argument ↔ IsBare argument) ∧
    (¬ IsBare argument → quote argument ≠ argument ∧
      ∃ body : String, quote argument = "\"" ++ body ++ "\"") := by
  have henclose := enclose_ne_self argument
  by_cases hbare : IsBare argument
  · have hquote : quote argument = argument := if_pos ((isPlain_iff_isBare argument).mpr hbare)
    exact ⟨iff_of_true hquote hbare, fun hnot => absurd hbare hnot⟩
  · have hquote : quote argument = enclose argument :=
      if_neg fun hplain => hbare ((isPlain_iff_isBare argument).mp hplain)
    have hbetween : enclose argument
        = "\"" ++ String.ofList (escape argument.toList) ++ "\"" := by
      rw [← String.toList_inj]
      simp [enclose]
    rw [hquote]
    exact ⟨iff_of_false henclose hbare, fun _ => ⟨henclose, _, hbetween⟩⟩

/-- A definition stands as it is, and a text in quotes is put into quotes again. -/
theorem quote_eq_self_iff_quoted :
    (IsBare "-DX=é" ∧ quote "-DX=é" = "-DX=é") ∧
      ¬ IsBare "\"a b\"" ∧ quote "\"a b\"" ≠ "\"a b\"" ∧
        ∃ body : String, quote "\"a b\"" = "\"" ++ body ++ "\"" := by
  have hbare : IsBare "-DX=é" := by simp [IsBare]
  have hspecial : ¬ IsBare "\"a b\"" := by simp [IsBare]
  exact ⟨⟨hbare, (quote_eq_self_iff _).1.mpr hbare⟩, hspecial, (quote_eq_self_iff _).2 hspecial⟩

end CompilationDatabase.CommandLine
