/-
Quotes that are never closed.

Reading fails only inside quotes.  The text before the open quote is complete, and
behind it nothing has closed it (`OpenAfter`): inside single quotes there is no
other quote, and inside double quotes a quote would be escaped just if an odd
number of backslashes stands before it (`EndsInEscape`).  So one more quote closes
the text, behind one more backslash where the last one would escape the quote.

* `unclosed_of_tokenize` — what a fault says of its text.
-/
import CompilationDatabase.Proofs.CommandLine.Reading
import Mathlib.Data.List.Induction

namespace CompilationDatabase.CommandLine

open Text

/-- The character that opens and closes the quotes. -/
def Quote.mark : Quote → Char
  | single => '\''
  | double => '"'

/-- The mode inside the quotes. -/
def Quote.inside : Quote → Nat → Mode
  | single => .single
  | double => .double

/-- The text ends in a backslash that no other backslash escapes. -/
def EndsInEscape (text : List Char) : Prop :=
  (text.reverse.takeWhile (· == '\\')).length % 2 = 1

instance (text : List Char) : Decidable (EndsInEscape text) :=
  inferInstanceAs (Decidable (_ = _))

theorem not_endsInEscape_append {text : List Char} {c : Char} (hc : c ≠ '\\') :
    ¬ EndsInEscape (text ++ [c]) := by
  simp [EndsInEscape, hc]

theorem endsInEscape_append_backslash {text : List Char} :
    EndsInEscape (text ++ ['\\']) ↔ ¬ EndsInEscape text := by
  simp [EndsInEscape]
  omega

/-- What stands behind such a backslash is escaped, even if it is one itself. -/
theorem EndsInEscape.not_append {text : List Char} (h : EndsInEscape text) (c : Char) :
    ¬ EndsInEscape (text ++ [c]) := by
  by_cases hc : c = '\\'
  · rw [hc, endsInEscape_append_backslash]
    exact not_not.mpr h
  · exact not_endsInEscape_append hc

theorem EndsInEscape.exists_before {text : List Char} (h : EndsInEscape text) :
    ∃ before, text = before ++ ['\\'] ∧ ¬ EndsInEscape before := by
  rcases List.eq_nil_or_concat text with rfl | ⟨before, c, rfl⟩
  · exact absurd h (by decide)
  · rw [List.concat_eq_append] at h ⊢
    by_cases hc : c = '\\'
    · rw [hc] at h ⊢
      exact ⟨before, rfl, endsInEscape_append_backslash.mp h⟩
    · exact absurd h (not_endsInEscape_append hc)

/-- A quote stands `start` bytes into the text, behind a text that is complete. -/
def OpenedAt (quote : Quote) (start : Nat) (text body : List Char) : Prop :=
  ∃ before, text = before ++ quote.mark :: body ∧ byteCount before = start ∧
    ∃ words, (Reader.after before).finish = .ok words

theorem OpenedAt.append {quote : Quote} {start : Nat} {text body : List Char}
    (h : OpenedAt quote start text body) (c : Char) :
    OpenedAt quote start (text ++ [c]) (body ++ [c]) := by
  obtain ⟨before, rfl, hstart, hcomplete⟩ := h
  exact ⟨before, by simp, hstart, hcomplete⟩

/-- What has been read if the reader is in a mode. -/
def OpenAfter (text : List Char) : Mode → Prop
  | .single start => ∃ body, OpenedAt .single start text body ∧ '\'' ∉ body
  | .double start => (∃ body, OpenedAt .double start text body) ∧ ¬ EndsInEscape text
  | .doubleEscape start => (∃ body, OpenedAt .double start text body) ∧ EndsInEscape text
  | .plain | .escape _ | .escapeReturn _ => True

namespace Reader

theorem exists_finish_of_plain {r : Reader} (h : r.mode = .plain) :
    ∃ words, r.finish = .ok words :=
  ⟨_, by rw [finish, h]⟩

/-- The mark that opens the quotes closes them. -/
theorem mode_step_mark {r : Reader} (quote : Quote) {start : Nat}
    (h : r.mode = quote.inside start) : (r.step quote.mark).mode = .plain := by
  rw [step_eq, h]
  cases quote with
  | single => rfl
  | double => rfl

/-- What a backslash escapes leaves the quotes open. -/
theorem mode_step_doubleEscape {r : Reader} {start : Nat} {c : Char}
    (h : r.mode = .doubleEscape start) (hc : isEscapable c = true) :
    (r.step c).mode = .double start := by
  rw [step_eq, h]
  simp only
  rw [if_pos hc]

/-- Outside quotes a quote is opened by its mark alone. -/
theorem openAfter_stepPlain {r : Reader} {text : List Char} {c : Char} (hmode : r.mode = .plain)
    (hcomplete : ∃ words, (after text).finish = .ok words) :
    OpenAfter (text ++ [c]) (r.stepPlain (byteCount text) c).mode := by
  unfold stepPlain
  split
  · show OpenAfter _ r.mode
    rw [hmode]
    trivial
  · split
    · rename_i hc
      exact ⟨[], ⟨text, by rw [hc]; rfl, rfl, hcomplete⟩, List.not_mem_nil⟩
    · split
      · rename_i hc
        refine ⟨⟨[], text, by rw [hc]; rfl, rfl, hcomplete⟩, not_endsInEscape_append ?_⟩
        rw [hc]
        decide
      · split
        · trivial
        · show OpenAfter _ r.mode
          rw [hmode]
          trivial

theorem openAfter_step {text : List Char} (h : OpenAfter text (after text).mode) (c : Char) :
    OpenAfter (text ++ [c]) (after (text ++ [c])).mode := by
  rw [after_append_singleton, step_eq]
  cases hmode : (after text).mode with
  | plain =>
    simp only
    rw [offset_after]
    exact openAfter_stepPlain (r := (after text).advance c) hmode (exists_finish_of_plain hmode)
  | escape start =>
    simp only
    split
    · trivial
    · split
      · trivial
      · trivial
  | escapeReturn start =>
    simp only
    split
    · trivial
    · rw [offset_after]
      exact openAfter_stepPlain rfl ⟨_, by rw [finish, hmode]⟩
  | single start =>
    rw [hmode] at h
    obtain ⟨body, hopened, hbody⟩ := h
    simp only
    split
    · trivial
    · -- the quotes stay open, so the character is not their mark
      rename_i hc
      show OpenAfter _ (after text).mode
      rw [hmode]
      refine ⟨body ++ [c], hopened.append c, ?_⟩
      simpa [hbody] using Ne.symm hc
  | double start =>
    rw [hmode] at h
    obtain ⟨⟨body, hopened⟩, hescape⟩ := h
    simp only
    split
    · trivial
    · split
      · rename_i hc
        rw [hc]
        exact ⟨⟨_, hopened.append '\\'⟩, endsInEscape_append_backslash.mpr hescape⟩
      · rename_i hc
        show OpenAfter _ (after text).mode
        rw [hmode]
        exact ⟨⟨_, hopened.append c⟩, not_endsInEscape_append hc⟩
  | doubleEscape start =>
    rw [hmode] at h
    obtain ⟨⟨body, hopened⟩, hescape⟩ := h
    have hnot := hescape.not_append c
    simp only
    split
    · exact ⟨⟨_, hopened.append c⟩, hnot⟩
    · split
      · exact ⟨⟨_, hopened.append c⟩, hnot⟩
      · exact ⟨⟨_, hopened.append c⟩, hnot⟩

theorem openAfter (text : List Char) : OpenAfter text (after text).mode := by
  induction text using List.reverseRecOn with
  | nil => trivial
  | append_singleton text c ih => exact openAfter_step ih c

end Reader

/-- The quote splits the text in two, the first of them complete. -/
theorem OpenedAt.exists_texts {quote : Quote} {start : Nat} {text : String} {body : List Char}
    (h : OpenedAt quote start text.toList body) :
    ∃ before : String, text = before ++ String.singleton quote.mark ++ String.ofList body ∧
      start = before.utf8ByteSize ∧ ∃ words, tokenize before = .ok words := by
  obtain ⟨before, htext, hstart, words, hwords⟩ := h
  refine ⟨String.ofList before, ?_, ?_, words, ?_⟩
  · rw [← String.toList_inj, htext]
    simp
  · rw [← byteCount_toList, String.toList_ofList, hstart]
  · rw [tokenize, String.toList_ofList]
    exact hwords

theorem tokenize_append (text : String) (more : List Char) :
    tokenize (text ++ String.ofList more) = ((Reader.after text.toList).run more).finish := by
  rw [tokenize, String.toList_append, String.toList_ofList, Reader.run_append, ← Reader.after]

theorem exists_tokenize_append {text : String} (more : List Char)
    (h : ((Reader.after text.toList).run more).mode = .plain) :
    ∃ words, tokenize (text ++ String.ofList more) = .ok words := by
  rw [tokenize_append]
  exact Reader.exists_finish_of_plain h

/-- **A fault says which quote is open, and it really is**: the span runs from a
quote of its kind to the end of the text, the text before it is complete, and the
whole text becomes so when the quote is closed. -/
theorem unclosed_of_tokenize {text : String} {fault : UnclosedQuote}
    (h : tokenize text = .error fault) :
    ∃ before body : String,
      text = before ++ String.singleton fault.quote.mark ++ body ∧
      fault.span = ⟨before.utf8ByteSize, text.utf8ByteSize⟩ ∧
      (∃ words, tokenize before = .ok words) ∧
      match fault.quote with
      | .single => '\'' ∉ body.toList ∧ ∃ words, tokenize (text ++ "'") = .ok words
      | .double =>
        if EndsInEscape text.toList then
          (∃ other, tokenize (text ++ "\"") = .error other) ∧
            ∃ words, tokenize (text ++ "\\\"") = .ok words
        else ∃ words, tokenize (text ++ "\"") = .ok words := by
  have hopen := Reader.openAfter text.toList
  have hsize : (Reader.after text.toList).offset = text.utf8ByteSize := by
    rw [Reader.offset_after, byteCount_toList]
  rw [tokenize, ← Reader.after, Reader.finish, hsize] at h
  cases hmode : (Reader.after text.toList).mode with
  | plain | escape start | escapeReturn start =>
    rw [hmode] at h
    cases h
  | single start =>
    rw [hmode] at h hopen
    obtain rfl := Except.error.inj h
    obtain ⟨body, hopened, hbody⟩ := hopen
    obtain ⟨before, htext, rfl, hcomplete⟩ := hopened.exists_texts
    have hclosed : ((Reader.after text.toList).step '\'').mode = .plain :=
      Reader.mode_step_mark .single hmode
    refine ⟨before, String.ofList body, htext, rfl, hcomplete, ?_, ?_⟩
    · rw [String.toList_ofList]
      exact hbody
    · exact exists_tokenize_append ['\''] hclosed
  | double start =>
    rw [hmode] at h hopen
    obtain rfl := Except.error.inj h
    obtain ⟨⟨body, hopened⟩, hescape⟩ := hopen
    obtain ⟨before, htext, rfl, hcomplete⟩ := hopened.exists_texts
    have hclosed : ((Reader.after text.toList).step '"').mode = .plain :=
      Reader.mode_step_mark .double hmode
    refine ⟨before, String.ofList body, htext, rfl, hcomplete, ?_⟩
    show ite _ _ _
    rw [if_neg hescape]
    exact exists_tokenize_append ['"'] hclosed
  | doubleEscape start =>
    rw [hmode] at h hopen
    obtain rfl := Except.error.inj h
    obtain ⟨⟨body, hopened⟩, hescape⟩ := hopen
    obtain ⟨before, htext, rfl, hcomplete⟩ := hopened.exists_texts
    have hquote : ((Reader.after text.toList).step '"').mode = .double before.utf8ByteSize :=
      Reader.mode_step_doubleEscape hmode (by decide)
    have hbackslash := Reader.mode_step_doubleEscape (c := '\\') hmode (by decide)
    have hclosed : (((Reader.after text.toList).step '\\').step '"').mode = .plain :=
      Reader.mode_step_mark .double hbackslash
    refine ⟨before, String.ofList body, htext, rfl, hcomplete, ?_⟩
    show ite _ _ _
    rw [if_pos hescape]
    refine ⟨?_, exists_tokenize_append ['\\', '"'] hclosed⟩
    have hstill : tokenize (text ++ "\"") = ((Reader.after text.toList).step '"').finish :=
      tokenize_append text ['"']
    rw [hstill, Reader.finish, hquote]
    exact ⟨_, rfl⟩

/-- The last backslash would escape the quote that is missing. -/
theorem unclosed_of_tokenize_escaped :
    let text := "é 'b' \"c\\"
    tokenize text = .error ⟨.double, ⟨7, 10⟩⟩ ∧
      (∃ before body : String, text = before ++ "\"" ++ body ∧ before.utf8ByteSize = 7 ∧
        ∃ words, tokenize before = .ok words) ∧
      (∃ other, tokenize (text ++ "\"") = .error other) ∧
      ∃ words, tokenize (text ++ "\\\"") = .ok words := by
  intro text
  have hread : tokenize text = .error ⟨.double, ⟨7, 10⟩⟩ := by decide +kernel
  obtain ⟨before, body, htext, hspan, hcomplete, hclosed⟩ := unclosed_of_tokenize hread
  have hescape : EndsInEscape text.toList := by decide +kernel
  have hstart : before.utf8ByteSize = 7 := (congrArg Span.start hspan).symm
  simp only at hclosed
  rw [if_pos hescape] at hclosed
  exact ⟨hread, ⟨before, body, htext, hstart, hcomplete⟩, hclosed⟩

end CompilationDatabase.CommandLine
