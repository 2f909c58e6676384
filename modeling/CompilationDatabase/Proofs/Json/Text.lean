/-
A JSON string that is written is read back.

The writer escapes characters one by one, so the reader can be followed
character by character (`units?_escapeChar`).  What it finds are the code
points of the text; no character of a text is half of a surrogate pair, so the
code points make the text again (`charsOfUnits?_map_toNat`).

* `text?_quoted` — behind its first quote, a written string is read as its text.
-/
import CompilationDatabase.Json.Parser
import CompilationDatabase.Json.Printer

namespace CompilationDatabase.Json

/-! ### Characters -/

theorem hexUnit?_hexDigits {n : Nat} (h : n < 0x20) :
    ∃ a b c d, Text.hexDigits 4 n = [a, b, c, d] ∧ hexUnit? a b c d = some n := by
  have hunit : ∀ n < 0x20, hexUnit? (Text.hexDigit (n / 4096 % 16)) (Text.hexDigit (n / 256 % 16))
      (Text.hexDigit (n / 16 % 16)) (Text.hexDigit (n / 1 % 16)) = some n := by decide
  exact ⟨_, _, _, _, rfl, hunit n h⟩

/-- A letter behind a backslash is read as the character it was written for,
and it is not the one that announces digits. -/
theorem unescape?_escapeLetter {c letter : Char} (h : escapeLetter? c = some letter) :
    letter ≠ 'u' ∧ unescape? letter = some c.toNat := by
  unfold escapeLetter? at h
  split at h
  all_goals first
    | (obtain rfl := Option.some.inj h; exact ⟨by decide, rfl⟩)
    | cases h

/-- The quote and the backslash have a letter of their own. -/
theorem ne_of_escapeLetter?_eq_none {c : Char} (h : escapeLetter? c = none) :
    c ≠ '"' ∧ c ≠ '\\' := by
  constructor
  · rintro rfl
    cases h
  · rintro rfl
    cases h

/-- A written character is read as its code point. -/
theorem units?_escapeChar (c : Char) (rest : List Char) :
    units? (escapeChar c ++ rest)
      = (units? rest).map fun (units, rest) => (c.toNat :: units, rest) := by
  unfold escapeChar
  split
  · rename_i letter hletter
    obtain ⟨hu, hcode⟩ := unescape?_escapeLetter hletter
    -- the letter is not the one that announces digits
    show units? ('\\' :: letter :: rest) = _
    rw [units?.eq_3 letter rest fun _ _ _ _ _ h _ => hu h, hcode]
    cases units? rest <;> rfl
  · rename_i hnone
    obtain ⟨hquote, hbackslash⟩ := ne_of_escapeLetter?_eq_none hnone
    split
    · rename_i hcontrol
      obtain ⟨x, y, z, w, hdigits, hunit⟩ := hexUnit?_hexDigits hcontrol
      rw [hdigits]
      show units? ('\\' :: 'u' :: x :: y :: z :: w :: rest) = _
      rw [units?, hunit]
      cases units? rest <;> rfl
    · rename_i hplain
      show units? (c :: rest) = _
      rw [units?.eq_4 c rest hquote (fun _ _ _ _ _ h _ => hbackslash h)
        (fun _ _ h _ => hbackslash h), if_neg hplain]
      cases units? rest <;> rfl

/-- A written text is read as its code points, up to the quote behind it. -/
theorem units?_flatMap_escapeChar (text rest : List Char) :
    units? (text.flatMap escapeChar ++ '"' :: rest) = some (text.map Char.toNat, rest) := by
  induction text with
  | nil => rfl
  | cons c text ih =>
    rw [List.flatMap_cons, List.append_assoc, units?_escapeChar, ih]
    rfl

/-! ### Texts -/

/-- The code point of a character is no half of a surrogate pair. -/
theorem not_surrogate_toNat (c : Char) :
    isLeading c.toNat = false ∧ isTrailing c.toNat = false := by
  have hvalid : c.toNat < 0xD800 ∨ 0xDFFF < c.toNat ∧ c.toNat < 0x110000 := c.valid
  simp only [isLeading, isTrailing, Bool.and_eq_false_iff, decide_eq_false_iff_not]
  omega

/-- The code points of a text make the text. -/
theorem charsOfUnits?_map_toNat (text : List Char) :
    charsOfUnits? (text.map Char.toNat) = some text := by
  induction text with
  | nil => rfl
  | cons c text ih =>
    obtain ⟨hleading, htrailing⟩ := not_surrogate_toNat c
    cases text with
    | nil => simp [charsOfUnits?, hleading, htrailing]
    | cons d text =>
      rw [List.map_cons] at ih
      rw [List.map_cons, List.map_cons, charsOfUnits?, ih]
      simp [hleading, htrailing]

/-- **A written string is read back**, behind its first quote. -/
theorem text?_quoted (text : String) (rest : List Char) :
    text? (text.toList.flatMap escapeChar ++ '"' :: rest) = some (some text, rest) := by
  simp [text?, units?_flatMap_escapeChar, charsOfUnits?_map_toNat]

end CompilationDatabase.Json
