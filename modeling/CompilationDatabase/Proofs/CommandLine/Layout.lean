/-
How the words of a command line lie in its text.

A span covers a piece of a text if it starts and stops at borders of characters
(`Span.Covers`); the piece is then its slice.  What stands between words is a gap
of blanks and line continuations (`IsGap`), and as a line continuation parts no
words, there is a blank in it besides (`IsBlankGap`).

* `LaidOut` — the words, and the gaps around them, are all of the text;
* `LaidOut.append_gap`, `LaidOut.concat` — it stays so when the text grows by a
  gap, or by what spells one more word.
-/
import CompilationDatabase.Proofs.CommandLine.Reading
import Mathlib.Data.List.Chain

namespace CompilationDatabase.CommandLine

open Text

/-! ### Gaps -/

/-- Blanks and line continuations. -/
inductive IsGap : List Char → Prop where
  | nil : IsGap []
  | blank {c : Char} {text : List Char} (hc : isSeparator c = true) (h : IsGap text) :
      IsGap (c :: text)
  | lineFeed {text : List Char} (h : IsGap text) : IsGap ('\\' :: '\n' :: text)
  | returnLineFeed {text : List Char} (h : IsGap text) : IsGap ('\\' :: '\r' :: '\n' :: text)

/-- A gap with a blank that belongs to no line continuation. -/
def IsBlankGap (text : List Char) : Prop :=
  ∃ before c after, text = before ++ c :: after ∧ IsGap before ∧ isSeparator c = true ∧ IsGap after

theorem IsGap.append {a b : List Char} (ha : IsGap a) (hb : IsGap b) : IsGap (a ++ b) := by
  induction ha with
  | nil => exact hb
  | blank hc _ ih => exact .blank hc ih
  | lineFeed _ ih => exact .lineFeed ih
  | returnLineFeed _ ih => exact .returnLineFeed ih

theorem IsGap.append_blank {gap : List Char} {c : Char} (h : IsGap gap)
    (hc : isSeparator c = true) : IsBlankGap (gap ++ [c]) :=
  ⟨gap, c, [], rfl, h, hc, .nil⟩

theorem IsBlankGap.isGap {gap : List Char} (h : IsBlankGap gap) : IsGap gap := by
  obtain ⟨before, c, after, rfl, hbefore, hc, hafter⟩ := h
  exact hbefore.append (.blank hc hafter)

theorem IsBlankGap.ne_nil {gap : List Char} (h : IsBlankGap gap) : gap ≠ [] := by
  obtain ⟨before, c, after, rfl, -⟩ := h
  simp

theorem IsBlankGap.append {a b : List Char} (ha : IsBlankGap a) (hb : IsGap b) :
    IsBlankGap (a ++ b) := by
  obtain ⟨before, c, after, rfl, hbefore, hc, hafter⟩ := ha
  exact ⟨before, c, after ++ b, by simp, hbefore, hc, hafter.append hb⟩

/-! ### Pieces of a text -/

/-- The span runs from the start to the end of a piece of the text. -/
def Span.Covers (s : Span) (text piece : List Char) : Prop :=
  ∃ before after, text = before ++ (piece ++ after) ∧
    s = ⟨byteCount before, byteCount before + byteCount piece⟩

theorem Span.Covers.append {s : Span} {text piece : List Char} (h : s.Covers text piece)
    (more : List Char) : s.Covers (text ++ more) piece := by
  obtain ⟨before, after, rfl, rfl⟩ := h
  exact ⟨before, after ++ more, by simp, rfl⟩

theorem Span.Covers.start_lt_stop {s : Span} {text piece : List Char} (h : s.Covers text piece)
    (hpiece : piece ≠ []) : s.start < s.stop := by
  obtain ⟨before, after, -, rfl⟩ := h
  exact Nat.lt_add_of_pos_right (byteCount_pos hpiece)

theorem Span.Covers.slice {s : Span} {text : String} {piece : List Char}
    (h : s.Covers text.toList piece) : s.slice text = String.ofList piece := by
  obtain ⟨before, after, htext, rfl⟩ := h
  rw [Span.slice, if_pos (Nat.le_add_right _ _), htext, dropBytes_append, Span.length,
    Nat.add_sub_cancel_left]
  show String.ofList ((takeBytes (byteCount piece) (piece ++ after)).getD []) = _
  rw [takeBytes_append]
  rfl

/-- The text spells the word, and nothing else. -/
structure Spells (source : List Char) (w : Word) : Prop where
  /-- Read on its own, it is the word. -/
  tokenize_eq : tokenize (String.ofList source) = .ok [w]
  /-- All of it belongs to the word. -/
  span_eq : w.span = ⟨0, byteCount source⟩

theorem Spells.ne_nil {source : List Char} {w : Word} (h : Spells source w) : source ≠ [] := by
  rintro rfl
  cases h.tokenize_eq

theorem Spells.span_shift {source : List Char} {w : Word} (h : Spells source w) (n : Nat) :
    (w.shift n).span = ⟨n, n + byteCount source⟩ := by
  simp [Word.shift, Span.shift, h.span_eq, Nat.add_comm]

theorem Spells.split_eq {source : List Char} {w : Word} (h : Spells source w) :
    split (String.ofList source) = .ok [w.value] := by
  rw [split, h.tokenize_eq]
  rfl

/-! ### All of a text -/

/-- The text ends in a piece of a kind, with which it goes on after its last word. -/
def EndsIn (kind : List Char → Prop) (text : List Char) (words : List Word) : Prop :=
  ∀ w ∈ words.getLast?, ∃ before gap, text = before ++ gap ∧ byteCount before = w.span.stop ∧
    kind gap

/-- The words and the gaps around them are all of the text. -/
structure LaidOut (text : List Char) (words : List Word) : Prop where
  /-- A text without words is a gap. -/
  empty : words = [] → IsGap text
  /-- Each word stands where a piece of the text spells it. -/
  spelled : ∀ w ∈ words, ∃ source, w.span.Covers text source ∧ source ≠ [] ∧
    split (String.ofList source) = .ok [w.value]
  /-- A gap stands before the first word. -/
  leading : ∀ w ∈ words.head?, ∃ gap, (Span.mk 0 w.span.start).Covers text gap ∧ IsGap gap
  /-- A gap with a blank stands between two words. -/
  between : words.IsChain fun a b =>
    ∃ gap, (Span.mk a.span.stop b.span.start).Covers text gap ∧ IsBlankGap gap
  /-- A gap stands behind the last word. -/
  trailing : EndsIn IsGap text words

/-- The second word is spelled by some text behind the first. -/
def Word.Precedes (a b : Word) : Prop :=
  a.span.stop < b.span.start ∧ b.span.start < b.span.stop

instance : Trans Word.Precedes Word.Precedes Word.Precedes where
  trans hab hbc := ⟨hab.1.trans (hab.2.trans hbc.1), hbc.2⟩

/-- Words that are laid out stand one behind the other. -/
theorem LaidOut.pairwise {text : List Char} {words : List Word} (h : LaidOut text words) :
    words.Pairwise Word.Precedes := by
  have hchain : words.IsChain Word.Precedes := by
    refine h.between.imp_of_mem_imp ?_
    rintro a b - hb ⟨gap, hgap, hblank⟩
    obtain ⟨source, hsource, hne, -⟩ := h.spelled b hb
    exact ⟨hgap.start_lt_stop hblank.ne_nil, hsource.start_lt_stop hne⟩
  exact hchain.pairwise

theorem EndsIn.append {kind : List Char → Prop} {text more : List Char} {words : List Word}
    (h : EndsIn kind text words) (hkind : ∀ gap, kind gap → kind (gap ++ more)) :
    EndsIn kind (text ++ more) words := by
  intro w hw
  obtain ⟨before, gap, rfl, hstop, hgap⟩ := h w hw
  exact ⟨before, gap ++ more, by simp, hstop, hkind gap hgap⟩

theorem LaidOut.nil : LaidOut [] [] where
  empty _ := .nil
  spelled := by simp
  leading := by simp
  between := .nil
  trailing := by simp [EndsIn]

/-- A text may go on with a gap. -/
theorem LaidOut.append_gap {text gap : List Char} {words : List Word} (h : LaidOut text words)
    (hgap : IsGap gap) : LaidOut (text ++ gap) words where
  empty hwords := (h.empty hwords).append hgap
  spelled w hw := by
    obtain ⟨source, hcovers, hsource⟩ := h.spelled w hw
    exact ⟨source, hcovers.append gap, hsource⟩
  leading w hw := by
    obtain ⟨lead, hcovers, hlead⟩ := h.leading w hw
    exact ⟨lead, hcovers.append gap, hlead⟩
  between := by
    refine h.between.imp ?_
    rintro a b ⟨blanks, hcovers, hblanks⟩
    exact ⟨blanks, hcovers.append gap, hblanks⟩
  trailing := h.trailing.append fun _ hlast => hlast.append hgap

/-- Behind a blank, a text may go on with another word. -/
theorem LaidOut.concat {text source : List Char} {words : List Word} {w : Word}
    (h : LaidOut text words) (hblank : EndsIn IsBlankGap text words) (hw : Spells source w) :
    LaidOut (text ++ source) (words ++ [w.shift (byteCount text)]) := by
  have hspan := hw.span_shift (byteCount text)
  refine ⟨by simp, ?spelled, ?leading, ?between, ?trailing⟩
  case spelled =>
    intro v hv
    rcases List.mem_append.mp hv with hv | hv
    · obtain ⟨own, hcovers, hown⟩ := h.spelled v hv
      exact ⟨own, hcovers.append source, hown⟩
    · obtain rfl := List.mem_singleton.mp hv
      exact ⟨source, ⟨text, [], by simp, hspan⟩, hw.ne_nil, hw.split_eq⟩
  case leading =>
    intro v hv
    cases words with
    | nil =>
      obtain rfl : w.shift (byteCount text) = v := by simpa using hv
      refine ⟨text, ⟨[], source, rfl, ?_⟩, h.empty rfl⟩
      rw [hspan]
      simp
    | cons first words =>
      obtain ⟨lead, hcovers, hlead⟩ := h.leading v hv
      exact ⟨lead, hcovers.append source, hlead⟩
  case between =>
    refine List.isChain_append.mpr ⟨?_, List.isChain_singleton _, ?_⟩
    · refine h.between.imp ?_
      rintro a b ⟨blanks, hcovers, hblanks⟩
      exact ⟨blanks, hcovers.append source, hblanks⟩
    · -- the gap after the last word so far now stands between two words
      intro last hlast v hv
      obtain rfl : w.shift (byteCount text) = v := by simpa using hv
      obtain ⟨before, gap, htext, hstop, hgap⟩ := hblank last hlast
      refine ⟨gap, ⟨before, source, by rw [htext, List.append_assoc], ?_⟩, hgap⟩
      rw [hspan, ← hstop, htext, byteCount_append]
  case trailing =>
    intro v hv
    obtain rfl : w.shift (byteCount text) = v := by simpa using hv
    exact ⟨text ++ source, [], by simp, by rw [hspan, byteCount_append], .nil⟩

/-- If a blank follows the word, the text ends in a blank again. -/
theorem EndsIn.concat {text source gap : List Char} {words : List Word} {w : Word}
    (hw : Spells source w) (hgap : IsBlankGap gap) :
    EndsIn IsBlankGap (text ++ source ++ gap) (words ++ [w.shift (byteCount text)]) := by
  intro v hv
  obtain rfl : w.shift (byteCount text) = v := by simpa using hv
  refine ⟨text ++ source, gap, rfl, ?_, hgap⟩
  rw [hw.span_shift, byteCount_append]

end CompilationDatabase.CommandLine
