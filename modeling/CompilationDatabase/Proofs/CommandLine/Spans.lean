/-
The words of a command line and the gaps around them are all of it.

A reader that has no word begun and stands outside quotes is as at its start,
behind the words it has (`Reader.behind`).  What was read since it last stood so
is the pending text, and a reader that begins there comes to the same word.  So
the invariant speaks of the pending text alone (`Reader.Pends`): outside quotes
it spells the word begun, up to a gap behind it and the backslash that has just
been read.  A character either leaves the text pending or makes it pass
(`Reader.stands_step`), and then a gap or a word with a gap is laid out.

* `exists_pending` — what has been read is laid out up to the pending text;
* `spans_of_tokenize` — where the words of a text stand in it.
-/
import CompilationDatabase.Proofs.CommandLine.Layout

namespace CompilationDatabase.CommandLine

open Text

/-- The text spells the word, if any, up to a gap behind it. -/
inductive Settled : List Char → Option Word → Prop where
  | none : Settled [] none
  | some {source gap : List Char} {w : Word} (hw : Spells source w) (hgap : IsGap gap) :
      Settled (source ++ gap) (some w)

theorem Spells.settled {text : List Char} {w : Word} (h : Spells text w) :
    Settled text (some w) := by
  simpa using Settled.some h .nil

/-- A text after which a reader is as at its start, and the words it then has. -/
inductive Passed : List Char → List Word → Prop where
  | gap {text : List Char} (h : IsGap text) : Passed text []
  | word {source gap : List Char} {w : Word} (hw : Spells source w) (hgap : IsBlankGap gap) :
      Passed (source ++ gap) [w]

namespace Reader

/-- How the reader stands to the text that is pending, by its mode. -/
def Pends (r : Reader) (pending : List Char) : Prop :=
  match r.mode with
  | .plain => Settled pending r.current
  | .escape start =>
    (r.begun start).span.start = 0 ∧
      ∃ before, pending = before ++ ['\\'] ∧ Settled before r.current
  | .escapeReturn start =>
    (r.begun start).span.start = 0 ∧
      ∃ before, pending = before ++ ['\\', '\r'] ∧ Settled before r.current
  | .single start | .double start | .doubleEscape start => (r.begun start).span.start = 0

/-- The text is pending or passed. -/
def Stands (r : Reader) (text : List Char) : Prop :=
  (r.words = #[] ∧ r.Pends text) ∨
    (r.mode = .plain ∧ r.current = none ∧ Passed text r.words.toList)

/-! ### What a text spells -/

theorem words_flush {r : Reader} (h : r.words = #[]) : r.flush.words.toList = r.current.toList := by
  simp [flush, h]

theorem start_begun_of_settled {r : Reader} {text : List Char} (h : Settled text r.current) :
    (r.begun (byteCount text)).span.start = 0 := by
  unfold begun
  generalize r.current = current at h
  cases h with
  | none => rfl
  | some hw hgap => simp [hw.span_eq]

theorem spells_of_finish {text : List Char} {w : Word} (h : (after text).finish = .ok [w])
    (hspan : w.span = ⟨0, byteCount text⟩) : Spells text w :=
  ⟨by rw [tokenize, String.toList_ofList]; exact h, hspan⟩

/-- If the end of a text puts a character into its word, the text spells that word. -/
theorem settled_of_put {text : List Char} {start : Nat} {c : Char}
    (hwords : (after text).words = #[]) (hstart : ((after text).begun start).span.start = 0)
    (hfinish : (after text).finish
      = .ok ((after text).put start c (after text).offset).flush.words.toList) :
    Settled text ((after text).put start c (after text).offset).current := by
  have hcurrent : ((after text).put start c (after text).offset).flush.words.toList
      = ((after text).put start c (after text).offset).current.toList := words_flush hwords
  refine (spells_of_finish ?_ ?_).settled
  · rw [hfinish, hcurrent]
    rfl
  · show Span.mk ((after text).begun start).span.start (after text).offset = _
    rw [hstart, offset_after]

/-- A word that reaches to the end of a text, outside quotes, is spelled by it. -/
theorem pends_of_current {r : Reader} {text : List Char} {w : Word} (hafter : after text = r)
    (hwords : r.words = #[]) (hmode : r.mode = .plain) (hcurrent : r.current = some w)
    (hspan : w.span = ⟨0, byteCount text⟩) : r.Pends text := by
  have hfinish : (after text).finish = .ok [w] := by
    rw [hafter, finish, hmode]
    show Except.ok r.flush.words.toList = _
    rw [words_flush hwords, hcurrent]
    rfl
  -- the reader could stop here, so the text alone gives the word
  have hsettled := (spells_of_finish hfinish hspan).settled
  unfold Pends
  rw [hmode]
  show Settled text r.current
  rw [hcurrent]
  exact hsettled

/-- Inside quotes, all that matters is where the word begins. -/
theorem pends_of_mode {r : Reader} {text : List Char} {start : Nat}
    (hmode : r.mode = .single start ∨ r.mode = .double start)
    (hstart : (r.begun start).span.start = 0) : r.Pends text := by
  unfold Pends
  rcases hmode with hmode | hmode
  · rw [hmode]
    exact hstart
  · rw [hmode]
    exact hstart

/-- A line continuation goes behind the word begun, or else it passes. -/
theorem stands_append_gap {r : Reader} {text gap : List Char} (hmode : r.mode = .plain)
    (hwords : r.words = #[]) (hsettled : Settled text r.current) (hgap : IsGap gap) :
    r.Stands (text ++ gap) := by
  generalize hcurrent : r.current = current at hsettled
  cases hsettled with
  | none =>
    refine .inr ⟨hmode, hcurrent, ?_⟩
    rw [hwords]
    exact .gap hgap
  | some hw hold =>
    refine .inl ⟨hwords, ?_⟩
    unfold Pends
    rw [hmode, List.append_assoc]
    show Settled _ r.current
    rw [hcurrent]
    exact .some hw (hold.append hgap)

theorem passed_flush {r : Reader} {text : List Char} {c : Char} (hwords : r.words = #[])
    (hsettled : Settled text r.current) (hc : isSeparator c = true) :
    Passed (text ++ [c]) r.flush.words.toList := by
  rw [words_flush hwords]
  generalize r.current = current at hsettled
  cases hsettled with
  | none => exact .gap (.blank hc .nil)
  | some hw hgap =>
    rw [List.append_assoc]
    exact .word hw (hgap.append_blank hc)

/-! ### One more character -/

/-- Where a word stops that begins the text and has taken its last character. -/
theorem span_advance {text : List Char} {c : Char} {start : Nat} (h : start = 0) :
    (⟨start, ((after text).advance c).offset⟩ : Span) = ⟨0, byteCount (text ++ [c])⟩ := by
  rw [h, ← offset_after, after_append_singleton, offset_step]
  rfl

/-- A character outside quotes. -/
theorem stands_stepPlain {r : Reader} {text : List Char} {c : Char} (hmode : r.mode = .plain)
    (hwords : r.words = #[]) (hsettled : Settled text r.current)
    (hafter : after (text ++ [c]) = r.stepPlain (byteCount text) c) :
    (after (text ++ [c])).Stands (text ++ [c]) := by
  have hstart := start_begun_of_settled hsettled
  unfold stepPlain at hafter
  split at hafter
  · rename_i hc
    rw [hafter]
    exact .inr ⟨hmode, rfl, passed_flush hwords hsettled hc⟩
  · -- a quote or a backslash leaves the word begun as it is, and any other character extends it
    split at hafter
    · rw [hafter]
      exact .inl ⟨hwords, hstart⟩
    · split at hafter
      · rw [hafter]
        exact .inl ⟨hwords, hstart⟩
      · split at hafter
        · rename_i hc
          rw [hafter, hc]
          exact .inl ⟨hwords, hstart, text, rfl, hsettled⟩
        · rw [hafter]
          refine .inl ⟨hwords, pends_of_current hafter hwords hmode rfl ?_⟩
          simp [hstart]

/-- A character behind a backslash. -/
theorem stands_step_escape {text before : List Char} {start : Nat}
    (hmode : (after text).mode = .escape start) (hwords : (after text).words = #[])
    (hstart : ((after text).begun start).span.start = 0) (htext : text = before ++ ['\\'])
    (hsettled : Settled before (after text).current) (c : Char) :
    (after (text ++ [c])).Stands (text ++ [c]) := by
  have hafter := after_append_singleton text c
  rw [step_eq, hmode] at hafter
  simp only at hafter
  split at hafter
  · rename_i hc
    have hmore : text ++ [c] = before ++ ['\\', '\n'] := by simp [htext, hc]
    rw [hafter, hmore]
    exact stands_append_gap rfl hwords hsettled (.lineFeed .nil)
  · split at hafter
    · rename_i hc
      have hmore : text ++ [c] = before ++ ['\\', '\r'] := by simp [htext, hc]
      rw [hafter, hmore]
      exact .inl ⟨hwords, hstart, before, rfl, hsettled⟩
    · rw [hafter]
      exact .inl ⟨hwords, pends_of_current hafter hwords rfl rfl (span_advance hstart)⟩

/-- A character behind a backslash and a carriage return.  Unless it is a line
feed, the carriage return was escaped, and the character is met outside quotes. -/
theorem stands_step_escapeReturn {text before : List Char} {start : Nat}
    (hmode : (after text).mode = .escapeReturn start) (hwords : (after text).words = #[])
    (hstart : ((after text).begun start).span.start = 0)
    (htext : text = before ++ ['\\', '\r']) (hsettled : Settled before (after text).current)
    (c : Char) : (after (text ++ [c])).Stands (text ++ [c]) := by
  have hafter := after_append_singleton text c
  have hput := settled_of_put (c := '\r') hwords hstart (by rw [finish, hmode])
  rw [step_eq, hmode] at hafter
  simp only at hafter
  split at hafter
  · rename_i hc
    have hmore : text ++ [c] = before ++ ['\\', '\r', '\n'] := by simp [htext, hc]
    rw [hafter, hmore]
    exact stands_append_gap rfl hwords hsettled (.returnLineFeed .nil)
  · have hplain : ({ ((after text).advance c).put start '\r' (after text).offset with
        mode := .plain } : Reader).mode = .plain := rfl
    refine stands_stepPlain hplain hwords hput ?_
    rw [← offset_after]
    exact hafter

/-- A character inside quotes. -/
theorem stands_step_quoted {text : List Char} {start : Nat}
    (hmode : (after text).mode = .single start ∨ (after text).mode = .double start ∨
      (after text).mode = .doubleEscape start) (hwords : (after text).words = #[])
    (hstart : ((after text).begun start).span.start = 0) (c : Char) :
    (after (text ++ [c])).Stands (text ++ [c]) := by
  have hafter := after_append_singleton text c
  rcases hmode with hmode | hmode | hmode
  · rw [step_eq, hmode] at hafter
    simp only at hafter
    split at hafter
    · rw [hafter]
      exact .inl ⟨hwords, pends_of_current hafter hwords rfl rfl (span_advance hstart)⟩
    · rw [hafter]
      exact .inl ⟨hwords, pends_of_mode (.inl hmode) hstart⟩
  · rw [step_eq, hmode] at hafter
    simp only at hafter
    split at hafter
    · rw [hafter]
      exact .inl ⟨hwords, pends_of_current hafter hwords rfl rfl (span_advance hstart)⟩
    · split at hafter
      · rw [hafter]
        exact .inl ⟨hwords, hstart⟩
      · rw [hafter]
        exact .inl ⟨hwords, pends_of_mode (.inr hmode) hstart⟩
  · rw [step_eq, hmode] at hafter
    simp only at hafter
    split at hafter
    · rw [hafter]
      exact .inl ⟨hwords, hstart⟩
    · split at hafter
      · rw [hafter]
        exact .inl ⟨hwords, hstart⟩
      · rw [hafter]
        exact .inl ⟨hwords, hstart⟩

/-- A character leaves the text pending, or the text passes. -/
theorem stands_step {text : List Char} (hwords : (after text).words = #[])
    (hpends : (after text).Pends text) (c : Char) :
    (after (text ++ [c])).Stands (text ++ [c]) := by
  unfold Pends at hpends
  cases hmode : (after text).mode with
  | plain =>
    rw [hmode] at hpends
    have hafter := after_append_singleton text c
    rw [step_eq, hmode, offset_after] at hafter
    exact stands_stepPlain (r := (after text).advance c) hmode hwords hpends hafter
  | escape start =>
    rw [hmode] at hpends
    obtain ⟨hstart, before, htext, hsettled⟩ := hpends
    exact stands_step_escape hmode hwords hstart htext hsettled c
  | escapeReturn start =>
    rw [hmode] at hpends
    obtain ⟨hstart, before, htext, hsettled⟩ := hpends
    exact stands_step_escapeReturn hmode hwords hstart htext hsettled c
  | single start =>
    rw [hmode] at hpends
    exact stands_step_quoted (.inl hmode) hwords hpends c
  | double start =>
    rw [hmode] at hpends
    exact stands_step_quoted (.inr (.inl hmode)) hwords hpends c
  | doubleEscape start =>
    rw [hmode] at hpends
    exact stands_step_quoted (.inr (.inr hmode)) hwords hpends c

end Reader

/-- What is passed makes the text laid out longer, with a blank behind its last word. -/
theorem LaidOut.append_passed {done text : List Char} {words more : List Word}
    (h : LaidOut done words) (hblank : EndsIn IsBlankGap done words) (hpassed : Passed text more) :
    LaidOut (done ++ text) (words ++ more.map (·.shift (byteCount done))) ∧
      EndsIn IsBlankGap (done ++ text) (words ++ more.map (·.shift (byteCount done))) := by
  cases hpassed with
  | gap hgap =>
    rw [List.map_nil, List.append_nil]
    exact ⟨h.append_gap hgap, hblank.append fun _ hlast => hlast.append hgap⟩
  | word hw hgap =>
    rw [List.map_singleton, ← List.append_assoc]
    exact ⟨(h.concat hblank hw).append_gap hgap.isGap, EndsIn.concat hw hgap⟩

/-- What has been read is laid out up to the pending text. -/
theorem exists_pending (text : List Char) :
    ∃ done pending words, text = done ++ pending ∧ LaidOut done words ∧
      EndsIn IsBlankGap done words ∧
      Reader.after text = (Reader.after pending).behind words.toArray (byteCount done) ∧
      (Reader.after pending).words = #[] ∧ (Reader.after pending).Pends pending := by
  induction text using List.reverseRecOn with
  | nil =>
    have hafter : Reader.after [] = (Reader.after []).behind #[] 0 := by
      simp [Reader.after, Reader.run, Reader.behind, Mode.shift]
    exact ⟨[], [], [], rfl, .nil, by simp [EndsIn], hafter, rfl, .none⟩
  | append_singleton text c ih =>
    obtain ⟨done, pending, words, rfl, hlaid, hblank, hafter, hwords, hpends⟩ := ih
    have hstep : Reader.after (done ++ pending ++ [c])
        = (Reader.after (pending ++ [c])).behind words.toArray (byteCount done) := by
      rw [Reader.after_append_singleton, hafter, Reader.step_behind,
        Reader.after_append_singleton]
    rcases Reader.stands_step hwords hpends c with hstands | ⟨hmode, hcurrent, hpassed⟩
    · exact ⟨done, pending ++ [c], words, by simp, hlaid, hblank, hstep, hstands⟩
    · -- what was pending has passed, and reading begins anew behind it
      obtain ⟨hlaid', hblank'⟩ := hlaid.append_passed hblank hpassed
      refine ⟨done ++ (pending ++ [c]), [], _, by simp, hlaid', hblank', ?_, rfl, .none⟩
      rw [hstep, Reader.eq_behind_of_idle hmode hcurrent, Reader.offset_after]
      simp [Reader.behind, Reader.after, Reader.run, Mode.shift, Nat.add_comm]

/-- At the end, what is pending spells the last word, if any. -/
theorem exists_settled_of_finish {pending : List Char} {words : List Word}
    (hwords : (Reader.after pending).words = #[]) (hpends : (Reader.after pending).Pends pending)
    (h : (Reader.after pending).finish = .ok words) :
    ∃ current, Settled pending current ∧ words = current.toList := by
  unfold Reader.Pends at hpends
  rw [Reader.finish] at h
  cases hmode : (Reader.after pending).mode with
  | plain =>
    rw [hmode] at hpends h
    exact ⟨_, hpends, (Except.ok.inj h).symm.trans (Reader.words_flush hwords)⟩
  | escape start | escapeReturn start =>
    -- the backslash has nothing to escape, or has escaped the carriage return
    rw [hmode] at hpends h
    have hput := Reader.settled_of_put hwords hpends.1 (by rw [Reader.finish, hmode])
    exact ⟨_, hput, (Except.ok.inj h).symm.trans (Reader.words_flush hwords)⟩
  | single start | double start | doubleEscape start =>
    rw [hmode] at h
    cases h

/-- The words of a text and the gaps around them are all of it. -/
theorem laidOut_of_tokenize {text : String} {words : List Word} (h : tokenize text = .ok words) :
    LaidOut text.toList words := by
  obtain ⟨done, pending, before, htext, hlaid, hblank, hafter, hwords, hpends⟩ :=
    exists_pending text.toList
  have hfinish : behindWords before (byteCount done) (Reader.after pending).finish = .ok words := by
    rw [← h, tokenize, ← Reader.after, hafter, Reader.finish_behind]
  obtain ⟨more, hmore, rfl⟩ := map_eq_ok_iff.mp (mapError_eq_ok_iff.mp hfinish)
  obtain ⟨current, hsettled, rfl⟩ := exists_settled_of_finish hwords hpends hmore
  rw [htext]
  cases hsettled with
  | none => simpa using hlaid
  | some hw hgap => simpa using (hlaid.concat hblank hw).append_gap hgap

/-- **The words of a text and the gaps around them are all of it.**  Each word
stands between borders of characters and is what its slice spells on its own; the
words stand one behind the other, with a blank between; and all else is blanks and
line continuations. -/
theorem spans_of_tokenize {text : String} {words : List Word} (h : tokenize text = .ok words) :
    (∀ w ∈ words, (∃ before source after : String, text = before ++ source ++ after ∧
        w.span = ⟨before.utf8ByteSize, (before ++ source).utf8ByteSize⟩) ∧
      w.span.start < w.span.stop ∧ split (w.span.slice text) = .ok [w.value]) ∧
    (words.Pairwise fun a b => a.span.stop < b.span.start) ∧
    (words.IsChain fun a b => IsBlankGap ((Span.mk a.span.stop b.span.start).slice text).toList) ∧
    (∀ w ∈ words.head?, IsGap ((Span.mk 0 w.span.start).slice text).toList) ∧
    (∀ w ∈ words.getLast?,
      IsGap ((Span.mk w.span.stop text.utf8ByteSize).slice text).toList) ∧
    (words = [] → IsGap text.toList) := by
  have hlaid := laidOut_of_tokenize h
  refine ⟨?words, hlaid.pairwise.imp And.left, ?between, ?leading, ?trailing, hlaid.empty⟩
  case words =>
    intro w hw
    obtain ⟨source, hcovers, hne, hsplit⟩ := hlaid.spelled w hw
    refine ⟨?_, hcovers.start_lt_stop hne, hcovers.slice ▸ hsplit⟩
    obtain ⟨before, after, htext, hspan⟩ := hcovers
    refine ⟨String.ofList before, String.ofList source, String.ofList after, ?_, ?_⟩
    · rw [← String.toList_inj, htext]
      simp
    · rw [hspan, ← byteCount_toList, ← byteCount_toList]
      simp
  case between =>
    refine hlaid.between.imp ?_
    rintro a b ⟨gap, hcovers, hblank⟩
    rw [hcovers.slice, String.toList_ofList]
    exact hblank
  case leading =>
    intro w hw
    obtain ⟨gap, hcovers, hgap⟩ := hlaid.leading w hw
    rw [hcovers.slice, String.toList_ofList]
    exact hgap
  case trailing =>
    intro w hw
    obtain ⟨before, gap, htext, hstop, hgap⟩ := hlaid.trailing w hw
    have hcovers : (Span.mk w.span.stop text.utf8ByteSize).Covers text.toList gap := by
      refine ⟨before, [], by simpa using htext, ?_⟩
      rw [← byteCount_toList, htext, byteCount_append, hstop]
    rw [hcovers.slice, String.toList_ofList]
    exact hgap

/-- Line continuations stand inside a word, behind it and beside the blank, and a
backslash ends the text. -/
theorem spans_of_tokenize_continued :
    let text := " é\\\n'b'\\\n \\\r\nc\\"
    let first : Word := ⟨"éb", ⟨1, 8⟩⟩
    let second : Word := ⟨"c\\", ⟨14, 16⟩⟩
    tokenize text = .ok [first, second] ∧ first.span.stop < second.span.start ∧
      split (first.span.slice text) = .ok ["éb"] ∧ split (second.span.slice text) = .ok ["c\\"] ∧
      IsBlankGap ((Span.mk 8 14).slice text).toList := by
  intro text first second
  have hread : tokenize text = .ok [first, second] := by decide +kernel
  obtain ⟨hwords, hpairwise, hchain, -⟩ := spans_of_tokenize hread
  have hfirst := hwords first (by simp)
  have hsecond := hwords second (by simp)
  refine ⟨hread, ?_, hfirst.2.2, hsecond.2.2, ?_⟩
  · exact (List.pairwise_cons.mp hpairwise).1 second (by simp)
  · exact (List.isChain_cons.mp hchain).1 second (by simp)

end CompilationDatabase.CommandLine
