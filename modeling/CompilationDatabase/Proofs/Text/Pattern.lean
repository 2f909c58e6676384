/-
The texts of a pattern.

What has to follow a character is what is left of the pattern behind it
(`matches_after_iff`), so going through a text decides whether it matches.  The
other statements say for each kind of pattern which texts it stands for.

* `accepts_iff_matches` — a text is accepted just if it matches;
* `matches_many_iff` — repetition, as texts one after another;
* `matches_ended_iff` — pieces of a class, each ended by a separator;
* `Lists` — patterns whose texts can be listed.
-/
import CompilationDatabase.Text.Pattern
import CompilationDatabase.Proofs.Text.Splitting

namespace CompilationDatabase.Text.Pattern

variable {a b pattern : Pattern} {p : Char → Bool} {c separator : Char} {s : List Char}

/-! ### The texts of each kind of pattern -/

theorem not_matches_never : ¬ never.Matches s := nofun

theorem matches_nothing_iff : nothing.Matches s ↔ s = [] := by
  constructor
  · rintro ⟨⟩
    rfl
  · rintro rfl
    exact .nothing

theorem matches_one_iff : (one p).Matches s ↔ ∃ c, s = [c] ∧ p c = true := by
  constructor
  · rintro ⟨⟩
    exact ⟨_, rfl, ‹_›⟩
  · rintro ⟨c, rfl, h⟩
    exact .one h

theorem matches_seq_iff :
    (seq a b).Matches s ↔ ∃ front rest, s = front ++ rest ∧ a.Matches front ∧ b.Matches rest := by
  constructor
  · rintro ⟨⟩
    exact ⟨_, _, rfl, ‹_›, ‹_›⟩
  · rintro ⟨front, rest, rfl, hfront, hrest⟩
    exact .seq hfront hrest

theorem matches_either_iff : (either a b).Matches s ↔ a.Matches s ∨ b.Matches s := by
  constructor
  · rintro ⟨⟩
    · exact .inl ‹_›
    · exact .inr ‹_›
  · rintro (h | h)
    · exact .left h
    · exact .right h

/-- Repetition is texts of the pattern, one after another. -/
theorem matches_many_iff : (many a).Matches s ↔
    ∃ pieces : List (List Char), (∀ piece ∈ pieces, a.Matches piece) ∧ s = pieces.flatten := by
  constructor
  · intro h
    generalize hpattern : many a = pattern at h
    induction h with
    | stop => exact ⟨[], by simp, rfl⟩
    | @more a' front rest hfront hrest _ ih =>
      obtain rfl := many.inj hpattern
      obtain ⟨pieces, hpieces, rfl⟩ := ih rfl
      exact ⟨front :: pieces, List.forall_mem_cons.mpr ⟨hfront, hpieces⟩, rfl⟩
    | _ => cases hpattern
  · rintro ⟨pieces, hpieces, rfl⟩
    induction pieces with
    | nil => exact .stop
    | cons piece pieces ih =>
      rw [List.forall_mem_cons] at hpieces
      exact .more hpieces.1 (ih hpieces.2)

/-! ### Going through a text -/

theorem isNullable_iff : pattern.isNullable = true ↔ pattern.Matches [] := by
  induction pattern with
  | never => exact iff_of_false nofun not_matches_never
  | nothing => exact iff_of_true rfl .nothing
  | one p => exact iff_of_false nofun nofun
  | seq a b iha ihb =>
    rw [isNullable, Bool.and_eq_true, iha, ihb, matches_seq_iff]
    constructor
    · rintro ⟨ha, hb⟩
      exact ⟨[], [], rfl, ha, hb⟩
    · rintro ⟨front, rest, h, ha, hb⟩
      obtain ⟨rfl, rfl⟩ := List.append_eq_nil_iff.mp h.symm
      exact ⟨ha, hb⟩
  | either a b iha ihb => rw [isNullable, Bool.or_eq_true, iha, ihb, matches_either_iff]
  | many a => exact iff_of_true rfl .stop

theorem matches_seqSimple_iff : (seqSimple a b).Matches s ↔ (seq a b).Matches s := by
  rw [matches_seq_iff]
  unfold seqSimple
  split
  · refine iff_of_false not_matches_never ?_
    rintro ⟨front, rest, -, h, -⟩
    exact not_matches_never h
  · constructor
    · intro h
      exact ⟨[], s, rfl, .nothing, h⟩
    · rintro ⟨front, rest, rfl, hfront, hrest⟩
      obtain rfl := matches_nothing_iff.mp hfront
      exact hrest
  · exact matches_seq_iff

theorem matches_eitherSimple_iff :
    (eitherSimple a b).Matches s ↔ a.Matches s ∨ b.Matches s := by
  unfold eitherSimple
  split
  · simp [not_matches_never]
  · simp [not_matches_never]
  · exact matches_either_iff

/-- A sequence begins with the character if its first part does, or if that is empty
and the second does. -/
theorem matches_seq_cons_iff : (seq a b).Matches (c :: s) ↔
    (∃ front rest, s = front ++ rest ∧ a.Matches (c :: front) ∧ b.Matches rest) ∨
      a.Matches [] ∧ b.Matches (c :: s) := by
  rw [matches_seq_iff]
  constructor
  · rintro ⟨front, rest, h, ha, hb⟩
    cases front with
    | nil =>
      rw [List.nil_append] at h
      exact .inr ⟨ha, h ▸ hb⟩
    | cons d front =>
      obtain ⟨rfl, rfl⟩ := List.cons.inj h
      exact .inl ⟨front, rest, rfl, ha, hb⟩
  · rintro (⟨front, rest, rfl, ha, hb⟩ | ⟨ha, hb⟩)
    · exact ⟨c :: front, rest, rfl, ha, hb⟩
    · exact ⟨[], c :: s, rfl, ha, hb⟩

/-- A repetition begins with the character if one of its texts does; the empty texts
before it can be left out. -/
theorem matches_many_cons_iff : (many a).Matches (c :: s) ↔
    ∃ front rest, s = front ++ rest ∧ a.Matches (c :: front) ∧ (many a).Matches rest := by
  constructor
  · intro h
    obtain ⟨pieces, hpieces, hflatten⟩ := matches_many_iff.mp h
    induction pieces with
    | nil => cases hflatten
    | cons piece pieces ih =>
      rw [List.forall_mem_cons] at hpieces
      cases piece with
      | nil => exact ih hpieces.2 hflatten
      | cons d front =>
        obtain ⟨rfl, rfl⟩ := List.cons.inj hflatten
        exact ⟨front, pieces.flatten, rfl, hpieces.1,
          matches_many_iff.mpr ⟨pieces, hpieces.2, rfl⟩⟩
  · rintro ⟨front, rest, rfl, hfront, hrest⟩
    exact .more hfront hrest

/-- What is left behind a character is what has to follow it. -/
theorem matches_after_iff : (pattern.after c).Matches s ↔ pattern.Matches (c :: s) := by
  induction pattern generalizing s with
  | never => exact iff_of_false not_matches_never not_matches_never
  | nothing => exact iff_of_false not_matches_never nofun
  | one p =>
    rw [after, matches_one_iff]
    split
    · rename_i hp
      rw [matches_nothing_iff]
      constructor
      · rintro rfl
        exact ⟨c, rfl, hp⟩
      · rintro ⟨d, h, -⟩
        exact (List.cons.inj h).2
    · rename_i hp
      refine iff_of_false not_matches_never ?_
      rintro ⟨d, h, hd⟩
      obtain rfl := (List.cons.inj h).1
      exact hp hd
  | seq a b iha ihb =>
    rw [after, matches_seq_cons_iff]
    split
    · rename_i hnullable
      simp only [matches_eitherSimple_iff, matches_seqSimple_iff, matches_seq_iff, iha, ihb,
        isNullable_iff.mp hnullable, true_and]
    · rename_i hnullable
      simp only [matches_seqSimple_iff, matches_seq_iff, iha, mt isNullable_iff.mpr hnullable,
        false_and, or_false]
  | either a b iha ihb =>
    rw [after, matches_eitherSimple_iff, matches_either_iff, iha, ihb]
  | many a iha =>
    simp only [after, matches_seqSimple_iff, matches_seq_iff, iha, matches_many_cons_iff]

/-- **A text is accepted just if it matches.** -/
theorem accepts_iff_matches (pattern : Pattern) (text : List Char) :
    pattern.accepts text = true ↔ pattern.Matches text := by
  induction text generalizing pattern with
  | nil => exact isNullable_iff
  | cons c text ih => exact (ih (pattern.after c)).trans matches_after_iff

/-! ### Words, choices and repetitions -/

theorem matches_char_iff : (char c).Matches s ↔ s = [c] := by
  simp [char, matches_one_iff]

theorem matches_word_iff {text : List Char} : (word text).Matches s ↔ s = text := by
  induction text generalizing s with
  | nil => exact matches_nothing_iff
  | cons d text ih =>
    rw [word, matches_seq_iff]
    constructor
    · rintro ⟨front, rest, rfl, hfront, hrest⟩
      rw [matches_char_iff.mp hfront, ih.mp hrest]
      rfl
    · rintro rfl
      exact ⟨[d], text, rfl, matches_char_iff.mpr rfl, ih.mpr rfl⟩

theorem matches_optional_iff : (optional a).Matches s ↔ a.Matches s ∨ s = [] := by
  rw [optional, matches_either_iff, matches_nothing_iff]

theorem matches_many_one_iff : (many (one p)).Matches s ↔ ∀ c ∈ s, p c = true := by
  induction s with
  | nil => exact iff_of_true .stop (by simp)
  | cons c s ih =>
    rw [matches_many_cons_iff, List.forall_mem_cons]
    constructor
    · rintro ⟨front, rest, rfl, hfront, hrest⟩
      obtain ⟨d, heq, hd⟩ := matches_one_iff.mp hfront
      obtain ⟨rfl, rfl⟩ := List.cons.inj heq
      exact ⟨hd, ih.mp hrest⟩
    · rintro ⟨hc, hs⟩
      exact ⟨[], s, rfl, .one hc, ih.mpr hs⟩

theorem matches_oneOrMore_one_iff :
    (oneOrMore (one p)).Matches s ↔ s ≠ [] ∧ ∀ c ∈ s, p c = true := by
  rw [oneOrMore, matches_seq_iff]
  constructor
  · rintro ⟨front, rest, rfl, hfront, hrest⟩
    obtain ⟨c, rfl, hc⟩ := matches_one_iff.mp hfront
    exact ⟨by simp, List.forall_mem_cons.mpr ⟨hc, matches_many_one_iff.mp hrest⟩⟩
  · rintro ⟨hne, hs⟩
    obtain ⟨c, rest, rfl⟩ := List.exists_cons_of_ne_nil hne
    rw [List.forall_mem_cons] at hs
    exact ⟨[c], rest, rfl, .one hs.1, matches_many_one_iff.mpr hs.2⟩

theorem matches_upTo_iff {n : Nat} : (upTo n a).Matches s ↔
    ∃ pieces : List (List Char), pieces.length ≤ n ∧ (∀ piece ∈ pieces, a.Matches piece) ∧
      s = pieces.flatten := by
  induction n generalizing s with
  | zero =>
    rw [upTo, matches_nothing_iff]
    constructor
    · rintro rfl
      exact ⟨[], Nat.le_refl 0, by simp, rfl⟩
    · rintro ⟨pieces, hlength, -, rfl⟩
      rw [List.length_eq_zero_iff.mp (Nat.le_zero.mp hlength), List.flatten_nil]
  | succ n ih =>
    rw [upTo, matches_optional_iff, matches_seq_iff]
    constructor
    · rintro (⟨front, rest, rfl, hfront, hrest⟩ | rfl)
      · obtain ⟨pieces, hlength, hpieces, rfl⟩ := ih.mp hrest
        exact ⟨front :: pieces, Nat.succ_le_succ hlength,
          List.forall_mem_cons.mpr ⟨hfront, hpieces⟩, rfl⟩
      · exact ⟨[], Nat.zero_le _, by simp, rfl⟩
    · rintro ⟨pieces, hlength, hpieces, rfl⟩
      cases pieces with
      | nil => exact .inr rfl
      | cons piece pieces =>
        rw [List.forall_mem_cons] at hpieces
        exact .inl ⟨piece, pieces.flatten, rfl, hpieces.1,
          ih.mpr ⟨pieces, Nat.le_of_succ_le_succ hlength, hpieces.2, rfl⟩⟩

theorem matches_seq_congr {b' : Pattern} (h : ∀ s, b.Matches s ↔ b'.Matches s) :
    (seq a b).Matches s ↔ (seq a b').Matches s := by
  simp only [matches_seq_iff, h]

theorem matches_seq_assoc {d : Pattern} :
    (seq a (seq b d)).Matches s ↔ (seq (seq a b) d).Matches s := by
  constructor
  · rintro ⟨⟩
    rename_i front rest hfront hrest
    obtain ⟨middle, last, rfl, hmiddle, hlast⟩ := matches_seq_iff.mp hrest
    rw [← List.append_assoc]
    exact .seq (.seq hfront hmiddle) hlast
  · rintro ⟨⟩
    rename_i front last hfront hlast
    obtain ⟨first, middle, rfl, hfirst, hmiddle⟩ := matches_seq_iff.mp hfront
    rw [List.append_assoc]
    exact .seq hfirst (.seq hmiddle hlast)

/-- Pieces of the class that are each ended by the separator: the text ends with the
separator, and all else in it is of the class. -/
theorem matches_ended_iff : (many (seq (many (one p)) (char separator))).Matches s ↔
    IsEnded separator s ∧ ∀ c ∈ s, c = separator ∨ p c = true := by
  constructor
  · intro h
    obtain ⟨pieces, hpieces, rfl⟩ := matches_many_iff.mp h
    clear h
    induction pieces with
    | nil => exact ⟨.nil, by simp⟩
    | cons piece pieces ih =>
      rw [List.forall_mem_cons] at hpieces
      obtain ⟨hended, hall⟩ := ih hpieces.2
      obtain ⟨front, rest, rfl, hfront, hrest⟩ := matches_seq_iff.mp hpieces.1
      obtain rfl := matches_char_iff.mp hrest
      refine ⟨(IsEnded.concat front).append hended, ?_⟩
      intro c hc
      rw [List.flatten_cons, List.mem_append, List.mem_append, List.mem_singleton] at hc
      rcases hc with (hc | hc) | hc
      · exact .inr (matches_many_one_iff.mp hfront c hc)
      · exact .inl hc
      · exact hall c hc
  · rintro ⟨hended, hall⟩
    -- the characters since the last separator are kept apart
    have hpieces (rest front : List Char) (hfront : ∀ c ∈ front, p c = true)
        (hrest : ∀ c ∈ rest, c = separator ∨ p c = true) :
        (many (seq (many (one p)) (char separator))).Matches (front ++ (rest ++ [separator])) := by
      have hpiece {front : List Char} (hfront : ∀ c ∈ front, p c = true) :
          (seq (many (one p)) (char separator)).Matches (front ++ [separator]) :=
        .seq (matches_many_one_iff.mpr hfront) (matches_char_iff.mpr rfl)
      induction rest generalizing front with
      | nil =>
        have hlast := Matches.more (hpiece hfront) .stop
        rwa [List.append_nil] at hlast
      | cons c rest ih =>
        rw [List.forall_mem_cons] at hrest
        rcases hrest.1 with rfl | hc
        · have hnext := Matches.more (hpiece hfront) (ih [] (by simp) hrest.2)
          rwa [List.append_assoc] at hnext
        · have hnext := ih (front ++ [c]) (by simpa [or_imp, forall_and] using ⟨hfront, hc⟩) hrest.2
          rwa [List.append_assoc] at hnext
    rcases hended with rfl | ⟨front, rfl⟩
    · exact .stop
    · exact hpieces front [] (by simp) fun c hc => hall c (List.mem_append_left _ hc)

/-! ### Patterns of finitely many texts -/

/-- Whether the texts of the pattern are those of the list. -/
def Lists (a : Pattern) (texts : List (List Char)) : Prop := ∀ s, a.Matches s ↔ s ∈ texts

section

variable {texts texts' : List (List Char)}

theorem Lists.of_subset (h : Lists a texts) (hsubset : texts ⊆ texts')
    (hsubset' : texts' ⊆ texts) : Lists a texts' := fun s =>
  (h s).trans ⟨fun hs => hsubset hs, fun hs => hsubset' hs⟩

theorem lists_never : Lists never [] := fun _ => iff_of_false not_matches_never List.not_mem_nil

theorem lists_word (text : List Char) : Lists (word text) [text] := fun _ =>
  matches_word_iff.trans List.mem_singleton.symm

theorem lists_char (c : Char) : Lists (char c) [[c]] := fun _ =>
  matches_char_iff.trans List.mem_singleton.symm

theorem Lists.seq (ha : Lists a texts) (hb : Lists b texts') :
    Lists (seq a b) (texts.flatMap fun front => texts'.map (front ++ ·)) := by
  intro s
  simp only [matches_seq_iff, ha _, hb _, List.mem_flatMap, List.mem_map]
  constructor
  · rintro ⟨front, rest, rfl, hfront, hrest⟩
    exact ⟨front, hfront, rest, hrest, rfl⟩
  · rintro ⟨front, hfront, rest, hrest, rfl⟩
    exact ⟨front, rest, rfl, hfront, hrest⟩

theorem Lists.either (ha : Lists a texts) (hb : Lists b texts') :
    Lists (either a b) (texts ++ texts') := by
  intro s
  rw [matches_either_iff, ha, hb, List.mem_append]

theorem Lists.optional (ha : Lists a texts) : Lists (optional a) (texts ++ [[]]) := by
  intro s
  rw [matches_optional_iff, ha, List.mem_append, List.mem_singleton]

end

end CompilationDatabase.Text.Pattern
