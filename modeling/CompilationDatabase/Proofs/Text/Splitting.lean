/-
Texts cut at a separator, and texts without blanks around them.

The pieces between separators hold none of them and nothing but characters of
the text (`subset_of_mem_splitOn`), and pieces that are each ended by a
separator are found again, with an empty one behind the last of them
(`splitOn_flatMap_ended`).  What stands before the first separator can be told
from the rest (`append_separator_inj`), and what is put behind a text or before it,
and holds no separator, belongs to its last or first piece
(`splitOn_append_of_not_mem`, `append_splitOn_of_not_mem`).  What stands behind the last
separator does not depend on what is put before the text and ended by a separator
(`behindLast_append`).  A text of fewer pieces is found inside the text
(`intercalate_sublist`).
-/
import CompilationDatabase.Text.CharacterClass

namespace CompilationDatabase.Text

variable {separator : Char} {text piece suffix : List Char}

/-! ### Pieces -/

/-- A piece holds no separator, and only what the text holds. -/
theorem subset_of_mem_splitOn (h : piece ∈ text.splitOn separator) :
    separator ∉ piece ∧ piece ⊆ text := by
  induction text generalizing piece with
  | nil =>
    rw [List.splitOn_nil, List.mem_singleton] at h
    subst h
    simp
  | cons c text ih =>
    rw [List.splitOn_cons_eq_if_modifyHead] at h
    split at h
    · rcases List.mem_cons.mp h with rfl | hrest
      · simp
      · exact ⟨(ih hrest).1, fun d hd => List.mem_cons_of_mem c ((ih hrest).2 hd)⟩
    · rename_i hc
      -- the character belongs to the first piece of what follows it
      obtain ⟨first, rest, hsplit⟩ :=
        List.exists_cons_of_ne_nil (List.splitOn_ne_nil separator text)
      rw [hsplit, List.modifyHead_cons] at h
      rcases List.mem_cons.mp h with rfl | hrest
      · obtain ⟨hfirst, hsubset⟩ := ih (hsplit ▸ List.mem_cons_self)
        refine ⟨?_, List.cons_subset_cons c hsubset⟩
        rw [List.mem_cons, not_or]
        exact ⟨fun heq => hc (by simp [heq]), hfirst⟩
      · have hmem := ih (hsplit ▸ List.mem_cons_of_mem first hrest)
        exact ⟨hmem.1, fun d hd => List.mem_cons_of_mem c (hmem.2 hd)⟩

theorem prefix_of_splitOn_eq_cons {rest : List (List Char)}
    (h : text.splitOn separator = piece :: rest) : piece <+: text := by
  have htext : [separator].intercalate (piece :: rest) = text :=
    h ▸ List.intercalate_splitOn separator
  cases rest with
  | nil => exact ⟨[], by rw [List.append_nil, ← htext, List.intercalate_singleton]⟩
  | cons second rest =>
    rw [List.intercalate_cons_cons, List.append_assoc] at htext
    exact ⟨_, htext⟩

theorem splitOn_flatMap_ended {pieces : List (List Char)}
    (h : ∀ piece ∈ pieces, separator ∉ piece) :
    (pieces.flatMap (· ++ [separator])).splitOn separator = pieces ++ [[]] := by
  induction pieces with
  | nil => exact List.splitOn_nil separator
  | cons piece pieces ih =>
    rw [List.flatMap_cons, List.append_assoc, List.singleton_append,
      List.splitOn_append_cons_self_of_not_mem (h piece List.mem_cons_self),
      ih fun other hother => h other (List.mem_cons_of_mem piece hother)]
    rfl

theorem append_separator_inj {first second rest rest' : List Char} (h : separator ∉ first)
    (h' : separator ∉ second) :
    first ++ separator :: rest = second ++ separator :: rest' ↔ first = second ∧ rest = rest' := by
  constructor
  · intro heq
    have hpieces := congrArg (List.splitOn separator) heq
    rw [List.splitOn_append_cons_self_of_not_mem h,
      List.splitOn_append_cons_self_of_not_mem h'] at hpieces
    obtain rfl : first = second := (List.cons.inj hpieces).1
    exact ⟨rfl, (List.cons.inj (List.append_cancel_left heq)).2⟩
  · rintro ⟨rfl, rfl⟩
    rfl

theorem splitOn_append_of_not_mem (h : separator ∉ suffix) :
    (text ++ suffix).splitOn separator = (text.splitOn separator).dropLast ++
      [(text.splitOn separator).getLast (List.splitOn_ne_nil separator text) ++ suffix] := by
  by_cases hmem : separator ∈ text
  · -- the last separator of the text is that of the whole
    obtain ⟨after, before, hreverse, hafter⟩ :=
      List.eq_append_cons_of_mem (List.mem_reverse.mpr hmem)
    obtain rfl : text = before.reverse ++ separator :: after.reverse := by
      rw [← List.reverse_reverse text, hreverse]
      simp
    have hafter' : separator ∉ after.reverse := by simpa using hafter
    have hall : separator ∉ after.reverse ++ suffix := by simp [hafter, h]
    simp only [List.append_assoc, List.cons_append, List.splitOn_append_cons_self,
      List.splitOn_eq_singleton hafter', List.splitOn_eq_singleton hall, List.dropLast_concat,
      List.getLast_concat]
  · have hall : separator ∉ text ++ suffix := by simp [hmem, h]
    simp only [List.splitOn_eq_singleton hmem, List.splitOn_eq_singleton hall,
      List.dropLast_singleton, List.getLast_singleton, List.nil_append]

/-- What is put before a text, and holds no separator, belongs to its first piece. -/
theorem append_splitOn_of_not_mem {before : List Char} (h : separator ∉ before) :
    (before ++ text).splitOn separator = (text.splitOn separator).modifyHead (before ++ ·) := by
  induction before with
  | nil =>
    obtain ⟨first, rest, hsplit⟩ := List.exists_cons_of_ne_nil (List.splitOn_ne_nil separator text)
    simp [hsplit]
  | cons c before ih =>
    obtain ⟨hc, hrest⟩ := not_or.mp (mt List.mem_cons.mpr h)
    have hne : (c == separator) = false := by simpa using Ne.symm hc
    obtain ⟨first, rest, hsplit⟩ := List.exists_cons_of_ne_nil (List.splitOn_ne_nil separator text)
    rw [List.cons_append, List.splitOn_cons_eq_if_modifyHead, hne, ih hrest, hsplit]
    rfl

/-! ### Behind the last separator -/

/-- What stands behind the last separator of a text. -/
def behindLast (separator : Char) (text : List Char) : List Char :=
  (text.splitOn separator).getLast (List.splitOn_ne_nil separator text)

/-- Whether the text is made of pieces that are each ended by the separator. -/
def IsEnded (separator : Char) (text : List Char) : Prop :=
  text = [] ∨ ∃ front, text = front ++ [separator]

theorem IsEnded.nil : IsEnded separator [] := .inl rfl

theorem IsEnded.concat (front : List Char) : IsEnded separator (front ++ [separator]) :=
  .inr ⟨front, rfl⟩

theorem IsEnded.append {front : List Char} (hfront : IsEnded separator front)
    (h : IsEnded separator text) : IsEnded separator (front ++ text) := by
  rcases h with rfl | ⟨before, rfl⟩
  · rwa [List.append_nil]
  · rw [← List.append_assoc]
    exact .concat _

theorem behindLast_append_of_not_mem (h : separator ∉ suffix) :
    behindLast separator (text ++ suffix) = behindLast separator text ++ suffix := by
  simp only [behindLast, splitOn_append_of_not_mem h, List.getLast_concat]

theorem behindLast_of_not_mem (h : separator ∉ text) : behindLast separator text = text := by
  simp only [behindLast, List.splitOn_eq_singleton h, List.getLast_singleton]

/-- What is put before a text and ended is not behind the last separator. -/
theorem behindLast_append {front : List Char} (h : IsEnded separator front) :
    behindLast separator (front ++ text) = behindLast separator text := by
  rcases h with rfl | ⟨before, rfl⟩
  · rfl
  · simp only [behindLast, List.append_assoc, List.singleton_append, List.splitOn_append_cons_self,
      List.getLast_append_of_ne_nil _ (List.splitOn_ne_nil separator text)]

theorem not_mem_behindLast (separator : Char) (text : List Char) :
    separator ∉ behindLast separator text :=
  (subset_of_mem_splitOn (List.getLast_mem (List.splitOn_ne_nil separator text))).1

/-- What is ended by one separator is so behind the last of another one. -/
theorem IsEnded.behindLast {other : Char} (h : IsEnded separator text) (hne : other ≠ separator) :
    IsEnded separator (behindLast other text) := by
  rcases h with rfl | ⟨front, rfl⟩
  · exact .nil
  · rw [behindLast_append_of_not_mem (by simpa using hne)]
    exact .concat _

/-- Before what stands behind the last separator, the text is ended. -/
theorem exists_eq_append_behindLast (separator : Char) (text : List Char) :
    ∃ front, text = front ++ behindLast separator text ∧ IsEnded separator front := by
  by_cases h : separator ∈ text
  · obtain ⟨after, before, hreverse, hafter⟩ :=
      List.eq_append_cons_of_mem (List.mem_reverse.mpr h)
    have htext : text = before.reverse ++ [separator] ++ after.reverse := by
      rw [← List.reverse_reverse text, hreverse]
      simp
    have hended : IsEnded separator (before.reverse ++ [separator]) := .concat _
    refine ⟨before.reverse ++ [separator], ?_, hended⟩
    rw [htext, behindLast_append hended, behindLast_of_not_mem (by simpa using hafter)]
  · exact ⟨[], (behindLast_of_not_mem h).symm, .nil⟩

/-- Without some of its pieces, a text has nothing new. -/
theorem intercalate_sublist {between : List Char} {l m : List (List Char)} (h : l.Sublist m) :
    (between.intercalate l).Sublist (between.intercalate m) := by
  induction h with
  | slnil => exact List.Sublist.refl _
  | @cons l m piece h ih =>
    by_cases hm : m = []
    · subst hm
      rw [List.sublist_nil.mp h]
      exact List.nil_sublist _
    · rw [List.intercalate_cons_of_ne_nil hm]
      exact ih.trans (List.sublist_append_right _ _)
  | @cons_cons l m piece h ih =>
    by_cases hl : l = []
    · subst hl
      by_cases hm : m = []
      · subst hm
        exact List.Sublist.refl _
      · rw [List.intercalate_singleton, List.intercalate_cons_of_ne_nil hm, List.append_assoc]
        exact List.sublist_append_left _ _
    · have hm : m ≠ [] := fun hm => hl (List.sublist_nil.mp (hm ▸ h))
      rw [List.intercalate_cons_of_ne_nil hl, List.intercalate_cons_of_ne_nil hm]
      exact ih.append_left _

/-! ### Blanks around a text -/

variable {p : Char → Bool}

theorem trim_subset (p : Char → Bool) (text : List Char) : trim p text ⊆ text := by
  have hstart : trimStart p text ⊆ text := (List.dropWhile_suffix p).subset
  have hend : trim p text ⊆ trimStart p text := fun c hc =>
    List.mem_reverse.mp ((List.dropWhile_suffix p).subset (List.mem_reverse.mp hc))
  exact List.Subset.trans hend hstart

/-- Behind the blanks at its start, a text begins with another character. -/
theorem head?_trim {c : Char} (h : (trim p text).head? = some c) : p c = false := by
  -- what is cut off at the end leaves the start as it is
  have hprefix : trim p text <+: trimStart p text := by
    rw [← List.reverse_suffix, trim, trimEnd, List.reverse_reverse]
    exact List.dropWhile_suffix p
  obtain ⟨rest, hrest⟩ := hprefix
  have hhead : (text.dropWhile p).head? = some c := by
    rw [show text.dropWhile p = trimStart p text from rfl, ← hrest, List.head?_append, h]
    rfl
  have hnot := List.head?_dropWhile_not p text
  rw [hhead] at hnot
  exact hnot

/-- Before the blanks at its end, a text ends with another character. -/
theorem getLast?_trim {c : Char} (h : (trim p text).getLast? = some c) : p c = false := by
  have hnot := List.head?_dropWhile_not p (trimStart p text).reverse
  rw [trim, trimEnd, List.getLast?_reverse] at h
  rw [h] at hnot
  exact hnot

/-- A text is what is left of it, with blanks before and behind. -/
theorem exists_append_trim_append (p : Char → Bool) (text : List Char) :
    ∃ before after, text = before ++ trim p text ++ after ∧ (∀ c ∈ before, p c = true) ∧
      ∀ c ∈ after, p c = true := by
  have htake (text : List Char) : ∀ c ∈ text.takeWhile p, p c = true :=
    List.all_eq_true.mp List.all_takeWhile
  have hend : trimStart p text =
      trim p text ++ ((trimStart p text).reverse.takeWhile p).reverse := by
    rw [trim, trimEnd, ← List.reverse_append, List.takeWhile_append_dropWhile, List.reverse_reverse]
  refine ⟨text.takeWhile p, ((trimStart p text).reverse.takeWhile p).reverse, ?_, htake text,
    fun c hc => htake _ c (List.mem_reverse.mp hc)⟩
  rw [List.append_assoc, ← hend, trimStart, List.takeWhile_append_dropWhile]

theorem trim_eq_self (hfirst : ∀ c, text.head? = some c → p c = false)
    (hlast : ∀ c, text.getLast? = some c → p c = false) : trim p text = text := by
  have hstart : trimStart p text = text := by
    cases text with
    | nil => rfl
    | cons c text => exact List.dropWhile_cons_of_neg (by simp [hfirst c rfl])
  have hreverse : text.reverse.dropWhile p = text.reverse := by
    cases hcases : text.reverse with
    | nil => rfl
    | cons c rest =>
      have hc : text.getLast? = some c := by rw [← List.head?_reverse, hcases]; rfl
      exact List.dropWhile_cons_of_neg (by simp [hlast c hc])
  rw [trim, hstart, trimEnd, hreverse, List.reverse_reverse]

/-- Blanks around a text are lost. -/
theorem trim_append_append {before after : List Char} (hbefore : ∀ c ∈ before, p c = true)
    (hafter : ∀ c ∈ after, p c = true) : trim p (before ++ text ++ after) = trim p text := by
  have hdrop (text : List Char) : (after.reverse ++ text).dropWhile p = text.dropWhile p :=
    List.dropWhile_append_of_pos fun c hc => hafter c (List.mem_reverse.mp hc)
  rw [trim, trimStart, List.append_assoc, List.dropWhile_append_of_pos hbefore,
    List.dropWhile_append]
  split
  · rename_i hempty
    -- nothing is left of the text, and nothing of the blanks behind it
    have hnil : (after ++ []).dropWhile p = [] := List.dropWhile_append_of_pos hafter
    rw [List.append_nil] at hnil
    rw [hnil, trim, trimStart, List.isEmpty_iff.mp hempty]
  · rw [trim, trimStart, trimEnd, trimEnd, List.reverse_append, hdrop]

end CompilationDatabase.Text
