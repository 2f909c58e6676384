/-
What a list of input files says.

A list is read line by line.  A line of blanks names no file, and any other line the
file that stands on it between the blanks around; a carriage return is one of these.
This is said without the reader (`ListsFiles`), and the reader gives just the files that are
named (`listsFiles_iff`).

* `HoldsFile` — which file stands on a line;
* `NamesFiles` — which files lines name, one after the other;
* `listsFiles_iff` — the files read from a text are those that its lines name.
-/
import CompilationDatabase.Compiler.Invocation
import CompilationDatabase.Proofs.Text.Splitting

namespace CompilationDatabase.Compiler

/-- Whether the text is made of blanks. -/
def IsBlankLine (line : List Char) : Prop := ∀ c ∈ line, Text.isBlank c = true

/-- The file stands on the line, between blanks, and itself begins and ends with none. -/
structure HoldsFile (line file : List Char) : Prop where
  between : ∃ before after, line = before ++ file ++ after ∧ IsBlankLine before ∧ IsBlankLine after
  first : ∃ c, file.head? = some c ∧ Text.isBlank c = false
  last : ∃ c, file.getLast? = some c ∧ Text.isBlank c = false

/-- The lines name the files, in this order and as often. -/
inductive NamesFiles : List (List Char) → List String → Prop
  | nil : NamesFiles [] []
  | blank {line : List Char} {lines : List (List Char)} {files : List String}
    (hline : IsBlankLine line) (hrest : NamesFiles lines files) : NamesFiles (line :: lines) files
  | file {line : List Char} {file : String} {lines : List (List Char)} {files : List String}
    (hline : HoldsFile line file.toList) (hrest : NamesFiles lines files) :
    NamesFiles (line :: lines) (file :: files)

/-- The text is a list of the files: they are what its lines name. -/
def ListsFiles (content : String) (files : List String) : Prop :=
  ∃ lines, content.toList = ['\n'].intercalate lines ∧ (∀ line ∈ lines, '\n' ∉ line) ∧
    NamesFiles lines files

/-! ### One line -/

section

variable {line file : List Char}

theorem trim_eq_nil_iff : Text.trim Text.isBlank line = [] ↔ IsBlankLine line := by
  obtain ⟨before, after, hline, hbefore, hafter⟩ :=
    Text.exists_append_trim_append Text.isBlank line
  constructor
  · intro hnil c hc
    rw [hline, hnil, List.append_nil, List.mem_append] at hc
    exact hc.elim (hbefore c) (hafter c)
  · intro hblank
    cases htrim : Text.trim Text.isBlank line with
    | nil => rfl
    | cons c rest =>
      -- the first character that is left is one of the line, and no blank
      have hfirst : Text.isBlank c = false := Text.head?_trim (by rw [htrim]; rfl)
      have hmem : c ∈ line := Text.trim_subset _ _ (by rw [htrim]; exact List.mem_cons_self)
      exact absurd (hblank c hmem) (Bool.eq_false_iff.mp hfirst)

theorem HoldsFile.trim_eq (h : HoldsFile line file) : Text.trim Text.isBlank line = file := by
  obtain ⟨before, after, rfl, hbefore, hafter⟩ := h.between
  obtain ⟨c, hfirst, hc⟩ := h.first
  obtain ⟨d, hlast, hd⟩ := h.last
  rw [Text.trim_append_append hbefore hafter]
  refine Text.trim_eq_self (fun c' hc' => ?_) fun d' hd' => ?_
  · rwa [← Option.some.inj (hfirst.symm.trans hc')]
  · rwa [← Option.some.inj (hlast.symm.trans hd')]

theorem HoldsFile.ne_nil (h : HoldsFile line file) : file ≠ [] := by
  rintro rfl
  obtain ⟨c, hfirst, -⟩ := h.first
  cases hfirst

/-- On a line that is not blank stands what is left without the blanks around. -/
theorem holdsFile_trim (h : ¬ IsBlankLine line) : HoldsFile line (Text.trim Text.isBlank line) := by
  have hne := mt trim_eq_nil_iff.mp h
  exact ⟨Text.exists_append_trim_append Text.isBlank line,
    ⟨_, List.head?_eq_some_head hne, Text.head?_trim (List.head?_eq_some_head hne)⟩,
    ⟨_, List.getLast?_eq_some_getLast hne, Text.getLast?_trim (List.getLast?_eq_some_getLast hne)⟩⟩

end

/-! ### The whole list -/

/-- The files that are read from the lines. -/
def readLines (lines : List (List Char)) : List String :=
  (lines.map (Text.trim Text.isBlank)).filterMap fun line =>
    if line.isEmpty then none else some (String.ofList line)

section

variable {lines : List (List Char)} {files : List String}

theorem readLines_cons_of_blank {line : List Char} (h : IsBlankLine line) :
    readLines (line :: lines) = readLines lines := by
  rw [readLines, List.map_cons, trim_eq_nil_iff.mpr h]
  rfl

theorem readLines_cons_of_holdsFile {line file : List Char} (h : HoldsFile line file) :
    readLines (line :: lines) = String.ofList file :: readLines lines := by
  rw [readLines, List.map_cons, h.trim_eq, List.filterMap_cons,
    if_neg (mt List.isEmpty_iff.mp h.ne_nil)]
  rfl

theorem NamesFiles.readLines_eq (h : NamesFiles lines files) : readLines lines = files := by
  induction h with
  | nil => rfl
  | blank hline _ ih => rw [readLines_cons_of_blank hline, ih]
  | file hline _ ih => rw [readLines_cons_of_holdsFile hline, ih, String.ofList_toList]

theorem namesFiles_readLines (lines : List (List Char)) : NamesFiles lines (readLines lines) := by
  induction lines with
  | nil => exact .nil
  | cons line lines ih =>
    by_cases hblank : IsBlankLine line
    · rw [readLines_cons_of_blank hblank]
      exact .blank hblank ih
    · have hline := holdsFile_trim hblank
      rw [readLines_cons_of_holdsFile hline]
      exact .file (by rwa [String.toList_ofList]) ih

/-- The files read from a text are those that its lines name. -/
theorem listsFiles_iff {content : String} :
    ListsFiles content files ↔ listedFiles content = files := by
  constructor
  · rintro ⟨lines, hcontent, hlines, hnames⟩
    cases lines with
    | nil =>
      -- the empty text is cut into one empty line
      rw [List.intercalate_nil] at hcontent
      rw [listedFiles, hcontent]
      exact hnames.readLines_eq
    | cons line rest =>
      rw [listedFiles, hcontent, List.splitOn_intercalate _ hlines (List.cons_ne_nil line rest)]
      exact hnames.readLines_eq
  · rintro rfl
    exact ⟨content.toList.splitOn '\n', (List.intercalate_splitOn '\n').symm,
      fun line hline => (Text.subset_of_mem_splitOn hline).1, namesFiles_readLines _⟩

end

end CompilationDatabase.Compiler
