/-
The input files of an invocation.

A segment does one of three things to the input files: a list of files puts its
lines in their place, an argument without a dash is one more of them, and all
else leaves them alone (`effectOn_of_token_ne`, `effectOn_of_token_eq`).  Which
of the three it is shows in the argument the segment was met at, since the table
has one rule for lists and one for arguments without a dash, and no other rule
takes their arguments (`effect_eq_fileList_iff`, `effect_eq_file_iff`).

* `foldlM_effectOn_eq_error_iff` — going through segments fails just at the first
  list that cannot be read;
* `files_of_classifyIn` — the input files are what the lines of the last list name and
  the arguments without a dash behind it.
-/
import CompilationDatabase.Proofs.Compiler.FileLists
import CompilationDatabase.Proofs.Compiler.Segments

namespace CompilationDatabase.Compiler

/-! ### The two rules for input files -/

section

variable {token : String} {rule : Rule}

theorem begins_iff_prefixOf {start text : String} :
    begins start text = true ↔ start.toList <+: text.toList :=
  List.isPrefixOf_iff_prefix

/-- Whether all that the matcher accepts begins with a dash, by its own texts. -/
def Matcher.isDashed : Matcher → Bool
  | exactly flags => flags.all (begins "-")
  | beginning starts => starts.all (begins "-")
  | beginningExcept start _ => begins "-" start
  | positional => false

theorem Matcher.begins_of_isDashed {matcher : Matcher} (h : matcher.isDashed = true)
    (haccepts : matcher.accepts token = true) : begins "-" token = true := by
  have htrans {start : String} (hstart : begins "-" start = true)
      (htoken : begins start token = true) : begins "-" token = true :=
    begins_iff_prefixOf.mpr ((begins_iff_prefixOf.mp hstart).trans (begins_iff_prefixOf.mp htoken))
  cases matcher with
  | exactly flags =>
    exact List.all_eq_true.mp h token (List.contains_iff_mem.mp haccepts)
  | beginning starts =>
    obtain ⟨start, hmem, hstart⟩ := List.any_eq_true.mp haccepts
    exact htrans (List.all_eq_true.mp h start hmem) hstart
  | beginningExcept start exceptions =>
    exact htrans h (Bool.and_eq_true_iff.mp haccepts).1
  | positional => cases h

/-- One rule of the table is for lists of files. -/
theorem eq_of_effect_eq_fileList (hmem : rule ∈ rules) (h : rule.effect = .fileList) :
    rule = ⟨"filelist", .exactly ["-filelist"], .two, .fileList⟩ := by
  revert h
  revert rule
  decide

/-- One rule of the table is for input files, and all others are for arguments
with a dash. -/
theorem matcher_of_mem_rules (hmem : rule ∈ rules) :
    if rule.effect = .file then rule.matcher = .positional ∧ rule.arity = .one
    else rule.matcher.isDashed = true := by
  revert rule
  decide +kernel

theorem mem_rules_of_findRule (h : findRule token = some rule) :
    rule ∈ rules ∧ rule.matcher.accepts token = true := by
  have haccepts := List.find?_some h
  exact ⟨List.mem_of_find?_eq_some h, haccepts⟩

/-- An effect that only the rule of one flag has shows in the flag. -/
theorem effect_eq_iff_of_exactly {flag : String} {effect : Effect}
    (hfound : (findRule flag).map Rule.effect = some effect)
    (honly : ∀ rule ∈ rules, rule.effect = effect → rule.matcher = .exactly [flag])
    (h : findRule token = some rule) : rule.effect = effect ↔ token = flag := by
  obtain ⟨hmem, haccepts⟩ := mem_rules_of_findRule h
  constructor
  · intro heffect
    rw [honly rule hmem heffect] at haccepts
    simpa [Matcher.accepts] using haccepts
  · rintro rfl
    rw [h] at hfound
    exact Option.some.inj hfound

theorem effect_eq_fileList_iff (h : findRule token = some rule) :
    rule.effect = .fileList ↔ token = "-filelist" :=
  effect_eq_iff_of_exactly (by decide) (by decide) h

theorem effect_eq_file_iff (h : findRule token = some rule) :
    rule.effect = .file ↔ begins "-" token = false := by
  obtain ⟨hmem, haccepts⟩ := mem_rules_of_findRule h
  have hmatcher := matcher_of_mem_rules hmem
  split at hmatcher
  · rename_i heffect
    rw [hmatcher.1, Matcher.accepts] at haccepts
    simpa [heffect] using haccepts
  · rename_i heffect
    simp [heffect, Matcher.begins_of_isDashed hmatcher haccepts]

/-- An argument without a dash always has a rule. -/
theorem begins_of_findRule_eq_none (h : findRule token = none) : begins "-" token = true := by
  have hnone := List.find?_eq_none.mp h ⟨"file", .positional, .one, .file⟩ (by decide)
  simpa [Matcher.accepts] using hnone

end

/-! ### What a segment does to the input files -/

/-- The arguments without a dash that segments were met at. -/
def positionals (met : List Segment) : List String :=
  (met.map Segment.token).filter (!begins "-" ·)

/-- The paths of the lists of files among the segments. -/
def listPaths (directory : String) (met : List Segment) : List String :=
  met.filterMap fun segment =>
    if segment.token = "-filelist" then segment.values.head?.map (Path.under directory) else none

section

variable {fs : FileSystem} {directory : String} {segment : Segment} {met : List Segment}
  {c after : Classification}

theorem positionals_cons (segment : Segment) (met : List Segment) :
    positionals (segment :: met) = positionals [segment] ++ positionals met := by
  rw [← List.singleton_append, positionals, List.map_append, List.filter_append]
  rfl

theorem positionals_of_begins (h : begins "-" segment.token = true) :
    positionals [segment] = [] := by
  simp [positionals, h]

/-- A segment that is no list of files goes through, and adds its argument to the
input files if that has no dash. -/
theorem effectOn_of_token_ne (fs : FileSystem) (directory : String)
    (hcomplete : segment.IsComplete) (h : segment.token ≠ "-filelist") (c : Classification) :
    ∃ after, segment.effectOn fs directory c = .ok after ∧
      after.files = c.files ++ positionals [segment] := by
  cases segment with
  | unmatched token =>
    refine ⟨c, rfl, ?_⟩
    rw [positionals_of_begins, List.append_nil]
    exact begins_of_findRule_eq_none hcomplete
  | matched rule flag values =>
    obtain ⟨hrule, -⟩ := hcomplete
    have hlist := mt (effect_eq_fileList_iff hrule).mp h
    have hfile := effect_eq_file_iff hrule
    simp only [Segment.effectOn, Rule.effectOn]
    cases heffect : rule.effect with
    | fileList => exact absurd heffect hlist
    | file =>
      refine ⟨_, rfl, ?_⟩
      simp [positionals, hfile.mp heffect]
    | _ =>
      -- the other effects are about other parts, and their arguments have a dash
      refine ⟨_, rfl, ?_⟩
      rw [positionals_of_begins, List.append_nil]
      simpa [heffect] using hfile

/-- A list of files that can be read puts its lines in place of the input files. -/
theorem effectOn_of_token_eq (hcomplete : segment.IsComplete) (h : segment.token = "-filelist") :
    ∃ value, segment.values = [value] ∧ ∀ fs directory c,
      segment.effectOn fs directory c =
        (readFileList fs directory value).map fun files => { c with files } := by
  cases segment with
  | unmatched token =>
    obtain rfl : token = "-filelist" := h
    have hfound : findRule "-filelist" ≠ none := by decide
    exact absurd hcomplete hfound
  | matched rule flag values =>
    obtain ⟨hrule, hlength⟩ := hcomplete
    have heffect := (effect_eq_fileList_iff hrule).mpr h
    obtain rfl := eq_of_effect_eq_fileList (mem_rules_of_findRule hrule).1 heffect
    obtain ⟨value, rfl⟩ := List.length_eq_one_iff.mp hlength
    refine ⟨value, rfl, fun fs directory c => ?_⟩
    rw [Segment.effectOn, Rule.effectOn_of_fileList rfl]
    rfl

/-! ### Going through the segments -/

theorem listPaths_cons (directory : String) (segment : Segment) (met : List Segment) :
    listPaths directory (segment :: met) =
      listPaths directory [segment] ++ listPaths directory met :=
  filterMap_cons_eq_append _ segment met

theorem readFileList_of_ok {value content : String}
    (h : fs.readText (Path.under directory value) = .ok content) :
    readFileList fs directory value = .ok (listedFiles content) := by
  unfold readFileList
  dsimp only
  rw [h]

theorem readFileList_of_error {value : String} {cause : FileError}
    (h : fs.readText (Path.under directory value) = .error cause) :
    readFileList fs directory value = .error ⟨Path.under directory value, cause⟩ := by
  unfold readFileList
  dsimp only
  rw [h]

theorem foldlM_effectOn_cons (fs : FileSystem) (directory : String) (segment : Segment)
    (met : List Segment) (c : Classification) :
    (segment :: met).foldlM (Segment.effectOn fs directory) c =
      (segment.effectOn fs directory c).bind
        fun next => met.foldlM (Segment.effectOn fs directory) next :=
  List.foldlM_cons

/-- Segments without a list of files go through, and add their arguments without
a dash to the input files. -/
theorem foldlM_effectOn_of_token_ne (hcomplete : ∀ segment ∈ met, segment.IsComplete)
    (h : ∀ segment ∈ met, segment.token ≠ "-filelist") (c : Classification) :
    ∃ after, met.foldlM (Segment.effectOn fs directory) c = .ok after ∧
      after.files = c.files ++ positionals met := by
  induction met generalizing c with
  | nil => exact ⟨c, rfl, by simp [positionals]⟩
  | cons segment behind ih =>
    rw [List.forall_mem_cons] at hcomplete h
    obtain ⟨next, hnext, hfiles⟩ := effectOn_of_token_ne fs directory hcomplete.1 h.1 c
    obtain ⟨after, hafter, hfiles'⟩ := ih hcomplete.2 h.2 next
    refine ⟨after, ?_, ?_⟩
    · rw [foldlM_effectOn_cons, hnext]
      exact hafter
    · rw [hfiles', hfiles, List.append_assoc, ← positionals_cons]

/-- Going through segments fails just at the first list that cannot be read. -/
theorem foldlM_effectOn_eq_error_iff (hcomplete : ∀ segment ∈ met, segment.IsComplete)
    (c : Classification) (fault : UnreadableList) :
    met.foldlM (Segment.effectOn fs directory) c = .error fault ↔
      (listPaths directory met).find? (fun path => !(fs.readText path).isOk) = some fault.path ∧
        fs.readText fault.path = .error fault.cause := by
  induction met generalizing c with
  | nil =>
    rw [List.foldlM_nil]
    exact iff_of_false nofun (by simp [listPaths])
  | cons segment behind ih =>
    rw [List.forall_mem_cons] at hcomplete
    have hbehind := ih hcomplete.2
    rw [foldlM_effectOn_cons, listPaths_cons]
    by_cases hlist : segment.token = "-filelist"
    · obtain ⟨value, hvalues, heffect⟩ := effectOn_of_token_eq hcomplete.1 hlist
      have hpaths : listPaths directory [segment] = [Path.under directory value] := by
        simp [listPaths, hlist, hvalues]
      rw [hpaths, heffect, List.singleton_append]
      cases hread : fs.readText (Path.under directory value) with
      | ok content =>
        rw [readFileList_of_ok hread,
          List.find?_cons_of_neg (by simp [hread, Except.isOk, Except.toBool])]
        exact hbehind { c with files := listedFiles content }
      | error cause =>
        -- behind this list nothing is met any more
        rw [readFileList_of_error hread,
          List.find?_cons_of_pos (by simp [hread, Except.isOk, Except.toBool])]
        simp only [Except.map, Except.bind, Except.error.injEq, Option.some.injEq]
        constructor
        · rintro rfl
          exact ⟨rfl, hread⟩
        · rintro ⟨hpath, hcause⟩
          rw [← hpath, hread] at hcause
          obtain rfl := Except.error.inj hcause
          rw [hpath]
    · obtain ⟨next, hnext, -⟩ := effectOn_of_token_ne fs directory hcomplete.1 hlist c
      have hpaths : listPaths directory [segment] = [] := by simp [listPaths, hlist]
      rw [hpaths, hnext, List.nil_append]
      exact hbehind next

/-- The last list of files decides what comes before the arguments behind it. -/
theorem files_of_foldlM_effectOn {before behind : List Segment}
    (hcomplete : ∀ other ∈ before ++ segment :: behind, other.IsComplete)
    (hlist : segment.token = "-filelist")
    (hbehind : ∀ other ∈ behind, other.token ≠ "-filelist")
    (h : (before ++ segment :: behind).foldlM (Segment.effectOn fs directory) c = .ok after) :
    ∃ value content, segment.values = [value] ∧
      fs.readText (Path.under directory value) = .ok content ∧
      after.files = listedFiles content ++ positionals behind := by
  have hsegment := hcomplete segment (by simp)
  have hcomplete' : ∀ other ∈ behind, other.IsComplete := fun other hother =>
    hcomplete other (by simp [hother])
  rw [List.foldlM_append] at h
  obtain ⟨reached, -, h⟩ := bind_eq_ok_iff.mp h
  rw [foldlM_effectOn_cons] at h
  obtain ⟨next, hnext, h⟩ := bind_eq_ok_iff.mp h
  obtain ⟨value, hvalues, heffect⟩ := effectOn_of_token_eq hsegment hlist
  rw [heffect] at hnext
  obtain ⟨files, hread, rfl⟩ := map_eq_ok_iff.mp hnext
  cases htext : fs.readText (Path.under directory value) with
  | error cause =>
    rw [readFileList_of_error htext] at hread
    cases hread
  | ok content =>
    rw [readFileList_of_ok htext] at hread
    obtain rfl := Except.ok.inj hread
    obtain ⟨last, hlast, hfiles⟩ := foldlM_effectOn_of_token_ne hcomplete' hbehind
      { reached with files := listedFiles content }
    obtain rfl := Except.ok.inj (hlast.symm.trans h)
    exact ⟨value, content, hvalues, htext, hfiles⟩

/-- If there are lists of files, one of them is the last. -/
theorem exists_last_list (h : ∃ segment ∈ met, segment.token = "-filelist") :
    ∃ before last behind, met = before ++ last :: behind ∧ last.token = "-filelist" ∧
      ∀ other ∈ behind, other.token ≠ "-filelist" := by
  induction met with
  | nil => simp at h
  | cons segment rest ih =>
    by_cases hrest : ∃ other ∈ rest, other.token = "-filelist"
    · obtain ⟨before, last, behind, rfl, hlast, hbehind⟩ := ih hrest
      exact ⟨segment :: before, last, behind, rfl, hlast, hbehind⟩
    · obtain ⟨other, hother, htoken⟩ := h
      rcases List.mem_cons.mp hother with rfl | hmem
      · exact ⟨[], other, rest, rfl, htoken, fun next hnext hlist => hrest ⟨next, hnext, hlist⟩⟩
      · exact absurd ⟨other, hmem, htoken⟩ hrest

end

/-! ### The input files of an invocation -/

section

variable {fs : FileSystem} {directory : String} {command : List String} {c : Classification}

theorem isComplete_of_mem_segments {arguments : List String} :
    ∀ segment ∈ segments arguments, segment.IsComplete :=
  (segments_cover arguments).1

theorem classifyIn_eq_error_iff (fault : UnreadableList) :
    classifyIn fs directory command = .error fault ↔
      (listPaths directory (segments (command.drop 1))).find?
          (fun path => !(fs.readText path).isOk) = some fault.path ∧
        fs.readText fault.path = .error fault.cause := by
  rw [classifyIn_eq_foldlM]
  exact foldlM_effectOn_eq_error_iff isComplete_of_mem_segments _ fault

/-- Without a list of files, the input files are the arguments without a dash. -/
theorem files_of_token_ne (hc : classifyIn fs directory command = .ok c)
    (h : ∀ segment ∈ segments (command.drop 1), segment.token ≠ "-filelist") :
    c.files = positionals (segments (command.drop 1)) := by
  rw [classifyIn_eq_foldlM] at hc
  obtain ⟨after, hafter, hfiles⟩ := foldlM_effectOn_of_token_ne isComplete_of_mem_segments h _
  obtain rfl := Except.ok.inj (hafter.symm.trans hc)
  exact hfiles.trans (List.nil_append _)

/-- With lists of files, they are the lines of the last one and the arguments
without a dash behind it. -/
theorem files_of_last_list {before behind : List Segment} {last : Segment}
    (hc : classifyIn fs directory command = .ok c)
    (hmet : segments (command.drop 1) = before ++ last :: behind)
    (hlast : last.token = "-filelist") (hbehind : ∀ other ∈ behind, other.token ≠ "-filelist") :
    ∃ value content, last.values = [value] ∧
      fs.readText (Path.under directory value) = .ok content ∧
      c.files = listedFiles content ++ positionals behind := by
  have hcomplete : ∀ segment ∈ before ++ last :: behind, segment.IsComplete := by
    rw [← hmet]
    exact isComplete_of_mem_segments
  rw [classifyIn_eq_foldlM, hmet] at hc
  exact files_of_foldlM_effectOn hcomplete hlast hbehind hc

/-- Each input file is a line of a list, or an argument without a dash that a
segment was met at. -/
theorem mem_files (hc : classifyIn fs directory command = .ok c) {file : String}
    (hfile : file ∈ c.files) :
    (∃ path ∈ listPaths directory (segments (command.drop 1)), ∃ content,
      fs.readText path = .ok content ∧ file ∈ listedFiles content) ∨
      file ∈ positionals (segments (command.drop 1)) := by
  by_cases hlist : ∃ segment ∈ segments (command.drop 1), segment.token = "-filelist"
  · obtain ⟨before, last, behind, hmet, hlast, hbehind⟩ := exists_last_list hlist
    obtain ⟨value, content, hvalues, hread, hfiles⟩ := files_of_last_list hc hmet hlast hbehind
    rw [hfiles] at hfile
    rcases List.mem_append.mp hfile with hlisted | hpositional
    · refine .inl ⟨_, ?_, content, hread, hlisted⟩
      rw [hmet, listPaths, List.mem_filterMap]
      exact ⟨last, by simp, by simp [hlast, hvalues]⟩
    · right
      rw [positionals, List.mem_filter, List.mem_map] at hpositional ⊢
      obtain ⟨⟨segment, hsegment, htoken⟩, hdash⟩ := hpositional
      refine ⟨⟨segment, ?_, htoken⟩, hdash⟩
      rw [hmet]
      simp [hsegment]
  · right
    rw [← files_of_token_ne hc fun segment hsegment htoken => hlist ⟨segment, hsegment, htoken⟩]
    exact hfile

end

/-- **The input files of an invocation are what the lines of the last list of files
name and the arguments without a dash behind it, or all arguments without a dash if
there is no list; it fails just if there is a list that cannot be read, and tells
of the first.**  The arguments are met in segments from left to right, and what
is taken as the value of a flag is never met as an argument. -/
theorem files_of_classifyIn (fs : FileSystem) (directory : String) (command : List String) :
    let met := segments (command.drop 1)
    ((∀ segment ∈ met, segment.IsComplete) ∧
      ∃ rest, met.flatMap (fun segment => segment.token :: segment.values) ++ rest =
        command.drop 1 ∧ (rest = [] ∨ IsShort rest)) ∧
    (∀ fault, classifyIn fs directory command = .error fault ↔
      (listPaths directory met).find? (fun path => !(fs.readText path).isOk) = some fault.path ∧
        fs.readText fault.path = .error fault.cause) ∧
    ∀ c, classifyIn fs directory command = .ok c →
      ((∀ segment ∈ met, segment.token ≠ "-filelist") → c.files = positionals met) ∧
      (∀ before last behind, met = before ++ last :: behind → last.token = "-filelist" →
        (∀ other ∈ behind, other.token ≠ "-filelist") →
        ∃ value content listed, last.values = [value] ∧
          fs.readText (Path.under directory value) = .ok content ∧ ListsFiles content listed ∧
          c.files = listed ++ positionals behind) ∧
      ∀ file ∈ c.files,
        (∃ path ∈ listPaths directory met, ∃ content listed,
          fs.readText path = .ok content ∧ ListsFiles content listed ∧ file ∈ listed) ∨
        file ∈ positionals met := by
  intro met
  refine ⟨segments_cover _, classifyIn_eq_error_iff, fun c hc => ⟨files_of_token_ne hc, ?_, ?_⟩⟩
  · intro before last behind hmet hlast hbehind
    obtain ⟨value, content, hvalues, hread, hfiles⟩ := files_of_last_list hc hmet hlast hbehind
    exact ⟨value, content, listedFiles content, hvalues, hread, listsFiles_iff.mpr rfl, hfiles⟩
  · intro file hfile
    rcases mem_files hc hfile with ⟨path, hpath, content, hread, hlisted⟩ | hpositional
    · exact .inl ⟨path, hpath, content, listedFiles content, hread, listsFiles_iff.mpr rfl, hlisted⟩
    · exact .inr hpositional

/-- A list with blanks around its names, blank lines, and line feeds of both kinds. -/
def sampleList : String := "\n  a.c\r\n \t\r\nb c.c \n\n\u00a0a.c"

/-- A directory with the list. -/
def listFiles : FileSystem :=
  (FileSystem.empty.insert ["src"] .directory).insert ["src", "list"] (.file sampleList.toUTF8)

/-- The files of the list take the place of what was met before it, and what is met
behind it comes after them; the values of flags are none of them. -/
theorem files_of_classifyIn_listed :
    ListsFiles sampleList ["a.c", "b c.c", "a.c"] ∧ ∃ c,
      classifyIn listFiles "/src" ["cc", "x.c", "-filelist", "list", "-o", "d.o", "e.c"] = .ok c ∧
        c.files = ["a.c", "b c.c", "a.c", "e.c"] := by
  have hlists : ListsFiles sampleList ["a.c", "b c.c", "a.c"] :=
    listsFiles_iff.mpr (by decide +kernel)
  have hread : listFiles.readText (Path.under "/src" "list") = .ok sampleList :=
    FileSystem.readText_of_read rfl
  obtain ⟨-, herror, hfiles⟩ := files_of_classifyIn listFiles "/src"
    ["cc", "x.c", "-filelist", "list", "-o", "d.o", "e.c"]
  obtain ⟨c, hc⟩ : ∃ c, classifyIn listFiles "/src"
      ["cc", "x.c", "-filelist", "list", "-o", "d.o", "e.c"] = .ok c := by
    rcases hresult : classifyIn listFiles "/src" _ with fault | c
    · -- the only list can be read
      have hpaths : listPaths "/src" (segments ["x.c", "-filelist", "list", "-o", "d.o", "e.c"]) =
          [Path.under "/src" "list"] := by decide +kernel
      obtain ⟨hfirst, -⟩ := (herror fault).mp hresult
      rw [List.drop_one, List.tail_cons, hpaths, List.find?_singleton, hread] at hfirst
      cases hfirst
    · exact ⟨c, rfl⟩
  have hmet : segments ["x.c", "-filelist", "list", "-o", "d.o", "e.c"] = segments ["x.c"] ++
      .matched ⟨"filelist", .exactly ["-filelist"], .two, .fileList⟩ "-filelist" ["list"] ::
        segments ["-o", "d.o", "e.c"] := by decide +kernel
  obtain ⟨-, hlast, -⟩ := hfiles c hc
  obtain ⟨value, content, listed, hvalue, hcontent, hlisted, heq⟩ :=
    hlast _ _ _ hmet rfl (by decide +kernel)
  obtain rfl : "list" = value := List.singleton_inj.mp hvalue
  obtain rfl := Except.ok.inj (hread.symm.trans hcontent)
  have hsame : listed = ["a.c", "b c.c", "a.c"] :=
    (listsFiles_iff.mp hlisted).symm.trans (listsFiles_iff.mp hlists)
  have hbehind : positionals (segments ["-o", "d.o", "e.c"]) = ["e.c"] := by decide +kernel
  exact ⟨hlists, c, hc, by rw [heq, hsame, hbehind]; rfl⟩

end CompilationDatabase.Compiler
