/-
Arguments that leave no trace.

An argument that the table has a rule for in order to pass over it, with its values,
and a flag that it has no rule for, are segments that change nothing (`IsIgnored`).
They are all such segments: whatever else is taken at an argument changes some
classification (`isIgnored_arguments_iff`).  A flag with too few arguments behind it
is no segment, so it changes nothing either, and nothing behind it is read
(`IsShort`); which flags want values, and how many, shows in the flag
(`extra_eq_of_findRule`).

* `classifyIn_insert` — ignored arguments may be put in wherever a segment ends;
* `classifyIn_append_short` — a flag with too few arguments behind it may be left
  out together with these.
-/
import CompilationDatabase.Proofs.Compiler.Spellings

namespace CompilationDatabase.Compiler

/-! ### Ignored arguments -/

/-- The flags that are passed over. -/
def ignoredFlags : List String :=
  ["-fsyntax-only", "-MD", "-MMD", "-MP", "-static", "-shared", "-dynamiclib", "-bundle", "-pipe"]

/-- What is passed over whatever is joined to it. -/
def ignoredStarts : List String := ["-l", "-L", "-save-temps"]

/-- The flags that are passed over with the next argument. -/
def ignoredFlagsWithValue : List String :=
  ["-framework", "-MT", "-MF", "-MQ", "-e", "-u", "-install_name", "-compatibility_version",
    "-current_version", "-exported_symbols_list", "-unexported_symbols_list", "-bundle_loader",
    "-seg_addr_table", "-rpath", "-Xlinker", "-Xassembler", "-Xpreprocessor", "-Xclang", "--param",
    "--serialize-diagnostics"]

/-- Arguments that are passed over together. -/
inductive IsIgnored : List String → Prop where
  | beginning {start : String} (h : start ∈ ignoredStarts) (text : String) :
      IsIgnored [start ++ text]
  | alone {flag : String} (h : flag ∈ ignoredFlags) : IsIgnored [flag]
  | withValue {flag : String} (h : flag ∈ ignoredFlagsWithValue) (value : String) :
      IsIgnored [flag, value]
  | sectorder (first second third : String) : IsIgnored ["-sectorder", first, second, third]
  | unknown {token : String} (hdash : begins "-" token = true) (h : findRule token = none) :
      IsIgnored [token]

/-- Whether the segment leaves every classification as it is. -/
def Segment.IsIdle (segment : Segment) : Prop :=
  ∀ fs directory c, segment.effectOn fs directory c = .ok c

section

variable {token flag : String} {values arguments : List String} {rule : Rule} {segment : Segment}

theorem isIdle_unmatched (token : String) : (Segment.unmatched token).IsIdle :=
  fun _ _ _ => rfl

theorem isIdle_of_effect_eq_ignore (h : rule.effect = .ignore) :
    (Segment.matched rule flag values).IsIdle := by
  intro fs directory c
  rw [Segment.effectOn, Rule.effectOn, h]

/-- No rule of the table asks for linking, which needs no flag. -/
theorem effect_ne_action_link (hmem : rule ∈ rules) : rule.effect ≠ .action .link := by
  revert rule
  decide

/-- A rule of the table that changes no classification is there to ignore. -/
theorem effect_eq_ignore_of_isIdle (hmem : rule ∈ rules)
    (h : (Segment.matched rule flag values).IsIdle) : rule.effect = .ignore := by
  have hidle (c : Classification) : rule.effectOn .empty "" flag values c = .ok c :=
    h .empty "" c
  have hempty := hidle {}
  unfold Rule.effectOn at hidle hempty
  cases heffect : rule.effect with
  | ignore => rfl
  | action asked =>
    rw [heffect] at hempty
    have haction : max Action.link asked = .link :=
      congrArg Classification.action (Except.ok.inj hempty)
    cases asked with
    | link => exact absurd heffect (effect_ne_action_link hmem)
    | _ => cases haction
  | fileList =>
    -- the files of the list do not depend on those met before
    rw [heffect] at hidle
    obtain ⟨files, hfiles, hnone⟩ := map_eq_ok_iff.mp (hidle {})
    obtain ⟨files', hfiles', hsome⟩ := map_eq_ok_iff.mp (hidle { files := ["a.c"] })
    obtain rfl : files = files' := Except.ok.inj (hfiles.symm.trans hfiles')
    have hboth : [] = ["a.c"] :=
      (congrArg Classification.files hnone).symm.trans (congrArg Classification.files hsome)
    cases hboth
  | option =>
    rw [heffect] at hempty
    have hoptions := congrArg Classification.options (Except.ok.inj hempty)
    simp only [List.nil_append] at hoptions
    split at hoptions <;> cases hoptions
  | _ =>
    rw [heffect] at hempty
    cases hempty

/-- The rules that are there to ignore, with the number of arguments they take. -/
theorem matcher_of_effect_eq_ignore (hmem : rule ∈ rules) (h : rule.effect = .ignore) :
    (rule.matcher = .exactly ignoredFlagsWithValue ∧ rule.arity = .two) ∨
      (rule.matcher = .beginning ignoredStarts ∧ rule.arity = .one) ∨
      (rule.matcher = .exactly ignoredFlags ∧ rule.arity = .one) ∨
      (rule.matcher = .exactly ["-sectorder"] ∧ rule.arity = .four) := by
  revert h
  revert rule
  decide +kernel

/-- The rule of a flag that is passed over ignores it, with as many values. -/
theorem map_findRule_of_mem_ignored :
    ∀ entry ∈ ignoredFlags.map (·, 0) ++ ignoredFlagsWithValue.map (·, 1) ++ [("-sectorder", 3)],
      (findRule entry.1).map (fun rule => (rule.effect, rule.extra entry.1)) =
        some (.ignore, entry.2) := by
  decide +kernel

theorem map_findRule_of_mem_ignoredFlags (h : flag ∈ ignoredFlags) :
    (findRule flag).map (fun rule => (rule.effect, rule.extra flag)) = some (.ignore, 0) :=
  map_findRule_of_mem_ignored (flag, 0) (by simp [h])

theorem map_findRule_of_mem_ignoredFlagsWithValue (h : flag ∈ ignoredFlagsWithValue) :
    (findRule flag).map (fun rule => (rule.effect, rule.extra flag)) = some (.ignore, 1) :=
  map_findRule_of_mem_ignored (flag, 1) (by simp [h])

theorem map_findRule_sectorder : (findRule "-sectorder").map
    (fun rule => (rule.effect, rule.extra "-sectorder")) = some (.ignore, 3) :=
  map_findRule_of_mem_ignored ("-sectorder", 3) (by simp)

/-- No rule before that of these starts takes what begins so. -/
theorem findRule_of_mem_ignoredStarts {start : String} (h : start ∈ ignoredStarts)
    (text : String) : findRule (start ++ text) =
      some ⟨"ignored-prefixed", .beginning ignoredStarts, .one, .ignore⟩ := by
  have hrules : rules = rules.take 18 ++
      ⟨"ignored-prefixed", .beginning ignoredStarts, .one, .ignore⟩ :: rules.drop 19 := rfl
  have hexcludes : ∀ rule ∈ rules.take 18, ∀ start ∈ ignoredStarts,
      rule.matcher.excludes start = true := by
    decide +kernel
  exact findRule_of_excludes hrules (fun rule hmem => hexcludes rule hmem start h)
    (List.any_eq_true.mpr ⟨start, h, begins_append start text⟩)

/-- Ignored arguments are one segment, whatever the values look like. -/
theorem IsIgnored.exists_segment (h : IsIgnored arguments) :
    ∃ segment : Segment, segment.IsComplete ∧ segment.arguments = arguments ∧
      segment.IsIdle := by
  have hfound {flag : String} {n : Nat} {values : List String} (hflag : (findRule flag).map
      (fun rule => (rule.effect, rule.extra flag)) = some (.ignore, n))
      (hlength : values.length = n) : ∃ segment : Segment, segment.IsComplete ∧
        segment.arguments = flag :: values ∧ segment.IsIdle := by
    obtain ⟨rule, hrule, hpair⟩ := Option.map_eq_some_iff.mp hflag
    obtain ⟨heffect, hextra⟩ := Prod.mk.inj hpair
    exact ⟨.matched rule flag values, ⟨hrule, hlength.trans hextra.symm⟩, rfl,
      isIdle_of_effect_eq_ignore heffect⟩
  cases h with
  | @beginning start h text =>
    exact ⟨.matched _ (start ++ text) [], ⟨findRule_of_mem_ignoredStarts h text, rfl⟩, rfl,
      isIdle_of_effect_eq_ignore rfl⟩
  | alone h => exact hfound (map_findRule_of_mem_ignoredFlags h) rfl
  | withValue h value => exact hfound (map_findRule_of_mem_ignoredFlagsWithValue h) rfl
  | sectorder first second third => exact hfound map_findRule_sectorder rfl
  | @unknown token hdash h => exact ⟨.unmatched token, h, rfl, isIdle_unmatched token⟩

/-- A segment that changes no classification takes ignored arguments. -/
theorem isIgnored_of_isIdle (hcomplete : segment.IsComplete) (h : segment.IsIdle) :
    IsIgnored segment.arguments := by
  cases segment with
  | unmatched token => exact .unknown (begins_of_findRule_eq_none hcomplete) hcomplete
  | matched rule flag values =>
    obtain ⟨hrule, hlength⟩ := hcomplete
    obtain ⟨hmem, haccepts⟩ := mem_rules_of_findRule hrule
    rcases matcher_of_effect_eq_ignore hmem (effect_eq_ignore_of_isIdle hmem h) with
      ⟨hmatcher, harity⟩ | ⟨hmatcher, harity⟩ | ⟨hmatcher, harity⟩ | ⟨hmatcher, harity⟩
    all_goals
      rw [hmatcher] at haccepts
      simp only [Rule.extra, harity] at hlength
    · obtain ⟨value, rfl⟩ := List.length_eq_one_iff.mp hlength
      exact .withValue (List.contains_iff_mem.mp haccepts) value
    · obtain rfl := List.length_eq_zero_iff.mp hlength
      obtain ⟨start, hstart, hbegins⟩ := List.any_eq_true.mp haccepts
      obtain ⟨text, htext⟩ := begins_iff_prefixOf.mp hbegins
      obtain rfl : start ++ String.ofList text = flag := by
        rw [← String.toList_inj, String.toList_append, String.toList_ofList, htext]
      exact .beginning hstart _
    · obtain rfl := List.length_eq_zero_iff.mp hlength
      exact .alone (List.contains_iff_mem.mp haccepts)
    · obtain ⟨first, second, third, rfl⟩ := List.length_eq_three.mp hlength
      obtain rfl : flag = "-sectorder" := by simpa [Matcher.accepts] using haccepts
      exact .sectorder first second third

/-- The segments that change no classification are those of ignored arguments. -/
theorem isIgnored_arguments_iff (hcomplete : segment.IsComplete) :
    IsIgnored segment.arguments ↔ segment.IsIdle := by
  refine ⟨fun h => ?_, isIgnored_of_isIdle hcomplete⟩
  obtain ⟨other, hother, harguments, hidle⟩ := h.exists_segment
  -- the arguments tell the segment
  have hsegments := segments_arguments_append hcomplete []
  rw [← harguments, segments_arguments_append hother []] at hsegments
  obtain rfl : other = segment := (List.cons.inj hsegments).1
  exact hidle

end

/-! ### A flag with too few arguments behind it -/

/-- The flags that want one value, always as the next argument, and are not ignored. -/
def separateFlags : List String :=
  ["-arch", "-filelist", "-x", "-o", "--sysroot", "-target", "-isysroot", "-include", "-idirafter",
    "-imacros", "-iprefix", "-isystem", "-iwithprefix", "-iwithprefixbefore"]

/-- The flags that want one value when they stand alone. -/
def valuedFlags : List String := separateFlags ++ joinedFlags ++ ignoredFlagsWithValue

/-- The texts that arguments are held against. -/
def Matcher.texts : Matcher → List String
  | exactly flags => flags
  | beginning starts => starts
  | beginningExcept start _ => [start]
  | positional => []

section

variable {token flag : String} {arguments : List String} {rule : Rule} {matcher : Matcher}

theorem Matcher.isBare_iff : matcher.isBare token = true ↔ token ∈ matcher.texts := by
  cases matcher <;> simp [isBare, texts]

/-- Only a flag that stands alone wants values. -/
theorem isBare_of_extra_pos (hmem : rule ∈ rules) (haccepts : rule.matcher.accepts flag = true)
    (h : 0 < rule.extra flag) : rule.matcher.isBare flag = true := by
  have hexactly : ∀ rule ∈ rules, rule.arity = .two ∨ rule.arity = .four →
      rule.matcher = .exactly rule.matcher.texts := by
    decide +kernel
  have hbare (harity : rule.arity = .two ∨ rule.arity = .four) :
      rule.matcher.isBare flag = true := by
    rw [hexactly rule hmem harity] at haccepts ⊢
    exact haccepts
  unfold Rule.extra at h
  cases harity : rule.arity with
  | one => simp [harity] at h
  | two => exact hbare (.inl harity)
  | four => exact hbare (.inr harity)
  | joinedOrSeparate =>
    simp only [harity] at h
    split at h
    · assumption
    · cases h

theorem map_extra_of_mem_valuedFlags (h : flag ∈ valuedFlags) :
    (findRule flag).map (·.extra flag) = some 1 := by
  rcases List.mem_append.mp h with h | h
  · rcases List.mem_append.mp h with h | h
    · revert flag
      decide +kernel
    · have hrule := findRule_append h ""
      rw [String.append_empty] at hrule
      rw [hrule, Option.map_some, extra_of_mem_joinedFlags h]
  · have hpair := congrArg (Option.map Prod.snd) (map_findRule_of_mem_ignoredFlagsWithValue h)
    rwa [Option.map_map] at hpair

theorem map_extra_sectorder :
    (findRule "-sectorder").map (·.extra "-sectorder") = some 3 := by
  have hpair := congrArg (Option.map Prod.snd) map_findRule_sectorder
  rwa [Option.map_map] at hpair

/-- How many values are taken shows in the flag. -/
theorem extra_eq_of_findRule (h : findRule flag = some rule) :
    rule.extra flag = if flag ∈ valuedFlags then 1 else if flag = "-sectorder" then 3 else 0 := by
  have hfound {n : Nat} (hflag : (findRule flag).map (·.extra flag) = some n) :
      rule.extra flag = n := by
    rw [h] at hflag
    exact Option.some.inj hflag
  split
  · rename_i hmem
    exact hfound (map_extra_of_mem_valuedFlags hmem)
  · rename_i hvalued
    split
    · rename_i hsectorder
      subst hsectorder
      exact hfound map_extra_sectorder
    · rename_i hsectorder
      -- the table has no other flags that want values
      have htexts : ∀ rule ∈ rules, rule.arity ≠ .one →
          ∀ flag ∈ rule.matcher.texts, flag ∈ valuedFlags ∨ flag = "-sectorder" := by
        decide +kernel
      obtain ⟨hmem, haccepts⟩ := mem_rules_of_findRule h
      by_contra hextra
      have hpos : 0 < rule.extra flag := Nat.pos_of_ne_zero hextra
      have harity : rule.arity ≠ .one := by
        intro harity
        simp [Rule.extra, harity] at hpos
      have hbare := Matcher.isBare_iff.mp (isBare_of_extra_pos hmem haccepts hpos)
      rcases htexts rule hmem harity flag hbare with hmem' | heq
      · exact hvalued hmem'
      · exact hsectorder heq

/-- There are too few arguments behind a flag if it wants a value and is the last, or
is `-sectorder` and less than three follow. -/
theorem isShort_iff : IsShort arguments ↔ (∃ flag ∈ valuedFlags, arguments = [flag]) ∨
    ∃ values : List String, values.length < 3 ∧ arguments = "-sectorder" :: values := by
  constructor
  · rintro ⟨flag, values, rule, rfl, hrule, hlength⟩
    rw [extra_eq_of_findRule hrule] at hlength
    split at hlength
    · rename_i hmem
      obtain rfl := List.length_eq_zero_iff.mp (Nat.lt_one_iff.mp hlength)
      exact .inl ⟨flag, hmem, rfl⟩
    · split at hlength
      · rename_i heq
        subst heq
        exact .inr ⟨values, hlength, rfl⟩
      · exact absurd hlength (Nat.not_lt_zero _)
  · rintro (⟨flag, hmem, rfl⟩ | ⟨values, hlength, rfl⟩)
    · obtain ⟨rule, hrule, hextra⟩ :=
        Option.map_eq_some_iff.mp (map_extra_of_mem_valuedFlags hmem)
      exact ⟨flag, [], rule, rfl, hrule, hextra ▸ Nat.one_pos⟩
    · obtain ⟨rule, hrule, hextra⟩ := Option.map_eq_some_iff.mp map_extra_sectorder
      exact ⟨"-sectorder", values, rule, rfl, hrule, hextra ▸ hlength⟩

theorem segments_of_isShort (h : IsShort arguments) : segments arguments = [] := by
  obtain ⟨flag, values, rule, rfl, hrule, hlength⟩ := h
  exact segments_short hrule hlength

end

/-! ### Leaving arguments out -/

/-- **Ignored arguments may be put in wherever a segment ends, and neither the
classification nor the error changes, whatever stands before and behind them and
whatever their values look like.**  No other segment may: the segments that change no
classification are those of ignored arguments. -/
theorem classifyIn_insert :
    (∀ fs directory executable front inserted rest, EndsAtBoundary front → IsIgnored inserted →
      classifyIn fs directory (executable :: (front ++ inserted ++ rest)) =
        classifyIn fs directory (executable :: (front ++ rest))) ∧
    ∀ segment : Segment, segment.IsComplete →
      (IsIgnored segment.arguments ↔
        ∀ fs directory c, segment.effectOn fs directory c = .ok c) := by
  refine ⟨?_, fun segment hcomplete => isIgnored_arguments_iff hcomplete⟩
  intro fs directory executable front inserted rest hfront hinserted
  obtain ⟨segment, hcomplete, rfl, hidle⟩ := hinserted.exists_segment
  rw [classifyIn_append_segment fs directory executable hfront hcomplete,
    classifyIn_append fs directory executable hfront]
  refine congrArg (Except.bind _) (funext fun reached => ?_)
  rw [hidle fs directory reached]
  rfl

/-- A list of files that is the value of an ignored flag is not read. -/
theorem classifyIn_insert_filelist :
    EndsAtBoundary ["-o", "a.o"] ∧ IsIgnored ["-Xlinker", "-filelist"] ∧
      IsIgnored ["-frameworks"] ∧
      (Segment.unmatched "-frameworks").IsComplete ∧
      classifyIn .empty "/" ["cc", "-o", "a.o", "-Xlinker", "-filelist", "-c", "a.c"] =
        .ok { action := .compile, files := ["a.c"], output := some "a.o" } := by
  have hfront : EndsAtBoundary ["-o", "a.o"] := by
    rw [EndsAtBoundary]
    decide +kernel
  have hvalue : IsIgnored ["-Xlinker", "-filelist"] := .withValue (by decide) "-filelist"
  have hunknown : (Segment.unmatched "-frameworks").IsComplete := by
    show findRule "-frameworks" = none
    decide +kernel
  have hwithout : classifyIn .empty "/" ["cc", "-o", "a.o", "-c", "a.c"] =
      .ok { action := .compile, files := ["a.c"], output := some "a.o" } :=
    toOption_eq_some_iff.mp (by decide +kernel)
  obtain ⟨hinsert, hidle⟩ := classifyIn_insert
  refine ⟨hfront, hvalue, (hidle _ hunknown).mpr (isIdle_unmatched _), hunknown, ?_⟩
  exact (hinsert .empty "/" "cc" _ _ ["-c", "a.c"] hfront hvalue).trans hwithout

/-- **A flag with too few arguments behind it may be left out together with these,
whatever they look like and whatever was read before.**  Such a flag is the last
argument and wants one value, or is `-sectorder` and less than three arguments
follow. -/
theorem classifyIn_append_short :
    (∀ fs directory executable front short, EndsAtBoundary front → IsShort short →
      classifyIn fs directory (executable :: (front ++ short)) =
        classifyIn fs directory (executable :: front)) ∧
    ∀ arguments, IsShort arguments ↔ (∃ flag ∈ valuedFlags, arguments = [flag]) ∨
      ∃ values : List String, values.length < 3 ∧ arguments = "-sectorder" :: values := by
  refine ⟨?_, fun arguments => isShort_iff⟩
  intro fs directory executable front short hfront hshort
  rw [classifyIn_append fs directory executable hfront, segments_of_isShort hshort]
  cases classifyIn fs directory (executable :: front) with
  | error fault => rfl
  | ok reached => rfl

/-- Behind such a flag, no action is asked for and no file is met. -/
theorem classifyIn_append_short_sectorder :
    EndsAtBoundary ["-c", "a.c"] ∧ IsShort ["-sectorder", "-E", "b.c"] ∧ IsShort ["-filelist"] ∧
      classifyIn .empty "/" ["cc", "-c", "a.c", "-sectorder", "-E", "b.c"] =
        .ok { action := .compile, files := ["a.c"] } ∧
      classifyIn .empty "/" ["cc", "-c", "a.c", "-filelist"] =
        .ok { action := .compile, files := ["a.c"] } := by
  have hfront : EndsAtBoundary ["-c", "a.c"] := by
    rw [EndsAtBoundary]
    decide +kernel
  have hwithout : classifyIn .empty "/" ["cc", "-c", "a.c"] =
      .ok { action := .compile, files := ["a.c"] } :=
    toOption_eq_some_iff.mp (by decide +kernel)
  obtain ⟨happend, hshort⟩ := classifyIn_append_short
  have hsectorder : IsShort ["-sectorder", "-E", "b.c"] :=
    (hshort _).mpr (.inr ⟨["-E", "b.c"], by decide, rfl⟩)
  have hlist : IsShort ["-filelist"] := (hshort _).mpr (.inl ⟨"-filelist", by decide, rfl⟩)
  exact ⟨hfront, hsectorder, hlist,
    (happend .empty "/" "cc" _ _ hfront hsectorder).trans hwithout,
    (happend .empty "/" "cc" _ _ hfront hlist).trans hwithout⟩

end CompilationDatabase.Compiler
