/-
The action of an invocation.

Which action an argument asks for shows in the argument (`asked?`), since only
four rules ask for one and no earlier rule takes their arguments
(`asked?_eq_bind`).  A segment raises the action to the one that its argument asks
for, and a later `-o` or `-x` replaces an earlier one (`foldlM_effectOn_fields`).

* `exists_classifyIn_eq_ok_iff` — an invocation is classified just if its lists of
  files can be read;
* `action_of_classifyIn` — the action is the greatest of those asked for, so the
  order of the segments does not matter.
-/
import Mathlib.Order.Bounds.Basic
import Mathlib.Order.MinMax
import CompilationDatabase.Proofs.Compiler.Boundaries
import CompilationDatabase.Proofs.Compiler.InputFiles

namespace CompilationDatabase.Compiler

/-! ### Actions -/

instance : LinearOrder Action where
  le_refl a := by cases a <;> decide
  le_trans a b c := by cases a <;> cases b <;> cases c <;> decide
  le_antisymm a b := by cases a <;> cases b <;> decide
  le_total a b := by cases a <;> cases b <;> decide
  toDecidableLE := inferInstance
  toMax := inferInstance
  compare_eq_compareOfLessAndEq a b := by cases a <;> cases b <;> decide

/-- The action that an argument asks for. -/
def asked? (token : String) : Option Action :=
  if token ∈ ["-E", "-M", "-MM"] then some .preprocess
  else if token ∈ ["-c"] then some .compile
  else if token ∈ ["-cc1", "--version", "-dumpversion", "-dumpmachine", "-###"] then some .info
  else if begins "-print-" token then some .info
  else none

/-- The action that an effect raises to. -/
def Effect.asked? : Effect → Option Action
  | action asked => some asked
  | _ => none

theorem asked?_eq_bind (token : String) :
    asked? token = (findRule token).bind fun rule => rule.effect.asked? := by
  -- behind the first four rules no action is asked for
  have hrest : ((rules.drop 4).find? (·.matcher.accepts token)).bind
      (fun rule => rule.effect.asked?) = none := by
    have hnone : ∀ rule ∈ rules.drop 4, rule.effect.asked? = none := by decide
    rw [Option.bind_eq_none_iff]
    exact fun rule hrule => hnone rule (List.mem_of_find?_eq_some hrule)
  rw [findRule, ← List.take_append_drop 4 rules, List.find?_append]
  generalize (rules.drop 4).find? (·.matcher.accepts token) = later at hrest
  simp only [rules, List.take_succ_cons, List.take_zero, List.find?_cons, List.find?_nil,
    Matcher.accepts, asked?, ← List.contains_iff_mem, List.any_cons, List.any_nil, Bool.or_false]
  cases ["-E", "-M", "-MM"].contains token with
  | true => rfl
  | false =>
    cases ["-c"].contains token with
    | true => rfl
    | false =>
      cases ["-cc1", "--version", "-dumpversion", "-dumpmachine", "-###"].contains token with
      | true => rfl
      | false =>
        cases begins "-print-" token with
        | true => rfl
        | false => exact hrest.symm

/-! ### What a segment does to the action, the output and the language -/

/-- The actions that the arguments of segments ask for. -/
def asked (met : List Segment) : List Action := met.filterMap fun segment => asked? segment.token

/-- The values that a flag has in the segments that were met at it. -/
def valuesAt (flag : String) (met : List Segment) : List String :=
  met.filterMap fun segment => if segment.token = flag then segment.values.head? else none

section

variable {fs : FileSystem} {directory flag : String} {rule : Rule} {segment : Segment}
  {met : List Segment} {c after : Classification}

theorem asked_cons (segment : Segment) (met : List Segment) :
    asked (segment :: met) = asked [segment] ++ asked met :=
  filterMap_cons_eq_append _ segment met

theorem valuesAt_cons (flag : String) (segment : Segment) (met : List Segment) :
    valuesAt flag (segment :: met) = valuesAt flag [segment] ++ valuesAt flag met :=
  filterMap_cons_eq_append _ segment met

theorem valuesAt_of_values_eq_nil (h : segment.values = []) : valuesAt flag [segment] = [] := by
  simp [valuesAt, h]

theorem Rule.effectOn_fields {values : List String}
    (h : rule.effectOn fs directory flag values c = .ok after) :
    after.action = rule.effect.asked?.elim c.action (max c.action) ∧
      after.output = (if rule.effect = .output then some (values.headD "") else c.output) ∧
      after.language =
        (if rule.effect = .language then some (values.headD "") else c.language) := by
  unfold Rule.effectOn at h
  cases heffect : rule.effect with
  | fileList =>
    rw [heffect] at h
    obtain ⟨files, -, rfl⟩ := map_eq_ok_iff.mp h
    exact ⟨rfl, rfl, rfl⟩
  | _ =>
    rw [heffect] at h
    obtain rfl := Except.ok.inj h
    exact ⟨rfl, rfl, rfl⟩

/-- A flag that takes one value, and is alone with its effect, gives the value. -/
theorem getLast?_valuesAt_or {token : String} {values : List String} (effect : Effect)
    (hfound : (findRule flag).map Rule.effect = some effect)
    (honly : ∀ rule ∈ rules, rule.effect = effect →
      rule.matcher = .exactly [flag] ∧ rule.arity = .two)
    (hrule : findRule token = some rule) (hlength : values.length = rule.extra token)
    (earlier : Option String) :
    (valuesAt flag [.matched rule token values]).getLast?.or earlier =
      if rule.effect = effect then some (values.headD "") else earlier := by
  have hiff := effect_eq_iff_of_exactly hfound (fun rule hmem h => (honly rule hmem h).1) hrule
  by_cases heffect : rule.effect = effect
  · have harity := (honly rule (mem_rules_of_findRule hrule).1 heffect).2
    rw [Rule.extra, harity] at hlength
    obtain ⟨value, rfl⟩ := List.length_eq_one_iff.mp hlength
    simp [valuesAt, heffect, hiff.mp heffect]
  · simp [valuesAt, heffect, mt hiff.mpr heffect]

/-- A segment raises the action to what its argument asks for, and has the last
word on the output and the language if it is met at their flag. -/
theorem Segment.effectOn_fields (hcomplete : segment.IsComplete)
    (h : segment.effectOn fs directory c = .ok after) :
    after.action = (asked [segment]).foldl max c.action ∧
      after.output = (valuesAt "-o" [segment]).getLast?.or c.output ∧
      after.language = (valuesAt "-x" [segment]).getLast?.or c.language := by
  cases segment with
  | unmatched token =>
    obtain rfl := Except.ok.inj h
    have hasked : asked? token = none := by
      rw [asked?_eq_bind, show findRule token = none from hcomplete, Option.bind_none]
    rw [valuesAt_of_values_eq_nil rfl, valuesAt_of_values_eq_nil rfl,
      show asked [.unmatched token] = [] from List.filterMap_cons_none hasked]
    exact ⟨rfl, rfl, rfl⟩
  | matched rule flag values =>
    obtain ⟨hrule, hlength⟩ := hcomplete
    obtain ⟨haction, houtput, hlanguage⟩ := Rule.effectOn_fields h
    refine ⟨?_, ?_, ?_⟩
    · have hasked : asked? flag = rule.effect.asked? := by
        rw [asked?_eq_bind, hrule, Option.bind_some]
      rw [haction, asked, List.filterMap_cons, Segment.token_matched, hasked]
      cases rule.effect.asked? with
      | none => rfl
      | some asked => rfl
    · rw [houtput, getLast?_valuesAt_or .output (by decide) (by decide) hrule hlength]
    · rw [hlanguage, getLast?_valuesAt_or .language (by decide) (by decide) hrule hlength]

theorem foldlM_effectOn_fields (hcomplete : ∀ segment ∈ met, segment.IsComplete)
    (h : met.foldlM (Segment.effectOn fs directory) c = .ok after) :
    after.action = (asked met).foldl max c.action ∧
      after.output = (valuesAt "-o" met).getLast?.or c.output ∧
      after.language = (valuesAt "-x" met).getLast?.or c.language := by
  induction met generalizing c with
  | nil =>
    obtain rfl := Except.ok.inj h
    exact ⟨rfl, rfl, rfl⟩
  | cons segment behind ih =>
    rw [List.forall_mem_cons] at hcomplete
    rw [foldlM_effectOn_cons] at h
    obtain ⟨next, hnext, h⟩ := bind_eq_ok_iff.mp h
    obtain ⟨haction, houtput, hlanguage⟩ := Segment.effectOn_fields hcomplete.1 hnext
    obtain ⟨haction', houtput', hlanguage'⟩ := ih hcomplete.2 h
    refine ⟨?_, ?_, ?_⟩
    · rw [haction', haction, asked_cons segment behind, List.foldl_append]
    · rw [houtput', houtput, valuesAt_cons "-o" segment behind, List.getLast?_append,
        Option.or_assoc]
    · rw [hlanguage', hlanguage, valuesAt_cons "-x" segment behind, List.getLast?_append,
        Option.or_assoc]

end

/-! ### The action of an invocation -/

section

variable {fs : FileSystem} {directory : String} {command : List String} {c c' : Classification}

theorem exists_classifyIn_eq_ok_iff :
    (∃ c, classifyIn fs directory command = .ok c) ↔
      ∀ path ∈ listPaths directory (segments (command.drop 1)), (fs.readText path).isOk = true := by
  constructor
  · rintro ⟨c, hc⟩ path hpath
    by_contra hread
    -- the first list that cannot be read makes the classification fail
    obtain ⟨first, hfirst⟩ := Option.isSome_iff_exists.mp (List.find?_isSome
      (p := fun path => !(fs.readText path).isOk) |>.mpr ⟨path, hpath, by simpa using hread⟩)
    have hunread : (fs.readText first).isOk = false := by simpa using List.find?_some hfirst
    cases htext : fs.readText first with
    | ok content => simp [htext, Except.isOk, Except.toBool] at hunread
    | error cause =>
      have herror := (classifyIn_eq_error_iff ⟨first, cause⟩).mpr ⟨hfirst, htext⟩
      rw [hc] at herror
      cases herror
  · intro hread
    cases hc : classifyIn fs directory command with
    | ok c => exact ⟨c, rfl⟩
    | error fault =>
      obtain ⟨hfind, -⟩ := (classifyIn_eq_error_iff fault).mp hc
      have hunread := List.find?_some hfind
      rw [hread fault.path (List.mem_of_find?_eq_some hfind)] at hunread
      cases hunread

theorem isGreatest_foldl_max (actions : List Action) (action : Action) :
    IsGreatest {a | a = action ∨ a ∈ actions} (actions.foldl max action) := by
  induction actions generalizing action with
  | nil => simp [IsGreatest, upperBounds]
  | cons next rest ih =>
    obtain ⟨hmem, hle⟩ := ih (max action next)
    constructor
    · rcases hmem with hmax | hrest
      · rcases max_choice action next with h | h
        · exact .inl (hmax.trans h)
        · exact .inr (List.mem_cons.mpr (.inl (hmax.trans h)))
      · exact .inr (List.mem_cons_of_mem next hrest)
    · rintro a (rfl | ha)
      · exact (le_max_left a next).trans (hle (.inl rfl))
      · rcases List.mem_cons.mp ha with rfl | hrest
        · exact (le_max_right action a).trans (hle (.inl rfl))
        · exact hle (.inr hrest)

theorem isGreatest_action (h : classifyIn fs directory command = .ok c) :
    IsGreatest {a | a = .link ∨ a ∈ asked (segments (command.drop 1))} c.action := by
  rw [classifyIn_eq_foldlM] at h
  rw [(foldlM_effectOn_fields isComplete_of_mem_segments h).1]
  exact isGreatest_foldl_max _ _

/-- The order of the segments does not matter to the action. -/
theorem action_eq_of_perm {command' : List String}
    (hperm : (segments (command'.drop 1)).Perm (segments (command.drop 1)))
    (h : classifyIn fs directory command = .ok c)
    (h' : classifyIn fs directory command' = .ok c') : c'.action = c.action := by
  have hasked : {a | a = Action.link ∨ a ∈ asked (segments (command'.drop 1))} =
      {a | a = .link ∨ a ∈ asked (segments (command.drop 1))} := by
    ext a
    have hmem := (hperm.filterMap fun segment => asked? segment.token).mem_iff (a := a)
    exact or_congr_right hmem
  exact (hasked ▸ isGreatest_action h').unique (isGreatest_action h)

end

/-- **The action of an invocation is the greatest of linking and the actions that
the arguments of its segments ask for, and its output and language are the values
of the last `-o` and `-x` among them.**  What is taken as the value of a flag, or
stands behind a flag with too few arguments, asks for nothing.  So if there is no
such flag, and the lists of files can be read, the segments may come in any order. -/
theorem action_of_classifyIn (fs : FileSystem) (directory : String) :
    (Action.link < .compile ∧ Action.compile < .preprocess ∧ Action.preprocess < .info) ∧
    (∀ command c, classifyIn fs directory command = .ok c →
      let met := segments (command.drop 1)
      IsGreatest {a | a = .link ∨ ∃ segment ∈ met, asked? segment.token = some a} c.action ∧
        c.output = (valuesAt "-o" met).getLast? ∧ c.language = (valuesAt "-x" met).getLast?) ∧
    (∀ executable arguments, EndsAtBoundary arguments →
      (∀ path ∈ listPaths directory (segments arguments), (fs.readText path).isOk = true) →
      ∀ met, List.Perm met (segments arguments) → ∃ c c',
        classifyIn fs directory (executable :: arguments) = .ok c ∧
        classifyIn fs directory (executable :: met.flatMap Segment.arguments) = .ok c' ∧
        c'.action = c.action) := by
  refine ⟨by decide, fun command c hc => ?_, fun executable arguments hends hread met hperm => ?_⟩
  · have hgreatest := isGreatest_action hc
    simp only [asked, List.mem_filterMap] at hgreatest
    rw [classifyIn_eq_foldlM] at hc
    obtain ⟨-, houtput, hlanguage⟩ := foldlM_effectOn_fields isComplete_of_mem_segments hc
    exact ⟨hgreatest, houtput.trans Option.or_none, hlanguage.trans Option.or_none⟩
  · -- the segments are found again in their new order
    have hmet : segments (met.flatMap Segment.arguments) = met :=
      segments_flatMap fun segment hmem => isComplete_of_mem_segments segment (hperm.subset hmem)
    have hlists : ∀ path ∈ listPaths directory met, (fs.readText path).isOk = true :=
      fun path hpath => hread path ((hperm.filterMap _).mem_iff.mp hpath)
    obtain ⟨c, hc⟩ : ∃ c, classifyIn fs directory (executable :: arguments) = .ok c :=
      exists_classifyIn_eq_ok_iff.mpr hread
    obtain ⟨c', hc'⟩ : ∃ c', classifyIn fs directory
        (executable :: met.flatMap Segment.arguments) = .ok c' := by
      refine exists_classifyIn_eq_ok_iff.mpr ?_
      rwa [List.drop_one, List.tail_cons, hmet]
    refine ⟨c, c', hc, hc', action_eq_of_perm ?_ hc hc'⟩
    rwa [List.drop_one, List.drop_one, List.tail_cons, List.tail_cons, hmet]

/-- What `-o` takes as its value asks for nothing, wherever the two stand. -/
theorem action_of_classifyIn_swallowed :
    EndsAtBoundary ["-o", "-E", "-c", "a.c"] ∧ ∃ c c',
      classifyIn .empty "/" ["cc", "-o", "-E", "-c", "a.c"] = .ok c ∧
      classifyIn .empty "/" ["cc", "-c", "a.c", "-o", "-E"] = .ok c' ∧
      c.action = .compile ∧ c'.action = .compile ∧ c.output = some "-E" := by
  have hends : EndsAtBoundary ["-o", "-E", "-c", "a.c"] := by
    rw [EndsAtBoundary]
    decide +kernel
  have hends' : (segments ["-c", "a.c", "-o", "-E"]).flatMap Segment.arguments =
      ["-c", "a.c", "-o", "-E"] := by
    decide +kernel
  obtain ⟨-, hfields, horder⟩ := action_of_classifyIn .empty "/"
  obtain ⟨c, c', hc, hc', haction⟩ := horder "cc" _ hends (by decide +kernel)
    (segments ["-c", "a.c", "-o", "-E"]) (by decide +kernel)
  rw [hends'] at hc'
  obtain ⟨⟨hmem, hle⟩, houtput, -⟩ := hfields _ c hc
  have hasked (a : Action) : (∃ segment ∈ segments ["-o", "-E", "-c", "a.c"],
      asked? segment.token = some a) ↔ a = .compile := by
    cases a <;> decide +kernel
  have hcompile : c.action = .compile := by
    rcases hmem with hlink | hmet
    · exact absurd (hle (.inr ((hasked .compile).mpr rfl))) (by rw [hlink]; decide)
    · exact (hasked c.action).mp hmet
  exact ⟨hends, c, c', hc, hc', hcompile, haction.trans hcompile,
    houtput.trans (by decide +kernel)⟩

end CompilationDatabase.Compiler
