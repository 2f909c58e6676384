/-
The two spellings of an option with a value.

A flag such as `-I` takes its value joined to it or as the next argument.  The
value may be any text, so the joined argument could be meant for many rules; but
each rule before that of these flags wants something that the flag rules out
(`Matcher.excludes`), whatever is joined to it.  Both spellings then are one
segment with the same effect (`effectOn_joined`).

* `findRule_append` — a flag decides its rule, with or without a value joined;
* `classifyIn_joined` — both spellings are classified alike, and add the joined
  one to the options, where they stand.
-/
import CompilationDatabase.Proofs.Compiler.Boundaries
import CompilationDatabase.Proofs.Compiler.InputFiles

namespace CompilationDatabase.Compiler

/-! ### The rule of a joined argument -/

section

variable {start text value : String} {matcher : Matcher}

theorem begins_append (start value : String) : begins start (start ++ value) = true := by
  rw [begins_iff_prefixOf, String.toList_append]
  exact List.prefix_append _ _

/-- Of two starts of one text, one begins with the other. -/
theorem begins_or_begins {other : String} (h : begins start text = true)
    (h' : begins other text = true) : begins start other = true ∨ begins other start = true := by
  simp only [begins_iff_prefixOf] at *
  exact List.prefix_or_prefix_of_prefix h h'

/-- Whether the matcher accepts no argument that begins with the start, as far
as its texts tell. -/
def Matcher.excludes (start : String) : Matcher → Bool
  | exactly flags => flags.all fun flag => !begins start flag
  | beginning starts => starts.all fun other => !begins start other && !begins other start
  | beginningExcept other exceptions =>
    (!begins start other && !begins other start) || exceptions.any (begins · start)
  | positional => begins "-" start

theorem Matcher.accepts_append_eq_false (h : matcher.excludes start = true) (value : String) :
    matcher.accepts (start ++ value) = false := by
  have hapart {other : String} (hother : (!begins start other && !begins other start) = true) :
      begins other (start ++ value) = false := by
    rw [Bool.eq_false_iff]
    intro hbegins
    rcases begins_or_begins (begins_append start value) hbegins with h | h <;> simp [h] at hother
  have htrans {other : String} (hother : begins other start = true) :
      begins other (start ++ value) = true := by
    rw [begins_iff_prefixOf] at *
    exact hother.trans (begins_iff_prefixOf.mp (begins_append start value))
  cases matcher with
  | exactly flags =>
    rw [accepts, Bool.eq_false_iff, ne_eq, List.contains_iff_mem]
    intro hmem
    simpa [begins_append] using List.all_eq_true.mp h _ hmem
  | beginning starts =>
    rw [accepts, List.any_eq_false]
    intro other hmem
    simpa using hapart (List.all_eq_true.mp h other hmem)
  | beginningExcept other exceptions =>
    rw [accepts]
    rcases (Bool.or_eq_true _ _).mp h with hother | hexception
    · rw [hapart hother, Bool.false_and]
    · obtain ⟨exception, hmem, hbegins⟩ := List.any_eq_true.mp hexception
      have hany : exceptions.any (begins · (start ++ value)) = true :=
        List.any_eq_true.mpr ⟨exception, hmem, htrans hbegins⟩
      rw [hany, Bool.not_true, Bool.and_false]
  | positional => rw [accepts, htrans h, Bool.not_true]

end

/-- An argument has the first rule that accepts it, if the texts of the rules before
it rule out its start. -/
theorem findRule_of_excludes {start : String} {earlier later : List Rule} {rule : Rule}
    (hrules : rules = earlier ++ rule :: later)
    (hexcludes : ∀ other ∈ earlier, other.matcher.excludes start = true) {value : String}
    (haccepts : rule.matcher.accepts (start ++ value) = true) :
    findRule (start ++ value) = some rule := by
  have hearlier : earlier.find? (·.matcher.accepts (start ++ value)) = none := by
    rw [List.find?_eq_none]
    intro other hmem
    simp [Matcher.accepts_append_eq_false (hexcludes other hmem) value]
  rw [findRule, hrules, List.find?_append, hearlier, Option.none_or]
  exact List.find?_cons_of_pos haccepts

/-- The flags whose value may be joined or separate. -/
def joinedFlags : List String :=
  ["-D", "-I", "-U", "-stdlib", "-iquote", "-mios-simulator-version-min",
    "-mmacosx-version-min", "-miphoneos-version-min", "-fobjc-link-runtime"]

/-- The rule of these flags. -/
def joinedRule : Rule :=
  ⟨"option-joined-or-separate", .beginning joinedFlags, .joinedOrSeparate, .option⟩

section

variable {flag value : String}

/-- Such a flag decides the rule, whatever is joined to it. -/
theorem findRule_append (h : flag ∈ joinedFlags) (value : String) :
    findRule (flag ++ value) = some joinedRule := by
  have hrules : rules = rules.take 16 ++ joinedRule :: rules.drop 17 := rfl
  have hexcludes : ∀ rule ∈ rules.take 16, ∀ flag ∈ joinedFlags,
      rule.matcher.excludes flag = true := by
    decide +kernel
  have haccepts : joinedRule.matcher.accepts (flag ++ value) = true :=
    List.any_eq_true.mpr ⟨flag, h, begins_append flag value⟩
  exact findRule_of_excludes hrules (fun rule hmem => hexcludes rule hmem flag h) haccepts

/-- None of the flags is another one with a value joined to it. -/
theorem append_not_mem_joinedFlags (h : flag ∈ joinedFlags) (hvalue : value ≠ "") :
    flag ++ value ∉ joinedFlags := by
  have hapart : ∀ flag ∈ joinedFlags, ∀ other ∈ joinedFlags,
      begins flag other = true → flag = other := by
    decide +kernel
  intro hmem
  have heq := hapart flag h (flag ++ value) hmem (begins_append flag value)
  rw [← String.toList_inj, String.toList_append, List.self_eq_append_right] at heq
  exact hvalue (String.toList_eq_nil_iff.mp heq)

theorem extra_of_mem_joinedFlags (h : flag ∈ joinedFlags) : joinedRule.extra flag = 1 :=
  if_pos (List.contains_iff_mem.mpr h)

theorem extra_append (h : flag ∈ joinedFlags) (hvalue : value ≠ "") :
    joinedRule.extra (flag ++ value) = 0 :=
  if_neg (mt List.contains_iff_mem.mp (append_not_mem_joinedFlags h hvalue))

theorem isComplete_separate (h : flag ∈ joinedFlags) (value : String) :
    (Segment.matched joinedRule flag [value]).IsComplete := by
  have hrule := findRule_append h ""
  rw [String.append_empty] at hrule
  exact ⟨hrule, (extra_of_mem_joinedFlags h).symm⟩

theorem isComplete_joined (h : flag ∈ joinedFlags) (hvalue : value ≠ "") :
    (Segment.matched joinedRule (flag ++ value) []).IsComplete :=
  ⟨findRule_append h value, (extra_append h hvalue).symm⟩

end

/-! ### The effect of either spelling -/

/-- The classification with options in front of its own. -/
def Classification.behind (options : List String) (c : Classification) : Classification :=
  { c with options := options ++ c.options }

section

variable {fs : FileSystem} {directory flag value : String}

/-- No argument looks at the options that are kept already. -/
theorem Segment.effectOn_behind (fs : FileSystem) (directory : String) (options : List String)
    (segment : Segment) (c : Classification) :
    segment.effectOn fs directory (c.behind options) =
      (segment.effectOn fs directory c).map (·.behind options) := by
  cases segment with
  | unmatched token => rfl
  | matched rule flag values =>
    simp only [Segment.effectOn, Rule.effectOn]
    cases rule.effect with
    | fileList =>
      simp only
      cases readFileList fs directory (values.headD "") <;> rfl
    | option => simp [Classification.behind, Except.map]
    | aliasOf spelling => simp [Classification.behind, Except.map]
    | _ => rfl

/-- Going through segments adds to the options, and what it adds does not
depend on those kept already. -/
theorem foldlM_effectOn_options (met : List Segment) (c : Classification) :
    met.foldlM (Segment.effectOn fs directory) c =
      (met.foldlM (Segment.effectOn fs directory) { c with options := [] }).map
        (·.behind c.options) := by
  have hbehind : c = Classification.behind c.options { c with options := [] } := by
    simp [Classification.behind]
  conv_lhs => rw [hbehind]
  exact foldlM_effectOn_map (Segment.effectOn_behind fs directory c.options) met _

theorem effectOn_separate (c : Classification) :
    (Segment.matched joinedRule flag [value]).effectOn fs directory c =
      .ok { c with options := c.options ++ [flag ++ value] } := by
  simp [Segment.effectOn, Rule.effectOn, joinedRule]

theorem effectOn_joined (c : Classification) :
    (Segment.matched joinedRule (flag ++ value) []).effectOn fs directory c =
      .ok { c with options := c.options ++ [flag ++ value] } := by
  simp [Segment.effectOn, Rule.effectOn, joinedRule]

end

/-- **An option with a joined value is classified like the option with a separate
one, whatever the value, what follows it, and what stands before it up to the end
of a segment.**  The result is that without the option, with the joined argument
put into the options where it stands. -/
theorem classifyIn_joined (fs : FileSystem) (directory executable : String)
    {front : List String} {flag value : String} (hfront : EndsAtBoundary front)
    (hflag : flag ∈ joinedFlags) (hvalue : value ≠ "") (rest : List String) :
    classifyIn fs directory (executable :: (front ++ [flag, value] ++ rest)) =
        classifyIn fs directory (executable :: (front ++ [flag ++ value] ++ rest)) ∧
      Alongside (fun without c => ∃ reached added,
          classifyIn fs directory (executable :: front) = .ok reached ∧
          without.options = reached.options ++ added ∧
          c = { without with options := reached.options ++ (flag ++ value) :: added })
        (classifyIn fs directory (executable :: (front ++ rest)))
        (classifyIn fs directory (executable :: (front ++ [flag ++ value] ++ rest))) := by
  have hseparate := classifyIn_append_segment fs directory executable hfront
    (isComplete_separate hflag value) rest
  have hjoined := classifyIn_append_segment fs directory executable hfront
    (isComplete_joined hflag hvalue) rest
  simp only [effectOn_separate, effectOn_joined, Segment.arguments, Segment.token_matched,
    Segment.values_matched] at hseparate hjoined
  refine ⟨hseparate.trans hjoined.symm, ?_⟩
  rw [hjoined, classifyIn_append fs directory executable hfront]
  cases hreached : classifyIn fs directory (executable :: front) with
  | error fault => exact .error fault
  | ok reached =>
    -- what follows adds the same to either list of options
    show Alongside _ ((segments rest).foldlM (Segment.effectOn fs directory) reached)
      ((segments rest).foldlM (Segment.effectOn fs directory)
        { reached with options := reached.options ++ [flag ++ value] })
    rw [foldlM_effectOn_options, foldlM_effectOn_options (segments rest) { reached with
      options := reached.options ++ [flag ++ value] }]
    cases (segments rest).foldlM (Segment.effectOn fs directory)
        { reached with options := [] } with
    | error fault => exact .error fault
    | ok last =>
      refine .ok ⟨reached, last.options, rfl, rfl, ?_⟩
      simp [Classification.behind]

/-- A value that looks like a flag asks for nothing in either spelling. -/
theorem classifyIn_joined_dashed :
    EndsAtBoundary ["-o", "a.o"] ∧ "-D" ∈ joinedFlags ∧ "-c" ≠ "" ∧ ∃ c,
      classifyIn .empty "/" ["cc", "-o", "a.o", "-D", "-c", "a.c"] = .ok c ∧
      classifyIn .empty "/" ["cc", "-o", "a.o", "-D-c", "a.c"] = .ok c ∧
      c.options = ["-D-c"] ∧ c.action = .link := by
  have hfront : EndsAtBoundary ["-o", "a.o"] := by
    rw [EndsAtBoundary]
    decide +kernel
  have hflag : "-D" ∈ joinedFlags := by decide
  have hvalue : "-c" ≠ "" := by decide
  have hwithout : classifyIn .empty "/" ["cc", "-o", "a.o", "a.c"] =
      .ok { files := ["a.c"], output := some "a.o" } :=
    toOption_eq_some_iff.mp (by decide +kernel)
  obtain ⟨hsame, halong⟩ := classifyIn_joined .empty "/" "cc" hfront hflag hvalue ["a.c"]
  rcases halong.eq_or with
    ⟨fault, herror, -⟩ | ⟨without, c, hok, hc, reached, added, -, hadded, rfl⟩
  · cases hwithout.symm.trans herror
  · obtain rfl := Except.ok.inj (hwithout.symm.trans hok)
    obtain ⟨hreached, hbehind⟩ := List.append_eq_nil_iff.mp hadded.symm
    refine ⟨hfront, hflag, hvalue, _, hsame.trans hc, hc, ?_, rfl⟩
    rw [hreached, hbehind]
    rfl

end CompilationDatabase.Compiler
