/-
An invocation in segments.

The arguments fall into segments: an argument without a rule, or the flag of a
rule with its values (`segments`).  Reading an invocation is going through its
segments (`scan_eq_foldlM`), so what it does depends on the file system only by
the lists of files that are read on the way (`listsRead`).

* `segments_cover` — the arguments are those of their segments, up to a flag with
  too few behind it;
* `scan_eq_foldlM` — reading from a cursor on goes through the segments behind
  it;
* `eq_withCxx_of_classifyIn` — what an invocation does is in its arguments;
* `toOption_classifyIn` — where the same lists are read, the invocation does
  the same.
-/
import Mathlib.Data.List.Basic
import CompilationDatabase.Compiler.Invocation
import CompilationDatabase.Proofs.Result

namespace CompilationDatabase.Compiler

/-! ### Cursors -/

namespace Cursor

/-- The arguments from the cursor on. -/
def rest (c : Cursor) : List String := c.arguments.drop c.position

theorem current?_eq_head? (c : Cursor) : c.current? = c.rest.head? := by
  simp [current?, rest]

theorem rest_skip (c : Cursor) : c.skip.rest = c.rest.tail := by
  simp only [rest, skip, List.tail_drop]
  by_cases h : c.position < c.arguments.length
  · rw [Nat.min_eq_left h]
  · rw [Nat.min_eq_right (by omega), List.drop_length, List.drop_eq_nil_of_le (by omega)]

/-- The arguments behind the flag are taken if there are enough of them. -/
theorem take_eq_ok {c : Cursor} {n : Nat} (h : n ≤ c.rest.tail.length) :
    ∃ next, c.take n = (.ok (c.rest.tail.take n), next) ∧ next.rest = c.rest.tail.drop n := by
  induction n generalizing c with
  | zero => exact ⟨c.skip, by simp [take], by simpa using c.rest_skip⟩
  | succ n ih =>
    have hpos : 0 < c.rest.tail.length := by omega
    obtain ⟨value, values, hvalues⟩ := List.exists_cons_of_length_pos hpos
    have hskip : c.skip.rest = value :: values := c.rest_skip.trans hvalues
    have hadvance : c.advance = (.ok value, c.skip) := by
      simp [advance, current?_eq_head?, hskip]
    rw [hvalues, List.length_cons] at h
    obtain ⟨next, htake, hnext⟩ := ih (c := c.skip)
      (by simpa [hskip] using Nat.le_of_succ_le_succ h)
    refine ⟨next, ?_, ?_⟩
    · simp only [take, hadvance, htake, hvalues, hskip, List.tail_cons, List.take_succ_cons]
    · simpa [hvalues, hskip] using hnext

/-- Nothing is taken if there are too few. -/
theorem take_eq_error {c : Cursor} {n : Nat} (h : c.rest.tail.length < n) :
    ∃ next, c.take n = (.error ⟨⟩, next) := by
  induction n generalizing c with
  | zero => omega
  | succ n ih =>
    cases hvalues : c.rest.tail with
    | nil =>
      have hadvance : c.advance = (.error ⟨⟩, c.skip) := by
        simp [advance, current?_eq_head?, c.rest_skip, hvalues]
      exact ⟨c.skip, by simp only [take, hadvance]⟩
    | cons value values =>
      have hskip : c.skip.rest = value :: values := c.rest_skip.trans hvalues
      have hadvance : c.advance = (.ok value, c.skip) := by
        simp [advance, current?_eq_head?, hskip]
      rw [hvalues, List.length_cons] at h
      obtain ⟨next, htake⟩ := ih (c := c.skip) (by simpa [hskip] using Nat.lt_of_succ_lt_succ h)
      exact ⟨next, by simp only [take, hadvance, htake]⟩

end Cursor

theorem Rule.apply_of_take_eq_ok (rule : Rule) (fs : FileSystem) (directory flag : String)
    {cursor next : Cursor} {values : List String} (c : Classification)
    (h : cursor.take (rule.extra flag) = (.ok values, next)) :
    rule.apply fs directory flag cursor c =
      match rule.effectOn fs directory flag values c with
      | .error fault => (.error (.unreadable fault), next, c)
      | .ok after => (.ok (), next, after) := by
  cases heffect : rule.effectOn fs directory flag values c <;> simp only [apply, h, heffect]

theorem Rule.apply_of_take_eq_error (rule : Rule) (fs : FileSystem) (directory flag : String)
    {cursor next : Cursor} {fault : EndOfArguments} (c : Classification)
    (h : cursor.take (rule.extra flag) = (.error fault, next)) :
    rule.apply fs directory flag cursor c = (.error .endOfArguments, next, c) := by
  rw [apply, h]

/-! ### Segments -/

/-- What is taken at once. -/
inductive Segment where
  /-- An argument without a rule. -/
  | unmatched (token : String)
  /-- The flag of a rule with its values. -/
  | matched (rule : Rule) (flag : String) (values : List String)
deriving DecidableEq, Repr

/-- The segments of a list of arguments, up to a flag with too few behind it. -/
def segments : List String → List Segment
  | [] => []
  | token :: rest =>
    match findRule token with
    | none => .unmatched token :: segments rest
    | some rule =>
      if rule.extra token ≤ rest.length then
        .matched rule token (rest.take (rule.extra token)) ::
          segments (rest.drop (rule.extra token))
      else []
termination_by arguments => arguments.length
decreasing_by all_goals simp only [List.length_cons, List.length_drop]; omega

/-- What a segment does. -/
def Segment.effectOn (fs : FileSystem) (directory : String) (c : Classification) :
    Segment → Except UnreadableList Classification
  | unmatched _ => .ok c
  | matched rule flag values => rule.effectOn fs directory flag values c

section

variable {token : String} {rest : List String} {rule : Rule}

theorem segments_unmatched (h : findRule token = none) :
    segments (token :: rest) = .unmatched token :: segments rest := by
  rw [segments, h]

theorem segments_matched (h : findRule token = some rule)
    (hlength : rule.extra token ≤ rest.length) :
    segments (token :: rest) = .matched rule token (rest.take (rule.extra token)) ::
      segments (rest.drop (rule.extra token)) := by
  rw [segments, h]
  exact if_pos hlength

theorem segments_short (h : findRule token = some rule) (hlength : rest.length < rule.extra token) :
    segments (token :: rest) = [] := by
  rw [segments, h]
  exact if_neg (Nat.not_le.mpr hlength)

end

/-- The argument that the segment was met at. -/
def Segment.token : Segment → String
  | unmatched token => token
  | matched _ flag _ => flag

/-- The values that were taken behind it. -/
def Segment.values : Segment → List String
  | unmatched _ => []
  | matched _ _ values => values

@[simp] theorem Segment.token_unmatched (token : String) :
    (unmatched token).token = token := rfl

@[simp] theorem Segment.token_matched (rule : Rule) (flag : String) (values : List String) :
    (matched rule flag values).token = flag := rfl

@[simp] theorem Segment.values_unmatched (token : String) : (unmatched token).values = [] := rfl

@[simp] theorem Segment.values_matched (rule : Rule) (flag : String) (values : List String) :
    (matched rule flag values).values = values := rfl

/-- What segments give one by one, the first of them gives first. -/
theorem filterMap_cons_eq_append {α : Type} (f : Segment → Option α) (segment : Segment)
    (met : List Segment) :
    (segment :: met).filterMap f = [segment].filterMap f ++ met.filterMap f := by
  rw [← List.filterMap_append, List.singleton_append]

/-- Whether the segment is what is taken at its argument. -/
def Segment.IsComplete : Segment → Prop
  | unmatched token => findRule token = none
  | matched rule flag values => findRule flag = some rule ∧ values.length = rule.extra flag

/-- Whether the arguments are a flag with too few behind it. -/
def IsShort (arguments : List String) : Prop :=
  ∃ flag values rule, arguments = flag :: values ∧ findRule flag = some rule ∧
    values.length < rule.extra flag

/-- All arguments are in segments, one after the other, up to a flag with too few
behind it. -/
theorem segments_cover (arguments : List String) :
    (∀ segment ∈ segments arguments, segment.IsComplete) ∧
      ∃ rest,
        (segments arguments).flatMap (fun segment => segment.token :: segment.values) ++ rest =
          arguments ∧ (rest = [] ∨ IsShort rest) := by
  induction hn : arguments.length using Nat.strongRecOn generalizing arguments with
  | ind n ih =>
    subst hn
    cases arguments with
    | nil => exact ⟨by simp [segments], [], by simp [segments], .inl rfl⟩
    | cons token behind =>
      cases hrule : findRule token with
      | none =>
        obtain ⟨hcomplete, rest, hcover, hrest⟩ := ih behind.length (by simp) behind rfl
        rw [segments_unmatched hrule]
        refine ⟨List.forall_mem_cons.mpr ⟨hrule, hcomplete⟩, rest, ?_, hrest⟩
        simpa using hcover
      | some rule =>
        by_cases hlength : rule.extra token ≤ behind.length
        · obtain ⟨hcomplete, rest, hcover, hrest⟩ :=
            ih (behind.drop (rule.extra token)).length
              (by rw [List.length_drop, List.length_cons]; omega) _ rfl
          rw [segments_matched hrule hlength]
          refine ⟨List.forall_mem_cons.mpr
            ⟨⟨hrule, List.length_take_of_le hlength⟩, hcomplete⟩, rest, ?_, hrest⟩
          rw [List.flatMap_cons, List.append_assoc, hcover]
          simp
        · have hshort := Nat.not_le.mp hlength
          rw [segments_short hrule hshort]
          exact ⟨by simp, token :: behind, by simp, .inr ⟨token, behind, rule, rfl, hrule, hshort⟩⟩

/-! ### Reading an invocation -/

section

variable {fs : FileSystem} {directory token : String} {cursor : Cursor} {rule : Rule}
  {c : Classification}

theorem scan_of_current?_eq_none (h : cursor.current? = none) :
    scan fs directory cursor c = .ok c := by
  rw [scan]
  split
  · rfl
  · simp_all

/-- The reading is one iteration after the other. -/
theorem scan_eq_iterate (h : cursor.current? = some token) :
    scan fs directory cursor c =
      match iterate fs directory token cursor c with
      | .next behind after => scan fs directory behind after
      | .last _ result => result := by
  rw [scan]
  split
  · simp_all
  · rename_i token' htoken
    obtain rfl : token = token' := Option.some.inj (h.symm.trans htoken)
    split <;> simp_all

theorem iterate_of_unmatched (hrule : findRule token = none) :
    iterate fs directory token cursor c = .next cursor.skip c := by
  rw [iterate, hrule]

theorem iterate_of_matched (hrule : findRule token = some rule) :
    iterate fs directory token cursor c =
      match rule.apply fs directory token cursor c with
      | (.ok _, behind, after) => .next behind after
      | (.error .endOfArguments, behind, after) => .last behind (.ok after)
      | (.error (.unreadable fault), behind, _) => .last behind (.error fault) := by
  rcases happly : rule.apply fs directory token cursor c with ⟨⟨_ | _⟩ | _, behind, after⟩ <;>
    simp only [iterate, hrule, happly]

end

/-- What an invocation does is what its segments do, one after the other. -/
theorem scan_eq_foldlM (fs : FileSystem) (directory : String) (cursor : Cursor)
    (c : Classification) :
    scan fs directory cursor c =
      (segments cursor.rest).foldlM (Segment.effectOn fs directory) c := by
  induction hn : cursor.remaining using Nat.strongRecOn generalizing cursor c with
  | ind n ih =>
    subst hn
    cases hrest : cursor.rest with
    | nil =>
      have hcurrent : cursor.current? = none := by rw [cursor.current?_eq_head?, hrest]; rfl
      rw [scan_of_current?_eq_none hcurrent, segments]
      rfl
    | cons token rest =>
      have hcurrent : cursor.current? = some token := by
        rw [cursor.current?_eq_head?, hrest]; rfl
      have htail : cursor.rest.tail = rest := by rw [hrest, List.tail_cons]
      -- the cases of the reader are those of `segments`
      cases hrule : findRule token with
      | none =>
        rw [scan_eq_iterate hcurrent, iterate_of_unmatched hrule, segments_unmatched hrule]
        dsimp only
        rw [ih _ (Cursor.remaining_skip_lt (by simp [hcurrent])) cursor.skip c rfl,
          cursor.rest_skip, htail]
        rfl
      | some rule =>
        rw [scan_eq_iterate hcurrent, iterate_of_matched hrule]
        by_cases hlength : rule.extra token ≤ rest.length
        · obtain ⟨next, htake, hnext⟩ := Cursor.take_eq_ok (htail.symm ▸ hlength)
          rw [htail] at htake hnext
          -- the rule moves the cursor behind its values, where the next segment begins
          have hlt : next.remaining < cursor.remaining := by
            have htake' := Cursor.remaining_take_lt (rule.extra token)
              (by simp [hcurrent] : cursor.current? ≠ none)
            rwa [htake] at htake'
          rw [rule.apply_of_take_eq_ok fs directory token c htake, segments_matched hrule hlength,
            List.foldlM_cons, Segment.effectOn]
          cases rule.effectOn fs directory token (rest.take (rule.extra token)) c with
          | error fault => rfl
          | ok after =>
            show scan fs directory next after = _
            rw [ih _ hlt next after rfl, hnext]
            rfl
        · obtain ⟨next, htake⟩ := Cursor.take_eq_error (htail.symm ▸ Nat.not_le.mp hlength)
          rw [rule.apply_of_take_eq_error fs directory token c htake,
            segments_short hrule (Nat.not_le.mp hlength)]
          rfl

theorem classifyIn_eq_foldlM (fs : FileSystem) (directory : String) (command : List String) :
    classifyIn fs directory command =
      (segments (command.drop 1)).foldlM (Segment.effectOn fs directory)
        (initialClassification command) :=
  scan_eq_foldlM fs directory ⟨command.drop 1, 0⟩ _

/-! ### The executable -/

/-- The classification as it is for a driver of either kind. -/
def Classification.withCxx (isCxx : Bool) (c : Classification) : Classification := { c with isCxx }

/-- No argument asks, or says, for which language the driver is. -/
theorem Segment.effectOn_withCxx (fs : FileSystem) (directory : String) (isCxx : Bool)
    (segment : Segment) (c : Classification) :
    segment.effectOn fs directory (c.withCxx isCxx) =
      (segment.effectOn fs directory c).map (·.withCxx isCxx) := by
  cases segment with
  | unmatched token => rfl
  | matched rule flag values =>
    simp only [Segment.effectOn, Rule.effectOn]
    cases rule.effect with
    | fileList =>
      simp only
      cases readFileList fs directory (values.headD "") <;> rfl
    | _ => rfl

/-- What commutes with one segment commutes with all of them. -/
theorem foldlM_effectOn_map {fs : FileSystem} {directory : String}
    {f : Classification → Classification} (h : ∀ (segment : Segment) c,
      segment.effectOn fs directory (f c) = (segment.effectOn fs directory c).map f)
    (segments : List Segment) (c : Classification) :
    segments.foldlM (Segment.effectOn fs directory) (f c) =
      (segments.foldlM (Segment.effectOn fs directory) c).map f := by
  induction segments generalizing c with
  | nil => rfl
  | cons segment rest ih =>
    rw [List.foldlM_cons, List.foldlM_cons, h]
    cases segment.effectOn fs directory c with
    | error fault => rfl
    | ok after => exact ih after

theorem foldlM_effectOn_withCxx (fs : FileSystem) (directory : String) (isCxx : Bool)
    (segments : List Segment) (c : Classification) :
    segments.foldlM (Segment.effectOn fs directory) (c.withCxx isCxx) =
      (segments.foldlM (Segment.effectOn fs directory) c).map (·.withCxx isCxx) :=
  foldlM_effectOn_map (Segment.effectOn_withCxx fs directory isCxx) segments c

/-- The executable only says for which language the driver is; what the
invocation does is in its arguments. -/
theorem eq_withCxx_of_classifyIn {fs : FileSystem} {directory : String}
    {command command' : List String} {c c' : Classification}
    (harguments : command'.drop 1 = command.drop 1) (h : classifyIn fs directory command = .ok c)
    (h' : classifyIn fs directory command' = .ok c') : c' = c.withCxx c'.isCxx := by
  have hdefault (command : List String) : initialClassification command =
      .withCxx (initialClassification command).isCxx {} := rfl
  rw [classifyIn_eq_foldlM, hdefault, foldlM_effectOn_withCxx, map_eq_ok_iff] at h
  rw [classifyIn_eq_foldlM, hdefault, foldlM_effectOn_withCxx, map_eq_ok_iff, harguments] at h'
  obtain ⟨last, hlast, rfl⟩ := h
  obtain ⟨last', hlast', rfl⟩ := h'
  obtain rfl := Except.ok.inj (hlast.symm.trans hlast')
  rfl

/-! ### Lists of files -/

/-- The path of the list of files that the segment reads. -/
def Segment.list? (directory : String) : Segment → Option String
  | unmatched _ => none
  | matched rule _ values =>
    if rule.effect = .fileList then some (Path.under directory (values.headD "")) else none

/-- The lists of files that are read in going through segments: the first that
cannot be read is the last. -/
def listsRead (fs : FileSystem) (directory : String) : List Segment → List String
  | [] => []
  | segment :: rest =>
    match segment.list? directory with
    | none => listsRead fs directory rest
    | some path =>
      path :: if (fs.readText path).isOk then listsRead fs directory rest else []

variable {fs fs' : FileSystem} {directory : String}

theorem Segment.effectOn_of_list?_eq_none {segment : Segment} (h : segment.list? directory = none)
    (c : Classification) :
    segment.effectOn fs' directory c = segment.effectOn fs directory c := by
  cases segment with
  | unmatched token => rfl
  | matched rule flag values =>
    have heffect : rule.effect ≠ .fileList := by
      intro heffect
      simp [Segment.list?, heffect] at h
    simp only [Segment.effectOn, Rule.effectOn]
    cases hrule : rule.effect with
    | fileList => exact absurd hrule heffect
    | _ => rfl

theorem toOption_readFileList (path : String) :
    (readFileList fs directory path).toOption =
      (fs.readText (Path.under directory path)).toOption.map listedFiles := by
  unfold readFileList
  cases hread : fs.readText (Path.under directory path) with
  | error cause => simp [Except.toOption, hread]
  | ok content => simp [Except.toOption, hread]

theorem Rule.effectOn_of_fileList {rule : Rule} (h : rule.effect = .fileList) (flag : String)
    (values : List String) (c : Classification) :
    rule.effectOn fs directory flag values c =
      (readFileList fs directory (values.headD "")).map fun files => { c with files } := by
  unfold Rule.effectOn
  rw [h]

/-- A segment that reads a list puts its files in place of those met before. -/
theorem Segment.toOption_effectOn {segment : Segment} {path : String}
    (h : segment.list? directory = some path) (c : Classification) :
    (segment.effectOn fs directory c).toOption =
      (fs.readText path).toOption.map fun content => { c with files := listedFiles content } := by
  cases segment with
  | unmatched token => cases h
  | matched rule flag values =>
    obtain ⟨heffect, hpath⟩ :
        rule.effect = .fileList ∧ Path.under directory (values.headD "") = path := by
      simpa only [Segment.list?, Option.ite_none_right_eq_some, Option.some.injEq] using h
    rw [Segment.effectOn, rule.effectOn_of_fileList heffect, toOption_map, toOption_readFileList,
      hpath, Option.map_map, Function.comp_def]

theorem toOption_foldlM_effectOn {segments : List Segment}
    (h : ∀ path ∈ listsRead fs directory segments,
      (fs'.readText path).toOption = (fs.readText path).toOption) (c : Classification) :
    (segments.foldlM (Segment.effectOn fs' directory) c).toOption =
      (segments.foldlM (Segment.effectOn fs directory) c).toOption := by
  induction segments generalizing c with
  | nil => rw [List.foldlM_nil, List.foldlM_nil]
  | cons segment rest ih =>
    have hcons (fs : FileSystem) :
        ((segment :: rest).foldlM (Segment.effectOn fs directory) c).toOption =
          (segment.effectOn fs directory c).toOption.bind fun after =>
            (rest.foldlM (Segment.effectOn fs directory) after).toOption := by
      rw [List.foldlM_cons]
      exact toOption_bind _ _
    rw [hcons, hcons]
    cases hlist : segment.list? directory with
    | none =>
      rw [listsRead, hlist] at h
      rw [Segment.effectOn_of_list?_eq_none hlist]
      exact Option.bind_congr fun after _ => ih h after
    | some path =>
      simp only [listsRead, hlist] at h
      rw [Segment.toOption_effectOn hlist, Segment.toOption_effectOn hlist,
        h path List.mem_cons_self]
      -- behind a list that cannot be read, nothing is read any more
      cases hread : fs.readText path with
      | error cause => simp only [Except.toOption, Option.map_none, Option.bind_none]
      | ok content =>
        simp only [hread, Except.isOk, Except.toBool, if_true] at h
        exact ih (fun other hother => h other (List.mem_cons_of_mem path hother)) _

/-- Where the same lists are read, the invocation does the same. -/
theorem toOption_classifyIn {command : List String}
    (h : ∀ path ∈ listsRead fs directory (segments (command.drop 1)),
      (fs'.readText path).toOption = (fs.readText path).toOption) :
    (classifyIn fs' directory command).toOption = (classifyIn fs directory command).toOption := by
  rw [classifyIn_eq_foldlM, classifyIn_eq_foldlM]
  exact toOption_foldlM_effectOn h _

end CompilationDatabase.Compiler
