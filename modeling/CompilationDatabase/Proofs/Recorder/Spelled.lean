/-
Options in any order and spelling, and the build behind them.

Options are written by letters or by names, with their values joined to them or as the
next argument (`Spelling`).  An argument takes the uses that it spells from those to
come and puts them into the options (`readArguments_spelling`); so when all options are
read, they are those that were used, in whatever order (`readArguments_spelled`).

* `parseArguments_spelled` — the options that are spelled are read, and the build behind
  them is kept as it is.
-/
import CompilationDatabase.Proofs.Recorder.Uses

namespace CompilationDatabase.Recorder

/-- A way to write options, in one or two arguments. -/
inductive Spelling where
  /-- The letters of switches, as in `-a` or `-vrv`. -/
  | letters (first : Switch) (others : List Switch)
  /-- The name of a switch, as in `--append`. -/
  | name (option : Switch)
  /-- The letter of the output behind those of switches, and then its value, as in
  `-o FILE` or `-avo FILE`. -/
  | output (before : List Switch) (value : String)
  /-- The value in one argument with the letters, as in `-oFILE`. -/
  | outputJoined (before : List Switch) (value : String)
  /-- The name of an option and then its value, as in `--output FILE`. -/
  | named (option : Valued) (value : String)
  /-- The value behind an equals sign, as in `--output=FILE`. -/
  | namedJoined (option : Valued) (value : String)
deriving DecidableEq, Repr

namespace Spelling

/-- The options used. -/
def uses : Spelling → List Use
  | letters first others => (first :: others).map .switch
  | name option => [.switch option]
  | output before value | outputJoined before value => before.map .switch ++ [.value .output value]
  | named option value | namedJoined option value => [.value option value]

/-- The arguments written. -/
def arguments : Spelling → List String
  | letters first others => [String.ofList ('-' :: (first :: others).map Switch.letter)]
  | name option => ["--" ++ option.flag.name]
  | output before value => [String.ofList ('-' :: (before.map Switch.letter ++ ['o'])), value]
  | outputJoined before value =>
    [String.ofList ('-' :: (before.map Switch.letter ++ 'o' :: value.toList))]
  | named option value => ["--" ++ option.flag.name, value]
  | namedJoined option value => ["--" ++ option.flag.name ++ "=" ++ value]

/-- Whether the value may be written so: an argument of its own does not begin with a
dash, and what is joined to letters is made of letters of options. -/
def Fits : Spelling → Prop
  | output _ value | named _ value => value.toList.head? ≠ some '-'
  | outputJoined _ value => ∀ c ∈ value.toList, (Flag.ofLetter? c).isSome
  | letters .. | name _ | namedJoined .. => True

end Spelling

/-! ### What an argument is -/

theorem Switch.ofLetter?_letter (option : Switch) :
    Flag.ofLetter? option.letter = some option.flag := by
  cases option <;> rfl

/-- Letters of options behind a dash are a cluster of them. -/
theorem Reading.of_letters {letters : List Char} (hne : letters ≠ [])
    (hknown : ∀ c ∈ letters, (Flag.ofLetter? c).isSome) :
    Reading.of (String.ofList ('-' :: letters)) = .cluster letters := by
  obtain ⟨first, others, rfl⟩ := List.exists_cons_of_ne_nil hne
  have hfirst : first ≠ '-' := by
    rintro rfl
    exact absurd (hknown '-' List.mem_cons_self) (by decide)
  have hall : (first :: others).any (Flag.ofLetter? · |>.isNone) = false := by
    rw [List.any_eq_false]
    intro c hc
    simp [Option.isSome_iff_ne_none.mp (hknown c hc)]
  rw [Reading.of, String.toList_ofList]
  simp [hfirst, hall]

theorem Reading.of_name (flag : Flag) : Reading.of ("--" ++ flag.name) = .long flag none := by
  cases flag <;> decide +kernel

/-- The name of an option ends at the first equals sign. -/
theorem Reading.of_name_joined (flag : Flag) (value : String) :
    Reading.of ("--" ++ flag.name ++ "=" ++ value) = .long flag (some value) := by
  have hname : flag.name.toList.all (· ≠ '=') = true := by
    cases flag <;> decide +kernel
  have hflag : Flag.ofName? flag.name = some flag := by
    cases flag <;> decide +kernel
  have hne : flag.name.toList ++ '=' :: value.toList ≠ [] := by simp
  have htake : (flag.name.toList ++ '=' :: value.toList).takeWhile (· ≠ '=') =
      flag.name.toList := by
    rw [List.takeWhile_append_of_pos (List.all_eq_true.mp hname)]
    simp
  have hdrop : (flag.name.toList ++ '=' :: value.toList).dropWhile (· ≠ '=') =
      '=' :: value.toList := by
    rw [List.dropWhile_append_of_pos (List.all_eq_true.mp hname)]
    simp
  have htext : ("--" ++ flag.name ++ "=" ++ value).toList =
      '-' :: '-' :: (flag.name.toList ++ '=' :: value.toList) := by simp
  -- the name is not empty, so the argument is not the two dashes alone
  obtain ⟨c, text, hcons⟩ := List.exists_cons_of_ne_nil hne
  rw [hcons] at htake hdrop htext
  rw [Reading.of, htext]
  simp only [htake, hdrop, String.ofList_toList, hflag]

theorem Reading.of_plain {argument : String} (h : argument.toList.head? ≠ some '-') :
    Reading.of argument = .other := by
  rw [Reading.of]
  cases htext : argument.toList with
  | nil => rfl
  | cons c text =>
    have hc : c ≠ '-' := fun heq => h (by rw [htext, heq]; rfl)
    simp [hc]

/-! ### Reading what is spelled -/

variable {o p : Options} {later : List Use}

/-- In a cluster, the letters of switches are taken one after the other. -/
theorem Options.takeCluster_switches (hp : p.IsGivable) {before : List Switch}
    (h : (o.uses ++ (before.map Use.switch ++ later)).Perm p.uses) (letters : List Char) :
    ∃ o' : Options, (o'.uses ++ later).Perm p.uses ∧
      o.takeCluster (before.map Switch.letter ++ letters) = o'.takeCluster letters := by
  induction before generalizing o with
  | nil => exact ⟨o, h, rfl⟩
  | cons option before ih =>
    obtain ⟨next, htake, hnext⟩ := Options.take_of_perm hp h
    obtain ⟨o', hperm, hrest⟩ := ih hnext
    refine ⟨o', hperm, ?_⟩
    have hvalue : option.flag.takesValue = false := by cases option <;> rfl
    rw [List.map_cons, List.cons_append, Options.takeCluster, Switch.ofLetter?_letter]
    simp only [hvalue, Bool.false_and, Bool.false_eq_true, if_false, htake]
    exact hrest

theorem Options.takeCluster_output (o : Options) :
    o.takeCluster ['o'] = .ok (.value o Valued.output.flag) := rfl

/-- What is joined to the letter of the output is its value. -/
theorem Options.takeCluster_output_joined {value : String} {o' : Options}
    (h : o.setValue Valued.output.flag value = .ok o') :
    o.takeCluster ('o' :: value.toList) = .ok (.next o') := by
  have hne : value.toList.isEmpty = false := by
    cases htext : value.toList with
    | nil =>
      -- the empty value was refused
      obtain rfl : value = "" := String.toList_eq_nil_iff.mp htext
      cases h
    | cons c text => rfl
  have hletter : Flag.ofLetter? 'o' = some .output := rfl
  rw [Options.takeCluster, hletter]
  simp only [Flag.takesValue, hne, Bool.not_false, Bool.and_self, if_true, String.ofList_toList]
  rw [show Flag.output = Valued.output.flag from rfl, h]
  rfl

/-- How the reading goes on with the arguments that follow. -/
def Progress.read (rest : List String) : Progress → Except UsageError Request
  | next o => readArguments o none rest
  | value o flag => readArguments o (some flag) rest
  | done request => .ok request

section

variable {argument : String} {flag : Flag} {letters : List Char} {progress : Progress}

theorem readArguments_of_name (hreading : Reading.of argument = .long flag none)
    (htake : o.take flag = .ok progress) (rest : List String) :
    readArguments o none (argument :: rest) = progress.read rest := by
  rw [readArguments.eq_def]
  simp only [hreading, htake]
  rfl

theorem readArguments_of_cluster (hreading : Reading.of argument = .cluster letters)
    (htake : o.takeCluster letters = .ok progress) (rest : List String) :
    readArguments o none (argument :: rest) = progress.read rest := by
  rw [readArguments.eq_def]
  simp only [hreading, htake]
  rfl

theorem readArguments_of_name_joined {option : Valued} {value : String} {o' : Options}
    (hreading : Reading.of argument = .long option.flag (some value))
    (hset : o.setValue option.flag value = .ok o') (rest : List String) :
    readArguments o none (argument :: rest) = readArguments o' none rest := by
  have htakes : option.flag.takesValue = true := by cases option <;> rfl
  rw [readArguments.eq_def]
  simp only [hreading, htakes, if_true, hset]
  rfl

/-- The value that an option waits for is the next argument. -/
theorem Progress.read_value {value : String} {o' : Options}
    (hvalue : value.toList.head? ≠ some '-') (hset : o.setValue flag value = .ok o')
    (rest : List String) :
    (Progress.value o flag).read (value :: rest) = readArguments o' none rest := by
  rw [Progress.read, readArguments.eq_def]
  simp only [Reading.of_plain hvalue, hset]
  rfl

end

theorem isSome_ofLetter? (before : List Switch) {letters : List Char}
    (h : ∀ c ∈ letters, (Flag.ofLetter? c).isSome) :
    ∀ c ∈ before.map Switch.letter ++ letters, (Flag.ofLetter? c).isSome := by
  intro c hc
  rcases List.mem_append.mp hc with hc | hc
  · obtain ⟨option, -, rfl⟩ := List.mem_map.mp hc
    rw [Switch.ofLetter?_letter]
    rfl
  · exact h c hc

/-- The arguments of a spelling put its uses into the options. -/
theorem readArguments_spelling {spelling : Spelling} (hp : p.IsGivable) (hfits : spelling.Fits)
    (h : (o.uses ++ (spelling.uses ++ later)).Perm p.uses) :
    ∃ o' : Options, (o'.uses ++ later).Perm p.uses ∧ ∀ rest,
      readArguments o none (spelling.arguments ++ rest) = readArguments o' none rest := by
  cases spelling with
  | letters first others =>
    obtain ⟨o', hperm, hcluster⟩ := Options.takeCluster_switches hp h []
    rw [List.append_nil] at hcluster
    have hknown := isSome_ofLetter? (first :: others) (List.forall_mem_nil _)
    rw [List.append_nil] at hknown
    exact ⟨o', hperm, readArguments_of_cluster (Reading.of_letters (by simp) hknown) hcluster⟩
  | name option =>
    obtain ⟨o', htake, hperm⟩ := Options.take_of_perm hp h
    exact ⟨o', hperm, readArguments_of_name (Reading.of_name option.flag) htake⟩
  | output before value =>
    rw [Spelling.uses, List.append_assoc] at h
    obtain ⟨next, hnext, hcluster⟩ := Options.takeCluster_switches hp h ['o']
    obtain ⟨o', hset, hperm⟩ := Options.setValue_of_perm hp hnext
    have hknown : ∀ c ∈ ['o'], (Flag.ofLetter? c).isSome := List.forall_mem_singleton.mpr rfl
    have hreading := Reading.of_letters (by simp) (isSome_ofLetter? before hknown)
    have htake := hcluster.trans (Options.takeCluster_output next)
    refine ⟨o', hperm, fun rest => ?_⟩
    exact (readArguments_of_cluster hreading htake _).trans (Progress.read_value hfits hset rest)
  | outputJoined before value =>
    rw [Spelling.uses, List.append_assoc] at h
    obtain ⟨next, hnext, hcluster⟩ := Options.takeCluster_switches hp h ('o' :: value.toList)
    obtain ⟨o', hset, hperm⟩ := Options.setValue_of_perm hp hnext
    have hknown : ∀ c ∈ 'o' :: value.toList, (Flag.ofLetter? c).isSome :=
      List.forall_mem_cons.mpr ⟨rfl, hfits⟩
    have hreading := Reading.of_letters (by simp) (isSome_ofLetter? before hknown)
    have htake := hcluster.trans (Options.takeCluster_output_joined hset)
    exact ⟨o', hperm, readArguments_of_cluster hreading htake⟩
  | named option value =>
    obtain ⟨o', hset, hperm⟩ := Options.setValue_of_perm hp h
    have htake : o.take option.flag = .ok (.value o option.flag) := by cases option <;> rfl
    have hname := readArguments_of_name (Reading.of_name option.flag) htake
    exact ⟨o', hperm, fun rest => (hname _).trans (Progress.read_value hfits hset rest)⟩
  | namedJoined option value =>
    obtain ⟨o', hset, hperm⟩ := Options.setValue_of_perm hp h
    exact ⟨o', hperm, readArguments_of_name_joined (Reading.of_name_joined option.flag value) hset⟩

/-- The arguments of all spellings give the options, whatever follows. -/
theorem readArguments_spelled {spelled : List Spelling} (hp : p.IsGivable)
    (hfits : ∀ spelling ∈ spelled, spelling.Fits)
    (h : (o.uses ++ spelled.flatMap Spelling.uses).Perm p.uses) (rest : List String) :
    readArguments o none (spelled.flatMap Spelling.arguments ++ rest) =
      readArguments p none rest := by
  -- what one spelling puts into the options, the others no longer have to
  induction spelled generalizing o with
  | nil =>
    rw [List.flatMap_nil, List.append_nil] at h
    rw [Options.eq_of_uses_perm h]
    rfl
  | cons spelling spelled ih =>
    obtain ⟨hspelling, hspelled⟩ := List.forall_mem_cons.mp hfits
    obtain ⟨next, hnext, hread⟩ := readArguments_spelling hp hspelling h
    rw [List.flatMap_cons, List.append_assoc, hread, ih hspelled hnext]

/-- **Options are read in any order and spelling, and the build behind them is kept as it
is.**  The build begins behind two dashes, or at once if its first argument does not begin
with a dash; what it holds is never taken for an option. -/
theorem parseArguments_spelled {options : Options} {spelled : List Spelling}
    (hoptions : options.IsGivable) (hfits : ∀ spelling ∈ spelled, spelling.Fits)
    (hspelled : (spelled.flatMap Spelling.uses).Perm options.uses) (first : String)
    (others : List String) :
    parseArguments (spelled.flatMap Spelling.arguments ++ "--" :: first :: others) =
        .ok (.record options (first :: others)) ∧
      (first.toList.head? ≠ some '-' →
        parseArguments (spelled.flatMap Spelling.arguments ++ first :: others) =
          .ok (.record options (first :: others))) := by
  have hread := readArguments_spelled (o := {}) hoptions hfits hspelled
  refine ⟨?_, fun hfirst => ?_⟩
  · rw [parseArguments, hread, readArguments.eq_def]
    rfl
  · rw [parseArguments, hread, readArguments.eq_def]
    simp only [Reading.of_plain hfirst]

/-- A build that begins with an empty argument, and whose other arguments look like
options. -/
theorem parseArguments_spelled_mixed :
    let options : Options :=
      { output := some "db.json", append := true, verbosity := 3, library := some "--raw=x" }
    let build := ["", "-o", "--", "-a", "--library"]
    options.IsGivable ∧
      parseArguments (["-vav", "--library=--raw=x", "--verbose", "-o", "db.json", "--"] ++ build) =
        .ok (.record options build) ∧
      parseArguments (["-vav", "--library=--raw=x", "--verbose", "-o", "db.json"] ++ build) =
        .ok (.record options build) := by
  intro options build
  let spelled : List Spelling :=
    [.letters .verbose [.append, .verbose], .namedJoined .library "--raw=x", .name .verbose,
      .output [] "db.json"]
  have hoptions : options.IsGivable :=
    ⟨by rintro (_ | _) <;> decide, by rintro (_ | _ | _ | _) <;> decide⟩
  have hfits : ∀ spelling ∈ spelled, spelling.Fits := by simp [spelled, Spelling.Fits]
  have hspelled : (spelled.flatMap Spelling.uses).Perm options.uses := by decide +kernel
  have harguments : spelled.flatMap Spelling.arguments =
      ["-vav", "--library=--raw=x", "--verbose", "-o", "db.json"] := by decide +kernel
  obtain ⟨hdashes, hplain⟩ :=
    parseArguments_spelled hoptions hfits hspelled "" ["-o", "--", "-a", "--library"]
  rw [harguments] at hdashes hplain
  exact ⟨hoptions, hdashes, hplain (by decide)⟩

end CompilationDatabase.Recorder
