/-
How a whole run ends.

A run makes a directory for the traces, runs the build, makes the database and
takes the directory away again.  The build may do anything to the files.  Its
name being new, the directory itself can be seen neither where the database is
nor where the run started (`Scratch`), so the database is in the end what the run
made of it, or else what the build left.

* `Scratch.lookup_cleared`, `Scratch.read_cleared` — what is at the path of the
  database is the same with and without the directory;
* `record_ends` — the exit code, the error shown and the database of a run,
  whether the build cannot be started, the database is made or it cannot be made.
-/
import CompilationDatabase.Recorder.Run
import CompilationDatabase.Proofs.FileSystem.Scratch
import CompilationDatabase.Proofs.Recorder.Appended
import CompilationDatabase.Proofs.Recorder.Preserved

namespace CompilationDatabase.Recorder

open FileSystem

/-- The directory for the traces was made under a name that neither the path of the
database nor the working directory holds. -/
structure Scratch (fs : FileSystem) (scratch output : String) (prepared : FileSystem) : Prop where
  made : fs.makeDirectory scratch = .ok prepared
  fresh : ∀ t, fs.target scratch = .ok t →
    t.name ∉ Path.pieces output ∧ t.name ∉ fs.workingDirectory

namespace Scratch

variable {fs prepared files : FileSystem} {scratch output : String}

theorem workingDirectory (h : Scratch fs scratch output prepared) :
    prepared.workingDirectory = fs.workingDirectory := by
  obtain ⟨t, -, -, -, -, rfl⟩ := makeDirectory_eq_ok_iff.mp h.made
  rfl

/-- Making the directory is not seen at the path of the database. -/
theorem lookup_prepared (h : Scratch fs scratch output prepared) :
    prepared.lookup output = fs.lookup output := by
  obtain ⟨t, ht, -⟩ := makeDirectory_eq_ok_iff.mp h.made
  obtain ⟨houtput, hdirectory⟩ := h.fresh t ht
  exact (agreeOn_makeDirectory h.made ht hdirectory).lookup fun piece hpiece heq =>
    houtput (heq ▸ hpiece)

/-- Nor is taking it away, whatever the files are by then. -/
theorem lookup_cleared (h : Scratch fs scratch output prepared)
    (hsame : files.workingDirectory = fs.workingDirectory) :
    (cleared scratch files).lookup output = files.lookup output := by
  obtain ⟨t, ht, -⟩ := makeDirectory_eq_ok_iff.mp h.made
  obtain ⟨houtput, hdirectory⟩ := h.fresh t ht
  exact (agreeOn_cleared h.made ht hdirectory hsame).lookup fun piece hpiece heq =>
    houtput (heq ▸ hpiece)

theorem read_cleared (h : Scratch fs scratch output prepared)
    (hsame : files.workingDirectory = fs.workingDirectory) :
    (cleared scratch files).read output = files.read output := by
  rw [FileSystem.read, FileSystem.read, h.lookup_cleared hsame]

end Scratch

/-! ### The steps of a run -/

variable {platform : Platform} {fs prepared : FileSystem} {scratch : String} {options : Options}
  {environment : Environment}

/-- The library that the build is to be run with. -/
def libraryFor (options : Options) (environment : Environment) : String :=
  options.library.getD (libraryOf environment)

/-- The environment that the build is run with. -/
def buildEnvironment (options : Options) (scratch : String) (environment : Environment)
    (prepared : FileSystem) : Environment :=
  environment.setAll (recordingVariables prepared (libraryFor options environment) scratch
    (environment.nonEmpty? preloadVariable))

/-- The files that the build has left, seen from where the run was started. -/
def leftBy (ended : Ended) (fs : FileSystem) : FileSystem :=
  { ended.files with workingDirectory := fs.workingDirectory }

/-- The log of the run. -/
def logOf (format : Log.Format) (options : Options) (environment : Environment) : Log :=
  format.opened (logLevel options.verbosity) (logFilter? environment)

/-- What is on standard error before the build writes there. -/
def announced (format : Log.Format) (options : Options) (build : List String)
    (environment : Environment) (prepared : FileSystem) : String :=
  let log := logOf format options environment
  log.notice ++ log.lines 0 (startLog prepared (libraryFor options environment) build)

/-- What is on standard error when the database is made or cannot be made, from the files
that the build has left. -/
def said (format : Log.Format) (scratch : String) (options : Options) (build : List String)
    (environment : Environment) (prepared : FileSystem) (ended : Ended) (left : FileSystem) :
    String :=
  let early := startLog prepared (libraryFor options environment) build
  announced format options build environment prepared ++ ended.stderr ++
    (logOf format options environment).lines early.length
      (endLog ended.status.code left scratch options.settings)

/-- How a run ends in trouble. -/
def endedBy (trouble : Trouble) (files : FileSystem) (stdout said : String) : Outcome where
  code := trouble.ending.1
  files := files
  stdout := stdout
  stderr := said ++ errorLine trouble.ending.2

theorem record_of_no_build (h : fs.makeDirectories scratch = .ok prepared) :
    record platform scratch options [] environment fs =
      endedBy { cause := .exit unstartedCode "no build command given" } (cleared scratch prepared)
        "" (announced platform.format options [] environment prepared) := by
  unfold record
  rw [h]
  rfl

section

variable {program : String} {arguments : List String}

theorem record_of_unstarted {cause : FileError} (h : fs.makeDirectories scratch = .ok prepared)
    (hlaunch : platform.launch (program :: arguments)
      (buildEnvironment options scratch environment prepared) prepared = .error cause) :
    record platform scratch options (program :: arguments) environment fs =
      endedBy { cause := .exit unstartedCode ("cannot run " ++ program ++ ": " ++ cause.message) }
        (cleared scratch prepared) ""
        (announced platform.format options (program :: arguments) environment prepared) := by
  rw [buildEnvironment, libraryFor] at hlaunch
  unfold record
  rw [h]
  simp only [runBuild, hlaunch]
  rfl

theorem record_of_ended {ended : Ended} (h : fs.makeDirectories scratch = .ok prepared)
    (hlaunch : platform.launch (program :: arguments)
      (buildEnvironment options scratch environment prepared) prepared = .ok ended) :
    record platform scratch options (program :: arguments) environment fs =
      let left := leftBy ended prepared
      let said :=
        said platform.format scratch options (program :: arguments) environment prepared ended left
      match generate left scratch options.settings with
      | (.ok _, files) =>
        { code := ended.status.code
          files := cleared scratch files
          stdout := ended.stdout
          stderr := said }
      | (.error failure, files) =>
        endedBy (failure.trouble platform.refusal options.settings.output) (cleared scratch files)
          ended.stdout said := by
  rw [buildEnvironment, libraryFor] at hlaunch
  unfold record
  rw [h]
  simp only [runBuild, hlaunch]
  rfl

end

/-- The line shown if the build cannot be started. -/
theorem errorLine_unstarted (program : String) (cause : FileError) :
    let message := "cannot run " ++ program ++ ": " ++ cause.message
    errorLine (Trouble.ending { cause := .exit unstartedCode message }).2 =
      "cdb: cannot run " ++ program ++ ": " ++ cause.message ++ "\n" := by
  intro message
  have hne : message.isEmpty = false := by simp [message]
  simp only [Trouble.ending, hne, Bool.false_eq_true, if_false, errorLine, message]
  simp only [← String.append_assoc, String.reduceAppend]

/-- The line shown if the database cannot be made: what was being done, what went wrong,
and once more why. -/
theorem errorLine_failure (failure : Failure) (refusal : String → String) (output : String) :
    errorLine (failure.trouble refusal output).ending.2 = "cdb: cannot write " ++ output ++ ": " ++
      failure.message refusal ++ ": " ++ failure.cause refusal ++ "\n" := by
  show "cdb: " ++ ": ".intercalate ["cannot write " ++ output, failure.message refusal,
    failure.cause refusal] ++ "\n" = _
  simp only [String.intercalate_cons_cons, String.intercalate_singleton]
  simp only [← String.append_assoc, String.reduceAppend]

theorem workingDirectory_generate (fs : FileSystem) (traces : String) (settings : Settings) :
    (generate fs traces settings).2.workingDirectory = fs.workingDirectory := by
  rcases hgenerate : generate fs traces settings with ⟨failure | summary, after⟩
  · rcases generate_eq_error hgenerate with ⟨-, rfl⟩ | ⟨d, fault, -, hsave, -⟩
    · rfl
    · exact (Database.unchangedBut_of_save_error hsave).2.1.workingDirectory
  · obtain ⟨d, -, hsave, -⟩ := generate_eq_ok_iff.mp hgenerate
    exact (Database.unchangedBut_of_save hsave).1.workingDirectory

/-! ### How a run ends -/

section

variable {program : String} {arguments : List String} {ended : Ended} {written : FileSystem}

theorem Scratch.leftBy_prepared (h : Scratch fs scratch options.settings.output prepared)
    (ended : Ended) : leftBy ended prepared = leftBy ended fs := by
  rw [leftBy, leftBy, h.workingDirectory]

/-- If the build is not run, the directory comes and goes and nothing else happens. -/
theorem Scratch.untouched (h : Scratch fs scratch options.settings.output prepared) :
    (cleared scratch prepared).lookup options.settings.output =
      fs.lookup options.settings.output :=
  (h.lookup_cleared h.workingDirectory).trans h.lookup_prepared

theorem record_unstarted {cause : FileError}
    (h : Scratch fs scratch options.settings.output prepared)
    (hlaunch : platform.launch (program :: arguments)
      (buildEnvironment options scratch environment prepared) prepared = .error cause) :
    let outcome := record platform scratch options (program :: arguments) environment fs
    outcome.code = 127 ∧
      outcome.stderr =
        announced platform.format options (program :: arguments) environment prepared ++
          ("cdb: cannot run " ++ program ++ ": " ++ cause.message ++ "\n") ∧
      outcome.files.lookup options.settings.output = fs.lookup options.settings.output := by
  intro outcome
  have houtcome : outcome = _ :=
    record_of_unstarted (makeDirectories_of_makeDirectory h.made) hlaunch
  rw [houtcome]
  exact ⟨rfl, congrArg (_ ++ ·) (errorLine_unstarted program cause), h.untouched⟩

theorem record_made {summary : Summary} (h : Scratch fs scratch options.settings.output prepared)
    (hlaunch : platform.launch (program :: arguments)
      (buildEnvironment options scratch environment prepared) prepared = .ok ended)
    (hgenerate : generate (leftBy ended fs) scratch options.settings = (.ok summary, written)) :
    let outcome := record platform scratch options (program :: arguments) environment fs
    outcome.code = ended.status.code ∧ outcome.stdout = ended.stdout ∧
      outcome.stderr = said platform.format scratch options (program :: arguments) environment
        prepared ended (leftBy ended fs) ∧
      ∃ d, draft (leftBy ended fs) scratch options.settings = .ok d ∧
        written.read options.settings.output = .ok (Database.contentOf d.entries) ∧
        outcome.files.read options.settings.output = .ok (Database.contentOf d.entries) := by
  intro outcome
  have houtcome : outcome = _ := record_of_ended (makeDirectories_of_makeDirectory h.made) hlaunch
  have hwritten := workingDirectory_generate (leftBy ended fs) scratch options.settings
  simp only [h.leftBy_prepared, hgenerate] at houtcome
  rw [hgenerate] at hwritten
  obtain ⟨d, hdraft, hsave, -⟩ := generate_eq_ok_iff.mp hgenerate
  have hread := Database.read_save hsave
  rw [houtcome]
  exact ⟨rfl, rfl, rfl, d, hdraft, hread, (h.read_cleared hwritten).trans hread⟩

theorem record_unmade {failure : Failure}
    (h : Scratch fs scratch options.settings.output prepared)
    (hlaunch : platform.launch (program :: arguments)
      (buildEnvironment options scratch environment prepared) prepared = .ok ended)
    (hgenerate : generate (leftBy ended fs) scratch options.settings = (.error failure, written)) :
    let outcome := record platform scratch options (program :: arguments) environment fs
    outcome.code = 70 ∧ outcome.stdout = ended.stdout ∧
      outcome.stderr = said platform.format scratch options (program :: arguments) environment
          prepared ended (leftBy ended fs) ++
        ("cdb: cannot write " ++ options.settings.output ++ ": " ++
          failure.message platform.refusal ++ ": " ++ failure.cause platform.refusal ++ "\n") ∧
      (outcome.files.lookup options.settings.output).toOption =
        ((leftBy ended fs).lookup options.settings.output).toOption := by
  intro outcome
  have houtcome : outcome = _ := record_of_ended (makeDirectories_of_makeDirectory h.made) hlaunch
  have hwritten := workingDirectory_generate (leftBy ended fs) scratch options.settings
  simp only [h.leftBy_prepared, hgenerate] at houtcome
  rw [hgenerate] at hwritten
  -- a run that fails leaves the database as it was
  have hkept : (written.lookup options.settings.output).toOption =
      ((leftBy ended fs).lookup options.settings.output).toOption := by
    rcases generate_eq_error hgenerate with ⟨-, rfl⟩ | ⟨d, fault, -, hsave, -⟩
    · rfl
    · exact (Database.unchangedBut_of_save_error hsave).1
  have hline := errorLine_failure failure platform.refusal options.settings.output
  rw [houtcome]
  refine ⟨rfl, rfl, congrArg (_ ++ ·) hline, ?_⟩
  rw [← hkept]
  exact congrArg Except.toOption (h.lookup_cleared hwritten)

/-- **How a run ends.**  If there is no build or it cannot be started, the exit code
is 127 and the database is as it was.  Otherwise the database is made of the traces
that the build has left, however the build ended: if that succeeds, the exit code is
that of the build, and if it fails, the exit code is 70, the error is shown, and the
database is as the build has left it.  On standard error stands nothing but the lines of
the log, what the build has written there and, behind both, the error. -/
theorem record_ends (h : Scratch fs scratch options.settings.output prepared)
    (platform : Platform) (build : List String) (environment : Environment) :
    let output := options.settings.output
    let log := platform.format.opened (logLevel options.verbosity) (logFilter? environment)
    let early := startLog prepared (options.library.getD (libraryOf environment)) build
    let announced := log.notice ++ log.lines 0 early
    let outcome := record platform scratch options build environment fs
    match build with
    | [] =>
      outcome.code = 127 ∧ outcome.stderr = announced ++ "cdb: no build command given\n" ∧
        outcome.files.lookup output = fs.lookup output
    | program :: arguments =>
      match platform.launch (program :: arguments)
        (buildEnvironment options scratch environment prepared) prepared with
      | .error cause =>
        outcome.code = 127 ∧
          outcome.stderr =
            announced ++ ("cdb: cannot run " ++ program ++ ": " ++ cause.message ++ "\n") ∧
          outcome.files.lookup output = fs.lookup output
      | .ok ended =>
        let left := leftBy ended fs
        let late := .finished ended.status.code :: generateLog left scratch options.settings
        let said := announced ++ ended.stderr ++ log.lines early.length late
        match generate left scratch options.settings with
        | (.ok _, written) =>
          outcome.code = (match ended.status with
            | .exited k => k
            | .killed n => 128 + n) ∧
          outcome.stdout = ended.stdout ∧ outcome.stderr = said ∧
          ∃ d, draft left scratch options.settings = .ok d ∧
            written.read output = .ok (Database.contentOf d.entries) ∧
            outcome.files.read output = .ok (Database.contentOf d.entries)
        | (.error failure, _) =>
          outcome.code = 70 ∧ outcome.stdout = ended.stdout ∧
          outcome.stderr = said ++ ("cdb: cannot write " ++ output ++ ": " ++
            failure.message platform.refusal ++ ": " ++ failure.cause platform.refusal ++ "\n") ∧
          (outcome.files.lookup output).toOption = (left.lookup output).toOption := by
  intro output log early announced outcome
  cases build with
  | nil =>
    have houtcome : outcome = _ := record_of_no_build (makeDirectories_of_makeDirectory h.made)
    rw [houtcome]
    exact ⟨rfl, rfl, h.untouched⟩
  | cons program arguments =>
    dsimp only
    split
    · rename_i cause hlaunch
      exact record_unstarted h hlaunch
    · rename_i ended hlaunch
      split
      · rename_i summary written hgenerate
        obtain ⟨hcode, hrest⟩ := record_made h hlaunch hgenerate
        refine ⟨hcode.trans ?_, hrest⟩
        cases ended.status <;> rfl
      · rename_i failure written hgenerate
        exact record_unmade h hlaunch hgenerate

end

/-! ### Four runs -/

/-- The options that name a database. -/
def naming (output : String) : Options := { output := some output }

/-- The sample files with a trace of the process in the directory. -/
def tracedFiles : FileSystem :=
  (sampleFiles.insert ["cdb-1"] .directory).insert ["cdb-1", "1"] (.file compiling.encode.toUTF8)

/-- A build that leaves the trace and is killed. -/
def interrupted : Launcher := fun _ _ _ => .ok { status := .killed 9, files := tracedFiles }

/-- A build that says something, and does nothing else, and well. -/
def idle : Launcher := fun _ _ files =>
  .ok { status := .exited 0, files := files, stderr := "done\n" }

/-- What runs the build, lines of the log with times, and why a lone bracket is refused. -/
def platformWith (launch : Launcher) : Platform where
  launch := launch
  format := .plain fun before => "2026-01-01T00:00:00.00000" ++ toString before ++ "Z"
  refusal _ := "EOF while parsing a list at line 1 column 1"

theorem scratch_of_target {fs : FileSystem} {output : String} (h : "cdb-1" ∉ Path.pieces output)
    (htarget : fs.target "cdb-1" = .ok ⟨[], "cdb-1", false⟩)
    (hfree : fs.node? ["cdb-1"] = none) (hroot : fs.workingDirectory = []) :
    Scratch fs "cdb-1" output (fs.insert ["cdb-1"] .directory) := by
  refine ⟨makeDirectory_eq_ok_iff.mpr ⟨_, htarget, by decide, by decide, ?_, rfl⟩, fun t ht => ?_⟩
  · exact hfree
  · obtain rfl := Except.ok.inj (htarget.symm.trans ht)
    rw [hroot]
    exact ⟨h, List.not_mem_nil⟩

theorem ready_tracedFiles :
    Database.Ready tracedFiles "db.json" ⟨[], "db.json.tmp", false⟩ ⟨[], "db.json", false⟩ where
  target_temporary := rfl
  target_goal := rfl
  writable_temporary := ⟨by decide, by decide, by decide, by decide⟩
  writable_goal := ⟨by decide, by decide, by decide, by decide⟩

theorem traceFiles_tracedFiles : traceFiles tracedFiles "cdb-1" = .ok ["cdb-1/1"] := by
  have hlist : tracedFiles.list "cdb-1" = .ok [("1", .file compiling.encode.toUTF8)] := rfl
  have hpath : Path.under "cdb-1" "1" = "cdb-1/1" := by decide
  rw [traceFiles_of_list hlist, hpath]

theorem draft_tracedFiles : ∃ collection,
    draft tracedFiles "cdb-1" (naming "db.json").settings = .ok ⟨collection, [freshEntry]⟩ := by
  obtain ⟨files, hfiles, hfresh⟩ := collects_compiling traceFiles_tracedFiles rfl
  have hpresent : tracedFiles.contains freshEntry.file = true := by decide
  have hkept : assembled tracedFiles false [] [freshEntry] = [freshEntry] := by
    rw [assembled_false, List.nil_append, firsts_cons_of_present hpresent]
    rfl
  refine ⟨collect tracedFiles files false,
    draft_eq_ok_iff_assembled.mpr ⟨files, [], hfiles, rfl, ?_⟩⟩
  show _ = Draft.mk _ (assembled tracedFiles false [] (collect tracedFiles files false).entries)
  rw [hfresh, hkept]
  rfl

/-- A directory takes no database. -/
theorem generate_ne_ok {fs after : FileSystem} {traces : String} {settings : Settings}
    {summary : Summary} {t : Target} (ht : fs.target settings.output = .ok t)
    (hdirectory : fs.node? t.location = some .directory) :
    generate fs traces settings ≠ (.ok summary, after) := by
  intro hgenerate
  obtain ⟨d, -, hsave, -⟩ := generate_eq_ok_iff.mp hgenerate
  obtain ⟨temporary, goal, hready, -⟩ := Database.save_eq_ok_iff.mp hsave
  obtain rfl := Except.ok.inj (ht.symm.trans hready.target_goal)
  exact hready.writable_goal.free hdirectory

/-- The sample files with a database that was cut off. -/
def cutFiles : FileSystem := sampleFiles.insert ["cut.json"] (.file "[".toUTF8)

/-- The same with the directory for the traces, which a build leaves empty. -/
def cutLeft : FileSystem := cutFiles.insert ["cdb-1"] .directory

/-- The options that extend the database that was cut off. -/
def mending : Options := { naming "cut.json" with append := true }

theorem readText_cutLeft : cutLeft.readText "cut.json" = .ok "[" := readText_of_read rfl

theorem parseEntries?_cut : parseEntries? "[" = none := by decide +kernel

theorem traceFiles_cutLeft : traceFiles cutLeft "cdb-1" = .ok [] := by
  have hlist : cutLeft.list "cdb-1" = .ok [] := rfl
  rw [traceFiles, hlist]
  simp

theorem prior_cutLeft :
    prior cutLeft mending.settings = .error (.database (.malformed "cut.json" "[")) := by
  have hload : Database.load cutLeft "cut.json" = .error (.malformed "cut.json" "[") := by
    rw [Database.load, readText_cutLeft]
    simp only [parseEntries?_cut]
  rw [prior, if_pos (show mending.settings.append = true from rfl)]
  show (Database.load cutLeft "cut.json").mapError _ = _
  rw [hload]
  rfl

theorem generate_cutLeft : generate cutLeft "cdb-1" mending.settings =
    (.error (.database (.malformed "cut.json" "[")), cutLeft) := by
  have hdraft : draft cutLeft "cdb-1" mending.settings =
      .error (.database (.malformed "cut.json" "[")) := by
    rw [draft_eq_bind, traceFiles_cutLeft, prior_cutLeft]
    rfl
  rw [generate, hdraft]

theorem generateLog_cutLeft :
    generateLog cutLeft "cdb-1" mending.settings = [.linksDropped 0] := by
  have hload : Database.loadLog cutLeft mending.settings.output = [] := by
    show Database.loadLog cutLeft "cut.json" = []
    rw [Database.loadLog, readText_cutLeft]
    simp only [parseEntries?_cut]
  rw [generateLog, traceFiles_cutLeft]
  dsimp only
  rw [databaseLog, prior_cutLeft, hload]
  rfl

/-- The line for the library, which is missing in all runs. -/
def missingLine : String :=
  "2026-01-01T00:00:00.000000Z  WARN interception library not found, " ++
    "no commands will be recorded library=/usr/local/lib/libear.so\n"

/-- A build that is not found, one that is killed, and two that end well but for the
database: one is a directory, and one was cut off. -/
theorem record_ends_sampleFiles :
    (let outcome := record (platformWith fun _ _ _ => .error .noSuchFile) "cdb-1" (naming "db.json")
        ["make"] [] sampleFiles;
      outcome.code = 127 ∧ outcome.stderr = missingLine ++
        "cdb: cannot run make: No such file or directory (os error 2)\n") ∧
    (let outcome := record (platformWith interrupted) "cdb-1" (naming "db.json") ["make"] []
        sampleFiles;
      outcome.code = 137 ∧
        outcome.files.read "db.json" = .ok (Database.contentOf [freshEntry])) ∧
    (record (platformWith idle) "cdb-1" (naming "twice") ["make"] [] sampleFiles).code = 70 ∧
    (let outcome := record (platformWith idle) "cdb-1" mending ["make"] [] cutFiles;
      outcome.code = 70 ∧ outcome.stderr = missingLine ++ "done\n" ++
        "cdb: cannot write cut.json: malformed compilation database cut.json: " ++
          "EOF while parsing a list at line 1 column 1: " ++
            "EOF while parsing a list at line 1 column 1\n") := by
  have hdatabase : Scratch sampleFiles "cdb-1" (naming "db.json").settings.output _ :=
    scratch_of_target (by decide) rfl rfl rfl
  have hdirectory : Scratch sampleFiles "cdb-1" (naming "twice").settings.output _ :=
    scratch_of_target (by decide) rfl rfl rfl
  have hcut : Scratch cutFiles "cdb-1" mending.settings.output cutLeft :=
    scratch_of_target (by decide) rfl rfl rfl
  refine ⟨?_, ?_, ?_, ?_⟩
  · obtain ⟨hcode, hstderr, -⟩ :=
      record_ends hdatabase (platformWith fun _ _ _ => .error .noSuchFile) ["make"] []
    refine ⟨hcode, hstderr.trans ?_⟩
    decide +kernel
  · have hends := record_ends hdatabase (platformWith interrupted) ["make"] []
    dsimp only [platformWith, interrupted] at hends
    obtain ⟨collection, hdraft⟩ := draft_tracedFiles
    have hsave := Database.save_eq_ok_iff.mpr ⟨_, _, ready_tracedFiles,
      Eq.refl (Database.moved tracedFiles _ _ (Database.contentOf [freshEntry]))⟩
    split at hends
    · obtain ⟨hcode, -, -, d, hdraft', -, hread⟩ := hends
      obtain rfl := Except.ok.inj (hdraft.symm.trans hdraft')
      exact ⟨hcode, hread⟩
    · rename_i failure written hgenerate
      cases (generate_eq_ok_iff.mpr ⟨_, hdraft, hsave, rfl⟩).symm.trans hgenerate
  · have hends := record_ends hdirectory (platformWith idle) ["make"] []
    dsimp only [platformWith, idle] at hends
    split at hends
    · rename_i summary written hgenerate
      exact absurd hgenerate (generate_ne_ok (t := ⟨[], "twice", false⟩) rfl rfl)
    · exact hends.1
  · have hends := record_ends hcut (platformWith idle) ["make"] []
    have hleft : leftBy { status := .exited 0, files := cutLeft, stderr := "done\n" } cutFiles =
        cutLeft := rfl
    dsimp only [platformWith, idle] at hends
    rw [hleft, generate_cutLeft, generateLog_cutLeft] at hends
    obtain ⟨hcode, -, hstderr, -⟩ := hends
    refine ⟨hcode, hstderr.trans ?_⟩
    decide +kernel

end CompilationDatabase.Recorder
