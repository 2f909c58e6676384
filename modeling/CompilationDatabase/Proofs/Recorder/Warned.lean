/-
What is warned of.

Most of what the recorder says of its work is for those who ask for it.  A warning is
what is shown without asking: in making a database there is one for each trace file that
is not read, each group of a trace that holds no record, and each record whose invocation
cannot be classified (`Warns`), and none for anything else.

* `groupLog_eq_nil_iff` — a group is passed over in silence just if it has a record;
* `mem_generateLog_iff` — the warnings in making a database;
* `stderr_record` — a run that has nothing to warn of leaves standard error to the build.
-/
import CompilationDatabase.Proofs.Recorder.Ended
import CompilationDatabase.Proofs.Recorder.Isolated

namespace CompilationDatabase

open Log (Event)

/-! ### Groups -/

namespace Trace

/-- A group has nothing said of it just if it holds a record. -/
theorem groupLog_eq_nil_iff (group : List Char) :
    groupLog group = [] ↔ (parseGroup group).isSome = true := by
  unfold groupLog parseGroup
  split
  · rename_i pid ppid function directory tokens _ hsplit
    cases directory.isEmpty with
    | true => simp
    | false => cases htokens : (parseTokens tokens).isEmpty <;> simp [htokens]
  · simp

theorem level_of_mem_groupLog {group : List Char} {event : Event} (h : event ∈ groupLog group) :
    event.level = .warn := by
  unfold groupLog at h
  split at h
  · split at h
    · rw [List.mem_singleton.mp h]; rfl
    · split at h
      · rw [List.mem_singleton.mp h]; rfl
      · cases h
  · rw [List.mem_singleton.mp h]; rfl

theorem level_of_mem_parseLog {content : String} {event : Event} (h : event ∈ parseLog content) :
    event.level = .warn := by
  obtain ⟨group, -, hgroup⟩ := List.mem_flatMap.mp h
  dsimp only at hgroup
  split at hgroup
  · cases hgroup
  · exact level_of_mem_groupLog hgroup

end Trace

/-! ### Logs without warnings -/

/-- Whether none of the events is a warning. -/
def Log.Quiet (events : List Event) : Prop := ∀ event ∈ events, event.level ≠ .warn

namespace Log

theorem quiet_nil : Quiet [] := List.forall_mem_nil _

theorem quiet_singleton {event : Event} : Quiet [event] ↔ event.level ≠ .warn :=
  List.forall_mem_singleton

theorem quiet_append {events more : List Event} :
    Quiet (events ++ more) ↔ Quiet events ∧ Quiet more := List.forall_mem_append

end Log

open Log

/-! ### Invocations, entries and databases -/

namespace Compiler

variable {fs : FileSystem} {directory : String}

theorem quiet_iterateLog (token : String) (cursor : Cursor) (c : Classification) :
    Quiet (iterateLog fs directory token cursor c) := by
  unfold iterateLog
  split
  · exact quiet_singleton.mpr (by simp [Event.level])
  · split
    · exact quiet_singleton.mpr (by simp [Event.level])
    · exact quiet_nil

/-- Reading an invocation gives no warning. -/
theorem quiet_scanLog (cursor : Cursor) (c : Classification) :
    Quiet (scanLog fs directory cursor c) := by
  induction cursor, c using scanLog.induct fs directory with
  | case1 cursor c hcurrent =>
    rw [scanLog]
    split
    · exact quiet_nil
    · simp_all
  | case2 cursor c token hcurrent ih =>
    rw [scanLog]
    split
    · exact quiet_nil
    · rename_i token' htoken
      obtain rfl : token = token' := Option.some.inj (hcurrent.symm.trans htoken)
      refine quiet_append.mpr ⟨quiet_iterateLog token cursor c, ?_⟩
      split
      · exact ih _ _ ‹_›
      · exact quiet_nil

end Compiler

namespace Entry

/-- Making entries gives no warning. -/
theorem quiet_ofRecordLog (fs : FileSystem) (record : Trace.Record) :
    Quiet (ofRecordLog fs record) := by
  refine quiet_append.mpr ⟨Compiler.quiet_scanLog _ _, ?_⟩
  split
  · exact quiet_nil
  · unfold ofClassificationLog
    split
    · exact quiet_nil
    · split
      · exact quiet_nil
      · exact quiet_singleton.mpr (by simp [Event.level])

theorem quiet_argumentsLog (command : String) : Quiet (argumentsLog command) := by
  unfold argumentsLog
  split
  · exact quiet_nil
  · exact quiet_singleton.mpr (by simp [Event.level])

end Entry

theorem Dedupe.quiet_stepLog (present : String → Bool) (d : Dedupe) (e : Entry) :
    Quiet (d.stepLog present e) := by
  unfold stepLog
  split
  · exact quiet_singleton.mpr (by simp [Event.level])
  · refine quiet_append.mpr ⟨Entry.quiet_argumentsLog e.command, ?_⟩
    split
    · exact quiet_singleton.mpr (by simp [Event.level])
    · exact quiet_nil

/-- Leaving out entries gives no warning. -/
theorem Dedupe.quiet_log (present : String → Bool) (d : Dedupe) (entries : List Entry) :
    Quiet (d.log present entries) := by
  induction entries generalizing d with
  | nil => exact quiet_nil
  | cons e rest ih => exact quiet_append.mpr ⟨quiet_stepLog present d e, ih _⟩

theorem Database.quiet_loadLog (fs : FileSystem) (path : String) : Quiet (loadLog fs path) := by
  unfold loadLog
  split
  · exact quiet_singleton.mpr (by simp [Event.level])
  · exact quiet_nil
  · split
    · exact quiet_singleton.mpr (by simp [Event.level])
    · exact quiet_nil

namespace Recorder

/-! ### Traces and databases -/

variable {fs : FileSystem} {event : Event}

/-- What is warned of in a trace file. -/
inductive Warns (fs : FileSystem) (file : String) : Event → Prop where
  /-- It cannot be read. -/
  | unread {fault : Trace.ReadError} (h : Trace.load fs file = .error fault) :
    Warns fs file (.fileSkipped file fault.message)
  /-- A group in it holds no record. -/
  | damaged {text : String} {event : Event} (h : fs.readText file = .ok text)
    (hevent : event ∈ Trace.parseLog text) : Warns fs file event
  /-- The invocation of a record in it cannot be classified. -/
  | unclassified {records : List Trace.Record} {record : Trace.Record}
    {fault : Compiler.UnreadableList} (h : Trace.load fs file = .ok records)
    (hrecord : record ∈ records) (hfault : Entry.ofRecord fs record = .error fault) :
    Warns fs file (.recordSkipped record.pid fault.message)

theorem mem_recordLog_iff {record : Trace.Record} :
    event ∈ recordLog fs record ∧ event.level = .warn ↔
      ∃ fault, Entry.ofRecord fs record = .error fault ∧
        event = .recordSkipped record.pid fault.message := by
  rw [recordLog, List.mem_append]
  constructor
  · rintro ⟨hmade | hskipped, hlevel⟩
    · exact absurd hlevel (Entry.quiet_ofRecordLog fs record event hmade)
    · split at hskipped
      · exact ⟨_, ‹_›, List.mem_singleton.mp hskipped⟩
      · cases hskipped
  · rintro ⟨fault, hfault, rfl⟩
    rw [hfault]
    exact ⟨.inr List.mem_cons_self, rfl⟩

theorem mem_fileLog_iff {file : String} :
    event ∈ fileLog fs file ∧ event.level = .warn ↔ Warns fs file event := by
  rw [fileLog]
  constructor
  · rintro ⟨hevent, hlevel⟩
    cases hload : Trace.load fs file with
    | error fault =>
      rw [hload] at hevent
      rw [List.mem_singleton.mp hevent]
      exact .unread hload
    | ok records =>
      rw [hload] at hevent
      rcases List.mem_append.mp hevent with hgroup | hrecord
      · rw [Trace.loadLog] at hgroup
        split at hgroup
        · cases hgroup
        · exact .damaged ‹_› hgroup
      · obtain ⟨record, hmem, hrecord⟩ := List.mem_flatMap.mp hrecord
        obtain ⟨fault, hfault, rfl⟩ := mem_recordLog_iff.mp ⟨hrecord, hlevel⟩
        exact .unclassified hload hmem hfault
  · rintro (h | ⟨h, hevent⟩ | ⟨h, hmem, hfault⟩)
    · rw [h]
      exact ⟨List.mem_singleton_self _, rfl⟩
    · rw [load_of_readText h, Trace.loadLog, h]
      exact ⟨List.mem_append_left _ hevent, Trace.level_of_mem_parseLog hevent⟩
    · rw [h]
      exact ⟨List.mem_append_right _ (List.mem_flatMap.mpr ⟨_, hmem,
        (mem_recordLog_iff.mpr ⟨_, hfault, rfl⟩).1⟩), rfl⟩

theorem quiet_assemblyLog (settings : Settings) (prior fresh : List Entry) :
    Quiet (assemblyLog fs settings prior fresh) := by
  unfold assemblyLog
  split
  · exact quiet_nil
  · exact quiet_append.mpr
      ⟨Dedupe.quiet_log _ _ _, quiet_singleton.mpr (by simp [Event.level])⟩

theorem Summary.quiet_log (summary : Summary) (output : String) :
    Quiet (summary.log output) := by
  simp [Quiet, Summary.log, Event.level]

theorem quiet_databaseLog (traces : String) (settings : Settings) (fresh : List Entry) :
    Quiet (databaseLog fs traces settings fresh) := by
  refine quiet_append.mpr ⟨?_, ?_⟩
  · split
    · exact Database.quiet_loadLog _ _
    · exact quiet_nil
  · split
    · exact quiet_nil
    · refine quiet_append.mpr ⟨quiet_assemblyLog _ _ _, ?_⟩
      split
      · exact quiet_nil
      · exact Summary.quiet_log _ _

theorem mem_collectLog_iff {files : List String} (link : Bool) :
    event ∈ collectLog fs files link ∧ event.level = .warn ↔
      ∃ file ∈ files, Warns fs file event := by
  simp only [← mem_fileLog_iff]
  constructor
  · rintro ⟨hevent, hlevel⟩
    rcases List.mem_append.mp hevent with hfile | hlinks
    · obtain ⟨file, hmem, hfile⟩ := List.mem_flatMap.mp hfile
      exact ⟨file, hmem, hfile, hlevel⟩
    · split at hlinks
      · cases hlinks
      · rw [List.mem_singleton.mp hlinks] at hlevel
        cases hlevel
  · rintro ⟨file, hmem, hfile, hlevel⟩
    exact ⟨List.mem_append_left _ (List.mem_flatMap.mpr ⟨file, hmem, hfile⟩), hlevel⟩

/-- The warnings in making a database are those about its traces. -/
theorem mem_generateLog_iff {traces : String} {settings : Settings} :
    event ∈ generateLog fs traces settings ∧ event.level = .warn ↔
      ∃ files, traceFiles fs traces = .ok files ∧ ∃ file ∈ files, Warns fs file event := by
  rw [generateLog]
  cases traceFiles fs traces with
  | error fault => simp
  | ok files =>
    simp only [Except.ok.injEq, exists_eq_left', ← mem_collectLog_iff settings.link,
      List.mem_append]
    constructor
    · rintro ⟨hcollect | hdatabase, hlevel⟩
      · exact ⟨hcollect, hlevel⟩
      · exact absurd hlevel (quiet_databaseLog traces settings _ event hdatabase)
    · rintro ⟨hcollect, hlevel⟩
      exact ⟨.inl hcollect, hlevel⟩

/-! ### By default -/

section

variable {platform : Platform} {prepared written : FileSystem} {scratch program : String}
  {options : Options} {arguments : List String} {environment : Environment} {ended : Ended}
  {summary : Summary}

/-- Without a filter, and without asking for more, the log lets warnings through. -/
theorem admits_logOf (format : Log.Format) (hverbosity : options.verbosity = 0)
    (hfilter : logFilter? environment = none) :
    (logOf format options environment).notice = "" ∧
      ∀ event, event.level ≠ .warn → (logOf format options environment).admits event = false := by
  rw [logOf, hverbosity, hfilter]
  refine ⟨rfl, fun event hlevel => ?_⟩
  show (compare event.level .warn).isLE = false
  cases hevent : event.level with
  | warn => exact absurd hevent hlevel
  | info | debug | trace => rfl

/-- A run that makes the database, and has nothing to warn of, leaves standard error to
the build. -/
theorem stderr_record (h : Scratch fs scratch options.settings.output prepared)
    (hverbosity : options.verbosity = 0) (hfilter : logFilter? environment = none)
    (hlibrary : prepared.contains (libraryFor options environment) = true)
    (hlaunch : platform.launch (program :: arguments)
      (buildEnvironment options scratch environment prepared) prepared = .ok ended)
    (hgenerate : generate (leftBy ended fs) scratch options.settings = (.ok summary, written))
    (hquiet : ∀ files, traceFiles (leftBy ended fs) scratch = .ok files → ∀ file ∈ files,
      ∀ event, ¬ Warns (leftBy ended fs) file event) :
    (record platform scratch options (program :: arguments) environment fs).stderr =
      ended.stderr := by
  obtain ⟨hnotice, hadmits⟩ := admits_logOf platform.format hverbosity hfilter
  have hearly : ∀ event ∈ startLog prepared (libraryFor options environment)
      (program :: arguments), (logOf platform.format options environment).admits event = false := by
    intro event hevent
    rw [startLog, libraryLog, if_pos hlibrary, List.nil_append] at hevent
    rw [List.mem_singleton.mp hevent]
    exact hadmits _ nofun
  have hlate : ∀ event ∈ endLog ended.status.code (leftBy ended fs) scratch options.settings,
      (logOf platform.format options environment).admits event = false := by
    intro event hevent
    refine hadmits event fun hlevel => ?_
    rcases List.mem_cons.mp hevent with rfl | hgenerated
    · cases hlevel
    · obtain ⟨files, hfiles, file, hmem, hwarns⟩ := mem_generateLog_iff.mp ⟨hgenerated, hlevel⟩
      exact hquiet files hfiles file hmem event hwarns
  obtain ⟨-, -, hstderr, -⟩ := record_made h hlaunch hgenerate
  rw [hstderr, said, announced, hnotice, Log.lines_eq_empty hearly, Log.lines_eq_empty hlate,
    String.append_empty, String.append_empty, String.empty_append]

end

end Recorder

end CompilationDatabase
