/-
Failures among traces.

A trace file that cannot be read as text gives nothing, and neither does a record
whose invocation cannot be classified.  What the others give does not depend on them:
it is found file by file and record by record (`found`), and stays the same when such
files and records are taken away (`Pruned`).

* `collect_isolates` — what is collected from trace files, and how much is counted.
-/
import CompilationDatabase.Proofs.Recorder.Appended

namespace CompilationDatabase.Recorder

open Compiler FileSystem

/-- The entries that a trace file gives: those of its records that can be classified, and
those of links only if asked. -/
def found (fs : FileSystem) (link : Bool) (file : String) : List Entry :=
  (recordsOf fs file).flatMap fun record =>
    match Entry.ofRecord fs record with
    | .error _ => []
    | .ok entries => entries.filter fun e => link || !e.isLink

/-- The second list is the first without some records that cannot be classified. -/
inductive Thinned (fs : FileSystem) : List Trace.Record → List Trace.Record → Prop where
  | nil : Thinned fs [] []
  | keep (record : Trace.Record) {records rest : List Trace.Record} (h : Thinned fs records rest) :
      Thinned fs (record :: records) (record :: rest)
  | drop {record : Trace.Record} {fault : UnreadableList} {records rest : List Trace.Record}
      (hfault : Entry.ofRecord fs record = .error fault) (h : Thinned fs records rest) :
      Thinned fs (record :: records) rest

/-- The second files hold, in the second file system, what the first hold in the first,
but for files that cannot be read and records that cannot be classified. -/
inductive Pruned (fs fs' : FileSystem) : List String → List String → Prop where
  | nil : Pruned fs fs' [] []
  | readable {file file' : String} {records records' : List Trace.Record}
      {files files' : List String} (hload : Trace.load fs file = .ok records)
      (hload' : Trace.load fs' file' = .ok records') (hrecords : Thinned fs records records')
      (h : Pruned fs fs' files files') : Pruned fs fs' (file :: files) (file' :: files')
  | unreadable {file : String} {cause : Trace.ReadError} {files files' : List String}
      (hload : Trace.load fs file = .error cause) (h : Pruned fs fs' files files') :
      Pruned fs fs' (file :: files) files'
  | idle {file' : String} {cause : Trace.ReadError} {files files' : List String}
      (hload' : Trace.load fs' file' = .error cause) (h : Pruned fs fs' files files') :
      Pruned fs fs' files (file' :: files')

/-! ### File by file -/

section

variable {fs fs' : FileSystem} {link : Bool}

theorem length_tracesIn (fs : FileSystem) (files : List String) :
    (tracesIn fs files).length = files.countP fun file => (fs.readText file).isOk := by
  rw [tracesIn, List.length_filterMap_eq_countP]
  refine List.countP_congr fun file _ => ?_
  rw [toOption_load_eq_map]
  cases fs.readText file <;> simp [Except.toOption, Except.isOk, Except.toBool]

theorem found_eq_filter (fs : FileSystem) (link : Bool) (file : String) :
    found fs link file =
      ((recordsOf fs file).flatMap (entriesOf fs)).filter fun e => link || !e.isLink := by
  rw [found, List.filter_flatMap]
  refine List.flatMap_congr fun record _ => ?_
  rw [entriesOf]
  cases Entry.ofRecord fs record <;> rfl

theorem entries_collect_eq_flatMap (fs : FileSystem) (files : List String) (link : Bool) :
    (collect fs files link).entries = files.flatMap (found fs link) := by
  rw [entries_collect, recordsIn_eq_flatMap, List.flatMap_assoc, List.filter_flatMap]
  exact List.flatMap_congr fun file _ => (found_eq_filter fs link file).symm

/-! ### What is taken away -/

theorem Thinned.append {records rest records' rest' : List Trace.Record}
    (h : Thinned fs records rest) (h' : Thinned fs records' rest') :
    Thinned fs (records ++ records') (rest ++ rest') := by
  induction h with
  | nil => exact h'
  | keep record _ ih => exact .keep record ih
  | drop hfault _ ih => exact .drop hfault ih

/-- A record that cannot be classified gives no entry. -/
theorem Thinned.flatMap_entriesOf {records rest : List Trace.Record}
    (h : Thinned fs records rest) :
    rest.flatMap (entriesOf fs) = records.flatMap (entriesOf fs) := by
  induction h with
  | nil => rfl
  | keep record _ ih => rw [List.flatMap_cons, List.flatMap_cons, ih]
  | drop hfault _ ih => rw [List.flatMap_cons, entriesOf, hfault, ih]; rfl

theorem Pruned.thinned {files files' : List String} (h : Pruned fs fs' files files') :
    Thinned fs (recordsIn fs files) (recordsIn fs' files') := by
  induction h with
  | nil => exact .nil
  | readable hload hload' hthinned _ ih =>
    rw [recordsIn_cons, recordsIn_cons, recordsOf_of_load hload, recordsOf_of_load hload']
    exact hthinned.append ih
  | unreadable hload _ ih =>
    rwa [recordsIn_cons, recordsOf_of_load_error hload, List.nil_append]
  | idle hload' _ ih =>
    rwa [recordsIn_cons, recordsOf_of_load_error hload', List.nil_append]

theorem entries_collect_of_pruned {files files' : List String} (h : Pruned fs fs' files files')
    (hlists : ∀ record ∈ recordsIn fs' files', ∀ path ∈ listsOf fs record,
      (fs'.readText path).toOption = (fs.readText path).toOption) :
    (collect fs' files' link).entries = (collect fs files link).entries := by
  have hsame : ∀ record ∈ recordsIn fs' files', entriesOf fs' record = entriesOf fs record := by
    intro record hrecord
    rw [entriesOf_eq_getD, entriesOf_eq_getD, toOption_classifyIn (hlists record hrecord)]
  rw [entries_collect, entries_collect, List.flatMap_congr hsame, h.thinned.flatMap_entriesOf]

end

/-- **What is collected are the entries of each readable trace file and each record
that can be classified, in order, and those of links only if asked.**  So trace files
behind others add their entries behind those of the others, and the entries stay the
same if files that cannot be read and records that cannot be classified are taken away.
All readable files are counted, and all their records; a run tells these counts and how
many entries there are. -/
theorem collect_isolates (fs : FileSystem) (link : Bool) :
    (∀ files, (collect fs files link).entries = files.flatMap (found fs link)) ∧
    (∀ files more, (collect fs (files ++ more) link).entries =
      (collect fs files link).entries ++ (collect fs more link).entries) ∧
    (∀ fs' files files', Pruned fs fs' files files' →
      (∀ record ∈ recordsIn fs' files', ∀ path ∈ listsOf fs record,
        (fs'.readText path).toOption = (fs.readText path).toOption) →
      (collect fs' files' link).entries = (collect fs files link).entries) ∧
    (∀ files,
      (collect fs files link).traceFiles = files.countP (fun file => (fs.readText file).isOk) ∧
      (collect fs files link).records = (files.flatMap (recordsOf fs)).length) ∧
    ∀ traces settings summary after, settings.link = link →
      generate fs traces settings = (.ok summary, after) →
      ∃ files, traceFiles fs traces = .ok files ∧
        summary.traceFiles = files.countP (fun file => (fs.readText file).isOk) ∧
        summary.records = (files.flatMap (recordsOf fs)).length ∧
        summary.entries = (files.flatMap (found fs link)).length := by
  have hcounts (files : List String) :
      (collect fs files link).traceFiles = files.countP (fun file => (fs.readText file).isOk) ∧
      (collect fs files link).records = (files.flatMap (recordsOf fs)).length := by
    rw [collect_eq]
    exact ⟨length_tracesIn fs files, congrArg List.length (recordsIn_eq_flatMap fs files)⟩
  refine ⟨fun files => entries_collect_eq_flatMap fs files link, fun files more => ?_,
    fun fs' files files' hpruned hlists => entries_collect_of_pruned hpruned hlists, hcounts,
    fun traces settings summary after hlink h => ?_⟩
  · simp only [entries_collect_eq_flatMap, List.flatMap_append]
  · obtain ⟨files, known, hfiles, -, -, rfl⟩ := generate_eq_ok_iff_assembled.mp h
    rw [hlink, entries_collect_eq_flatMap]
    exact ⟨files, hfiles, (hcounts files).1, (hcounts files).2, rfl⟩

/-! ### A trace among damage -/

/-- The process that was to link files from a list that is gone. -/
def misled : Trace.Record where
  pid := "8"
  ppid := "1"
  function := "execve"
  directory := "/"
  command := ["ld", "-filelist", "gone.txt"]

/-- Traces of it and of the process that compiled a file, and a trace that is no text. -/
def damagedFiles : FileSystem :=
  (sampleFiles.insert ["once", "1"] (.file (misled.encode ++ compiling.encode).toUTF8)).insert
    ["once", "2"] (.file ⟨#[0xff, 0x1d]⟩)

theorem segments_misled :
    segments (misled.command.drop 1) =
      [.matched ⟨"filelist", .exactly ["-filelist"], .two, .fileList⟩ "-filelist" ["gone.txt"]] := by
  have hlist : findRule "-filelist" =
      some ⟨"filelist", .exactly ["-filelist"], .two, .fileList⟩ := rfl
  show segments ["-filelist", "gone.txt"] = _
  rw [segments_matched hlist (by decide)]
  simp [Rule.extra, segments]

theorem ofRecord_misled :
    Entry.ofRecord damagedFiles misled = .error ⟨"/gone.txt", .noSuchFile⟩ := by
  rw [Entry.ofRecord, classifyIn_eq_foldlM, segments_misled]
  rfl

theorem load_damagedFiles :
    Trace.load damagedFiles "once/1" = .ok [misled, compiling] ∧
      Trace.load damagedFiles "once/2" = .error (.notText "once/2") := by
  refine ⟨?_, rfl⟩
  rw [load_of_readText (readText_of_read rfl)]
  rfl

theorem traceFiles_damagedFiles :
    traceFiles damagedFiles "once" = .ok ["once/1", "once/2"] := by
  have hlist : damagedFiles.list "once" =
      .ok [("1", .file (misled.encode ++ compiling.encode).toUTF8),
        ("2", .file ⟨#[0xff, 0x1d]⟩)] := rfl
  have hpaths : [Path.under "once" "1", Path.under "once" "2"] = ["once/1", "once/2"] := by
    decide
  rw [traceFiles_of_list_pair (by decide) hlist, hpaths]

theorem ready_damagedFiles :
    Database.Ready damagedFiles "db.json" ⟨[], "db.json.tmp", false⟩ ⟨[], "db.json", false⟩ := by
  have htrace := ready_sampleFiles.differAt
    (DifferAt.insert (by decide : ["once", "1"] ≠ []) (by decide)
      (misled.encode ++ compiling.encode).toUTF8)
  exact htrace.differAt
    (DifferAt.insert (by decide : ["once", "2"] ≠ []) (by decide) ⟨#[0xff, 0x1d]⟩)

/-- The entry is what the undamaged trace gives, and both records are counted. -/
theorem collect_isolates_damagedFiles :
    (collect damagedFiles ["once/1", "once/2"] false).entries =
        (collect sampleFiles ["once/1"] false).entries ∧
      ∃ summary after,
        generate damagedFiles "once" { output := "db.json" } = (.ok summary, after) ∧
        summary.traceFiles = 1 ∧ summary.records = 2 ∧ summary.entries = 1 := by
  obtain ⟨hload, hnotText⟩ := load_damagedFiles
  obtain ⟨hfound, -, hpruned, -, hcounts⟩ := collect_isolates damagedFiles false
  have hpresent : Trace.load sampleFiles "once/1" = .ok [compiling] := load_compiling rfl
  have hentries := hpruned sampleFiles ["once/1", "once/2"] ["once/1"]
    (.readable hload hpresent (.drop ofRecord_misled (.keep compiling .nil))
      (.unreadable hnotText .nil))
    (fun record hrecord path hpath => by
      rw [recordsIn_once] at hrecord
      obtain rfl := List.mem_singleton.mp hrecord
      rw [listsOf_compiling] at hpath
      cases hpath)
  have hfresh : (collect damagedFiles ["once/1", "once/2"] false).entries = [freshEntry] :=
    hentries.symm.trans (collects_once.unique ⟨_, traceFiles_once, rfl⟩).symm
  have hprior : prior damagedFiles { output := "db.json" } = .ok [] := rfl
  have hsave := Database.save_eq_ok_iff.mpr ⟨_, _, ready_damagedFiles, Eq.refl
    (Database.moved damagedFiles _ _ (Database.contentOf
      (firsts damagedFiles.contains ([] ++ [freshEntry]))))⟩
  obtain ⟨summary, hrun⟩ :=
    generate_of_collects rfl hprior ⟨_, traceFiles_damagedFiles, hfresh⟩ hsave
  refine ⟨hentries.symm, summary, _, hrun, ?_⟩
  obtain ⟨files, hfiles, htraces, hrecords, hlength⟩ := hcounts "once" _ _ _ rfl hrun
  obtain rfl := Except.ok.inj (traceFiles_damagedFiles.symm.trans hfiles)
  refine ⟨htraces.trans ?_, hrecords.trans ?_, hlength.trans ?_⟩
  · rw [← length_tracesIn]
    simp [tracesIn, hload, hnotText, Except.toOption]
  · simp [recordsOf_of_load hload, recordsOf_of_load_error hnotText]
  · rw [← hfound, hfresh, List.length_singleton]

end CompilationDatabase.Recorder
