/-
What a run that makes a database leaves behind.

A run succeeds just if all can be read and the database can be written
(`draft_eq_ok_iff`, `generate_eq_ok_iff`).  The database is then loaded as the
entries that were put together, sorted.

* `load_generate` — unless the entries are written as found, the database is
  sorted, tells its entries apart, and holds of each identity the first entry
  whose file exists, those of the earlier database before those of the traces.
-/
import Mathlib.Tactic.Set
import CompilationDatabase.Recorder.Generation
import CompilationDatabase.Proofs.Database.Saved
import CompilationDatabase.Proofs.Entry.Dedupe

namespace CompilationDatabase.Recorder

variable {fs after : FileSystem} {traces : String} {settings : Settings} {summary : Summary}

/-- The entries of a new database, from those that were known and those that
were collected. -/
def assembled (fs : FileSystem) (raw : Bool) (known fresh : List Entry) : List Entry :=
  if raw then known ++ fresh else firsts fs.contains (known ++ fresh)

@[simp] theorem assembled_false (fs : FileSystem) (known fresh : List Entry) :
    assembled fs false known fresh = firsts fs.contains (known ++ fresh) := rfl

theorem draft_eq_bind (fs : FileSystem) (traces : String) (settings : Settings) :
    draft fs traces settings =
      ((traceFiles fs traces).mapError .traces).bind fun files =>
        (prior fs settings).bind fun known =>
          .ok ⟨collect fs files settings.link,
            assembled fs settings.raw known (collect fs files settings.link).entries⟩ := by
  simp only [draft, assembled, merge_fst]
  rfl

/-- A draft is made just if all can be read. -/
theorem draft_eq_ok_iff_assembled {d : Draft} :
    draft fs traces settings = .ok d ↔
      ∃ files known, traceFiles fs traces = .ok files ∧ prior fs settings = .ok known ∧
        d = ⟨collect fs files settings.link,
          assembled fs settings.raw known (collect fs files settings.link).entries⟩ := by
  simp only [draft_eq_bind, bind_eq_ok_iff, mapError_eq_ok_iff, Except.ok.injEq]
  constructor
  · rintro ⟨files, hfiles, known, hknown, rfl⟩
    exact ⟨files, known, hfiles, hknown, rfl⟩
  · rintro ⟨files, known, hfiles, hknown, rfl⟩
    exact ⟨files, hfiles, known, hknown, rfl⟩

theorem draft_eq_ok_iff {d : Draft} (hraw : settings.raw = false) :
    draft fs traces settings = .ok d ↔
      ∃ files known, traceFiles fs traces = .ok files ∧ prior fs settings = .ok known ∧
        d = ⟨collect fs files settings.link,
          firsts fs.contains (known ++ (collect fs files settings.link).entries)⟩ := by
  rw [draft_eq_ok_iff_assembled, hraw]
  simp only [assembled_false]

/-- A database is made just if there is a draft and its entries can be written. -/
theorem generate_eq_ok_iff :
    generate fs traces settings = (.ok summary, after) ↔
      ∃ d, draft fs traces settings = .ok d ∧
        Database.save fs settings.output d.entries = (.ok (), after) ∧
        summary = ⟨d.collection.traceFiles, d.collection.records, d.collection.entries.length,
          d.entries.length⟩ := by
  unfold generate
  constructor
  · intro h
    split at h
    · cases h
    · rename_i d hdraft
      split at h
      · cases h
      · rename_i after' hsave
        obtain ⟨hsummary, rfl⟩ := Prod.mk.inj h
        exact ⟨d, hdraft, hsave, (Except.ok.inj hsummary).symm⟩
  · rintro ⟨d, hdraft, hsave, rfl⟩
    rw [hdraft]
    simp only [hsave]

/-- A run succeeds just if all can be read and what is put together can be written. -/
theorem generate_eq_ok_iff_assembled :
    generate fs traces settings = (.ok summary, after) ↔
      ∃ files known, traceFiles fs traces = .ok files ∧ prior fs settings = .ok known ∧
        Database.save fs settings.output
          (assembled fs settings.raw known (collect fs files settings.link).entries) =
            (.ok (), after) ∧
        summary = ⟨(collect fs files settings.link).traceFiles,
          (collect fs files settings.link).records,
          (collect fs files settings.link).entries.length,
          (assembled fs settings.raw known (collect fs files settings.link).entries).length⟩ := by
  rw [generate_eq_ok_iff]
  constructor
  · rintro ⟨d, hdraft, hsave, rfl⟩
    obtain ⟨files, known, hfiles, hknown, rfl⟩ := draft_eq_ok_iff_assembled.mp hdraft
    exact ⟨files, known, hfiles, hknown, hsave, rfl⟩
  · rintro ⟨files, known, hfiles, hknown, hsave, rfl⟩
    exact ⟨_, draft_eq_ok_iff_assembled.mpr ⟨files, known, hfiles, hknown, rfl⟩, hsave, rfl⟩

/-- What a run writes unless the entries are written as found. -/
theorem save_of_generate (hraw : settings.raw = false)
    (h : generate fs traces settings = (.ok summary, after)) :
    ∃ files known, traceFiles fs traces = .ok files ∧ prior fs settings = .ok known ∧
      Database.save fs settings.output
        (firsts fs.contains (known ++ (collect fs files settings.link).entries)) = (.ok (), after) ∧
      summary.written =
        (firsts fs.contains (known ++ (collect fs files settings.link).entries)).length := by
  obtain ⟨d, hdraft, hsave, rfl⟩ := generate_eq_ok_iff.mp h
  obtain ⟨files, known, hfiles, hknown, rfl⟩ := (draft_eq_ok_iff hraw).mp hdraft
  exact ⟨files, known, hfiles, hknown, hsave, rfl⟩

/-- **The database that a run leaves is sorted and has no identity twice; it
holds only entries that were known or collected and whose file exists, and of
each identity the first of them.**  A file exists if its path leads to a node;
there are no links that could lead nowhere. -/
theorem load_generate (hraw : settings.raw = false)
    (h : generate fs traces settings = (.ok summary, after)) :
    ∃ files known database, traceFiles fs traces = .ok files ∧ prior fs settings = .ok known ∧
      Database.load after settings.output = .ok database ∧
      database.Pairwise (fun a b => a.le b = true) ∧
      (database.map Entry.identity).Nodup ∧
      (∀ e ∈ database, e ∈ known ++ (collect fs files settings.link).entries ∧
        fs.contains e.file = true) ∧
      (∀ e ∈ known ++ (collect fs files settings.link).entries, fs.contains e.file = true →
        ∃ first ∈ database, (known ++ (collect fs files settings.link).entries).find?
          (fun other => fs.contains other.file && other.identity == e.identity) = some first) ∧
      summary.written = database.length := by
  obtain ⟨files, known, hfiles, hknown, hsave, hwritten⟩ := save_of_generate hraw h
  set all := known ++ (collect fs files settings.link).entries
  have hperm := Entry.sort_perm (firsts fs.contains all)
  refine ⟨files, known, Entry.sort (firsts fs.contains all), hfiles, hknown,
    Database.load_save hsave, Entry.pairwise_sort _, ?_, fun e he => ?_, fun e he hpresent => ?_,
    hwritten.trans hperm.length_eq.symm⟩
  · exact (hperm.map Entry.identity).nodup_iff.mpr (nodup_identity_firsts fs.contains all)
  · rw [Entry.mem_sort] at he
    exact ⟨(firsts_sublist fs.contains all).subset he, present_of_mem_firsts he⟩
  · obtain ⟨first, hmem, -, hfirst⟩ := exists_first he hpresent
    exact ⟨first, Entry.mem_sort.mpr hmem, hfirst⟩

/-! ### A database that is extended -/

/-- The process that compiled a file. -/
def compiling : Trace.Record where
  pid := "7"
  ppid := "1"
  function := "execve"
  directory := "/"
  command := ["cc", "-c", "a.c"]

/-- What the database knows of another file. -/
def knownEntry : Entry := { command := "cc -c old.c", directory := "/", file := "/old.c" }

/-- The two files with the database, and traces in which the process was met
once and twice. -/
def sampleFiles : FileSystem where
  entries :=
    [(["old.c"], .file .empty), (["a.c"], .file .empty),
      (["db.json"], .file (Database.contentOf [knownEntry])),
      (["once"], .directory), (["once", "1"], .file compiling.encode.toUTF8),
      (["twice"], .directory), (["twice", "1"], .file compiling.encode.toUTF8),
      (["twice", "2"], .file compiling.encode.toUTF8)]
  distinct := by decide
  workingDirectory := []

/-- The settings that extend its database. -/
def extending : Settings := { output := "db.json", append := true }

theorem ready_sampleFiles :
    Database.Ready sampleFiles "db.json" ⟨[], "db.json.tmp", false⟩ ⟨[], "db.json", false⟩ where
  target_temporary := rfl
  target_goal := rfl
  writable_temporary := ⟨by decide, by decide, by decide, by decide⟩
  writable_goal := ⟨by decide, by decide, by decide, by decide⟩

theorem prior_sampleFiles : prior sampleFiles extending = .ok [knownEntry] := by
  have hload : Database.load sampleFiles "db.json" = .ok (Entry.sort [knownEntry]) :=
    Database.load_of_read rfl
  rw [Entry.sort, List.mergeSort_singleton] at hload
  rw [prior, if_pos (show extending.append = true from rfl)]
  exact mapError_eq_ok_iff.mpr hload

theorem traceFiles_of_list {fs : FileSystem} {directory name : String} {content : ByteArray}
    (h : fs.list directory = .ok [(name, .file content)]) :
    traceFiles fs directory = .ok [Path.under directory name] := by
  rw [traceFiles, h]
  simp [Node.isFile]

theorem traceFiles_of_list_pair {fs : FileSystem} {directory first second : String}
    {content content' : ByteArray} (hle : first ≤ second)
    (h : fs.list directory = .ok [(first, .file content), (second, .file content')]) :
    traceFiles fs directory =
      .ok [Path.under directory first, Path.under directory second] := by
  have hsort : List.mergeSort [first, second] (· ≤ ·) = [first, second] :=
    List.mergeSort_of_pairwise (by simpa using hle)
  rw [traceFiles, h]
  simp [Node.isFile, hsort]

theorem traceFiles_once : traceFiles sampleFiles "once" = .ok ["once/1"] := by
  have hlist : sampleFiles.list "once" = .ok [("1", .file compiling.encode.toUTF8)] := rfl
  have hpath : Path.under "once" "1" = "once/1" := by decide
  rw [traceFiles_of_list hlist, hpath]

/-- Extending the database keeps the entry that it knows. -/
theorem load_generate_sampleFiles :
    ∃ summary after database, generate sampleFiles "once" extending = (.ok summary, after) ∧
      Database.load after "db.json" = .ok database ∧ knownEntry ∈ database ∧
      (database.map Entry.identity).Nodup ∧ summary.written = database.length := by
  have hsave := Database.save_eq_ok_iff.mpr
    ⟨_, _, ready_sampleFiles, Eq.refl (Database.moved sampleFiles _ _
      (Database.contentOf (firsts sampleFiles.contains ([knownEntry] ++
        (collect sampleFiles ["once/1"] extending.link).entries))))⟩
  have hgenerate := generate_eq_ok_iff.mpr
    ⟨_, (draft_eq_ok_iff rfl).mpr ⟨_, _, traceFiles_once, prior_sampleFiles, rfl⟩, hsave, rfl⟩
  obtain ⟨files, known, database, hfiles, hknown, hload, -, hnodup, -, hfirst, hwritten⟩ :=
    load_generate rfl hgenerate
  obtain rfl : [knownEntry] = known := Except.ok.inj (prior_sampleFiles.symm.trans hknown)
  obtain ⟨first, hmem, hfind⟩ :=
    hfirst knownEntry (List.mem_append_left _ List.mem_cons_self) (by decide)
  obtain rfl : knownEntry = first := by
    rw [List.singleton_append, List.find?_cons_of_pos (by simp; decide)] at hfind
    exact Option.some.inj hfind
  exact ⟨_, _, database, hgenerate, hload, hmem, hnodup, hwritten⟩

end CompilationDatabase.Recorder
