/-
Runs that come to the same.

A run reads the traces in the order of their names.  So the order in which the
system lists them does not matter: where the same nodes are, a run comes to the
same, be it a failure, and again leaves the same nodes.  A run that does not
extend its database never reads it, so what was there before does not matter
either, not even if no database could be read from it.

* `generate_of_alike` — runs in file systems that are listed in another order;
* `Writes.of_unread` — runs in file systems that differ where nothing is read;
* `generate_reproducible` — both, and the order of the trace files.
-/
import CompilationDatabase.Proofs.Recorder.Appended
import CompilationDatabase.Proofs.Recorder.TraceFiles

namespace CompilationDatabase

open Compiler FileSystem

section

variable {fs fs' : FileSystem}

theorem alike_getD {x y : Except FileError FileSystem} (hresult : Alongside Alike x y)
    (h : Alike fs fs') : Alike (x.toOption.getD fs) (y.toOption.getD fs') := by
  cases hresult with
  | error e => exact h
  | ok hafter => exact hafter

namespace Database

theorem load_of_alike (h : Alike fs fs') (path : String) : load fs' path = load fs path := by
  rw [load, load, h.readText path]

theorem save_of_alike (h : Alike fs fs') (path : String) (entries : List Entry) :
    (save fs' path entries).1 = (save fs path entries).1 ∧
      Alike (save fs path entries).2 (save fs' path entries).2 := by
  rcases (h.write (temporaryPath path) (contentOf entries)).eq_or with
    ⟨cause, hwrite, hwrite'⟩ | ⟨written, written', hwrite, hwrite', hwritten⟩
  · simp only [save, hwrite, hwrite']
    exact ⟨trivial, alike_getD (h.remove _) h⟩
  · rcases (Alike.rename hwritten (temporaryPath path) path).eq_or with
      ⟨cause, hrename, hrename'⟩ | ⟨moved, moved', hrename, hrename', hmoved⟩
    · simp only [save, hwrite, hwrite', hrename, hrename']
      exact ⟨trivial, alike_getD (Alike.remove hwritten _) hwritten⟩
    · simp only [save, hwrite, hwrite', hrename, hrename']
      exact ⟨trivial, hmoved⟩

end Database

namespace Recorder

/-! ### The order of listing -/

theorem collect_of_alike (h : Alike fs fs') (files : List String) (link : Bool) :
    collect fs' files link = collect fs files link := by
  have htraces : tracesIn fs' = tracesIn fs := by
    funext files
    refine List.filterMap_congr fun path _ => ?_
    rw [Trace.load, Trace.load, h.read path]
  have hentries : entriesOf fs' = entriesOf fs := by
    funext record
    rw [entriesOf_eq_getD, entriesOf_eq_getD, toOption_classifyIn]
    intro path _
    rw [h.readText path]
  simp only [collect_eq, recordsIn, htraces, hentries]

theorem draft_of_alike (h : Alike fs fs') (traces : String) (settings : Settings) :
    draft fs' traces settings = draft fs traces settings := by
  have hprior : prior fs' settings = prior fs settings := by
    rw [prior, prior, Database.load_of_alike h]
  have hassembled : assembled fs' = assembled fs := by
    unfold assembled
    rw [h.contains]
  simp only [draft_eq_bind, traceFiles_of_alike h, hprior, collect_of_alike h, hassembled]

theorem generate_of_alike (h : Alike fs fs') (traces : String) (settings : Settings) :
    (generate fs' traces settings).1 = (generate fs traces settings).1 ∧
      Alike (generate fs traces settings).2 (generate fs' traces settings).2 := by
  unfold generate
  rw [draft_of_alike h]
  cases draft fs traces settings with
  | error failure => exact ⟨rfl, h⟩
  | ok d =>
    obtain ⟨hresult, hafter⟩ := Database.save_of_alike h settings.output d.entries
    rcases hsave : Database.save fs settings.output d.entries with ⟨result, after⟩
    rcases hsave' : Database.save fs' settings.output d.entries with ⟨result', after'⟩
    rw [hsave, hsave'] at hresult hafter
    obtain rfl : result' = result := hresult
    cases result' with
    | error fault =>
      simp only [hsave, hsave']
      exact ⟨trivial, hafter⟩
    | ok written =>
      simp only [hsave, hsave']
      exact ⟨trivial, hafter⟩

/-! ### What was there before -/

/-- The place is none of the trace files, and neither a trace nor a list that is
read for its records leads there, nor the file of an entry. -/
structure Unread (fs : FileSystem) (traces : String) (link : Bool) (place : Location) : Prop where
  plain : ∀ directory, fs.resolve traces = .ok directory → ∀ name content,
    place = directory ++ [name] → fs.node? place ≠ some (.file content)
  trace : ∀ files, traceFiles fs traces = .ok files → ∀ file ∈ files, ¬ fs.Names file place
  list : ∀ files, traceFiles fs traces = .ok files → ∀ record ∈ recordsIn fs files,
    ∀ path ∈ listsOf fs record, ¬ fs.Names path place
  entry : ∀ entries, Collects fs traces link entries → ∀ e ∈ entries, ¬ fs.Names e.file place

/-- Whether a run succeeds with the summary, and the bytes are its database. -/
def Writes (fs : FileSystem) (traces : String) (settings : Settings) (summary : Summary)
    (content : ByteArray) : Prop :=
  ∃ after, generate fs traces settings = (.ok summary, after) ∧
    after.read settings.output = .ok content

variable {places : Location → Prop} {traces : String} {settings : Settings} {summary : Summary}
  {content : ByteArray}

theorem traceFiles_of_unread {link : Bool} (h : DifferAt places fs fs')
    (hunread : ∀ place, places place → Unread fs traces link place)
    (hunread' : ∀ place, places place → Unread fs' traces link place) {files : List String}
    (hfiles : traceFiles fs traces = .ok files) : traceFiles fs' traces = .ok files := by
  obtain ⟨directory, hresolve, hdirectory, rfl⟩ := traceFiles_eq_ok_iff.mp hfiles
  have hdirectory' : fs'.node? directory = some .directory :=
    (h.directory_iff directory).mpr hdirectory
  have hresolve' : fs'.resolve traces = .ok directory :=
    h.resolve_of_isSome hresolve (by simp [hdirectory'])
  have hnames : fileNames fs' directory = fileNames fs directory := by
    refine fileNames_congr fun name => ?_
    by_cases hplace : places (directory ++ [name])
    · -- where the two differ, neither has a file in the directory
      refine iff_of_false ?_ ?_
      · rintro ⟨content, hnode⟩
        exact (hunread' _ hplace).plain directory hresolve' name content rfl hnode
      · rintro ⟨content, hnode⟩
        exact (hunread _ hplace).plain directory hresolve name content rfl hnode
    · rw [h.elsewhere _ hplace]
  exact traceFiles_eq_ok_iff.mpr ⟨directory, hresolve', hdirectory', by rw [hnames]⟩

/-- A run that does not extend its database reads nothing at such a place. -/
theorem draft_of_unread (happend : settings.append = false) (h : DifferAt places fs fs')
    (hunread : ∀ place, places place → Unread fs traces settings.link place)
    (hunread' : ∀ place, places place → Unread fs' traces settings.link place) {d : Draft}
    (hdraft : draft fs traces settings = .ok d) : draft fs' traces settings = .ok d := by
  obtain ⟨files, known, hfiles, hknown, rfl⟩ := draft_eq_ok_iff_assembled.mp hdraft
  have hnothing (fs : FileSystem) : prior fs settings = .ok [] := by
    rw [prior, happend]
    rfl
  obtain rfl : [] = known := Except.ok.inj ((hnothing fs).symm.trans hknown)
  have hcollect : collect fs' files settings.link = collect fs files settings.link :=
    collect_of_not_names h settings.link
      (fun place hplace => (hunread place hplace).trace files hfiles)
      fun place hplace => (hunread place hplace).list files hfiles
  have hassembled : assembled fs' settings.raw [] (collect fs files settings.link).entries =
      assembled fs settings.raw [] (collect fs files settings.link).entries := by
    unfold assembled
    rw [firsts_congr]
    intro e he
    exact h.contains fun place hplace => (hunread place hplace).entry _ ⟨files, hfiles, rfl⟩ e he
  exact draft_eq_ok_iff_assembled.mpr ⟨files, [], traceFiles_of_unread h hunread hunread' hfiles,
    hnothing fs', by rw [hcollect, hassembled]⟩

theorem Writes.of_unread (happend : settings.append = false) (h : DifferAt places fs fs')
    (hunread : ∀ place, places place → Unread fs traces settings.link place)
    (hunread' : ∀ place, places place → Unread fs' traces settings.link place)
    (hwrites : Writes fs traces settings summary content) :
    Writes fs' traces settings summary content := by
  obtain ⟨after, hgenerate, hread⟩ := hwrites
  obtain ⟨d, hdraft, hsave, hsummary⟩ := generate_eq_ok_iff.mp hgenerate
  obtain ⟨temporary, goal, hready, -⟩ := Database.save_eq_ok_iff.mp hsave
  have hsave' : Database.save fs' settings.output d.entries =
      (.ok (), Database.moved fs' temporary goal (Database.contentOf d.entries)) :=
    Database.save_eq_ok_iff.mpr ⟨temporary, goal, hready.differAt h, rfl⟩
  have hcontent : Database.contentOf d.entries = content :=
    Except.ok.inj ((Database.read_save hsave).symm.trans hread)
  exact ⟨_, generate_eq_ok_iff.mpr ⟨d, draft_of_unread happend h hunread hunread' hdraft, hsave',
    hsummary⟩, hcontent ▸ Database.read_save hsave'⟩

/-- **What a run writes depends neither on the order in which the system lists
the traces nor, unless the database is extended, on what was in its place.**  The
trace files are the files directly inside the directory, each once, and the bytes
of their names increase. -/
theorem generate_reproducible (traces : String) (settings : Settings) :
    (∀ fs fs' : FileSystem, fs'.workingDirectory = fs.workingDirectory →
      fs'.entries.Perm fs.entries →
      (generate fs' traces settings).1 = (generate fs traces settings).1 ∧
      (generate fs' traces settings).2.read settings.output =
        (generate fs traces settings).2.read settings.output) ∧
    (settings.append = false → ∀ (places : Location → Prop) (fs fs' : FileSystem),
      DifferAt places fs fs' →
      (∀ place, places place → Unread fs traces settings.link place ∧
        Unread fs' traces settings.link place) →
      ∀ summary content, Writes fs traces settings summary content ↔
        Writes fs' traces settings summary content) ∧
    ∀ (fs : FileSystem) (directory : Location), fs.resolve traces = .ok directory →
      fs.node? directory = some .directory →
      ∃ names : List String, traceFiles fs traces = .ok (names.map (Path.under traces)) ∧
        names.Pairwise (fun a b => Text.bytes a < Text.bytes b) ∧
        ∀ name, name ∈ names ↔
          ∃ content, fs.node? (directory ++ [name]) = some (.file content) := by
  refine ⟨?_, ?_, ?_⟩
  · intro fs fs' hdirectory hentries
    have halike : Alike fs fs' := alike_of_perm hdirectory hentries
    obtain ⟨hresult, hafter⟩ := generate_of_alike halike traces settings
    exact ⟨hresult, hafter.read settings.output⟩
  · intro happend places fs fs' h hunread summary content
    have hunread₁ (place : Location) (hplace : places place) := (hunread place hplace).1
    have hunread₂ (place : Location) (hplace : places place) := (hunread place hplace).2
    exact ⟨Writes.of_unread happend h hunread₁ hunread₂,
      Writes.of_unread happend h.symm hunread₂ hunread₁⟩
  · intro fs directory hresolve hdirectory
    have hfiles : traceFiles fs traces = .ok ((fileNames fs directory).map (Path.under traces)) :=
      traceFiles_eq_ok_iff.mpr ⟨directory, hresolve, hdirectory, rfl⟩
    have hbytes := (pairwise_fileNames fs directory).imp Text.bytes_lt_bytes
    exact ⟨fileNames fs directory, hfiles, hbytes, fun name => mem_fileNames⟩

/-! ### A database that cannot be read -/

/-- The sample files with any bytes in place of the database. -/
def filesWith (content : ByteArray) : FileSystem := sampleFiles.insert ["db.json"] (.file content)

/-- The settings that replace it. -/
def replacing : Settings := { output := "db.json" }

theorem traceFiles_filesWith (content : ByteArray) :
    traceFiles (filesWith content) "once" = .ok ["once/1"] := by
  have hlist : (filesWith content).list "once" = .ok [("1", .file compiling.encode.toUTF8)] := rfl
  have hpath : Path.under "once" "1" = "once/1" := by decide
  rw [traceFiles_of_list hlist, hpath]

theorem unread_filesWith (content : ByteArray) :
    Unread (filesWith content) "once" replacing.link ["db.json"] := by
  have hfiles := traceFiles_filesWith content
  have hresolve : (filesWith content).resolve "once" = .ok ["once"] := rfl
  refine ⟨fun directory hdirectory name _ hplace => ?_, fun files hfiles' file hfile => ?_,
    fun files hfiles' record hrecord path hpath => ?_, fun entries hentries e he => ?_⟩
  · obtain rfl := Except.ok.inj (hresolve.symm.trans hdirectory)
    simp at hplace
  · obtain rfl := Except.ok.inj (hfiles.symm.trans hfiles')
    obtain rfl := List.mem_singleton.mp hfile
    exact not_names_of_resolve ["once", "1"] rfl (by decide)
  · obtain rfl := Except.ok.inj (hfiles.symm.trans hfiles')
    rw [recordsIn_compiling rfl] at hrecord
    obtain rfl := List.mem_singleton.mp hrecord
    rw [listsOf_compiling] at hpath
    cases hpath
  · obtain rfl := (collects_compiling hfiles rfl).unique hentries
    obtain rfl := List.mem_singleton.mp he
    exact not_names_of_resolve ["a.c"] rfl (by decide)

/-- What is written is the same over a database and over bytes that are none. -/
theorem generate_reproducible_filesWith :
    ∃ summary content,
      Writes (filesWith "no database".toUTF8) "once" replacing summary content ∧
      Writes (filesWith (Database.contentOf [knownEntry])) "once" replacing summary content := by
  have hinsert (content : ByteArray) : DifferAt (· = ["db.json"]) sampleFiles (filesWith content) :=
    DifferAt.insert (by decide) (by decide) content
  have hdiffer (content content' : ByteArray) :=
    ((hinsert content).symm).trans (hinsert content')
  have hunread (content : ByteArray) : ∀ place, (place = ["db.json"] ∨ place = ["db.json"]) →
      Unread (filesWith content) "once" replacing.link place := by
    rintro _ (rfl | rfl)
    all_goals exact unread_filesWith content
  set broken := filesWith "no database".toUTF8
  obtain ⟨after, hsave⟩ : ∃ after, Database.save broken "db.json"
      (assembled broken false [] (collect broken ["once/1"] false).entries) = (.ok (), after) :=
    ⟨_, Database.save_eq_ok_iff.mpr ⟨_, _, ready_sampleFiles.differAt (hinsert _), rfl⟩⟩
  have hwrites : ∃ summary content, Writes broken "once" replacing summary content :=
    ⟨_, _, after, generate_eq_ok_iff_assembled.mpr ⟨_, [], traceFiles_filesWith _, rfl, hsave, rfl⟩,
      Database.read_save hsave⟩
  obtain ⟨summary, content, hwrites⟩ := hwrites
  obtain ⟨-, hbefore, -⟩ := generate_reproducible "once" replacing
  have hsame := hbefore rfl _ broken _ (hdiffer _ (Database.contentOf [knownEntry]))
    fun place hplace => ⟨hunread _ place hplace, hunread _ place hplace⟩
  exact ⟨summary, content, hwrites, (hsame summary content).mp hwrites⟩

end Recorder

end

end CompilationDatabase
