/-
What the entries of traces depend on.

The entries of a trace directory come from the files in it, and from the lists
of files that the recorded processes name.  So they are the same in file
systems that differ elsewhere.

* `collect_eq` — what is collected, all files and records taken together;
* `recordsOf` — the records of one file, which is read alone;
* `Collects` — which entries a directory of traces gives;
* `Aside` — the traces in a directory have nothing to do with a place;
* `collect_of_not_names` — the same is collected if only such places change.
-/
import CompilationDatabase.Recorder.Generation
import CompilationDatabase.Proofs.Compiler.Segments
import CompilationDatabase.Proofs.FileSystem.Frame

namespace CompilationDatabase.Recorder

open Compiler FileSystem

/-- What is in the trace files that can be read. -/
def tracesIn (fs : FileSystem) (files : List String) : List (List Trace.Record) :=
  files.filterMap fun file => (Trace.load fs file).toOption

/-- The records in a trace file, none if it cannot be read as text. -/
def recordsOf (fs : FileSystem) (file : String) : List Trace.Record :=
  match fs.readText file with
  | .error _ => []
  | .ok text => Trace.parse text

/-- The records of the trace files. -/
def recordsIn (fs : FileSystem) (files : List String) : List Trace.Record :=
  (tracesIn fs files).flatten

/-- The entries of a record, none if its invocation cannot be classified. -/
def entriesOf (fs : FileSystem) (record : Trace.Record) : List Entry :=
  match Entry.ofRecord fs record with
  | .ok entries => entries
  | .error _ => []

/-! ### Going through the files -/

namespace Collection

theorem addRecord_eq (fs : FileSystem) (found : Collection) (record : Trace.Record) :
    found.addRecord fs record =
      { found with entries := found.entries ++ entriesOf fs record } := by
  rw [addRecord, entriesOf]
  cases Entry.ofRecord fs record with
  | error fault => simp
  | ok entries => rfl

/-- Records put their entries behind those that were found before. -/
theorem foldl_addRecord (fs : FileSystem) (records : List Trace.Record) (found : Collection) :
    records.foldl (addRecord fs) found =
      { found with entries := found.entries ++ records.flatMap (entriesOf fs) } := by
  induction records generalizing found with
  | nil => simp
  | cons record records ih =>
    rw [List.foldl_cons, ih, addRecord_eq, List.flatMap_cons, ← List.append_assoc]

/-- Files put their entries behind those that were found before, and add to the counts. -/
theorem foldl_addFile (fs : FileSystem) (files : List String) (found : Collection) :
    files.foldl (addFile fs) found =
      { entries := found.entries ++ (recordsIn fs files).flatMap (entriesOf fs)
        traceFiles := found.traceFiles + (tracesIn fs files).length
        records := found.records + (recordsIn fs files).length } := by
  induction files generalizing found with
  | nil => simp [recordsIn, tracesIn]
  | cons file files ih =>
    rw [List.foldl_cons, ih, addFile]
    cases hload : Trace.load fs file with
    | error cause => simp [recordsIn, tracesIn, hload, Except.toOption]
    | ok records =>
      simp only [foldl_addRecord, recordsIn, tracesIn, hload, Except.toOption,
        List.filterMap_cons, List.flatten_cons, List.flatMap_append, List.append_assoc,
        List.length_cons, List.length_append, Nat.add_assoc, Nat.add_comm 1]

end Collection

/-- What is collected, all files and records taken together. -/
theorem collect_eq (fs : FileSystem) (files : List String) (link : Bool) :
    collect fs files link =
      { entries :=
          let entries := (recordsIn fs files).flatMap (entriesOf fs)
          if link then entries else entries.filter (!·.isLink)
        traceFiles := (tracesIn fs files).length
        records := (recordsIn fs files).length } := by
  rw [collect, Collection.foldl_addFile]
  cases link <;> simp

theorem entries_collect (fs : FileSystem) (files : List String) (link : Bool) :
    (collect fs files link).entries =
      ((recordsIn fs files).flatMap (entriesOf fs)).filter fun e => link || !e.isLink := by
  cases link with
  | false => simp [collect_eq]
  | true => simp [collect_eq]

/-! ### File by file -/

section

variable {fs : FileSystem}

theorem toOption_load (fs : FileSystem) (path : String) :
    (Trace.load fs path).toOption =
      ((fs.read path).toOption.bind String.fromUTF8?).map Trace.parse := by
  unfold Trace.load
  cases hread : fs.read path with
  | error cause => simp [Except.toOption]
  | ok content =>
    simp only [Except.toOption, Option.bind_some]
    cases String.fromUTF8? content with
    | none => simp only [Option.map_none]
    | some text => simp only [Option.map_some]

theorem toOption_load_eq_map (fs : FileSystem) (file : String) :
    (Trace.load fs file).toOption = (fs.readText file).toOption.map Trace.parse := by
  rw [toOption_load, readText, toOption_bind]
  refine congrArg (Option.map Trace.parse) (Option.bind_congr fun content _ => ?_)
  cases String.fromUTF8? content <;> rfl

theorem load_of_readText {file text : String} (h : fs.readText file = .ok text) :
    Trace.load fs file = .ok (Trace.parse text) := by
  rw [← toOption_eq_some_iff, toOption_load_eq_map, h]
  rfl

theorem recordsOf_eq_getD (fs : FileSystem) (file : String) :
    recordsOf fs file = (Trace.load fs file).toOption.getD [] := by
  rw [toOption_load_eq_map, recordsOf]
  cases fs.readText file <;> rfl

theorem recordsOf_of_load {file : String} {records : List Trace.Record}
    (h : Trace.load fs file = .ok records) : recordsOf fs file = records := by
  rw [recordsOf_eq_getD, h]
  rfl

theorem recordsOf_of_load_error {file : String} {cause : Trace.ReadError}
    (h : Trace.load fs file = .error cause) : recordsOf fs file = [] := by
  rw [recordsOf_eq_getD, h]
  rfl

theorem recordsIn_cons (fs : FileSystem) (file : String) (files : List String) :
    recordsIn fs (file :: files) = recordsOf fs file ++ recordsIn fs files := by
  rw [recordsOf_eq_getD, recordsIn, recordsIn, tracesIn, tracesIn]
  cases h : Trace.load fs file with
  | error cause => simp [h, Except.toOption]
  | ok records => simp [h, Except.toOption]

theorem recordsIn_eq_flatMap (fs : FileSystem) (files : List String) :
    recordsIn fs files = files.flatMap (recordsOf fs) := by
  induction files with
  | nil => rfl
  | cons file files ih => rw [recordsIn_cons, List.flatMap_cons, ih]

end

/-! ### What the entries depend on -/

/-- The lists of files that are read for a record. -/
def listsOf (fs : FileSystem) (record : Trace.Record) : List String :=
  listsRead fs record.directory (segments (record.command.drop 1))

/-- Whether the traces in the directory give the entries. -/
def Collects (fs : FileSystem) (traces : String) (link : Bool) (entries : List Entry) : Prop :=
  ∃ files, traceFiles fs traces = .ok files ∧ (collect fs files link).entries = entries

theorem Collects.unique {fs : FileSystem} {traces : String} {link : Bool}
    {entries entries' : List Entry} (h : Collects fs traces link entries)
    (h' : Collects fs traces link entries') : entries = entries' := by
  obtain ⟨files, hfiles, rfl⟩ := h
  obtain ⟨files', hfiles', rfl⟩ := h'
  obtain rfl := Except.ok.inj (hfiles.symm.trans hfiles')
  rfl

/-- No trace in the directory leads to the place, nor does a list that is read for its
records, nor the file of an entry. -/
structure Aside (fs : FileSystem) (traces : String) (link : Bool) (place : Location) : Prop where
  trace : ∀ files, traceFiles fs traces = .ok files → ∀ file ∈ files, ¬ fs.Names file place
  list : ∀ files, traceFiles fs traces = .ok files → ∀ record ∈ recordsIn fs files,
    ∀ path ∈ listsOf fs record, ¬ fs.Names path place
  entry : ∀ entries, Collects fs traces link entries → ∀ e ∈ entries, ¬ fs.Names e.file place

section

variable {places : Location → Prop} {fs fs' : FileSystem}

theorem entriesOf_eq_getD (fs : FileSystem) (record : Trace.Record) :
    entriesOf fs record =
      ((classifyIn fs record.directory record.command).toOption.map
        (Entry.ofClassification record)).getD [] := by
  rw [entriesOf, Entry.ofRecord]
  cases classifyIn fs record.directory record.command <;> rfl

theorem entriesOf_of_differAt (h : DifferAt places fs fs') {record : Trace.Record}
    (hlist : ∀ place, places place → ∀ path ∈ listsOf fs record, ¬ fs.Names path place) :
    entriesOf fs' record = entriesOf fs record := by
  rw [entriesOf_eq_getD, entriesOf_eq_getD, toOption_classifyIn]
  intro path hpath
  exact h.toOption_readText fun place hplace => hlist place hplace path hpath

theorem tracesIn_of_differAt (h : DifferAt places fs fs') {files : List String}
    (htrace : ∀ place, places place → ∀ file ∈ files, ¬ fs.Names file place) :
    tracesIn fs' files = tracesIn fs files := by
  refine List.filterMap_congr fun file hfile => ?_
  rw [toOption_load, toOption_load,
    h.toOption_read fun place hplace => htrace place hplace file hfile]

/-- What is collected is the same if neither the files nor the lists that are
read lead to a place that changes. -/
theorem collect_of_not_names (h : DifferAt places fs fs') (link : Bool) {files : List String}
    (htrace : ∀ place, places place → ∀ file ∈ files, ¬ fs.Names file place)
    (hlist : ∀ place, places place → ∀ record ∈ recordsIn fs files, ∀ path ∈ listsOf fs record,
      ¬ fs.Names path place) :
    collect fs' files link = collect fs files link := by
  have htraces : tracesIn fs' files = tracesIn fs files := tracesIn_of_differAt h htrace
  have hrecords : recordsIn fs' files = recordsIn fs files := by
    rw [recordsIn, recordsIn, htraces]
  have hentries : (recordsIn fs files).flatMap (entriesOf fs') =
      (recordsIn fs files).flatMap (entriesOf fs) :=
    List.flatMap_congr fun record hrecord =>
      entriesOf_of_differAt h fun place hplace => hlist place hplace record hrecord
  rw [collect_eq, collect_eq, htraces, hrecords, hentries]

end

end CompilationDatabase.Recorder
