/-
A database among its traces.

A database may be written into the directory of the traces that it is made from.  It is
then listed with them and read as one of them.  Its text has no separator, so it holds no
record (`parse_renderEntries`), and the others are read as before.

* `recordsIn_of_save` — the same records are found once a database was written;
* `collects_of_save` — and so are the same entries.
-/
import CompilationDatabase.Proofs.Database.Saved
import CompilationDatabase.Proofs.Json.Printable
import CompilationDatabase.Proofs.Recorder.TraceFiles
import CompilationDatabase.Proofs.Trace.Damaged

namespace CompilationDatabase

/-- A text without control characters but line feeds holds no record. -/
theorem Trace.parse_of_isPrintable {text : List Char} (h : Json.IsPrintable text) :
    parse (String.ofList text) = [] := by
  have hgroup : groupSeparator ∉ text := fun hmem => absurd (h _ hmem) (by decide)
  have hfield : fieldSeparator ∉ Text.trim Text.isAsciiBlank text := fun hmem =>
    absurd (h _ (Text.trim_subset _ _ hmem)) (by decide)
  -- the text is one group, and the group one field
  have hread : readGroup text = none := by
    refine (parseGroup_eq_none_iff _).mpr (.inl ?_)
    rw [List.splitOn_eq_singleton hfield, List.length_singleton]
    decide
  rw [parse_ofList hgroup, hread]
  rfl

/-- The text of a database holds no record. -/
theorem parse_renderEntries (entries : List Entry) : Trace.parse (renderEntries entries) = [] :=
  Trace.parse_of_isPrintable (Json.isPrintable_append.mpr
    ⟨Json.isPrintable_pretty 0 _ (Entry.isTextual_array_toJson entries), by decide⟩)

/-- What is found at the places of a written database is its content. -/
theorem Database.eq_contentOf_of_uses {fs after : FileSystem} {path : String}
    {entries : List Entry} {place : Location} {content : ByteArray}
    (h : save fs path entries = (.ok (), after)) (huses : Uses fs path place)
    (hnode : after.node? place = some (.file content)) : content = contentOf entries := by
  obtain ⟨temporary, goal, hready, rfl⟩ := save_eq_ok_iff.mp h
  by_cases hgoal : place = goal.location
  · rw [hgoal, moved, FileSystem.node?_insert_self _ _ (FileSystem.location_ne_nil goal)] at hnode
    exact (Node.file.inj (Option.some.inj hnode)).symm
  · -- the file beside the database is gone
    obtain rfl := (hready.uses_iff.mp huses).resolve_right hgoal
    rw [moved, FileSystem.node?_insert_of_ne _ _ hgoal,
      FileSystem.node?_erase_self _ (FileSystem.location_ne_nil temporary)] at hnode
    cases hnode

namespace Recorder

open FileSystem

variable {fs after : FileSystem} {path traces : String} {entries : List Entry}

/-! ### The places of a database in the directory of traces -/

section

variable {directory : Location} {name : String}

/-- A name in a directory that is a place of the database leads to this place. -/
theorem eq_of_resolve_under_of_uses (h : Database.save fs path entries = (.ok (), after))
    (huses : Database.Uses fs path (directory ++ [name])) {fs' : FileSystem} {place : Location}
    (hdirectory : fs'.resolve traces = .ok directory)
    (hresolve : fs'.resolve (Path.under traces name) = .ok place) :
    place = directory ++ [name] := by
  obtain ⟨temporary, goal, hready, -⟩ := Database.save_eq_ok_iff.mp h
  have hplain : ∃ t : Target, fs.Writable t ∧ '/' ∉ t.name.toList ∧
      directory ++ [name] = t.location := by
    rcases hready.uses_iff.mp huses with heq | heq
    · exact ⟨temporary, hready.writable_temporary,
        slash_not_mem_of_target hready.target_temporary, heq⟩
    · exact ⟨goal, hready.writable_goal, slash_not_mem_of_target hready.target_goal, heq⟩
  obtain ⟨t, hwritable, hslash, heq⟩ := hplain
  obtain ⟨rfl, rfl⟩ : directory = t.directory ∧ name = t.name := by
    simpa [Target.location, List.append_singleton_inj] using heq
  obtain ⟨hstay, hup⟩ : Path.isStay t.name = false ∧ t.name ≠ ".." := by
    simpa [Target.isSpecial] using hwritable.plain
  exact eq_of_resolve_under hdirectory hslash hstay hup hresolve

/-- A file gives no record if no text that it is read as holds one. -/
theorem recordsOf_eq_nil {file : String} (h : ∀ place content, fs.resolve file = .ok place →
      fs.node? place = some (.file content) → ∀ text, String.fromUTF8? content = some text →
      Trace.parse text = []) : recordsOf fs file = [] := by
  unfold recordsOf
  split
  · rfl
  · rename_i text hread
    obtain ⟨content, hcontent, htext⟩ := bind_eq_ok_iff.mp hread
    obtain ⟨place, hresolve, hnode⟩ := read_eq_ok_iff.mp hcontent
    refine h place content hresolve hnode text ?_
    split at htext
    · rename_i text' htext'
      exact htext'.trans (congrArg some (Except.ok.inj htext))
    · cases htext

/-- Before the database is written, its places give no record, if no trace leads there. -/
theorem recordsOf_of_not_names (h : Database.save fs path entries = (.ok (), after))
    (huses : Database.Uses fs path (directory ++ [name]))
    (hdirectory : fs.resolve traces = .ok directory)
    (hnames : ¬ fs.Names (Path.under traces name) (directory ++ [name])) :
    recordsOf fs (Path.under traces name) = [] := by
  refine recordsOf_eq_nil fun place content hresolve hnode => ?_
  obtain rfl := eq_of_resolve_under_of_uses h huses hdirectory hresolve
  exact absurd ((Database.differAt_save h).names_of_resolve hresolve huses) hnames

/-- Once the database is written, it is read there, and gives no record. -/
theorem recordsOf_of_save (h : Database.save fs path entries = (.ok (), after))
    (huses : Database.Uses fs path (directory ++ [name]))
    (hdirectory : after.resolve traces = .ok directory) :
    recordsOf after (Path.under traces name) = [] := by
  refine recordsOf_eq_nil fun place content hresolve hnode text htext => ?_
  obtain rfl := eq_of_resolve_under_of_uses h huses hdirectory hresolve
  obtain rfl := Database.eq_contentOf_of_uses h huses hnode
  rw [Database.contentOf, Text.fromUTF8?_toUTF8] at htext
  rw [← Option.some.inj htext]
  exact parse_renderEntries _

end

/-! ### All traces -/

/-- Items that give nothing may be left out. -/
theorem flatMap_filter_eq {α β : Type} {among : α → Bool} {f : α → List β} {items : List α}
    (h : ∀ a ∈ items, among a = false → f a = []) :
    (items.filter among).flatMap f = items.flatMap f := by
  induction items with
  | nil => rfl
  | cons a items ih =>
    obtain ⟨ha, hitems⟩ := List.forall_mem_cons.mp h
    rw [List.flatMap_cons, List.filter_cons, ← ih hitems]
    split
    · rw [List.flatMap_cons]
    · rename_i hamong
      rw [ha (by simpa using hamong), List.nil_append]

/-- Two lists give the same if they do so where they have the same items, and nothing
elsewhere. -/
theorem flatMap_eq_of_filter_eq {α β : Type} {among : α → Bool} {f f' : α → List β}
    {items items' : List α} (hitems : items'.filter among = items.filter among)
    (hsame : ∀ a ∈ items, among a = true → f' a = f a)
    (h : ∀ a ∈ items, among a = false → f a = [])
    (h' : ∀ a ∈ items', among a = false → f' a = []) : items'.flatMap f' = items.flatMap f := by
  rw [← flatMap_filter_eq h, ← flatMap_filter_eq h', hitems]
  refine List.flatMap_congr fun a ha => ?_
  obtain ⟨hmem, hamong⟩ := List.mem_filter.mp ha
  exact hsame a hmem hamong

/-- The same records are found once a database was written, if no trace leads to its
places. -/
theorem recordsIn_of_save (h : Database.save fs path entries = (.ok (), after))
    {files : List String} (hfiles : traceFiles fs traces = .ok files)
    (htrace : ∀ place, Database.Uses fs path place → ∀ file ∈ files, ¬ fs.Names file place) :
    ∃ files', traceFiles after traces = .ok files' ∧
      recordsIn after files' = recordsIn fs files := by
  classical
  have hdiffer := Database.differAt_save h
  obtain ⟨directory, hresolve, hdirectory, rfl⟩ := traceFiles_eq_ok_iff.mp hfiles
  have hdirectory' := (hdiffer.directory_iff directory).mpr hdirectory
  have hresolve' := hdiffer.resolve_of_isSome hresolve (by simp [hdirectory'])
  have htrace' (place : Location) (huses : Database.Uses fs path place) {name : String}
      (hname : name ∈ fileNames fs directory) : ¬ fs.Names (Path.under traces name) place :=
    htrace place huses _ (List.mem_map_of_mem hname)
  refine ⟨_, traceFiles_eq_ok_iff.mpr ⟨directory, hresolve', hdirectory', rfl⟩, ?_⟩
  rw [recordsIn_eq_flatMap, recordsIn_eq_flatMap, List.flatMap_map, List.flatMap_map]
  -- the places of the database give nothing, and the other names are the same
  let among (name : String) : Bool := !decide (Database.Uses fs path (directory ++ [name]))
  have huses {name : String} (hamong : among name = false) :
      Database.Uses fs path (directory ++ [name]) := by simpa [among] using hamong
  have hnames : (fileNames after directory).filter among = (fileNames fs directory).filter among :=
    filter_fileNames_congr fun name hname => by
      rw [hdiffer.elsewhere _ (by simpa [among] using hname)]
  refine flatMap_eq_of_filter_eq hnames (fun name hname _ => ?_) (fun name hname hamong => ?_)
    fun name _ hamong => recordsOf_of_save h (huses hamong) hresolve'
  · rw [recordsOf_eq_getD, recordsOf_eq_getD, toOption_load_eq_map, toOption_load_eq_map,
      hdiffer.toOption_readText fun place hplace => htrace' place hplace hname]
  · exact recordsOf_of_not_names h (huses hamong) hresolve (htrace' _ (huses hamong) hname)

/-- The same entries are collected once a database was written, if its places are aside. -/
theorem collects_of_save {link : Bool} {fresh : List Entry}
    (h : Database.save fs path entries = (.ok (), after))
    (haside : ∀ place, Database.Uses fs path place → Aside fs traces link place)
    (hcollects : Collects fs traces link fresh) : Collects after traces link fresh := by
  obtain ⟨files, hfiles, rfl⟩ := hcollects
  obtain ⟨files', hfiles', hrecords⟩ :=
    recordsIn_of_save h hfiles fun place hplace => (haside place hplace).trace files hfiles
  have hentries : (recordsIn fs files).flatMap (entriesOf after) =
      (recordsIn fs files).flatMap (entriesOf fs) :=
    List.flatMap_congr fun record hrecord =>
      entriesOf_of_differAt (Database.differAt_save h) fun place hplace =>
        (haside place hplace).list files hfiles record hrecord
  exact ⟨files', hfiles', by rw [entries_collect, entries_collect, hrecords, hentries]⟩

end Recorder

end CompilationDatabase
