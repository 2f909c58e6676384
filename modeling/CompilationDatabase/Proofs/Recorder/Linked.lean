/-
Runs that record links as well.

Links are left out before duplicates are dropped.  It would be the same to leave
them out afterwards, because no link stands in the way of a compilation: entries
with one identity have the same arguments, and what an invocation does is in its
arguments (`isLink_eq_of_identity_eq`).

* `load_generate_link` — a run that records no links makes the database of one
  that does, less the links.
-/
import CompilationDatabase.Proofs.Entry.Identity
import CompilationDatabase.Proofs.Recorder.Appended
import CompilationDatabase.Proofs.Trace.Codec

namespace CompilationDatabase.Recorder

open Compiler FileSystem

variable {fs after after' : FileSystem} {traces : String} {settings : Settings}
  {summary summary' : Summary} {record record' : Trace.Record} {a b e : Entry}

/-- An entry says where its process ran and with which command, and it is about
a link just if the process linked. -/
theorem classifyIn_of_mem_entriesOf (h : e ∈ entriesOf fs record) :
    e.directory = record.directory ∧ e.command = CommandLine.join record.command ∧
      ∃ c, classifyIn fs record.directory record.command = .ok c ∧
        c.action = if e.isLink then .link else .compile := by
  rw [entriesOf, Entry.ofRecord] at h
  cases hclassify : classifyIn fs record.directory record.command with
  | error fault => simp [hclassify, Except.map] at h
  | ok c =>
    simp only [hclassify, Except.map, Entry.ofClassification] at h
    split at h
    · rename_i hlink
      obtain rfl := List.mem_singleton.mp h
      simp only [Bool.and_eq_true, beq_iff_eq] at hlink
      exact ⟨rfl, rfl, c, rfl, hlink.2⟩
    · split at h
      · rename_i hcompile
        obtain ⟨file, -, rfl⟩ := List.mem_map.mp h
        simp only [Bool.and_eq_true, beq_iff_eq] at hcompile
        exact ⟨rfl, rfl, c, rfl, hcompile.2⟩
      · cases h

/-- Entries with one identity are all about links, or all about compilations. -/
theorem isLink_eq_of_identity_eq (ha : a ∈ entriesOf fs record) (hb : b ∈ entriesOf fs record')
    (hfile : fs.contains a.file = true) (hfile' : fs.contains b.file = true)
    (hdirectory : '\x00' ∉ record.directory.toList)
    (hdirectory' : '\x00' ∉ record'.directory.toList) (hdigest : Entry.NoCollision a b)
    (h : a.identity = b.identity) : a.isLink = b.isLink := by
  obtain ⟨hplace, hcommand, c, hc, haction⟩ := classifyIn_of_mem_entriesOf ha
  obtain ⟨hplace', hcommand', c', hc', haction'⟩ := classifyIn_of_mem_entriesOf hb
  have hkey := (Entry.key_eq_iff (nul_not_mem_of_contains hfile) (nul_not_mem_of_contains hfile')
    (hplace ▸ hdirectory) (hplace' ▸ hdirectory')).mp (hdigest.identity_eq_iff_key_eq.mp h)
  obtain ⟨-, hsame, harguments⟩ := hkey
  have hwords : record'.command.drop 1 = record.command.drop 1 := by
    rw [hcommand, hcommand', Entry.argumentsOf_join, Entry.argumentsOf_join] at harguments
    exact (CommandLine.join_inj.mp harguments).symm
  -- the same arguments in the same directory do the same
  rw [← hplace', ← hsame, hplace] at hc'
  have hclass := eq_withCxx_of_classifyIn hwords hc hc'
  have hactions : (if a.isLink then Action.link else .compile) =
      if b.isLink then Action.link else .compile := by
    rw [← haction, ← haction', hclass]
    rfl
  cases hlink : a.isLink <;> cases hlink' : b.isLink <;> simp [hlink, hlink'] at hactions ⊢

/-- What a run writes that extends no database. -/
theorem save_anew {entries : List Entry} (happend : settings.append = false)
    (hraw : settings.raw = false) (hcollects : Collects fs traces settings.link entries)
    (h : generate fs traces settings = (.ok summary, after)) :
    Database.save fs settings.output (firsts fs.contains entries) = (.ok (), after) := by
  have hprior : prior fs settings = .ok [] := by rw [prior, if_neg (by simp [happend])]
  have hsave := save_of_collects hraw hprior hcollects h
  rwa [List.nil_append] at hsave

theorem Collects.withoutLinks {entries : List Entry} (h : Collects fs traces true entries) :
    Collects fs traces false (entries.filter (!·.isLink)) := by
  obtain ⟨files, hfiles, rfl⟩ := h
  exact ⟨files, hfiles, rfl⟩

theorem Collects.exists_record {entries : List Entry} (h : Collects fs traces true entries)
    (he : e ∈ entries) :
    ∃ files, traceFiles fs traces = .ok files ∧
      ∃ record ∈ recordsIn fs files, e ∈ entriesOf fs record := by
  obtain ⟨files, hfiles, rfl⟩ := h
  rw [collect_eq] at he
  exact ⟨files, hfiles, List.mem_flatMap.mp he⟩

/-- **Without links, a database is exactly the one with links less its links**,
to the byte: no link has the identity of a compilation, and so none takes its
place.  Digests are taken of the entries whose file exists; the others are
dropped before. -/
theorem load_generate_link (happend : settings.append = false) (hraw : settings.raw = false)
    (hdirectory : ∀ files, traceFiles fs traces = .ok files →
      ∀ record ∈ recordsIn fs files, '\x00' ∉ record.directory.toList)
    (hdigest : ∀ entries, Collects fs traces true entries → ∀ a ∈ entries, ∀ b ∈ entries,
      fs.contains a.file = true → fs.contains b.file = true → Entry.NoCollision a b)
    (h : generate fs traces { settings with link := true } = (.ok summary, after))
    (h' : generate fs traces { settings with link := false } = (.ok summary', after')) :
    ∃ entries database, Collects fs traces true entries ∧
      Database.load after settings.output = .ok database ∧
      Database.load after' settings.output = .ok (database.filter (!·.isLink)) ∧
      after'.read settings.output = .ok (Database.contentOf (database.filter (!·.isLink))) ∧
      ∀ a ∈ entries, ∀ b ∈ entries, fs.contains a.file = true → fs.contains b.file = true →
        a.isLink = true → b.isLink = false → a.identity ≠ b.identity := by
  obtain ⟨entries, hentries⟩ : ∃ entries, Collects fs traces true entries := by
    obtain ⟨d, hdraft, -⟩ := generate_eq_ok_iff.mp h
    obtain ⟨files, -, hfiles, -⟩ := (draft_eq_ok_iff (by exact hraw)).mp hdraft
    exact ⟨_, files, hfiles, rfl⟩
  have hsame : ∀ a ∈ entries, ∀ b ∈ entries, fs.contains a.file = true →
      fs.contains b.file = true → a.identity = b.identity → a.isLink = b.isLink := by
    intro a ha b hb hfile hfile' hidentity
    obtain ⟨files, hfiles, record, hrecord, ha'⟩ := hentries.exists_record ha
    obtain ⟨files', hfiles', record', hrecord', hb'⟩ := hentries.exists_record hb
    exact isLink_eq_of_identity_eq ha' hb' hfile hfile' (hdirectory files hfiles record hrecord)
      (hdirectory files' hfiles' record' hrecord')
      (hdigest entries hentries a ha b hb hfile hfile') hidentity
  have hsave := save_anew (by exact happend) (by exact hraw) hentries h
  have hsave' := save_anew (by exact happend) (by exact hraw) hentries.withoutLinks h'
  -- leaving out the links before is leaving them out of what is kept
  rw [firsts_filter fun a ha b hb hfile hfile' hidentity =>
    congrArg (!·) (hsame a ha b hb hfile hfile' hidentity)] at hsave'
  refine ⟨entries, Entry.sort (firsts fs.contains entries), hentries, Database.load_save hsave,
    ?_, ?_, fun a ha b hb hfile hfile' hlink hcompile hidentity => ?_⟩
  · rw [← Entry.sort_filter]
    exact Database.load_save hsave'
  · rw [← Entry.sort_filter, Database.contentOf_eq_of_perm (Entry.sort_perm _)]
    exact Database.read_save hsave'
  · have hkind := hsame a ha b hb hfile hfile' hidentity
    rw [hlink, hcompile] at hkind
    cases hkind

/-! ### A program that is compiled and linked -/

/-- The process that linked the program. -/
def linking : Trace.Record where
  pid := "8"
  ppid := "1"
  function := "execve"
  directory := "/"
  command := ["ld", "-o", "app", "a.o"]

/-- What the process adds to a database. -/
def linkEntry : Entry :=
  { command := "ld -o app a.o", directory := "/", file := "/app", objects := some ["/a.o"] }

/-- The program and its source file, with the trace of both processes. -/
def builtFiles : FileSystem where
  entries :=
    [(["a.c"], .file .empty), (["app"], .file .empty), (["build"], .directory),
      (["build", "1"], .file (compiling.encode ++ linking.encode).toUTF8)]
  distinct := by decide
  workingDirectory := []

theorem ready_builtFiles :
    Database.Ready builtFiles "db.json" ⟨[], "db.json.tmp", false⟩ ⟨[], "db.json", false⟩ where
  target_temporary := rfl
  target_goal := rfl
  writable_temporary := ⟨by decide, by decide, by decide, by decide⟩
  writable_goal := ⟨by decide, by decide, by decide, by decide⟩

theorem entriesOf_linking (fs : FileSystem) : entriesOf fs linking = [linkEntry] := by
  have hflag : findRule "-o" = some ⟨"output", .exactly ["-o"], .two, .output⟩ := rfl
  have hsegments : segments (linking.command.drop 1) =
      [.matched ⟨"output", .exactly ["-o"], .two, .output⟩ "-o" ["app"],
        .matched ⟨"file", .positional, .one, .file⟩ "a.o" []] := by
    show segments ["-o", "app", "a.o"] = _
    rw [segments_matched hflag (by decide)]
    exact congrArg (List.cons _) (segments_file rfl)
  have hclassify : classifyIn fs linking.directory linking.command =
      .ok { action := .link, files := ["a.o"], output := some "app" } := by
    rw [classifyIn_eq_foldlM, hsegments]
    rfl
  rw [entriesOf, Entry.ofRecord, hclassify]
  rfl

theorem traceFiles_build : traceFiles builtFiles "build" = .ok ["build/1"] := by
  have hlist : builtFiles.list "build" =
      .ok [("1", .file (compiling.encode ++ linking.encode).toUTF8)] := rfl
  have hpath : Path.under "build" "1" = "build/1" := by decide
  rw [traceFiles, hlist]
  simp [Node.isFile, hpath]

theorem recordsIn_build : recordsIn builtFiles ["build/1"] = [compiling, linking] := by
  have hread : builtFiles.read "build/1" =
      .ok (compiling.encode ++ linking.encode).toUTF8 := rfl
  have hload : Trace.load builtFiles "build/1" = .ok [compiling, linking] := by
    rw [load_of_readText (readText_of_read hread)]
    rfl
  simp [recordsIn, tracesIn, hload, Except.toOption]

theorem collects_build : Collects builtFiles "build" true [freshEntry, linkEntry] := by
  refine ⟨_, traceFiles_build, ?_⟩
  rw [collect_eq, recordsIn_build]
  simp [entriesOf_compiling, entriesOf_linking]

/-- The compilation is kept without the link, whose identity is another one. -/
theorem load_generate_link_builtFiles :
    ∃ summary after summary' after' database,
      generate builtFiles "build" { output := "db.json", link := true } = (.ok summary, after) ∧
      generate builtFiles "build" { output := "db.json", link := false } = (.ok summary', after') ∧
      Database.load after "db.json" = .ok database ∧
      Database.load after' "db.json" = .ok (database.filter (!·.isLink)) ∧
      linkEntry.identity ≠ freshEntry.identity := by
  have hsave (entries : List Entry) : Database.save builtFiles "db.json" entries = (.ok (),
      Database.moved builtFiles ⟨[], "db.json.tmp", false⟩ ⟨[], "db.json", false⟩
        (Database.contentOf entries)) :=
    Database.save_eq_ok_iff.mpr ⟨_, _, ready_builtFiles, rfl⟩
  obtain ⟨summary, h⟩ : ∃ summary,
      generate builtFiles "build" { output := "db.json", link := true } = (.ok summary, _) :=
    generate_of_collects rfl rfl collects_build (hsave _)
  obtain ⟨summary', h'⟩ : ∃ summary',
      generate builtFiles "build" { output := "db.json", link := false } = (.ok summary', _) :=
    generate_of_collects rfl rfl collects_build.withoutLinks (hsave _)
  have hdirectory : ∀ files, traceFiles builtFiles "build" = .ok files →
      ∀ record ∈ recordsIn builtFiles files, '\x00' ∉ record.directory.toList := by
    intro files hfiles record hrecord
    obtain rfl := Except.ok.inj (traceFiles_build.symm.trans hfiles)
    rw [recordsIn_build] at hrecord
    simp only [List.mem_cons, List.not_mem_nil, or_false] at hrecord
    rcases hrecord with rfl | rfl <;> decide
  have hdigest : ∀ entries, Collects builtFiles "build" true entries → ∀ a ∈ entries,
      ∀ b ∈ entries, builtFiles.contains a.file = true → builtFiles.contains b.file = true →
        Entry.NoCollision a b := by
    intro entries hentries a ha b hb _ _
    obtain rfl := collects_build.unique hentries
    simp only [List.mem_cons, List.not_mem_nil, or_false] at ha hb
    rcases ha with rfl | rfl <;> rcases hb with rfl | rfl
    · exact fun _ => rfl
    · exact fun hsame => absurd hsame (by decide +kernel)
    · exact fun hsame => absurd hsame (by decide +kernel)
    · exact fun _ => rfl
  have happend : ({ output := "db.json" } : Settings).append = false := rfl
  obtain ⟨entries, database, hentries, hload, hload', -, hidentity⟩ :=
    load_generate_link happend rfl hdirectory hdigest h h'
  obtain rfl := collects_build.unique hentries
  exact ⟨summary, _, summary', _, database, h, h', hload, hload',
    hidentity linkEntry (by simp) freshEntry (by simp) (by decide) (by decide) rfl rfl⟩

end CompilationDatabase.Recorder
