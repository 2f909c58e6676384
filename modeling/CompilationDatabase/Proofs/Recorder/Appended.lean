/-
Runs that extend a database.

A run that extends a database keeps what is there, sorted, and puts behind it
what is new.  Which of several entries with one identity is kept does not
depend on that order: what was kept tells its entries apart and stands for all
that was met before.  So runs one after the other come to the same as one run
over all traces, as long as the database itself is no part of what it is made
from (`Aside`).  It may lie among its traces all the same, for it is read there as
a trace without records.

* `firsts_after_save` — what is kept after a database was written is what would
  have been kept without writing it;
* `read_generate_append` — a database extended twice is the one extended once
  with all the entries, and extending it again with the same traces changes
  nothing.
-/
import CompilationDatabase.Proofs.Recorder.AmongTraces
import CompilationDatabase.Proofs.Recorder.Generated

namespace CompilationDatabase.Recorder

open Compiler FileSystem

variable {fs after : FileSystem} {traces : String} {settings : Settings} {summary : Summary}
  {known fresh : List Entry}

/-- What a run writes, by the entries that it knows and collects. -/
theorem save_of_collects (hraw : settings.raw = false) (hknown : prior fs settings = .ok known)
    (hfresh : Collects fs traces settings.link fresh)
    (h : generate fs traces settings = (.ok summary, after)) :
    Database.save fs settings.output (firsts fs.contains (known ++ fresh)) = (.ok (), after) := by
  obtain ⟨files, known', hfiles, hknown', hsave, -⟩ := save_of_generate hraw h
  obtain rfl : known = known' := Except.ok.inj (hknown.symm.trans hknown')
  obtain rfl := hfresh.unique ⟨files, hfiles, rfl⟩
  exact hsave

theorem generate_of_collects (hraw : settings.raw = false) (hknown : prior fs settings = .ok known)
    (hfresh : Collects fs traces settings.link fresh)
    (h : Database.save fs settings.output (firsts fs.contains (known ++ fresh)) = (.ok (), after)) :
    ∃ summary, generate fs traces settings = (.ok summary, after) := by
  obtain ⟨files, hfiles, rfl⟩ := hfresh
  exact ⟨_, generate_eq_ok_iff.mpr
    ⟨_, (draft_eq_ok_iff hraw).mpr ⟨files, known, hfiles, hknown, rfl⟩, h, rfl⟩⟩

/-- A run that extends a written database knows its entries, sorted. -/
theorem prior_of_save {entries : List Entry} (happend : settings.append = true)
    (h : Database.save fs settings.output entries = (.ok (), after)) :
    prior after settings = .ok (Entry.sort entries) := by
  rw [prior, if_pos happend, Database.load_save h]
  rfl

/-- What is kept after a database was written is what would have been kept
without writing it. -/
theorem firsts_after_save {first : FileSystem} {path : String} {more : List Entry}
    (h : Database.save fs path (firsts fs.contains known) = (.ok (), first))
    (hnames : ∀ place, Database.Uses fs path place →
      ∀ e ∈ known ++ more, ¬ fs.Names e.file place) :
    (firsts first.contains (Entry.sort (firsts fs.contains known) ++ more)).Perm
      (firsts fs.contains (known ++ more)) := by
  have hcontains : ∀ e ∈ Entry.sort (firsts fs.contains known) ++ more,
      first.contains e.file = fs.contains e.file := by
    intro e he
    have hmem : e ∈ known ++ more := by
      rcases List.mem_append.mp he with hkept | hmore
      · exact List.mem_append_left more
          ((firsts_sublist fs.contains known).subset (Entry.mem_sort.mp hkept))
      · exact List.mem_append_right known hmore
    exact (Database.differAt_save h).contains fun place hplace => hnames place hplace e hmem
  -- the order in which the kept entries were written does not matter
  rw [firsts_congr hcontains]
  exact firsts_append_perm (Entry.sort_perm _) more

/-- The bytes of a database that was written twice. -/
theorem read_after_saves {first second : FileSystem} {path : String} {more : List Entry}
    (h : Database.save fs path (firsts fs.contains known) = (.ok (), first))
    (h' : Database.save first path
      (firsts first.contains (Entry.sort (firsts fs.contains known) ++ more)) = (.ok (), second))
    (hnames : ∀ place, Database.Uses fs path place →
      ∀ e ∈ known ++ more, ¬ fs.Names e.file place) :
    second.read path = .ok (Database.contentOf (firsts fs.contains (known ++ more))) := by
  rw [Database.read_save h', Database.contentOf_eq_of_perm (firsts_after_save h hnames)]

/-- **Extending a database twice comes to the same bytes as extending it once
with all the entries, and extending it again with the same traces changes no
byte.** -/
theorem read_generate_append {first : FileSystem} {traces₁ : String} {summary₁ : Summary}
    (happend : settings.append = true) (hraw : settings.raw = false)
    (hknown : ∀ place, Database.Uses fs settings.output place → ∀ known,
      prior fs settings = .ok known → ∀ e ∈ known, ¬ fs.Names e.file place)
    (haside₁ : ∀ place, Database.Uses fs settings.output place →
      Aside fs traces₁ settings.link place)
    (h₁ : generate fs traces₁ settings = (.ok summary₁, first)) :
    (∀ (traces₂ traces : String) (fresh₁ fresh₂ : List Entry) (second whole : FileSystem)
      (summary₂ summary : Summary),
      (∀ place, Database.Uses fs settings.output place → Aside fs traces₂ settings.link place) →
      Collects fs traces₁ settings.link fresh₁ → Collects fs traces₂ settings.link fresh₂ →
      Collects fs traces settings.link (fresh₁ ++ fresh₂) →
      generate first traces₂ settings = (.ok summary₂, second) →
      generate fs traces settings = (.ok summary, whole) →
      ∃ content, second.read settings.output = .ok content ∧
        whole.read settings.output = .ok content) ∧
    ∃ content again summary', first.read settings.output = .ok content ∧
      generate first traces₁ settings = (.ok summary', again) ∧
      again.read settings.output = .ok content := by
  obtain ⟨files, known, hfiles, hprior, -⟩ := save_of_generate hraw h₁
  have hcollected : Collects fs traces₁ settings.link (collect fs files settings.link).entries :=
    ⟨files, hfiles, rfl⟩
  have hnames {fresh more : List Entry} (hfresh : Collects fs traces₁ settings.link fresh)
      (hmore : ∀ place, Database.Uses fs settings.output place →
        ∀ e ∈ more, ¬ fs.Names e.file place) :
      ∀ place, Database.Uses fs settings.output place →
        ∀ e ∈ known ++ fresh ++ more, ¬ fs.Names e.file place := by
    intro place hplace e he
    rcases List.mem_append.mp he with he | he
    · rcases List.mem_append.mp he with he | he
      · exact hknown place hplace known hprior e he
      · exact (haside₁ place hplace).entry fresh hfresh e he
    · exact hmore place hplace e he
  constructor
  · intro traces₂ traces fresh₁ fresh₂ second whole summary₂ summary haside₂ hfresh₁ hfresh₂
      hfresh h₂ h
    have hsave := save_of_collects hraw hprior hfresh₁ h₁
    have hsave₂ := save_of_collects hraw (prior_of_save happend hsave)
      (collects_of_save hsave haside₂ hfresh₂) h₂
    -- one run over all traces puts the same entries behind the known ones
    have hwhole := Database.read_save (save_of_collects hraw hprior hfresh h)
    rw [← List.append_assoc] at hwhole
    exact ⟨_, read_after_saves hsave hsave₂
      (hnames hfresh₁ fun place hplace => (haside₂ place hplace).entry fresh₂ hfresh₂), hwhole⟩
  · set fresh := (collect fs files settings.link).entries
    have hsave := save_of_collects hraw hprior hcollected h₁
    -- once more, the same entries are collected, and all of them were met before
    obtain ⟨again, hsave'⟩ := Database.save_again hsave
      (firsts first.contains (Entry.sort (firsts fs.contains (known ++ fresh)) ++ fresh))
    obtain ⟨summary', h'⟩ := generate_of_collects hraw (prior_of_save happend hsave)
      (collects_of_save hsave haside₁ hcollected) hsave'
    refine ⟨_, again, summary', Database.read_save hsave, h', ?_⟩
    rw [read_after_saves hsave hsave'
        (hnames hcollected fun place hplace => (haside₁ place hplace).entry fresh hcollected),
      firsts_append_of_subset (List.subset_append_right known fresh)]

/-! ### A process that was met twice -/

/-- What the process adds to a database. -/
def freshEntry : Entry := { command := "cc -c a.c", directory := "/", file := "/a.c" }

theorem segments_file {token : String}
    (h : findRule token = some ⟨"file", .positional, .one, .file⟩) :
    segments [token] = [.matched ⟨"file", .positional, .one, .file⟩ token []] := by
  rw [segments_matched h (by simp [Rule.extra])]
  simp [Rule.extra, segments]

theorem segments_compiling :
    segments (compiling.command.drop 1) =
      [.matched ⟨"compile", .exactly ["-c"], .one, .action .compile⟩ "-c" [],
        .matched ⟨"file", .positional, .one, .file⟩ "a.c" []] := by
  have hflag : findRule "-c" = some ⟨"compile", .exactly ["-c"], .one, .action .compile⟩ := rfl
  show segments ["-c", "a.c"] = _
  rw [segments_matched hflag (by decide)]
  exact congrArg (List.cons _) (segments_file rfl)

theorem entriesOf_compiling (fs : FileSystem) : entriesOf fs compiling = [freshEntry] := by
  have hclassify : classifyIn fs compiling.directory compiling.command =
      .ok { action := .compile, files := ["a.c"] } := by
    rw [classifyIn_eq_foldlM, segments_compiling]
    rfl
  rw [entriesOf, Entry.ofRecord, hclassify]
  rfl

theorem listsOf_compiling (fs : FileSystem) : listsOf fs compiling = [] := by
  rw [listsOf, segments_compiling]
  rfl

theorem load_compiling {fs : FileSystem} {file : String}
    (h : fs.read file = .ok compiling.encode.toUTF8) : Trace.load fs file = .ok [compiling] :=
  (load_of_readText (readText_of_read h)).trans rfl

theorem recordsIn_compiling {fs : FileSystem} {file : String}
    (h : fs.read file = .ok compiling.encode.toUTF8) : recordsIn fs [file] = [compiling] := by
  simp [recordsIn, tracesIn, load_compiling h, Except.toOption]

/-- A trace of the process gives its entry. -/
theorem collects_compiling {fs : FileSystem} {traces file : String}
    (hfiles : traceFiles fs traces = .ok [file])
    (hread : fs.read file = .ok compiling.encode.toUTF8) :
    Collects fs traces false [freshEntry] := by
  refine ⟨_, hfiles, ?_⟩
  rw [collect_eq, recordsIn_compiling hread]
  simp [entriesOf_compiling, freshEntry, Entry.isLink]

theorem recordsIn_once : recordsIn sampleFiles ["once/1"] = [compiling] := recordsIn_compiling rfl

theorem collects_once : Collects sampleFiles "once" false [freshEntry] :=
  collects_compiling traceFiles_once rfl

theorem collects_twice : Collects sampleFiles "twice" false ([freshEntry] ++ [freshEntry]) := by
  have hlist : sampleFiles.list "twice" =
      .ok [("1", .file compiling.encode.toUTF8), ("2", .file compiling.encode.toUTF8)] := rfl
  have hpaths : [Path.under "twice" "1", Path.under "twice" "2"] = ["twice/1", "twice/2"] := by
    decide
  have hfiles : traceFiles sampleFiles "twice" = .ok ["twice/1", "twice/2"] := by
    rw [traceFiles_of_list_pair (by decide) hlist, hpaths]
  have hrecords : recordsIn sampleFiles ["twice/1", "twice/2"] = [compiling, compiling] := by
    have hload₁ : Trace.load sampleFiles "twice/1" = .ok [compiling] := load_compiling rfl
    have hload₂ : Trace.load sampleFiles "twice/2" = .ok [compiling] := load_compiling rfl
    simp [recordsIn, tracesIn, hload₁, hload₂, Except.toOption]
  refine ⟨_, hfiles, ?_⟩
  rw [collect_eq, hrecords]
  simp [entriesOf_compiling, freshEntry, Entry.isLink]

/-- The settings that make a database among the traces of the process. -/
def among : Settings := { output := "once/db.json", append := true }

theorem ready_among : Database.Ready sampleFiles "once/db.json"
    ⟨["once"], "db.json.tmp", false⟩ ⟨["once"], "db.json", false⟩ where
  target_temporary := rfl
  target_goal := rfl
  writable_temporary := ⟨by decide, by decide, by decide, by decide⟩
  writable_goal := ⟨by decide, by decide, by decide, by decide⟩

/-- The places of either database are apart from the trace and the files. -/
theorem apart_sampleFiles {settings : Settings} (h : settings ∈ [extending, among]) :
    settings.append = true ∧ settings.raw = false ∧ settings.link = false ∧
      ∃ known temporary goal, prior sampleFiles settings = .ok known ∧
        Database.Ready sampleFiles settings.output temporary goal ∧
        ∀ place, place = temporary.location ∨ place = goal.location →
          ¬ sampleFiles.Names "once/1" place ∧ ¬ sampleFiles.Names "/a.c" place ∧
            ∀ e ∈ known, ¬ sampleFiles.Names e.file place := by
  simp only [List.mem_cons, List.not_mem_nil, or_false] at h
  rcases h with rfl | rfl
  · refine ⟨rfl, rfl, rfl, _, _, _, prior_sampleFiles, ready_sampleFiles, ?_⟩
    simp only [List.mem_singleton, forall_eq]
    rintro place (rfl | rfl)
    · exact ⟨not_names_of_resolve ["once", "1"] rfl (by decide),
        not_names_of_resolve ["a.c"] rfl (by decide),
        not_names_of_resolve ["old.c"] rfl (by decide)⟩
    · exact ⟨not_names_of_resolve ["once", "1"] rfl (by decide),
        not_names_of_resolve ["a.c"] rfl (by decide),
        not_names_of_resolve ["old.c"] rfl (by decide)⟩
  · refine ⟨rfl, rfl, rfl, [], _, _, rfl, ready_among, ?_⟩
    rintro place (rfl | rfl)
    · exact ⟨not_names_of_resolve ["once", "1"] rfl (by decide),
        not_names_of_resolve ["a.c"] rfl (by decide), List.forall_mem_nil _⟩
    · exact ⟨not_names_of_resolve ["once", "1"] rfl (by decide),
        not_names_of_resolve ["a.c"] rfl (by decide), List.forall_mem_nil _⟩

theorem aside_once {place : Location} (htrace : ¬ sampleFiles.Names "once/1" place)
    (hentry : ¬ sampleFiles.Names "/a.c" place) : Aside sampleFiles "once" false place := by
  refine ⟨fun files hfiles file hfile => ?_, fun files hfiles record hrecord path hpath => ?_,
    fun entries hentries e he => ?_⟩
  · obtain rfl := Except.ok.inj (traceFiles_once.symm.trans hfiles)
    obtain rfl := List.mem_singleton.mp hfile
    exact htrace
  · obtain rfl := Except.ok.inj (traceFiles_once.symm.trans hfiles)
    rw [recordsIn_once] at hrecord
    obtain rfl := List.mem_singleton.mp hrecord
    rw [listsOf_compiling] at hpath
    cases hpath
  · obtain rfl := collects_once.unique hentries
    obtain rfl := List.mem_singleton.mp he
    exact hentry

/-- Two runs that meet the process once leave the database of one that meets it twice. -/
def ExtendedTwice (settings : Settings) : Prop :=
  ∃ summary₁ first summary₂ second summary whole content,
    generate sampleFiles "once" settings = (.ok summary₁, first) ∧
    generate first "once" settings = (.ok summary₂, second) ∧
    generate sampleFiles "twice" settings = (.ok summary, whole) ∧
    second.read settings.output = .ok content ∧ whole.read settings.output = .ok content

/-- The database may be beside its traces, or among them. -/
theorem read_generate_append_sampleFiles : ExtendedTwice extending ∧ ExtendedTwice among := by
  suffices hextended : ∀ settings ∈ [extending, among], ExtendedTwice settings from
    ⟨hextended _ (by simp), hextended _ (by simp)⟩
  intro settings hsettings
  obtain ⟨happend, hraw, hlink, known, temporary, goal, hprior, hready, hapart⟩ :=
    apart_sampleFiles hsettings
  have hsave (entries : List Entry) : Database.save sampleFiles settings.output entries =
      (.ok (), Database.moved sampleFiles temporary goal (Database.contentOf entries)) :=
    Database.save_eq_ok_iff.mpr ⟨_, _, hready, rfl⟩
  have honce : Collects sampleFiles "once" settings.link [freshEntry] := hlink ▸ collects_once
  have htwice : Collects sampleFiles "twice" settings.link ([freshEntry] ++ [freshEntry]) :=
    hlink ▸ collects_twice
  obtain ⟨summary₁, h₁⟩ := generate_of_collects hraw hprior honce (hsave _)
  obtain ⟨summary, h⟩ := generate_of_collects hraw hprior htwice (hsave _)
  have hknown : ∀ place, Database.Uses sampleFiles settings.output place → ∀ known,
      prior sampleFiles settings = .ok known → ∀ e ∈ known, ¬ sampleFiles.Names e.file place := by
    intro place huses known' hprior'
    obtain rfl := Except.ok.inj (hprior.symm.trans hprior')
    exact (hapart place (hready.uses_iff.mp huses)).2.2
  have haside : ∀ place, Database.Uses sampleFiles settings.output place →
      Aside sampleFiles "once" settings.link place := by
    intro place huses
    obtain ⟨htrace, hentry, -⟩ := hapart place (hready.uses_iff.mp huses)
    exact hlink ▸ aside_once htrace hentry
  obtain ⟨hbatch, -, second, summary₂, -, h₂, -⟩ :=
    read_generate_append happend hraw hknown haside h₁
  obtain ⟨content, hsecond, hwhole⟩ := hbatch "once" "twice" _ _ second _ summary₂ summary
    haside honce honce htwice h₂ h
  exact ⟨summary₁, _, summary₂, second, summary, _, content, h₁, h₂, h, hsecond, hwhole⟩

end CompilationDatabase.Recorder
