/-
What the entries of a process say of it.

Every entry holds the arguments as a command line that is read back, and paths
that were resolved from the directory of the process.  Which input files it is for
is told by their extensions as the process spelled them, and resolving a path
keeps its extension.

* `ofClassification_replays` — the entries replay the process, and stand for its
  source files, or for its object files together, one for one and in order.
-/
import Mathlib.Data.List.Forall2
import CompilationDatabase.Entry.Recorded
import CompilationDatabase.Proofs.CommandLine.Replay
import CompilationDatabase.Proofs.Path.Normal

namespace CompilationDatabase.Entry

open Compiler

variable {record : Trace.Record} {c : Classification} {e : Entry} {path : String}

theorem languageOf?_absolute (h : isSourceFile path = true) (directory : String) :
    languageOf? (Path.absolute directory path) = languageOf? path := by
  have hextension : (Path.extension? path).isSome = true := Option.isSome_of_isSome_bind h
  rw [languageOf?, Path.extension?_absolute hextension, languageOf?]

theorem isSome_extension?_of_isObjectFile (h : isObjectFile path = true) :
    (Path.extension? path).isSome = true := by
  unfold isObjectFile at h
  split at h
  · rename_i hextension
    rw [hextension]
    rfl
  · cases h

/-! ### Which entries there are -/

theorem ofClassification_of_link (hlinker : isLinker record.executable = true)
    (haction : c.action = .link) : ofClassification record c = [linked record c] := by
  rw [ofClassification, hlinker, haction]
  rfl

theorem ofClassification_of_compile (hcompiler : isCompiler record.executable = true)
    (haction : c.action = .compile) :
    ofClassification record c = (c.files.filter isSourceFile).map (compiled record) := by
  rw [ofClassification, hcompiler, haction, if_neg (by simp), if_pos (by simp)]

/-- An entry is for a link, or for one of the source files that are compiled. -/
theorem mem_ofClassification (h : e ∈ ofClassification record c) :
    (isLinker record.executable = true ∧ c.action = .link ∧ e = linked record c) ∨
      isCompiler record.executable = true ∧ c.action = .compile ∧
        ∃ file ∈ c.files, isSourceFile file = true ∧ e = compiled record file := by
  rw [ofClassification] at h
  split at h
  · rename_i hlink
    rw [Bool.and_eq_true, beq_iff_eq] at hlink
    exact .inl ⟨hlink.1, hlink.2, List.mem_singleton.mp h⟩
  · split at h
    · rename_i hcompile
      rw [Bool.and_eq_true, beq_iff_eq] at hcompile
      obtain ⟨file, hfile, rfl⟩ := List.mem_map.mp h
      obtain ⟨hmem, hsource⟩ := List.mem_filter.mp hfile
      exact .inr ⟨hcompile.1, hcompile.2, file, hmem, hsource, rfl⟩
    · cases h

theorem ofClassification_ne_nil_iff : ofClassification record c ≠ [] ↔
    (isLinker record.executable = true ∧ c.action = .link) ∨
      isCompiler record.executable = true ∧ c.action = .compile ∧
        ∃ file ∈ c.files, isSourceFile file = true := by
  constructor
  · intro hne
    obtain ⟨e, rest, hcons⟩ := List.exists_cons_of_ne_nil hne
    rcases mem_ofClassification (hcons ▸ List.mem_cons_self) with
      ⟨hlinker, haction, -⟩ | ⟨hcompiler, haction, file, hfile, hsource, -⟩
    · exact .inl ⟨hlinker, haction⟩
    · exact .inr ⟨hcompiler, haction, file, hfile, hsource⟩
  · rintro (⟨hlinker, haction⟩ | ⟨hcompiler, haction, file, hfile, hsource⟩)
    · rw [ofClassification_of_link hlinker haction]
      exact List.cons_ne_nil _ _
    · rw [ofClassification_of_compile hcompiler haction]
      exact List.ne_nil_of_mem (List.mem_map_of_mem (List.mem_filter.mpr ⟨hfile, hsource⟩))

/-! ### What they say -/

/-- **Every entry of a process replays it, and is about paths without dots.  The
entries of a compilation stand for its source files, and the objects of a link for
its object files, one for one and in order, each as the same kind of file.** -/
theorem ofClassification_replays (habsolute : Path.isAbsolute record.directory = true)
    (c : Classification) :
    (∀ e ∈ ofClassification record c,
      CommandLine.split e.command = .ok record.command ∧ e.directory = record.directory ∧
        Path.IsResolved e.file ∧
        ∀ objects, e.objects = some objects → ∀ object ∈ objects, Path.IsResolved object) ∧
    ((∃ e ∈ ofClassification record c, e.isLink = false) →
      List.Forall₂ (fun file e => e.isLink = false ∧
          e.file = Path.absolute record.directory file ∧ languageOf? e.file = languageOf? file)
        (c.files.filter isSourceFile) (ofClassification record c)) ∧
    (∀ e ∈ ofClassification record c, ∀ objects, e.objects = some objects →
      ofClassification record c = [e] ∧
      List.Forall₂ (fun file object => object = Path.absolute record.directory file ∧
          Path.extension? object = Path.extension? file)
        (c.files.filter isObjectFile) objects) ∧
    (ofClassification record c ≠ [] ↔
      (isLinker record.executable = true ∧ c.action = .link) ∨
        isCompiler record.executable = true ∧ c.action = .compile ∧
          ∃ file ∈ c.files, isSourceFile file = true) := by
  refine ⟨fun e he => ?_, ?_, fun e he objects hobjects => ?_, ofClassification_ne_nil_iff⟩
  · rcases mem_ofClassification he with ⟨-, -, rfl⟩ | ⟨-, -, file, -, -, rfl⟩
    · refine ⟨CommandLine.split_join _, rfl, Path.isResolved_absolute habsolute _, ?_⟩
      intro objects hobjects object hmem
      obtain rfl := Option.some.inj hobjects
      obtain ⟨file, -, rfl⟩ := List.mem_map.mp hmem
      exact Path.isResolved_absolute habsolute file
    · exact ⟨CommandLine.split_join _, rfl, Path.isResolved_absolute habsolute _, nofun⟩
  · rintro ⟨e, he, hlink⟩
    rcases mem_ofClassification he with ⟨-, -, rfl⟩ | ⟨hcompiler, haction, -⟩
    · cases hlink
    · rw [ofClassification_of_compile hcompiler haction, List.forall₂_map_right_iff,
        List.forall₂_same]
      intro file hfile
      exact ⟨rfl, rfl, languageOf?_absolute (List.mem_filter.mp hfile).2 _⟩
  · rcases mem_ofClassification he with ⟨hlinker, haction, rfl⟩ | ⟨-, -, file, -, -, rfl⟩
    · refine ⟨ofClassification_of_link hlinker haction, ?_⟩
      obtain rfl := Option.some.inj hobjects
      rw [List.forall₂_map_right_iff, List.forall₂_same]
      intro file hfile
      exact ⟨rfl, Path.extension?_absolute
        (isSome_extension?_of_isObjectFile (List.mem_filter.mp hfile).2) _⟩
    · cases hobjects

/-- The objects of a link are found behind dots and slashes, where a name that begins with
its only dot has no extension; and of what is compiled, each source has its own entry. -/
theorem ofClassification_replays_dotted :
    let record (command : List String) : Trace.Record := ⟨"7", "1", "execve", "/w/b", command⟩
    let link : Classification :=
      { files := ["x/../a.o/.", "b.c", "../.o", "//c//d.obj"], output := some "../my app" }
    let compile : Classification := { action := .compile, files := ["../a.c", "b.o", "./c.cc"] }
    Path.isAbsolute "/w/b" = true ∧
      (∃ e, ofClassification (record ["ld", "-o", "../my app"]) link = [e] ∧
        CommandLine.split e.command = .ok ["ld", "-o", "../my app"] ∧ Path.IsResolved e.file ∧
        e.file = "/w/my app" ∧ e.objects = some ["/w/b/a.o", "/c/d.obj"]) ∧
      ∃ first second, ofClassification (record ["g++", "-c", "../a.c", "b.o", "./c.cc"]) compile =
          [first, second] ∧
        CommandLine.split first.command = .ok ["g++", "-c", "../a.c", "b.o", "./c.cc"] ∧
        Path.IsResolved first.file ∧ first.file = "/w/a.c" ∧ second.file = "/w/b/c.cc" ∧
        languageOf? first.file = languageOf? "../a.c" ∧
        languageOf? second.file = languageOf? "./c.cc" := by
  intro record link compile
  have habsolute : Path.isAbsolute "/w/b" = true := by decide
  refine ⟨habsolute, ?_, ?_⟩
  · have hentries : ofClassification (record ["ld", "-o", "../my app"]) link = [linked _ link] :=
      ofClassification_of_link (by decide +kernel) rfl
    obtain ⟨hreplays, -⟩ :=
      @ofClassification_replays (record ["ld", "-o", "../my app"]) habsolute link
    obtain ⟨hcommand, -, hfile, -⟩ := hreplays _ (by rw [hentries]; exact List.mem_singleton_self _)
    exact ⟨_, hentries, hcommand, hfile, by decide +kernel, by decide +kernel⟩
  · have hsources : compile.files.filter isSourceFile = ["../a.c", "./c.cc"] := by decide +kernel
    have hentries :
        ofClassification (record ["g++", "-c", "../a.c", "b.o", "./c.cc"]) compile = _ :=
      ofClassification_of_compile (by decide +kernel) rfl
    rw [hsources] at hentries
    obtain ⟨hreplays, hcompiled, -⟩ :=
      @ofClassification_replays (record ["g++", "-c", "../a.c", "b.o", "./c.cc"]) habsolute compile
    obtain ⟨hcommand, -, hfile, -⟩ := hreplays _ (by rw [hentries]; exact List.mem_cons_self)
    have hlanguages := hcompiled ⟨_, by rw [hentries]; exact List.mem_cons_self, rfl⟩
    rw [hsources, hentries] at hlanguages
    obtain ⟨-, -, hfirst⟩ := (List.forall₂_cons.mp hlanguages).1
    obtain ⟨-, -, hsecond⟩ := (List.forall₂_cons.mp (List.forall₂_cons.mp hlanguages).2).1
    exact ⟨_, _, hentries, hcommand, hfile, by decide +kernel, by decide +kernel, hfirst, hsecond⟩

end CompilationDatabase.Entry
