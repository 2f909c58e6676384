/-
What a run leaves as it was.

A run that fails while reading has changed nothing yet, and one that fails while
writing has changed at most the file beside the database
(`generate_eq_error`).  A run that succeeds changes the database and nothing
else.

* `generate_preserves` — the database is either as it was or complete, all else
  is as it was, and no file is left beside it.
-/
import CompilationDatabase.Proofs.Database.Unsaved
import CompilationDatabase.Proofs.Recorder.Generated

namespace CompilationDatabase.Recorder

open FileSystem

variable {fs after : FileSystem} {traces : String} {settings : Settings}

/-- A run fails before anything is written, or because of the writing. -/
theorem generate_eq_error {failure : Failure}
    (h : generate fs traces settings = (.error failure, after)) :
    (draft fs traces settings = .error failure ∧ after = fs) ∨
      ∃ d fault, draft fs traces settings = .ok d ∧
        Database.save fs settings.output d.entries = (.error fault, after) ∧
        failure = .database fault := by
  unfold generate at h
  split at h
  · rename_i cause hdraft
    obtain ⟨hfailure, rfl⟩ := Prod.mk.inj h
    exact .inl ⟨hdraft.trans (congrArg Except.error (Except.error.inj hfailure)), rfl⟩
  · rename_i d hdraft
    split at h
    · rename_i fault after' hsave
      obtain ⟨hfailure, rfl⟩ := Prod.mk.inj h
      exact .inr ⟨d, fault, hdraft, hsave, (Except.error.inj hfailure).symm⟩
    · cases h

/-- **A run that fails leaves the database as it was; one that succeeds leaves
all that was put together in it.**  Nothing else is changed but the file beside
the database: it is gone after a success, and after a failure it is there only
if it was there before.  There are no links, so the database is not behind one. -/
theorem generate_preserves (fs : FileSystem) (traces : String) (settings : Settings) :
    match generate fs traces settings with
    | (.error _, after) =>
      (after.lookup settings.output).toOption = (fs.lookup settings.output).toOption ∧
        UnchangedBut (Database.Beside fs settings.output) fs after ∧
        (after.contains (Database.temporaryPath settings.output) = true →
          fs.contains (Database.temporaryPath settings.output) = true)
    | (.ok _, after) =>
      (∃ d, draft fs traces settings = .ok d ∧
        after.read settings.output = .ok (Database.contentOf d.entries)) ∧
        UnchangedBut (Database.Uses fs settings.output) fs after ∧
        after.contains (Database.temporaryPath settings.output) = false := by
  rcases hgenerate : generate fs traces settings with ⟨failure | summary, after⟩
  · rcases generate_eq_error hgenerate with ⟨-, rfl⟩ | ⟨d, fault, -, hsave, -⟩
    · exact ⟨rfl, UnchangedBut.refl _ _, id⟩
    · exact Database.unchangedBut_of_save_error hsave
  · obtain ⟨d, hdraft, hsave, -⟩ := generate_eq_ok_iff.mp hgenerate
    exact ⟨⟨d, hdraft, Database.read_save hsave⟩, Database.unchangedBut_of_save hsave⟩

/-- A directory in the place of the database stays, and nothing is left beside it; a
database that can be written is complete, and nothing is left beside it either. -/
theorem generate_preserves_directory :
    (∃ failure after,
      generate sampleFiles "once" { output := "twice" } = (.error failure, after) ∧
        (after.lookup "twice").toOption = some .directory ∧
        after.contains "twice.tmp" = false) ∧
    ∃ summary d after, generate sampleFiles "once" extending = (.ok summary, after) ∧
      draft sampleFiles "once" extending = .ok d ∧ knownEntry ∈ d.entries ∧
      after.read "db.json" = .ok (Database.contentOf d.entries) ∧
      after.node? ["old.c"] = some (.file .empty) ∧ after.contains "db.json.tmp" = false := by
  constructor
  · have hkept := generate_preserves sampleFiles "once" { output := "twice" }
    rcases hgenerate : generate sampleFiles "once" { output := "twice" } with
      ⟨failure | summary, after⟩
    · rw [hgenerate] at hkept
      obtain ⟨hlookup, -, htemporary⟩ := hkept
      exact ⟨failure, after, rfl, hlookup, Bool.eq_false_iff.mpr fun hthere =>
        absurd (htemporary hthere) (by decide)⟩
    · -- a run does not succeed, since a directory takes no file
      obtain ⟨d, -, hsave, -⟩ := generate_eq_ok_iff.mp hgenerate
      obtain ⟨temporary, goal, hready, -⟩ := Database.save_eq_ok_iff.mp hsave
      have hgoal : sampleFiles.target "twice" = .ok ⟨[], "twice", false⟩ := rfl
      obtain rfl := Except.ok.inj (hgoal.symm.trans hready.target_goal)
      exact absurd rfl hready.writable_goal.free
  · have hdraft : draft sampleFiles "once" extending = .ok _ :=
      (draft_eq_ok_iff rfl).mpr ⟨_, _, traceFiles_once, prior_sampleFiles, rfl⟩
    have hgenerate := generate_eq_ok_iff.mpr ⟨_, hdraft,
      Database.save_eq_ok_iff.mpr ⟨_, _, ready_sampleFiles, rfl⟩, rfl⟩
    have hkept := generate_preserves sampleFiles "once" extending
    rw [hgenerate] at hkept
    obtain ⟨⟨d, hd, hread⟩, hunchanged, hgone⟩ := hkept
    obtain rfl := Except.ok.inj (hdraft.symm.trans hd)
    refine ⟨_, _, _, hgenerate, hdraft, ?_, hread, ?_, hgone⟩
    · -- the file of the entry that was known is there
      rw [List.singleton_append, firsts_cons_of_present (by decide)]
      exact List.mem_cons_self
    · refine (hunchanged.elsewhere _ fun huses => ?_).trans rfl
      rcases ready_sampleFiles.uses_iff.mp huses with heq | heq
      · exact absurd heq (by decide)
      · exact absurd heq (by decide)

end CompilationDatabase.Recorder
