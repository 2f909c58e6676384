/-
Runs that write the entries as found.

The same state may be recorded in two ways: with all entries as they were found,
or with one for each identity whose file exists.  Both put the known entries
before those of the traces, and the second leaves out some of what the first
writes, never adds to it.

* `load_generate_raw` — how the two databases that come of one state agree.
-/
import CompilationDatabase.Proofs.Recorder.Appended

namespace CompilationDatabase.Recorder

variable {fs after after' : FileSystem} {traces : String} {settings : Settings}
  {summary summary' : Summary}

/-- Of an entry whose file exists, just one with its identity is kept. -/
theorem countP_identity_of_perm {kept entries : List Entry} {e : Entry}
    (h : kept.Perm (firsts fs.contains entries)) (he : e ∈ entries)
    (hpresent : fs.contains e.file = true) :
    kept.countP (fun other => other.identity == e.identity) = 1 := by
  obtain ⟨first, hfirst, hidentity, -⟩ := exists_first he hpresent
  have hmem : e.identity ∈ (firsts fs.contains entries).map Entry.identity :=
    hidentity ▸ List.mem_map_of_mem hfirst
  have hcount := List.count_eq_one_of_mem (nodup_identity_firsts fs.contains entries) hmem
  rw [h.countP_eq, ← hcount, List.count, List.countP_map]
  rfl

/-- **A database written as found holds the known and the collected entries, each
as often as it was met; the one without duplicates, made of the same state, holds
entries of the former only, and of each whose file exists just one with the same
identity.**  Both databases are written to a path without links. -/
theorem load_generate_raw
    (h : generate fs traces { settings with raw := true } = (.ok summary, after))
    (h' : generate fs traces { settings with raw := false } = (.ok summary', after')) :
    ∃ files known whole database, traceFiles fs traces = .ok files ∧
      prior fs settings = .ok known ∧
      Database.load after settings.output = .ok whole ∧
      Database.load after' settings.output = .ok database ∧
      whole.Perm (known ++ (collect fs files settings.link).entries) ∧
      (∀ e ∈ whole, fs.contains e.file = true →
        database.countP (fun other => other.identity == e.identity) = 1) ∧
      ∀ e ∈ database, e ∈ whole ∧ fs.contains e.file = true := by
  obtain ⟨files, known, hfiles, hknown, hsave, -⟩ := generate_eq_ok_iff_assembled.mp h
  obtain ⟨files', known', hfiles', hknown', hsave', -⟩ := generate_eq_ok_iff_assembled.mp h'
  -- both runs read the same traces and know the same entries
  obtain rfl := Except.ok.inj (hfiles.symm.trans hfiles')
  obtain rfl := Except.ok.inj (hknown.symm.trans hknown')
  set all := known ++ (collect fs files settings.link).entries
  have hwhole : (Entry.sort all).Perm all := Entry.sort_perm all
  have hkept := Entry.sort_perm (firsts fs.contains all)
  refine ⟨files, known, Entry.sort all, Entry.sort (firsts fs.contains all), hfiles, hknown,
    Database.load_save hsave, Database.load_save hsave', hwhole, fun e he hpresent => ?_,
    fun e he => ⟨?_, ?_⟩⟩
  · exact countP_identity_of_perm hkept (hwhole.mem_iff.mp he) hpresent
  · exact hwhole.mem_iff.mpr ((firsts_sublist fs.contains all).subset (hkept.mem_iff.mp he))
  · exact present_of_mem_firsts (hkept.mem_iff.mp he)

/-- A process that was met twice is written twice as found, and once otherwise. -/
theorem load_generate_raw_sampleFiles :
    ∃ summary after summary' after' whole database,
      generate sampleFiles "twice" { extending with raw := true } = (.ok summary, after) ∧
      generate sampleFiles "twice" { extending with raw := false } = (.ok summary', after') ∧
      Database.load after "db.json" = .ok whole ∧
      Database.load after' "db.json" = .ok database ∧
      whole.Perm [knownEntry, freshEntry, freshEntry] ∧
      database.countP (fun other => other.identity == freshEntry.identity) = 1 := by
  obtain ⟨files, hfiles, hfresh⟩ := collects_twice
  have hrun (raw : Bool) : ∃ summary after,
      generate sampleFiles "twice" { extending with raw } = (.ok summary, after) :=
    ⟨_, _, generate_eq_ok_iff_assembled.mpr ⟨files, [knownEntry], hfiles, prior_sampleFiles,
      Database.save_eq_ok_iff.mpr ⟨_, _, ready_sampleFiles, rfl⟩, rfl⟩⟩
  obtain ⟨summary, after, h⟩ := hrun true
  obtain ⟨summary', after', h'⟩ := hrun false
  obtain ⟨files', known, whole, database, hfiles', hknown, hload, hload', hwhole, hcount, -⟩ :=
    load_generate_raw h h'
  obtain rfl := Except.ok.inj (hfiles.symm.trans hfiles')
  obtain rfl := Except.ok.inj (prior_sampleFiles.symm.trans hknown)
  have hlink : (collect sampleFiles files extending.link).entries = [freshEntry, freshEntry] :=
    hfresh
  rw [hlink] at hwhole
  refine ⟨summary, after, summary', after', whole, database, h, h', hload, hload', hwhole, ?_⟩
  exact hcount freshEntry (hwhole.mem_iff.mpr (by simp)) (by decide)

end CompilationDatabase.Recorder
