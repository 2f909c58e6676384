/-
What the changes of a file system do.

A file can be put at a target that ends in a name of its own, short enough and
not taken by a directory (`Writable`).  Writing and moving a file succeed just
then, and leave the file at the target; a file that is there can be removed.

* `write_eq_ok_iff`, `rename_eq_ok_iff`, `remove_eq_ok_iff` — when the operations
  succeed, and what the file system is then;
* `read_of_target` — a file at the target of a path is read at the path.
-/
import CompilationDatabase.Proofs.FileSystem.Walk

namespace CompilationDatabase.FileSystem

/-- Whether a file can be put at the target. -/
structure Writable (fs : FileSystem) (t : Target) : Prop where
  plain : t.isSpecial = false
  noSlash : t.trailingSlash = false
  short : t.isTooLong = false
  free : fs.node? t.location ≠ some .directory

theorem location_ne_nil (t : Target) : t.location ≠ [] := by
  simp [Target.location]

/-- A file is written just if its target can take it. -/
theorem write_eq_ok_iff {fs after : FileSystem} {path : String} {content : ByteArray} :
    fs.write path content = .ok after ↔
      ∃ t, fs.target path = .ok t ∧ fs.Writable t ∧
        after = fs.insert t.location (.file content) := by
  rw [write, bind_eq_ok_iff]
  refine exists_congr fun t => and_congr_right fun _ => ?_
  constructor
  · intro h
    split at h
    · cases h
    · rename_i hplace
      simp only [Bool.or_eq_true, not_or, Bool.not_eq_true] at hplace
      split at h
      · cases h
      · rename_i hshort
        split at h
        · cases h
        · rename_i hfree
          exact ⟨⟨hplace.1, hplace.2, by simpa using hshort, hfree⟩, (Except.ok.inj h).symm⟩
  · rintro ⟨⟨hplain, hslash, hshort, hfree⟩, rfl⟩
    simp [hplain, hslash, hshort, hfree]

/-- A file is moved just if it is there and the new target can take it. -/
theorem rename_eq_ok_iff {fs after : FileSystem} {old new : String} :
    fs.rename old new = .ok after ↔
      ∃ source goal content, fs.target old = .ok source ∧ fs.target new = .ok goal ∧
        fs.Writable source ∧ fs.node? source.location = some (.file content) ∧ fs.Writable goal ∧
          after = (fs.erase source.location).insert goal.location (.file content) := by
  simp only [rename, bind_eq_ok_iff]
  constructor
  · rintro ⟨source, hsource, goal, hgoal, h⟩
    refine ⟨source, goal, ?_⟩
    split at h
    · cases h
    · rename_i hspecial
      simp only [Bool.or_eq_true, not_or, Bool.not_eq_true] at hspecial
      split at h
      · cases h
      · rename_i hshort
        split at h
        · cases h
        · cases h
        · rename_i content hnode
          refine ⟨content, hsource, hgoal, ?_⟩
          split at h
          · cases h
          · rename_i hslash
            simp only [Bool.or_eq_true, not_or, Bool.not_eq_true] at hslash
            split at h
            · cases h
            · rename_i hgoalShort
              split at h
              · cases h
              · rename_i hfree
                exact ⟨⟨hspecial.1, hslash.1, by simpa using hshort, by simp [hnode]⟩, hnode,
                  ⟨hspecial.2, hslash.2, by simpa using hgoalShort, hfree⟩, (Except.ok.inj h).symm⟩
  · rintro ⟨source, goal, content, hsource, hgoal, ⟨hplain, hslash, hshort, -⟩, hnode,
      ⟨hplain', hslash', hshort', hfree⟩, rfl⟩
    exact ⟨source, hsource, goal, hgoal,
      by simp [hplain, hslash, hshort, hnode, hplain', hslash', hshort', hfree]⟩

/-- A file is removed just if it is there, at a target that could take it. -/
theorem remove_eq_ok_iff {fs after : FileSystem} {path : String} :
    fs.remove path = .ok after ↔
      ∃ t content, fs.target path = .ok t ∧ fs.Writable t ∧
        fs.node? t.location = some (.file content) ∧ after = fs.erase t.location := by
  rw [remove, bind_eq_ok_iff]
  refine exists_congr fun t => ?_
  constructor
  · rintro ⟨htarget, h⟩
    split at h
    · cases h
    · rename_i hspecial
      split at h
      · cases h
      · rename_i hshort
        split at h
        · cases h
        · cases h
        · rename_i content hnode
          split at h
          · cases h
          · rename_i hslash
            exact ⟨content, htarget, ⟨by simpa using hspecial, by simpa using hslash,
              by simpa using hshort, by simp [hnode]⟩, hnode, (Except.ok.inj h).symm⟩
  · rintro ⟨content, htarget, ⟨hplain, hslash, hshort, -⟩, hnode, rfl⟩
    exact ⟨htarget, by simp [hplain, hslash, hshort, hnode]⟩

/-- What was put at a place leaves no trace once it is taken away. -/
theorem erase_insert (fs : FileSystem) (place : Location) (node : Node) :
    (fs.insert place node).erase place = fs.erase place := by
  have hentries : (fs.entries.filter (·.1 ≠ place) ++ [(place, node)]).filter (·.1 ≠ place) =
      fs.entries.filter (·.1 ≠ place) := by
    rw [List.filter_append, List.filter_filter]
    simp
  exact FileSystem.ext hentries rfl

/-- A path leads to nothing but its target. -/
theorem eq_location_of_resolve {fs : FileSystem} {path : String} {t : Target} {place : Location}
    (h : fs.target path = .ok t) (hplain : t.isSpecial = false) (hslash : t.trailingSlash = false)
    (hresolve : fs.resolve path = .ok place) : place = t.location := by
  obtain ⟨hholder, -, hlast⟩ := holder_of_target h hslash
  obtain ⟨hstay, hup⟩ : Path.isStay t.name = false ∧ t.name ≠ ".." := by
    simpa [Target.isSpecial] using hplain
  obtain ⟨directory, hdirectory, hstep⟩ := resolve_eq_ok_iff.mp hresolve
  obtain rfl := Except.ok.inj (hholder.symm.trans hdirectory)
  obtain ⟨-, hfollow, -⟩ := step_eq_ok_iff.mp hstep
  rw [hfollow, hlast]
  simp [follow, hstay, hup, Target.location]

/-- A path leads to its target, if something is there. -/
theorem resolve_of_target {fs : FileSystem} {path : String} {t : Target}
    (h : fs.target path = .ok t) (hplain : t.isSpecial = false) (hslash : t.trailingSlash = false)
    (hshort : t.isTooLong = false) (hnode : (fs.node? t.location).isSome) :
    fs.resolve path = .ok t.location := by
  obtain ⟨hholder, hdirectory, hlast⟩ := holder_of_target h hslash
  obtain ⟨hstay, hup⟩ : Path.isStay t.name = false ∧ t.name ≠ ".." := by
    simpa [Target.isSpecial] using hplain
  refine resolve_eq_ok_iff.mpr ⟨t.directory, hholder, ?_⟩
  rw [hlast, step_eq_ok_iff]
  refine ⟨hdirectory, ?_, fun _ _ => ⟨?_, hnode⟩⟩
  · simp [follow, hstay, hup, Target.location]
  · simpa [Target.isTooLong] using hshort

theorem lookup_eq_ok_iff {fs : FileSystem} {path : String} {node : Node} :
    fs.lookup path = .ok node ↔
      ∃ place, fs.resolve path = .ok place ∧ fs.node? place = some node := by
  rw [lookup, bind_eq_ok_iff]
  refine exists_congr fun place => and_congr_right fun _ => ?_
  cases fs.node? place <;> simp

theorem contains_eq_true_iff {fs : FileSystem} {path : String} :
    fs.contains path = true ↔
      ∃ place, fs.resolve path = .ok place ∧ (fs.node? place).isSome = true := by
  have hlookup : fs.contains path = true ↔ ∃ node, fs.lookup path = .ok node := by
    unfold contains
    cases fs.lookup path <;> simp
  rw [hlookup]
  constructor
  · rintro ⟨node, hnode⟩
    obtain ⟨place, hresolve, hplace⟩ := lookup_eq_ok_iff.mp hnode
    exact ⟨place, hresolve, by rw [hplace]; rfl⟩
  · rintro ⟨place, hresolve, hplace⟩
    obtain ⟨node, hnode⟩ := Option.isSome_iff_exists.mp hplace
    exact ⟨node, lookup_eq_ok_iff.mpr ⟨place, hresolve, hnode⟩⟩

/-- A path with a NUL leads nowhere. -/
theorem nul_not_mem_of_contains {fs : FileSystem} {path : String} (h : fs.contains path = true) :
    '\x00' ∉ path.toList := by
  obtain ⟨place, hresolve, -⟩ := contains_eq_true_iff.mp h
  obtain ⟨origin, hstart, -⟩ := bind_eq_ok_iff.mp hresolve
  exact (start_eq_ok_iff.mp hstart).1

theorem read_eq_ok_iff {fs : FileSystem} {path : String} {content : ByteArray} :
    fs.read path = .ok content ↔
      ∃ place, fs.resolve path = .ok place ∧ fs.node? place = some (.file content) := by
  rw [read, bind_eq_ok_iff]
  constructor
  · rintro ⟨node, hnode, hfile⟩
    cases node with
    | file bytes =>
      obtain rfl := Except.ok.inj hfile
      exact lookup_eq_ok_iff.mp hnode
    | directory => cases hfile
  · intro h
    exact ⟨.file content, lookup_eq_ok_iff.mpr h, rfl⟩

/-- A file at the target of a path is read at the path. -/
theorem read_of_target {fs : FileSystem} {path : String} {t : Target} {content : ByteArray}
    (h : fs.target path = .ok t) (hplain : t.isSpecial = false) (hslash : t.trailingSlash = false)
    (hshort : t.isTooLong = false) (hnode : fs.node? t.location = some (.file content)) :
    fs.read path = .ok content :=
  read_eq_ok_iff.mpr
    ⟨t.location, resolve_of_target h hplain hslash hshort (by simp [hnode]), hnode⟩

end CompilationDatabase.FileSystem
