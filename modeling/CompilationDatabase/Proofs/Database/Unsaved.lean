/-
A database that cannot be written.

The writing may fail at the file beside the database or when that file is moved
to its place.  In the first case nothing has been changed, and in the second the
file beside is taken away again (`save_eq_error`).  Either way the database is
as it was, since its path never leads to the file beside
(`FileSystem.ne_location_of_resolve`).

* `unchangedBut_of_save_error` — what is left of a database that cannot be
  written, and of the files around it;
* `unchangedBut_of_save` — and of one that was written.
-/
import CompilationDatabase.Proofs.Database.Saved
import CompilationDatabase.Proofs.FileSystem.Beside

namespace CompilationDatabase.Database

open FileSystem

variable {fs after : FileSystem} {path : String} {entries : List Entry} {fault : Fault}

/-- Whether the place is that of the file beside the database. -/
def Beside (fs : FileSystem) (path : String) (place : Location) : Prop :=
  ∃ t, fs.target (temporaryPath path) = .ok t ∧ place = t.location

/-- The path of the file beside ends in a name, whatever the path of the database. -/
theorem isSpecial_of_target_temporary {t : Target} (h : fs.target (temporaryPath path) = .ok t) :
    t.isSpecial = false ∧ t.trailingSlash = false := by
  obtain ⟨hname, hslash⟩ := name_of_target_append (by decide) (by decide) h
  refine ⟨?_, hslash⟩
  have hlength : 4 ≤ t.name.length := by
    rw [hname, String.length_append]
    exact Nat.le_add_left 4 _
  -- the names that lead to no file of their own are shorter
  rw [Target.isSpecial, Path.isStay, Bool.or_eq_false_iff, Bool.or_eq_false_iff]
  refine ⟨⟨?_, ?_⟩, ?_⟩
  all_goals
    rw [beq_eq_false_iff_ne]
    rintro heq
    rw [heq] at hlength
    exact absurd hlength (by decide)

theorem contains_temporary_eq_false {t : Target} (h : fs.target (temporaryPath path) = .ok t)
    (hnode : fs.node? t.location = none) : fs.contains (temporaryPath path) = false := by
  obtain ⟨hplain, hslash⟩ := isSpecial_of_target_temporary h
  rw [← Bool.not_eq_true, contains_eq_true_iff]
  rintro ⟨place, hresolve, hplace⟩
  rw [eq_location_of_resolve h hplain hslash hresolve, hnode] at hplace
  cases hplace

/-- If a database cannot be written, there is at most no file beside it any more. -/
theorem save_eq_error (h : save fs path entries = (.error fault, after)) :
    after = fs ∨ ∃ t, fs.target (temporaryPath path) = .ok t ∧ fs.Writable t ∧
      after = fs.erase t.location := by
  rw [save] at h
  split at h
  · rename_i cause hwrite
    left
    rw [← (Prod.mk.inj h).2]
    -- what cannot be written cannot be removed either
    cases hremove : fs.remove (temporaryPath path) with
    | error cause => rfl
    | ok removed =>
      obtain ⟨t, content, ht, hwritable, -⟩ := remove_eq_ok_iff.mp hremove
      rw [write_eq_ok_iff.mpr ⟨t, ht, hwritable, rfl⟩] at hwrite
      cases hwrite
  · rename_i written hwrite
    split at h
    · rename_i cause hrename
      right
      obtain ⟨t, ht, hwritable, rfl⟩ := write_eq_ok_iff.mp hwrite
      have hdiffer := DifferAt.insert (location_ne_nil t) hwritable.free (contentOf entries)
      have hremove := remove_eq_ok_iff.mpr ⟨t, contentOf entries, hdiffer.target ht,
        writable_of_differAt hdiffer hwritable, node?_insert_self _ _ (location_ne_nil t), rfl⟩
      refine ⟨t, ht, hwritable, ?_⟩
      rw [← (Prod.mk.inj h).2, hremove, erase_insert]
      rfl
    · cases h

/-- A database that cannot be written is as it was, and so is all else but the
file beside it, which is not there unless it was there before. -/
theorem unchangedBut_of_save_error (h : save fs path entries = (.error fault, after)) :
    (after.lookup path).toOption = (fs.lookup path).toOption ∧
      UnchangedBut (Beside fs path) fs after ∧
      (after.contains (temporaryPath path) = true → fs.contains (temporaryPath path) = true) := by
  rcases save_eq_error h with rfl | ⟨t, ht, hwritable, rfl⟩
  · exact ⟨rfl, UnchangedBut.refl _ _, id⟩
  · have hdiffer := DifferAt.erase (location_ne_nil t) hwritable.free
    have hgone := contains_temporary_eq_false (hdiffer.target ht)
      (node?_erase_self fs (location_ne_nil t))
    refine ⟨hdiffer.toOption_lookup ?_, hdiffer.unchangedBut ?_, fun hthere => ?_⟩
    · rintro _ rfl
      exact not_names_of_target_append (by decide) (by decide) ht hwritable.free
    · rintro _ rfl
      exact ⟨t, ht, rfl⟩
    · rw [hgone] at hthere
      cases hthere

/-- Writing a database changes nothing but the database, and leaves no file
beside it. -/
theorem unchangedBut_of_save (h : save fs path entries = (.ok (), after)) :
    UnchangedBut (Uses fs path) fs after ∧ after.contains (temporaryPath path) = false := by
  have hdiffer := differAt_save h
  refine ⟨hdiffer.unchangedBut fun _ => id, ?_⟩
  obtain ⟨temporary, goal, hready, rfl⟩ := save_eq_ok_iff.mp h
  have hne : temporary.location ≠ goal.location := by
    have hresolve := resolve_of_target (hdiffer.target hready.target_goal)
      hready.writable_goal.plain hready.writable_goal.noSlash hready.writable_goal.short
      (by rw [moved, node?_insert_self _ _ (location_ne_nil goal)]; rfl)
    exact (ne_location_of_resolve (by decide) (by decide)
      (hdiffer.target hready.target_temporary) hresolve).symm
  refine contains_temporary_eq_false (hdiffer.target hready.target_temporary) ?_
  rw [moved, node?_insert_of_ne _ _ hne, node?_erase_self _ (location_ne_nil temporary)]

end CompilationDatabase.Database
