/-
A database is written in one way only.

The bytes of a database say which entries it has, and how often each, and they
say nothing else: sorting forgets the order in which the entries were met
(`Entry.sort_eq_sort_of_perm`), and the text shows all that an entry consists of
(`renderEntries_injective`), an empty list of objects beside none at all.

* `contentOf_eq_iff_perm` — when two lists of entries have the same bytes;
* `read_save_eq_iff_perm` — and what that means for the files written.
-/
import CompilationDatabase.Proofs.Database.Saved

namespace CompilationDatabase.Database

/-- Lists of entries have the same bytes just if they are the same up to order. -/
theorem contentOf_eq_iff_perm {xs ys : List Entry} : contentOf xs = contentOf ys ↔ ys.Perm xs := by
  constructor
  · intro h
    have htext : renderEntries (Entry.sort xs) = renderEntries (Entry.sort ys) := by
      have hread := Text.fromUTF8?_toUTF8 (renderEntries (Entry.sort xs))
      rw [← contentOf, h, contentOf, Text.fromUTF8?_toUTF8] at hread
      exact (Option.some.inj hread).symm
    have hsort : Entry.sort xs = Entry.sort ys := renderEntries_injective htext
    have hperm : (Entry.sort ys).Perm xs := hsort ▸ Entry.sort_perm xs
    exact (Entry.sort_perm ys).symm.trans hperm
  · intro h
    exact contentOf_eq_of_perm h.symm

/-- **A database is written in one way only**: wherever they are written, two
lists of entries give the same bytes just if one is a rearrangement of the
other. -/
theorem read_save_eq_iff_perm {fs fs' first second : FileSystem} {path path' : String}
    {xs ys : List Entry} (hxs : save fs path xs = (.ok (), first))
    (hys : save fs' path' ys = (.ok (), second)) :
    ∃ written written' : ByteArray,
      first.read path = .ok written ∧ second.read path' = .ok written' ∧
        (written = written' ↔ ys.Perm xs) :=
  ⟨contentOf xs, contentOf ys, read_save hxs, read_save hys, contentOf_eq_iff_perm⟩

/-- In an empty file system any database can be written. -/
theorem exists_save_empty (entries : List Entry) :
    ∃ after, save .empty "db.json" entries = (.ok (), after) := by
  have hready : Ready .empty "db.json" ⟨[], "db.json.tmp", false⟩ ⟨[], "db.json", false⟩ :=
    { target_temporary := rfl
      target_goal := rfl
      writable_temporary := ⟨by decide, by decide, by decide, by decide⟩
      writable_goal := ⟨by decide, by decide, by decide, by decide⟩ }
  exact ⟨_, save_eq_ok_iff.mpr ⟨_, _, hready, rfl⟩⟩

/-- A link of no objects is told from a compilation, and so is how often it is there. -/
theorem read_save_eq_iff_perm_objects :
    let compiled : Entry := ⟨"cc a.c", "/w", "/w/a.c", none⟩
    let linked : Entry := ⟨"cc a.c", "/w", "/w/a.c", some []⟩
    ∃ first second third,
      save .empty "db.json" [compiled, linked, linked] = (.ok (), first) ∧
      save .empty "db.json" [linked, compiled, linked] = (.ok (), second) ∧
      save .empty "db.json" [compiled, compiled, linked] = (.ok (), third) ∧
      first.read "db.json" = second.read "db.json" ∧
      first.read "db.json" ≠ third.read "db.json" := by
  intro compiled linked
  obtain ⟨first, hfirst⟩ := exists_save_empty [compiled, linked, linked]
  obtain ⟨second, hsecond⟩ := exists_save_empty [linked, compiled, linked]
  obtain ⟨third, hthird⟩ := exists_save_empty [compiled, compiled, linked]
  refine ⟨first, second, third, hfirst, hsecond, hthird, ?_, ?_⟩
  · obtain ⟨one, other, hone, hother, hiff⟩ := read_save_eq_iff_perm hfirst hsecond
    have hperm : [linked, compiled, linked].Perm [compiled, linked, linked] := by decide
    rw [hone, hother, hiff.mpr hperm]
  · obtain ⟨one, other, hone, hother, hiff⟩ := read_save_eq_iff_perm hfirst hthird
    have hperm : ¬ [compiled, compiled, linked].Perm [compiled, linked, linked] := by decide
    rw [hone, hother]
    intro h
    exact hperm (hiff.mp (Except.ok.inj h))

end CompilationDatabase.Database
