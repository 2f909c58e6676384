/-
A database that is written.

Writing succeeds just if the path and the one beside it can both take a file
(`Ready`), whatever the entries.  The database is then at the path
(`read_moved`), so it is loaded as it was written, in its order.

* `save_eq_ok_iff` — when a database is written, and what the file system is
  then;
* `differAt_save` — nothing changes but at these two places;
* `load_written` — the entries of a written database are those it was written
  for, sorted.
-/
import CompilationDatabase.Database.File
import CompilationDatabase.Proofs.Entry.Json
import CompilationDatabase.Proofs.Entry.Order
import CompilationDatabase.Proofs.FileSystem.Frame

namespace CompilationDatabase.Database

open FileSystem

/-- Whether both the database and the file beside it have a place that can take
a file. -/
structure Ready (fs : FileSystem) (path : String) (temporary goal : Target) : Prop where
  target_temporary : fs.target (temporaryPath path) = .ok temporary
  target_goal : fs.target path = .ok goal
  writable_temporary : fs.Writable temporary
  writable_goal : fs.Writable goal

/-- The file system after a file was written at one place and moved to another. -/
def moved (fs : FileSystem) (temporary goal : Target) (content : ByteArray) : FileSystem :=
  ((fs.insert temporary.location (.file content)).erase temporary.location).insert goal.location
    (.file content)

theorem writable_of_differAt {places : Location → Prop} {fs fs' : FileSystem}
    (h : DifferAt places fs fs') {t : Target} (ht : fs.Writable t) : fs'.Writable t where
  plain := ht.plain
  noSlash := ht.noSlash
  short := ht.short
  free := mt (h.directory_iff t.location).mp ht.free

theorem Ready.differAt {places : Location → Prop} {fs fs' : FileSystem} {path : String}
    {temporary goal : Target} (h : DifferAt places fs fs') (hready : Ready fs path temporary goal) :
    Ready fs' path temporary goal where
  target_temporary := h.target hready.target_temporary
  target_goal := h.target hready.target_goal
  writable_temporary := writable_of_differAt h hready.writable_temporary
  writable_goal := writable_of_differAt h hready.writable_goal

/-- A database is written just if both places can take a file. -/
theorem save_eq_ok_iff {fs after : FileSystem} {path : String} {entries : List Entry} :
    save fs path entries = (.ok (), after) ↔
      ∃ temporary goal, Ready fs path temporary goal ∧
        after = moved fs temporary goal (contentOf entries) := by
  constructor
  · intro h
    rw [save] at h
    split at h
    · cases h
    · rename_i written hwrite
      split at h
      · cases h
      · rename_i after' hrename
        obtain rfl : after' = after := (Prod.mk.inj h).2
        obtain ⟨temporary, htemporary, hwritable, rfl⟩ := write_eq_ok_iff.mp hwrite
        -- the move is made where the writing has left its file
        have hdiffer :=
          DifferAt.insert (location_ne_nil temporary) hwritable.free (contentOf entries)
        obtain ⟨source, goal, content, hsource, hgoal, -, hcontent, hgoalWritable, rfl⟩ :=
          rename_eq_ok_iff.mp hrename
        obtain rfl : temporary = source :=
          Except.ok.inj ((hdiffer.target htemporary).symm.trans hsource)
        rw [node?_insert_self _ _ (location_ne_nil temporary)] at hcontent
        obtain rfl : contentOf entries = content := Node.file.inj (Option.some.inj hcontent)
        exact ⟨temporary, goal, ⟨htemporary, hdiffer.symm.target hgoal, hwritable,
          writable_of_differAt hdiffer.symm hgoalWritable⟩, rfl⟩
  · rintro ⟨temporary, goal, h, rfl⟩
    have hdiffer := DifferAt.insert (location_ne_nil temporary) h.writable_temporary.free
      (contentOf entries)
    have hwrite : fs.write (temporaryPath path) (contentOf entries) =
        .ok (fs.insert temporary.location (.file (contentOf entries))) :=
      write_eq_ok_iff.mpr ⟨temporary, h.target_temporary, h.writable_temporary, rfl⟩
    have hready := h.differAt hdiffer
    have hrename := rename_eq_ok_iff.mpr ⟨temporary, goal, contentOf entries,
      hready.target_temporary, hready.target_goal, hready.writable_temporary,
      node?_insert_self _ _ (location_ne_nil temporary), hready.writable_goal, rfl⟩
    rw [save, hwrite]
    simp only [hrename]
    rfl

/-- Only the two places change. -/
theorem differAt_moved {fs : FileSystem} {path : String} {temporary goal : Target}
    (h : Ready fs path temporary goal) (content : ByteArray) :
    DifferAt (fun place => place = temporary.location ∨ place = goal.location) fs
      (moved fs temporary goal content) := by
  have hwritten := DifferAt.insert (location_ne_nil temporary) h.writable_temporary.free content
  have herased := hwritten.trans
    (DifferAt.erase (location_ne_nil temporary) (h.differAt hwritten).writable_temporary.free)
  have hmoved := herased.trans
    (DifferAt.insert (location_ne_nil goal) (h.differAt herased).writable_goal.free content)
  simpa only [moved, or_self] using hmoved

/-- Whether the place is that of the database, or of the file beside it. -/
def Uses (fs : FileSystem) (path : String) (place : Location) : Prop :=
  ∃ t, (fs.target (temporaryPath path) = .ok t ∨ fs.target path = .ok t) ∧ place = t.location

theorem Ready.uses_iff {fs : FileSystem} {path : String} {temporary goal : Target}
    (h : Ready fs path temporary goal) {place : Location} :
    Uses fs path place ↔ place = temporary.location ∨ place = goal.location := by
  constructor
  · rintro ⟨t, ht | ht, rfl⟩
    · exact .inl (congrArg Target.location (Except.ok.inj (ht.symm.trans h.target_temporary)))
    · exact .inr (congrArg Target.location (Except.ok.inj (ht.symm.trans h.target_goal)))
  · rintro (rfl | rfl)
    · exact ⟨temporary, .inl h.target_temporary, rfl⟩
    · exact ⟨goal, .inr h.target_goal, rfl⟩

/-- Writing a database changes nothing but these places. -/
theorem differAt_save {fs after : FileSystem} {path : String} {entries : List Entry}
    (h : save fs path entries = (.ok (), after)) : DifferAt (Uses fs path) fs after := by
  obtain ⟨temporary, goal, hready, rfl⟩ := save_eq_ok_iff.mp h
  have huses : Uses fs path = fun place => place = temporary.location ∨ place = goal.location :=
    funext fun place => propext hready.uses_iff
  rw [huses]
  exact differAt_moved hready _

/-- Where a database was written, any other can be written. -/
theorem save_again {fs first : FileSystem} {path : String} {entries : List Entry}
    (h : save fs path entries = (.ok (), first)) (more : List Entry) :
    ∃ second, save first path more = (.ok (), second) := by
  obtain ⟨temporary, goal, hready, -⟩ := save_eq_ok_iff.mp h
  exact ⟨moved first temporary goal (contentOf more),
    save_eq_ok_iff.mpr ⟨temporary, goal, hready.differAt (differAt_save h), rfl⟩⟩

/-- The database is at its path. -/
theorem read_moved {fs : FileSystem} {path : String} {temporary goal : Target}
    (h : Ready fs path temporary goal) (content : ByteArray) :
    (moved fs temporary goal content).read path = .ok content :=
  read_of_target ((differAt_moved h content).target h.target_goal) h.writable_goal.plain
    h.writable_goal.noSlash h.writable_goal.short (node?_insert_self _ _ (location_ne_nil goal))

/-- A file with the content of a database is loaded as its entries, sorted. -/
theorem load_of_read {fs : FileSystem} {path : String} {entries : List Entry}
    (h : fs.read path = .ok (contentOf entries)) : load fs path = .ok (Entry.sort entries) := by
  have htext : fs.readText path = .ok (renderEntries (Entry.sort entries)) := readText_of_read h
  rw [load, htext]
  simp [parseEntries?_renderEntries]

theorem read_save {fs after : FileSystem} {path : String} {entries : List Entry}
    (h : save fs path entries = (.ok (), after)) : after.read path = .ok (contentOf entries) := by
  obtain ⟨temporary, goal, hready, rfl⟩ := save_eq_ok_iff.mp h
  exact read_moved hready _

/-- What is written does not depend on the order of the entries. -/
theorem contentOf_eq_of_perm {a b : List Entry} (h : a.Perm b) : contentOf a = contentOf b := by
  rw [contentOf, contentOf, Entry.sort_eq_sort_of_perm h]

theorem load_save {fs after : FileSystem} {path : String} {entries : List Entry}
    (h : save fs path entries = (.ok (), after)) : load after path = .ok (Entry.sort entries) :=
  load_of_read (read_save h)

/-- **A written database is loaded as exactly the entries it was written for,
in the order of a database.**  Neither its path nor the one beside it can be a
link, since there are none. -/
theorem load_written {fs after : FileSystem} {path : String} {entries : List Entry}
    (h : save fs path entries = (.ok (), after)) :
    load after path = .ok (Entry.sort entries) ∧ (Entry.sort entries).Perm entries ∧
      (Entry.sort entries).Pairwise fun a b => a.le b = true :=
  ⟨load_save h, Entry.sort_perm entries, Entry.pairwise_sort entries⟩

/-- Control characters are kept, and so is an empty list of objects beside none
at all. -/
theorem load_written_controls :
    let entries : List Entry :=
      [⟨"cc -DX='\x00'", "/w", "/w/b.c", some []⟩, ⟨"cc \"\\\x01é", "/w", "/w/a.c", none⟩]
    ∃ after, save .empty "db.json" entries = (.ok (), after) ∧
      load after "db.json" = .ok (Entry.sort entries) ∧ (Entry.sort entries).Perm entries ∧
      (Entry.sort entries).Pairwise fun a b => a.le b = true := by
  intro entries
  have hready : Ready .empty "db.json" ⟨[], "db.json.tmp", false⟩ ⟨[], "db.json", false⟩ :=
    { target_temporary := rfl
      target_goal := rfl
      writable_temporary := ⟨by decide, by decide, by decide, by decide⟩
      writable_goal := ⟨by decide, by decide, by decide, by decide⟩ }
  have hsave : save .empty "db.json" entries = (.ok (), moved .empty ⟨[], "db.json.tmp", false⟩
      ⟨[], "db.json", false⟩ (contentOf entries)) := save_eq_ok_iff.mpr ⟨_, _, hready, rfl⟩
  exact ⟨_, hsave, load_written hsave⟩

end CompilationDatabase.Database
