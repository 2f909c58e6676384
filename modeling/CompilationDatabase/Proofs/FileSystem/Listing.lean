/-
What a directory lists.

Each node of a file system is listed once, in the directory that holds it, and
under its name.  So the names of a directory, and what is under them, can be told
from the nodes alone; only the order of the listing cannot.

* `mem_children_iff` — what is listed is what is there;
* `nodup_names_children` — no name is listed twice;
* `node?_of_perm` — the nodes do not depend on the order of the table;
* `eq_of_resolve_under` — a name taken from a directory leads to what is listed under it.
-/
import Mathlib.Data.List.Nodup
import CompilationDatabase.Proofs.FileSystem.Frame
import CompilationDatabase.Proofs.Path.Normal

namespace CompilationDatabase.FileSystem

/-- A key of a table in which no key is met twice stands beside its value. -/
theorem lookup_eq_some_iff_mem {table : List (Location × Node)} {place : Location} {node : Node}
    (h : (table.map Prod.fst).Nodup) : table.lookup place = some node ↔ (place, node) ∈ table := by
  induction table with
  | nil => simp
  | cons entry rest ih =>
    obtain ⟨key, value⟩ := entry
    rw [List.map_cons, List.nodup_cons] at h
    rw [List.mem_cons, List.lookup_cons]
    by_cases hkey : place = key
    · -- the rest of the table has the key no more
      subst hkey
      have hrest : (place, node) ∉ rest := fun hmem => h.1 (List.mem_map.mpr ⟨_, hmem, rfl⟩)
      simp [hrest, eq_comm]
    · have hbeq : (place == key) = false := by simp [hkey]
      simp [hbeq, ih h.2, hkey]

variable {fs : FileSystem} {directory : Location}

theorem node?_eq_some_iff {place : Location} {node : Node} (h : place ≠ []) :
    fs.node? place = some node ↔ (place, node) ∈ fs.entries := by
  rw [node?, if_neg h]
  exact lookup_eq_some_iff_mem fs.distinct

theorem node?_of_perm {fs' : FileSystem} (h : fs'.entries.Perm fs.entries) (place : Location) :
    fs'.node? place = fs.node? place := by
  by_cases hne : place = []
  · rw [hne, node?_nil, node?_nil]
  · refine Option.ext fun node => ?_
    rw [node?_eq_some_iff hne, node?_eq_some_iff hne, h.mem_iff]

/-- Only a node in the directory is listed, and under its name. -/
theorem listed_eq_some_iff {entry : Location × Node} {name : String} {node : Node} :
    listed directory entry = some (name, node) ↔ entry = (directory ++ [name], node) := by
  obtain ⟨place, found⟩ := entry
  unfold listed
  rcases List.eq_nil_or_concat place with rfl | ⟨stem, last, rfl⟩
  · simp
  · simp [List.append_singleton_inj, and_assoc]

theorem mem_children_iff {name : String} {node : Node} :
    (name, node) ∈ fs.children directory ↔ fs.node? (directory ++ [name]) = some node := by
  rw [children_eq_filterMap, List.mem_filterMap, node?_eq_some_iff (by simp)]
  simp only [listed_eq_some_iff]
  exact ⟨fun ⟨_, hmem, heq⟩ => heq ▸ hmem, fun hmem => ⟨_, hmem, rfl⟩⟩

theorem nodup_children (fs : FileSystem) (directory : Location) :
    (fs.children directory).Nodup := by
  rw [children_eq_filterMap]
  refine List.Nodup.filterMap (fun entry entry' _ h h' => ?_) fs.distinct.of_map
  exact (listed_eq_some_iff.mp h).trans (listed_eq_some_iff.mp h').symm

/-- No name is listed twice, since there is one node under it. -/
theorem nodup_names_children (fs : FileSystem) (directory : Location) :
    ((fs.children directory).map Prod.fst).Nodup := by
  refine (nodup_children fs directory).map_on fun child hchild child' hchild' hname => ?_
  have hnode := mem_children_iff.mp hchild
  rw [hname] at hnode
  exact Prod.ext hname (Option.some.inj (hnode.symm.trans (mem_children_iff.mp hchild')))

/-! ### Paths to what is listed -/

/-- The name of a target holds no slash. -/
theorem slash_not_mem_of_target {path : String} {t : Target} (h : fs.target path = .ok t) :
    '/' ∉ t.name.toList := by
  obtain ⟨-, -, -, -, hname, -⟩ := target_eq_ok_iff.mp h
  rw [hname]
  cases hlast : (stem path).getLast? with
  | none => simp
  | some name =>
    have hmem : name ∈ stem path := List.mem_of_getLast? hlast
    rw [stem, List.mem_reverse] at hmem
    exact Path.slash_not_mem_of_mem_pieces
      (List.mem_reverse.mp ((List.dropWhile_suffix _).subset hmem))

/-- A name taken from a directory leads to nothing but the place of the name in it. -/
theorem eq_of_resolve_under {path name : String} {place : Location}
    (hdirectory : fs.resolve path = .ok directory) (hslash : '/' ∉ name.toList)
    (hstay : Path.isStay name = false) (hup : name ≠ "..")
    (h : fs.resolve (Path.under path name) = .ok place) : place = directory ++ [name] := by
  obtain ⟨origin, hstart, hwalk⟩ := bind_eq_ok_iff.mp hdirectory
  obtain ⟨origin', hstart', hwalk'⟩ := bind_eq_ok_iff.mp h
  obtain ⟨-, hne, -, rfl⟩ := start_eq_ok_iff.mp hstart
  obtain ⟨-, -, -, rfl⟩ := start_eq_ok_iff.mp hstart'
  have hrelative := Path.isAbsolute_of_slash_not_mem hslash
  obtain ⟨front, hpieces, hfront⟩ := Path.pieces_under hne hrelative
  rw [hpieces, Path.pieces_of_slash_not_mem hslash, walk_append_singleton, bind_eq_ok_iff,
    FileSystem.origin, Path.isAbsolute_under, hrelative, Bool.or_false] at hwalk'
  obtain ⟨next, hnext, hstep⟩ := hwalk'
  -- an empty piece at the end of the directory leads from it to itself
  obtain rfl : directory = next := by
    rcases hfront with heq | heq
    · rw [heq] at hwalk
      exact Except.ok.inj (hwalk.symm.trans hnext)
    · rw [heq, walk_append_singleton, bind_eq_ok_iff] at hwalk
      obtain ⟨next', hnext', hempty⟩ := hwalk
      obtain rfl := Except.ok.inj (hnext.symm.trans hnext')
      exact (step_empty.mp hempty).2
  obtain ⟨-, hfollow, -⟩ := step_eq_ok_iff.mp hstep
  rw [hfollow, follow, if_neg (by simp [hstay]), if_neg hup]

end CompilationDatabase.FileSystem
