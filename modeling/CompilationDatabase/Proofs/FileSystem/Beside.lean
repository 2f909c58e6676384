/-
A path with something put behind it.

What is put behind a path, and holds no slash, belongs to the last piece, so
the longer path is followed through the same directories (`holder_append`) and
ends in a longer name (`name_of_target_append`).  So the two paths never lead to
the same place, whatever the path is: a name, a directory with a slash behind
it, or `..` (`ne_location_of_resolve`).
-/
import CompilationDatabase.Proofs.FileSystem.Frame
import CompilationDatabase.Proofs.Text.Splitting

namespace CompilationDatabase

namespace Path

variable {path suffix : String}

theorem pieces_append (h : '/' ∉ suffix.toList) :
    pieces (path ++ suffix) = (pieces path).dropLast ++ [lastPiece path ++ suffix] := by
  have hsplit : (path ++ suffix).toList.splitOn '/' = _ :=
    String.toList_append ▸ Text.splitOn_append_of_not_mem h
  rw [pieces, hsplit]
  simp only [pieces, lastPiece, List.map_append, List.map_dropLast, List.map_cons, List.map_nil,
    String.ofList_append, String.ofList_toList, List.getLast_map]

theorem isAbsolute_append (h : path ≠ "") : isAbsolute (path ++ suffix) = isAbsolute path := by
  obtain ⟨c, rest, hpath⟩ := List.exists_cons_of_ne_nil (mt String.toList_eq_nil_iff.mp h)
  simp [isAbsolute, hpath]

end Path

namespace FileSystem

variable {fs : FileSystem} {path suffix : String}

theorem holder_append (h : '/' ∉ suffix.toList) {directory directory' : Location}
    (hholder : fs.holder path = .ok directory)
    (hholder' : fs.holder (path ++ suffix) = .ok directory') : directory' = directory := by
  obtain ⟨origin, hstart, hwalk⟩ := bind_eq_ok_iff.mp hholder
  obtain ⟨origin', hstart', hwalk'⟩ := bind_eq_ok_iff.mp hholder'
  obtain ⟨-, hne, -, rfl⟩ := start_eq_ok_iff.mp hstart
  obtain ⟨-, -, -, rfl⟩ := start_eq_ok_iff.mp hstart'
  rw [Path.pieces_append h, List.dropLast_concat, FileSystem.origin,
    Path.isAbsolute_append hne] at hwalk'
  exact Except.ok.inj (hwalk'.symm.trans hwalk)

/-- The longer path ends in the longer name, with no slash behind it. -/
theorem name_of_target_append (h : '/' ∉ suffix.toList) (hne : suffix ≠ "") {t : Target}
    (ht : fs.target (path ++ suffix) = .ok t) :
    t.name = Path.lastPiece path ++ suffix ∧ t.trailingSlash = false := by
  have hlast : Path.lastPiece path ++ suffix ≠ "" := by
    rw [ne_eq, String.append_eq_empty_iff, not_and]
    exact fun _ => hne
  have hstem : stem (path ++ suffix) = Path.pieces (path ++ suffix) := by
    rw [stem, Path.pieces_append h, List.reverse_append, List.reverse_singleton,
      List.singleton_append, List.dropWhile_cons_of_neg (by simpa using hlast)]
    simp
  obtain ⟨-, -, -, -, hname, hslash⟩ := target_eq_ok_iff.mp ht
  rw [hstem, Path.pieces_append h] at hname
  rw [hstem] at hslash
  exact ⟨by simpa using hname, by simpa using hslash⟩

/-- Where the longer path can put a file, the path does not lead. -/
theorem ne_location_of_resolve (h : '/' ∉ suffix.toList) (hne : suffix ≠ "") {t : Target}
    (ht : fs.target (path ++ suffix) = .ok t) {place : Location}
    (hresolve : fs.resolve path = .ok place) : place ≠ t.location := by
  obtain ⟨hname, hslash⟩ := name_of_target_append h hne ht
  obtain ⟨directory, hholder, hstep⟩ := resolve_eq_ok_iff.mp hresolve
  have hdirectory : t.directory = directory :=
    holder_append h hholder (holder_of_target ht hslash).1
  obtain ⟨-, rfl, -⟩ := step_eq_ok_iff.mp hstep
  rw [Target.location, hname, hdirectory, follow]
  intro heq
  have hlength := congrArg List.length heq
  -- only a step to a name leads as deep, and that name is shorter
  split at heq
  · simp at heq
  · split at heq
    · rename_i hstay hup
      rw [if_neg hstay, if_pos hup] at hlength
      simp only [List.length_dropLast, List.length_append, List.length_cons, List.length_nil]
        at hlength
      omega
    · have hlast : Path.lastPiece path = Path.lastPiece path ++ suffix :=
        List.singleton_inj.mp (List.append_cancel_left heq)
      rw [← String.toList_inj, String.toList_append, List.self_eq_append_right] at hlast
      exact hne (String.toList_eq_nil_iff.mp hlast)

theorem not_names_of_target_append (h : '/' ∉ suffix.toList) (hne : suffix ≠ "") {t : Target}
    (ht : fs.target (path ++ suffix) = .ok t) (hfree : fs.node? t.location ≠ some .directory) :
    ¬ fs.Names path t.location := fun hnames =>
  ne_location_of_resolve h hne
    ((DifferAt.insert (location_ne_nil t) hfree .empty).target ht) hnames rfl

end FileSystem

end CompilationDatabase
