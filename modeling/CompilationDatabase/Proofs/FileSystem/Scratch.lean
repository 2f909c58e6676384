/-
A directory for a while.

A directory is made under a name that is new, filled with whatever, and taken
away again with all in it.  Where a path leads is told by its pieces and where it
starts (`walk_eq_foldl`), so whatever was done meanwhile the path of the directory
leads to no other place, and what is taken away lies under its name.  To a path
without that name nothing of all this can be seen.

* `makeDirectories_of_makeDirectory` — to make all that leads to the directory
  makes just the directory, if it can be made;
* `agreeOn_makeDirectory` — making it leaves all other names as they were;
* `agreeOn_cleared` — and so does taking away what is at its path later.
-/
import Mathlib.Data.List.TakeWhile
import CompilationDatabase.Proofs.FileSystem.Agreement

namespace CompilationDatabase.FileSystem

variable {fs fs' prepared : FileSystem} {path : String} {t : Target}

/-- A directory is made just if its name is new and can be given. -/
theorem makeDirectory_eq_ok_iff :
    fs.makeDirectory path = .ok prepared ↔
      ∃ t, fs.target path = .ok t ∧ t.isSpecial = false ∧ t.isTooLong = false ∧
        fs.node? t.location = none ∧ prepared = fs.insert t.location .directory := by
  rw [makeDirectory, bind_eq_ok_iff]
  refine exists_congr fun t => and_congr_right fun _ => ?_
  constructor
  · intro h
    split at h
    · cases h
    · rename_i hplain
      split at h
      · cases h
      · rename_i hshort
        split at h
        · cases h
        · rename_i hfree
          exact ⟨by simpa using hplain, by simpa using hshort, hfree, (Except.ok.inj h).symm⟩
  · rintro ⟨hplain, hshort, hfree, rfl⟩
    simp [hplain, hshort, hfree]

/-! ### Where a path leads -/

theorem walk_eq_foldl {place next : Location} {pieces : List String}
    (h : fs.walk place pieces = .ok next) : next = pieces.foldl follow place := by
  induction pieces generalizing place with
  | nil => exact (Except.ok.inj h).symm
  | cons piece pieces ih =>
    rw [walk_cons, bind_eq_ok_iff] at h
    obtain ⟨middle, hstep, hrest⟩ := h
    obtain ⟨-, rfl, -⟩ := step_eq_ok_iff.mp hstep
    exact ih hrest

/-- Behind the stem of a path only empty pieces are left. -/
theorem pieces_eq_stem_append (path : String) :
    ∃ n, Path.pieces path = stem path ++ List.replicate n "" := by
  have hempty : (Path.pieces path).reverse.takeWhile (· == "") =
      List.replicate ((Path.pieces path).reverse.takeWhile (· == "")).length "" := by
    refine List.eq_replicate_of_mem fun piece hpiece => ?_
    simpa using List.mem_takeWhile_imp hpiece
  refine ⟨((Path.pieces path).reverse.takeWhile (· == "")).length, ?_⟩
  rw [← List.reverse_replicate, ← hempty, stem, ← List.reverse_append,
    List.takeWhile_append_dropWhile, List.reverse_reverse]

theorem foldl_follow_replicate (place : Location) (n : Nat) :
    (List.replicate n "").foldl follow place = place := by
  induction n with
  | zero => rfl
  | succ n ih =>
    rw [List.replicate_succ, List.foldl_cons]
    exact ih

/-- A path with a target of its own ends in the name of the target, but for empty
pieces. -/
theorem pieces_of_target (h : fs.target path = .ok t) (hplain : t.isSpecial = false) :
    ∃ n, Path.pieces path = (stem path).dropLast ++ t.name :: List.replicate n "" := by
  obtain ⟨-, -, -, -, hname, -⟩ := target_eq_ok_iff.mp h
  have hne : stem path ≠ [] := by
    intro hnil
    rw [hnil] at hname
    simp [Target.isSpecial, hname, Path.isStay] at hplain
  have hstem : stem path = (stem path).dropLast ++ [t.name] := by
    rw [List.getLast?_eq_some_getLast hne, Option.getD_some] at hname
    rw [hname, List.dropLast_concat_getLast hne]
  obtain ⟨n, hpieces⟩ := pieces_eq_stem_append path
  refine ⟨n, ?_⟩
  rw [hpieces]
  nth_rewrite 1 [hstem]
  rw [List.append_assoc, List.singleton_append]

/-- Whatever has changed, a path leads to no other place than the target that it
had. -/
theorem eq_location_of_resolve_later (h : fs.target path = .ok t) (hplain : t.isSpecial = false)
    (hdirectory : fs'.workingDirectory = fs.workingDirectory) {place : Location}
    (hresolve : fs'.resolve path = .ok place) : place = t.location := by
  obtain ⟨origin, hstart, hwalk, -⟩ := target_eq_ok_iff.mp h
  obtain ⟨origin', hstart', hwalk'⟩ := bind_eq_ok_iff.mp hresolve
  have horigin : origin' = origin := by
    obtain ⟨-, -, -, rfl⟩ := start_eq_ok_iff.mp hstart
    obtain ⟨-, -, -, rfl⟩ := start_eq_ok_iff.mp hstart'
    rw [FileSystem.origin, FileSystem.origin, hdirectory]
  obtain ⟨hstay, hup⟩ : Path.isStay t.name = false ∧ t.name ≠ ".." := by
    simpa [Target.isSpecial] using hplain
  obtain ⟨n, hpieces⟩ := pieces_of_target h hplain
  calc place
      _ = (Path.pieces path).foldl follow origin := horigin ▸ walk_eq_foldl hwalk'
      _ = follow ((stem path).dropLast.foldl follow origin) t.name := by
        rw [hpieces, List.foldl_append, List.foldl_cons, foldl_follow_replicate]
      _ = follow t.directory t.name := by rw [← walk_eq_foldl hwalk]
      _ = t.location := by simp [follow, hstay, hup, Target.location]

/-! ### Making the directory -/

theorem stepMaking_of_step {place next : Location} {piece : String}
    (h : fs.step place piece = .ok next) : fs.stepMaking place piece = .ok (fs, next) := by
  rw [stepMaking, h]

/-- A step to a name that is not there makes a directory under it. -/
theorem stepMaking_of_missing {place : Location} {name : String}
    (hdirectory : fs.node? place = some .directory) (hstay : Path.isStay name = false)
    (hup : name ≠ "..") (hshort : ¬ name.utf8ByteSize > maxNameLength)
    (hfree : fs.node? (place ++ [name]) = none) :
    fs.stepMaking place name = .ok (fs.insert (place ++ [name]) .directory, place ++ [name]) := by
  have hmissing : fs.step place name = .error .noSuchFile := by
    simp [step, hdirectory, hstay, hup, hshort, hfree]
  rw [stepMaking, hmissing]

theorem foldlM_stepMaking_of_walk {place next : Location} {pieces : List String}
    (h : fs.walk place pieces = .ok next) :
    pieces.foldlM (fun state piece => state.1.stepMaking state.2 piece) (fs, place) =
      .ok (fs, next) := by
  induction pieces generalizing place with
  | nil =>
    obtain rfl := Except.ok.inj h
    rfl
  | cons piece pieces ih =>
    rw [walk_cons, bind_eq_ok_iff] at h
    obtain ⟨middle, hstep, hrest⟩ := h
    rw [List.foldlM_cons, stepMaking_of_step hstep]
    exact ih hrest

theorem walk_replicate {place : Location} (h : fs.node? place = some .directory) (n : Nat) :
    fs.walk place (List.replicate n "") = .ok place := by
  have hstays : ∀ piece ∈ List.replicate n "", Path.isStay piece = true := fun piece hmem => by
    simp [List.eq_of_mem_replicate hmem, Path.isStay]
  rw [← List.append_nil (List.replicate n ""), walk_stays_append h hstays]
  rfl

theorem makeDirectories_of_makeDirectory (h : fs.makeDirectory path = .ok prepared) :
    fs.makeDirectories path = .ok prepared := by
  obtain ⟨t, htarget, hplain, hshort, hfree, rfl⟩ := makeDirectory_eq_ok_iff.mp h
  obtain ⟨origin, hstart, hwalk, hdirectory, -⟩ := target_eq_ok_iff.mp htarget
  obtain ⟨hstay, hup⟩ : Path.isStay t.name = false ∧ t.name ≠ ".." := by
    simpa [Target.isSpecial] using hplain
  have hmade := stepMaking_of_missing hdirectory hstay hup
    (by simpa [Target.isTooLong] using hshort) hfree
  obtain ⟨n, hpieces⟩ := pieces_of_target htarget hplain
  have hrest := foldlM_stepMaking_of_walk (walk_replicate
    (node?_insert_self fs .directory (location_ne_nil t)) (n + 1))
  -- the directories before the name are there, and behind it are empty pieces
  have hall : (Path.pieces path ++ [""]).foldlM
      (fun state piece => state.1.stepMaking state.2 piece) (fs, origin) =
        .ok (fs.insert t.location .directory, t.location) := by
    have hend : List.replicate n "" ++ [""] = List.replicate (n + 1) "" :=
      List.replicate_succ'.symm
    simp only [hpieces, List.append_assoc, List.cons_append, hend, List.foldlM_append,
      foldlM_stepMaking_of_walk hwalk, List.foldlM_cons, bind, Except.bind, hmade]
    exact hrest
  rw [makeDirectories, hstart]
  show fs.makeAlong origin (Path.pieces path ++ [""]) = _
  rw [makeAlong, hall]
  rfl

/-! ### What is left of it -/

/-- The file system without what is at the path, and below it. -/
def cleared (path : String) (fs : FileSystem) : FileSystem :=
  match fs.resolve path with
  | .ok location => fs.eraseTree location
  | .error _ => fs

theorem node?_eraseTree {place other : Location} (h : ¬ place <+: other) :
    (fs.eraseTree place).node? other = fs.node? other := by
  by_cases hne : other = []
  · rw [hne, node?_nil, node?_nil]
  · refine Option.ext fun node => ?_
    rw [node?_eq_some_iff hne, node?_eq_some_iff hne, eraseTree, List.mem_filter]
    have hkept : place.isPrefixOf other = false := by
      rw [← Bool.not_eq_true, List.isPrefixOf_iff_prefix]
      exact h
    simp [hkept]

theorem agreeOn_makeDirectory (h : fs.makeDirectory path = .ok prepared)
    (ht : fs.target path = .ok t) (hdirectory : t.name ∉ fs.workingDirectory) :
    AgreeOn (· ≠ t.name) fs prepared := by
  obtain ⟨t', ht', -, -, -, rfl⟩ := makeDirectory_eq_ok_iff.mp h
  obtain rfl : t = t' := Except.ok.inj (ht.symm.trans ht')
  refine ⟨rfl, fun name hname heq => hdirectory (heq ▸ hname), fun place hplace => ?_⟩
  refine node?_insert_of_ne fs .directory ?_
  rintro rfl
  exact hplace t.name (by simp [Target.location]) rfl

theorem agreeOn_cleared (h : fs.makeDirectory path = .ok prepared)
    (ht : fs.target path = .ok t) (hdirectory : t.name ∉ fs.workingDirectory)
    (hsame : fs'.workingDirectory = fs.workingDirectory) :
    AgreeOn (· ≠ t.name) fs' (cleared path fs') := by
  obtain ⟨t', ht', hplain, -⟩ := makeDirectory_eq_ok_iff.mp h
  obtain rfl : t = t' := Except.ok.inj (ht.symm.trans ht')
  have hwithin : ∀ name ∈ fs'.workingDirectory, name ≠ t.name := by
    rintro name hname rfl
    exact hdirectory (hsame ▸ hname)
  unfold cleared
  split
  · rename_i place hresolve
    obtain rfl := eq_location_of_resolve_later ht hplain hsame hresolve
    refine ⟨rfl, hwithin, fun other hother => node?_eraseTree fun hbelow => ?_⟩
    exact hother t.name (hbelow.subset (by simp [Target.location])) rfl
  · exact ⟨rfl, hwithin, fun _ _ => rfl⟩

end CompilationDatabase.FileSystem
