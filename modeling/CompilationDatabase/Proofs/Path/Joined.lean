/-
Normal forms of paths taken from a directory.

What is left of a relative path does to the names before it what the path does
(`foldl_collapse_normalNames`): `..` in the path takes back a name of the path, or else
it is left and takes back a name before it.  So the pieces of the directory and of the
path may be replaced by what is left of each before the two are put together
(`normalNames_under`).

* `normalize_under_normalize` — a path taken from a directory has one normal form,
  however the two are spelled.
-/
import CompilationDatabase.Proofs.Path.NormalForm

namespace CompilationDatabase.Path

variable {path : String} {names stack : List String} {rooted : Bool}

/-- To take one more piece onto what is left of a path is to go through what was left,
and then to take the piece. -/
theorem foldl_reverse_collapse (h : ∀ name ∈ names, isStay name = false) (piece : String) :
    (collapse false names piece).reverse.foldl (collapse rooted) stack =
      collapse rooted (names.reverse.foldl (collapse rooted) stack) piece := by
  rcases collapse_cases false names piece with
    ⟨hstay, hstep⟩ | ⟨-, hroot, -⟩ | ⟨last, rest, rfl, hlast, rfl, hstep⟩ | ⟨-, hstep, -⟩
  · rw [hstep, collapse_of_stay hstay]
  · cases hroot
  · -- the name was put on the stack, from which `..` takes it back
    rw [hstep, List.reverse_cons, List.foldl_append, List.foldl_cons, List.foldl_nil,
      collapse_of_name (h last List.mem_cons_self) hlast, collapse_up_of_name hlast]
  · rw [hstep, List.reverse_cons, List.foldl_append]
    rfl

theorem foldl_reverse_foldl_collapse (h : ∀ name ∈ names, isStay name = false)
    (pieces : List String) :
    (pieces.foldl (collapse false) names).reverse.foldl (collapse rooted) stack =
      pieces.foldl (collapse rooted) (names.reverse.foldl (collapse rooted) stack) := by
  induction pieces generalizing names with
  | nil => rfl
  | cons piece pieces ih =>
    rw [List.foldl_cons, ih (isStay_eq_false_of_mem_collapse h), foldl_reverse_collapse h,
      List.foldl_cons]

/-- What is left of a relative path does to the names before it what the path does. -/
theorem foldl_collapse_normalNames (h : isAbsolute path = false) (rooted : Bool)
    (stack : List String) :
    (normalNames path).foldl (collapse rooted) stack =
      (pieces path).foldl (collapse rooted) stack := by
  rw [normalNames, h, foldl_reverse_foldl_collapse (List.forall_mem_nil _)]
  rfl

theorem normalNames_under (h : isAbsolute path = false) (directory : String) :
    normalNames (under directory path) =
      ((normalNames path).foldl (collapse (isAbsolute directory))
        (normalNames directory).reverse).reverse := by
  obtain ⟨front, hpieces, hfront⟩ := exists_pieces_under directory path
  rw [normalNames, isAbsolute_under, h, Bool.or_false, hpieces, List.foldl_append,
    ← foldl_collapse_filter _ front, hfront h, foldl_collapse_filter,
    foldl_collapse_normalNames h, normalNames, List.reverse_reverse]

theorem under_of_isAbsolute (h : isAbsolute path = true) (directory : String) :
    under directory path = path :=
  if_pos (by rw [h, Bool.true_or])

theorem normalize_under (directory path : String) :
    normalize (under directory path) = normalize (under (normalize directory) (normalize path)) := by
  cases h : isAbsolute path with
  | true =>
    rw [under_of_isAbsolute h, under_of_isAbsolute (isAbsolute_normalize path ▸ h),
      normalize_normalize]
  | false =>
    have h' : isAbsolute (normalize path) = false := isAbsolute_normalize path ▸ h
    rw [normalize, isAbsolute_under, normalNames_under h, normalize, isAbsolute_under,
      normalNames_under h']
    simp only [isAbsolute_normalize, normalNames_normalize]

/-- **A path taken from a directory has one normal form, whether the directory and the
path are brought into normal form before or not, and however they are spelled.** -/
theorem normalize_under_normalize (directory path : String) :
    (isAbsolute path = true → under directory path = path) ∧
    normalize (under directory path) =
      normalize (under (normalize directory) (normalize path)) ∧
    absolute directory path = absolute (normalize directory) (normalize path) ∧
    ∀ directory' path', normalize directory' = normalize directory →
      normalize path' = normalize path → absolute directory' path' = absolute directory path := by
  refine ⟨fun h => under_of_isAbsolute h directory, normalize_under directory path,
    normalize_under directory path, fun directory' path' hdirectory hpath => ?_⟩
  rw [absolute, normalize_under, hdirectory, hpath, ← normalize_under, absolute]

/-- A name of the directory is taken back by a path that goes up, whichever of the two is
spelled with dots. -/
theorem normalize_under_normalize_dotted :
    (isAbsolute "/x/../y" = true ∧ under "a/.." "/x/../y" = "/x/../y") ∧
    normalize "/w/./b//" = normalize "/w/b" ∧ normalize "x/../../y" = normalize "../y" ∧
      absolute "/w/./b//" "x/../../y" = absolute "/w/b" "../y" := by
  have hpath : isAbsolute "/x/../y" = true := by decide
  have hdirectory : normalize "/w/./b//" = normalize "/w/b" := by decide +kernel
  have hup : normalize "x/../../y" = normalize "../y" := by decide +kernel
  exact ⟨⟨hpath, (normalize_under_normalize "a/.." "/x/../y").1 hpath⟩, hdirectory, hup,
    (normalize_under_normalize "/w/b" "../y").2.2.2 _ _ hdirectory hup⟩

end CompilationDatabase.Path
