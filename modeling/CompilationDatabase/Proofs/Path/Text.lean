/-
The text of a normal form.

Going through the pieces of a path never moves or doubles one
(`reverse_foldl_collapse_sublist`), so what is left of a path is found in it in the same
order, and the normal form can be had by deleting characters of the path
(`normalize_sublist`).  A path of which nothing is left becomes a dot.

* `utf8ByteSize_normalize_le` — the normal form is not longer than the path;
* `nul_not_mem_normalize` — it holds no NUL if the path does not;
* `normalize_ne_empty` — it is never empty.
-/
import Mathlib.Data.String.Basic
import CompilationDatabase.Proofs.Path.NormalForm

namespace CompilationDatabase.Path

variable {path : String}

theorem reverse_collapse_sublist (rooted : Bool) (stack : List String) (piece : String) :
    (collapse rooted stack piece).reverse.Sublist (stack.reverse ++ [piece]) := by
  rcases collapse_cases rooted stack piece with
    ⟨-, hstep⟩ | ⟨-, -, -, hstep⟩ | ⟨last, rest, -, -, rfl, hstep⟩ | ⟨-, hstep, -⟩
  · rw [hstep]
    exact List.sublist_append_left _ _
  · rw [hstep]
    exact List.nil_sublist _
  · rw [hstep, List.reverse_cons, List.append_assoc]
    exact List.sublist_append_left _ _
  · rw [hstep, List.reverse_cons]

theorem reverse_foldl_collapse_sublist (rooted : Bool) (stack pieces : List String) :
    (pieces.foldl (collapse rooted) stack).reverse.Sublist (stack.reverse ++ pieces) := by
  induction pieces generalizing stack with
  | nil => simp
  | cons piece pieces ih =>
    refine (ih (collapse rooted stack piece)).trans ?_
    rw [List.append_cons]
    exact (reverse_collapse_sublist rooted stack piece).append_right pieces

theorem normalNames_sublist (path : String) : (normalNames path).Sublist (pieces path) :=
  reverse_foldl_collapse_sublist (isAbsolute path) [] (pieces path)

theorem intercalate_pieces (path : String) :
    ['/'].intercalate ((pieces path).map String.toList) = path.toList := by
  have hmap : (pieces path).map String.toList = path.toList.splitOn '/' := by
    simp [pieces]
  rw [hmap, List.intercalate_splitOn]

/-- The normal form is what is left of the text when some characters are deleted, or a dot. -/
theorem normalize_sublist (path : String) :
    normalize path = "." ∨ (normalize path).toList.Sublist path.toList := by
  have hjoin {names : List String} {text : String} (h : names.Sublist (pieces text)) :
      ("/".intercalate names).toList.Sublist text.toList := by
    rw [String.toList_intercalate, ← intercalate_pieces text]
    exact Text.intercalate_sublist (h.map String.toList)
  have hsublist := normalNames_sublist path
  cases habsolute : isAbsolute path with
  | false =>
    rw [normalize, habsolute, render, if_neg (by simp)]
    split
    · exact .inl rfl
    · exact .inr (hjoin hsublist)
  | true =>
    obtain ⟨rest, hrest⟩ := List.head?_eq_some_iff.mp (beq_iff_eq.mp habsolute)
    have hpieces : pieces path = "" :: pieces (String.ofList rest) := by
      have htext : path.toList = [] ++ '/' :: rest := hrest
      rw [pieces_of_toList htext]
      rfl
    -- the empty piece in front of the first slash is not among the names
    have hnames : (normalNames path).Sublist (pieces (String.ofList rest)) := by
      rw [hpieces] at hsublist
      rcases List.sublist_cons_iff.mp hsublist with h | ⟨names, hcons, -⟩
      · exact h
      · exact absurd rfl ((areNormal_normalNames path).proper "" (hcons ▸ List.mem_cons_self)).1
    right
    rw [normalize, habsolute, hrest]
    simpa [render] using hjoin hnames

theorem normalize_ne_empty (path : String) : normalize path ≠ "" := by
  intro h
  have hempty := normalize_normalize path
  rw [h] at hempty
  exact absurd hempty (by decide +kernel)

theorem utf8ByteSize_normalize_le (h : path ≠ "") :
    (normalize path).utf8ByteSize ≤ path.utf8ByteSize := by
  rcases normalize_sublist path with hdot | hsublist
  · rw [hdot]
    exact Nat.pos_of_ne_zero fun hzero => h (String.utf8ByteSize_eq_zero_iff.mp hzero)
  · have hle := String.utf8Len_le_of_sublist hsublist
    rwa [← String.utf8ByteSize_ofList, ← String.utf8ByteSize_ofList, String.ofList_toList,
      String.ofList_toList] at hle

theorem nul_not_mem_normalize (h : '\x00' ∉ path.toList) : '\x00' ∉ (normalize path).toList := by
  rcases normalize_sublist path with hdot | hsublist
  · rw [hdot]
    decide
  · exact fun hmem => h (hsublist.subset hmem)

end CompilationDatabase.Path
