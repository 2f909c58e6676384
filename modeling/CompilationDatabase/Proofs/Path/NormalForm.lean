/-
The form of paths in normal form.

Whenever `..` is left of a path, it was met behind nothing but `..`, and not at the
root (`pairwise_foldl_collapse`).  Names in this order are left again when they are
gone through once more (`AreNormal.foldl_collapse`), so the path made of them stays
what it is (`normalize_render`).

* `isNormal_normalize` — the normal form has this form, and a path of this form is its
  own normal form.
-/
import CompilationDatabase.Proofs.Path.Normal

namespace CompilationDatabase.Path

/-- Whether the names can be all that is left of a path: proper names between slashes,
with `..` behind nothing but `..`, and not at the root. -/
structure AreNormal (rooted : Bool) (names : List String) : Prop where
  proper : ∀ name ∈ names, name ≠ "" ∧ name ≠ "." ∧ '/' ∉ name.toList
  ups_first : names.Pairwise fun earlier later => later = ".." → earlier = ".."
  no_up_at_root : rooted = true → ".." ∉ names

/-- Whether the text is `.`, the root, or names between single slashes, with or without
a slash in front. -/
def IsNormal (path : String) : Prop :=
  path = "." ∨ path = "/" ∨ ∃ (rooted : Bool) (names : List String), names ≠ [] ∧
    AreNormal rooted names ∧ path = (if rooted then "/" else "") ++ "/".intercalate names

variable {path name : String} {names stack : List String} {rooted : Bool}

/-! ### The names that are left -/

theorem pairwise_collapse (rooted : Bool) (piece : String)
    (h : stack.Pairwise fun later earlier => later = ".." → earlier = "..") :
    (collapse rooted stack piece).Pairwise fun later earlier => later = ".." → earlier = ".." := by
  rcases collapse_cases rooted stack piece with
    ⟨-, hstep⟩ | ⟨-, -, -, hstep⟩ | ⟨last, rest, -, -, rfl, hstep⟩ | ⟨-, hstep, hup⟩
  · rwa [hstep]
  · rw [hstep]
    exact List.Pairwise.nil
  · rw [hstep]
    exact (List.pairwise_cons.mp h).2
  · rw [hstep, List.pairwise_cons]
    refine ⟨fun earlier hmem heq => ?_, h⟩
    -- below the `..` that the new one is put on there is nothing else
    rcases hup heq with ⟨-, rfl⟩ | ⟨rest, rfl⟩
    · cases hmem
    · rcases List.mem_cons.mp hmem with rfl | hrest
      · rfl
      · exact (List.pairwise_cons.mp h).1 earlier hrest rfl

theorem pairwise_foldl_collapse (rooted : Bool) (pieces : List String)
    (h : stack.Pairwise fun later earlier => later = ".." → earlier = "..") :
    (pieces.foldl (collapse rooted) stack).Pairwise
      fun later earlier => later = ".." → earlier = ".." := by
  induction pieces generalizing stack with
  | nil => exact h
  | cons piece pieces ih => exact ih (pairwise_collapse rooted piece h)

theorem areNormal_normalNames (path : String) :
    AreNormal (isAbsolute path) (normalNames path) where
  proper name hmem := by
    obtain ⟨hslash, hstay, -⟩ := mem_normalNames hmem
    obtain ⟨hempty, hdot⟩ := isStay_eq_false_iff.mp hstay
    exact ⟨hempty, hdot, hslash⟩
  ups_first := by
    rw [normalNames, List.pairwise_reverse]
    exact pairwise_foldl_collapse _ _ List.Pairwise.nil
  no_up_at_root habsolute hmem := (mem_normalNames hmem).2.2 habsolute rfl

namespace AreNormal

theorem slash_not_mem (h : AreNormal rooted names) (hmem : name ∈ names) : '/' ∉ name.toList :=
  (h.proper name hmem).2.2

theorem isStay_eq_false (h : AreNormal rooted names) (hmem : name ∈ names) :
    isStay name = false :=
  isStay_eq_false_iff.mpr ⟨(h.proper name hmem).1, (h.proper name hmem).2.1⟩

/-- A name in this order is put on those before it. -/
theorem collapse_eq_cons (h : AreNormal rooted (stack.reverse ++ name :: names)) :
    collapse rooted stack name = name :: stack := by
  have hmem : name ∈ stack.reverse ++ name :: names :=
    List.mem_append_right _ List.mem_cons_self
  have hstay := h.isStay_eq_false hmem
  by_cases hup : name = ".."
  · subst hup
    cases stack with
    | nil =>
      have hrooted : rooted = false := by
        rw [← Bool.not_eq_true]
        exact fun hrooted => h.no_up_at_root hrooted hmem
      simp [collapse, hstay, hrooted]
    | cons last rest =>
      have hlast : last = ".." := (List.pairwise_append.mp h.ups_first).2.2 last
        (List.mem_reverse.mpr List.mem_cons_self) ".." List.mem_cons_self rfl
      simp [collapse, hstay, hlast]
  · exact collapse_of_name hstay hup

/-- Names in this order are all left when they are gone through. -/
theorem foldl_collapse_append (h : AreNormal rooted (stack.reverse ++ names)) :
    names.foldl (collapse rooted) stack = names.reverse ++ stack := by
  induction names generalizing stack with
  | nil => rfl
  | cons name names ih =>
    rw [List.foldl_cons, h.collapse_eq_cons, ih (by simpa using h), List.reverse_cons,
      List.append_assoc]
    rfl

theorem foldl_collapse (h : AreNormal rooted names) :
    names.foldl (collapse rooted) [] = names.reverse := by
  rw [foldl_collapse_append h, List.append_nil]

end AreNormal

/-! ### The path made of them -/

theorem isNormal_render (h : AreNormal rooted names) : IsNormal (render rooted names) := by
  by_cases hne : names = []
  · subst hne
    cases rooted with
    | true => exact .inr (.inl rfl)
    | false => exact .inl rfl
  · refine .inr (.inr ⟨rooted, names, hne, h, ?_⟩)
    cases rooted with
    | true => rfl
    | false => simp [render, hne]

theorem exists_render_of_isNormal (h : IsNormal path) :
    ∃ rooted names, AreNormal rooted names ∧ path = render rooted names := by
  have hnil (rooted : Bool) : AreNormal rooted [] := ⟨nofun, List.Pairwise.nil, nofun⟩
  rcases h with rfl | rfl | ⟨rooted, names, hne, hnames, rfl⟩
  · exact ⟨false, [], hnil false, rfl⟩
  · exact ⟨true, [], hnil true, rfl⟩
  · refine ⟨rooted, names, hnames, ?_⟩
    cases rooted with
    | true => rfl
    | false => simp [render, hne]

theorem isAbsolute_render (h : AreNormal rooted names) :
    isAbsolute (render rooted names) = rooted := by
  cases rooted with
  | true => exact isAbsolute_render_true names
  | false =>
    cases names with
    | nil => rfl
    | cons first rest =>
      -- the first name is not empty, and what it begins with is no slash
      obtain ⟨c, characters, hfirst⟩ := List.exists_cons_of_ne_nil
        (fun hnil => (h.proper first List.mem_cons_self).1 (String.toList_eq_nil_iff.mp hnil))
      have hc : c ≠ '/' := by
        rintro rfl
        exact h.slash_not_mem List.mem_cons_self (hfirst ▸ List.mem_cons_self)
      have hhead : (render false (first :: rest)).toList.head? = some c := by
        cases rest with
        | nil => simp [render, hfirst]
        | cons second rest => simp [render, hfirst, String.toList_intercalate]
      simp [isAbsolute, hhead, hc]

theorem normalNames_render (h : AreNormal rooted names) :
    normalNames (render rooted names) = names := by
  rw [normalNames, isAbsolute_render h, ← foldl_collapse_filter,
    filter_pieces_render (fun _ hmem => ⟨h.slash_not_mem hmem, h.isStay_eq_false hmem⟩) rooted,
    h.foldl_collapse, List.reverse_reverse]

theorem normalize_render (h : AreNormal rooted names) :
    normalize (render rooted names) = render rooted names := by
  rw [normalize, isAbsolute_render h, normalNames_render h]

theorem isAbsolute_normalize (path : String) : isAbsolute (normalize path) = isAbsolute path :=
  isAbsolute_render (areNormal_normalNames path)

theorem normalNames_normalize (path : String) : normalNames (normalize path) = normalNames path :=
  normalNames_render (areNormal_normalNames path)

theorem normalize_normalize (path : String) : normalize (normalize path) = normalize path :=
  normalize_render (areNormal_normalNames path)

theorem normalize_eq_self_iff : normalize path = path ↔ IsNormal path := by
  constructor
  · intro h
    rw [← h]
    exact isNormal_render (areNormal_normalNames path)
  · intro h
    obtain ⟨rooted, names, hnames, rfl⟩ := exists_render_of_isNormal h
    exact normalize_render hnames

instance (path : String) : Decidable (IsNormal path) :=
  decidable_of_iff (normalize path = path) normalize_eq_self_iff

/-- **The normal form of a path is `.`, the root, or names between single slashes with
`..` only in front, and not at the root; a path of this form is left as it is, so these
are all the normal forms; and the normal form starts with a slash just if the path
does.** -/
theorem isNormal_normalize (path : String) :
    IsNormal (normalize path) ∧ (IsNormal path ↔ normalize path = path) ∧
    (IsNormal path ↔ ∃ other, normalize other = path) ∧
    normalize (normalize path) = normalize path ∧
    ((normalize path).toList.head? = some '/' ↔ path.toList.head? = some '/') := by
  refine ⟨isNormal_render (areNormal_normalNames path), normalize_eq_self_iff.symm, ?_,
    normalize_normalize path, ?_⟩
  · constructor
    · exact fun h => ⟨path, normalize_eq_self_iff.mpr h⟩
    · rintro ⟨other, rfl⟩
      exact isNormal_render (areNormal_normalNames other)
  · have habsolute := isAbsolute_normalize path
    rwa [isAbsolute, isAbsolute, Bool.eq_iff_iff, beq_iff_eq, beq_iff_eq] at habsolute

example : IsNormal "../../a/b" ∧ ¬ IsNormal "a/../b" ∧ ¬ IsNormal "/.." ∧ ¬ IsNormal "a/" := by
  decide +kernel

end CompilationDatabase.Path
