/-
What is left of a path in its normal form.

Going through the pieces of a path keeps some of them: no empty ones and no dots,
and from the root no `..` either (`mem_normalNames`).  The last name of a path is
not cancelled by anything, so the normal form names the same file
(`fileName?_normalize`), and so does the path taken from a directory
(`fileName?_under`).

* `isResolved_absolute` — a path taken from an absolute directory has a normal
  form of names only;
* `extension?_absolute` — the extension of a path stays what it is.
-/
import CompilationDatabase.Path.Normal
import CompilationDatabase.Proofs.Text.Splitting

namespace CompilationDatabase.Path

/-- Whether the path leads down from the root, with nothing but names between
single slashes. -/
def IsResolved (path : String) : Prop :=
  isAbsolute path = true ∧
    (path = "/" ∨ ∀ piece ∈ (pieces path).tail, piece ≠ "" ∧ piece ≠ "." ∧ piece ≠ "..")

variable {path piece name : String} {names : List String} {rooted : Bool}

theorem isStay_eq_false_iff : isStay piece = false ↔ piece ≠ "" ∧ piece ≠ "." := by
  simp [isStay]

/-! ### Pieces -/

theorem slash_not_mem_of_mem_pieces (h : piece ∈ pieces path) : '/' ∉ piece.toList := by
  obtain ⟨characters, hmem, rfl⟩ := List.mem_map.mp h
  rw [String.toList_ofList]
  exact (Text.subset_of_mem_splitOn hmem).1

theorem pieces_of_toList {before after : List Char} (h : path.toList = before ++ '/' :: after) :
    pieces path = pieces (String.ofList before) ++ pieces (String.ofList after) := by
  simp only [pieces, h, List.splitOn_append_cons_self, List.map_append, String.toList_ofList]

theorem pieces_intercalate (hne : names ≠ []) (h : ∀ name ∈ names, '/' ∉ name.toList) :
    pieces ("/".intercalate names) = names := by
  have hsplit : (['/'].intercalate (names.map String.toList)).splitOn '/' =
      names.map String.toList :=
    List.splitOn_intercalate '/' (by simpa using h) (by simpa using hne)
  rw [pieces, String.toList_intercalate, show "/".toList = ['/'] from rfl, hsplit, List.map_map]
  simp

theorem pieces_of_slash_not_mem (h : '/' ∉ name.toList) : pieces name = [name] := by
  rw [pieces, List.splitOn_eq_singleton h]
  simp

theorem isAbsolute_of_slash_not_mem (h : '/' ∉ name.toList) : isAbsolute name = false := by
  rw [isAbsolute, beq_eq_false_iff_ne]
  exact fun hhead => h (List.mem_of_head? hhead)

/-- Taken from a directory, the pieces of a relative path stand behind those of the
directory, in place of an empty one at their end. -/
theorem pieces_under {directory : String} (hdirectory : directory ≠ "")
    (hpath : isAbsolute path = false) :
    ∃ front, pieces (under directory path) = front ++ pieces path ∧
      (pieces directory = front ∨ pieces directory = front ++ [""]) := by
  rw [under, if_neg (by simp [hpath, hdirectory])]
  split
  · rename_i hslash
    -- the slash at the end of the directory stands between the two
    obtain ⟨before, hbefore⟩ := List.getLast?_eq_some_iff.mp (beq_iff_eq.mp hslash)
    have htext : (directory ++ path).toList = before ++ '/' :: path.toList := by simp [hbefore]
    refine ⟨pieces (String.ofList before), ?_, .inr ?_⟩
    · rw [pieces_of_toList htext, String.ofList_toList]
    · rw [pieces_of_toList hbefore]
      rfl
  · have htext : (directory ++ "/" ++ path).toList = directory.toList ++ '/' :: path.toList := by
      simp
    refine ⟨pieces directory, ?_, .inl rfl⟩
    rw [pieces_of_toList htext, String.ofList_toList, String.ofList_toList]

/-- Taken from a directory, a path keeps its pieces, behind those of the directory
but for an empty one at its end. -/
theorem exists_pieces_under (directory path : String) :
    ∃ front, pieces (under directory path) = front ++ pieces path ∧
      (isAbsolute path = false →
        front.filter (!isStay ·) = (pieces directory).filter (!isStay ·)) := by
  by_cases hpath : isAbsolute path = true
  · exact ⟨[], by rw [under, hpath]; rfl, fun hrelative => by simp [hpath] at hrelative⟩
  · rw [Bool.not_eq_true] at hpath
    by_cases hdirectory : directory = ""
    · subst hdirectory
      exact ⟨[], by simp [under], fun _ => rfl⟩
    · obtain ⟨front, hpieces, hfront⟩ := pieces_under hdirectory hpath
      refine ⟨front, hpieces, fun _ => ?_⟩
      rcases hfront with hfront | hfront
      · rw [hfront]
      · simp [hfront, isStay]

/-- Taken from a directory, a path starts at the root if one of the two does. -/
theorem isAbsolute_under (directory path : String) :
    isAbsolute (under directory path) = (isAbsolute directory || isAbsolute path) := by
  by_cases hpath : isAbsolute path = true
  · rw [under, if_pos (by simp [hpath]), hpath, Bool.or_true]
  · rw [Bool.not_eq_true] at hpath
    by_cases hempty : directory = ""
    · subst hempty
      rw [under, if_pos (by simp), hpath]
      rfl
    · -- the path starts with what the directory starts with
      obtain ⟨c, characters, hdirectory⟩ := List.exists_cons_of_ne_nil
        (fun h => hempty (String.toList_eq_nil_iff.mp h))
      rw [under, if_neg (by simp [hpath, hempty]), hpath, Bool.or_false]
      split <;> simp [isAbsolute, hdirectory]

/-! ### The names that are left -/

theorem collapse_of_stay (h : isStay piece = true) : collapse rooted names piece = names :=
  if_pos h

theorem collapse_up_of_name (h : name ≠ "..") : collapse rooted (name :: names) ".." = names :=
  if_neg h

theorem collapse_of_name (hstay : isStay piece = false) (hup : piece ≠ "..") :
    collapse rooted names piece = piece :: names := by
  simp [collapse, hstay, hup]

/-- A piece is passed over, goes up from the root, takes back the last name, or is put
on the names; and `..` is put on nothing but `..`. -/
theorem collapse_cases (rooted : Bool) (names : List String) (piece : String) :
    (isStay piece = true ∧ collapse rooted names piece = names) ∨
    (piece = ".." ∧ rooted = true ∧ names = [] ∧ collapse rooted names piece = []) ∨
    (∃ last rest, piece = ".." ∧ last ≠ ".." ∧ names = last :: rest ∧
      collapse rooted names piece = rest) ∨
    (isStay piece = false ∧ collapse rooted names piece = piece :: names ∧
      (piece = ".." → (rooted = false ∧ names = []) ∨ ∃ rest, names = ".." :: rest)) := by
  by_cases hstay : isStay piece = true
  · exact .inl ⟨hstay, collapse_of_stay hstay⟩
  · rw [Bool.not_eq_true] at hstay
    by_cases hup : piece = ".."
    · subst hup
      cases names with
      | nil =>
        cases rooted with
        | true => exact .inr (.inl ⟨rfl, rfl, rfl, rfl⟩)
        | false => exact .inr (.inr (.inr ⟨hstay, rfl, fun _ => .inl ⟨rfl, rfl⟩⟩))
      | cons last rest =>
        by_cases hlast : last = ".."
        · subst hlast
          exact .inr (.inr (.inr ⟨hstay, rfl, fun _ => .inr ⟨rest, rfl⟩⟩))
        · exact .inr (.inr (.inl ⟨last, rest, rfl, hlast, rfl, collapse_up_of_name hlast⟩))
    · exact .inr (.inr (.inr ⟨hstay, collapse_of_name hstay hup, fun h => absurd h hup⟩))

theorem mem_collapse (h : name ∈ collapse rooted names piece) :
    name ∈ names ∨ name = piece ∧ isStay name = false := by
  rcases collapse_cases rooted names piece with
    ⟨-, hstep⟩ | ⟨-, -, -, hstep⟩ | ⟨last, rest, -, -, rfl, hstep⟩ | ⟨hstay, hstep, -⟩
  · exact .inl (hstep ▸ h)
  · rw [hstep] at h
    cases h
  · exact .inl (List.mem_cons_of_mem last (hstep ▸ h))
  · rw [hstep] at h
    rcases List.mem_cons.mp h with rfl | hmem
    · exact .inr ⟨rfl, hstay⟩
    · exact .inl hmem

theorem isStay_eq_false_of_mem_collapse (h : ∀ name ∈ names, isStay name = false) :
    ∀ name ∈ collapse rooted names piece, isStay name = false := by
  intro name hmem
  rcases mem_collapse hmem with hname | ⟨-, hstay⟩
  · exact h name hname
  · exact hstay

theorem mem_foldl_collapse {pieces : List String}
    (h : name ∈ pieces.foldl (collapse rooted) names) :
    name ∈ names ∨ name ∈ pieces ∧ isStay name = false := by
  induction pieces generalizing names with
  | nil => exact .inl h
  | cons piece pieces ih =>
    rcases ih h with hmem | ⟨hmem, hstay⟩
    · rcases mem_collapse hmem with hname | ⟨rfl, hstay⟩
      · exact .inl hname
      · exact .inr ⟨List.mem_cons_self, hstay⟩
    · exact .inr ⟨List.mem_cons_of_mem piece hmem, hstay⟩

/-- From the root nothing leads up. -/
theorem up_not_mem_foldl_collapse {pieces : List String} (h : ".." ∉ names) :
    ".." ∉ pieces.foldl (collapse true) names := by
  induction pieces generalizing names with
  | nil => exact h
  | cons piece pieces ih =>
    refine ih ?_
    rcases collapse_cases true names piece with
      ⟨-, hstep⟩ | ⟨-, -, -, hstep⟩ | ⟨last, rest, -, -, rfl, hstep⟩ | ⟨-, hstep, hup⟩
    · rwa [hstep]
    · rw [hstep]
      exact List.not_mem_nil
    · rw [hstep]
      exact fun hmem => h (List.mem_cons_of_mem last hmem)
    · rw [hstep, List.mem_cons, not_or]
      refine ⟨fun heq => ?_, h⟩
      rcases hup heq.symm with ⟨hroot, -⟩ | ⟨rest, rfl⟩
      · cases hroot
      · exact h List.mem_cons_self

theorem mem_normalNames (h : name ∈ normalNames path) :
    '/' ∉ name.toList ∧ isStay name = false ∧ (isAbsolute path = true → name ≠ "..") := by
  rw [normalNames, List.mem_reverse] at h
  rcases mem_foldl_collapse h with hnone | ⟨hmem, hstay⟩
  · cases hnone
  · refine ⟨slash_not_mem_of_mem_pieces hmem, hstay, fun habsolute heq => ?_⟩
    rw [habsolute, heq] at h
    exact up_not_mem_foldl_collapse List.not_mem_nil h

/-! ### The normal form -/

theorem pieces_render_true (hne : names ≠ []) (h : ∀ name ∈ names, '/' ∉ name.toList) :
    pieces (render true names) = "" :: names := by
  have htext : (render true names).toList = [] ++ '/' :: ("/".intercalate names).toList := by
    simp [render]
  rw [pieces_of_toList htext, String.ofList_toList, pieces_intercalate hne h]
  rfl

/-- The pieces of a path made of names are the names, behind pieces that are passed over. -/
theorem exists_pieces_render (h : ∀ name ∈ names, '/' ∉ name.toList) (rooted : Bool) :
    ∃ stays, pieces (render rooted names) = stays ++ names ∧
      ∀ piece ∈ stays, isStay piece = true := by
  by_cases hne : names = []
  · subst hne
    cases rooted with
    | true => exact ⟨["", ""], by decide +kernel, by simp [isStay]⟩
    | false => exact ⟨["."], by decide +kernel, by simp [isStay]⟩
  · cases rooted with
    | true => exact ⟨[""], pieces_render_true hne h, by simp [isStay]⟩
    | false =>
      refine ⟨[], ?_, nofun⟩
      rw [render, if_neg (by simp), if_neg (by simpa using hne), pieces_intercalate hne h,
        List.nil_append]

theorem filter_pieces_render (h : ∀ name ∈ names, '/' ∉ name.toList ∧ isStay name = false)
    (rooted : Bool) : (pieces (render rooted names)).filter (!isStay ·) = names := by
  obtain ⟨stays, hpieces, hstays⟩ := exists_pieces_render (fun name hmem => (h name hmem).1) rooted
  rw [hpieces, List.filter_append, List.filter_eq_nil_iff.mpr (by simpa using hstays),
    List.filter_eq_self.mpr fun name hmem => by simp [(h name hmem).2], List.nil_append]

theorem isAbsolute_render_true (names : List String) : isAbsolute (render true names) = true := by
  simp [isAbsolute, render]

/-- A path taken from an absolute directory has a normal form of names only. -/
theorem isResolved_absolute {directory : String} (h : isAbsolute directory = true) (path : String) :
    IsResolved (absolute directory path) := by
  have habsolute : isAbsolute (under directory path) = true := by
    rw [isAbsolute_under, h, Bool.true_or]
  rw [absolute, normalize, habsolute]
  refine ⟨isAbsolute_render_true _, ?_⟩
  by_cases hne : normalNames (under directory path) = []
  · left
    rw [hne]
    rfl
  · right
    rw [pieces_render_true hne fun name hmem => (mem_normalNames hmem).1, List.tail_cons]
    intro name hmem
    obtain ⟨-, hstay, hup⟩ := mem_normalNames hmem
    obtain ⟨hempty, hdot⟩ := isStay_eq_false_iff.mp hstay
    exact ⟨hempty, hdot, hup habsolute⟩

/-! ### The file that is named -/

theorem fileName?_eq_some_iff : fileName? path = some name ↔
    ((pieces path).filter (!isStay ·)).getLast? = some name ∧ name ≠ ".." := by
  unfold fileName?
  cases ((pieces path).filter (!isStay ·)).getLast? with
  | none => simp
  | some last =>
    dsimp only
    by_cases hlast : last = ".."
    · rw [if_pos hlast]
      refine iff_of_false nofun ?_
      rintro ⟨hname, hup⟩
      exact hup (Option.some.inj hname ▸ hlast)
    · rw [if_neg hlast]
      refine ⟨fun h => ⟨h, Option.some.inj h ▸ hlast⟩, And.left⟩

theorem fileName?_under (h : fileName? path = some name) (directory : String) :
    fileName? (under directory path) = some name := by
  obtain ⟨hlast, hup⟩ := fileName?_eq_some_iff.mp h
  obtain ⟨front, hfront, -⟩ := exists_pieces_under directory path
  rw [fileName?_eq_some_iff, hfront, List.filter_append, List.getLast?_append, hlast]
  exact ⟨rfl, hup⟩

/-- Pieces that are passed over make no difference. -/
theorem foldl_collapse_filter (rooted : Bool) (pieces names : List String) :
    (pieces.filter (!isStay ·)).foldl (collapse rooted) names =
      pieces.foldl (collapse rooted) names := by
  induction pieces generalizing names with
  | nil => rfl
  | cons piece pieces ih =>
    by_cases hstay : isStay piece = true
    · rw [List.filter_cons_of_neg (by simp [hstay]), ih, List.foldl_cons, collapse_of_stay hstay]
    · rw [List.filter_cons_of_pos (by simpa using hstay), List.foldl_cons, ih, List.foldl_cons]

theorem fileName?_normalize (h : fileName? path = some name) :
    fileName? (normalize path) = some name := by
  obtain ⟨hlast, hup⟩ := fileName?_eq_some_iff.mp h
  obtain ⟨front, hfront⟩ := List.getLast?_eq_some_iff.mp hlast
  have hstay : isStay name = false := by
    have hmem : name ∈ (pieces path).filter (!isStay ·) := by
      rw [hfront]
      exact List.mem_append_right front List.mem_cons_self
    simpa using (List.mem_filter.mp hmem).2
  -- behind the last piece that is not passed over, nothing takes the name back
  have hnames : normalNames path =
      (front.foldl (collapse (isAbsolute path)) []).reverse ++ [name] := by
    rw [normalNames, ← foldl_collapse_filter, hfront, List.foldl_append, List.foldl_cons,
      List.foldl_nil, collapse_of_name hstay hup, List.reverse_cons]
  rw [fileName?_eq_some_iff, normalize, filter_pieces_render fun other hmem =>
    ⟨(mem_normalNames hmem).1, (mem_normalNames hmem).2.1⟩, hnames, List.getLast?_concat]
  exact ⟨rfl, hup⟩

/-- The extension of a path is that of the path it resolves to. -/
theorem extension?_absolute (h : (extension? path).isSome = true) (directory : String) :
    extension? (absolute directory path) = extension? path := by
  obtain ⟨name, hname⟩ : ∃ name, fileName? path = some name := by
    rw [← Option.isSome_iff_exists]
    rw [extension?] at h
    exact Option.isSome_of_isSome_bind h
  rw [extension?, absolute, fileName?_normalize (fileName?_under hname directory), extension?,
    hname]

end CompilationDatabase.Path
