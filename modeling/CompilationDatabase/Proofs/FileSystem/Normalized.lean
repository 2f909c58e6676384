/-
Where normal forms lead.

To go up is to take back the step to the name that was met before, so what is left of a
path leads to the place that the path leads to (`walk_foldl_collapse`), and the text of
the normal form is no harder to follow than the path.  The converse fails: a name that
is taken back need not exist.

* `resolve_normal_forms` — if a path taken from a directory leads anywhere, its normal form
  leads there, so no entry is dropped for the way in which its file is spelled.
-/
import CompilationDatabase.Entry.Recorded
import CompilationDatabase.Proofs.Entry.Dedupe
import CompilationDatabase.Proofs.FileSystem.Change
import CompilationDatabase.Proofs.Path.Text

namespace CompilationDatabase.FileSystem

variable {fs : FileSystem} {origin place next : Location} {path piece : String}
  {stack : List String} {rooted : Bool}

/-! ### Going through what is left -/

theorem walk_collapse (hroot : rooted = true → origin = [])
    (hnames : ∀ name ∈ stack, Path.isStay name = false)
    (h : fs.walk origin stack.reverse = .ok place) (hstep : fs.step place piece = .ok next) :
    fs.walk origin (Path.collapse rooted stack piece).reverse = .ok next := by
  obtain ⟨-, hnext, -⟩ := step_eq_ok_iff.mp hstep
  rcases Path.collapse_cases rooted stack piece with
    ⟨hstay, hcollapse⟩ | ⟨rfl, hrooted, rfl, hcollapse⟩ |
      ⟨last, rest, rfl, hlast, rfl, hcollapse⟩ | ⟨-, hcollapse, -⟩
  · rw [hcollapse, hnext, follow, if_pos hstay, h]
  · -- at the root the path stays
    obtain rfl := hroot hrooted
    obtain rfl := Except.ok.inj h
    rw [hcollapse, hnext]
    rfl
  · -- the last name led one step down, from where the path came back
    rw [List.reverse_cons, walk_append_singleton, bind_eq_ok_iff] at h
    obtain ⟨above, habove, hdown⟩ := h
    have hplace : place = above ++ [last] := by
      obtain ⟨-, hplace, -⟩ := step_eq_ok_iff.mp hdown
      rwa [follow, if_neg (by simp [hnames last List.mem_cons_self]), if_neg hlast] at hplace
    rw [hcollapse, habove, hnext, hplace]
    simp [follow, Path.isStay]
  · rw [hcollapse, List.reverse_cons, walk_append_singleton, h]
    exact hstep

theorem walk_foldl_collapse {pieces : List String} (hroot : rooted = true → origin = [])
    (hnames : ∀ name ∈ stack, Path.isStay name = false)
    (h : fs.walk origin stack.reverse = .ok place) (hwalk : fs.walk place pieces = .ok next) :
    fs.walk origin (pieces.foldl (Path.collapse rooted) stack).reverse = .ok next := by
  induction pieces generalizing stack place with
  | nil => exact h.trans hwalk
  | cons piece pieces ih =>
    rw [walk_cons, bind_eq_ok_iff] at hwalk
    obtain ⟨between, hstep, hrest⟩ := hwalk
    exact ih (Path.isStay_eq_false_of_mem_collapse hnames) (walk_collapse hroot hnames h hstep)
      hrest

theorem walk_normalNames (h : fs.walk (fs.origin path) (Path.pieces path) = .ok place) :
    fs.walk (fs.origin path) (Path.normalNames path) = .ok place :=
  walk_foldl_collapse (fun hrooted => if_pos hrooted) (List.forall_mem_nil _) rfl h

/-! ### Following the normal form -/

theorem start_normalize (h : fs.start path = .ok origin) :
    fs.start (Path.normalize path) = .ok origin := by
  obtain ⟨hnul, hempty, hlength, rfl⟩ := start_eq_ok_iff.mp h
  refine start_eq_ok_iff.mpr ⟨Path.nul_not_mem_normalize hnul, Path.normalize_ne_empty path,
    (Path.utf8ByteSize_normalize_le hempty).trans hlength, ?_⟩
  rw [FileSystem.origin, FileSystem.origin, Path.isAbsolute_normalize]

theorem resolve_normalize (h : fs.resolve path = .ok place) :
    fs.resolve (Path.normalize path) = .ok place := by
  obtain ⟨origin, hstart, hwalk⟩ := bind_eq_ok_iff.mp h
  obtain ⟨-, -, -, rfl⟩ := start_eq_ok_iff.mp hstart
  obtain ⟨stays, hpieces, hstays⟩ := Path.exists_pieces_render
    (fun _ hmem => (Path.areNormal_normalNames path).slash_not_mem hmem) (Path.isAbsolute path)
  -- the first piece of the path was met in a directory
  have hdirectory : fs.node? (fs.origin path) = some .directory := by
    obtain ⟨piece, rest, hcons⟩ := List.exists_cons_of_ne_nil (Path.pieces_ne_nil path)
    rw [hcons, walk_cons, bind_eq_ok_iff] at hwalk
    obtain ⟨_, hstep, -⟩ := hwalk
    exact node?_of_step hstep
  refine bind_eq_ok_iff.mpr ⟨_, start_normalize hstart, ?_⟩
  rw [Path.normalize, hpieces, walk_stays_append hdirectory hstays]
  exact walk_normalNames hwalk

theorem contains_normalize (h : fs.contains path = true) :
    fs.contains (Path.normalize path) = true := by
  obtain ⟨place, hresolve, hplace⟩ := contains_eq_true_iff.mp h
  exact contains_eq_true_iff.mpr ⟨place, resolve_normalize hresolve, hplace⟩

/-- **If a path leads to a file or a directory, its normal form leads to the same one, and
if a path taken from a directory does, so does the normal form of that.  Hence an entry
is not missed if its file is there as it was spelled: it is kept, or another one with its
identity.** -/
theorem resolve_normal_forms (fs : FileSystem) :
    (∀ path place node, fs.resolve path = .ok place → fs.node? place = some node →
      fs.resolve (Path.normalize path) = .ok place ∧ fs.lookup (Path.normalize path) = .ok node) ∧
    (∀ directory path place node, fs.resolve (Path.under directory path) = .ok place →
      fs.node? place = some node →
      fs.resolve (Path.absolute directory path) = .ok place ∧
        fs.lookup (Path.absolute directory path) = .ok node) ∧
    (∀ entries, ∀ e ∈ entries, ∀ directory path, e.file = Path.absolute directory path →
      fs.contains (Path.under directory path) = true →
      fs.contains e.file = true ∧
        ∃ kept ∈ (dedupe fs.contains entries).1, kept.identity = e.identity) := by
  have hnormal (path : String) (place : Location) (node : Node) (h : fs.resolve path = .ok place)
      (hnode : fs.node? place = some node) :
      fs.resolve (Path.normalize path) = .ok place ∧ fs.lookup (Path.normalize path) = .ok node :=
    ⟨resolve_normalize h, lookup_eq_ok_iff.mpr ⟨place, resolve_normalize h, hnode⟩⟩
  refine ⟨hnormal, fun directory path => hnormal (Path.under directory path), ?_⟩
  intro entries e he directory path hfile hthere
  have hpresent : fs.contains e.file = true := hfile ▸ contains_normalize hthere
  obtain ⟨kept, hkept, hidentity, -⟩ := exists_first he hpresent
  exact ⟨hpresent, kept, dedupe_fst fs.contains entries ▸ hkept, hidentity⟩

/-- A directory that holds a directory and a file, and is worked in. -/
def workedIn : FileSystem where
  entries := [(["w"], .directory), (["w", "b"], .directory), (["w", "a.c"], .file ⟨#[]⟩)]
  distinct := by decide
  workingDirectory := ["w"]

/-- The file is found from the directories beside and above it. -/
theorem resolve_normal_forms_workedIn :
    let record : Trace.Record := ⟨"7", "1", "execve", "/w/b", ["cc", "-c", "..//./a.c"]⟩
    let e := Entry.compiled record "..//./a.c"
    (workedIn.resolve "b/../../../w/a.c" = .ok ["w", "a.c"] ∧
      workedIn.resolve (Path.normalize "b/../../../w/a.c") = .ok ["w", "a.c"]) ∧
    (workedIn.resolve (Path.under "../w/b" "..") = .ok ["w"] ∧
      workedIn.lookup (Path.absolute "../w/b" "..") = .ok .directory) ∧
    workedIn.contains (Path.under record.directory "..//./a.c") = true ∧
      ∃ kept ∈ (dedupe workedIn.contains [e, e]).1, kept.identity = e.identity := by
  intro record e
  obtain ⟨hnormal, habsolute, hentry⟩ := resolve_normal_forms workedIn
  have hfile : workedIn.resolve "b/../../../w/a.c" = .ok ["w", "a.c"] := rfl
  have hparent : workedIn.resolve (Path.under "../w/b" "..") = .ok ["w"] := rfl
  have hthere : workedIn.contains (Path.under record.directory "..//./a.c") = true := by
    decide +kernel
  refine ⟨⟨hfile, (hnormal _ _ (.file ⟨#[]⟩) hfile rfl).1⟩, ⟨hparent, ?_⟩, hthere, ?_⟩
  · exact (habsolute _ _ _ .directory hparent rfl).2
  · exact (hentry [e, e] e List.mem_cons_self record.directory "..//./a.c" rfl hthere).2

end CompilationDatabase.FileSystem
