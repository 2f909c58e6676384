/-
The files of a trace directory.

The system lists a directory in an order of its own; the files in it are then
sorted by their names.  No two of them have the same name, so there is one such
order, and what is read is told by the nodes alone.

* `fileNames` — the names of the files directly inside a directory, in order;
* `traceFiles_eq_ok_iff` — the files of a trace directory are those of the names.
-/
import CompilationDatabase.Proofs.FileSystem.Agreement
import CompilationDatabase.Proofs.Recorder.Collected
import CompilationDatabase.Proofs.Text.ByteOrder

namespace CompilationDatabase.Recorder

open FileSystem

/-- The names of the files directly inside a directory, in order. -/
def fileNames (fs : FileSystem) (directory : Location) : List String :=
  (((fs.children directory).filter (·.2.isFile)).map Prod.fst).mergeSort (· ≤ ·)

variable {fs fs' : FileSystem} {directory : Location} {traces : String}

theorem traceFiles_eq_ok_iff {files : List String} :
    traceFiles fs traces = .ok files ↔
      ∃ directory, fs.resolve traces = .ok directory ∧ fs.node? directory = some .directory ∧
        files = (fileNames fs directory).map (Path.under traces) := by
  have hlist {children : List (String × Node)} : fs.list traces = .ok children ↔
      ∃ directory, fs.resolve traces = .ok directory ∧ fs.node? directory = some .directory ∧
        children = fs.children directory := by
    rw [FileSystem.list, bind_eq_ok_iff]
    refine exists_congr fun directory => and_congr_right fun _ => ?_
    cases fs.node? directory with
    | none => simp
    | some node => cases node <;> simp [eq_comm]
  unfold traceFiles
  constructor
  · intro h
    split at h
    · cases h
    · rename_i children hchildren
      obtain ⟨directory, hresolve, hdirectory, rfl⟩ := hlist.mp hchildren
      exact ⟨directory, hresolve, hdirectory, (Except.ok.inj h).symm⟩
  · rintro ⟨directory, hresolve, hdirectory, rfl⟩
    rw [hlist.mpr ⟨directory, hresolve, hdirectory, rfl⟩]
    rfl

theorem mem_fileNames {name : String} :
    name ∈ fileNames fs directory ↔
      ∃ content, fs.node? (directory ++ [name]) = some (.file content) := by
  simp only [fileNames, List.mem_mergeSort, List.mem_map, List.mem_filter]
  constructor
  · rintro ⟨⟨_, node⟩, ⟨hmem, hfile⟩, rfl⟩
    cases node with
    | file content => exact ⟨content, mem_children_iff.mp hmem⟩
    | directory => cases hfile
  · rintro ⟨content, hnode⟩
    exact ⟨(name, .file content), ⟨mem_children_iff.mpr hnode, rfl⟩, rfl⟩

/-- The names are in order, each once. -/
theorem pairwise_fileNames (fs : FileSystem) (directory : Location) :
    (fileNames fs directory).Pairwise (· < ·) := by
  have hsorted : (fileNames fs directory).Pairwise fun a b => decide (a ≤ b) = true := by
    refine List.pairwise_mergeSort (fun a b c hab hbc => ?_) (fun a b => ?_) _
    · exact decide_eq_true (String.le_trans (of_decide_eq_true hab) (of_decide_eq_true hbc))
    · simpa using String.le_total a b
  have hnodup : (fileNames fs directory).Nodup := by
    refine (List.mergeSort_perm _ _).nodup_iff.mpr ?_
    exact (nodup_names_children fs directory).sublist (List.filter_sublist.map Prod.fst)
  refine hsorted.imp₂ (fun a b hle hne => ?_) hnodup
  exact String.not_le.mp fun hge => hne (String.le_antisymm (of_decide_eq_true hle) hge)

/-- Which of some names there are depends only on what files there are under these. -/
theorem filter_fileNames_congr {among : String → Bool}
    (h : ∀ name, among name = true → ((∃ content, fs'.node? (directory ++ [name]) =
      some (.file content)) ↔ ∃ content, fs.node? (directory ++ [name]) = some (.file content))) :
    (fileNames fs' directory).filter among = (fileNames fs directory).filter among := by
  have hsorted := (pairwise_fileNames fs directory).filter among
  have hsorted' := (pairwise_fileNames fs' directory).filter among
  refine List.Perm.eq_of_pairwise (fun a b _ _ hab hba => ?_) hsorted' hsorted ?_
  · exact absurd hba (String.lt_asymm hab)
  · rw [List.perm_ext_iff_of_nodup (hsorted'.imp fun h => ?_) (hsorted.imp fun h => ?_)]
    · intro name
      rw [List.mem_filter, List.mem_filter, mem_fileNames, mem_fileNames]
      exact and_congr_left (h name)
    · exact String.ne_of_lt h
    · exact String.ne_of_lt h

/-- The names depend only on what files there are. -/
theorem fileNames_congr
    (h : ∀ name, (∃ content, fs'.node? (directory ++ [name]) = some (.file content)) ↔
      ∃ content, fs.node? (directory ++ [name]) = some (.file content)) :
    fileNames fs' directory = fileNames fs directory := by
  have hall : (fileNames fs' directory).filter (fun _ => true) =
      (fileNames fs directory).filter fun _ => true := filter_fileNames_congr fun name _ => h name
  simpa using hall

/-- The order in which the directory is listed does not matter. -/
theorem traceFiles_of_alike (h : Alike fs fs') (traces : String) :
    traceFiles fs' traces = traceFiles fs traces := by
  rw [traceFiles, traceFiles, FileSystem.list, FileSystem.list, h.resolve traces]
  cases fs.resolve traces with
  | error e => rfl
  | ok directory =>
    simp only [Except.bind, h.node? directory]
    cases fs.node? directory with
    | none => rfl
    | some node =>
      cases node with
      | file content => rfl
      | directory =>
        have hnames : fileNames fs' directory = fileNames fs directory :=
          fileNames_congr fun name => by rw [h.node? (directory ++ [name])]
        exact congrArg (fun names => Except.ok (names.map (Path.under traces))) hnames

end CompilationDatabase.Recorder
