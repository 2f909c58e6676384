/-
Where paths lead.

A path is followed up to its last piece, which gives the directory that holds
the piece (`holder`), and then by one step (`resolve_eq_bind`).  The operations
that change files find the same directory (`holder_of_target`), so a path that
can be written to leads to what is written.
-/
import CompilationDatabase.FileSystem.Change
import CompilationDatabase.Proofs.Result

namespace CompilationDatabase

namespace Path

theorem pieces_ne_nil (path : String) : pieces path ≠ [] := by
  simp [pieces, List.splitOn_ne_nil]

/-- The last piece of a path. -/
def lastPiece (path : String) : String := (pieces path).getLast (pieces_ne_nil path)

theorem dropLast_append_lastPiece (path : String) :
    (pieces path).dropLast ++ [lastPiece path] = pieces path :=
  List.dropLast_concat_getLast (pieces_ne_nil path)

end Path

namespace FileSystem

/-- Where a path is followed from. -/
def origin (fs : FileSystem) (path : String) : Location :=
  if Path.isAbsolute path then [] else fs.workingDirectory

/-- A path is followed unless it holds a NUL, is empty or is too long. -/
theorem start_eq_ok_iff {fs : FileSystem} {path : String} {place : Location} :
    fs.start path = .ok place ↔
      '\x00' ∉ path.toList ∧ path ≠ "" ∧ path.utf8ByteSize ≤ maxPathLength ∧
        place = fs.origin path := by
  unfold start origin
  by_cases hnul : '\x00' ∈ path.toList
  · simp [hnul]
  · by_cases hempty : path = ""
    · simp [hempty]
    · rw [if_neg (by simpa using hnul), if_neg (by simpa using hempty)]
      by_cases hlong : path.utf8ByteSize > maxPathLength
      · rw [if_pos hlong]
        exact iff_of_false nofun fun h => absurd h.2.2.1 (Nat.not_le.mpr hlong)
      · rw [if_neg hlong]
        refine ⟨fun h => ⟨hnul, hempty, Nat.le_of_not_gt hlong, (Except.ok.inj h).symm⟩, ?_⟩
        rintro ⟨-, -, -, rfl⟩
        rfl

/-- The place that a piece leads to from a directory. -/
def follow (place : Location) (piece : String) : Location :=
  if Path.isStay piece then place else if piece = ".." then place.dropLast else place ++ [piece]

/-- A step leads from a directory to what is met there; only a name has to be
there and to be short enough. -/
theorem step_eq_ok_iff {fs : FileSystem} {place next : Location} {piece : String} :
    fs.step place piece = .ok next ↔
      fs.node? place = some .directory ∧ next = follow place piece ∧
        (Path.isStay piece = false → piece ≠ ".." →
          piece.utf8ByteSize ≤ maxNameLength ∧ (fs.node? next).isSome) := by
  unfold step follow
  cases hnode : fs.node? place with
  | none => simp
  | some node =>
    cases node with
    | file content => simp
    | directory =>
      simp only [true_and]
      by_cases hstay : Path.isStay piece = true
      · simp [hstay, @eq_comm _ next]
      · by_cases hup : piece = ".."
        · rw [if_neg hstay, if_pos hup, if_neg hstay, if_pos hup]
          refine ⟨fun h => ⟨(Except.ok.inj h).symm, fun _ hname => absurd hup hname⟩, ?_⟩
          rintro ⟨rfl, -⟩
          rfl
        · rw [if_neg hstay, if_neg hup, if_neg hstay, if_neg hup]
          constructor
          · intro h
            split at h
            · cases h
            · rename_i hshort
              split at h
              · rename_i hmet
                obtain rfl := Except.ok.inj h
                exact ⟨rfl, fun _ _ => ⟨Nat.le_of_not_lt hshort, hmet⟩⟩
              · cases h
          · rintro ⟨rfl, h⟩
            obtain ⟨hshort, hmet⟩ := h (by simpa using hstay) hup
            rw [if_neg (Nat.not_lt.mpr hshort), if_pos hmet]

theorem node?_of_step {fs : FileSystem} {place next : Location} {piece : String}
    (h : fs.step place piece = .ok next) : fs.node? place = some .directory :=
  (step_eq_ok_iff.mp h).1

theorem walk_cons (fs : FileSystem) (place : Location) (piece : String) (pieces : List String) :
    fs.walk place (piece :: pieces) =
      (fs.step place piece).bind fun next => fs.walk next pieces := rfl

theorem walk_append_singleton (fs : FileSystem) (place : Location) (pieces : List String)
    (piece : String) :
    fs.walk place (pieces ++ [piece])
      = (fs.walk place pieces).bind fun next => fs.step next piece := by
  induction pieces generalizing place with
  | nil =>
    show (fs.step place piece).bind Except.ok = fs.step place piece
    cases fs.step place piece <;> rfl
  | cons first pieces ih =>
    rw [List.cons_append, walk_cons, walk_cons]
    cases fs.step place first with
    | error e => rfl
    | ok next => exact ih next

/-- Pieces that stay lead from a directory to itself. -/
theorem walk_stays_append {fs : FileSystem} {place : Location} {stays : List String}
    (h : fs.node? place = some .directory) (hstays : ∀ piece ∈ stays, Path.isStay piece = true)
    (pieces : List String) : fs.walk place (stays ++ pieces) = fs.walk place pieces := by
  induction stays with
  | nil => rfl
  | cons piece stays ih =>
    have hstay := hstays piece List.mem_cons_self
    have hstep : fs.step place piece = .ok place :=
      step_eq_ok_iff.mpr ⟨h, (if_pos hstay).symm, fun hgo => by simp [hstay] at hgo⟩
    rw [List.cons_append, walk_cons, hstep]
    exact ih fun other hother => hstays other (List.mem_cons_of_mem piece hother)

/-- The directory in which the last piece of a path is met. -/
def holder (fs : FileSystem) (path : String) : Except FileError Location :=
  (fs.start path).bind fun origin => fs.walk origin (Path.pieces path).dropLast

/-- A path is followed to its last piece, and then by one step. -/
theorem resolve_eq_bind (fs : FileSystem) (path : String) :
    fs.resolve path = (fs.holder path).bind fun place => fs.step place (Path.lastPiece path) := by
  unfold resolve holder
  cases fs.start path with
  | error e => rfl
  | ok origin =>
    show fs.walk origin (Path.pieces path) = (fs.walk origin (Path.pieces path).dropLast).bind _
    rw [← walk_append_singleton, Path.dropLast_append_lastPiece]

theorem resolve_eq_ok_iff {fs : FileSystem} {path : String} {place : Location} :
    fs.resolve path = .ok place ↔
      ∃ directory, fs.holder path = .ok directory ∧
        fs.step directory (Path.lastPiece path) = .ok place := by
  rw [resolve_eq_bind, bind_eq_ok_iff]

/-! ### Targets -/

/-- The pieces of a path without the empty ones at its end. -/
def stem (path : String) : List String :=
  ((Path.pieces path).reverse.dropWhile (· == "")).reverse

theorem stem_eq_pieces {path : String} (h : (Path.pieces path).length = (stem path).length) :
    stem path = Path.pieces path := by
  have hlength : ((Path.pieces path).reverse.dropWhile (· == "")).length
      = (Path.pieces path).reverse.length := by
    rw [List.length_reverse, h, stem, List.length_reverse]
  rw [stem, (List.dropWhile_suffix _).eq_of_length hlength, List.reverse_reverse]

/-- An empty piece leads from a directory to itself. -/
theorem step_empty {fs : FileSystem} {place next : Location} :
    fs.step place "" = .ok next ↔ fs.node? place = some .directory ∧ next = place := by
  rw [step_eq_ok_iff]
  simp [follow, Path.isStay]

/-- The place of a target is a name in a directory. -/
theorem target_eq_ok_iff {fs : FileSystem} {path : String} {t : Target} :
    fs.target path = .ok t ↔
      ∃ origin, fs.start path = .ok origin ∧ fs.walk origin (stem path).dropLast = .ok t.directory ∧
        fs.node? t.directory = some .directory ∧ t.name = (stem path).getLast?.getD "" ∧
          t.trailingSlash = ((Path.pieces path).length != (stem path).length) := by
  show ((fs.start path).bind fun origin => (fs.walk origin ((stem path).dropLast ++ [""])).map
    fun directory => Target.mk directory ((stem path).getLast?.getD "")
      ((Path.pieces path).length != (stem path).length)) = .ok t ↔ _
  simp only [bind_eq_ok_iff, map_eq_ok_iff, walk_append_singleton, step_empty]
  constructor
  · rintro ⟨origin, hstart, directory, ⟨_, hwalk, hnode, rfl⟩, rfl⟩
    exact ⟨origin, hstart, hwalk, hnode, rfl, rfl⟩
  · rintro ⟨origin, hstart, hwalk, hnode, hname, hslash⟩
    exact ⟨origin, hstart, t.directory, ⟨t.directory, hwalk, hnode, rfl⟩,
      by rw [← hname, ← hslash]⟩

/-- The holder of a path that ends in a name is the directory of its target. -/
theorem holder_of_target {fs : FileSystem} {path : String} {t : Target}
    (h : fs.target path = .ok t) (hslash : t.trailingSlash = false) :
    fs.holder path = .ok t.directory ∧ fs.node? t.directory = some .directory ∧
      Path.lastPiece path = t.name := by
  obtain ⟨origin, hstart, hwalk, hdirectory, hlast, htrailing⟩ := target_eq_ok_iff.mp h
  have hstem : stem path = Path.pieces path := by
    refine stem_eq_pieces ?_
    simpa [htrailing] using hslash
  rw [hstem] at hwalk hlast
  refine ⟨?_, hdirectory, ?_⟩
  · rw [holder, hstart]
    exact hwalk
  · rw [hlast, List.getLast?_eq_some_getLast (Path.pieces_ne_nil path)]
    rfl

end FileSystem

end CompilationDatabase
