/-
File systems that agree.

Where a path leads depends on the nodes that it meets: not on the order in which
they are listed, and not on nodes under names that the path does not hold.  So if
two file systems have the same nodes wherever certain names lead (`AgreeOn`), a
path of such names leads to the same in both, and fails alike.

* `AgreeOn.lookup`, `AgreeOn.read` — what such a path leads to;
* `Alike` — the file systems agree on all names, as they do if only the order of
  their listings differs (`alike_of_perm`);
* `Alike.write`, `Alike.rename`, `Alike.remove` — changed in the same way, they
  stay alike.
-/
import CompilationDatabase.Proofs.FileSystem.Listing

namespace CompilationDatabase.FileSystem

/-- The two file systems have the same nodes wherever the names lead. -/
structure AgreeOn (names : String → Prop) (fs fs' : FileSystem) : Prop where
  workingDirectory : fs'.workingDirectory = fs.workingDirectory
  within : ∀ name ∈ fs.workingDirectory, names name
  node? : ∀ place, (∀ name ∈ place, names name) → fs'.node? place = fs.node? place

theorem forall_mem_follow {names : String → Prop} {place : Location} {piece : String}
    (hplace : ∀ name ∈ place, names name) (hpiece : names piece) :
    ∀ name ∈ follow place piece, names name := by
  intro name hname
  unfold follow at hname
  split at hname
  · exact hplace name hname
  · split at hname
    · exact hplace name ((List.dropLast_sublist place).subset hname)
    · rcases List.mem_append.mp hname with hname | hname
      · exact hplace name hname
      · exact List.mem_singleton.mp hname ▸ hpiece

namespace AgreeOn

variable {names : String → Prop} {fs fs' : FileSystem} {path : String}

theorem start (h : AgreeOn names fs fs') (path : String) : fs'.start path = fs.start path := by
  rw [FileSystem.start, FileSystem.start, h.workingDirectory]

theorem forall_mem_of_start (h : AgreeOn names fs fs') {origin : Location}
    (hstart : fs.start path = .ok origin) : ∀ name ∈ origin, names name := by
  obtain ⟨-, -, -, rfl⟩ := start_eq_ok_iff.mp hstart
  unfold origin
  split
  · exact nofun
  · exact h.within

theorem step (h : AgreeOn names fs fs') {place : Location} {piece : String}
    (hplace : ∀ name ∈ place, names name) (hpiece : names piece) :
    fs'.step place piece = fs.step place piece := by
  have hnext : fs'.node? (place ++ [piece]) = fs.node? (place ++ [piece]) :=
    h.node? _ (List.forall_mem_append.mpr ⟨hplace, by simpa using hpiece⟩)
  rw [FileSystem.step, FileSystem.step, h.node? place hplace, hnext]

theorem walk (h : AgreeOn names fs fs') {place : Location} {pieces : List String}
    (hplace : ∀ name ∈ place, names name) (hpieces : ∀ piece ∈ pieces, names piece) :
    fs'.walk place pieces = fs.walk place pieces := by
  induction pieces generalizing place with
  | nil => rfl
  | cons piece pieces ih =>
    obtain ⟨hpiece, hrest⟩ := List.forall_mem_cons.mp hpieces
    rw [walk_cons, walk_cons, h.step hplace hpiece]
    cases hstep : fs.step place piece with
    | error e => rfl
    | ok next =>
      -- a step leads no further than the names, so the rest is walked alike
      obtain ⟨-, rfl, -⟩ := step_eq_ok_iff.mp hstep
      exact ih (forall_mem_follow hplace hpiece) hrest

theorem forall_mem_of_walk {place next : Location} {pieces : List String}
    (hwalk : fs.walk place pieces = .ok next) (hplace : ∀ name ∈ place, names name)
    (hpieces : ∀ piece ∈ pieces, names piece) : ∀ name ∈ next, names name := by
  induction pieces generalizing place with
  | nil =>
    obtain rfl := Except.ok.inj hwalk
    exact hplace
  | cons piece pieces ih =>
    obtain ⟨hpiece, hrest⟩ := List.forall_mem_cons.mp hpieces
    rw [walk_cons, bind_eq_ok_iff] at hwalk
    obtain ⟨middle, hstep, hwalk⟩ := hwalk
    obtain ⟨-, rfl, -⟩ := step_eq_ok_iff.mp hstep
    exact ih hwalk (forall_mem_follow hplace hpiece) hrest

/-! ### Paths of such names -/

theorem resolve (h : AgreeOn names fs fs') (hpath : ∀ piece ∈ Path.pieces path, names piece) :
    fs'.resolve path = fs.resolve path := by
  rw [FileSystem.resolve, FileSystem.resolve, h.start path]
  cases hstart : fs.start path with
  | error e => rfl
  | ok origin => exact h.walk (h.forall_mem_of_start hstart) hpath

theorem forall_mem_of_resolve (h : AgreeOn names fs fs')
    (hpath : ∀ piece ∈ Path.pieces path, names piece) {place : Location}
    (hresolve : fs.resolve path = .ok place) : ∀ name ∈ place, names name := by
  obtain ⟨origin, hstart, hwalk⟩ := bind_eq_ok_iff.mp hresolve
  exact forall_mem_of_walk hwalk (h.forall_mem_of_start hstart) hpath

theorem lookup (h : AgreeOn names fs fs') (hpath : ∀ piece ∈ Path.pieces path, names piece) :
    fs'.lookup path = fs.lookup path := by
  rw [FileSystem.lookup, FileSystem.lookup, h.resolve hpath]
  cases hresolve : fs.resolve path with
  | error e => rfl
  | ok place =>
    simp only [Except.bind]
    rw [h.node? place (h.forall_mem_of_resolve hpath hresolve)]

theorem read (h : AgreeOn names fs fs') (hpath : ∀ piece ∈ Path.pieces path, names piece) :
    fs'.read path = fs.read path := by
  rw [FileSystem.read, FileSystem.read, h.lookup hpath]

end AgreeOn

/-! ### File systems that agree on all names -/

/-- The two file systems have the same nodes, listed in whatever order. -/
abbrev Alike (fs fs' : FileSystem) : Prop := AgreeOn (fun _ => True) fs fs'

theorem alike_of_perm {fs fs' : FileSystem}
    (hdirectory : fs'.workingDirectory = fs.workingDirectory)
    (hentries : fs'.entries.Perm fs.entries) : Alike fs fs' where
  workingDirectory := hdirectory
  within _ _ := trivial
  node? place _ := node?_of_perm hentries place

namespace Alike

variable {fs fs' : FileSystem}

theorem node? (h : Alike fs fs') (place : Location) : fs'.node? place = fs.node? place :=
  AgreeOn.node? h place fun _ _ => trivial

theorem resolve (h : Alike fs fs') (path : String) : fs'.resolve path = fs.resolve path :=
  AgreeOn.resolve h fun _ _ => trivial

theorem lookup (h : Alike fs fs') (path : String) : fs'.lookup path = fs.lookup path :=
  AgreeOn.lookup h fun _ _ => trivial

theorem read (h : Alike fs fs') (path : String) : fs'.read path = fs.read path :=
  AgreeOn.read h fun _ _ => trivial

theorem readText (h : Alike fs fs') (path : String) : fs'.readText path = fs.readText path := by
  rw [FileSystem.readText, FileSystem.readText, h.read path]

theorem contains (h : Alike fs fs') : fs'.contains = fs.contains := by
  funext path
  rw [FileSystem.contains, FileSystem.contains, h.lookup path]

theorem target (h : Alike fs fs') (path : String) : fs'.target path = fs.target path := by
  rw [FileSystem.target, FileSystem.target, AgreeOn.start h path]
  cases fs.start path with
  | error e => rfl
  | ok origin =>
    simp only [Except.bind]
    rw [AgreeOn.walk h (fun _ _ => trivial) fun _ _ => trivial]

/-! ### Changes -/

theorem erase (h : Alike fs fs') (place : Location) : Alike (fs.erase place) (fs'.erase place) where
  workingDirectory := h.workingDirectory
  within _ _ := trivial
  node? other _ := by
    by_cases hother : other = place
    · by_cases hne : other = []
      · rw [hne, node?_nil, node?_nil]
      · rw [← hother, node?_erase_self _ hne, node?_erase_self _ hne]
    · rw [node?_erase_of_ne _ hother, node?_erase_of_ne _ hother, h.node? other]

theorem insert (h : Alike fs fs') (place : Location) (node : Node) :
    Alike (fs.insert place node) (fs'.insert place node) where
  workingDirectory := h.workingDirectory
  within _ _ := trivial
  node? other _ := by
    by_cases hother : other = place
    · by_cases hne : other = []
      · rw [hne, node?_nil, node?_nil]
      · rw [← hother, node?_insert_self _ _ hne, node?_insert_self _ _ hne]
    · rw [node?_insert_of_ne _ _ hother, node?_insert_of_ne _ _ hother, h.node? other]

theorem write (h : Alike fs fs') (path : String) (content : ByteArray) :
    Alongside Alike (fs.write path content) (fs'.write path content) := by
  rw [FileSystem.write, FileSystem.write, h.target path]
  cases fs.target path with
  | error e => exact .error e
  | ok t =>
    simp only [Except.bind, h.node? t.location]
    split
    · exact .error _
    · split
      · exact .error _
      · split
        · exact .error _
        · exact .ok (h.insert t.location _)

theorem rename (h : Alike fs fs') (old new : String) :
    Alongside Alike (fs.rename old new) (fs'.rename old new) := by
  rw [FileSystem.rename, FileSystem.rename, h.target old, h.target new]
  cases fs.target old with
  | error e => exact .error e
  | ok source =>
    cases fs.target new with
    | error e => exact .error e
    | ok goal =>
      simp only [Except.bind, h.node? source.location, h.node? goal.location]
      split
      · exact .error _
      · split
        · exact .error _
        · cases fs.node? source.location with
          | none => exact .error _
          | some node =>
            cases node with
            | directory => exact .error _
            | file content =>
              dsimp only
              split
              · exact .error _
              · split
                · exact .error _
                · split
                  · exact .error _
                  · exact .ok ((h.erase source.location).insert goal.location _)

theorem remove (h : Alike fs fs') (path : String) :
    Alongside Alike (fs.remove path) (fs'.remove path) := by
  rw [FileSystem.remove, FileSystem.remove, h.target path]
  cases fs.target path with
  | error e => exact .error e
  | ok t =>
    simp only [Except.bind, h.node? t.location]
    split
    · exact .error _
    · split
      · exact .error _
      · cases fs.node? t.location with
        | none => exact .error _
        | some node =>
          cases node with
          | directory => exact .error _
          | file content =>
            dsimp only
            split
            · exact .error _
            · exact .ok (h.erase t.location)

end Alike

end CompilationDatabase.FileSystem
