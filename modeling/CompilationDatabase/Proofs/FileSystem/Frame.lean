/-
What a change of files leaves as it was.

Two file systems may differ in the files at some places (`DifferAt`); neither
has a directory there.  A path that is followed meets directories up to its
last piece, so it leads to the same place in both, unless that place is one
where they differ.

* `DifferAt.target` — every path has the same target in both;
* `DifferAt.lookup` — a path that names none of the places (`Names`) leads to
  the same in both;
* `DifferAt.toOption_read`, `DifferAt.contains` — what is read at such a path,
  and whether it leads anywhere, is the same;
* `UnchangedBut` — all this, said of places that may hold anything.
-/
import CompilationDatabase.Proofs.FileSystem.Change

namespace CompilationDatabase.FileSystem

/-- The two file systems differ at most in what files are at the places. -/
structure DifferAt (places : Location → Prop) (fs fs' : FileSystem) : Prop where
  workingDirectory : fs'.workingDirectory = fs.workingDirectory
  elsewhere : ∀ place, ¬ places place → fs'.node? place = fs.node? place
  noDirectory : ∀ place, places place → fs.node? place ≠ some .directory
  noDirectory' : ∀ place, places place → fs'.node? place ≠ some .directory
  listing : ∀ directory, (∀ place, places place → place.dropLast ≠ directory) →
    fs'.children directory = fs.children directory

/-- Whether the path leads to the place once a file is there. -/
def Names (fs : FileSystem) (path : String) (place : Location) : Prop :=
  (fs.insert place (.file .empty)).resolve path = .ok place

theorem not_names_of_resolve {fs : FileSystem} {path : String} {place : Location} (other : Location)
    (h : (fs.insert place (.file .empty)).resolve path = .ok other) (hne : other ≠ place) :
    ¬ fs.Names path place := fun hnames => hne (Except.ok.inj (h.symm.trans hnames))

/-- What a listed node adds to the listing of a directory. -/
def listed (directory : Location) (entry : Location × Node) : Option (String × Node) :=
  match entry.1.getLast? with
  | some name => if entry.1.dropLast = directory then some (name, entry.2) else none
  | none => none

theorem children_eq_filterMap (fs : FileSystem) (directory : Location) :
    fs.children directory = fs.entries.filterMap (listed directory) := rfl

/-- A node in another directory adds nothing. -/
theorem listed_eq_none {directory : Location} {entry : Location × Node}
    (h : entry.1.dropLast ≠ directory) : listed directory entry = none := by
  unfold listed
  split
  · exact if_neg h
  · rfl

theorem children_erase {fs : FileSystem} {place directory : Location}
    (h : place.dropLast ≠ directory) :
    (fs.erase place).children directory = fs.children directory := by
  rw [children_eq_filterMap, children_eq_filterMap, FileSystem.erase, List.filterMap_filter]
  refine congrArg (List.filterMap · fs.entries) (funext fun entry => ?_)
  split
  · rfl
  · rename_i hentry
    have hplace : entry.1 = place := by simpa using hentry
    exact (listed_eq_none (hplace ▸ h)).symm

theorem children_insert {fs : FileSystem} {place directory : Location} (node : Node)
    (h : place.dropLast ≠ directory) :
    (fs.insert place node).children directory = fs.children directory := by
  have herase : (fs.erase place).children directory = fs.children directory := children_erase h
  have hnone : listed directory (place, node) = none := listed_eq_none h
  rw [children_eq_filterMap] at herase ⊢
  rw [FileSystem.insert, List.filterMap_append, herase]
  simp [hnone]

theorem node?_of_walk {fs : FileSystem} {place directory : Location} {pieces : List String}
    (hwalk : fs.walk place pieces = .ok directory)
    (hdirectory : fs.node? directory = some .directory) : fs.node? place = some .directory := by
  cases pieces with
  | nil =>
    obtain rfl := Except.ok.inj hwalk
    exact hdirectory
  | cons piece pieces =>
    rw [walk_cons, bind_eq_ok_iff] at hwalk
    obtain ⟨next, hstep, -⟩ := hwalk
    exact node?_of_step hstep

namespace DifferAt

variable {places places' : Location → Prop} {fs fs' fs'' : FileSystem}

theorem symm (h : DifferAt places fs fs') : DifferAt places fs' fs where
  workingDirectory := h.workingDirectory.symm
  elsewhere place hplace := (h.elsewhere place hplace).symm
  noDirectory := h.noDirectory'
  noDirectory' := h.noDirectory
  listing directory hdirectory := (h.listing directory hdirectory).symm

theorem directory_iff (h : DifferAt places fs fs') (place : Location) :
    fs'.node? place = some .directory ↔ fs.node? place = some .directory := by
  by_cases hplace : places place
  · exact iff_of_false (h.noDirectory' place hplace) (h.noDirectory place hplace)
  · rw [h.elsewhere place hplace]

theorem trans (h : DifferAt places fs fs') (h' : DifferAt places' fs' fs'') :
    DifferAt (fun place => places place ∨ places' place) fs fs'' where
  workingDirectory := h'.workingDirectory.trans h.workingDirectory
  elsewhere place hplace := by
    obtain ⟨hplace, hplace'⟩ := not_or.mp hplace
    exact (h'.elsewhere place hplace').trans (h.elsewhere place hplace)
  noDirectory place hplace := by
    rcases hplace with hplace | hplace
    · exact h.noDirectory place hplace
    · exact fun hnode => h'.noDirectory place hplace ((h.directory_iff place).mpr hnode)
  noDirectory' place hplace := by
    rcases hplace with hplace | hplace
    · exact fun hnode => h.noDirectory' place hplace ((h'.directory_iff place).mp hnode)
    · exact h'.noDirectory' place hplace
  listing directory hdirectory := by
    rw [h'.listing directory fun place hplace => hdirectory place (.inr hplace),
      h.listing directory fun place hplace => hdirectory place (.inl hplace)]

theorem erase {place : Location} (hne : place ≠ []) (hfree : fs.node? place ≠ some .directory) :
    DifferAt (· = place) fs (fs.erase place) where
  workingDirectory := rfl
  elsewhere other hother := node?_erase_of_ne fs hother
  noDirectory := by
    rintro _ rfl
    exact hfree
  noDirectory' := by
    rintro _ rfl
    simp [node?_erase_self fs hne]
  listing directory hdirectory := children_erase (hdirectory place rfl)

theorem insert {place : Location} (hne : place ≠ []) (hfree : fs.node? place ≠ some .directory)
    (content : ByteArray) : DifferAt (· = place) fs (fs.insert place (.file content)) where
  workingDirectory := rfl
  elsewhere other hother := node?_insert_of_ne fs (.file content) hother
  noDirectory := by
    rintro _ rfl
    exact hfree
  noDirectory' := by
    rintro _ rfl
    simp [node?_insert_self fs (.file content) hne]
  listing directory hdirectory := children_insert _ (hdirectory place rfl)

/-! ### Paths -/

theorem start (h : DifferAt places fs fs') (path : String) : fs'.start path = fs.start path := by
  rw [FileSystem.start, FileSystem.start, h.workingDirectory]

theorem step (h : DifferAt places fs fs') {place next : Location} {piece : String}
    (hstep : fs.step place piece = .ok next) (hnext : (fs'.node? next).isSome) :
    fs'.step place piece = .ok next := by
  rw [step_eq_ok_iff] at hstep ⊢
  obtain ⟨hdirectory, hfollow, hname⟩ := hstep
  exact ⟨(h.directory_iff place).mpr hdirectory, hfollow,
    fun hstay hup => ⟨(hname hstay hup).1, hnext⟩⟩

/-- A path that leads to a directory meets only directories. -/
theorem walk (h : DifferAt places fs fs') {place directory : Location} {pieces : List String}
    (hwalk : fs.walk place pieces = .ok directory)
    (hdirectory : fs.node? directory = some .directory) :
    fs'.walk place pieces = .ok directory := by
  induction pieces generalizing place with
  | nil => exact hwalk
  | cons piece pieces ih =>
    rw [walk_cons, bind_eq_ok_iff] at hwalk ⊢
    obtain ⟨next, hstep, hrest⟩ := hwalk
    -- the rest of the path starts at a directory, so the next place is one in both
    have hnext := (h.directory_iff next).mpr (node?_of_walk hrest hdirectory)
    exact ⟨next, h.step hstep (by simp [hnext]), ih hrest⟩

theorem holder (h : DifferAt places fs fs') {path : String} {directory : Location}
    (hholder : fs.holder path = .ok directory) (hdirectory : fs.node? directory = some .directory) :
    fs'.holder path = .ok directory := by
  rw [FileSystem.holder, bind_eq_ok_iff] at hholder ⊢
  obtain ⟨origin, hstart, hwalk⟩ := hholder
  exact ⟨origin, (h.start path).trans hstart, h.walk hwalk hdirectory⟩

/-- Every path has the same target in both. -/
theorem target (h : DifferAt places fs fs') {path : String} {t : Target}
    (ht : fs.target path = .ok t) : fs'.target path = .ok t := by
  rw [target_eq_ok_iff] at ht ⊢
  obtain ⟨origin, hstart, hwalk, hdirectory, hname⟩ := ht
  exact ⟨origin, (h.start path).trans hstart, h.walk hwalk hdirectory,
    (h.directory_iff _).mpr hdirectory, hname⟩

/-- A path still leads to a place if something is there. -/
theorem resolve_of_isSome (h : DifferAt places fs fs') {path : String} {place : Location}
    (hresolve : fs.resolve path = .ok place) (hplace : (fs'.node? place).isSome) :
    fs'.resolve path = .ok place := by
  obtain ⟨directory, hholder, hstep⟩ := resolve_eq_ok_iff.mp hresolve
  exact resolve_eq_ok_iff.mpr
    ⟨directory, h.holder hholder (node?_of_step hstep), h.step hstep hplace⟩

/-! ### Paths that name none of the places -/

theorem ne_nil (h : DifferAt places fs fs') {place : Location} (hplace : places place) :
    place ≠ [] := by
  rintro rfl
  exact h.noDirectory [] hplace (node?_nil fs)

/-- A path leads to a place where the two differ only if it names the place. -/
theorem names_of_resolve (h : DifferAt places fs fs') {path : String} {place : Location}
    (hresolve : fs.resolve path = .ok place) (hplace : places place) : fs.Names path place := by
  have hinsert := insert (h.ne_nil hplace) (h.noDirectory place hplace) .empty
  exact hinsert.resolve_of_isSome hresolve (by simp [node?_insert_self _ _ (h.ne_nil hplace)])

/-- Names do not depend on what files are at the places. -/
theorem names (h : DifferAt places fs fs') {path : String} {place : Location}
    (hfree : fs.node? place ≠ some .directory) (hnames : fs.Names path place) :
    fs'.Names path place := by
  have hne : place ≠ [] := by
    rintro rfl
    exact hfree (node?_nil fs)
  have hfree' : fs'.node? place ≠ some .directory := mt (h.directory_iff place).mp hfree
  -- with a file at the place in either, the two differ as they did, and at the place
  have hboth := ((insert hne hfree .empty).symm.trans h).trans (insert hne hfree' .empty)
  exact hboth.resolve_of_isSome hnames (by simp [node?_insert_self _ _ hne])

/-- What a path that names none of the places leads to is the same in both. -/
theorem lookup (h : DifferAt places fs fs') {path : String} {node : Node}
    (hnames : ∀ place, places place → ¬ fs.Names path place)
    (hlookup : fs.lookup path = .ok node) : fs'.lookup path = .ok node := by
  rw [lookup_eq_ok_iff] at hlookup ⊢
  obtain ⟨place, hresolve, hnode⟩ := hlookup
  have hplace : ¬ places place := fun hplace =>
    hnames place hplace (h.names_of_resolve hresolve hplace)
  have hnode' : fs'.node? place = some node := (h.elsewhere place hplace).trans hnode
  exact ⟨place, h.resolve_of_isSome hresolve (by simp [hnode']), hnode'⟩

theorem toOption_lookup (h : DifferAt places fs fs') {path : String}
    (hnames : ∀ place, places place → ¬ fs.Names path place) :
    (fs'.lookup path).toOption = (fs.lookup path).toOption := by
  have hnames' (place : Location) (hplace : places place) : ¬ fs'.Names path place := fun hname =>
    hnames place hplace (h.symm.names (h.noDirectory' place hplace) hname)
  cases hlookup : fs.lookup path with
  | ok node => rw [h.lookup hnames hlookup]
  | error e =>
    cases hlookup' : fs'.lookup path with
    | ok node => rw [h.symm.lookup hnames' hlookup'] at hlookup; cases hlookup
    | error e' => rfl

theorem contains (h : DifferAt places fs fs') {path : String}
    (hnames : ∀ place, places place → ¬ fs.Names path place) :
    fs'.contains path = fs.contains path := by
  have hcontains (fs : FileSystem) : fs.contains path = (fs.lookup path).toOption.isSome := by
    unfold FileSystem.contains
    cases fs.lookup path <;> rfl
  rw [hcontains, hcontains, h.toOption_lookup hnames]

theorem toOption_read (h : DifferAt places fs fs') {path : String}
    (hnames : ∀ place, places place → ¬ fs.Names path place) :
    (fs'.read path).toOption = (fs.read path).toOption := by
  rw [FileSystem.read, FileSystem.read, toOption_bind, toOption_bind, h.toOption_lookup hnames]

theorem toOption_readText (h : DifferAt places fs fs') {path : String}
    (hnames : ∀ place, places place → ¬ fs.Names path place) :
    (fs'.readText path).toOption = (fs.readText path).toOption := by
  rw [readText, readText, toOption_bind, toOption_bind, h.toOption_read hnames]

end DifferAt

/-! ### Nothing else is changed -/

/-- Nothing is changed but at the places: the nodes elsewhere are the same, and
so is what a path leads to, and what a directory lists, that has nothing to do
with one of them. -/
structure UnchangedBut (places : Location → Prop) (fs fs' : FileSystem) : Prop where
  workingDirectory : fs'.workingDirectory = fs.workingDirectory
  elsewhere : ∀ place, ¬ places place → fs'.node? place = fs.node? place
  paths : ∀ path, (∀ place, places place → ¬ fs.Names path place) →
    (fs'.lookup path).toOption = (fs.lookup path).toOption
  listing : ∀ directory, (∀ place, places place → place.dropLast ≠ directory) →
    fs'.children directory = fs.children directory

theorem UnchangedBut.refl (places : Location → Prop) (fs : FileSystem) :
    UnchangedBut places fs fs :=
  ⟨rfl, fun _ _ => rfl, fun _ _ => rfl, fun _ _ => rfl⟩

/-- Where files differ only at some of the places, nothing is changed but at them. -/
theorem DifferAt.unchangedBut {places places' : Location → Prop} {fs fs' : FileSystem}
    (h : DifferAt places fs fs') (hplaces : ∀ place, places place → places' place) :
    UnchangedBut places' fs fs' where
  workingDirectory := h.workingDirectory
  elsewhere place hplace := h.elsewhere place fun hdiffer => hplace (hplaces place hdiffer)
  paths _ hnames := h.toOption_lookup fun place hplace => hnames place (hplaces place hplace)
  listing directory hdirectory :=
    h.listing directory fun place hplace => hdirectory place (hplaces place hplace)

end CompilationDatabase.FileSystem
