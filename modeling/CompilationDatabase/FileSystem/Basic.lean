/-
File systems without links.

A file system is a finite table from locations to nodes, seen by a process
that has a working directory.  A location lists the names from the root down;
the root itself is always a directory and is not in the table.  The order of
the table is the order in which directories are listed, and nothing else may
depend on it.

Nothing in it stands for something else: there are no symbolic links, and no
file has two names.  So all that is shown of what a run does to its files is
shown of file systems of this kind, and says nothing of a path on the way to
the database, or of a name beside it, that is a link.

* `FileSystem.node?` — the node at a location;
* `FileSystem.insert`, `FileSystem.erase` — the only two changes.

`FileError` lists why an operation on paths fails.
-/

namespace CompilationDatabase

/-- Why the system refuses an operation. -/
inductive FileError where
  /-- A name of the path does not exist. -/
  | noSuchFile
  /-- A directory is needed and something else is there. -/
  | notDirectory
  /-- A file is needed and a directory is there. -/
  | isDirectory
  /-- A name or the whole path is too long. -/
  | nameTooLong
  /-- The operation is not permitted. -/
  | permissionDenied
  /-- The place is in use: it is a root, `.` or `..`. -/
  | busy
  /-- Something is already there. -/
  | alreadyExists
  /-- The content is not text in UTF-8. -/
  | notText
  /-- The path has a null character. -/
  | nulInPath
  /-- An argument of a program has a null character. -/
  | nulInArgument
deriving DecidableEq, Repr

/-- The text shown for the error. -/
def FileError.message : FileError → String
  | noSuchFile => "No such file or directory (os error 2)"
  | notDirectory => "Not a directory (os error 20)"
  | isDirectory => "Is a directory (os error 21)"
  | nameTooLong => "File name too long (os error 36)"
  | permissionDenied => "Permission denied (os error 13)"
  | busy => "Device or resource busy (os error 16)"
  | alreadyExists => "File exists (os error 17)"
  | notText => "stream did not contain valid UTF-8"
  | nulInPath => "file name contained an unexpected NUL byte"
  | nulInArgument => "nul byte found in provided data"

/-- A regular file with its bytes, or a directory. -/
inductive Node where
  | file (content : ByteArray)
  | directory

/-- Nodes are compared by their kind and their bytes. -/
instance : DecidableEq Node
  | .file a, .file b =>
    match ByteArray.instDecidableEq a b with
    | isTrue h => isTrue (congrArg Node.file h)
    | isFalse h => isFalse fun heq => h (Node.file.inj heq)
  | .directory, .directory => isTrue rfl
  | .file _, .directory => isFalse nofun
  | .directory, .file _ => isFalse nofun

/-- Whether the node is a regular file. -/
def Node.isFile : Node → Bool
  | file _ => true
  | directory => false

/-- A place in a file system: the names from the root down. -/
abbrev Location := List String

/-- A table of nodes and the directory from which relative paths start. -/
@[ext] structure FileSystem where
  /-- The nodes below the root, in the order of listing. -/
  entries : List (Location × Node)
  /-- No location is listed twice. -/
  distinct : (entries.map Prod.fst).Nodup
  /-- The working directory. -/
  workingDirectory : Location

namespace FileSystem

/-- The file system that holds nothing but its root. -/
def empty : FileSystem := ⟨[], List.nodup_nil, []⟩

instance : Inhabited FileSystem := ⟨empty⟩

/-- The node at a location. -/
def node? (fs : FileSystem) (location : Location) : Option Node :=
  if location = [] then some .directory else fs.entries.lookup location

/-- The file system without the node at the location. -/
def erase (fs : FileSystem) (location : Location) : FileSystem :=
  { fs with
    entries := fs.entries.filter (·.1 ≠ location)
    distinct := fs.distinct.sublist (List.filter_sublist.map Prod.fst) }

theorem fst_ne_of_mem_erase {fs : FileSystem} {location : Location} {entry : Location × Node}
    (h : entry ∈ (fs.erase location).entries) : entry.1 ≠ location := by
  simpa using (List.mem_filter.mp h).2

/-- The file system with the node at the location, in place of any there. -/
def insert (fs : FileSystem) (location : Location) (node : Node) : FileSystem :=
  { fs with
    entries := (fs.erase location).entries ++ [(location, node)]
    distinct := by
      rw [List.map_append, List.nodup_append]
      refine ⟨(fs.erase location).distinct, by simp, ?_⟩
      intro a ha b hb hab
      obtain ⟨entry, hentry, rfl⟩ := List.mem_map.mp ha
      simp only [List.map_cons, List.map_nil, List.mem_singleton] at hb
      exact fst_ne_of_mem_erase hentry (hab.trans hb) }

@[simp] theorem node?_nil (fs : FileSystem) : fs.node? [] = some .directory := if_pos rfl

theorem lookup_filter_ne {location other : Location} (h : other ≠ location)
    (entries : List (Location × Node)) :
    (entries.filter (·.1 ≠ location)).lookup other = entries.lookup other := by
  induction entries with
  | nil => rfl
  | cons entry entries ih =>
    rw [List.filter_cons]
    split
    · rw [List.lookup_cons, List.lookup_cons, ih]
    · rename_i hentry
      have hplace : entry.1 = location := by simpa using hentry
      have hbeq : (other == entry.1) = false := by simp [hplace, h]
      rw [List.lookup_cons, hbeq, ih]

theorem lookup_filter_self (location : Location) (entries : List (Location × Node)) :
    (entries.filter (·.1 ≠ location)).lookup location = none := by
  rw [List.lookup_eq_none_iff]
  intro entry hentry
  have hne : entry.1 ≠ location := by simpa using (List.mem_filter.mp hentry).2
  simpa using fun heq => hne heq.symm

theorem node?_erase_self (fs : FileSystem) {location : Location} (h : location ≠ []) :
    (fs.erase location).node? location = none := by
  rw [node?, if_neg h]
  exact lookup_filter_self location fs.entries

theorem node?_erase_of_ne (fs : FileSystem) {location other : Location} (h : other ≠ location) :
    (fs.erase location).node? other = fs.node? other := by
  unfold node?
  split
  · rfl
  · exact lookup_filter_ne h fs.entries

theorem node?_insert_self (fs : FileSystem) {location : Location} (node : Node)
    (h : location ≠ []) : (fs.insert location node).node? location = some node := by
  have hnone := node?_erase_self fs h
  rw [node?, if_neg h] at hnone ⊢
  rw [insert, List.lookup_append, hnone]
  simp

theorem node?_insert_of_ne (fs : FileSystem) {location other : Location} (node : Node)
    (h : other ≠ location) : (fs.insert location node).node? other = fs.node? other := by
  refine Eq.trans ?_ (node?_erase_of_ne fs h)
  unfold node?
  split
  · rfl
  · have hbeq : (other == location) = false := by simp [h]
    rw [insert, List.lookup_append, List.lookup_cons, hbeq]
    simp

/-- The file system without the location and all below it. -/
def eraseTree (fs : FileSystem) (location : Location) : FileSystem :=
  { fs with
    entries := fs.entries.filter (!location.isPrefixOf ·.1)
    distinct := fs.distinct.sublist (List.filter_sublist.map Prod.fst) }

/-- The names and nodes directly inside the directory at the location. -/
def children (fs : FileSystem) (location : Location) : List (String × Node) :=
  fs.entries.filterMap fun (place, node) =>
    match place.getLast? with
    | some name => if place.dropLast = location then some (name, node) else none
    | none => none

end FileSystem

end CompilationDatabase
