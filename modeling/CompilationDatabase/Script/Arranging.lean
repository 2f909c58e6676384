/-
Programs that arrange files: copy, move, remove and make them.

Each operand is taken by itself: one that is refused is complained about, and
the others are done all the same.
-/
import CompilationDatabase.Script.Utility

namespace CompilationDatabase.Script

/-- The path of something by its own name inside a directory. -/
def inside (directory path : String) : String :=
  Path.under directory ((Path.fileName? path).getD path)

/-- Whether the path leads to a directory. -/
def isDirectory (fs : FileSystem) (path : String) : Bool :=
  (fs.lookup path).toOption = some .directory

/-- Copies what is below one location to below another. -/
def copyTree (fs : FileSystem) (source target : Location) : FileSystem :=
  let below := fs.entries.filter fun (place, _) => source.isPrefixOf place
  below.foldl (fun fs (place, node) => fs.insert (target ++ place.drop source.length) node) fs

/-- Copies a file, or a directory with all that is below it if asked. -/
def copy (recursive : Bool) (source target : String) (fs : FileSystem) :
    Except FileError FileSystem := do
  if (fs.resolve source).toOption = (fs.resolve target).toOption then throw .alreadyExists
  match ← fs.lookup source with
  | .file content => fs.write target content
  | .directory =>
    if !recursive then throw .isDirectory
    let made ← if isDirectory fs target then .ok fs else fs.makeDirectory target
    return copyTree made (← made.resolve source) (← made.resolve target)

/-- Moves a file, or a directory with all that is below it. -/
def move (source target : String) (fs : FileSystem) : Except FileError FileSystem := do
  match ← fs.lookup source with
  | .file _ => fs.rename source target
  | .directory =>
    let made ← copy true source target fs
    return made.eraseTree (← made.resolve source)

/-- Hands each operand but the last to a change, with the path to put it at:
the last operand, or a place inside it if it is a directory. -/
def toLast (name : String) (change : String → String → FileSystem → Except FileError FileSystem)
    (files : FileSystem) (operands : List String) : Answer :=
  match operands.getLast?, operands.dropLast with
  | none, _ => ({ files } : Answer).complain (name ++ ": missing file operand")
  | some _, [] => ({ files } : Answer).complain (name ++ ": missing destination file operand")
  | some last, sources =>
    let intoDirectory := isDirectory files last
    if sources.length > 1 && !intoDirectory then
      ({ files } : Answer).complain (name ++ ": target '" ++ last ++ "' is not a directory")
    else
      let step (answer : Answer) (source : String) : Answer :=
        let target := if intoDirectory then inside last source else last
        answer.change (name ++ ": '" ++ source ++ "'") (change source target)
      sources.foldl step { files }

/-- Copies files. -/
def cp : Utility := fun call =>
  let (options, operands) := splitOptions call.arguments
  toLast "cp" (copy (hasLetter options ['r', 'R', 'a'])) call.files operands

/-- Moves files. -/
def mv : Utility := fun call =>
  toLast "mv" move call.files (splitOptions call.arguments).2

/-- Does the same to each operand, one after the other. -/
def forEach (name : String) (change : String → FileSystem → Except FileError FileSystem)
    (files : FileSystem) (operands : List String) : Answer :=
  let step (answer : Answer) (operand : String) : Answer :=
    answer.change (name ++ ": '" ++ operand ++ "'") (change operand)
  operands.foldl step { files }

/-- Removes a file, or a directory with all that is below it if asked; if
`force` is set, what does not exist counts as removed. -/
def erase (recursive force : Bool) (path : String) (fs : FileSystem) :
    Except FileError FileSystem :=
  match fs.lookup path with
  | .error .noSuchFile => if force then .ok fs else .error .noSuchFile
  | .error .notDirectory => if force then .ok fs else .error .notDirectory
  | .error cause => .error cause
  | .ok (.file _) => fs.remove path
  | .ok .directory =>
    match fs.target path with
    | .error cause => .error cause
    | .ok target =>
      if !recursive then .error .isDirectory
      else if target.isSpecial then .error .busy
      else .ok (fs.eraseTree target.location)

/-- Removes files. -/
def rm : Utility := fun call =>
  let (options, operands) := splitOptions call.arguments
  forEach "rm" (erase (hasLetter options ['r', 'R']) (hasLetter options ['f'])) call.files operands

/-- Makes directories. -/
def mkdir : Utility := fun call =>
  let (options, operands) := splitOptions call.arguments
  let make (path : String) (fs : FileSystem) : Except FileError FileSystem :=
    if hasLetter options ['p'] then fs.makeDirectories path else fs.makeDirectory path
  forEach "mkdir" make call.files operands

/-- Removes directories that are empty. -/
def rmdir : Utility := fun call =>
  let remove (path : String) (fs : FileSystem) : Except FileError FileSystem := do
    if (← fs.list path).isEmpty then erase true false path fs else throw .busy
  forEach "rmdir" remove call.files (splitOptions call.arguments).2

/-- Makes files that do not exist yet. -/
def touch : Utility := fun call =>
  let make (path : String) (fs : FileSystem) : Except FileError FileSystem :=
    if fs.contains path then .ok fs else fs.write path .empty
  forEach "touch" make call.files (splitOptions call.arguments).2

end CompilationDatabase.Script
