/-
Kinds of files.

The extension of a file, case and all, says whether it is a source file, and
of which language, or an object file.
-/
import CompilationDatabase.Path.Basic

namespace CompilationDatabase.Compiler

/-- The extensions of source files, with the language of each. -/
def sourceExtensions : List (String × String) :=
  [("c", "c"), ("i", "c-cpp-output"), ("ii", "c++-cpp-output"), ("m", "objective-c"),
    ("mi", "objective-c-cpp-output"), ("mm", "objective-c++"),
    ("mii", "objective-c++-cpp-output"), ("C", "c++"), ("cc", "c++"), ("CC", "c++"),
    ("cp", "c++"), ("cpp", "c++"), ("cxx", "c++"), ("c++", "c++"), ("C++", "c++"), ("txx", "c++")]

/-- The extensions of object files. -/
def objectExtensions : List String := ["o", "obj"]

/-- The language of a source file. -/
def languageOf? (path : String) : Option String :=
  (Path.extension? path).bind fun extension => sourceExtensions.lookup extension

/-- Whether the path names a source file. -/
def isSourceFile (path : String) : Bool :=
  (languageOf? path).isSome

/-- Whether the path names an object file. -/
def isObjectFile (path : String) : Bool :=
  match Path.extension? path with
  | some extension => objectExtensions.contains extension
  | none => false

end CompilationDatabase.Compiler
