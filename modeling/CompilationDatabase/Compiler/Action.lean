/-
What a compiler invocation does in the end.

Several flags of one command line may ask for different actions; the greatest
wins, whatever their order: a query beats preprocessing, preprocessing beats
compiling, and compiling beats linking, which needs no flag.
-/

namespace CompilationDatabase.Compiler

/-- What an invocation does. -/
inductive Action where
  /-- Compile if needed, and link. -/
  | link
  /-- Compile to object files. -/
  | compile
  /-- Run the preprocessor only. -/
  | preprocess
  /-- Answer a query and build nothing. -/
  | info
deriving DecidableEq, Repr, Ord

namespace Action

instance : Inhabited Action := ⟨link⟩

instance : LE Action := leOfOrd

instance : Max Action := maxOfLe

/-- The action after a flag asked for another one. -/
def escalate (current asked : Action) : Action := max current asked

/-- The name of the action. -/
def name : Action → String
  | link => "link"
  | compile => "compile"
  | preprocess => "preprocess"
  | info => "info"

end Action

end CompilationDatabase.Compiler
