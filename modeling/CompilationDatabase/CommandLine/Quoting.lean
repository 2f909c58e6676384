/-
Writing arguments as one command line.

`quote` writes one argument so that `split` reads it back as one word, and
`join` writes a list of them with single spaces between.  An argument that the
reader takes for itself stands as it is; any other is put in double quotes
with `\`, `"`, `$` and backquotes escaped.
-/
import CompilationDatabase.CommandLine.Word

namespace CompilationDatabase.CommandLine

/-- Whether an argument needs no quotes: it is read back as itself, also when
more text follows.  A backslash at the end would escape what follows. -/
def isPlain (argument : String) : Bool :=
  argument.toList.getLast? != some '\\' &&
    match split argument with
    | .ok [word] => word == argument
    | _ => false

/-- The characters between the quotes. -/
def escape : List Char → List Char
  | [] => []
  | c :: cs => if isEscapable c then '\\' :: c :: escape cs else c :: escape cs

/-- The argument in double quotes. -/
def enclose (argument : String) : String :=
  String.ofList ('"' :: (escape argument.toList ++ ['"']))

/-- One argument as a word of a command line. -/
def quote (argument : String) : String :=
  if isPlain argument then argument else enclose argument

/-- The arguments as a command line. -/
def join (arguments : List String) : String :=
  " ".intercalate (arguments.map quote)

end CompilationDatabase.CommandLine
