/-
Names of tools.

A tool is known by its path: any directories, then a name that may have a
target in front (pieces that end in dashes) and a version behind (a dash and
up to three numbers with dots between).

* `isCompiler` — drivers of the C family;
* `isLinker` — linkers;
* `isCxx` — drivers for C++, which end in `++`; their target is made of word
  characters, and their version may have four numbers.
-/
import CompilationDatabase.Text.DecimalDigit
import CompilationDatabase.Text.Pattern
import CompilationDatabase.Text.WordCharacter

namespace CompilationDatabase.Compiler

open Text (Pattern)

/-- Directories, each with the slash behind it. -/
def directories : Pattern :=
  .many (.seq (.many (.one (· != '/'))) (.char '/'))

/-- Pieces of a target, each with the dash behind it. -/
def target : Pattern :=
  .many (.seq (.many (.one (· != '-'))) (.char '-'))

/-- One number of a version. -/
def number : Pattern :=
  .oneOrMore (.one Text.isDecimalDigit)

/-- Possibly a version: a dash and a number, with at most `n` more numbers
after dots. -/
def version (n : Nat) : Pattern :=
  .optional (.seq (.char '-') (.seq number (.upTo n (.seq (.char '.') number))))

/-- The text as a pattern. -/
def literally (text : String) : Pattern := .word text.toList

/-- What ends the name of a driver: `cc` for C, `++` for C++. -/
def driverEnding : Pattern := .either (literally "cc") (literally "++")

/-- The drivers that are known as compilers. -/
def compilerPatterns : List Pattern :=
  [ .seq directories (.seq (.char 'c') (.either (literally "c") (literally "++"))),
    .seq directories <| .seq target <|
      .seq (.one fun c => c == 'm' || c == 'g') <| .seq driverEnding <| version 2,
    .seq directories <| .seq target <|
      .seq (literally "clang") <| .seq (.optional (literally "++")) <| version 2,
    .seq directories (.seq (literally "llvm-g") driverEnding) ]

/-- The tools that are known as linkers. -/
def linkerPattern : Pattern :=
  .seq directories <| .seq target <| .seq
    (.anyOf
      [ .seq (literally "ld")
          (.optional (.seq (.char '.') (.anyOf (["bfd", "gold", "lld"].map literally)))),
        .seq (literally "ld64") (.optional (literally ".lld")),
        literally "lld" ])
    (version 2)

/-- The drivers that are known to be for C++. -/
def cxxPattern : Pattern :=
  .seq directories <|
    .seq (.many (.seq (.many (.one Text.isWordCharacter)) (.char '-'))) <|
      .seq (.seq (.oneOrMore (.one Text.isWordCharacter)) (literally "++")) <| version 3

/-- Whether the executable is a compiler driver. -/
def isCompiler (executable : String) : Bool :=
  compilerPatterns.any (·.accepts executable.toList)

/-- Whether the executable is a linker. -/
def isLinker (executable : String) : Bool :=
  linkerPattern.accepts executable.toList

/-- Whether the executable is a driver for C++. -/
def isCxx (executable : String) : Bool :=
  cxxPattern.accepts executable.toList

end CompilationDatabase.Compiler
