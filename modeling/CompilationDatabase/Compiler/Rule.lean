/-
The table of compiler arguments.

At each argument the first rule of the table that accepts it decides how many
arguments are taken and what they mean.  The order matters: an earlier rule
hides a later one that would accept the same argument.

* `rules` — the table;
* `findRule` — the first rule that accepts an argument;
* `Rule.extra` — how many further arguments the rule takes.
-/
import CompilationDatabase.Compiler.Action

namespace CompilationDatabase.Compiler

/-- Which arguments a rule is for. -/
inductive Matcher where
  /-- One of these arguments. -/
  | exactly (flags : List String)
  /-- An argument that begins with one of these. -/
  | beginning (starts : List String)
  /-- An argument that begins with the start and with none of the exceptions. -/
  | beginningExcept (start : String) (exceptions : List String)
  /-- An argument that does not begin with a dash. -/
  | positional
deriving DecidableEq, Repr

/-- Whether the text begins with the start. -/
def begins (start text : String) : Bool :=
  start.toList.isPrefixOf text.toList

namespace Matcher

/-- Whether the argument is one of the matcher's. -/
def accepts (token : String) : Matcher → Bool
  | exactly flags => flags.contains token
  | beginning starts => starts.any (begins · token)
  | beginningExcept start exceptions =>
    begins start token && !exceptions.any (begins · token)
  | positional => !begins "-" token

/-- Whether the argument is a flag alone, with nothing joined to it. -/
def isBare (token : String) : Matcher → Bool
  | exactly flags => flags.contains token
  | beginning starts => starts.contains token
  | beginningExcept start _ => token == start
  | positional => false

end Matcher

/-- How many arguments a rule takes. -/
inductive Arity where
  | one
  | two
  | four
  /-- One if the value is joined to the flag, two if the flag stands alone. -/
  | joinedOrSeparate
deriving DecidableEq, Repr

/-- What the arguments taken by a rule mean. -/
inductive Effect where
  /-- The flag asks for an action. -/
  | action (asked : Action)
  /-- The value is an architecture. -/
  | architecture
  /-- The value is a file that lists the input files. -/
  | fileList
  /-- The argument is an input file. -/
  | file
  /-- The value is the language of the input files. -/
  | language
  /-- The value is the output file. -/
  | output
  /-- The arguments are kept as an option of the compiler. -/
  | option
  /-- Another spelling is kept in place of the argument. -/
  | aliasOf (spelling : String)
  /-- The arguments mean nothing here. -/
  | ignore
deriving DecidableEq, Repr

/-- One row of the table. -/
structure Rule where
  /-- The name of the rule. -/
  name : String
  /-- Which arguments the rule is for. -/
  matcher : Matcher
  /-- How many arguments it takes. -/
  arity : Arity
  /-- What they mean. -/
  effect : Effect
deriving DecidableEq, Repr

/-- How many arguments the rule takes after the flag. -/
def Rule.extra (rule : Rule) (flag : String) : Nat :=
  match rule.arity with
  | .one => 0
  | .two => 1
  | .four => 3
  | .joinedOrSeparate => if rule.matcher.isBare flag then 1 else 0

/-- The table, in order of precedence. -/
def rules : List Rule :=
  [ -- actions
    ⟨"preprocess", .exactly ["-E", "-M", "-MM"], .one, .action .preprocess⟩,
    ⟨"compile", .exactly ["-c"], .one, .action .compile⟩,
    ⟨"info", .exactly ["-cc1", "--version", "-dumpversion", "-dumpmachine", "-###"], .one,
      .action .info⟩,
    ⟨"info-print", .beginning ["-print-"], .one, .action .info⟩,
    -- input and output
    ⟨"arch", .exactly ["-arch"], .two, .architecture⟩,
    ⟨"filelist", .exactly ["-filelist"], .two, .fileList⟩,
    ⟨"file", .positional, .one, .file⟩,
    ⟨"language", .exactly ["-x"], .two, .language⟩,
    ⟨"output", .exactly ["-o"], .two, .output⟩,
    -- options that are kept
    ⟨"option",
      .exactly
        ["-v", "-nostdinc", "-nostdinc++", "-pthread", "-pedantic", "-ansi", "-w", "-m32", "-m64",
          "-O0", "-O1", "-O2", "-O3", "-Ofast", "-Og", "-Oz"],
      .one, .option⟩,
    ⟨"option-prefixed", .beginning ["-W", "-std=", "-g"], .one, .option⟩,
    ⟨"machine",
      .beginningExcept "-m"
        ["-mios-simulator-version-min", "-mmacosx-version-min", "-miphoneos-version-min"],
      .one, .option⟩,
    ⟨"feature", .beginningExcept "-f" ["-fsyntax-only", "-fobjc-link-runtime", "-framework"],
      .one, .option⟩,
    ⟨"optimize-default", .exactly ["-O"], .one, .aliasOf "-O1"⟩,
    ⟨"optimize-size", .exactly ["-Os"], .one, .aliasOf "-O2"⟩,
    ⟨"option-with-value",
      .exactly
        ["--sysroot", "-target", "-isysroot", "-include", "-idirafter", "-imacros", "-iprefix",
          "-isystem", "-iwithprefix", "-iwithprefixbefore"],
      .two, .option⟩,
    ⟨"option-joined-or-separate",
      .beginning
        ["-D", "-I", "-U", "-stdlib", "-iquote", "-mios-simulator-version-min",
          "-mmacosx-version-min", "-miphoneos-version-min", "-fobjc-link-runtime"],
      .joinedOrSeparate, .option⟩,
    -- arguments without meaning here
    ⟨"ignored-with-value",
      .exactly
        ["-framework", "-MT", "-MF", "-MQ", "-e", "-u", "-install_name", "-compatibility_version",
          "-current_version", "-exported_symbols_list", "-unexported_symbols_list",
          "-bundle_loader", "-seg_addr_table", "-rpath", "-Xlinker", "-Xassembler",
          "-Xpreprocessor", "-Xclang", "--param", "--serialize-diagnostics"],
      .two, .ignore⟩,
    ⟨"ignored-prefixed", .beginning ["-l", "-L", "-save-temps"], .one, .ignore⟩,
    ⟨"ignored",
      .exactly
        ["-fsyntax-only", "-MD", "-MMD", "-MP", "-static", "-shared", "-dynamiclib", "-bundle",
          "-pipe"],
      .one, .ignore⟩,
    ⟨"sectorder", .exactly ["-sectorder"], .four, .ignore⟩ ]

/-- The first rule that accepts the argument. -/
def findRule (token : String) : Option Rule :=
  rules.find? (·.matcher.accepts token)

end CompilationDatabase.Compiler
