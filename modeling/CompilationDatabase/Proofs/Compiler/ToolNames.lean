/-
The names of tools.

A tool is known by the last piece of its path: a target that is ended by a dash, the
tool and a version (`Composed`).  The target may hold any character, even slashes, so
the directories can be told from it in more than one way; but what stands behind the
last slash is the same in all of them (`matches_directories_iff`).  In that name, the
version begins at the last dash if it is there at all, so target, tool and version can
be told apart (`Composed.unique`).

* `accepts_composed_iff` — directories, target, tool and version as a pattern;
* `isTool_iff_lastPiece` — which last pieces compilers and linkers have.
-/
import Mathlib.Data.List.Basic
import CompilationDatabase.Compiler.Executable
import CompilationDatabase.Proofs.FileSystem.Walk
import CompilationDatabase.Proofs.Text.Pattern

namespace CompilationDatabase.Compiler

open CompilationDatabase.Path (lastPiece)
open Text (Pattern IsEnded behindLast isDecimalDigit)
open Text.Pattern (Lists)

/-! ### Versions -/

/-- One or more decimal digits. -/
def IsNumber (text : List Char) : Prop := text ≠ [] ∧ ∀ c ∈ text, isDecimalDigit c = true

/-- A dash and one to `most` numbers with dots between. -/
def IsVersion (most : Nat) (text : List Char) : Prop :=
  ∃ (first : List Char) (others : List (List Char)), IsNumber first ∧
    (∀ number ∈ others, IsNumber number) ∧ others.length < most ∧
    text = '-' :: (first ++ others.flatMap ('.' :: ·))

section

variable {text : List Char} {n most : Nat}

theorem matches_number_iff : number.Matches text ↔ IsNumber text :=
  Pattern.matches_oneOrMore_one_iff

theorem matches_dotted_iff :
    (Pattern.seq (.char '.') number).Matches text ↔ text = '.' :: text.tail ∧ IsNumber text.tail := by
  rw [Pattern.matches_seq_iff]
  constructor
  · rintro ⟨front, rest, rfl, hfront, hrest⟩
    obtain rfl := Pattern.matches_char_iff.mp hfront
    exact ⟨rfl, matches_number_iff.mp hrest⟩
  · rintro ⟨htext, hnumber⟩
    exact ⟨['.'], text.tail, htext, Pattern.matches_char_iff.mpr rfl,
      matches_number_iff.mpr hnumber⟩

theorem matches_dottedUpTo_iff :
    (Pattern.upTo n (.seq (.char '.') number)).Matches text ↔
      ∃ numbers : List (List Char), (∀ number ∈ numbers, IsNumber number) ∧
        numbers.length ≤ n ∧ text = numbers.flatMap ('.' :: ·) := by
  rw [Pattern.matches_upTo_iff]
  constructor
  · rintro ⟨pieces, hlength, hpieces, rfl⟩
    refine ⟨pieces.map List.tail, ?_, by simpa using hlength, ?_⟩
    · rw [List.forall_mem_map]
      exact fun piece hpiece => (matches_dotted_iff.mp (hpieces piece hpiece)).2
    · rw [List.flatMap_map, List.flatten_eq_flatMap]
      exact List.flatMap_congr fun piece hpiece => (matches_dotted_iff.mp (hpieces piece hpiece)).1
  · rintro ⟨numbers, hnumbers, hlength, rfl⟩
    refine ⟨numbers.map ('.' :: ·), by simpa using hlength, ?_, List.flatMap_def⟩
    rw [List.forall_mem_map]
    exact fun number hnumber => matches_dotted_iff.mpr ⟨rfl, hnumbers number hnumber⟩

theorem matches_version_iff :
    (version n).Matches text ↔ text = [] ∨ IsVersion (n + 1) text := by
  rw [version, Pattern.matches_optional_iff, or_comm]
  refine or_congr Iff.rfl ?_
  simp only [Pattern.matches_seq_iff, Pattern.matches_char_iff, matches_number_iff,
    matches_dottedUpTo_iff]
  constructor
  · rintro ⟨_, _, rfl, rfl, first, _, rfl, hfirst, others, hothers, hlength, rfl⟩
    exact ⟨first, others, hfirst, hothers, Nat.lt_succ_of_le hlength, rfl⟩
  · rintro ⟨first, others, hfirst, hothers, hlength, rfl⟩
    exact ⟨['-'], _, rfl, rfl, first, _, rfl, hfirst, others, hothers,
      Nat.le_of_lt_succ hlength, rfl⟩

theorem IsVersion.mono {most' : Nat} (h : IsVersion most text) (hle : most ≤ most') :
    IsVersion most' text := by
  obtain ⟨first, others, hfirst, hothers, hlength, htext⟩ := h
  exact ⟨first, others, hfirst, hothers, Nat.lt_of_lt_of_le hlength hle, htext⟩

/-- Behind its dash, a version holds digits and dots only. -/
theorem IsVersion.exists_eq (h : IsVersion most text) :
    ∃ rest, text = '-' :: rest ∧ ∀ c ∈ rest, isDecimalDigit c = true ∨ c = '.' := by
  obtain ⟨first, others, hfirst, hothers, -, rfl⟩ := h
  refine ⟨_, rfl, fun c hc => ?_⟩
  rw [List.mem_append, List.mem_flatMap] at hc
  rcases hc with hc | ⟨number, hnumber, hc⟩
  · exact .inl (hfirst.2 c hc)
  · rcases List.mem_cons.mp hc with rfl | hc
    · exact .inr rfl
    · exact .inl ((hothers number hnumber).2 c hc)

theorem IsVersion.not_mem {rest : List Char} {c : Char} (h : IsVersion most ('-' :: rest))
    (hdigit : isDecimalDigit c = false) (hdot : c ≠ '.') : c ∉ rest := by
  obtain ⟨rest', heq, hrest⟩ := h.exists_eq
  obtain rfl := (List.cons.inj heq).2
  intro hc
  rcases hrest c hc with h | h
  · rw [h] at hdigit
    cases hdigit
  · exact hdot h

end

/-! ### Target, tool and version -/

/-- The name is a tool with maybe a target before it, and maybe a version of at most
so many numbers behind. -/
structure Composed (most : Nat) (name target tool version : List Char) : Prop where
  eq : name = target ++ tool ++ version
  target : IsEnded '-' target
  version : version = [] ∨ IsVersion most version

/-- Whether the text cannot be taken for a part of a target or for a version. -/
def IsToolName (text : List Char) : Prop :=
  '-' ∉ text ∧ ∃ c ∈ text, isDecimalDigit c = false ∧ c ≠ '.'

instance (text : List Char) : Decidable (IsToolName text) :=
  decidable_of_iff ('-' ∉ text ∧ (text.any fun c => !isDecimalDigit c && c != '.') = true)
    (by simp [IsToolName])

section

variable {most most' : Nat} {name target target' tool tool' version version' : List Char}

theorem Composed.mono (h : Composed most name target tool version) (hle : most ≤ most') :
    Composed most' name target tool version :=
  ⟨h.eq, h.target, h.version.imp_right (·.mono hle)⟩

theorem IsVersion.not_isToolName {rest : List Char} (h : IsVersion most ('-' :: rest)) :
    ¬ IsToolName rest := by
  rintro ⟨-, c, hc, hdigit, hdot⟩
  exact h.not_mem hdigit hdot hc

/-- Behind the last dash of the name stands the tool, or the numbers of the version. -/
theorem Composed.behindLast_eq (h : Composed most name target tool version)
    (htool : IsToolName tool) : behindLast '-' name = if version = [] then tool else version.tail := by
  obtain ⟨rfl, htarget, hversion⟩ := h
  rcases hversion with rfl | hversion
  · rw [if_pos rfl, List.append_nil, Text.behindLast_append htarget,
      Text.behindLast_of_not_mem htool.1]
  · obtain ⟨rest, rfl, -⟩ := hversion.exists_eq
    have hdash : '-' ∉ rest := hversion.not_mem (by decide) (by decide)
    rw [if_neg (List.cons_ne_nil _ _), List.tail_cons, List.append_cons,
      Text.behindLast_append (.concat _), Text.behindLast_of_not_mem hdash]

/-- The version can be told from the name. -/
theorem Composed.version_eq (h : Composed most name target tool version)
    (h' : Composed most' name target' tool' version') (htool : IsToolName tool)
    (htool' : IsToolName tool') : version = version' := by
  have hlast := h.behindLast_eq htool
  rw [h'.behindLast_eq htool'] at hlast
  rcases h.version with rfl | hversion
  · rcases h'.version with rfl | hversion'
    · rfl
    · obtain ⟨rest, rfl, -⟩ := hversion'.exists_eq
      obtain rfl : rest = tool := hlast
      exact absurd htool hversion'.not_isToolName
  · obtain ⟨rest, rfl, -⟩ := hversion.exists_eq
    rcases h'.version with rfl | hversion'
    · obtain rfl : tool' = rest := hlast
      exact absurd htool' hversion.not_isToolName
    · obtain ⟨rest', rfl, -⟩ := hversion'.exists_eq
      obtain rfl : rest' = rest := hlast
      rfl

/-- **Target, tool and version can be told from the name.** -/
theorem Composed.unique (h : Composed most name target tool version)
    (h' : Composed most' name target' tool' version') (htool : IsToolName tool)
    (htool' : IsToolName tool') : target = target' ∧ tool = tool' ∧ version = version' := by
  obtain rfl := h.version_eq h' htool htool'
  have hstem : target ++ tool = target' ++ tool' :=
    List.append_cancel_right (h.eq.symm.trans h'.eq)
  have hlast := congrArg (behindLast '-') hstem
  rw [Text.behindLast_append h.target, Text.behindLast_append h'.target,
    Text.behindLast_of_not_mem htool.1, Text.behindLast_of_not_mem htool'.1] at hlast
  subst hlast
  exact ⟨List.append_cancel_right hstem, rfl, rfl⟩

end

/-! ### Directories -/

section

variable {a : Pattern} {p : Char → Bool} {n : Nat} {text : List Char}

theorem eq_or_bne (c d : Char) : c = d ∨ (c != d) = true := by
  simpa using Decidable.em (c = d)

theorem toList_lastPiece (path : String) : (lastPiece path).toList = behindLast '/' path.toList := by
  simp only [lastPiece, Path.pieces, List.getLast_map, String.toList_ofList, behindLast]

/-- If what matches does so without the directories that it may hold, directories before
it make no difference. -/
theorem matches_directories_iff (h : ∀ text, a.Matches text → a.Matches (behindLast '/' text)) :
    (Pattern.seq directories a).Matches text ↔ a.Matches (behindLast '/' text) := by
  rw [Pattern.matches_seq_iff]
  constructor
  · rintro ⟨front, rest, rfl, hfront, hrest⟩
    rw [Text.behindLast_append (Pattern.matches_ended_iff.mp hfront).1]
    exact h rest hrest
  · intro hlast
    obtain ⟨front, htext, hfront⟩ := Text.exists_eq_append_behindLast '/' text
    exact ⟨front, _, htext,
      Pattern.matches_ended_iff.mpr ⟨hfront, fun c _ => eq_or_bne c '/'⟩, hlast⟩

theorem slash_not_mem_version {version : List Char} (h : version = [] ∨ IsVersion n version) :
    '/' ∉ version := by
  rcases h with rfl | h
  · exact List.not_mem_nil
  · obtain ⟨rest, rfl, -⟩ := h.exists_eq
    have hrest : '/' ∉ rest := h.not_mem (by decide) (by decide)
    simp [hrest]

theorem matches_composed_iff :
    (Pattern.seq (.many (.seq (.many (.one p)) (.char '-'))) (.seq a (version n))).Matches text ↔
      ∃ target tool version, Composed (n + 1) text target tool version ∧
        (∀ c ∈ target, c = '-' ∨ p c = true) ∧ a.Matches tool := by
  simp only [Pattern.matches_seq_iff, Pattern.matches_ended_iff, matches_version_iff]
  constructor
  · rintro ⟨target, _, rfl, ⟨hended, htarget⟩, tool, version, rfl, htool, hversion⟩
    exact ⟨target, tool, version, ⟨(List.append_assoc _ _ _).symm, hended, hversion⟩, htarget,
      htool⟩
  · rintro ⟨target, tool, version, ⟨rfl, hended, hversion⟩, htarget, htool⟩
    exact ⟨target, _, List.append_assoc _ _ _, ⟨hended, htarget⟩, tool, version, rfl, htool,
      hversion⟩

/-- Directories, a target, a tool and a version are accepted just if the last piece is
target, tool and version. -/
theorem accepts_composed_iff (ha : ∀ tool, a.Matches tool → '/' ∉ tool) (path : String) :
    (Pattern.seq directories (.seq (.many (.seq (.many (.one p)) (.char '-')))
        (.seq a (version n)))).accepts path.toList = true ↔
      ∃ target tool version, Composed (n + 1) (lastPiece path).toList target tool version ∧
        (∀ c ∈ target, c = '-' ∨ p c = true) ∧ a.Matches tool := by
  rw [Pattern.accepts_iff_matches, matches_directories_iff, matches_composed_iff, toList_lastPiece]
  -- directories are in the target, or nowhere
  intro text htext
  obtain ⟨target, tool, version, ⟨rfl, hended, hversion⟩, htarget, htool⟩ :=
    matches_composed_iff.mp htext
  obtain ⟨front, hfront, -⟩ := Text.exists_eq_append_behindLast '/' target
  refine matches_composed_iff.mpr ⟨behindLast '/' target, tool, version, ⟨?_, ?_, hversion⟩,
    fun c hc => htarget c ?_, htool⟩
  · rw [Text.behindLast_append_of_not_mem (slash_not_mem_version hversion),
      Text.behindLast_append_of_not_mem (ha tool htool)]
  · exact hended.behindLast (by decide)
  · rw [hfront]
    exact List.mem_append_right front hc

end

/-! ### Compilers and linkers -/

/-- The compilers that may have a target and a version. -/
def compilers : List String := ["gcc", "g++", "mcc", "m++", "clang", "clang++"]

/-- The linkers, which may have a target and a version. -/
def linkers : List String := ["ld", "ld.bfd", "ld.gold", "ld.lld", "ld64", "ld64.lld", "lld"]

/-- Whether the name, as it is or without a version of up to three numbers at its end,
is one of the tools or ends in a dash and one of them. -/
def IsNamed (tools : List String) (name : String) : Prop :=
  ∃ stem version : List Char, name.toList = stem ++ version ∧
    (version = [] ∨ IsVersion 3 version) ∧
    ∃ tool ∈ tools, stem = tool.toList ∨ '-' :: tool.toList <:+ stem

section

variable {tools tools' : List String} {name : String} {path : String}

theorem isNamed_iff : IsNamed tools name ↔ ∃ tool ∈ tools, ∃ target version,
    Composed 3 name.toList target tool.toList version := by
  constructor
  · rintro ⟨stem, version, hname, hversion, tool, htool, rfl | ⟨front, rfl⟩⟩
    · exact ⟨tool, htool, [], version, hname, .nil, hversion⟩
    · refine ⟨tool, htool, front ++ ['-'], version, ?_, .concat front, hversion⟩
      rw [hname, List.append_cons]
  · rintro ⟨tool, htool, target, version, hname, rfl | ⟨front, rfl⟩, hversion⟩
    · exact ⟨tool.toList, version, hname, hversion, tool, htool, .inl rfl⟩
    · refine ⟨_, version, hname, hversion, tool, htool, .inr ⟨front, ?_⟩⟩
      rw [List.append_cons]

theorem exists_of_lists {a : Pattern} (h : Lists a (tools.map String.toList)) {text : List Char} :
    a.Matches text ↔ ∃ tool ∈ tools, tool.toList = text := by
  rw [h, List.mem_map]

/-- A pattern of tools, with directories, target and version, is for the names of these
tools. -/
theorem accepts_isNamed_iff {a : Pattern} (ha : Lists a (tools.map String.toList))
    (htools : ∀ tool ∈ tools, '/' ∉ tool.toList) (path : String) :
    (Pattern.seq directories (.seq target (.seq a (version 2)))).accepts path.toList = true ↔
      IsNamed tools (lastPiece path) := by
  have hslash (text : List Char) (htext : a.Matches text) : '/' ∉ text := by
    obtain ⟨tool, htool, rfl⟩ := (exists_of_lists ha).mp htext
    exact htools tool htool
  rw [target, accepts_composed_iff hslash, isNamed_iff]
  constructor
  · rintro ⟨target, _, version, hcomposed, -, htool⟩
    obtain ⟨tool, hmem, rfl⟩ := (exists_of_lists ha).mp htool
    exact ⟨tool, hmem, target, version, hcomposed⟩
  · rintro ⟨tool, hmem, target, version, hcomposed⟩
    exact ⟨target, tool.toList, version, hcomposed, fun c _ => eq_or_bne c '-',
      (exists_of_lists ha).mpr ⟨tool, hmem, rfl⟩⟩

/-- A pattern without slashes, with directories, is for last pieces. -/
theorem accepts_lists_iff {a : Pattern} {names : List String}
    (ha : Lists a (names.map String.toList)) (hnames : ∀ name ∈ names, '/' ∉ name.toList)
    (path : String) :
    (Pattern.seq directories a).accepts path.toList = true ↔ lastPiece path ∈ names := by
  rw [Pattern.accepts_iff_matches, matches_directories_iff, ← toList_lastPiece, exists_of_lists ha]
  · simp only [String.toList_inj, exists_eq_right]
  · intro text htext
    obtain ⟨name, hname, rfl⟩ := (exists_of_lists ha).mp htext
    rw [Text.behindLast_of_not_mem (hnames name hname)]
    exact htext

theorem lists_literally (text : String) : Lists (literally text) [text.toList] :=
  Pattern.lists_word _

theorem lists_driverEnding : Lists driverEnding (["cc", "++"].map String.toList) :=
  (lists_literally "cc").either (lists_literally "++")

theorem lists_driverLetter : Lists (.one fun c => c == 'm' || c == 'g') [['g'], ['m']] := by
  intro text
  simp only [Pattern.matches_one_iff, Bool.or_eq_true, beq_iff_eq, List.mem_cons,
    List.not_mem_nil, or_false]
  constructor
  · rintro ⟨c, rfl, rfl | rfl⟩
    · exact .inr rfl
    · exact .inl rfl
  · rintro (rfl | rfl)
    · exact ⟨'g', rfl, .inr rfl⟩
    · exact ⟨'m', rfl, .inl rfl⟩

theorem isNamed_append :
    IsNamed (tools ++ tools') name ↔ IsNamed tools name ∨ IsNamed tools' name := by
  simp only [isNamed_iff, List.mem_append, or_and_right, exists_or]

/-- The parts of a tool may be told apart or not. -/
theorem accepts_assoc {a b d : Pattern} {text : List Char} :
    (Pattern.seq directories (.seq target (.seq a (.seq b d)))).accepts text = true ↔
      (Pattern.seq directories (.seq target (.seq (.seq a b) d))).accepts text = true := by
  rw [Pattern.accepts_iff_matches, Pattern.accepts_iff_matches]
  exact Pattern.matches_seq_congr fun _ => Pattern.matches_seq_congr fun _ =>
    Pattern.matches_seq_assoc

theorem isCompiler_iff : isCompiler path = true ↔ lastPiece path ∈ ["cc", "c++"] ∨
    IsNamed compilers (lastPiece path) := by
  have hplain : Lists (.seq (.char 'c') (.either (literally "c") (literally "++")))
      (["cc", "c++"].map String.toList) :=
    ((Pattern.lists_char 'c').seq ((lists_literally "c").either (lists_literally "++"))).of_subset
      (by decide) (by decide)
  have hgnu : Lists (.seq (.one fun c => c == 'm' || c == 'g') driverEnding)
      (["gcc", "g++", "mcc", "m++"].map String.toList) :=
    (lists_driverLetter.seq lists_driverEnding).of_subset (by decide) (by decide)
  have hclang : Lists (.seq (literally "clang") (.optional (literally "++")))
      (["clang", "clang++"].map String.toList) :=
    ((lists_literally "clang").seq (lists_literally "++").optional).of_subset
      (by decide) (by decide)
  have hllvm : Lists (.seq (literally "llvm-g") driverEnding)
      (["llvm-gcc", "llvm-g++"].map String.toList) :=
    ((lists_literally "llvm-g").seq lists_driverEnding).of_subset (by decide) (by decide)
  -- what the last pattern is for has a target
  have htarget (h : lastPiece path ∈ ["llvm-gcc", "llvm-g++"]) :
      IsNamed ["gcc", "g++", "mcc", "m++"] (lastPiece path) := by
    rw [List.mem_cons, List.mem_singleton] at h
    rcases h with h | h
    · exact ⟨_, [], (List.append_nil _).symm, .inl rfl, "gcc", by decide,
        .inr ⟨"llvm".toList, by rw [h]; decide⟩⟩
    · exact ⟨_, [], (List.append_nil _).symm, .inl rfl, "g++", by decide,
        .inr ⟨"llvm".toList, by rw [h]; decide⟩⟩
  have hany : isCompiler path = true ↔ lastPiece path ∈ ["cc", "c++"] ∨
      IsNamed ["gcc", "g++", "mcc", "m++"] (lastPiece path) ∨
      IsNamed ["clang", "clang++"] (lastPiece path) ∨
      lastPiece path ∈ ["llvm-gcc", "llvm-g++"] := by
    simp only [isCompiler, compilerPatterns, List.any_cons, List.any_nil, Bool.or_false,
      Bool.or_eq_true]
    rw [accepts_lists_iff hplain (by decide), accepts_lists_iff hllvm (by decide), accepts_assoc,
      accepts_isNamed_iff hgnu (by decide), accepts_assoc, accepts_isNamed_iff hclang (by decide)]
  rw [hany, show compilers = ["gcc", "g++", "mcc", "m++"] ++ ["clang", "clang++"] from rfl,
    isNamed_append]
  constructor
  · rintro (h | h | h | h)
    · exact .inl h
    · exact .inr (.inl h)
    · exact .inr (.inr h)
    · exact .inr (.inl (htarget h))
  · rintro (h | h | h)
    · exact .inl h
    · exact .inr (.inl h)
    · exact .inr (.inr (.inl h))

theorem isNamed_of_mem (h : name ∈ tools) : IsNamed tools name :=
  ⟨name.toList, [], (List.append_nil _).symm, .inl rfl, name, h, .inl rfl⟩

/-- A compiler is called by a tool's name, `cc` and `c++` included. -/
theorem isNamed_of_isCompiler (h : isCompiler path = true) :
    IsNamed (["cc", "c++"] ++ compilers) (lastPiece path) :=
  isNamed_append.mpr ((isCompiler_iff.mp h).imp_left isNamed_of_mem)

theorem isLinker_iff : isLinker path = true ↔ IsNamed linkers (lastPiece path) := by
  refine accepts_isNamed_iff ?_ (by decide) path
  have hflavours : Lists (.anyOf (["bfd", "gold", "lld"].map literally))
      (["bfd", "gold", "lld"].map String.toList) :=
    (lists_literally "bfd").either ((lists_literally "gold").either
      ((lists_literally "lld").either Pattern.lists_never))
  have hld := (lists_literally "ld").seq ((Pattern.lists_char '.').seq hflavours).optional
  have hld64 := (lists_literally "ld64").seq (lists_literally ".lld").optional
  exact (hld.either (hld64.either ((lists_literally "lld").either Pattern.lists_never))).of_subset
    (by decide) (by decide)

/-- A name has at most one tool. -/
theorem IsNamed.exists_common (h : IsNamed tools name) (h' : IsNamed tools' name)
    (htools : ∀ tool ∈ tools, IsToolName tool.toList)
    (htools' : ∀ tool ∈ tools', IsToolName tool.toList) : ∃ tool ∈ tools, tool ∈ tools' := by
  obtain ⟨tool, hmem, target, version, hcomposed⟩ := isNamed_iff.mp h
  obtain ⟨tool', hmem', target', version', hcomposed'⟩ := isNamed_iff.mp h'
  obtain ⟨-, htool, -⟩ := hcomposed.unique hcomposed' (htools tool hmem) (htools' tool' hmem')
  obtain rfl := String.toList_inj.mp htool
  exact ⟨tool, hmem, hmem'⟩

end

/-- **Compilers and linkers are told by the last piece of the path alone.**  A
compiler is `cc`, `c++` or one of the compilers with maybe a target before it and a
version behind, a linker one of the linkers with these; and no path is both. -/
theorem isTool_iff_lastPiece (path : String) :
    (isCompiler path = true ↔ lastPiece path = "cc" ∨ lastPiece path = "c++" ∨
      IsNamed ["gcc", "g++", "mcc", "m++", "clang", "clang++"] (lastPiece path)) ∧
    (isLinker path = true ↔
      IsNamed ["ld", "ld.bfd", "ld.gold", "ld.lld", "ld64", "ld64.lld", "lld"]
        (lastPiece path)) ∧
    ¬ (isCompiler path = true ∧ isLinker path = true) := by
  refine ⟨?_, isLinker_iff, ?_⟩
  · rw [isCompiler_iff, List.mem_cons, List.mem_singleton, or_assoc, compilers]
  · rintro ⟨hcompiler, hlinker⟩
    obtain ⟨tool, hmem, hmem'⟩ := (isNamed_of_isCompiler hcompiler).exists_common
      (isLinker_iff.mp hlinker) (by decide) (by decide)
    have hapart : ∀ tool ∈ ["cc", "c++"] ++ compilers, tool ∉ linkers := by decide
    exact hapart tool hmem hmem'

end CompilationDatabase.Compiler
