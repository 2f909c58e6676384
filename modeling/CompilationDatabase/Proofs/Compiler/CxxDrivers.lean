/-
Drivers for C++.

A driver for C++ is known by a name of word characters that ends in two plus signs,
with a target before it and a version behind (`isCxx_iff`).  A compiler may have any
characters in its target, but a driver for C++ only word characters between the
dashes.  So a compiler that ends in two plus signs is not taken for a driver for C++ if
there is a dot, say, in its target (`isCxx_dotted_target`).

* `isCxx_iff_of_isCompiler` — which compilers that end in two plus signs are known
  as drivers for C++.
-/
import CompilationDatabase.Proofs.Compiler.Boundaries
import CompilationDatabase.Proofs.Compiler.ToolNames

namespace CompilationDatabase.Compiler

open CompilationDatabase.Path (lastPiece)
open Text (Pattern IsEnded behindLast isWordCharacter)

section

variable {path : String} {text stem target tool version : List Char} {most : Nat}

/-- What ends in two plus signs, and holds no dash, is no part of a target or version. -/
theorem isToolName_append_plus (h : '-' ∉ text) : IsToolName (text ++ ['+', '+']) := by
  refine ⟨by simp [h], '+', by simp, ?_, by decide⟩
  decide

theorem matches_cxxTool_iff :
    (Pattern.seq (.oneOrMore (.one isWordCharacter)) (literally "++")).Matches tool ↔
      ∃ text, tool = text ++ ['+', '+'] ∧ text ≠ [] ∧ ∀ c ∈ text, isWordCharacter c = true := by
  simp only [Pattern.matches_seq_iff, Pattern.matches_oneOrMore_one_iff, literally,
    Pattern.matches_word_iff]
  constructor
  · rintro ⟨text, rest, rfl, htext, rfl⟩
    exact ⟨text, rfl, htext⟩
  · rintro ⟨text, rfl, htext⟩
    exact ⟨text, _, rfl, htext, rfl⟩

theorem not_mem_of_word {c : Char} (hc : isWordCharacter c = false)
    (h : ∀ d ∈ text, isWordCharacter d = true) : c ∉ text := by
  intro hmem
  rw [h c hmem] at hc
  cases hc

/-- The last piece of a driver for C++ is a target, a name that ends in two plus signs,
and a version of up to four numbers. -/
theorem isCxx_iff : isCxx path = true ↔
    ∃ target tool version, Composed 4 (lastPiece path).toList target tool version ∧
      (∀ c ∈ target, c = '-' ∨ isWordCharacter c = true) ∧
      ∃ text, tool = text ++ ['+', '+'] ∧ text ≠ [] ∧ ∀ c ∈ text, isWordCharacter c = true := by
  rw [isCxx, cxxPattern, accepts_composed_iff]
  · simp only [matches_cxxTool_iff]
  · intro tool htool
    obtain ⟨text, rfl, -, htext⟩ := matches_cxxTool_iff.mp htool
    have hslash := not_mem_of_word (c := '/') (by decide +kernel) htext
    simp [hslash]

/-- A stem that ends in two plus signs is a target and a tool, whatever these are. -/
theorem exists_composed (hname : text = stem ++ version)
    (hversion : version = [] ∨ IsVersion most version) (hstem : ['+', '+'] <:+ stem) :
    ∃ target tool, stem = target ++ tool ∧ Composed most text target tool version ∧
      IsToolName tool ∧ ['+', '+'] <:+ tool := by
  obtain ⟨target, htarget, hended⟩ := Text.exists_eq_append_behindLast '-' stem
  obtain ⟨front, rfl⟩ := hstem
  have htool : behindLast '-' (front ++ ['+', '+']) = behindLast '-' front ++ ['+', '+'] :=
    Text.behindLast_append_of_not_mem (by decide)
  refine ⟨target, _, htarget, ⟨?_, hended, hversion⟩, ?_, ?_⟩
  · rw [hname, ← htarget]
  · rw [htool]
    exact isToolName_append_plus (Text.not_mem_behindLast '-' front)
  · rw [htool]
    exact List.suffix_append _ _

/-- Whether the driver is for C++ shows in the executable alone. -/
theorem isCxx_of_classifyIn {fs : FileSystem} {directory : String} {arguments : List String}
    {c : Classification} (h : classifyIn fs directory (path :: arguments) = .ok c) :
    c.isCxx = isCxx path := by
  rw [classifyIn_cons, show ({ isCxx := isCxx path } : Classification) =
    .withCxx (isCxx path) {} from rfl, foldlM_effectOn_withCxx, map_eq_ok_iff] at h
  obtain ⟨last, -, rfl⟩ := h
  rfl

/-- A compiler that ends in two plus signs is one of four. -/
theorem mem_cxxDrivers (h : isCompiler path = true)
    (hcomposed : Composed most (lastPiece path).toList target tool version)
    (htool : IsToolName tool) (hplus : ['+', '+'] <:+ tool) :
    Composed 4 (lastPiece path).toList target tool version ∧
      ∃ driver ∈ ["c++", "g++", "m++", "clang++"], tool = driver.toList := by
  obtain ⟨driver, hdriver, target', version', hcomposed'⟩ :=
    isNamed_iff.mp (isNamed_of_isCompiler h)
  have hnames : ∀ driver ∈ ["cc", "c++"] ++ compilers, IsToolName driver.toList := by decide
  have hdrivers : ∀ driver ∈ ["cc", "c++"] ++ compilers, ['+', '+'] <:+ driver.toList →
      driver ∈ ["c++", "g++", "m++", "clang++"] := by
    decide
  obtain ⟨rfl, rfl, rfl⟩ := hcomposed.unique hcomposed' htool (hnames driver hdriver)
  exact ⟨hcomposed'.mono (by decide), driver, hdrivers driver hdriver hplus, rfl⟩

end

/-- **A compiler that ends in two plus signs, but for a version, is known as a driver
for C++ just if all of its target is word characters and dashes**; the classification
of an invocation says so whatever the arguments. -/
theorem isCxx_iff_of_isCompiler {path : String} {stem version : List Char} {most : Nat}
    (hcompiler : isCompiler path = true) (hname : (lastPiece path).toList = stem ++ version)
    (hversion : version = [] ∨ IsVersion most version) (hstem : ['+', '+'] <:+ stem) :
    (∃ target : List Char, ∃ driver ∈ ["c++", "g++", "m++", "clang++"],
      stem = target ++ driver.toList ∧ IsEnded '-' target ∧
        (isCxx path = true ↔ ∀ c ∈ target, c = '-' ∨ isWordCharacter c = true)) ∧
    ∀ fs directory arguments c, classifyIn fs directory (path :: arguments) = .ok c →
      c.isCxx = isCxx path := by
  refine ⟨?_, fun fs directory arguments c hc => isCxx_of_classifyIn hc⟩
  obtain ⟨target, tool, rfl, hcomposed, htool, hplus⟩ := exists_composed hname hversion hstem
  obtain ⟨hfour, driver, hdriver, rfl⟩ := mem_cxxDrivers hcompiler hcomposed htool hplus
  refine ⟨target, driver, hdriver, rfl, hcomposed.target, ?_⟩
  rw [isCxx_iff]
  constructor
  · rintro ⟨target', tool', version', hcomposed', htarget, text, rfl, -, htext⟩
    have hdash := not_mem_of_word (c := '-') (by decide +kernel) htext
    obtain ⟨rfl, -, -⟩ := hcomposed.unique hcomposed' htool (isToolName_append_plus hdash)
    exact htarget
  · intro htarget
    have hdrivers : ∀ driver ∈ ["c++", "g++", "m++", "clang++"],
        driver.toList = driver.toList.dropLast.dropLast ++ ['+', '+'] ∧
          driver.toList.dropLast.dropLast ≠ [] ∧
          driver.toList.dropLast.dropLast.all isWordCharacter = true := by
      decide +kernel
    obtain ⟨htext, hne, hword⟩ := hdrivers driver hdriver
    exact ⟨target, _, version, hfour, htarget, _, htext, hne, List.all_eq_true.mp hword⟩

/-- A dot in a directory, or in the version, is no dot in the target. -/
theorem isCxx_iff_of_isCompiler_versioned :
    isCompiler "/opt/gcc.d/arm-none-eabi-g++-4.9" = true ∧
      (lastPiece "/opt/gcc.d/arm-none-eabi-g++-4.9").toList =
        "arm-none-eabi-g++".toList ++ "-4.9".toList ∧
      IsVersion 3 "-4.9".toList ∧ ['+', '+'] <:+ "arm-none-eabi-g++".toList ∧
      isCxx "/opt/gcc.d/arm-none-eabi-g++-4.9" = true := by
  have hcompiler : isCompiler "/opt/gcc.d/arm-none-eabi-g++-4.9" = true := by decide +kernel
  have hname : (lastPiece "/opt/gcc.d/arm-none-eabi-g++-4.9").toList =
      "arm-none-eabi-g++".toList ++ "-4.9".toList := by
    decide +kernel
  have hversion : IsVersion 3 "-4.9".toList :=
    ⟨['4'], [['9']], by simp [IsNumber]; decide, by simp [IsNumber]; decide, by decide, by decide⟩
  have hstem : ['+', '+'] <:+ "arm-none-eabi-g++".toList := by decide
  obtain ⟨⟨target, driver, hdriver, htarget, -, hiff⟩, -⟩ :=
    isCxx_iff_of_isCompiler hcompiler hname (.inr hversion) hstem
  -- the stem ends in no other driver
  have hdrivers : ∀ driver ∈ ["c++", "g++", "m++", "clang++"],
      driver.toList <:+ "arm-none-eabi-g++".toList → driver = "g++" := by
    decide
  obtain rfl := hdrivers driver hdriver ⟨target, htarget.symm⟩
  obtain rfl : "arm-none-eabi-".toList = target :=
    List.append_cancel_right (show _ ++ "g++".toList = _ from htarget)
  have hall : ("arm-none-eabi-".toList.all fun c => c == '-' || isWordCharacter c) = true := by
    decide +kernel
  refine ⟨hcompiler, hname, hversion, hstem, hiff.mpr ?_⟩
  simpa only [List.all_eq_true, Bool.or_eq_true, beq_iff_eq] using hall

/-- A compiler that ends in two plus signs need not be known as a driver for C++. -/
theorem isCxx_dotted_target :
    isCompiler "i686-w64-mingw32.static-g++" = true ∧
      ['+', '+'] <:+ (lastPiece "i686-w64-mingw32.static-g++").toList ∧
      isCxx "i686-w64-mingw32.static-g++" = false ∧
      classifyIn .empty "/" ["i686-w64-mingw32.static-g++", "-c", "a.cc"] =
        .ok { action := .compile, files := ["a.cc"] } := by
  refine ⟨by decide +kernel, by decide +kernel, by decide +kernel, ?_⟩
  exact toOption_eq_some_iff.mp (by decide +kernel)

end CompilationDatabase.Compiler
