/-
Records that are written to a trace and read back.

A group ends at its separator, its fields and arguments at theirs, and the
blanks around a group are lost.  So a record is read back just if it keeps the
separators apart, does not begin with a blank, and is not one of those that are
skipped (`Record.WellFormed`).  Reading gives only such records, whatever the
text, so writing what was read loses nothing.

* `parse_flatMap_encode` — well-formed records are read back;
* `wellFormed_of_mem_parse` — what is read is well-formed;
* `parse_encode_iff` — both together.
-/
import Mathlib.Data.List.Basic
import CompilationDatabase.Trace.Codec
import CompilationDatabase.Proofs.Text.Splitting

namespace CompilationDatabase.Trace

/-- Whether a trace can hold the record. -/
structure Record.WellFormed (r : Record) : Prop where
  directory_ne : r.directory ≠ ""
  command_ne : r.command ≠ []
  /-- No text holds what ends a group or a field. -/
  separators : ∀ text ∈ [r.pid, r.ppid, r.function, r.directory] ++ r.command,
    groupSeparator ∉ text.toList ∧ fieldSeparator ∉ text.toList
  /-- No argument holds what ends an argument. -/
  tokens : ∀ token ∈ r.command, tokenSeparator ∉ token.toList
  /-- The first field does not begin with a blank of ASCII. -/
  start : ∀ c, r.pid.toList.head? = some c → Text.isAsciiBlank c = false

/-! ### Writing -/

/-- The arguments as they are written. -/
def Record.tokensText (r : Record) : List Char :=
  (r.command.map String.toList).flatMap (· ++ [tokenSeparator])

/-- The group of a record, without what ends it. -/
def Record.groupText (r : Record) : List Char :=
  r.pid.toList ++ fieldSeparator :: (r.ppid.toList ++ fieldSeparator ::
    (r.function.toList ++ fieldSeparator :: (r.directory.toList ++ fieldSeparator :: r.tokensText)))

theorem Record.toList_encode (r : Record) :
    r.encode.toList = r.groupText ++ [groupSeparator] := by
  simp [encode, groupText, tokensText, List.flatMap_def, Function.comp_def]

theorem toList_encodeAll (records : List Record) :
    (String.join (records.map Record.encode)).toList =
      (records.map Record.groupText).flatMap (· ++ [groupSeparator]) := by
  simp only [String.toList_join, List.flatMap_map, Record.toList_encode]

/-! ### Reading what was written -/

theorem parseTokens_tokensText {r : Record}
    (h : ∀ token ∈ r.command, tokenSeparator ∉ token.toList) :
    parseTokens r.tokensText = r.command := by
  have hpieces : ∀ piece ∈ r.command.map String.toList, tokenSeparator ∉ piece := by
    intro piece hpiece
    obtain ⟨token, htoken, rfl⟩ := List.mem_map.mp hpiece
    exact h token htoken
  unfold parseTokens Record.tokensText
  rw [Text.splitOn_flatMap_ended hpieces]
  simp

theorem splitOn_groupText {r : Record} (h : r.WellFormed) :
    r.groupText.splitOn fieldSeparator =
      [r.pid.toList, r.ppid.toList, r.function.toList, r.directory.toList, r.tokensText] := by
  have hfield (text : String) (htext : text ∈ [r.pid, r.ppid, r.function, r.directory]) :
      fieldSeparator ∉ text.toList :=
    (h.separators text (List.mem_append_left r.command htext)).2
  have htokens : fieldSeparator ∉ r.tokensText := by
    intro hmem
    obtain ⟨piece, hpiece, hseparator⟩ := List.mem_flatMap.mp hmem
    obtain ⟨token, htoken, rfl⟩ := List.mem_map.mp hpiece
    rcases List.mem_append.mp hseparator with htext | hend
    · exact (h.separators token (List.mem_append_right _ htoken)).2 htext
    · exact absurd (List.mem_singleton.mp hend) (by decide)
  rw [Record.groupText,
    List.splitOn_append_cons_self_of_not_mem (hfield r.pid (by simp)),
    List.splitOn_append_cons_self_of_not_mem (hfield r.ppid (by simp)),
    List.splitOn_append_cons_self_of_not_mem (hfield r.function (by simp)),
    List.splitOn_append_cons_self_of_not_mem (hfield r.directory (by simp)),
    List.splitOn_eq_singleton htokens]

theorem parseGroup_groupText {r : Record} (h : r.WellFormed) :
    parseGroup r.groupText = some r := by
  have hdirectory : r.directory.toList ≠ [] := by simpa using h.directory_ne
  rw [parseGroup, splitOn_groupText h]
  simp [parseTokens_tokensText h.tokens, hdirectory, h.command_ne]

/-- There are no blanks around the group of a well-formed record. -/
theorem trim_groupText {r : Record} (h : r.WellFormed) :
    Text.trim Text.isAsciiBlank r.groupText = r.groupText := by
  refine Text.trim_eq_self (fun c hc => ?_) (fun c hc => ?_)
  · -- the group begins with the first field, or with what ends it
    rw [Record.groupText, List.head?_append] at hc
    cases hpid : r.pid.toList.head? with
    | none =>
      rw [hpid] at hc
      obtain rfl : fieldSeparator = c := Option.some.inj hc
      rfl
    | some first =>
      rw [hpid] at hc
      obtain rfl : first = c := Option.some.inj hc
      exact h.start first hpid
  · -- the last argument is ended by a separator
    obtain ⟨init, last, hcommand⟩ := (List.eq_nil_or_concat r.command).resolve_left h.command_ne
    rw [Record.groupText, Record.tokensText, hcommand] at hc
    obtain rfl : tokenSeparator = c := by simpa [List.getLast?_append, List.getLast?_cons] using hc
    rfl

theorem groupSeparator_not_mem_groupText {r : Record} (h : r.WellFormed) :
    groupSeparator ∉ r.groupText := by
  have hfield (text : String) (htext : text ∈ [r.pid, r.ppid, r.function, r.directory]) :
      groupSeparator ∉ text.toList :=
    (h.separators text (List.mem_append_left r.command htext)).1
  have htoken (token : String) (htoken : token ∈ r.command) : groupSeparator ∉ token.toList :=
    (h.separators token (List.mem_append_right _ htoken)).1
  have hne : groupSeparator ≠ fieldSeparator ∧ groupSeparator ≠ tokenSeparator := by decide
  simp only [Record.groupText, Record.tokensText, List.mem_append, List.mem_cons, List.mem_flatMap,
    List.mem_map, hfield r.pid (by simp), hfield r.ppid (by simp), hfield r.function (by simp),
    hfield r.directory (by simp), hne.1, false_or]
  rintro ⟨_, ⟨token, hmem, rfl⟩, hseparator | hend⟩
  · exact htoken token hmem hseparator
  · exact hne.2 (by simpa using hend)

theorem parse_flatMap_encode {records : List Record} (h : ∀ r ∈ records, r.WellFormed) :
    parse (String.join (records.map Record.encode)) = records := by
  have hgroups : ∀ group ∈ records.map Record.groupText, groupSeparator ∉ group := by
    intro group hgroup
    obtain ⟨r, hr, rfl⟩ := List.mem_map.mp hgroup
    exact groupSeparator_not_mem_groupText (h r hr)
  rw [parse, toList_encodeAll, Text.splitOn_flatMap_ended hgroups, List.filterMap_append,
    List.filterMap_map]
  -- the empty piece behind the last group gives nothing
  have hempty : List.filterMap (fun group : List Char =>
      let group := Text.trim Text.isAsciiBlank group
      if group.isEmpty then none else parseGroup group) [[]] = [] := rfl
  rw [hempty, List.append_nil]
  refine (List.filterMap_congr fun r hr => ?_).trans (List.filterMap_some ..)
  have hne : r.groupText ≠ [] := by simp [Record.groupText]
  simp only [Function.comp_apply, trim_groupText (h r hr), List.isEmpty_iff, hne, if_false,
    parseGroup_groupText (h r hr)]

/-! ### What is read -/

theorem mem_parseTokens {field : List Char} {token : String} (h : token ∈ parseTokens field) :
    token.toList ∈ field.splitOn tokenSeparator := by
  obtain ⟨piece, hpiece, rfl⟩ := List.mem_map.mp h
  rw [String.toList_ofList]
  split at hpiece
  · exact List.dropLast_subset _ hpiece
  · exact hpiece

theorem parseGroup_eq_some {group : List Char} {r : Record} (h : parseGroup group = some r) :
    ∃ tokens rest, group.splitOn fieldSeparator = r.pid.toList :: r.ppid.toList ::
        r.function.toList :: r.directory.toList :: tokens :: rest ∧
      r.command = parseTokens tokens ∧ r.directory ≠ "" ∧ r.command ≠ [] := by
  unfold parseGroup at h
  split at h
  · rename_i pid ppid function directory tokens rest hsplit
    simp only [Option.ite_none_left_eq_some, Bool.or_eq_true, List.isEmpty_iff, not_or,
      Option.some.injEq] at h
    obtain ⟨⟨hdirectory, hcommand⟩, rfl⟩ := h
    refine ⟨tokens, rest, ?_, rfl, ?_, hcommand⟩
    · simpa only [String.toList_ofList] using hsplit
    · simpa using hdirectory
  · cases h

/-- What is read from a group without blanks around it is well-formed. -/
theorem wellFormed_of_parseGroup {group : List Char} {r : Record}
    (hstart : ∀ c, group.head? = some c → Text.isAsciiBlank c = false)
    (hgroup : groupSeparator ∉ group) (h : parseGroup group = some r) : r.WellFormed := by
  obtain ⟨tokens, rest, hsplit, hcommand, hdirectory, hne⟩ := parseGroup_eq_some h
  have hpiece (piece : List Char) (hmem : piece ∈ r.pid.toList :: r.ppid.toList ::
      r.function.toList :: r.directory.toList :: tokens :: rest) :
      groupSeparator ∉ piece ∧ fieldSeparator ∉ piece := by
    obtain ⟨hfield, hsubset⟩ := Text.subset_of_mem_splitOn (hsplit ▸ hmem)
    exact ⟨fun hseparator => hgroup (hsubset hseparator), hfield⟩
  have htoken (token : String) (hmem : token ∈ r.command) :
      tokenSeparator ∉ token.toList ∧ token.toList ⊆ tokens :=
    Text.subset_of_mem_splitOn (mem_parseTokens (hcommand ▸ hmem))
  refine ⟨hdirectory, hne, fun text htext => ?_, fun token hmem => (htoken token hmem).1,
    fun c hc => ?_⟩
  · rcases List.mem_append.mp htext with hfield | hmem
    · refine hpiece text.toList ?_
      simp only [List.mem_cons, List.not_mem_nil, or_false] at hfield
      rcases hfield with rfl | rfl | rfl | rfl
      all_goals simp
    · -- an argument holds nothing but what its field holds
      have hfield := hpiece tokens (by simp)
      have hsubset := (htoken text hmem).2
      exact ⟨fun hseparator => hfield.1 (hsubset hseparator),
        fun hseparator => hfield.2 (hsubset hseparator)⟩
  · obtain ⟨more, rfl⟩ := Text.prefix_of_splitOn_eq_cons hsplit
    exact hstart c (by rw [List.head?_append, hc]; rfl)

theorem wellFormed_of_mem_parse {content : String} {r : Record} (h : r ∈ parse content) :
    r.WellFormed := by
  obtain ⟨group, hgroup, hr⟩ := List.mem_filterMap.mp h
  obtain ⟨hseparator, -⟩ := Text.subset_of_mem_splitOn hgroup
  simp only [Option.ite_none_left_eq_some] at hr
  refine wellFormed_of_parseGroup (fun c hc => Text.head?_trim hc) (fun hmem => ?_) hr.2
  exact hseparator (Text.trim_subset Text.isAsciiBlank group hmem)

/-- **Records are read back from a trace just if each of them is well-formed**;
all that is read from any text is, so it can be written and read again. -/
theorem parse_encode_iff :
    (∀ records : List Record, parse (String.join (records.map Record.encode)) = records ↔
      ∀ r ∈ records, r.WellFormed) ∧
    (∀ content, ∀ r ∈ parse content, r.WellFormed) ∧
    ∀ content, parse (String.join ((parse content).map Record.encode)) = parse content := by
  refine ⟨fun records => ⟨fun h r hr => ?_, parse_flatMap_encode⟩,
    fun content r hr => wellFormed_of_mem_parse hr,
    fun content => parse_flatMap_encode fun r hr => wellFormed_of_mem_parse hr⟩
  rw [← h] at hr
  exact wellFormed_of_mem_parse hr

end CompilationDatabase.Trace
