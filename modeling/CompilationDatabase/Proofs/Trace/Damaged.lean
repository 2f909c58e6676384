/-
Traces with damaged groups.

A group is read on its own, up to the separators around it and without the blanks at
its ends.  So what stands before a separator and what stands behind it are read as if
they were alone (`parse_append_separator`), and a group that holds no record costs
only itself.

* `parseGroup_eq_none_iff` — the groups that hold no record;
* `parse_damaged` — a trace gives the records of its whole groups, whatever stands
  between them.
-/
import CompilationDatabase.Proofs.Trace.Codec

namespace CompilationDatabase.Trace

/-- Whether the text is made of blanks of ASCII. -/
def IsBlank (text : String) : Prop := ∀ c ∈ text.toList, Text.isAsciiBlank c = true

instance (text : String) : Decidable (IsBlank text) :=
  decidable_of_iff (text.toList.all Text.isAsciiBlank = true) List.all_eq_true

theorem isBlank_empty : IsBlank "" := by simp [IsBlank]

/-! ### Reading group by group -/

/-- What is read from a group, with the blanks around it. -/
def readGroup (group : List Char) : Option Record :=
  parseGroup (Text.trim Text.isAsciiBlank group)

theorem parse_eq_filterMap (content : String) :
    parse content = (content.toList.splitOn groupSeparator).filterMap readGroup := by
  refine List.filterMap_congr fun group _ => ?_
  simp only [readGroup]
  split
  · -- an empty group has only one field
    rename_i hempty
    rw [List.isEmpty_iff.mp hempty]
    rfl
  · rfl

theorem groupSeparator_not_mem_of_isBlank {blanks : String} (h : IsBlank blanks) :
    groupSeparator ∉ blanks.toList := fun hmem =>
  absurd (h groupSeparator hmem) (by decide)

theorem readGroup_blanks {before after : String} (hbefore : IsBlank before) (hafter : IsBlank after)
    (group : List Char) :
    readGroup (before.toList ++ group ++ after.toList) = readGroup group := by
  rw [readGroup, readGroup, Text.trim_append_append hbefore hafter]

/-- Blanks before a text are lost with those of its first group. -/
theorem parse_blanks_append {blanks : String} (h : IsBlank blanks) (content : String) :
    parse (blanks ++ content) = parse content := by
  obtain ⟨first, rest, hsplit⟩ :=
    List.exists_cons_of_ne_nil (List.splitOn_ne_nil groupSeparator content.toList)
  have hfirst : readGroup (blanks.toList ++ first) = readGroup first := by
    simpa using readGroup_blanks h isBlank_empty first
  rw [parse_eq_filterMap, parse_eq_filterMap, String.toList_append,
    Text.append_splitOn_of_not_mem (groupSeparator_not_mem_of_isBlank h), hsplit,
    List.modifyHead_cons, List.filterMap_cons, List.filterMap_cons, hfirst]

/-- Blanks behind a text are lost with those of its last group. -/
theorem parse_append_blanks {blanks : String} (h : IsBlank blanks) (content : String) :
    parse (content ++ blanks) = parse content := by
  have hne := List.splitOn_ne_nil groupSeparator content.toList
  have hlast : readGroup ((content.toList.splitOn groupSeparator).getLast hne ++ blanks.toList)
      = readGroup ((content.toList.splitOn groupSeparator).getLast hne) := by
    simpa using readGroup_blanks isBlank_empty h _
  conv_rhs => rw [parse_eq_filterMap, ← List.dropLast_append_getLast hne]
  rw [parse_eq_filterMap, String.toList_append,
    Text.splitOn_append_of_not_mem (groupSeparator_not_mem_of_isBlank h), List.filterMap_append,
    List.filterMap_append, List.filterMap_cons, List.filterMap_cons, hlast]

/-- What stands before a separator and what stands behind it are read alone. -/
theorem parse_append_separator (a b : String) : parse (a ++ "\x1d" ++ b) = parse a ++ parse b := by
  have htext : (a ++ "\x1d" ++ b).toList = a.toList ++ groupSeparator :: b.toList := by
    simp [groupSeparator]
  rw [parse_eq_filterMap, parse_eq_filterMap, parse_eq_filterMap, htext,
    List.splitOn_append_cons_self, List.filterMap_append]

/-- So are they with any blanks around the separator. -/
theorem parse_append_blank_separator (a b : String) {before after : String}
    (hbefore : IsBlank before) (hafter : IsBlank after) :
    parse (a ++ before ++ "\x1d" ++ after ++ b) = parse a ++ parse b := by
  rw [String.append_assoc, parse_append_separator, parse_append_blanks hbefore,
    parse_blanks_append hafter]

/-! ### Groups that hold no record -/

theorem parseTokens_eq_nil_iff (field : List Char) : parseTokens field = [] ↔ field = [] := by
  refine ⟨fun h => ?_, fun h => by rw [h]; rfl⟩
  unfold parseTokens at h
  rw [List.map_eq_nil_iff] at h
  split at h
  · -- the piece that is left out is the only one
    rename_i hlast
    obtain ⟨init, hinit⟩ := List.getLast?_eq_some_iff.mp hlast
    rw [hinit, List.dropLast_concat] at h
    have hfield : [tokenSeparator].intercalate (field.splitOn tokenSeparator) = field :=
      List.intercalate_splitOn tokenSeparator
    rw [← hfield, hinit, h]
    rfl
  · exact absurd h (List.splitOn_ne_nil _ _)

/-- A group holds no record just if it has fewer than five fields, or the directory or
the arguments are missing. -/
theorem parseGroup_eq_none_iff (group : List Char) :
    parseGroup group = none ↔
      let fields := group.splitOn fieldSeparator
      fields.length < 5 ∨ fields[3]? = some [] ∨ fields[4]? = some [] := by
  unfold parseGroup
  split
  · rename_i pid ppid function directory tokens rest hsplit
    have hlength : ¬ rest.length + 1 + 1 + 1 + 1 + 1 < 5 := by omega
    simp [hsplit, parseTokens_eq_nil_iff, hlength, or_iff_not_imp_left]
  · rename_i hfew
    refine iff_of_true rfl (.inl ?_)
    generalize group.splitOn fieldSeparator = fields at hfew
    rcases fields with _ | ⟨pid, _ | ⟨ppid, _ | ⟨function, _ | ⟨directory, _ | ⟨tokens, rest⟩⟩⟩⟩⟩
    case cons.cons.cons.cons.cons => exact (hfew _ _ _ _ _ _ rfl).elim
    all_goals simp

/-! ### Whole and damaged groups side by side -/

/-- A group of a trace. -/
inductive Group where
  /-- That of a record, as it is written. -/
  | whole (record : Record)
  /-- Any other text. -/
  | damaged (text : String)

namespace Group

/-- The group with the separator that ends it. -/
def text : Group → String
  | whole record => record.encode
  | damaged text => text ++ "\x1d"

/-- The record of a whole group. -/
def record? : Group → Option Record
  | whole record => some record
  | damaged _ => none

/-- A record that a trace can hold, or a text that ends no group and has too few fields, no
directory or no arguments, once the blanks around it are gone. -/
def Sound : Group → Prop
  | whole record => record.WellFormed
  | damaged text => groupSeparator ∉ text.toList ∧
      let fields := (Text.trim Text.isAsciiBlank text.toList).splitOn fieldSeparator
      fields.length < 5 ∨ fields[3]? = some [] ∨ fields[4]? = some []

end Group

/-- Groups with the blanks before each, and the blanks behind the last. -/
def writeGroups (groups : List (String × Group)) (last : String) : String :=
  String.join (groups.map fun group => group.1 ++ group.2.text) ++ last

theorem parse_ofList {group : List Char} (h : groupSeparator ∉ group) :
    parse (String.ofList group) = (readGroup group).toList := by
  rw [parse_eq_filterMap, String.toList_ofList, List.splitOn_eq_singleton h]
  cases hread : readGroup group <;> simp [hread]

/-- A group gives its record, if it is whole, and what follows is read alone. -/
theorem Group.parse_text_append {group : Group} (h : group.Sound) (rest : String) :
    parse (group.text ++ rest) = group.record?.toList ++ parse rest := by
  cases group with
  | whole record =>
    have htext : record.encode = String.ofList record.groupText ++ "\x1d" := by
      rw [← String.toList_inj, Record.toList_encode]
      simp [groupSeparator]
    have hread : readGroup record.groupText = some record := by
      rw [readGroup, trim_groupText h, parseGroup_groupText h]
    rw [Group.text, htext, parse_append_separator,
      parse_ofList (groupSeparator_not_mem_groupText h), hread]
    rfl
  | damaged text =>
    have hread : readGroup text.toList = none := (parseGroup_eq_none_iff _).mpr h.2
    have hparse := parse_ofList h.1
    rw [String.ofList_toList, hread] at hparse
    rw [Group.text, parse_append_separator, hparse]
    rfl

/-- **A damaged group never affects its neighbours.**  What stands before a separator and
what stands behind it are read alone, with any blanks around it; so a trace of whole and
damaged groups gives the records of the whole ones, in order. -/
theorem parse_damaged :
    (∀ a b before after : String, IsBlank before → IsBlank after →
      parse (a ++ before ++ "\x1d" ++ after ++ b) = parse a ++ parse b) ∧
    ∀ (groups : List (String × Group)) (last : String),
      (∀ group ∈ groups, IsBlank group.1 ∧ group.2.Sound) → IsBlank last →
        parse (writeGroups groups last) = groups.filterMap (·.2.record?) := by
  refine ⟨fun a b before after => parse_append_blank_separator a b, fun groups last h hlast => ?_⟩
  unfold writeGroups
  induction groups with
  | nil => exact parse_append_blanks hlast ""
  | cons group groups ih =>
    obtain ⟨⟨hblank, hsound⟩, hrest⟩ := List.forall_mem_cons.mp h
    have htext : String.join ((group :: groups).map fun group => group.1 ++ group.2.text) ++ last
        = group.1 ++ (group.2.text ++
          (String.join (groups.map fun group => group.1 ++ group.2.text) ++ last)) := by
      rw [← String.toList_inj]
      simp
    rw [htext, parse_blanks_append hblank, Group.parse_text_append hsound, ih hrest,
      List.filterMap_cons]
    cases group.2.record? <;> rfl

/-- A group that breaks off, one without arguments and one that is never ended stand
around that of a record. -/
theorem parse_damaged_around :
    let record : Record := ⟨"7", "1", "execve", "/b", ["cc", "", "a b"]⟩
    let groups := [("\n", .damaged "7\x1e1"), (" \t", .whole record),
      ("", .damaged "8\x1e1\x1eexecve\x1e/b\x1e \n")]
    (∀ group ∈ groups, IsBlank group.1 ∧ group.2.Sound) ∧
      parse (writeGroups groups "\r\n") = [record] ∧
      parse (writeGroups groups "\r\n" ++ " " ++ "\x1d" ++ "\n" ++ "9\x1e1") = [record] := by
  intro record groups
  have hstart : ∀ c, record.pid.toList.head? = some c → Text.isAsciiBlank c = false := by
    rintro c hc
    obtain rfl : '7' = c := by simpa [record] using hc
    decide
  have hrecord : record.WellFormed :=
    ⟨by decide, by decide, by decide +kernel, by decide +kernel, hstart⟩
  have hgroups : ∀ group ∈ groups, IsBlank group.1 ∧ group.2.Sound := by
    simp only [groups, List.forall_mem_cons, Group.Sound]
    exact ⟨⟨by decide, by decide, by decide +kernel⟩, ⟨by decide, hrecord⟩,
      ⟨by decide, by decide, by decide +kernel⟩, by simp⟩
  have hwhole : parse (writeGroups groups "\r\n") = [record] :=
    parse_damaged.2 groups "\r\n" hgroups (by decide)
  refine ⟨hgroups, hwhole, ?_⟩
  rw [parse_damaged.1 _ "9\x1e1" " " "\n" (by decide) (by decide), hwhole]
  rfl

end CompilationDatabase.Trace
