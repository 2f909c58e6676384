/-
A JSON document that is written on lines of its own is read back.

The documents are those whose strings are texts and that have no numbers
(`Json.IsTextual`); nothing else is written into a database.  A number of steps
that is not smaller than the length of the written document is enough to read
it, whatever follows.

* `value?_pretty` — a written document is read up to its end;
* `parse?_pretty` — a text that is a written document and a line feed is read
  as the document.
-/
import CompilationDatabase.Proofs.Json.Text

namespace CompilationDatabase.Json

mutual

/-- Whether the document has no numbers, and all its strings are texts. -/
def IsTextual : Json → Prop
  | null => True
  | bool _ => True
  | number _ => False
  | string text? => text?.isSome
  | array items => AllTextual items
  | object members => AllMembersTextual members

/-- Whether all the items are textual. -/
def AllTextual : List Json → Prop
  | [] => True
  | item :: items => IsTextual item ∧ AllTextual items

/-- Whether all the keys are texts and all the values textual. -/
def AllMembersTextual : List (Option String × Json) → Prop
  | [] => True
  | (key?, value) :: members => key?.isSome ∧ IsTextual value ∧ AllMembersTextual members

end

/-! ### Blanks -/

@[simp] theorem skipSpace_newline (level : Nat) (text : List Char) :
    skipSpace (newline level ++ text) = skipSpace text := by
  -- the line feed is one blank more, and then only spaces are left
  have hblanks (n : Nat) : skipSpace (List.replicate n ' ' ++ text) = skipSpace text := by
    induction n with
    | zero => rfl
    | succ n ih => rw [List.replicate_succ, List.cons_append, ← ih]; rfl
  exact hblanks (4 * level)

theorem skipSpace_cons {c : Char} (h : isSpace c = false) (text : List Char) :
    skipSpace (c :: text) = c :: text := by
  simp [skipSpace, h]

/-- Blanks before a document do not count. -/
theorem value?_congr (n : Nat) {a b : List Char} (h : skipSpace a = skipSpace b) :
    value? n a = value? n b := by
  cases n with
  | zero => rfl
  | succ n => rw [value?, value?, h]

theorem items?_congr (n : Nat) {a b : List Char} (h : skipSpace a = skipSpace b) :
    items? n a = items? n b := by
  cases n with
  | zero => rfl
  | succ n => rw [items?, items?, value?_congr n h]

theorem members?_congr (n : Nat) {a b : List Char} (h : skipSpace a = skipSpace b) :
    members? n a = members? n b := by
  cases n with
  | zero => rfl
  | succ n => rw [members?, members?, h]

/-! ### One step of the reader -/

/-- An array with an item is read item by item. -/
theorem value?_array {n : Nat} {text rest : List Char} {c : Char} (h : skipSpace text = c :: rest)
    (hc : c ≠ ']') :
    value? (n + 1) ('[' :: text)
      = (items? n (c :: rest)).map fun (items, rest) => (array items, rest) := by
  rw [value?, skipSpace_cons (by decide)]
  simp only [h]
  split
  · rename_i heq
    exact absurd (List.cons.inj heq).1 hc
  · rfl

/-- An object with a member is read member by member. -/
theorem value?_object {n : Nat} {text rest : List Char} {c : Char} (h : skipSpace text = c :: rest)
    (hc : c ≠ '\x7d') :
    value? (n + 1) ('\x7b' :: text)
      = (members? n (c :: rest)).map fun (members, rest) => (object members, rest) := by
  rw [value?, skipSpace_cons (by decide)]
  simp only [h]
  split
  · rename_i heq
    exact absurd (List.cons.inj heq).1 hc
  · rfl

theorem items?_last {n : Nat} {text behind rest : List Char} {item : Json}
    (hitem : value? n text = some (item, behind)) (hclose : skipSpace behind = ']' :: rest) :
    items? (n + 1) text = some ([item], rest) := by
  simp [items?, hitem, hclose]

theorem items?_more {n : Nat} {text behind next rest : List Char} {item : Json} {items : List Json}
    (hitem : value? n text = some (item, behind)) (hcomma : skipSpace behind = ',' :: next)
    (hitems : items? n next = some (items, rest)) :
    items? (n + 1) text = some (item :: items, rest) := by
  simp [items?, hitem, hcomma, hitems]

theorem skipSpace_quoted (key : String) (text : List Char) :
    skipSpace (quoted key ++ text) = '"' :: (key.toList.flatMap escapeChar ++ '"' :: text) := by
  simp [quoted, skipSpace, isSpace]

theorem members?_last {n : Nat} {key : String} {text behind rest : List Char} {value : Json}
    (hvalue : value? n text = some (value, behind)) (hclose : skipSpace behind = '\x7d' :: rest) :
    members? (n + 1) (quoted key ++ ':' :: ' ' :: text) = some ([(some key, value)], rest) := by
  have hcolon : skipSpace (':' :: ' ' :: text) = ':' :: ' ' :: text := skipSpace_cons (by decide) _
  have hblank : value? n (' ' :: text) = some (value, behind) := hvalue ▸ value?_congr n rfl
  simp [members?, skipSpace_quoted, text?_quoted, hcolon, hblank, hclose]

theorem members?_more {n : Nat} {key : String} {text behind next rest : List Char} {value : Json}
    {members : List (Option String × Json)} (hvalue : value? n text = some (value, behind))
    (hcomma : skipSpace behind = ',' :: next) (hmembers : members? n next = some (members, rest)) :
    members? (n + 1) (quoted key ++ ':' :: ' ' :: text)
      = some ((some key, value) :: members, rest) := by
  have hcolon : skipSpace (':' :: ' ' :: text) = ':' :: ' ' :: text := skipSpace_cons (by decide) _
  have hblank : value? n (' ' :: text) = some (value, behind) := hvalue ▸ value?_congr n rfl
  simp [members?, skipSpace_quoted, text?_quoted, hcolon, hblank, hcomma, hmembers]

/-! ### Whole documents -/

/-- The items of an array as they are written at a level. -/
def itemsText (level : Nat) (items : List Json) : List Char :=
  separated (',' :: newline level) (prettyItems level items)

/-- The members of an object as they are written at a level. -/
def membersText (level : Nat) (members : List (Option String × Json)) : List Char :=
  separated (',' :: newline level) (prettyMembers level members)

theorem pretty_array_cons (level : Nat) (item : Json) (items : List Json) :
    pretty level (array (item :: items))
      = '[' :: (newline (level + 1) ++ (itemsText (level + 1) (item :: items)
          ++ (newline level ++ [']']))) := by
  simp [pretty, prettyItems, block, itemsText]

theorem pretty_object_cons (level : Nat) (member : Option String × Json)
    (members : List (Option String × Json)) :
    pretty level (object (member :: members))
      = '\x7b' :: (newline (level + 1) ++ (membersText (level + 1) (member :: members)
          ++ (newline level ++ ['\x7d']))) := by
  simp [pretty, prettyMembers, block, membersText]

theorem itemsText_cons_cons (level : Nat) (first second : Json) (items : List Json) :
    itemsText level (first :: second :: items)
      = pretty level first ++ ',' :: (newline level ++ itemsText level (second :: items)) := by
  simp [prettyItems, separated, itemsText]

theorem membersText_singleton (level : Nat) (key : String) (value : Json) :
    membersText level [(some key, value)] = quoted key ++ ':' :: ' ' :: pretty level value := rfl

theorem membersText_cons_cons (level : Nat) (key : String) (value : Json)
    (second : Option String × Json) (members : List (Option String × Json)) :
    membersText level ((some key, value) :: second :: members)
      = quoted key ++ ':' :: ' ' :: (pretty level value ++
          ',' :: (newline level ++ membersText level (second :: members))) := by
  simp [prettyMembers, separated, quoted?, membersText]

/-- A written document begins with a character that is no blank and closes no
array. -/
theorem pretty_eq_cons (level : Nat) {document : Json} (h : document.IsTextual) :
    ∃ c text, pretty level document = c :: text ∧ isSpace c = false ∧ c ≠ ']' := by
  cases document with
  | null => exact ⟨'n', _, rfl, by decide⟩
  | bool value => cases value <;> exact ⟨_, _, rfl, by decide⟩
  | number literal => exact absurd h (by simp [IsTextual])
  | string text? => exact ⟨'"', _, rfl, by decide⟩
  | array items =>
    cases items with
    | nil => exact ⟨'[', _, rfl, by decide⟩
    | cons item items => exact ⟨'[', _, pretty_array_cons level item items, by decide⟩
  | object members =>
    cases members with
    | nil => exact ⟨'\x7b', _, rfl, by decide⟩
    | cons member members => exact ⟨'\x7b', _, pretty_object_cons level member members, by decide⟩

theorem itemsText_eq_cons (level : Nat) {item : Json} (h : item.IsTextual) (items : List Json) :
    ∃ c text, itemsText level (item :: items) = c :: text ∧ isSpace c = false ∧ c ≠ ']' := by
  obtain ⟨c, text, htext, hc⟩ := pretty_eq_cons level h
  cases items with
  | nil => exact ⟨c, text, htext, hc⟩
  | cons second items => exact ⟨c, _, by rw [itemsText_cons_cons, htext]; rfl, hc⟩

theorem membersText_eq_cons (level : Nat) (key : String) (value : Json)
    (members : List (Option String × Json)) :
    ∃ text, membersText level ((some key, value) :: members) = '"' :: text := by
  cases members with
  | nil => exact ⟨_, rfl⟩
  | cons second members => exact ⟨_, by rw [membersText_cons_cons]; rfl⟩

mutual

/-- **A written document is read back**, whatever follows it. -/
theorem value?_pretty (level : Nat) (document : Json) (h : document.IsTextual) {n : Nat}
    (hn : (pretty level document).length ≤ n) (rest : List Char) :
    value? n (pretty level document ++ rest) = some (document, rest) := by
  match document, n with
  | null, n + 1 => rfl
  | bool true, n + 1 => rfl
  | bool false, n + 1 => rfl
  | number literal, _ => exact absurd h (by simp [IsTextual])
  | string none, _ => exact absurd h (by simp [IsTextual])
  | string (some text), n + 1 =>
    show value? (n + 1) (quoted text ++ rest) = _
    rw [value?, skipSpace_quoted]
    simp [text?_quoted]
  | array [], n + 1 => rfl
  | array (item :: items), n + 1 =>
    obtain ⟨hitem, hitems⟩ : item.IsTextual ∧ AllTextual items := h
    obtain ⟨c, text, htext, hspace, hclose⟩ := itemsText_eq_cons (level + 1) hitem items
    -- one step is spent on the bracket, and the items are shorter than what is left
    rw [pretty_array_cons] at hn ⊢
    simp only [List.length_cons, List.length_append] at hn
    have hread := items?_itemsText (level + 1) level item items hitem hitems (n := n)
      (by omega) rest
    rw [htext] at hread
    have hstart : skipSpace (newline (level + 1) ++ (itemsText (level + 1) (item :: items)
        ++ (newline level ++ ']' :: rest))) = c :: (text ++ (newline level ++ ']' :: rest)) := by
      rw [skipSpace_newline, htext, List.cons_append, skipSpace_cons hspace]
    have hvalue := value?_array (n := n) hstart hclose
    rw [List.cons_append] at hread
    rw [hread] at hvalue
    simpa using hvalue
  | object [], n + 1 => rfl
  | object ((none, value) :: members), _ => exact absurd h.1 (by simp)
  | object ((some key, value) :: members), n + 1 =>
    obtain ⟨text, htext⟩ := membersText_eq_cons (level + 1) key value members
    rw [pretty_object_cons] at hn ⊢
    simp only [List.length_cons, List.length_append] at hn
    have hread := members?_membersText (level + 1) level (some key, value) members h (n := n)
      (by omega) rest
    rw [htext] at hread
    have hstart : skipSpace (newline (level + 1) ++
        (membersText (level + 1) ((some key, value) :: members)
          ++ (newline level ++ '\x7d' :: rest)))
        = '"' :: (text ++ (newline level ++ '\x7d' :: rest)) := by
      rw [skipSpace_newline, htext, List.cons_append, skipSpace_cons (by decide)]
    have hvalue := value?_object (n := n) hstart (by decide)
    rw [List.cons_append] at hread
    rw [hread] at hvalue
    simpa using hvalue
  | document, 0 =>
    -- a written document is not empty, so there is a step to read it with
    obtain ⟨c, text, htext, -⟩ := pretty_eq_cons level h
    simp [htext] at hn
termination_by n

theorem items?_itemsText (level outer : Nat) (item : Json) (items : List Json)
    (hitem : item.IsTextual) (hitems : AllTextual items) {n : Nat}
    (hn : (itemsText level (item :: items)).length < n) (rest : List Char) :
    items? n (itemsText level (item :: items) ++ (newline outer ++ ']' :: rest))
      = some (item :: items, rest) := by
  match items, n with
  | [], n + 1 =>
    refine items?_last (value?_pretty level item hitem (Nat.le_of_lt_succ hn) _) ?_
    rw [skipSpace_newline, skipSpace_cons (by decide)]
  | second :: items, n + 1 =>
    -- the comma stands right behind the item, the next one on a line of its own
    rw [itemsText_cons_cons] at hn ⊢
    simp only [List.length_cons, List.length_append] at hn
    rw [List.append_assoc, List.cons_append]
    refine items?_more (value?_pretty level item hitem (by omega) _)
      (skipSpace_cons (by decide) _) ?_
    rw [List.append_assoc, items?_congr n (skipSpace_newline level _)]
    exact items?_itemsText level outer second items hitems.1 hitems.2 (by omega) rest
termination_by n

theorem members?_membersText (level outer : Nat) (member : Option String × Json)
    (members : List (Option String × Json)) (hmembers : AllMembersTextual (member :: members))
    {n : Nat} (hn : (membersText level (member :: members)).length < n) (rest : List Char) :
    members? n (membersText level (member :: members) ++ (newline outer ++ '\x7d' :: rest))
      = some (member :: members, rest) := by
  match member, members, n with
  | (none, _), _, _ => exact absurd hmembers.1 (by simp)
  | (some key, value), [], n + 1 =>
    rw [membersText_singleton] at hn ⊢
    simp only [List.length_cons, List.length_append] at hn
    rw [List.append_assoc, List.cons_append, List.cons_append]
    refine members?_last (value?_pretty level value hmembers.2.1 (by omega) _) ?_
    rw [skipSpace_newline, skipSpace_cons (by decide)]
  | (some key, value), second :: members, n + 1 =>
    rw [membersText_cons_cons] at hn ⊢
    simp only [List.length_cons, List.length_append] at hn
    rw [List.append_assoc, List.cons_append, List.cons_append, List.append_assoc, List.cons_append]
    refine members?_more (value?_pretty level value hmembers.2.1 (by omega) _)
      (skipSpace_cons (by decide) _) ?_
    rw [List.append_assoc, members?_congr n (skipSpace_newline level _)]
    exact members?_membersText level outer second members hmembers.2.2 (by omega) rest
termination_by n

end

/-- **A text that is a written document and a line feed is read as the
document.** -/
theorem parse?_pretty (document : Json) (h : document.IsTextual) :
    parse? (String.ofList (pretty 0 document ++ ['\n'])) = some document := by
  have hsteps : (pretty 0 document).length ≤ steps (pretty 0 document ++ ['\n']).length := by
    simp only [steps, List.length_append]
    omega
  simp only [parse?, String.length_ofList, String.toList_ofList, value?_pretty 0 document h hsteps]
  rfl

end CompilationDatabase.Json
