/-
Measuring and cutting text in UTF-8 bytes.

Offsets into a command line count bytes.  A cut succeeds only at the border
of a character: `dropBytes` and `takeBytes` return `none` elsewhere.  A text is
read back from all its bytes (`fromUTF8?_toUTF8`).
-/

namespace CompilationDatabase.Text

/-- The number of bytes of a text. -/
def byteCount : List Char → Nat
  | [] => 0
  | c :: text => c.utf8Size + byteCount text

@[simp] theorem byteCount_nil : byteCount [] = 0 := rfl

@[simp] theorem byteCount_cons (c : Char) (text : List Char) :
    byteCount (c :: text) = c.utf8Size + byteCount text := rfl

@[simp] theorem byteCount_append (a b : List Char) :
    byteCount (a ++ b) = byteCount a + byteCount b := by
  induction a with
  | nil => simp
  | cons c a ih => simp [ih, Nat.add_assoc]

theorem byteCount_pos {text : List Char} (h : text ≠ []) : 0 < byteCount text := by
  cases text with
  | nil => exact absurd rfl h
  | cons c text => exact Nat.add_pos_left c.utf8Size_pos _

/-- The bytes counted are those of the encoded text. -/
theorem byteCount_toList (text : String) : byteCount text.toList = text.utf8ByteSize := by
  induction text using String.push_induction with
  | empty => rfl
  | push text c ih => simp [String.utf8ByteSize_push, ih]

/-- The bytes of a text are read back as the text. -/
theorem fromUTF8?_toUTF8 (text : String) : String.fromUTF8? text.toUTF8 = some text := by
  simp only [String.toUTF8_eq_toByteArray, String.fromUTF8?, text.isValidUTF8, dif_pos]
  rfl

/-- The text after its first `n` bytes. -/
def dropBytes : Nat → List Char → Option (List Char)
  | 0, text => some text
  | _ + 1, [] => none
  | n + 1, c :: text =>
    if c.utf8Size ≤ n + 1 then dropBytes (n + 1 - c.utf8Size) text else none

/-- The first `n` bytes of the text. -/
def takeBytes : Nat → List Char → Option (List Char)
  | 0, _ => some []
  | _ + 1, [] => none
  | n + 1, c :: text =>
    if c.utf8Size ≤ n + 1 then (takeBytes (n + 1 - c.utf8Size) text).map (c :: ·) else none

theorem dropBytes_cons {c : Char} {n : Nat} (text : List Char) :
    dropBytes (c.utf8Size + n) (c :: text) = dropBytes n text := by
  obtain ⟨m, hm⟩ := Nat.exists_eq_add_one.mpr c.utf8Size_pos
  rw [hm, Nat.add_right_comm, dropBytes, if_pos (by omega)]
  congr 1
  omega

theorem takeBytes_cons {c : Char} {n : Nat} (text : List Char) :
    takeBytes (c.utf8Size + n) (c :: text) = (takeBytes n text).map (c :: ·) := by
  obtain ⟨m, hm⟩ := Nat.exists_eq_add_one.mpr c.utf8Size_pos
  rw [hm, Nat.add_right_comm, takeBytes, if_pos (by omega)]
  congr 2
  omega

/-- What is cut off by its number of bytes is cut off at its end. -/
theorem dropBytes_append (a b : List Char) : dropBytes (byteCount a) (a ++ b) = some b := by
  induction a with
  | nil => rw [byteCount_nil, List.nil_append, dropBytes]
  | cons c a ih => rw [byteCount_cons, List.cons_append, dropBytes_cons, ih]

theorem takeBytes_append (a b : List Char) : takeBytes (byteCount a) (a ++ b) = some a := by
  induction a with
  | nil => rw [byteCount_nil, takeBytes]
  | cons c a ih => rw [byteCount_cons, List.cons_append, takeBytes_cons, ih]; rfl

end CompilationDatabase.Text
