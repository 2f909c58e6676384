/-
The order of texts by their bytes.

Texts are compared by code points, and the system compares names by their bytes.
Both come to the same in UTF-8: the first byte of a character grows with the
number of bytes, and the bytes behind it hold the digits of its code point, the
highest first.

* `bytes_lt_bytes` — a text that comes before another does so by its bytes.
-/
import Mathlib.Algebra.Group.Nat.Defs
import Mathlib.Tactic.SplitIfs

namespace CompilationDatabase.Text

/-- The bytes of a text. -/
def bytes (text : String) : List UInt8 := text.toUTF8.data.toList

theorem bytes_eq_flatMap (text : String) :
    bytes text = text.toList.flatMap String.utf8EncodeChar := by
  rw [bytes, String.toUTF8_eq_toByteArray, ← String.utf8Encode_toList, List.utf8Encode]
  exact List.toList_data_toByteArray

theorem cons_ofNat_lt {m n : Nat} (h : m < n) (hn : n < 256) (s t : List UInt8) :
    UInt8.ofNat m :: s < UInt8.ofNat n :: t := by
  rw [List.cons_lt_cons_iff, UInt8.lt_iff_toNat_lt, UInt8.toNat_ofNat_of_lt' (Nat.lt_trans h hn),
    UInt8.toNat_ofNat_of_lt' hn]
  exact .inl h

/-- The bytes of a number: first its highest digit beside a mark, then `n` more
digits of six bits each. -/
def digits (mark base : Nat) : Nat → Nat → List UInt8
  | 0, v => [UInt8.ofNat (v % base + mark)]
  | n + 1, v => digits mark base n (v / 64) ++ [UInt8.ofNat (v % 64 + 128)]

/-- Where the highest digit has room for it, a greater number has greater bytes. -/
theorem digits_append_lt {mark base : Nat} (hmark : base + mark ≤ 256) (n : Nat) {v w : Nat}
    (h : v < w) (hw : w < base * 64 ^ n) (s t : List UInt8) :
    digits mark base n v ++ s < digits mark base n w ++ t := by
  induction n generalizing v w s t with
  | zero =>
    rw [Nat.pow_zero, Nat.mul_one] at hw
    refine cons_ofNat_lt ?_ ?_ s t
    · rw [Nat.mod_eq_of_lt hw, Nat.mod_eq_of_lt (Nat.lt_trans h hw)]
      omega
    · rw [Nat.mod_eq_of_lt hw]
      omega
  | succ n ih =>
    rw [digits, digits, List.append_assoc, List.append_assoc]
    by_cases hhigh : v / 64 = w / 64
    · rw [hhigh]
      exact List.append_left_lt (cons_ofNat_lt (by omega) (by omega) s t)
    · refine ih (by omega) (Nat.div_lt_of_lt_mul ?_) _ _
      rwa [Nat.mul_comm, Nat.mul_assoc, ← Nat.pow_succ]

/-- The bytes of a character come before those of a greater one, whatever follows. -/
theorem utf8EncodeChar_append_lt {c d : Char} (h : c < d) (s t : List UInt8) :
    String.utf8EncodeChar c ++ s < String.utf8EncodeChar d ++ t := by
  have hlt : c.val.toNat < d.val.toNat := h
  have hmax : d.val.toNat < 1114112 := by
    have hvalid := d.valid
    simp only [UInt32.isValidChar, Nat.isValidChar] at hvalid
    omega
  have htwo {v : Nat} : v / 4096 = v / 64 / 64 := by omega
  have hthree {v : Nat} : v / 262144 = v / 64 / 64 / 64 := by omega
  unfold String.utf8EncodeChar
  dsimp only
  generalize c.val.toNat = v at hlt
  generalize d.val.toNat = w at hlt hmax
  rw [htwo, htwo, hthree, hthree]
  split_ifs
  -- with more bytes the first byte is greater; with fewer the character would be less
  all_goals first
    | omega
    | exact cons_ofNat_lt (by omega) (by omega) _ _
    | skip
  · exact digits_append_lt (by decide) 1 hlt (by omega) s t
  · exact digits_append_lt (by decide) 2 hlt (by omega) s t
  · exact digits_append_lt (by decide) 3 hlt (by omega) s t

theorem flatMap_utf8EncodeChar_lt {l m : List Char} (h : l < m) :
    l.flatMap String.utf8EncodeChar < m.flatMap String.utf8EncodeChar := by
  induction h with
  | nil =>
    rename_i c m
    obtain ⟨byte, rest, hbytes⟩ :=
      List.exists_cons_of_ne_nil (String.utf8EncodeChar_ne_nil : String.utf8EncodeChar c ≠ [])
    rw [List.flatMap_cons, hbytes]
    exact List.nil_lt_cons _ _
  | rel h => exact utf8EncodeChar_append_lt h _ _
  | cons h ih => exact List.append_left_lt ih

/-- **A text that comes before another does so by its bytes.** -/
theorem bytes_lt_bytes {a b : String} (h : a < b) : bytes a < bytes b := by
  rw [bytes_eq_flatMap, bytes_eq_flatMap]
  exact flatMap_utf8EncodeChar_lt h

end CompilationDatabase.Text
