/-
The characters of a written document.

What stands around the strings of a document is printed in line feeds and characters from
the space on, and in its strings the control characters are escaped.  So no control
character is left but line feeds (`isPrintable_pretty`).
-/
import CompilationDatabase.Proofs.Json.Document

namespace CompilationDatabase.Json

/-- Whether the text has no control characters but line feeds. -/
def IsPrintable (text : List Char) : Prop := ∀ c ∈ text, c = '\n' ∨ 0x20 ≤ c.toNat

instance (text : List Char) : Decidable (IsPrintable text) :=
  decidable_of_iff (text.all (fun c => c = '\n' ∨ 0x20 ≤ c.toNat) = true)
    (by simp [IsPrintable, List.all_eq_true])

theorem isPrintable_append {a b : List Char} :
    IsPrintable (a ++ b) ↔ IsPrintable a ∧ IsPrintable b := List.forall_mem_append

theorem isPrintable_cons {c : Char} {text : List Char} :
    IsPrintable (c :: text) ↔ IsPrintable [c] ∧ IsPrintable text :=
  isPrintable_append (a := [c])

/-! ### Strings -/

theorem isPrintable_hexDigits (n value : Nat) : IsPrintable (Text.hexDigits n value) := by
  have hdigit : ∀ digit < 16, IsPrintable [Text.hexDigit digit] := by decide
  induction n with
  | zero => exact nofun
  | succ n ih => exact isPrintable_cons.mpr ⟨hdigit _ (Nat.mod_lt _ (by decide)), ih⟩

theorem isPrintable_escapeLetter {c letter : Char} (h : escapeLetter? c = some letter) :
    IsPrintable [letter] := by
  unfold escapeLetter? at h
  split at h
  all_goals first
    | (obtain rfl := Option.some.inj h; decide)
    | cases h

theorem isPrintable_escapeChar (c : Char) : IsPrintable (escapeChar c) := by
  unfold escapeChar
  split
  · rename_i letter hletter
    exact isPrintable_cons.mpr ⟨by decide, isPrintable_escapeLetter hletter⟩
  · split
    · exact isPrintable_append.mpr
        ⟨(by decide : IsPrintable ['\\', 'u']), isPrintable_hexDigits 4 c.toNat⟩
    · rename_i hcontrol
      intro other hother
      rw [List.mem_singleton.mp hother]
      exact .inr (Nat.le_of_not_lt hcontrol)

theorem isPrintable_quoted (text : String) : IsPrintable (quoted text) := by
  have hquote : IsPrintable ['"'] := by decide
  refine isPrintable_cons.mpr ⟨hquote, isPrintable_append.mpr ⟨fun other hother => ?_, hquote⟩⟩
  obtain ⟨c, -, hc⟩ := List.mem_flatMap.mp hother
  exact isPrintable_escapeChar c other hc

/-! ### Documents -/

theorem isPrintable_newline (level : Nat) : IsPrintable (newline level) := by
  refine isPrintable_cons.mpr ⟨by decide, fun c hc => ?_⟩
  rw [List.eq_of_mem_replicate hc]
  decide

theorem isPrintable_separated {separator : List Char} {pieces : List (List Char)}
    (hseparator : IsPrintable separator) (h : ∀ piece ∈ pieces, IsPrintable piece) :
    IsPrintable (separated separator pieces) := by
  induction pieces with
  | nil => exact nofun
  | cons piece rest ih =>
    obtain ⟨hpiece, hrest⟩ := List.forall_mem_cons.mp h
    cases rest with
    | nil => exact hpiece
    | cons second rest =>
      exact isPrintable_append.mpr ⟨isPrintable_append.mpr ⟨hpiece, hseparator⟩, ih hrest⟩

theorem isPrintable_block {opening closing : Char} {pieces : List (List Char)} (level : Nat)
    (hopening : IsPrintable [opening]) (hclosing : IsPrintable [closing])
    (h : ∀ piece ∈ pieces, IsPrintable piece) :
    IsPrintable (block level opening closing pieces) := by
  unfold block
  split
  · exact isPrintable_cons.mpr ⟨hopening, hclosing⟩
  · have hbreak : IsPrintable (',' :: newline (level + 1)) :=
      isPrintable_cons.mpr ⟨by decide, isPrintable_newline (level + 1)⟩
    refine isPrintable_append.mpr ⟨isPrintable_append.mpr ⟨?_, isPrintable_newline level⟩, hclosing⟩
    exact isPrintable_append.mpr ⟨isPrintable_cons.mpr ⟨hopening, isPrintable_newline (level + 1)⟩,
      isPrintable_separated hbreak h⟩

mutual

/-- **A written document has no control characters but line feeds.** -/
theorem isPrintable_pretty (level : Nat) (document : Json) (h : document.IsTextual) :
    IsPrintable (pretty level document) := by
  match document with
  | null => exact (by decide : IsPrintable "null".toList)
  | bool true => exact (by decide : IsPrintable "true".toList)
  | bool false => exact (by decide : IsPrintable "false".toList)
  | number literal => exact absurd h (by simp [IsTextual])
  | string none => exact absurd h (by simp [IsTextual])
  | string (some text) => exact isPrintable_quoted text
  | array items =>
    exact isPrintable_block level (by decide) (by decide) (isPrintable_items (level + 1) items h)
  | object members =>
    exact isPrintable_block level (by decide) (by decide)
      (isPrintable_members (level + 1) members h)

theorem isPrintable_items (level : Nat) (items : List Json) (h : AllTextual items) :
    ∀ piece ∈ prettyItems level items, IsPrintable piece := by
  match items with
  | [] => exact nofun
  | item :: items =>
    exact List.forall_mem_cons.mpr
      ⟨isPrintable_pretty level item h.1, isPrintable_items level items h.2⟩

theorem isPrintable_members (level : Nat) (members : List (Option String × Json))
    (h : AllMembersTextual members) :
    ∀ piece ∈ prettyMembers level members, IsPrintable piece := by
  match members with
  | [] => exact nofun
  | (none, value) :: members => exact absurd h.1 (by simp)
  | (some key, value) :: members =>
    obtain ⟨-, hvalue, hmembers⟩ := h
    have hcolon : IsPrintable [':', ' '] := by decide
    exact List.forall_mem_cons.mpr ⟨isPrintable_append.mpr ⟨isPrintable_quoted key,
      isPrintable_append.mpr ⟨hcolon, isPrintable_pretty level value hvalue⟩⟩,
      isPrintable_members level members hmembers⟩

end

end CompilationDatabase.Json
