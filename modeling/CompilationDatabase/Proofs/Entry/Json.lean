/-
A list of entries that is written is read back.

The document of an entry has its keys once each, so reading finds every value
that was written (`Entry.ofJson?_toJson`); that an entry has no objects shows
in the key that is left out, not in an empty array.

* `parseEntries?_renderEntries` — the entries of a written database are those
  it was written for, in their order;
* `renderEntries_injective` — so the text shows them all.
-/
import CompilationDatabase.Entry.Json
import CompilationDatabase.Proofs.Json.Document

namespace CompilationDatabase

/-- If each item is read back, so are all of them. -/
theorem mapM_map_eq_some {α β : Type} {write : α → β} {read : β → Option α}
    (h : ∀ a, read (write a) = some a) (as : List α) : (as.map write).mapM read = some as := by
  induction as with
  | nil => rfl
  | cons a as ih => rw [List.map_cons, List.mapM_cons, h, ih]; rfl

theorem Json.allTextual_map {α : Type} {write : α → Json} (h : ∀ a, (write a).IsTextual)
    (as : List α) : Json.AllTextual (as.map write) := by
  induction as with
  | nil => exact trivial
  | cons a as ih => exact ⟨h a, ih⟩

namespace Entry

theorem isTextual_toJson (e : Entry) : e.toJson.IsTextual := by
  have htext (text : String) : (Json.ofString text).IsTextual := rfl
  cases hobjects : e.objects with
  | none => simp [toJson, hobjects, Json.IsTextual, Json.AllMembersTextual, htext]
  | some objects =>
    have hall := Json.allTextual_map htext objects
    simp [toJson, hobjects, Json.IsTextual, Json.AllMembersTextual, htext, hall]

theorem isTextual_array_toJson (entries : List Entry) :
    (Json.array (entries.map toJson)).IsTextual :=
  Json.allTextual_map isTextual_toJson entries

/-- The objects of a link are read back. -/
theorem objectsOfJson?_array (objects : List String) :
    objectsOfJson? (.array (objects.map Json.ofString)) = some (some objects) := by
  have hread (text : String) : (Json.ofString text).string? = some text := rfl
  exact congrArg (Option.map some) (mapM_map_eq_some hread objects)

/-- The document of an entry is read as the entry. -/
theorem ofJson?_toJson (e : Entry) : ofJson? e.toJson = some e := by
  obtain ⟨command, directory, file, objects⟩ := e
  cases objects with
  | none => rfl
  | some objects =>
    show (objectsOfJson? (.array (objects.map Json.ofString))).bind
      (fun read => some (Entry.mk command directory file read)) = _
    rw [objectsOfJson?_array]
    rfl

end Entry

/-- **The entries of a written database are those it was written for**, in
their order. -/
theorem parseEntries?_renderEntries (entries : List Entry) :
    parseEntries? (renderEntries entries) = some entries := by
  rw [parseEntries?, renderEntries, Json.parse?_pretty _ (Entry.isTextual_array_toJson entries)]
  exact mapM_map_eq_some Entry.ofJson?_toJson entries

theorem renderEntries_injective : Function.Injective renderEntries := by
  intro a b h
  have hread := parseEntries?_renderEntries a
  rw [h, parseEntries?_renderEntries] at hread
  exact (Option.some.inj hread).symm

end CompilationDatabase
