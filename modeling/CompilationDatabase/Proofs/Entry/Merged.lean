/-
Databases put together step by step.

In an earlier list or a later one, the entries that are kept stand for the list
(`firsts_append_firsts`, `firsts_firsts_append`): what is dropped has a missing file or
the identity of an entry that is kept, and would be dropped again.

* `dedupe_of_nodup` — entries that are there and have distinct identities are all kept;
* `merge_absorbs` — it makes no difference in which steps lists are put together, or
  whether entries are met again.
-/
import CompilationDatabase.Proofs.Entry.Dedupe

namespace CompilationDatabase

variable {present : String → Bool} {entries : List Entry}

theorem firsts_firsts (present : String → Bool) (entries : List Entry) :
    firsts present (firsts present entries) = firsts present entries :=
  firsts_eq_self (fun _ => present_of_mem_firsts) (nodup_identity_firsts present entries)

theorem firsts_firsts_append (present : String → Bool) (a b : List Entry) :
    firsts present (firsts present a ++ b) = firsts present (a ++ b) := by
  rw [firsts_append, firsts_firsts, ← firsts_append]

theorem firsts_append_firsts (present : String → Bool) (a b : List Entry) :
    firsts present (a ++ firsts present b) = firsts present (a ++ b) := by
  rw [firsts_append, firsts_firsts, ← firsts_append]

/-- If no file is missing and no identity is met twice, all is kept and nothing counted
as dropped. -/
theorem dedupe_of_nodup (hpresent : ∀ e ∈ entries, present e.file = true)
    (hnodup : (entries.map Entry.identity).Nodup) :
    dedupe present entries = (entries, ⟨entries.length, 0, 0⟩) := by
  have hkept : (entries.foldl (Dedupe.step present) {}).kept.toList = entries :=
    (dedupe_fst present entries).trans (firsts_eq_self hpresent hnodup)
  have hsize : (entries.foldl (Dedupe.step present) {}).kept.size = entries.length := by
    rw [← Array.length_toList, hkept]
  obtain ⟨hmissing, hall⟩ := counts_foldl_step present entries {}
  have hthere : entries.countP (fun e => !present e.file) = 0 := by
    rw [List.countP_eq_zero]
    intro e he
    simp [hpresent e he]
  rw [hthere] at hmissing
  have hduplicates : (entries.foldl (Dedupe.step present) {}).duplicates = 0 := by
    rw [hsize, hmissing] at hall
    simpa using hall
  simp only [dedupe, hkept, hsize, hmissing, hduplicates]

/-- **What is kept of two lists is kept as well when duplicates are dropped from one of
them before; so lists may be put together in any grouping, a second pass keeps all, and
entries that were met before add nothing.** -/
theorem merge_absorbs (present : String → Bool) (a b : List Entry) :
    (dedupe present (a ++ b)).1 = (merge present (dedupe present a).1 b).1 ∧
    (dedupe present (a ++ b)).1 = (merge present a (dedupe present b).1).1 ∧
    (∀ c, (merge present (merge present a b).1 c).1 = (merge present a (merge present b c).1).1) ∧
    dedupe present (dedupe present a).1 =
      ((dedupe present a).1, ⟨(dedupe present a).1.length, 0, 0⟩) ∧
    (∀ met, met ⊆ a → (merge present (dedupe present a).1 met).1 = (dedupe present a).1) := by
  refine ⟨?_, ?_, fun c => ?_, ?_, fun met hmet => ?_⟩
  · rw [merge_fst, dedupe_fst, dedupe_fst, firsts_firsts_append]
  · rw [merge_fst, dedupe_fst, dedupe_fst, firsts_append_firsts]
  · rw [merge_fst, merge_fst, merge_fst, merge_fst, firsts_firsts_append, firsts_append_firsts,
      List.append_assoc]
  · rw [dedupe_fst]
    exact dedupe_of_nodup (fun _ => present_of_mem_firsts) (nodup_identity_firsts present a)
  · rw [merge_fst, dedupe_fst, firsts_firsts_append, firsts_append_of_subset hmet]

/-- Met again are an entry of a file that is gone, and one that stood first. -/
theorem merge_absorbs_again :
    let wrapped : Entry := ⟨"ccache -c a.c", "/w", "/w/a.c", none⟩
    let direct : Entry := ⟨"cc -c a.c", "/w", "/w/a.c", none⟩
    let gone : Entry := ⟨"cc -c b.c", "/w", "/w/b.c", none⟩
    let present (file : String) : Bool := file == "/w/a.c"
    [gone, wrapped] ⊆ [wrapped, gone, direct] ∧
      (merge present (dedupe present [wrapped, gone, direct]).1 [gone, wrapped]).1 =
        (dedupe present [wrapped, gone, direct]).1 := by
  intro wrapped direct gone present
  have hmet : [gone, wrapped] ⊆ [wrapped, gone, direct] := by simp
  exact ⟨hmet, (merge_absorbs present [wrapped, gone, direct] []).2.2.2.2 _ hmet⟩

end CompilationDatabase
