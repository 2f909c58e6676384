/-
The entries that are kept.

Going through a list, an entry is kept if its file exists and no entry with its
identity was kept before.  The same list is had without a record of what was
met: keep an entry, and drop from what is kept behind it all that has its
identity (`firsts`).  In this form the entries of two lists are told apart: in
front stands what the first list keeps, behind it what the second list keeps,
less the identities in front (`firsts_append`).

* `dedupe_fst` — the entries that are kept are `firsts`;
* `mem_firsts_iff` — an entry is kept just if it is the first one with its
  identity whose file exists;
* `firsts_filter` — entries may be left out before or after duplicates are
  dropped, if those with one identity are left out together;
* `firsts_append_perm` — what is kept of a list stands for the list when more
  entries follow, in whatever order;
* `dedupe_keeps_firsts` — the entries that are kept, by where they stand in the
  list, and the counts of all others.
-/
import Mathlib.Data.List.Induction
import Mathlib.Data.List.Nodup
import CompilationDatabase.Entry.Identity

namespace CompilationDatabase

/-- Of each identity the first entry whose file exists. -/
def firsts (present : String → Bool) : List Entry → List Entry
  | [] => []
  | e :: rest =>
    if present e.file then
      e :: (firsts present rest).filter fun other => other.identity ≠ e.identity
    else firsts present rest

section

variable {present : String → Bool} {a b entries rest : List Entry} {e : Entry}

theorem firsts_cons_of_present (h : present e.file = true) :
    firsts present (e :: rest) =
      e :: (firsts present rest).filter fun other => other.identity ≠ e.identity :=
  if_pos h

theorem firsts_cons_of_missing (h : ¬ present e.file = true) :
    firsts present (e :: rest) = firsts present rest :=
  if_neg h

theorem step_of_missing {d : Dedupe} (h : ¬ present e.file = true) :
    Dedupe.step present d e = { d with missing := d.missing + 1 } := by
  simp [Dedupe.step, h]

theorem step_of_seen {d : Dedupe} (h : present e.file = true) (hseen : e.identity ∈ d.seen) :
    Dedupe.step present d e = { d with duplicates := d.duplicates + 1 } := by
  simp [Dedupe.step, h, hseen]

theorem step_of_first {d : Dedupe} (h : present e.file = true) (hseen : e.identity ∉ d.seen) :
    Dedupe.step present d e = { d with seen := e.identity :: d.seen, kept := d.kept.push e } := by
  simp [Dedupe.step, h, hseen]

/-- What a state keeps in the end: what it has kept, and those of the first
entries whose identity it has not met. -/
theorem kept_foldl_step (entries : List Entry) (d : Dedupe) :
    (entries.foldl (Dedupe.step present) d).kept.toList =
      d.kept.toList ++ (firsts present entries).filter fun e => e.identity ∉ d.seen := by
  induction entries generalizing d with
  | nil => simp [firsts]
  | cons e rest ih =>
    rw [List.foldl_cons, ih]
    -- the three cases of a step: kept, met before, missing
    by_cases hpresent : present e.file = true
    · rw [firsts_cons_of_present hpresent]
      by_cases hseen : e.identity ∈ d.seen
      · rw [step_of_seen hpresent hseen, List.filter_cons_of_neg (by simp [hseen]),
          List.filter_filter]
        -- what is dropped for the identity of `e` has been met as well
        congr 1
        refine List.filter_congr fun other _ => ?_
        by_cases hother : other.identity = e.identity <;> simp [hother, hseen]
      · -- what comes later is dropped if `e` or one before it has its identity
        rw [step_of_first hpresent hseen, List.filter_cons_of_pos (by simp [hseen]),
          List.filter_filter, Array.toList_push, List.append_assoc, List.singleton_append]
        refine congrArg (d.kept.toList ++ e :: ·) (List.filter_congr fun other _ => ?_)
        simp [Bool.and_comm]
    · rw [firsts_cons_of_missing hpresent, step_of_missing hpresent]

theorem dedupe_fst (present : String → Bool) (entries : List Entry) :
    (dedupe present entries).1 = firsts present entries := by
  show (entries.foldl (Dedupe.step present) {}).kept.toList = firsts present entries
  simp [kept_foldl_step]

theorem merge_fst (present : String → Bool) (prior fresh : List Entry) :
    (merge present prior fresh).1 = firsts present (prior ++ fresh) :=
  dedupe_fst present (prior ++ fresh)

/-! ### What is kept -/

theorem firsts_sublist (present : String → Bool) (entries : List Entry) :
    (firsts present entries).Sublist entries := by
  induction entries with
  | nil => exact List.Sublist.slnil
  | cons e rest ih =>
    by_cases hpresent : present e.file = true
    · rw [firsts_cons_of_present hpresent]
      exact (List.filter_sublist.trans ih).cons_cons e
    · rw [firsts_cons_of_missing hpresent]
      exact ih.cons e

theorem present_of_mem_firsts (h : e ∈ firsts present entries) : present e.file = true := by
  induction entries with
  | nil => cases h
  | cons first rest ih =>
    by_cases hpresent : present first.file = true
    · rw [firsts_cons_of_present hpresent] at h
      rcases List.mem_cons.mp h with rfl | hrest
      · exact hpresent
      · exact ih (List.mem_of_mem_filter hrest)
    · rw [firsts_cons_of_missing hpresent] at h
      exact ih h

/-- No two entries that are kept have the same identity. -/
theorem nodup_identity_firsts (present : String → Bool) (entries : List Entry) :
    ((firsts present entries).map Entry.identity).Nodup := by
  induction entries with
  | nil => exact List.nodup_nil
  | cons e rest ih =>
    by_cases hpresent : present e.file = true
    · rw [firsts_cons_of_present hpresent, List.map_cons, List.nodup_cons]
      refine ⟨?_, ih.sublist (List.filter_sublist.map Entry.identity)⟩
      simp
    · rw [firsts_cons_of_missing hpresent]
      exact ih

/-- An entry is kept just if it is the first with its identity whose file exists. -/
theorem mem_firsts_iff :
    e ∈ firsts present entries ↔
      entries.find? (fun other => present other.file && other.identity == e.identity) = some e := by
  induction entries with
  | nil => simp [firsts]
  | cons first rest ih =>
    by_cases hpresent : present first.file = true
    · rw [firsts_cons_of_present hpresent]
      by_cases hidentity : first.identity = e.identity
      · rw [List.find?_cons_of_pos (by simp [hpresent, hidentity])]
        simp [hidentity, eq_comm]
      · rw [List.find?_cons_of_neg (by simp [hidentity]), ← ih]
        have hne : e ≠ first := by
          rintro rfl
          exact hidentity rfl
        simp [hne, Ne.symm hidentity]
    · rw [firsts_cons_of_missing hpresent, List.find?_cons_of_neg (by simp [hpresent])]
      exact ih

/-- Of an entry whose file exists, the first with its identity is kept. -/
theorem exists_first (he : e ∈ entries) (hpresent : present e.file = true) :
    ∃ first ∈ firsts present entries, first.identity = e.identity ∧
      entries.find? (fun other => present other.file && other.identity == e.identity) =
        some first := by
  obtain ⟨first, hfirst⟩ : ∃ first, entries.find?
      (fun other => present other.file && other.identity == e.identity) = some first := by
    rw [← Option.isSome_iff_exists, List.find?_isSome]
    exact ⟨e, he, by simp [hpresent]⟩
  have hidentity : first.identity = e.identity := by
    have hfound := List.find?_some hfirst
    simp only [Bool.and_eq_true, beq_iff_eq] at hfound
    exact hfound.2
  refine ⟨first, mem_firsts_iff.mpr ?_, hidentity, hfirst⟩
  rw [hidentity]
  exact hfirst

/-- What is kept depends on the files of the entries only. -/
theorem firsts_congr {present' : String → Bool}
    (h : ∀ e ∈ entries, present' e.file = present e.file) :
    firsts present' entries = firsts present entries := by
  induction entries with
  | nil => rfl
  | cons e rest ih =>
    rw [firsts, firsts, h e List.mem_cons_self,
      ih fun other hother => h other (List.mem_cons_of_mem e hother)]

/-- Entries may be left out before or after the first ones are looked for, as
long as all that have an identity are left out with it. -/
theorem firsts_filter {p : Entry → Bool} (h : ∀ a ∈ entries, ∀ b ∈ entries,
    present a.file = true → present b.file = true → a.identity = b.identity → p a = p b) :
    firsts present (entries.filter p) = (firsts present entries).filter p := by
  induction entries with
  | nil => rfl
  | cons e rest ih =>
    have hrest := ih fun a ha b hb =>
      h a (List.mem_cons_of_mem e ha) b (List.mem_cons_of_mem e hb)
    by_cases hpresent : present e.file = true
    · rw [firsts_cons_of_present hpresent]
      by_cases he : p e = true
      · rw [List.filter_cons_of_pos he, firsts_cons_of_present hpresent, hrest,
          List.filter_cons_of_pos he, List.filter_filter, List.filter_filter]
        simp only [Bool.and_comm]
      · -- what has the identity of `e` is left out as well
        rw [List.filter_cons_of_neg he, hrest, List.filter_cons_of_neg he, List.filter_filter]
        refine List.filter_congr fun other hother => ?_
        by_cases hidentity : other.identity = e.identity
        · have hsame := h other
            (List.mem_cons_of_mem e ((firsts_sublist present rest).subset hother)) e
            List.mem_cons_self (present_of_mem_firsts hother) hpresent hidentity
          simp [hsame, he]
        · simp [hidentity]
    · rw [firsts_cons_of_missing hpresent, ← hrest, List.filter_cons]
      split
      · exact firsts_cons_of_missing hpresent
      · rfl

/-! ### Lists put together -/

/-- What a list keeps behind another: what it keeps itself, less the identities
that are kept in front. -/
theorem firsts_append (present : String → Bool) (a b : List Entry) :
    firsts present (a ++ b) = firsts present a ++
      (firsts present b).filter fun e => e.identity ∉ (firsts present a).map Entry.identity := by
  induction a with
  | nil => simp [firsts]
  | cons first rest ih =>
    by_cases hpresent : present first.file = true
    · rw [List.cons_append, firsts_cons_of_present hpresent, firsts_cons_of_present hpresent, ih,
        List.filter_append, List.filter_filter, List.cons_append]
      congr 2
      refine List.filter_congr fun e _ => ?_
      -- an identity other than that of `first` is kept in front just if it was without `first`
      by_cases hidentity : e.identity = first.identity
      · simp [hidentity]
      · simp only [List.map_cons, List.mem_cons, hidentity, false_or, not_false_eq_true, ne_eq,
          decide_true, Bool.true_and, decide_eq_decide, not_iff_not, List.mem_map, List.mem_filter]
        refine exists_congr fun other => and_congr_left fun hother => (and_iff_left ?_).symm
        simpa [hother] using hidentity
    · rw [List.cons_append, firsts_cons_of_missing hpresent, firsts_cons_of_missing hpresent, ih]

/-- A list in which no file is missing and no identity is met twice is kept whole. -/
theorem firsts_eq_self (hpresent : ∀ e ∈ entries, present e.file = true)
    (hnodup : (entries.map Entry.identity).Nodup) : firsts present entries = entries := by
  induction entries with
  | nil => rfl
  | cons e rest ih =>
    rw [List.map_cons, List.nodup_cons] at hnodup
    rw [firsts_cons_of_present (hpresent e List.mem_cons_self),
      ih (fun other hother => hpresent other (List.mem_cons_of_mem e hother)) hnodup.2,
      List.filter_eq_self.mpr]
    intro other hother
    have hne : other.identity ≠ e.identity := fun heq =>
      hnodup.1 (heq ▸ List.mem_map_of_mem hother)
    simpa using hne

/-- In front of others, the entries that a list keeps stand for the list, in
whatever order. -/
theorem firsts_append_perm {kept : List Entry} (h : kept.Perm (firsts present a)) (b : List Entry) :
    (firsts present (kept ++ b)).Perm (firsts present (a ++ b)) := by
  have hkept : firsts present kept = kept :=
    firsts_eq_self (fun e he => present_of_mem_firsts (h.subset he))
      ((h.map Entry.identity).nodup_iff.mpr (nodup_identity_firsts present a))
  rw [firsts_append present kept b, firsts_append present a b, hkept]
  refine h.append (List.Perm.of_eq (List.filter_congr fun e _ => ?_))
  simp only [(h.map Entry.identity).mem_iff]

/-- Entries that were met before are not kept again. -/
theorem firsts_append_of_subset (h : b ⊆ a) : firsts present (a ++ b) = firsts present a := by
  rw [firsts_append, List.filter_eq_nil_iff.mpr, List.append_nil]
  intro e he
  obtain ⟨first, hfirst, hidentity, -⟩ :=
    exists_first (h ((firsts_sublist present b).subset he)) (present_of_mem_firsts he)
  have hmem : e.identity ∈ (firsts present a).map Entry.identity :=
    hidentity ▸ List.mem_map_of_mem hfirst
  simpa using hmem

/-! ### Where the entries stand -/

/-- Whether the file of the entry exists, and no earlier entry whose file exists
has its identity. -/
def IsFirst (present : String → Bool) (earlier : List Entry) (e : Entry) : Prop :=
  present e.file = true ∧
    ∀ other ∈ earlier, present other.file = true → other.identity ≠ e.identity

instance (present : String → Bool) (earlier : List Entry) (e : Entry) :
    Decidable (IsFirst present earlier e) :=
  inferInstanceAs (Decidable (_ ∧ _))

theorem identity_not_mem_firsts_iff : e.identity ∉ (firsts present a).map Entry.identity ↔
    ∀ other ∈ a, present other.file = true → other.identity ≠ e.identity := by
  constructor
  · intro hnot other hother hpresent hidentity
    obtain ⟨first, hfirst, hsame, -⟩ := exists_first hother hpresent
    exact hnot (List.mem_map.mpr ⟨first, hfirst, hsame.trans hidentity⟩)
  · intro h hmem
    obtain ⟨other, hother, hidentity⟩ := List.mem_map.mp hmem
    exact h other ((firsts_sublist present a).subset hother) (present_of_mem_firsts hother)
      hidentity

theorem firsts_concat (present : String → Bool) (a : List Entry) (e : Entry) :
    firsts present (a ++ [e]) =
      firsts present a ++ if IsFirst present a e then [e] else [] := by
  have hfirst : IsFirst present a e ↔
      present e.file = true ∧ e.identity ∉ (firsts present a).map Entry.identity :=
    and_congr_right' identity_not_mem_firsts_iff.symm
  rw [firsts_append]
  by_cases hpresent : present e.file = true
  · have hone : firsts present [e] = [e] := firsts_cons_of_present hpresent
    rw [hone]
    by_cases hmem : e.identity ∈ (firsts present a).map Entry.identity
    · rw [if_neg fun h => (hfirst.mp h).2 hmem, List.filter_cons_of_neg (by simpa using hmem)]
      rfl
    · rw [if_pos (hfirst.mpr ⟨hpresent, hmem⟩), List.filter_cons_of_pos (by simpa using hmem)]
      rfl
  · rw [firsts_cons_of_missing hpresent, if_neg fun h => hpresent h.1]
    rfl

theorem firsts_eq_filter_zipIdx (present : String → Bool) (entries : List Entry) :
    firsts present entries = (entries.zipIdx.filter
      fun p => IsFirst present (entries.take p.2) p.1).map Prod.fst := by
  induction entries using List.reverseRecOn with
  | nil => rfl
  | append_singleton a e ih =>
    -- what stands behind an entry does not matter to it
    have hfront : a.zipIdx.filter (fun p => IsFirst present ((a ++ [e]).take p.2) p.1) =
        a.zipIdx.filter fun p => IsFirst present (a.take p.2) p.1 := by
      refine List.filter_congr fun p hp => ?_
      have hlt : p.2 < a.length := by simpa using List.snd_lt_of_mem_zipIdx hp
      rw [List.take_append_of_le_length (Nat.le_of_lt hlt)]
    have hlast : ([e].zipIdx (0 + a.length)).filter
        (fun p => IsFirst present ((a ++ [e]).take p.2) p.1) =
          if IsFirst present a e then [(e, 0 + a.length)] else [] := by
      rw [List.zipIdx_cons, List.zipIdx_nil, List.filter_cons, Nat.zero_add, List.take_left]
      simp
    rw [firsts_concat, List.zipIdx_append, List.filter_append, List.map_append, hfront, hlast, ← ih]
    split <;> rfl

theorem counts_step (present : String → Bool) (d : Dedupe) (e : Entry) :
    (Dedupe.step present d e).missing =
        d.missing + (if (!present e.file) = true then 1 else 0) ∧
      (Dedupe.step present d e).kept.size + (Dedupe.step present d e).duplicates +
          (Dedupe.step present d e).missing =
        d.kept.size + d.duplicates + d.missing + 1 := by
  by_cases hpresent : present e.file = true
  · by_cases hseen : e.identity ∈ d.seen
    · rw [step_of_seen hpresent hseen, if_neg (by simp [hpresent])]
      exact ⟨rfl, by dsimp only; omega⟩
    · rw [step_of_first hpresent hseen, if_neg (by simp [hpresent])]
      exact ⟨rfl, by dsimp only; rw [Array.size_push]; omega⟩
  · rw [step_of_missing hpresent, if_pos (by simpa using hpresent)]
    exact ⟨rfl, rfl⟩

/-- Every entry is counted once. -/
theorem counts_foldl_step (present : String → Bool) (entries : List Entry) (d : Dedupe) :
    (entries.foldl (Dedupe.step present) d).missing =
        d.missing + entries.countP (fun e => !present e.file) ∧
      (entries.foldl (Dedupe.step present) d).kept.size +
          (entries.foldl (Dedupe.step present) d).duplicates +
          (entries.foldl (Dedupe.step present) d).missing =
        d.kept.size + d.duplicates + d.missing + entries.length := by
  induction entries generalizing d with
  | nil => exact ⟨rfl, rfl⟩
  | cons e rest ih =>
    obtain ⟨hmissing, hall⟩ := ih (Dedupe.step present d e)
    obtain ⟨hmissing', hall'⟩ := counts_step present d e
    rw [List.foldl_cons, List.countP_cons, List.length_cons]
    constructor
    · rw [hmissing, hmissing']
      omega
    · rw [hall, hall']
      omega

end

/-- **The entries that are kept are those whose file exists and whose identity no
earlier entry with an existing file has, in their order; and every other entry is
counted once, as missing its file or as a duplicate.** -/
theorem dedupe_keeps_firsts (present : String → Bool) (entries : List Entry) :
    (dedupe present entries).1.Sublist entries ∧
    (dedupe present entries).1 = (entries.zipIdx.filter
      fun p => IsFirst present (entries.take p.2) p.1).map Prod.fst ∧
    (dedupe present entries).2.kept = (dedupe present entries).1.length ∧
    (dedupe present entries).2.missing = entries.countP (fun e => !present e.file) ∧
    (dedupe present entries).2.kept + (dedupe present entries).2.duplicates +
      (dedupe present entries).2.missing = entries.length := by
  obtain ⟨hmissing, hall⟩ := counts_foldl_step present entries {}
  refine ⟨?_, ?_, Array.length_toList.symm, ?_, ?_⟩
  · rw [dedupe_fst]
    exact firsts_sublist present entries
  · rw [dedupe_fst]
    exact firsts_eq_filter_zipIdx present entries
  · exact hmissing.trans (Nat.zero_add _)
  · exact hall.trans (by simp)

end CompilationDatabase
