/-
The order of a database.

Entries are compared by file, directory, command and objects, that is by all
they consist of.  So the order is total and tells any two entries apart, and a
database has one order only: whatever the order in which its entries were met,
they are listed alike (`sort_eq_sort_of_perm`).
-/
import CompilationDatabase.Entry.Basic

namespace CompilationDatabase.Entry

instance : Std.TransCmp order :=
  inferInstanceAs (Std.TransCmp (compareLex (compareOn file) (compareLex (compareOn directory)
    (compareLex (compareOn command) (compareOn objects)))))

/-- Entries that neither stand before the other are the same. -/
theorem eq_of_order_eq {a b : Entry} (h : a.order b = .eq) : a = b := by
  simp only [order, Ordering.then_eq_eq, Std.LawfulEqOrd.compare_eq_iff_eq] at h
  obtain ⟨hfile, hdirectory, hcommand, hobjects⟩ := h
  cases a
  cases b
  simp_all

theorem le_trans (a b c : Entry) (hab : a.le b = true) (hbc : b.le c = true) : a.le c = true :=
  Std.TransCmp.isLE_trans hab hbc

theorem le_total (a b : Entry) : (a.le b || b.le a) = true := by
  unfold le
  have hswap : b.order a = (a.order b).swap := Std.OrientedCmp.eq_swap
  rw [hswap]
  cases a.order b <;> rfl

theorem le_antisymm {a b : Entry} (hab : a.le b = true) (hba : b.le a = true) : a = b :=
  eq_of_order_eq (Std.OrientedCmp.isLE_antisymm hab hba)

/-- Sorting loses nothing and adds nothing. -/
theorem sort_perm (entries : List Entry) : (sort entries).Perm entries :=
  List.mergeSort_perm entries le

/-- In a sorted list, no entry stands before one that should precede it. -/
theorem pairwise_sort (entries : List Entry) : (sort entries).Pairwise (fun a b => a.le b = true) :=
  List.pairwise_mergeSort le_trans le_total entries

/-- The same entries are listed alike. -/
theorem sort_eq_sort_of_perm {a b : List Entry} (h : a.Perm b) : sort a = sort b :=
  List.Perm.eq_of_pairwise (fun _ _ _ _ hab hba => le_antisymm hab hba) (pairwise_sort a)
    (pairwise_sort b) ((sort_perm a).trans (h.trans (sort_perm b).symm))

/-- Entries may be left out before or after sorting. -/
theorem sort_filter (p : Entry → Bool) (entries : List Entry) :
    sort (entries.filter p) = (sort entries).filter p :=
  List.Perm.eq_of_pairwise (fun _ _ _ _ hab hba => le_antisymm hab hba) (pairwise_sort _)
    ((pairwise_sort entries).filter p)
    ((sort_perm _).trans ((sort_perm entries).filter p).symm)

theorem mem_sort {e : Entry} {entries : List Entry} : e ∈ sort entries ↔ e ∈ entries :=
  (sort_perm entries).mem_iff

end CompilationDatabase.Entry
