import Mathlib.Data.List.Sort
import Mathlib.Order.Bounds.Basic

namespace NearestRank

variable {α : Type} [LinearOrder α] {l l' : List α}

/-- The members of a list that at least `r` of its entries do not exceed. -/
def reached (l : List α) (r : ℕ) : Set α := {v | v ∈ l ∧ r ≤ l.countP (· ≤ v)}

theorem reached_eq_of_perm (h : l.Perm l') (r : ℕ) : reached l r = reached l' r := by
  ext v
  show v ∈ l ∧ r ≤ l.countP (· ≤ v) ↔ v ∈ l' ∧ r ≤ l'.countP (· ≤ v)
  rw [h.mem_iff, h.countP_eq]

/-- What a sorted list has in the first `k + 1` places does not exceed the last of them. -/
theorem lt_countP_getElem (hl : l.Pairwise (· ≤ ·)) {k : ℕ} (hk : k < l.length) :
    k < l.countP (· ≤ l[k]) := by
  have hprefix : (l.take (k + 1)).countP (· ≤ l[k]) = (l.take (k + 1)).length := by
    rw [List.countP_eq_length]
    intro v hv
    obtain ⟨i, hi, rfl⟩ := List.mem_take_iff_getElem.mp hv
    have hle : i ≤ k := by omega
    exact decide_eq_true (hl.sortedLE.getElem_le_getElem_of_le hle)
  have hlength : (l.take (k + 1)).length = k + 1 := by
    rw [List.length_take]
    omega
  have hsub : (l.take (k + 1)).countP (· ≤ l[k]) ≤ l.countP (· ≤ l[k]) :=
    (List.take_sublist _ _).countP_le
  omega

/-- A value below place `k` of a sorted list exceeds entries in earlier places only. -/
theorem countP_le_of_lt (hl : l.Pairwise (· ≤ ·)) {k : ℕ} (hk : k < l.length) {v : α}
    (hv : v < l[k]) : l.countP (· ≤ v) ≤ k := by
  have hrest : (l.drop k).countP (· ≤ v) = 0 := by
    rw [List.countP_eq_zero]
    intro w hw
    obtain ⟨i, hi, rfl⟩ := List.mem_drop_iff_getElem.mp hw
    have hle : l[k] ≤ l[k + i] := hl.sortedLE.getElem_le_getElem_of_le (Nat.le_add_right k i)
    simpa using hv.trans_le hle
  have hsplit : l.countP (· ≤ v) = (l.take k).countP (· ≤ v) + (l.drop k).countP (· ≤ v) := by
    rw [← List.countP_append, List.take_append_drop]
  have hfirst : (l.take k).countP (· ≤ v) ≤ (l.take k).length := List.countP_le_length
  rw [List.length_take] at hfirst
  omega

/-- Place `k` of a sorted list is the least member that `k + 1` entries do not exceed. -/
theorem isLeast_getElem (hl : l.Pairwise (· ≤ ·)) {k : ℕ} (hk : k < l.length) :
    IsLeast (reached l (k + 1)) l[k] := by
  constructor
  · exact ⟨List.getElem_mem hk, lt_countP_getElem hl hk⟩
  · intro v hv
    by_contra hlt
    have hcount := countP_le_of_lt hl hk (not_le.mp hlt)
    have hreach : k + 1 ≤ l.countP (· ≤ v) := hv.2
    omega

theorem isLeast_insertionSort {k : ℕ} (hk : k < (l.insertionSort (· ≤ ·)).length) :
    IsLeast (reached l (k + 1)) (l.insertionSort (· ≤ ·))[k] := by
  rw [reached_eq_of_perm (List.perm_insertionSort (· ≤ ·) l).symm]
  exact isLeast_getElem (List.pairwise_insertionSort _ l) hk

theorem insertionSort_eq_of_perm (h : l.Perm l') :
    l.insertionSort (· ≤ ·) = l'.insertionSort (· ≤ ·) := by
  apply List.Perm.eq_of_pairwise ?_ (List.pairwise_insertionSort (· ≤ ·) l)
    (List.pairwise_insertionSort (· ≤ ·) l')
  · exact (List.perm_insertionSort _ l).trans (h.trans (List.perm_insertionSort _ l').symm)
  · exact fun a b _ _ hab hba => le_antisymm hab hba

end NearestRank
