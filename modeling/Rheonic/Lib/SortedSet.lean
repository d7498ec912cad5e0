import Mathlib

/-- Members with integer scores, each member at most once. -/
structure SortedSet (α : Type) where
  entries : List (α × ℤ)
  nodup : (entries.map Prod.fst).Nodup

namespace SortedSet

variable {α : Type}

def empty : SortedSet α := ⟨[], List.nodup_nil⟩

def card (z : SortedSet α) : ℕ := z.entries.length

def members (z : SortedSet α) : List α := z.entries.map Prod.fst

def keep (z : SortedSet α) (p : α × ℤ → Bool) : SortedSet α :=
  ⟨z.entries.filter p, z.nodup.sublist (List.filter_sublist.map _)⟩

def removeRange (z : SortedSet α) (lo hi : ℤ) : SortedSet α :=
  z.keep fun e => !(decide (lo ≤ e.2) && decide (e.2 ≤ hi))

section Members

variable [DecidableEq α]

def remove (z : SortedSet α) (a : α) : SortedSet α := z.keep fun e => e.1 ≠ a

/-- Add a member, or move it to a new score. -/
def add (z : SortedSet α) (a : α) (score : ℤ) : SortedSet α where
  entries := (a, score) :: (z.remove a).entries
  nodup := by
    rw [List.map_cons, List.nodup_cons]
    exact ⟨by simp [remove, keep], (z.remove a).nodup⟩

end Members

/-- The members with a score from `lo` on, by score and then by member. -/
def rangeFrom [LinearOrder α] (z : SortedSet α) (lo : ℤ) : List α :=
  ((z.entries.filter fun e => lo ≤ e.2).insertionSort
    fun a b => a.2 < b.2 ∨ a.2 = b.2 ∧ a.1 ≤ b.1).map Prod.fst

@[simp] theorem members_empty : (empty : SortedSet α).members = [] := rfl

theorem mem_members {z : SortedSet α} {a : α} : a ∈ z.members ↔ ∃ score, (a, score) ∈ z.entries := by
  simp [members]

@[simp] theorem mem_members_remove [DecidableEq α] {z : SortedSet α} {a b : α} :
    b ∈ (z.remove a).members ↔ b ≠ a ∧ b ∈ z.members := by
  simp [mem_members, remove, keep, and_comm]

@[simp] theorem mem_members_add [DecidableEq α] {z : SortedSet α} {a b : α} {score : ℤ} :
    b ∈ (z.add a score).members ↔ b = a ∨ b ∈ z.members := by
  have h : b ∈ (z.add a score).members ↔ b = a ∨ b ∈ (z.remove a).members := by
    simp [members, add]
  rw [h, mem_members_remove]
  by_cases hb : b = a <;> simp [hb]

theorem remove_of_not_mem [DecidableEq α] {z : SortedSet α} {a : α} (h : a ∉ z.members) :
    (z.remove a).entries = z.entries := by
  refine List.filter_eq_self.mpr fun e he => ?_
  have hne : e.1 ≠ a := fun hea => h (mem_members.mpr ⟨e.2, hea ▸ he⟩)
  simpa using hne

theorem remove_eq_self [DecidableEq α] {z : SortedSet α} {a : α} (h : a ∉ z.members) :
    z.remove a = z := by
  have hentries := remove_of_not_mem h
  cases hz : z.remove a with
  | mk entries hd =>
    rw [hz] at hentries
    cases z with
    | mk entries' hd' =>
      obtain rfl : entries = entries' := hentries
      rfl

theorem entries_add_of_not_mem [DecidableEq α] {z : SortedSet α} {a : α} {score : ℤ}
    (h : a ∉ z.members) : (z.add a score).entries = (a, score) :: z.entries := by
  show (a, score) :: (z.remove a).entries = (a, score) :: z.entries
  rw [remove_of_not_mem h]

theorem rangeFrom_perm [LinearOrder α] (z : SortedSet α) (lo : ℤ) :
    (z.rangeFrom lo).Perm ((z.entries.filter fun e => lo ≤ e.2).map Prod.fst) :=
  (List.perm_insertionSort _ _).map _

end SortedSet
