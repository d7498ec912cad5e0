import Mathlib.Data.List.Basic
import Mathlib.Data.List.Nodup

namespace FirstSeen

variable {α : Type} [DecidableEq α] {known l : List α} {a b : α}

/-- The entries that are new where they stand, in their order. -/
def firsts : List α → List α → List α
  | _, [] => []
  | known, a :: l => if a ∈ known then firsts known l else a :: firsts (known ++ [a]) l

theorem firsts_cons_of_mem (h : a ∈ known) : firsts known (a :: l) = firsts known l := if_pos h

theorem firsts_cons_of_not_mem (h : a ∉ known) :
    firsts known (a :: l) = a :: firsts (known ++ [a]) l := if_neg h

theorem mem_firsts : b ∈ firsts known l ↔ b ∈ l ∧ b ∉ known := by
  induction l generalizing known with
  | nil => simp [firsts]
  | cons a l ih =>
    by_cases ha : a ∈ known
    · rw [firsts_cons_of_mem ha, ih, List.mem_cons]
      constructor
      · exact fun h => ⟨.inr h.1, h.2⟩
      · rintro ⟨rfl | hb, hknown⟩
        · exact absurd ha hknown
        · exact ⟨hb, hknown⟩
    · rw [firsts_cons_of_not_mem ha, List.mem_cons, ih, List.mem_cons, List.mem_append,
        List.mem_singleton]
      by_cases hba : b = a
      · subst hba
        simp [ha]
      · simp [hba]

theorem nodup_firsts (known l : List α) : (firsts known l).Nodup := by
  induction l generalizing known with
  | nil => exact List.nodup_nil
  | cons a l ih =>
    by_cases ha : a ∈ known
    · rw [firsts_cons_of_mem ha]
      exact ih known
    · rw [firsts_cons_of_not_mem ha, List.nodup_cons]
      refine ⟨fun hmem => ?_, ih _⟩
      have hnew := (mem_firsts.mp hmem).2
      exact hnew (List.mem_append_right known List.mem_cons_self)

/-- Behind the first entry of a list that nothing was known before, every other entry comes once. -/
theorem count_tail_firsts [BEq α] [LawfulBEq α] (l : List α) (b : α) :
    (firsts [] l).tail.count b = if b ∈ l ∧ l.head? ≠ some b then 1 else 0 := by
  cases l with
  | nil => rfl
  | cons a l =>
    have hnew : a ∉ ([] : List α) := List.not_mem_nil
    rw [firsts_cons_of_not_mem hnew, List.tail_cons, List.nil_append, List.head?_cons]
    have hmem : b ∈ firsts [a] l ↔ b ∈ a :: l ∧ some a ≠ some b := by
      rw [mem_firsts, List.mem_singleton, List.mem_cons, ne_eq, Option.some_inj]
      constructor
      · exact fun h => ⟨.inr h.1, Ne.symm h.2⟩
      · exact fun h => ⟨h.1.resolve_left (Ne.symm h.2), Ne.symm h.2⟩
    by_cases hb : b ∈ firsts [a] l
    · rw [if_pos (hmem.mp hb)]
      exact List.count_eq_one_of_mem (nodup_firsts [a] l) hb
    · rw [if_neg (fun h => hb (hmem.mpr h))]
      exact List.count_eq_zero_of_not_mem hb

end FirstSeen
