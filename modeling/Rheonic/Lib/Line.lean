import Mathlib

namespace Line

/-- Tickets are issued in order. Those that were taken from the head of the line and those that
stand in it follow that order. -/
structure Orderly (issued : ℕ) (taken line : List ℕ) : Prop where
  sorted : (taken ++ line).Pairwise (· < ·)
  lt_issued : ∀ n ∈ taken ++ line, n < issued

variable {issued x : ℕ} {taken line : List ℕ}

theorem orderly_start : Orderly 0 [] [] := ⟨List.Pairwise.nil, by simp⟩

namespace Orderly

theorem join (h : Orderly issued taken line) : Orderly (issued + 1) taken (line ++ [issued]) where
  sorted := by
    rw [← List.append_assoc, List.pairwise_append]
    refine ⟨h.sorted, List.pairwise_singleton _ _, fun n hn m hm => ?_⟩
    rw [List.mem_singleton.mp hm]
    exact h.lt_issued n hn
  lt_issued := by
    intro n hn
    rw [← List.append_assoc] at hn
    rcases List.mem_append.mp hn with hn | hn
    · have hlt := h.lt_issued n hn
      omega
    · rw [List.mem_singleton.mp hn]
      omega

theorem refuse (h : Orderly issued taken line) : Orderly (issued + 1) taken line where
  sorted := h.sorted
  lt_issued := fun n hn => Nat.lt_succ_of_lt (h.lt_issued n hn)

theorem evict (h : Orderly issued taken line) : Orderly issued taken line.tail := by
  have hsub : (taken ++ line.tail).Sublist (taken ++ line) :=
    (List.tail_sublist line).append_left taken
  exact ⟨h.sorted.sublist hsub, fun n hn => h.lt_issued n (hsub.subset hn)⟩

theorem take (h : Orderly issued taken (x :: line)) :
    x ∉ taken ∧ Orderly issued (taken ++ [x]) line := by
  have hsplit : taken ++ [x] ++ line = taken ++ x :: line := by simp
  refine ⟨fun hx => ?_, hsplit ▸ h.sorted, fun n hn => h.lt_issued n (hsplit ▸ hn)⟩
  have hlt := (List.pairwise_append.mp h.sorted).2.2 x hx x List.mem_cons_self
  omega

theorem line_sorted (h : Orderly issued taken line) : line.Pairwise (· < ·) :=
  (List.pairwise_append.mp h.sorted).2.1

theorem taken_sorted (h : Orderly issued taken line) : taken.Pairwise (· < ·) :=
  (List.pairwise_append.mp h.sorted).1

end Orderly

end Line
