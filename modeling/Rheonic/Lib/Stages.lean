import Mathlib

namespace Stages

variable {α β : Type}

/-- What stands beside the last stage that has been reached. -/
def lastReached (reached : α → Bool) (stages : List (α × β)) : Option β :=
  stages.foldl (fun selected stage => if reached stage.1 then some stage.2 else selected) none

variable {reached : α → Bool} {stages : List (α × β)} {b : β}

theorem foldl_eq (selected : Option β) : stages.foldl
      (fun selected stage => if reached stage.1 then some stage.2 else selected) selected =
    (lastReached reached stages).or selected := by
  induction stages generalizing selected with
  | nil => rfl
  | cons stage stages ih =>
    have hcons : lastReached reached (stage :: stages) =
        (lastReached reached stages).or (if reached stage.1 then some stage.2 else none) := ih _
    rw [List.foldl_cons, ih, hcons]
    by_cases hstage : reached stage.1 = true
    · rw [if_pos hstage, if_pos hstage, Option.or_assoc, Option.some_or]
    · rw [if_neg hstage, if_neg hstage, Option.or_none]

theorem lastReached_cons (stage : α × β) : lastReached reached (stage :: stages) =
    (lastReached reached stages).or (if reached stage.1 then some stage.2 else none) := by
  rw [lastReached, List.foldl_cons, foldl_eq]

theorem lastReached_eq_none :
    lastReached reached stages = none ↔ ∀ stage ∈ stages, reached stage.1 = false := by
  induction stages with
  | nil => simp [lastReached]
  | cons stage stages ih =>
    rw [lastReached_cons, Option.or_eq_none_iff, ih, List.forall_mem_cons, and_comm]
    simp

theorem lastReached_spec (h : lastReached reached stages = some b) :
    ∃ before a after, stages = before ++ (a, b) :: after ∧ reached a = true ∧
      ∀ stage ∈ after, reached stage.1 = false := by
  induction stages with
  | nil => exact absurd h (by simp [lastReached])
  | cons stage stages ih =>
    rw [lastReached_cons] at h
    cases hrest : lastReached reached stages with
    | some b' =>
      rw [hrest, Option.some_or] at h
      obtain ⟨before, a, after, hsplit, hreached⟩ := ih (hrest.trans h)
      exact ⟨stage :: before, a, after, by rw [hsplit, List.cons_append], hreached⟩
    | none =>
      rw [hrest, Option.none_or] at h
      by_cases hstage : reached stage.1 = true
      · rw [if_pos hstage] at h
        refine ⟨[], stage.1, stages, ?_, hstage, lastReached_eq_none.mp hrest⟩
        rw [← Option.some.inj h]
        rfl
      · rw [if_neg hstage] at h
        exact absurd h (by simp)

theorem lastReached_mem (h : lastReached reached stages = some b) : b ∈ stages.map Prod.snd := by
  obtain ⟨before, a, after, hsplit, -⟩ := lastReached_spec h
  rw [hsplit, List.map_append, List.map_cons]
  exact List.mem_append_right _ List.mem_cons_self

/-- When more stages are reached, the last of them stands no earlier. -/
theorem lastReached_antitone [Preorder β] {reached' : α → Bool}
    (hmore : ∀ a, reached a = true → reached' a = true)
    (hfall : (stages.map Prod.snd).Pairwise (· ≥ ·)) (h : lastReached reached stages = some b) :
    ∃ b', lastReached reached' stages = some b' ∧ b' ≤ b := by
  induction stages with
  | nil => exact absurd h (by simp [lastReached])
  | cons stage stages ih =>
    rw [List.map_cons, List.pairwise_cons] at hfall
    rw [lastReached_cons] at h ⊢
    cases hrest : lastReached reached stages with
    | some b' =>
      rw [hrest, Option.some_or] at h
      obtain ⟨later, hlater, hle⟩ := ih hfall.2 (hrest.trans h)
      exact ⟨later, by rw [hlater, Option.some_or], hle⟩
    | none =>
      rw [hrest, Option.none_or] at h
      have hstage : reached stage.1 = true := by
        by_contra hstage
        rw [if_neg hstage] at h
        exact absurd h (by simp)
      rw [if_pos hstage] at h
      rw [if_pos (hmore _ hstage), ← Option.some.inj h]
      cases hrest' : lastReached reached' stages with
      | some later => exact ⟨later, Option.some_or, hfall.1 later (lastReached_mem hrest')⟩
      | none => exact ⟨stage.2, Option.none_or, le_rfl⟩

end Stages
