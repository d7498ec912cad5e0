import Mathlib

namespace PriorityRegister

variable {α : Type} (replaces : α → α → Bool)

/-- A register keeps what it holds until it is offered something that replaces it. -/
def offer (held : Option α) (a : α) : Option α :=
  if held.all (replaces · a) = true then some a else held

/-- Where ranks differ, the higher one wins. -/
structure RankedBy (rank : α → ℕ) : Prop where
  refuses : ∀ a b, rank b < rank a → replaces a b = false
  prefers : ∀ a b, rank a < rank b → replaces a b = true

variable {replaces} {rank : α → ℕ}

@[simp] theorem offer_none (a : α) : offer replaces none a = some a := rfl

theorem offer_some (a b : α) :
    offer replaces (some a) b = some (if replaces a b = true then b else a) := by
  by_cases h : replaces a b = true <;> simp [offer, h]

theorem RankedBy.rank_le_offer (h : RankedBy replaces rank) (a b : α) :
    ∃ c, offer replaces (some a) b = some c ∧ rank a ≤ rank c ∧ rank b ≤ rank c := by
  refine ⟨_, offer_some a b, ?_⟩
  by_cases hab : replaces a b = true
  · rw [if_pos hab]
    have hnot : ¬rank b < rank a := fun hlt => by simp [h.refuses a b hlt] at hab
    omega
  · rw [if_neg hab]
    have hnot : ¬rank a < rank b := fun hlt => hab (h.prefers a b hlt)
    omega

/-- What a register holds after a list of offers has the highest rank seen. -/
theorem RankedBy.foldl_offer (h : RankedBy replaces rank) (held : Option α) (l : List α)
    (hl : held = none → l ≠ []) :
    ∃ c, l.foldl (offer replaces) held = some c ∧ (held = some c ∨ c ∈ l) ∧
      (∀ a, held = some a → rank a ≤ rank c) ∧ ∀ b ∈ l, rank b ≤ rank c := by
  induction l generalizing held with
  | nil =>
    obtain ⟨a, rfl⟩ := Option.ne_none_iff_exists'.mp fun hn => hl hn rfl
    exact ⟨a, rfl, .inl rfl, fun b hb => (Option.some.inj hb ▸ le_rfl), by simp⟩
  | cons b l ih =>
    cases held with
    | none =>
      obtain ⟨c, hc, hmem, hheld, hle⟩ := ih (some b) (by simp)
      refine ⟨c, hc, .inr ?_, by simp, ?_⟩
      · rcases hmem with hbc | hmem
        · exact Option.some.inj hbc ▸ List.mem_cons_self
        · exact List.mem_cons_of_mem b hmem
      · intro x hx
        rcases List.mem_cons.mp hx with rfl | hx
        · exact hheld x rfl
        · exact hle x hx
    | some a =>
      -- after the first offer the register holds `d`, which ranks with both
      obtain ⟨d, hd, had, hbd⟩ := h.rank_le_offer a b
      have hfold : (b :: l).foldl (offer replaces) (some a) = l.foldl (offer replaces) (some d) := by
        rw [List.foldl_cons, hd]
      obtain ⟨c, hc, hmem, hheld, hle⟩ := ih (some d) (by simp)
      have hdc := hheld d rfl
      refine ⟨c, hfold.trans hc, ?_, ?_, ?_⟩
      · rcases hmem with hdc' | hmem
        · obtain rfl := Option.some.inj hdc'
          rw [offer_some] at hd
          split at hd
          · exact .inr (Option.some.inj hd ▸ List.mem_cons_self)
          · exact .inl hd
        · exact .inr (List.mem_cons_of_mem b hmem)
      · intro x hx
        have hax := Option.some.inj hx
        subst hax
        omega
      · intro x hx
        rcases List.mem_cons.mp hx with rfl | hx
        · omega
        · exact hle x hx

end PriorityRegister
