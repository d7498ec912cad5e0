import Mathlib

namespace Descent

variable {σ : Type}

/-- A number of steps leads from one state to another. -/
inductive Steps (step : σ → σ → Prop) : ℕ → σ → σ → Prop
  | refl (s : σ) : Steps step 0 s s
  | head {n : ℕ} {s t u : σ} (hstep : step s t) (hrest : Steps step n t u) :
      Steps step (n + 1) s u

/-- Good states stay good, and a step from one of them lowers the measure. -/
structure Descends (step : σ → σ → Prop) (Good : σ → Prop) (measure : σ → ℕ) : Prop where
  keeps : ∀ s t, Good s → step s t → Good t
  lowers : ∀ s t, Good s → step s t → measure t < measure s

variable {step : σ → σ → Prop} {Good : σ → Prop} {measure : σ → ℕ} {n : ℕ} {s t : σ}

theorem Descends.steps_add_le (h : Descends step Good measure) (hgood : Good s)
    (hsteps : Steps step n s t) : n + measure t ≤ measure s := by
  induction hsteps with
  | refl s => omega
  | head hstep _ ih =>
    have hlower := h.lowers _ _ hgood hstep
    have hrest := ih (h.keeps _ _ hgood hstep)
    omega

theorem Descends.steps_le (h : Descends step Good measure) (hgood : Good s)
    (hsteps : Steps step n s t) : n ≤ measure s := by
  have hle := h.steps_add_le hgood hsteps
  omega

theorem Descends.exists_done (h : Descends step Good measure) {Done : σ → Prop}
    (hprogress : ∀ s, Good s → ¬ Done s → ∃ t, step s t) (hgood : Good s) :
    ∃ n t, Steps step n s t ∧ Done t := by
  induction hm : measure s using Nat.strong_induction_on generalizing s with
  | _ m ih =>
    by_cases hdone : Done s
    · exact ⟨0, s, .refl s, hdone⟩
    · obtain ⟨t, hstep⟩ := hprogress s hgood hdone
      have hlower := h.lowers s t hgood hstep
      obtain ⟨n, u, hrest, hu⟩ := ih (measure t) (hm ▸ hlower) (h.keeps s t hgood hstep) rfl
      exact ⟨n + 1, u, .head hstep hrest, hu⟩

end Descent
