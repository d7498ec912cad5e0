import Mathlib

namespace SlidingWindow

variable {α : Type} (time : α → ℤ)

/-- The points later than a cut. -/
def after (cut : ℤ) (l : List α) : List α := l.filter fun p => cut < time p

/-- The points of a half-open interval of a given span. -/
def within (start span : ℤ) (l : List α) : List α :=
  l.filter fun p => start < time p ∧ time p ≤ start + span

variable {time}

theorem mem_after {cut : ℤ} {l : List α} {p : α} : p ∈ after time cut l ↔ p ∈ l ∧ cut < time p := by
  simp [after]

theorem after_append (cut : ℤ) (l l' : List α) :
    after time cut (l ++ l') = after time cut l ++ after time cut l' := by
  simp [after]

theorem after_after {cut cut' : ℤ} (h : cut ≤ cut') (l : List α) :
    after time cut' (after time cut l) = after time cut' l := by
  unfold after
  rw [List.filter_filter]
  apply List.filter_congr
  intro p _
  by_cases hp : cut' < time p
  · have hcut : cut < time p := by omega
    simp [hp, hcut]
  · simp [hp]

theorem after_eq_nil {cut : ℤ} {l : List α} (h : ∀ p ∈ l, time p ≤ cut) :
    after time cut l = [] := by
  unfold after
  rw [List.filter_eq_nil_iff]
  intro p hp
  have hle := h p hp
  simp only [decide_eq_true_eq]
  omega

/-- Where every point arrives to find fewer than `n` in the window behind it, no interval of that
span has more than `n`, wherever it starts. -/
theorem length_within_le {span : ℤ} {n : ℕ} {l : List α}
    (horder : l.Pairwise fun p q => time p ≤ time q)
    (hroom : ∀ pre p post, l = pre ++ p :: post → (after time (time p - span) pre).length < n)
    (start : ℤ) : (within time start span l).length ≤ n := by
  induction l using List.reverseRecOn with
  | nil => simp [within]
  | append_singleton l p ih =>
    rw [List.pairwise_append] at horder
    have hbefore : (within time start span l).length ≤ n := by
      apply ih horder.1
      intro pre q post hl
      apply hroom pre q (post ++ [p])
      rw [hl]
      simp
    by_cases hp : start < time p ∧ time p ≤ start + span
    · have hlast := hroom l p [] rfl
      have hsub : (within time start span l).length ≤
          (after time (time p - span) l).length := by
        apply List.Sublist.length_le
        unfold within after
        apply List.monotone_filter_right
        intro q hq
        simp only [decide_eq_true_eq] at hq ⊢
        omega
      have hsplit : within time start span (l ++ [p]) =
          within time start span l ++ [p] := by
        simp [within, List.filter_append, hp]
      rw [hsplit, List.length_append, List.length_singleton]
      omega
    · have hsplit : within time start span (l ++ [p]) =
          within time start span l := by
        rw [within, List.filter_append]
        simp [within, hp]
      rw [hsplit]
      exact hbefore

end SlidingWindow
