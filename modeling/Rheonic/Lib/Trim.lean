import Mathlib

namespace Trim

variable {α : Type} {p : α → Bool} {l : List α}

/-- Drop the elements at both ends for which `p` holds. -/
def trim (p : α → Bool) (l : List α) : List α := ((l.dropWhile p).reverse.dropWhile p).reverse

theorem dropWhile_eq_self : l.dropWhile p = l ↔ ∀ c ∈ l.head?, p c = false := by
  cases l with
  | nil => simp
  | cons a l =>
    constructor
    · intro h c hc
      obtain rfl : a = c := by simpa using hc
      rw [← Bool.not_eq_true]
      intro ha
      rw [List.dropWhile_cons_of_pos ha] at h
      have hlength := (List.dropWhile_suffix (l := l) p).length_le
      rw [h, List.length_cons] at hlength
      omega
    · intro h
      have ha : p a = false := h a rfl
      exact List.dropWhile_cons_of_neg (by simp [ha])

theorem trim_infix : trim p l <:+: l := by
  have hleft : l.dropWhile p <:+ l := List.dropWhile_suffix p
  have hright : trim p l <+: l.dropWhile p := by
    have hsuffix : ((l.dropWhile p).reverse.dropWhile p) <:+ (l.dropWhile p).reverse :=
      List.dropWhile_suffix p
    exact List.reverse_suffix.mp (by simpa [trim] using hsuffix)
  exact hright.isInfix.trans hleft.isInfix

theorem trim_eq_nil : trim p l = [] ↔ ∀ c ∈ l, p c = true := by
  unfold trim
  rw [List.reverse_eq_nil_iff, List.dropWhile_eq_nil_iff]
  constructor
  · intro h c hc
    rw [← List.takeWhile_append_dropWhile (p := p) (l := l), List.mem_append] at hc
    rcases hc with hc | hc
    · exact List.mem_takeWhile_imp hc
    · exact h c (List.mem_reverse.mpr hc)
  · intro h c hc
    exact h c ((List.dropWhile_suffix p).subset (List.mem_reverse.mp hc))

theorem length_trim_le : (trim p l).length ≤ l.length := trim_infix.length_le

theorem trim_eq_of_length (h : l.length ≤ (trim p l).length) : trim p l = l :=
  trim_infix.eq_of_length (le_antisymm length_trim_le h)

/-- Nothing is dropped exactly if `p` fails at both ends. -/
theorem trim_eq_self : trim p l = l ↔
    (∀ c ∈ l.head?, p c = false) ∧ ∀ c ∈ l.getLast?, p c = false := by
  have hends : trim p l = l ↔ l.dropWhile p = l ∧ l.reverse.dropWhile p = l.reverse := by
    constructor
    · intro h
      have hle : (trim p l).length ≤ (l.dropWhile p).length := by
        have hsuffix : ((l.dropWhile p).reverse.dropWhile p) <:+ (l.dropWhile p).reverse :=
          List.dropWhile_suffix p
        simpa [trim] using hsuffix.length_le
      rw [h] at hle
      have hfirst : l.dropWhile p = l :=
        (List.dropWhile_suffix p).eq_of_length (le_antisymm (List.dropWhile_suffix p).length_le hle)
      refine ⟨hfirst, ?_⟩
      rw [trim, hfirst] at h
      exact List.reverse_injective (h.trans (List.reverse_reverse l).symm)
    · intro h
      rw [trim, h.1, h.2, List.reverse_reverse]
  rw [hends, dropWhile_eq_self, dropWhile_eq_self, List.head?_reverse]

theorem trim_append {before after : List α} (hbefore : ∀ c ∈ before, p c = true)
    (hafter : ∀ c ∈ after, p c = true) : trim p (before ++ l ++ after) = trim p l := by
  have hnone : after.dropWhile p = [] := List.dropWhile_eq_nil_iff.mpr hafter
  have hback : ∀ k : List α, ((k ++ after).reverse.dropWhile p).reverse =
      (k.reverse.dropWhile p).reverse := by
    intro k
    rw [List.reverse_append, List.dropWhile_append_of_pos (by simpa using hafter)]
  unfold trim
  rw [List.append_assoc, List.dropWhile_append_of_pos hbefore, List.dropWhile_append]
  by_cases hall : l.dropWhile p = []
  · rw [hall, hnone]
    rfl
  · have hnot : ¬(l.dropWhile p).isEmpty = true := by
      rw [List.isEmpty_iff]
      exact hall
    rw [if_neg hnot, hback]

end Trim
