import Mathlib

namespace FixedDigits

/-- A number in a fixed count of decimal digits, the lowest last. -/
def fixedDigits : ℕ → ℕ → List Char
  | 0, _ => []
  | width + 1, n => fixedDigits width (n / 10) ++ [Nat.digitChar (n % 10)]

variable {width n m : ℕ} {u v : List Char}

theorem fixedDigits_zero (width : ℕ) : fixedDigits width 0 = List.replicate width '0' := by
  induction width with
  | zero => rfl
  | succ width ih =>
    rw [fixedDigits, Nat.zero_div, ih, List.replicate_succ']
    rfl

theorem leftpad_concat {l : List Char} (width : ℕ) (c : Char) :
    (l ++ [c]).leftpad (width + 1) '0' = l.leftpad width '0' ++ [c] := by
  rw [List.leftpad, List.leftpad, List.length_append, List.length_singleton,
    Nat.add_sub_add_right, List.append_assoc]

theorem leftpad_toDigits (hwidth : 0 < width) (hn : n < 10 ^ width) :
    (Nat.toDigits 10 n).leftpad width '0' = fixedDigits width n := by
  induction width generalizing n with
  | zero => exact absurd hwidth (Nat.lt_irrefl 0)
  | succ width ih =>
    by_cases hsmall : n < 10
    · have hdiv : n / 10 = 0 := Nat.div_eq_of_lt hsmall
      rw [fixedDigits, hdiv, fixedDigits_zero, Nat.mod_eq_of_lt hsmall,
        Nat.toDigits_of_lt_base hsmall, ← List.nil_append [n.digitChar], leftpad_concat]
      simp [List.leftpad]
    · have hquotient : n / 10 < 10 ^ width := by
        rw [pow_succ] at hn
        exact Nat.div_lt_of_lt_mul (by rwa [mul_comm] at hn)
      have hpos : 0 < width := by
        by_contra hzero
        have hwidth : width = 0 := by omega
        rw [hwidth] at hquotient
        omega
      rw [Nat.toDigits_of_base_le (by decide) (not_lt.mp hsmall), leftpad_concat,
        ih hpos hquotient, fixedDigits]

theorem digitChar_lt (h : n < m) (hm : m < 10) : Nat.digitChar n < Nat.digitChar m := by
  have hall : ∀ m < 10, ∀ n < m, Nat.digitChar n < Nat.digitChar m := by decide
  exact hall m hm n h

/-- Texts that begin with the digits of different numbers are in the order of the numbers. -/
theorem fixedDigits_append_lt (h : n < m) (hm : m < 10 ^ width) (u v : List Char) :
    fixedDigits width n ++ u < fixedDigits width m ++ v := by
  induction width generalizing n m u v with
  | zero => omega
  | succ width ih =>
    rw [fixedDigits, fixedDigits, List.append_assoc, List.append_assoc]
    have hquotient : m / 10 < 10 ^ width := by
      rw [pow_succ] at hm
      omega
    by_cases hhigh : n / 10 < m / 10
    · exact ih hhigh hquotient _ _
    · have hsame : n / 10 = m / 10 := by omega
      rw [hsame]
      apply List.append_left_lt
      exact List.cons_lt_cons_iff.mpr (.inl (digitChar_lt (by omega) (by omega)))

/-- Texts are in the order of the numbers they begin with, or else of what follows these. -/
theorem fixedDigits_append_lt_of_or (hm : m < 10 ^ width) (h : n < m ∨ n = m ∧ u < v) :
    fixedDigits width n ++ u < fixedDigits width m ++ v := by
  rcases h with hlt | ⟨rfl, hrest⟩
  · exact fixedDigits_append_lt hlt hm u v
  · exact List.append_left_lt hrest

end FixedDigits
