import Mathlib

/-- A binary64 number that is an integer or infinite. -/
inductive Double
  | finite (n : ℤ)
  | infinite (negative : Bool)
  deriving DecidableEq, Repr

namespace Double

/-- `n / 2 ^ k`, rounded to the nearest integer and to the even one of two. -/
def roundHalfEven (n k : ℕ) : ℕ :=
  let quotient := n / 2 ^ k
  let rest := n % 2 ^ k
  if 2 * rest < 2 ^ k then quotient
  else if 2 ^ k < 2 * rest then quotient + 1
  else quotient + quotient % 2

/-- The nearest number of at most 53 significant bits. -/
def roundNat (n : ℕ) : ℕ :=
  if n < 2 ^ 53 then n
  else roundHalfEven n (Nat.log2 n - 52) * 2 ^ (Nat.log2 n - 52)

/-- The double nearest to an integer. -/
def ofInt (n : ℤ) : Double :=
  if roundNat n.natAbs < 2 ^ 1024 then .finite (n.sign * roundNat n.natAbs) else .infinite (n < 0)

theorem le_roundHalfEven (n k : ℕ) : n / 2 ^ k ≤ roundHalfEven n k := by
  unfold roundHalfEven
  dsimp only
  split
  · exact le_rfl
  · split <;> omega

theorem lt_roundNat_add (n : ℕ) : n < roundNat n + 2 ^ (Nat.log2 n - 52) := by
  unfold roundNat
  split
  · exact Nat.lt_add_of_pos_right (by positivity)
  · have hquotient := Nat.mul_le_mul_right (2 ^ (Nat.log2 n - 52))
      (le_roundHalfEven n (Nat.log2 n - 52))
    have hrest := Nat.lt_div_mul_add (a := n) (b := 2 ^ (Nat.log2 n - 52)) (by positivity)
    omega

theorem roundHalfEven_le {n k m : ℕ} (h : n ≤ m * 2 ^ k) : roundHalfEven n k ≤ m := by
  have hpos : 0 < 2 ^ k := by positivity
  unfold roundHalfEven
  dsimp only
  rcases h.eq_or_lt with rfl | hlt
  · rw [Nat.mul_mod_left, if_pos (by omega), Nat.mul_div_cancel _ hpos]
  · have hquotient : n / 2 ^ k < m := (Nat.div_lt_iff_lt_mul hpos).mpr hlt
    split
    · exact hquotient.le
    · split <;> omega

/-- Rounding does not pass a multiple of a power of two that the rounded numbers have. -/
theorem roundNat_le {n m k : ℕ} (h : n ≤ m * 2 ^ k) (hk : Nat.log2 n - 52 ≤ k) :
    roundNat n ≤ m * 2 ^ k := by
  unfold roundNat
  split
  · exact h
  · have hfactor : m * 2 ^ k = m * 2 ^ (k - (Nat.log2 n - 52)) * 2 ^ (Nat.log2 n - 52) := by
      rw [mul_assoc, ← pow_add, Nat.sub_add_cancel hk]
    rw [hfactor] at h ⊢
    exact Nat.mul_le_mul_right _ (roundHalfEven_le h)

end Double
