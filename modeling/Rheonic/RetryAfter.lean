import Rheonic.ProtectEngine
import Rheonic.ProtectService
import Mathlib.Order.Bounds.Basic

namespace Rheonic.RetryAfter
open ProtectService ProtectEngine

/-- A cooldown until `untilMs` answers a request at the time `t`: the backend blocks it for that
reason, and neither engine asks the backend. -/
structure Blocks (untilMs : ℤ) (t : ℕ) : Prop where
  backend : ∀ settings project ctx usage,
    judge settings project ctx t usage (some untilMs) =
      blockUntil settings project .cooldownActive usage t untilMs
  python : ∀ τ s call, s.cooldownUntilMs = some untilMs → call.startedAt = t →
    (Python.evaluate τ s call).asked = false
  node : ∀ τ s call, s.cooldownUntilMs = some untilMs → call.startedAt = t →
    (Node.evaluate τ s call).asked = false

/-- A cooldown until `untilMs` plays no part in the answer to a request at the time `t`. -/
structure Passes (untilMs : ℤ) (t : ℕ) : Prop where
  backend : ∀ settings project ctx usage,
    judge settings project ctx t usage (some untilMs) =
      judge settings project ctx t usage none
  python : ∀ τ s call, s.cooldownUntilMs = some untilMs → call.startedAt = t →
    (Python.evaluate τ s call).asked = true
  node : ∀ τ s call, s.cooldownUntilMs = some untilMs → call.startedAt = t →
    (Node.evaluate τ s call).asked = true

/-- All three answers to a request at the time `t` report `n` seconds. -/
structure Reports (untilMs : ℤ) (t : ℕ) (n : ℤ) : Prop where
  backend : ∀ settings project ctx usage,
    (judge settings project ctx t usage (some untilMs)).retryAfterSeconds = some n
  python : ∀ τ s call, s.cooldownUntilMs = some untilMs → call.startedAt = t →
    (Python.evaluate τ s call).evaluation.retryAfterSeconds = some n
  node : ∀ τ s call, s.cooldownUntilMs = some untilMs → call.startedAt = t →
    (Node.evaluate τ s call).evaluation.retryAfterSeconds = some n

section Cooling

variable {untilMs : ℤ} {t : ℕ}

theorem cooling_eq_some {s : Engine} (hs : s.cooldownUntilMs = some untilMs)
    (h : (t : ℤ) < untilMs) : s.cooling t = some untilMs := by
  rw [Engine.cooling, hs, Option.filter_some, if_pos (by simpa using h)]

theorem cooling_eq_none {s : Engine} (hs : s.cooldownUntilMs = some untilMs)
    (h : untilMs ≤ (t : ℤ)) : s.cooling t = none := by
  rw [Engine.cooling, hs, Option.filter_some, if_neg (by simpa using h)]

theorem blocks_of_lt (h : (t : ℤ) < untilMs) : Blocks untilMs t where
  backend settings project ctx usage := judge_cooling h
  python τ s call hs ht := by
    have hcooling : s.cooling call.startedAt = some untilMs := cooling_eq_some hs (ht ▸ h)
    rw [Python.evaluate, hcooling]
  node τ s call hs ht := by
    have hcooling : s.cooling call.startedAt = some untilMs := cooling_eq_some hs (ht ▸ h)
    rw [Node.evaluate, hcooling]

theorem passes_of_le (h : untilMs ≤ (t : ℤ)) : Passes untilMs t where
  backend settings project ctx usage := by
    have hover : (some untilMs).filter (fun u => decide ((t : ℤ) < u)) = none := by
      rw [Option.filter_some, if_neg (by simpa using h)]
    unfold judge
    rw [hover, Option.filter_none]
  python τ s call hs ht := by
    have hcooling : s.cooling call.startedAt = none := cooling_eq_none hs (ht ▸ h)
    unfold Python.evaluate
    rw [hcooling]
    dsimp only
    split
    · split <;> rfl
    · rfl
  node τ s call hs ht := by
    have hcooling : s.cooling call.startedAt = none := cooling_eq_none hs (ht ▸ h)
    unfold Node.evaluate
    rw [hcooling]
    dsimp only
    split
    · split
      · split <;> rfl
      · rfl
    · rfl

end Cooling

section Seconds

variable {now untilMs : ℤ}

theorem python_seconds (h : now < untilMs) :
    Python.toRetryAfterSeconds untilMs now = some (secondsUntil (untilMs - now)) := by
  have hceil : (untilMs - now + 999) / 1000 = -(-(untilMs - now) / 1000) := by omega
  rw [Python.toRetryAfterSeconds, if_neg (not_le.mpr h), hceil, secondsUntil]

theorem node_seconds (h : now < untilMs) :
    Node.toRetryAfterSeconds untilMs now = some (secondsUntil (untilMs - now)) := by
  rw [Node.toRetryAfterSeconds, if_neg (not_le.mpr h), secondsUntil]

theorem secondsUntil_least (h : now < untilMs) :
    IsLeast {n : ℤ | untilMs ≤ now + 1000 * n} (secondsUntil (untilMs - now)) := by
  constructor
  · show untilMs ≤ now + 1000 * secondsUntil (untilMs - now)
    unfold secondsUntil
    omega
  · intro n hn
    have hreach : untilMs ≤ now + 1000 * n := hn
    unfold secondsUntil
    omega

theorem reports_of_lt {t : ℕ} (h : (t : ℤ) < untilMs) :
    Reports untilMs t (secondsUntil (untilMs - t)) where
  backend settings project ctx usage := by
    rw [judge_cooling h]
    rfl
  python τ s call hs ht := by
    have hcooling : s.cooling call.startedAt = some untilMs := cooling_eq_some hs (ht ▸ h)
    rw [Python.evaluate, hcooling]
    dsimp only
    rw [ht]
    exact python_seconds h
  node τ s call hs ht := by
    have hcooling : s.cooling call.startedAt = some untilMs := cooling_eq_some hs (ht ▸ h)
    rw [Node.evaluate, hcooling]
    dsimp only
    rw [ht]
    exact node_seconds h

end Seconds

/-- The three computations agree on the least number of seconds that outlasts the cooldown, the
answers report it, and a request is blocked until that second and no longer. -/
theorem retryAfter_tight (now untilMs : ℤ) (h : now < untilMs) :
    ∃ n : ℤ, secondsUntil (untilMs - now) = n ∧
      Python.toRetryAfterSeconds untilMs now = some n ∧
      Node.toRetryAfterSeconds untilMs now = some n ∧
      IsLeast {n : ℤ | untilMs ≤ now + 1000 * n} n ∧
      (∀ t : ℕ, (t : ℤ) = now → Reports untilMs t n) ∧
      (∀ t : ℕ, (t : ℤ) = now + 1000 * n → Passes untilMs t) ∧
      ∀ t : ℕ, (t : ℤ) = now + 1000 * (n - 1) → Blocks untilMs t := by
  have hleast := secondsUntil_least h
  refine ⟨secondsUntil (untilMs - now), rfl, python_seconds h, node_seconds h, hleast, ?_, ?_, ?_⟩
  · intro t ht
    subst ht
    exact reports_of_lt h
  · intro t ht
    have hreach : untilMs ≤ now + 1000 * secondsUntil (untilMs - now) := hleast.1
    exact passes_of_le (by omega)
  · intro t ht
    -- one second less is no member of the set, since the reported number is its least
    have hearly : ¬untilMs ≤ now + 1000 * (secondsUntil (untilMs - now) - 1) := by
      intro hreach
      have hle := hleast.2 hreach
      omega
    exact blocks_of_lt (by omega)

theorem retryAfter_tight_run :
    (1000 : ℤ) < 3001 ∧ ∃ n : ℤ, secondsUntil (3001 - 1000) = n ∧
      Python.toRetryAfterSeconds 3001 1000 = some n ∧
      Node.toRetryAfterSeconds 3001 1000 = some n ∧
      IsLeast {n : ℤ | 3001 ≤ 1000 + 1000 * n} n ∧
      (∀ t : ℕ, (t : ℤ) = 1000 → Reports 3001 t n) ∧
      (∀ t : ℕ, (t : ℤ) = 1000 + 1000 * n → Passes 3001 t) ∧
      ∀ t : ℕ, (t : ℤ) = 1000 + 1000 * (n - 1) → Blocks 3001 t :=
  ⟨by decide, retryAfter_tight 1000 3001 (by decide)⟩

end Rheonic.RetryAfter
