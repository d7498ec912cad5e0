import Rheonic.ProtectEngine

namespace Rheonic.ProtectEngine
open PyText

inductive Step
  | bootstrap (result : TransportResult ConfigBody)
  | evaluate (call : Call)
  deriving DecidableEq, Repr

/-- The answers of a run, and the engine after it. -/
def Implementation.run (m : Implementation) : Engine → List Step → List Outcome × Engine
  | s, [] => ([], s)
  | s, .bootstrap result :: rest => m.run (m.bootstrap s result) rest
  | s, .evaluate call :: rest =>
    let outcome := m.evaluate s call
    let later := m.run outcome.engine rest
    (outcome :: later.1, later.2)

/-- The same evaluation, where `blocked_until` is compared as an instant. -/
structure SameEvaluation (τ : Timestamps) (a b : Evaluation) : Prop where
  decision : a.decision = b.decision
  reason : a.reason = b.reason
  clamp : a.clamp = b.clamp
  applyClampEnabled : a.applyClampEnabled = b.applyClampEnabled
  blockedUntil : a.blockedUntil.bind τ.parse = b.blockedUntil.bind τ.parse
  retryAfterSeconds : a.retryAfterSeconds = b.retryAfterSeconds

def Exact (n : ℤ) : Prop := Double.ofInt n = .finite n

theorem updateFailMode_eq (s : Engine) (failMode : Option String) :
    Python.updateFailMode s failMode = Node.updateFailMode s failMode := by
  have hsame : parseFailMode (Python.failModeText s.failMode) = some s.failMode := by
    cases s.failMode <;> rfl
  cases failMode with
  | none => simp [Python.updateFailMode, Node.updateFailMode, orElse, hsame]
  | some text =>
    by_cases htext : text = ""
    · have hempty : parseFailMode "" = none := rfl
      simp [Python.updateFailMode, Node.updateFailMode, htext, hsame, hempty]
    · simp [Python.updateFailMode, Node.updateFailMode, orElse_of_ne htext]

theorem updateCooldown_filter (s : Engine) (blockedUntilMs : Option ℤ) (comparedAt expiredAt : ℕ) :
    s.updateCooldown blockedUntilMs comparedAt expiredAt =
      s.updateCooldown (blockedUntilMs.filter (0 < ·)) comparedAt expiredAt := by
  cases blockedUntilMs with
  | none => rfl
  | some ms =>
    by_cases hms : 0 < ms
    · simp [Option.filter, hms]
    · have hpast : ¬(comparedAt : ℤ) < ms := by omega
      simp [Engine.updateCooldown, Option.filter, hms, hpast]

theorem parseDecision_eq (decision : Option String) :
    parseDecision (orElse decision "allow") = (decision.map parseDecision).getD .allow := by
  cases decision with
  | none => rfl
  | some text =>
    by_cases htext : text = ""
    · subst htext
      rfl
    · rw [orElse_of_ne htext]
      rfl

theorem SameEvaluation.refl (τ : Timestamps) (a : Evaluation) : SameEvaluation τ a a :=
  ⟨rfl, rfl, rfl, rfl, rfl, rfl⟩

theorem fallbackDecision_block_iff (s : Engine) :
    (fallbackDecision s).decision = .block ↔ s.failMode = .closed := by
  unfold fallbackDecision
  cases s.failMode <;> simp

/-- Timestamps written as their number of milliseconds. -/
def plainTimestamps : Timestamps where
  parse := parseNumber
  isoformat ms := toString ms
  toISOString ms := toString ms
  parse_isoformat ms _ := parseNumber_toString ms
  parse_toISOString ms _ := parseNumber_toString ms
  parse_blank _ := parseNumber_of_blank

end Rheonic.ProtectEngine
