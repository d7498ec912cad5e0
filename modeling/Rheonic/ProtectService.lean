import Rheonic.ProtectActionStore
import Rheonic.RollingWindow

namespace Rheonic.ProtectService
open CommandProgram Redis Keys PyText RollingWindow ProtectActionStore

/-- What decisions and reports read of a project. -/
structure Project where
  id : String
  protectEnabled : Bool := false
  protectFailMode : String := "open"
  applyClamp : Bool := false
  protectMaxReqPerMin : Option ℤ := none
  protectMaxTokPerMin : Option ℤ := none
  deriving DecidableEq, Repr

/-- The settings of the service. `intMul n x` is `int(n * x)` as floating point computes it. -/
structure Settings where
  protectBlockCooldownSeconds : ℤ := 60
  protectDecisionTimeoutMs : ℤ := 300
  incidentDedupWindowSeconds : ℤ := 300
  clampPressureThresholds : List ℚ := [0.70, 0.75, 0.80, 0.85, 0.90, 0.95]
  clampOutputRatios : List ℚ := [0.90, 0.80, 0.70, 0.55, 0.40, 0.25]
  intMul : ℤ → ℚ → ℤ
  same_length : clampPressureThresholds.length = clampOutputRatios.length := by rfl

structure ProtectDecisionContext where
  maxOutputTokens : Option ℤ := none
  inputTokensEstimate : Option ℤ := none
  provider : Option String := none
  deriving DecidableEq, Repr

inductive Verdict
  | allow
  | clamp
  | block
  deriving DecidableEq, Repr

def Verdict.text : Verdict → String
  | allow => "allow"
  | clamp => "clamp"
  | block => "block"

inductive Reason
  | ok
  | cooldownActive
  | tokCapBreach
  | reqCapBreach
  | tokenClamp
  deriving DecidableEq, Repr

def Reason.text : Reason → String
  | ok => "ok"
  | cooldownActive => "cooldown_active"
  | tokCapBreach => "tok_cap_breach"
  | reqCapBreach => "req_cap_breach"
  | tokenClamp => "token_clamp"

structure Predictive where
  enabled : Bool := false
  estimatedNextTokens : Option ℤ := none
  wouldExceedTokensCap : Bool := false
  deriving DecidableEq, Repr

structure Snapshot where
  requests60s : ℕ
  tokens60s : ℤ
  thresholdReq60s : Option ℤ
  thresholdTok60s : Option ℤ
  decisionTimeoutMs : ℤ
  predictive : Predictive
  deriving DecidableEq, Repr

structure Clamp where
  recommendedMaxOutputTokens : ℤ
  applied : Bool := false
  deriving DecidableEq, Repr

/-- A decision; `blockedUntil` is a time in milliseconds. -/
structure ProtectDecision where
  decision : Verdict
  reason : Reason
  failMode : String
  decisionTimeoutMs : ℤ
  retryAfterSeconds : Option ℤ := none
  blockedUntil : Option ℤ := none
  snapshot : Snapshot
  applyClampEnabled : Bool
  clamp : Option Clamp := none
  deriving DecidableEq, Repr

/-- The rolling totals of a scope. -/
structure Usage where
  requests60s : ℕ
  tokens60s : ℤ

section Decide

variable (settings : Settings) (project : Project) (ctx : ProtectDecisionContext)

def snapshot (usage : Usage) (predictive : Predictive) : Snapshot where
  requests60s := usage.requests60s
  tokens60s := usage.tokens60s
  thresholdReq60s := project.protectMaxReqPerMin
  thresholdTok60s := project.protectMaxTokPerMin
  decisionTimeoutMs := settings.protectDecisionTimeoutMs
  predictive := predictive

/-- A decision with the project's settings and no more than that. -/
def decisionOf (verdict : Verdict) (reason : Reason) (usage : Usage)
    (predictive : Predictive := {}) : ProtectDecision where
  decision := verdict
  reason := reason
  failMode := project.protectFailMode
  decisionTimeoutMs := settings.protectDecisionTimeoutMs
  snapshot := snapshot settings project usage predictive
  applyClampEnabled := project.applyClamp

/-- `max(0, ceil(ms / 1000))`. -/
def secondsUntil (ms : ℤ) : ℤ := max 0 (-(-ms / 1000))

/-- A block until a given time. -/
def blockUntil (reason : Reason) (usage : Usage) (nowMs : ℕ) (untilMs : ℤ) : ProtectDecision :=
  { decisionOf settings project .block reason usage with
    retryAfterSeconds := some (secondsUntil (untilMs - nowMs))
    blockedUntil := some untilMs }

def buildBlockDecision (reason : Reason) (usage : Usage) (nowMs : ℕ) : ProtectDecision :=
  blockUntil settings project reason usage nowMs
    (nowMs + max settings.protectBlockCooldownSeconds 1 * 1000)

/-- Negative counts in the request count as zero. -/
def estimatedNextTokens : Option ℤ :=
  ctx.inputTokensEstimate.map fun estimate =>
    max estimate 0 + (ctx.maxOutputTokens.map (max · 0)).getD 0

/-- The ratio of the last stage whose pressure has been reached. -/
def resolveClampOutputRatio (projectedTokens maxTok : ℤ) : Option ℚ :=
  (settings.clampPressureThresholds.zip settings.clampOutputRatios).foldl
    (fun selected stage =>
      if settings.intMul maxTok stage.1 ≤ projectedTokens then some stage.2 else selected) none

def buildClamp (maxTok : Option ℤ) (currentTokens60s : ℤ)
    (maxOutputTokens estimated : Option ℤ) : Option Clamp := do
  let maxTok ← maxTok.filter (0 < ·)
  let maxOutputTokens ← maxOutputTokens.filter (0 < ·)
  let estimated ← estimated
  let ratio ← resolveClampOutputRatio settings (currentTokens60s + estimated) maxTok
  let inputEstimate := max (estimated - maxOutputTokens) 0
  let availableForOutput := maxTok - currentTokens60s - inputEstimate
  let stageOutputLimit := max 1 (settings.intMul maxOutputTokens ratio)
  let recommended := max 1 (min maxOutputTokens (min stageOutputLimit availableForOutput))
  some { recommendedMaxOutputTokens := recommended }

def predictiveOf (usage : Usage) : Predictive where
  enabled := (estimatedNextTokens ctx).isSome
  estimatedNextTokens := estimatedNextTokens ctx
  wouldExceedTokensCap := project.protectMaxTokPerMin.any fun maxTok =>
    (estimatedNextTokens ctx).any fun estimated => maxTok ≤ usage.tokens60s + estimated

/-- Within the caps a request is allowed, with less output where the clamp asks for it. -/
def withinCaps (usage : Usage) : ProtectDecision :=
  let clamp := buildClamp settings project.protectMaxTokPerMin usage.tokens60s ctx.maxOutputTokens
    (estimatedNextTokens ctx)
  if project.applyClamp && clamp.any fun clamp =>
      ctx.maxOutputTokens.any (clamp.recommendedMaxOutputTokens < ·) then
    { decisionOf settings project .clamp .tokenClamp usage (predictiveOf project ctx usage) with
      clamp := clamp }
  else decisionOf settings project .allow .ok usage (predictiveOf project ctx usage)

/-- The decision for an enabled project: the cooldown first, then the caps. -/
def judge (nowMs : ℕ) (usage : Usage) (cooldownUntilMs : Option ℤ) : ProtectDecision :=
  match cooldownUntilMs.filter ((nowMs : ℤ) < ·) with
  | some untilMs => blockUntil settings project .cooldownActive usage nowMs untilMs
  | none =>
    if project.protectMaxTokPerMin.any (· ≤ usage.tokens60s) then
      buildBlockDecision settings project .tokCapBreach usage nowMs
    else if project.protectMaxReqPerMin.any (· ≤ (usage.requests60s : ℤ)) then
      buildBlockDecision settings project .reqCapBreach usage nowMs
    else withinCaps settings project ctx usage

/-- The provider of a request as decisions know it. -/
def normalizedProvider (provider : Option String) : String :=
  orElse (some (strip (orElse provider ""))) "unknown"

/-- `evaluate_decision` for the project of the ingest key, without notifications. -/
def evaluateDecision (nowMs : ℕ) : Prog ProtectDecision := do
  let scopedId := scopedProjectProviderId project.id (some (normalizedProvider ctx.provider))
  let (requests60s, tokens60s) ← getProject60s scopedId nowMs
  if project.protectEnabled then
    let cooldownUntilMs ← getBlockCooldownUntilMs scopedId
    pure (judge settings project ctx nowMs ⟨requests60s, tokens60s⟩ cooldownUntilMs)
  else pure (decisionOf settings project .allow .ok ⟨requests60s, tokens60s⟩)

end Decide

theorem scoped_normalizedProvider (projectId : String) (provider : Option String) :
    scopedProjectProviderId projectId (some (normalizedProvider provider)) =
      scopedProjectProviderId projectId provider := by
  have hunknown : strip "unknown" = "unknown" := by decide
  unfold scopedProjectProviderId normalizedProvider
  by_cases hempty : strip (orElse provider "") = ""
  · have hne : "unknown" ≠ "" := by decide
    rw [hempty, orElse_empty, orElse_of_ne hne, hunknown, orElse_of_ne hne]
  · rw [orElse_of_ne hempty, orElse_of_ne hempty, strip_strip, orElse_of_ne hempty]

section Judge

variable {settings : Settings} {project : Project} {ctx : ProtectDecisionContext} {nowMs : ℕ}
  {usage : Usage} {cooldownUntilMs : Option ℤ}

theorem secondsUntil_mul {n : ℤ} (h : 0 ≤ n) : secondsUntil (n * 1000) = n := by
  unfold secondsUntil
  omega

theorem judge_cooling {untilMs : ℤ} (h : (nowMs : ℤ) < untilMs) :
    judge settings project ctx nowMs usage (some untilMs) =
      blockUntil settings project .cooldownActive usage nowMs untilMs := by
  unfold judge
  rw [Option.filter_some, if_pos (by simpa using h)]

theorem withinCaps_ne_block :
    (withinCaps settings project ctx usage).decision ≠ .block := by
  unfold withinCaps
  dsimp only
  split
  · simp [decisionOf]
  · simp [decisionOf]

theorem judge_admits (h : (judge settings project ctx nowMs usage cooldownUntilMs).decision ≠ .block) :
    (∀ cap ∈ project.protectMaxTokPerMin, usage.tokens60s < cap) ∧
      ∀ cap ∈ project.protectMaxReqPerMin, (usage.requests60s : ℤ) < cap := by
  unfold judge at h
  split at h
  · exact absurd rfl h
  · split at h
    · exact absurd rfl h
    · next htok =>
      split at h
      · exact absurd rfl h
      · next hreq =>
        constructor
        · intro cap hcap
          simpa [Option.mem_def.mp hcap] using htok
        · intro cap hcap
          simpa [Option.mem_def.mp hcap] using hreq

theorem judge_capBreach
    (h : (judge settings project ctx nowMs usage cooldownUntilMs).reason = .tokCapBreach ∨
      (judge settings project ctx nowMs usage cooldownUntilMs).reason = .reqCapBreach) :
    (judge settings project ctx nowMs usage cooldownUntilMs).blockedUntil =
        some (nowMs + max settings.protectBlockCooldownSeconds 1 * 1000) ∧
      (judge settings project ctx nowMs usage cooldownUntilMs).retryAfterSeconds =
        some (max settings.protectBlockCooldownSeconds 1) := by
  have hblock : ∀ reason, (buildBlockDecision settings project reason usage nowMs).blockedUntil =
        some (nowMs + max settings.protectBlockCooldownSeconds 1 * 1000) ∧
      (buildBlockDecision settings project reason usage nowMs).retryAfterSeconds =
        some (max settings.protectBlockCooldownSeconds 1) := by
    intro reason
    refine ⟨rfl, ?_⟩
    have hdiff : (nowMs : ℤ) + max settings.protectBlockCooldownSeconds 1 * 1000 - nowMs =
      max settings.protectBlockCooldownSeconds 1 * 1000 := by omega
    simp only [buildBlockDecision, blockUntil]
    rw [hdiff, secondsUntil_mul (by omega)]
  -- within the caps no breach is given as the reason
  have hwithin : (withinCaps settings project ctx usage).reason ≠ .tokCapBreach ∧
      (withinCaps settings project ctx usage).reason ≠ .reqCapBreach := by
    unfold withinCaps
    dsimp only
    split <;> simp [decisionOf]
  unfold judge at h ⊢
  split at h
  -- a running cooldown has its own reason
  · simp [blockUntil, decisionOf] at h
  · split at h
    · next htok =>
      rw [if_pos htok]
      exact hblock _
    · next htok =>
      split at h
      · next hreq =>
        rw [if_neg htok, if_pos hreq]
        exact hblock _
      · rcases h with h | h
        · exact absurd h hwithin.1
        · exact absurd h hwithin.2

end Judge

end Rheonic.ProtectService
