import Rheonic.ProtectService
import Rheonic.IngestEvent

namespace Rheonic.ProtectApi
open CommandProgram Redis Keys PyText ProtectActionStore ProtectService

/-- A preflight request: payload and headers, the project its ingest key belongs to, and what the
endpoint measures and draws itself. -/
structure PreflightRequest where
  provider : String
  maxOutputTokens : Option ℤ := none
  inputTokensEstimate : Option ℤ := none
  ingestKey : Option String
  requestId : Option String
  project : Option Project
  latencyMs : ℤ
  memberId : String
  deriving DecidableEq

/-- A report of a preflight that timed out or failed, and the project of its ingest key. -/
structure ReportRequest where
  provider : Option String
  requestId : Option String
  requestIdHeader : Option String
  ingestKey : Option String
  project : Option Project
  deriving DecidableEq

namespace PreflightRequest

def context (r : PreflightRequest) : ProtectDecisionContext where
  maxOutputTokens := r.maxOutputTokens
  inputTokensEstimate := r.inputTokensEstimate
  provider := some r.provider

def scopedId (r : PreflightRequest) (project : Project) : String :=
  scopedProjectProviderId project.id (some r.provider)

end PreflightRequest

namespace ReportRequest

def resolvedRequestId (r : ReportRequest) : Option String :=
  (truthy r.requestIdHeader).or r.requestId

def scopedId (r : ReportRequest) (project : Project) : String :=
  scopedProjectProviderId project.id (some (orElse r.provider "unknown"))

end ReportRequest

structure Preflight where
  decision : ProtectDecision
  finalized : Bool
  deriving DecidableEq

/-- A block for a cap, with the times that a cooldown needs. -/
def capBreachTimes (decision : ProtectDecision) : Option (ℤ × ℤ) :=
  if decision.decision = .block ∧
      (decision.reason = .reqCapBreach ∨ decision.reason = .tokCapBreach) then
    decision.blockedUntil.bind fun untilMs =>
      decision.retryAfterSeconds.map fun seconds => (untilMs, seconds)
  else none

section Endpoints

variable (settings : Settings)

def startCooldown (scopedId : String) (requestId : Option String) (preflight : Preflight) :
    Prog Unit :=
  match capBreachTimes preflight.decision with
  | some (untilMs, seconds) =>
    if preflight.finalized then setBlockCooldown scopedId untilMs seconds requestId else pure ()
  | none => pure ()

def finalizeDecision (scopedId : String) (r : PreflightRequest) (project : Project)
    (decision : ProtectDecision) (nowMs : ℕ) : Prog Bool :=
  if project.protectEnabled then do
    let (finalized, _) ← finalizeOutcome scopedId decision.decision.text decision.reason.text
      sourceLive r.requestId nowMs
    startCooldown scopedId r.requestId ⟨decision, finalized⟩
    pure finalized
  else pure false

/-- What follows the decision. Without a project id nothing would be finalized, and the answer
would fail on the flag that is then missing. -/
def recordDecision (r : PreflightRequest) (project : Project) (decision : ProtectDecision)
    (nowMs : ℕ) : Prog Preflight :=
  if project.id = "" then throw (.value "cannot access local variable 'finalized'")
  else do
    let finalized ← finalizeDecision (r.scopedId project) r project decision nowMs
    recordHealth (r.scopedId project) r.latencyMs nowMs r.memberId
    pure ⟨decision, finalized⟩

def authenticate (ingestKey : Option String) (project : Option Project) : Prog Project :=
  match truthy ingestKey, project with
  | none, _ => throw (.http 401 "missing ingest key")
  | some _, none => throw (.http 401 "invalid ingest key")
  | some _, some project => pure project

def answering {α : Type} (detail : String) (body : Prog α) : Prog α :=
  tryCatchThe Exn body fun
    | .http status detail => throw (.http status detail)
    | _ => throw (.http 500 detail)

def protectDecision (r : PreflightRequest) (nowMs : ℕ) : Prog Preflight :=
  answering "Failed to evaluate protect decision" do
    let project ← authenticate r.ingestKey r.project
    let decision ← evaluateDecision settings project r.context nowMs
    recordDecision r project decision nowMs

def fallbackDecision (project : Project) : Verdict :=
  if project.protectFailMode = "closed" then .block else .allow

/-- The fallback outcome has replaced a live block by an allow. -/
def supersedesLiveBlock (decision : Verdict) : Bool × Option OutcomePayload → Bool
  | (finalized, replaced) => finalized && decision = .allow && replaced.any fun existing =>
      existing.source = sourceLive && existing.decision = "block"

/-- Finalize a fallback outcome; the answer says whether it has lifted the cooldown. -/
def finalizeFallback (scopedId : String) (decision : Verdict) (reason source : String)
    (requestId : Option String) (nowMs : ℕ) : Prog Bool := do
  let outcome ← finalizeOutcome scopedId decision.text reason source requestId nowMs
  if supersedesLiveBlock decision outcome then clearBlockCooldown scopedId requestId
  else pure false

/-- The marker is set once for a request; its window is read for the notification. -/
def reportFailClosedBlock (scopedId detailReason : String) (requestId : Option String)
    (nowMs : ℕ) : Prog Unit := do
  let first ← markReportSent scopedId "fail_closed" (orElse requestId detailReason)
    settings.incidentDedupWindowSeconds
  if first then
    let _ ← RollingWindow.getProject60s scopedId nowMs
    pure ()
  else pure ()

/-- Record a fallback; `observe` is what is recorded where protection is off. -/
def recordFallback (reason source : String) (observe : String → Option String → Prog Unit)
    (r : ReportRequest) (project : Project) (nowMs : ℕ) : Prog Bool :=
  if project.protectEnabled then do
    let cleared ← finalizeFallback (r.scopedId project) (fallbackDecision project) reason source
      r.resolvedRequestId nowMs
    if project.protectFailMode = "closed" then
      reportFailClosedBlock settings (r.scopedId project) reason r.resolvedRequestId nowMs
      pure cleared
    else pure cleared
  else do
    observe (r.scopedId project) r.resolvedRequestId
    pure false

def fallbackEndpoint (detail reason source : String) (observe : String → Option String → Prog Unit)
    (r : ReportRequest) (nowMs : ℕ) : Prog Bool :=
  answering detail do
    let project ← authenticate r.ingestKey r.project
    recordFallback settings reason source observe r project nowMs

def protectDecisionTimeout (r : ReportRequest) (nowMs : ℕ) : Prog Bool :=
  fallbackEndpoint settings "Failed to record decision timeout" "decision_timeout"
    sourceTimeoutFallback (fun scopedId requestId => recordTimeoutFallback scopedId requestId nowMs)
    r nowMs

def protectDecisionUnavailable (r : ReportRequest) (nowMs : ℕ) : Prog Bool :=
  fallbackEndpoint settings "Failed to record decision unavailable fallback" "decision_unavailable"
    sourceUnavailableFallback (fun _ _ => pure ()) r nowMs

end Endpoints

end Rheonic.ProtectApi
