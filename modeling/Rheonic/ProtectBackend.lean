import Rheonic.FinalizeAnswer
import Rheonic.IncidentServices
import Rheonic.ProtectRuns

namespace Rheonic.ProtectBackend
open CommandProgram Redis Keys PyText ProtectActionStore ProtectService ProtectApi
open IncidentManager (Manager BlockCall BlockReason)

/-- The notification of a fail-closed block. -/
structure FailClosedNotice where
  scopedId : String
  detailReason : String
  source : String
  marker : String
  deriving DecidableEq, Repr

/-- What the protect endpoints share. -/
structure Backend where
  redis : Store
  incidents : IncidentRepository.World
  notices : List FailClosedNotice := []

def Backend.at (w : Backend) (now : ℕ) : Backend := { w with redis := w.redis.advance now }

/-- What a program answers, with a default for a failure. -/
def answerOf {α : Type} (default : α) (r : Except Exn α × Store) : α := r.1.toOption.getD default

/-- A preflight request of an authenticated project, with what its incident needs. -/
structure LiveCall where
  request : PreflightRequest
  requestedModel : Option String := none
  environment : Option String := none
  newId : String

inductive ReportKind
  | timeout
  | unavailable
  deriving DecidableEq, Repr

def ReportKind.reason : ReportKind → String
  | timeout => "decision_timeout"
  | unavailable => "decision_unavailable"

def ReportKind.source : ReportKind → String
  | timeout => sourceTimeoutFallback
  | unavailable => sourceUnavailableFallback

/-- A fallback report of an authenticated project. -/
structure ReportCall where
  kind : ReportKind
  report : ReportRequest
  requestedModel : Option String := none
  environment : Option String := none
  newId : String

/-- The provider of a report as its incidents know it. -/
def ReportCall.provider (c : ReportCall) : String := orElse c.report.provider "unknown"

/-- Where a live decision stands, with what it has found out. -/
inductive LiveStage
  | waiting
  | evaluated (decision : ProtectDecision)
  | finalized (decision : ProtectDecision) (finalized : Bool)
  | cooled (decision : ProtectDecision) (finalized : Bool)
  | ended
  deriving DecidableEq

/-- Where a report stands, with the answer of its finalize call. -/
inductive ReportStage
  | waiting
  | finalized (outcome : Bool × Option OutcomePayload)
  | cleared (outcome : Bool × Option OutcomePayload)
  | reconciled
  | ended
  deriving DecidableEq

section Steps

variable (settings : Settings) (m : Manager) (project : Project)

def blockReason : Reason → Option BlockReason
  | .reqCapBreach => some .reqCapBreach
  | .tokCapBreach => some .tokCapBreach
  | .cooldownActive => some .cooldownActive
  | _ => none

/-- `_record_preflight_incident_if_needed`. -/
def recordPreflightIncidentIfNeeded (c : LiveCall) (decision : ProtectDecision) (now : ℕ)
    (w : Backend) : Backend :=
  match blockReason decision.reason with
  | none => w
  | some reason =>
    if decision.decision = .block then { w with
      incidents := (Program.run IncidentRepository.exec (IncidentManager.processProtectBlock m {
        projectId := project.id
        provider := c.request.provider
        requestedModel := c.requestedModel
        environment := c.environment
        now := now
        reason := reason
        requests60s := some decision.snapshot.requests60s
        tokens60s := some decision.snapshot.tokens60s
        reqCap := decision.snapshot.thresholdReq60s
        tokCap := decision.snapshot.thresholdTok60s
        blockedUntil := decision.blockedUntil.map toString
        retryAfterSeconds := decision.retryAfterSeconds
        requestId := c.request.requestId
        source := some sourceLive
        newId := c.newId }) w.incidents).2 }
    else w

/-- The next step of a live decision: evaluate; finalize the outcome; set the cooldown, with the
health sample; the task in the background. -/
def LiveCall.step (c : LiveCall) (now : ℕ) : LiveStage → Backend → LiveStage × Backend
  | .waiting, w =>
    match run (evaluateDecision settings project c.request.context now) w.redis with
    | (.ok decision, s) => (.evaluated decision, { w with redis := s })
    | (.error _, s) => (.ended, { w with redis := s })
  | .evaluated decision, w =>
    if project.id = "" then (.ended, w)
    else if project.protectEnabled then
      let r := run (finalizeOutcome (c.request.scopedId project) decision.decision.text
        decision.reason.text sourceLive c.request.requestId now) w.redis
      (.finalized decision (answerOf (false, none) r).1, { w with redis := r.2 })
    else (.finalized decision false, w)
  | .finalized decision finalized, w =>
    let started := (run (startCooldown (c.request.scopedId project) c.request.requestId
      ⟨decision, finalized⟩) w.redis).2
    let r := run (recordHealth (c.request.scopedId project) c.request.latencyMs now
      c.request.memberId) started
    (.cooled decision finalized, { w with redis := r.2 })
  | .cooled decision finalized, w =>
    if finalized then (.ended, recordPreflightIncidentIfNeeded m project c decision now w)
    else (.ended, w)
  | .ended, w => (.ended, w)

/-- `report_fail_closed_block`: one notification for each marker. The flag says that nothing has
been raised; a window that cannot be read raises. -/
def reportFailClosedBlock (c : ReportCall) (now : ℕ) (w : Backend) : Bool × Backend :=
  let scopedId := c.report.scopedId project
  let marker := orElse c.report.resolvedRequestId c.kind.reason
  let r := run (markReportSent scopedId "fail_closed" marker settings.incidentDedupWindowSeconds)
    w.redis
  if answerOf false r then
    match run (RollingWindow.getProject60s scopedId now) r.2 with
    | (.ok _, s) => (true, { w with
        redis := s
        notices := ⟨scopedId, c.kind.reason, c.kind.source, marker⟩ :: w.notices })
    | (.error _, s) => (false, { w with redis := s })
  else (true, { w with redis := r.2 })

/-- The block that a fail-closed report merges into an incident. -/
def failClosedBlock (c : ReportCall) (now : ℕ) : BlockCall where
  projectId := project.id
  provider := c.provider
  requestedModel := c.requestedModel
  environment := c.environment
  now := now
  reason := .failClosed
  reqCap := project.protectMaxReqPerMin
  tokCap := project.protectMaxTokPerMin
  requestId := c.report.resolvedRequestId
  source := some c.kind.source
  newId := c.newId

/-- What a report records where protection is off. -/
def observeFallback (c : ReportCall) (now : ℕ) : Prog Unit :=
  match c.kind with
  | .timeout => recordTimeoutFallback (c.report.scopedId project) c.report.resolvedRequestId now
  | .unavailable => pure ()

/-- The next step of a report: finalize the fallback; clear the cooldown; reconcile the incidents;
and what comes on top where the project fails closed. -/
def ReportCall.step (c : ReportCall) (now : ℕ) : ReportStage → Backend → ReportStage × Backend
  | .waiting, w =>
    if project.protectEnabled then
      let r := run (finalizeOutcome (c.report.scopedId project) (fallbackDecision project).text
        c.kind.reason c.kind.source c.report.resolvedRequestId now) w.redis
      (.finalized (answerOf (false, none) r), { w with redis := r.2 })
    else
      (.finalized (false, none), { w with redis := (run (observeFallback project c now) w.redis).2 })
  | .finalized outcome, w =>
    if supersedesLiveBlock (fallbackDecision project) outcome then
      (.cleared outcome, { w with redis := (run (clearBlockCooldown (c.report.scopedId project)
        c.report.resolvedRequestId) w.redis).2 })
    else (.cleared outcome, w)
  | .cleared outcome, w =>
    if supersedesLiveBlock (fallbackDecision project) outcome then
      (.reconciled, { w with
        incidents := (Program.run IncidentRepository.exec
          (IncidentManager.reconcileTimeoutSupersededLiveBlock project.id c.provider
            c.report.resolvedRequestId now) w.incidents).2 })
    else (.reconciled, w)
  | .reconciled, w =>
    if project.protectEnabled ∧ project.protectFailMode = "closed" then
      match reportFailClosedBlock settings project c now w with
      | (true, w) => (.ended, { w with
          incidents := (Program.run IncidentRepository.exec (IncidentManager.processProtectBlock m
            (failClosedBlock project c now)) w.incidents).2 })
      | (false, w) => (.ended, w)
    else (.ended, w)
  | .ended, w => (.ended, w)

def LiveCall.whole (c : LiveCall) (now : ℕ) (w : Backend) : Backend :=
  let step := fun e : LiveStage × Backend => c.step settings m project now e.1 e.2
  (step (step (step (step (.waiting, w.at now))))).2

def ReportCall.whole (c : ReportCall) (now : ℕ) (w : Backend) : Backend :=
  let step := fun e : ReportStage × Backend => c.step settings m project now e.1 e.2
  (step (step (step (step (.waiting, w.at now))))).2

end Steps

end Rheonic.ProtectBackend
