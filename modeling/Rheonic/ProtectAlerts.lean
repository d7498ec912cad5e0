import Rheonic.Lib.QuietGate
import Rheonic.DecisionBounds
import Rheonic.FinalizeFootprint
import Rheonic.WholeCalls
import Rheonic.TransportDedupe

namespace Rheonic.ProtectAlerts
open CommandProgram Redis Keys PyText ProtectActionStore ProtectService ProtectApi ProtectBackend
open RollingWindow (Point incrementProject60s getProject60s)
open IncidentManager (Manager)
open QuietGate (Permit Standing Spaced)

/-- What a scope is told of once in a while. -/
inductive Occasion
  | cooldownBlock (blockedUntil : String)
  | clampStarted
  | failClosed (marker : String)
  deriving DecidableEq, Repr

namespace Occasion

def reportType : Occasion → String
  | cooldownBlock _ => "cooldown_block"
  | clampStarted => "clamp_started"
  | failClosed _ => "fail_closed"

def marker : Occasion → String
  | cooldownBlock blockedUntil => blockedUntil
  | clampStarted => "token_clamp"
  | failClosed marker => marker

/-- The key that marks the occasion in a scope. -/
def key (e : Scope × Occasion) : String := reportKey e.1.id e.2.reportType e.2.marker

def suffix (o : Occasion) : String := "report:" ++ o.reportType ++ ":" ++ o.marker

theorem key_toList (e : Scope × Occasion) : (key e).toList = "pa:".toList ++
    (e.1.project.toList ++ ':' :: (e.1.provider.toList ++ ':' :: e.2.suffix.toList)) := by
  simp [key, suffix, reportKey, Scope.id]

theorem colon_not_mem_reportType (o : Occasion) : ':' ∉ o.reportType.toList := by
  cases o <;> simp [reportType]

theorem suffix_injective : Function.Injective suffix := by
  intro o o' h
  have htail : o.reportType.toList ++ ':' :: o.marker.toList =
      o'.reportType.toList ++ ':' :: o'.marker.toList := by
    have hl := congrArg String.toList h
    simpa [suffix] using hl
  have hparts := append_cons_inj o.colon_not_mem_reportType o'.colon_not_mem_reportType htail
  have htype := String.toList_injective hparts.1
  have hmarker := String.toList_injective hparts.2
  cases o <;> cases o' <;> simp_all [reportType, marker]

theorem key_injective : Function.Injective key := by
  intro e e' h
  have hl := congrArg String.toList h
  rw [key_toList, key_toList] at hl
  -- No part of a scope has a colon, so the key is read from the left, part by part.
  have hproject := append_cons_inj e.1.project_colon_free e'.1.project_colon_free
    (List.append_cancel_left hl)
  have hprovider := append_cons_inj e.1.provider_colon_free e'.1.provider_colon_free hproject.2
  have hscope : e.1 = e'.1 := Scope.ext_of_parts (String.toList_injective hproject.1)
    (String.toList_injective hprovider.1)
  exact Prod.ext hscope (suffix_injective (String.toList_injective hprovider.2))

-- With a colon in the provider, the reports of two scopes mark one key.
example : reportKey "p:openai" "fail_closed" "m:report:fail_closed:n" =
    reportKey "p:openai:report:fail_closed:m" "fail_closed" "n" := by decide

theorem key_ne (e : Scope × Occasion) (τ : Scope) {rest : String}
    (hrest : rest.toList.head? ≠ some 'r') : key e ≠ "pa:" ++ τ.id ++ ":" ++ rest := by
  intro h
  have hl := congrArg String.toList h
  have hkey : ("pa:" ++ τ.id ++ ":" ++ rest).toList = "pa:".toList ++
      (τ.project.toList ++ ':' :: (τ.provider.toList ++ ':' :: rest.toList)) := by
    simp [Scope.id]
  rw [key_toList, hkey] at hl
  have hproject := append_cons_inj e.1.project_colon_free τ.project_colon_free
    (List.append_cancel_left hl)
  have hprovider := append_cons_inj e.1.provider_colon_free τ.provider_colon_free hproject.2
  apply hrest
  rw [← hprovider.2]
  simp [suffix]

theorem key_ne_field (e : Scope × Occasion) (τ : Scope) (f : OutcomeField) : key e ≠ τ.key f := by
  rw [Scope.key, OutcomeField.key_eq]
  apply key_ne
  cases f <;> simp [OutcomeField.suffix]

theorem key_ne_latencyKey (e : Scope × Occasion) (τ : Scope) : key e ≠ latencyKey τ.id := by
  have hkey : latencyKey τ.id = "pa:" ++ τ.id ++ ":" ++ "latency:60m" := by
    apply String.toList_injective
    simp [latencyKey]
  rw [hkey]
  exact key_ne e τ (by decide)

theorem actionKey_key (e : Scope × Occasion) : ActionKey (key e) := actionKey_reportKey _ _ _

end Occasion

/-- A protection event, with the e-mail's template and the seed of its dedupe key, as it is handed
to the webhook dispatcher and the transport service. A cap breach has no occasion. -/
structure Alert where
  scope : Scope
  occasion : Option Occasion := none
  eventType : String
  template : String
  payload : Fields TransportDedupe.Value
  dedupeSeed : String
  sentAt : ℕ
  quietSeconds : ℕ := 0
  cooldownUntil : Option ℤ := none

namespace Alert

def ends (a : Alert) : ℕ := a.sentAt + a.quietSeconds * 1000

/-- What the alert means to the gate of the markers. -/
def permit (a : Alert) : Option (Permit (Scope × Occasion)) :=
  a.occasion.map fun o => ⟨(a.scope, o), a.sentAt, a.quietSeconds * 1000⟩

end Alert

/-- `incident_dedup_window_seconds`, in milliseconds, and a second at least. -/
def dedupWindowMs (settings : Settings) : ℕ :=
  (max settings.incidentDedupWindowSeconds 1).toNat * 1000

/-- Until when its occasion is not told of again: the end of the cooldown, or of the window. -/
def Alert.quietUntil (settings : Settings) (a : Alert) : ℤ :=
  match a.occasion, a.cooldownUntil with
  | some (.cooldownBlock _), some untilMs => untilMs
  | _, _ => a.sentAt + dedupWindowMs settings

def permits (alerts : List Alert) : List (Permit (Scope × Occasion)) :=
  alerts.filterMap Alert.permit

/-- A live decision of a project and provider without a colon in their ids: with one, the markers
of two scopes may share a key. -/
structure LiveTask where
  project : Project
  call : LiveCall
  scope : Scope
  scopedId_eq : call.request.scopedId project = scope.id

/-- A fallback report of such a project and provider. -/
structure ReportTask where
  project : Project
  call : ReportCall
  scope : Scope
  scopedId_eq : call.report.scopedId project = scope.id

section Payload

open TransportDedupe (optional)

def optionalInt : Option ℤ → TransportDedupe.Value
  | none => .scalar .null
  | some n => .scalar (.int n)

/-- What the payloads begin with. -/
def payloadHead (event projectId provider : String) (requestedModel environment : Option String)
    (reason : String) : Fields TransportDedupe.Value :=
  [("event", .string event), ("project_id", .string projectId), ("provider", .string provider),
    ("requested_model", optional requestedModel), ("resolved_model", .scalar .null),
    ("environment", optional environment), ("reason", .string reason)]

def usageFields (requests60s : ℕ) (tokens60s : ℤ) (reqCap tokCap : Option ℤ) :
    Fields TransportDedupe.Value :=
  [("requests_60s", .scalar (.int requests60s)), ("tokens_60s", .scalar (.int tokens60s)),
    ("req_cap", optionalInt reqCap), ("tok_cap", optionalInt tokCap)]

/-- `{"recommended_max_output_tokens": ..., "applied": ...}`. -/
def clampValue : Option Clamp → TransportDedupe.Value
  | none => .scalar .null
  | some clamp => .object [
      ("recommended_max_output_tokens", .scalar (.int clamp.recommendedMaxOutputTokens)),
      ("applied", .scalar (.bool clamp.applied))]

end Payload

section Alerts

-- `isoformat` writes a time in milliseconds.
variable (isoformat : ℤ → String) (settings : Settings)

/-- `_enqueue_block_notifications`, and the payload of a cooldown block. -/
def blockPayload (c : LiveTask) (d : ProtectDecision) (now : ℕ) : Fields TransportDedupe.Value :=
  payloadHead "protection.block" c.project.id c.call.request.provider c.call.requestedModel
      c.call.environment d.reason.text ++
    ("detail_reason", .string d.reason.text) ::
    usageFields d.snapshot.requests60s d.snapshot.tokens60s d.snapshot.thresholdReq60s
      d.snapshot.thresholdTok60s ++
    [("blocked_until", TransportDedupe.optional (d.blockedUntil.map isoformat)),
      ("retry_after_seconds", optionalInt d.retryAfterSeconds),
      ("source", .string sourceLive), ("sent_at", .string (isoformat now))]

def blockAlert (c : LiveTask) (d : ProtectDecision) (now : ℕ) : Alert where
  scope := c.scope
  eventType := "protection.block"
  template := "protection_block"
  payload := blockPayload isoformat c d now
  dedupeSeed := d.reason.text
  sentAt := now

def cooldownAlert (c : LiveTask) (d : ProtectDecision) (untilMs seconds : ℤ) (now : ℕ) : Alert where
  scope := c.scope
  occasion := some (.cooldownBlock (isoformat untilMs))
  eventType := "protection.block"
  template := "protection_block"
  payload := blockPayload isoformat c d now
  dedupeSeed := "cooldown:" ++ isoformat untilMs
  sentAt := now
  quietSeconds := (max seconds 1).toNat
  cooldownUntil := some untilMs

/-- `_enqueue_cooldown_block_if_needed`: once for the end of a cooldown. -/
def enqueueCooldownBlockIfNeeded (c : LiveTask) (d : ProtectDecision) (untilMs seconds : ℤ)
    (now : ℕ) : Prog (Option Alert) := do
  let first ← markReportSent c.scope.id "cooldown_block" (isoformat untilMs) (max seconds 1)
  if first then pure (some (cooldownAlert isoformat c d untilMs seconds now)) else pure none

def clampAlert (c : LiveTask) (d : ProtectDecision) (now : ℕ) : Alert where
  scope := c.scope
  occasion := some .clampStarted
  eventType := "protection.clamp_started"
  template := "protection_clamp_started"
  payload := payloadHead "protection.clamp_started" c.project.id c.call.request.provider
      c.call.requestedModel c.call.environment "token_clamp" ++
    usageFields d.snapshot.requests60s d.snapshot.tokens60s d.snapshot.thresholdReq60s
      d.snapshot.thresholdTok60s ++
    [("estimated_next_tokens", optionalInt d.snapshot.predictive.estimatedNextTokens),
      ("clamp", clampValue d.clamp), ("sent_at", .string (isoformat now))]
  dedupeSeed := "token_clamp"
  sentAt := now
  quietSeconds := (max settings.incidentDedupWindowSeconds 1).toNat

/-- `_enqueue_clamp_started_notifications`: once in a window. -/
def enqueueClampStartedNotifications (c : LiveTask) (d : ProtectDecision) (now : ℕ) :
    Prog (Option Alert) := do
  let first ← markReportSent c.scope.id "clamp_started" "token_clamp"
    settings.incidentDedupWindowSeconds
  if first then pure (some (clampAlert isoformat settings c d now)) else pure none

/-- The notifications of `_postprocess_live_preflight_decision`. A decision that came after the
timeout of the SDK is not told of. -/
def liveAlert (c : LiveTask) (d : ProtectDecision) (now : ℕ) : Prog (Option Alert) :=
  if c.call.request.latencyMs ≤ max d.decisionTimeoutMs 0 then
    if d.decision = .block ∧ (d.reason = .reqCapBreach ∨ d.reason = .tokCapBreach) then
      pure (some (blockAlert isoformat c d now))
    else if d.decision = .block ∧ d.reason = .cooldownActive then
      match d.blockedUntil, d.retryAfterSeconds with
      | some untilMs, some seconds => enqueueCooldownBlockIfNeeded isoformat c d untilMs seconds now
      | _, _ => pure none
    else if d.decision = .clamp ∧ d.reason = .tokenClamp then
      enqueueClampStartedNotifications isoformat settings c d now
    else pure none
  else pure none

def ReportTask.marker (q : ReportTask) : String :=
  orElse q.call.report.resolvedRequestId q.call.kind.reason

def failClosedAlert (q : ReportTask) (usage : ℕ × ℤ) (now : ℕ) : Alert where
  scope := q.scope
  occasion := some (.failClosed q.marker)
  eventType := "protection.block"
  template := "protection_block"
  payload := payloadHead "protection.block" q.project.id q.call.provider q.call.requestedModel
      q.call.environment "fail_closed" ++
    ("detail_reason", .string q.call.kind.reason) ::
    usageFields usage.1 usage.2 q.project.protectMaxReqPerMin q.project.protectMaxTokPerMin ++
    [("source", .string q.call.kind.source), ("sent_at", .string (isoformat now))]
  dedupeSeed := "fail_closed:" ++ q.marker
  sentAt := now
  quietSeconds := (max settings.incidentDedupWindowSeconds 1).toNat

/-- `report_fail_closed_block`: once in a window for a request. -/
def reportFailClosed (q : ReportTask) (now : ℕ) : Prog (Option Alert) := do
  let first ← markReportSent q.scope.id "fail_closed" q.marker settings.incidentDedupWindowSeconds
  if first then
    let usage ← getProject60s q.scope.id now
    pure (some (failClosedAlert isoformat settings q usage now))
  else pure none

end Alerts

/-- What the protect endpoints share, and the alerts they have raised, the newest first. -/
structure Desk where
  backend : Backend
  alerts : List Alert := []

def Desk.at (x : Desk) (now : ℕ) : Desk := { x with backend := x.backend.at now }

section Steps

variable (isoformat : ℤ → String) (settings : Settings) (m : Manager)

/-- `_postprocess_live_preflight_decision`: the notifications, and the incident. -/
def postprocess (c : LiveTask) (d : ProtectDecision) (now : ℕ) (x : Desk) : Desk :=
  let r := run (liveAlert isoformat settings c d now) x.backend.redis
  { backend := recordPreflightIncidentIfNeeded m c.project c.call d now
      { x.backend with redis := r.2 }
    alerts := (answerOf none r).toList ++ x.alerts }

/-- The last step of a live decision runs in the background. -/
def LiveTask.step (c : LiveTask) (now : ℕ) : LiveStage → Desk → LiveStage × Desk
  | .cooled d finalized, x =>
    (.ended, if finalized then postprocess isoformat settings m c d now x else x)
  | stage, x =>
    let r := c.call.step settings m c.project now stage x.backend
    (r.1, { x with backend := r.2 })

/-- The block of a project that fails closed: the notification, and the incident. -/
def failClosed (q : ReportTask) (now : ℕ) (x : Desk) : Desk :=
  let r := run (reportFailClosed isoformat settings q now) x.backend.redis
  { backend := { x.backend with
      redis := r.2
      incidents := if r.1.isOk then (Program.run IncidentRepository.exec
          (IncidentManager.processProtectBlock m (failClosedBlock q.project q.call now))
          x.backend.incidents).2 else x.backend.incidents }
    alerts := (answerOf none r).toList ++ x.alerts }

def ReportTask.step (q : ReportTask) (now : ℕ) : ReportStage → Desk → ReportStage × Desk
  | .reconciled, x =>
    (.ended, if q.project.protectEnabled ∧ q.project.protectFailMode = "closed" then
      failClosed isoformat settings m q now x else x)
  | stage, x =>
    let r := q.call.step settings m q.project now stage x.backend
    (r.1, { x with backend := r.2 })

/-- A request that the backend is working on. -/
inductive Task
  | live (c : LiveTask) (stage : LiveStage)
  | report (q : ReportTask) (stage : ReportStage)

namespace Task

def ended : Task → Bool
  | live _ .ended => true
  | report _ .ended => true
  | _ => false

def step (now : ℕ) : Task → Desk → Task × Desk
  | live c stage, x =>
    let r := c.step isoformat settings m now stage x
    (live c r.1, r.2)
  | report q stage, x =>
    let r := q.step isoformat settings m now stage x
    (report q r.1, r.2)

end Task

/-- All requests so far, and the points that ingested events have put into the windows. -/
structure System where
  desk : Desk
  tasks : List Task := []
  increments : List (String × Point) := []

namespace System

def store (x : System) : Store := x.desk.backend.redis

def clock (x : System) : ℕ := x.store.clock

end System

/-- A request arrives, one that is in progress takes its next step, or an event is ingested. -/
inductive Event
  | preflight (c : LiveTask)
  | fallback (q : ReportTask)
  | act (i : ℕ)
  | traffic (scopeId : String) (totalTokens : ℤ) (memberId : String)

def act (now : ℕ) (i : ℕ) (x : System) : System :=
  match x.tasks[i]? with
  | some task =>
    let r := task.step isoformat settings m now (x.desk.at now)
    { x with desk := r.2, tasks := x.tasks.set i r.1 }
  | none => { x with desk := x.desk.at now }

def System.next (now : ℕ) (x : System) : Event → System
  | .preflight c => { x with desk := x.desk.at now, tasks := x.tasks ++ [.live c .waiting] }
  | .fallback q => { x with desk := x.desk.at now, tasks := x.tasks ++ [.report q .waiting] }
  | .act i => act isoformat settings m now i x
  | .traffic scopeId totalTokens memberId => { x with
      desk := { x.desk with backend := { x.desk.backend with
        redis := (run (incrementProject60s scopeId (some totalTokens) now memberId)
          (x.store.advance now)).2 } }
      increments := x.increments ++ [(scopeId, ⟨now, memberId, totalTokens⟩)] }

def Event.Fresh (x : System) : Event → Prop
  | .traffic _ _ memberId => ∀ e ∈ x.increments, e.2.memberId ≠ memberId
  | _ => True

/-- Any requests of any projects, their steps in any order, at times that do not decrease. -/
inductive Reachable : System → Prop
  | start (now : ℕ) (incidents : IncidentRepository.World) :
      Reachable { desk := { backend := { redis := .empty now, incidents := incidents } } }
  | next {x : System} (h : Reachable x) (now : ℕ) (hnow : x.clock ≤ now) (e : Event)
      (hfresh : e.Fresh x) : Reachable (x.next isoformat settings m now e)

end Steps

end Rheonic.ProtectAlerts
