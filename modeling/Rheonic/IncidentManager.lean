import Rheonic.IncidentRepository

namespace Rheonic.IncidentManager
open CommandProgram PyText RowTable IncidentRepository

/-- The settings of the manager, and which channels it has. -/
structure Manager where
  incidentDedupWindowSeconds : ℤ := 300
  webhookDispatcher : Bool := true
  transportService : Bool := true

/-- A detector's output; its evidence is any dictionary. -/
structure Signal where
  detector : Detector
  fingerprint : String
  evidence : Evidence := []
  episodeWindowSeconds : Option ℤ := none

/-- A call of `process_signal`, with the id drawn for a new incident. -/
structure SignalCall where
  projectId : String
  provider : String
  requestedModel : Option String := none
  resolvedModel : Option String := none
  environment : Option String := none
  now : ℕ
  signal : Signal
  newId : String

inductive BlockReason
  | reqCapBreach
  | tokCapBreach
  | cooldownActive
  | failClosed
  | other (text : String)
  deriving DecidableEq, Repr

def BlockReason.text : BlockReason → String
  | reqCapBreach => "req_cap_breach"
  | tokCapBreach => "tok_cap_breach"
  | cooldownActive => "cooldown_active"
  | failClosed => "fail_closed"
  | other text => text

/-- A call of `process_protect_block`, with the id drawn for a new incident. -/
structure BlockCall where
  projectId : String
  provider : String
  requestedModel : Option String := none
  resolvedModel : Option String := none
  environment : Option String := none
  now : ℕ
  reason : BlockReason
  requests60s : Option ℤ := none
  tokens60s : Option ℤ := none
  reqCap : Option ℤ := none
  tokCap : Option ℤ := none
  blockedUntil : Option String := none
  retryAfterSeconds : Option ℤ := none
  requestId : Option String := none
  source : Option String := none
  newId : String

def strValue (s : Option String) : Value := (s.map Value.str).getD .null

def intOrNull (n : Option ℤ) : Value := (n.map Value.int).getD .null

/-- `now.isoformat()`. -/
def isoformat (now : ℕ) : Value := .str (toString now)

section Manager

variable (m : Manager)

/-- `_signal_episode_window_seconds`, in milliseconds. -/
def signalWindowMs (signal : Signal) : ℕ :=
  match signal.episodeWindowSeconds.filter (0 < ·) with
  | some seconds => seconds.toNat * 1000
  | none => (max m.incidentDedupWindowSeconds 1).toNat * 1000

def blockWindowMs : ℕ := (max m.incidentDedupWindowSeconds 1).toNat * 1000

/-- The keys that are set come before those of the signal. -/
def SignalCall.evidence (r : SignalCall) : Evidence :=
  r.signal.evidence.merge [("provider", .str r.provider),
    ("requested_model", strValue r.requestedModel), ("resolved_model", strValue r.resolvedModel),
    ("environment", strValue r.environment), ("last_seen_at", isoformat r.now)]

def BlockCall.evidence (r : BlockCall) : Evidence :=
  [("provider", .str r.provider), ("requested_model", strValue r.requestedModel),
    ("resolved_model", strValue r.resolvedModel), ("environment", strValue r.environment),
    ("requests_60s", intOrNull r.requests60s), ("tokens_60s", intOrNull r.tokens60s),
    ("req_cap", intOrNull r.reqCap), ("tok_cap", intOrNull r.tokCap),
    ("reason", .str r.reason.text), ("blocked_until", strValue r.blockedUntil),
    ("retry_after_seconds", intOrNull r.retryAfterSeconds), ("request_id", strValue r.requestId),
    ("source", strValue r.source), ("last_seen_at", isoformat r.now)]

/-- What an occurrence of a fingerprint brings to its incident. -/
structure Occurrence where
  projectId : String
  provider : String
  fingerprint : String
  incidentType : IncidentType
  evidence : Evidence
  now : ℕ
  windowMs : ℕ
  newId : String

/-- `{**evidence, "count": count}`. -/
def withCount (evidence : Evidence) (count : ℤ) : Evidence :=
  evidence.merge [("count", .int count)]

def Occurrence.incident (o : Occurrence) : Incident where
  projectId := o.projectId
  provider := o.provider
  incidentType := o.incidentType
  createdAt := o.now
  evidence := withCount o.evidence 1
  fingerprint := some o.fingerprint
  lastSeenAt := some o.now

/-- The evidence of an incident after one more occurrence. -/
def mergedEvidence (i : Incident) (evidence : Evidence) : Evidence :=
  withCount (i.evidence.merge evidence) (i.count + 1)

/-- Block incidents are opened without a notification. -/
def enqueueDetectionNotifications (id : String) (incidentType : IncidentType) : Prog Unit :=
  match incidentType with
  | .block => pure ()
  | .signal _ => notify ⟨.warn, id, m.webhookDispatcher, m.transportService⟩

/-- Merge an occurrence into the active incident of its fingerprint, or open one. -/
def upsert (o : Occurrence) : Prog Unit := do
  let found ← getOpenIncidentByFingerprint o.projectId o.provider o.fingerprint
    (o.now - o.windowMs)
  match found with
  | some (id, incident) =>
    let _ ← updateOpenIncidentActivity id (mergedEvidence incident o.evidence) o.now
    pure ()
  | none =>
    createIncident o.newId o.incident
    enqueueDetectionNotifications m o.newId o.incidentType

def SignalCall.occurrence (r : SignalCall) : Occurrence where
  projectId := r.projectId
  provider := r.provider
  fingerprint := r.signal.fingerprint
  incidentType := .signal r.signal.detector
  evidence := r.evidence
  now := r.now
  windowMs := signalWindowMs m r.signal
  newId := r.newId

def processSignal (r : SignalCall) : Prog Unit := upsert m (r.occurrence m)

def blockFingerprint (projectId provider : String) (reason : BlockReason) : String :=
  projectId ++ ":" ++ provider ++ ":block:" ++ reason.text

def BlockCall.occurrence (r : BlockCall) : Occurrence where
  projectId := r.projectId
  provider := r.provider
  fingerprint := blockFingerprint r.projectId r.provider r.reason
  incidentType := .block
  evidence := r.evidence
  now := r.now
  windowMs := blockWindowMs m
  newId := r.newId

/-- The active block incident that was seen last. -/
def activeBlock (activeAfter : ℕ) (open_ : List (String × Incident)) :
    Option (String × Incident) :=
  (open_.filter fun e => e.2.incidentType = .block ∧ activeAfter ≤ e.2.seenAt).argmax
    fun e => e.2.seenAt

/-- The evidence keeps the reason that it had before, if that was another one. -/
def withPreviousReason (i : Incident) (reason : BlockReason) (evidence : Evidence) : Evidence :=
  match i.evidence.get "reason" with
  | .str existing =>
    if existing ≠ "" ∧ existing ≠ reason.text
      then evidence.merge [("previous_reason", .str existing)] else evidence
  | _ => evidence

/-- Cooldown and fail-closed blocks are only merged. -/
def mergeIntoActiveBlock (r : BlockCall) : Prog Unit := do
  let open_ ← listOpenByProjectProvider r.projectId r.provider
  match activeBlock (r.now - blockWindowMs m) open_ with
  | none => pure ()
  | some (id, incident) =>
    let _ ← updateOpenIncidentActivity id
      (withPreviousReason incident r.reason (mergedEvidence incident r.evidence)) r.now
    pure ()

def processProtectBlock (r : BlockCall) : Prog Unit :=
  match r.reason with
  | .reqCapBreach | .tokCapBreach => upsert m (r.occurrence m)
  | .cooldownActive | .failClosed => mergeIntoActiveBlock m r
  | .other _ => pure ()

/-- An open block incident whose evidence names the live block of the request. -/
def attributedTo (requestId : String) (i : Incident) : Bool :=
  i.incidentType = .block ∧ i.evidence.get "request_id" = .str requestId ∧
    i.evidence.get "source" = .str "live"

/-- Resolve one after another, each at its own time. -/
def resolveAll (now : ℕ) : List (String × Incident) → Prog Unit
  | [] => pure ()
  | e :: rest => do
    let _ ← resolveIncident e.1 now
    resolveAll now rest

/-- Resolve the block incidents attributed to a request; without a request id, none. -/
def reconcileTimeoutSupersededLiveBlock (projectId provider : String) (requestId : Option String)
    (now : ℕ) : Prog Unit :=
  match truthy requestId with
  | none => pure ()
  | some requestId => do
    let open_ ← listOpenByProjectProvider projectId provider
    resolveAll now (open_.filter fun e => attributedTo requestId e.2)

end Manager

end Rheonic.IncidentManager
