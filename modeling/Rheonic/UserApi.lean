import Rheonic.MetricsService
import Rheonic.KeyFamilies
import Rheonic.IncidentRepository
import Rheonic.OutboxView
import Rheonic.Lib.Unwinding

namespace Rheonic.UserApi
open Unwinding RowTable PyText SortedBy Keys KeyFamilies
open IncidentRepository (Incident Incidents IncidentType Detector Evidence)
open MetricsService (ProjectModel)
open TransportOutbox (Kind Message Outbox Payload FailureReport)
open TransportService (EnqueueCall QueueReplies Raised)
open ProtectActionStore (ActionMetrics Health)

structure User where
  id : String
  email : String

/-- A row of the projects, without its id. Times are in milliseconds. -/
structure ProjectRecord where
  name : String
  userId : Option String
  protectEnabled : Bool := false
  protectFailMode : String := "open"
  applyClamp : Bool := false
  protectMaxReqPerMin : Option ℤ := none
  protectMaxTokPerMin : Option ℤ := none
  webhookEnabled : Bool := false
  emailEnabled : Bool := false
  webhookUrl : Option String := none
  createdAt : ℕ
  deriving DecidableEq, Repr

inductive KeyStatus
  | active
  | revoked
  deriving DecidableEq, Repr

/-- A row of the ingest keys, without its id. -/
structure IngestKeyRecord where
  projectId : String
  name : String
  keyHash : String
  last4 : Option String
  status : KeyStatus := .active
  createdAt : ℕ
  revokedAt : Option ℕ := none
  deriving DecidableEq, Repr

/-- The tables and the Redis store behind the API. -/
structure Database where
  projects : Table String ProjectRecord
  ingestKeys : Table String IngestKeyRecord
  incidents : Incidents
  events : List IngestEvent.Event
  projectModels : List ProjectModel
  transport : TransportService.World
  redis : Redis.Store

inductive Json
  | null
  | bool (b : Bool)
  | str (s : String)
  | object (fields : List (String × Json))

def Json.optional : Option String → Json
  | none => null
  | some s => str s

/-- What `build_transport_dedupe_key` hashes. -/
structure DedupeSource where
  projectId : String
  kind : Kind
  eventType : String
  destination : Option String
  payload : Json
  seed : Option String

/-- How the server under test answers a webhook test. -/
inductive TestReply
  | response (statusCode : ℕ)
  | httpStatusError (statusCode : ℕ)
  | timeout
  | httpError (text : String)
  | otherError

/-- The settings, and what lies outside the database: encoders and hashes, the job queue, name
resolution, and the servers that webhooks and mails go to. -/
structure External where
  /-- The retry intervals are in milliseconds here, as all times are. -/
  config : TransportService.Config := {}
  webhookTestRateLimitWindowSeconds : ℤ := 60
  webhookTestRateLimitPerWindow : ℤ := 5
  encode : Json → String
  dedupeKey : DedupeSource → String
  failureKey : String → FailureReport → String
  hashKey : String → String
  isoformat : ℕ → String
  queueReplies : String → QueueReplies
  ensureWebhookUrlIsSafe : ℕ → String → Except Exn Unit
  sendWebhookTestRequest : ℕ → String → String → TestReply
  deliver : ℕ → Outbox → Option ProjectRecord → Except Raised Unit

structure ProjectOut where
  id : String
  name : String
  createdAt : ℕ
  deriving DecidableEq, Repr

structure KeySummaryOut where
  id : String
  name : String
  last4 : Option String
  status : KeyStatus
  createdAt : ℕ
  revokedAt : Option ℕ
  deriving DecidableEq, Repr

structure CreateKeyOut where
  key : String
  keyId : String
  name : String
  last4 : Option String
  createdAt : ℕ
  deriving DecidableEq, Repr

/-- The protect settings of a project, as they are written and as they are shown. -/
structure ProjectProtect where
  protectEnabled : Bool
  protectFailMode : String
  applyClamp : Bool := false
  protectMaxReqPerMin : Option ℤ
  protectMaxTokPerMin : Option ℤ
  deriving DecidableEq, Repr

structure ProjectWebhookIn where
  enabled : Bool
  emailEnabled : Bool := false
  url : Option String := none

structure ProjectWebhookOut where
  enabled : Bool
  emailEnabled : Bool
  url : Option String
  lastStatus : Option String
  lastAt : Option ℕ
  lastError : Option String
  deriving DecidableEq, Repr

structure ProjectWebhookTestOut where
  status : String
  statusCode : Option ℕ := none
  error : Option String := none
  deriving DecidableEq, Repr

structure DeliveryFailuresOut where
  count : ℕ
  lastAttemptAt : Option ℕ
  deriving DecidableEq, Repr

structure IncidentOut where
  id : String
  incidentType : IncidentType
  status : IncidentRepository.Status
  createdAt : ℕ
  resolvedAt : Option ℕ
  evidence : Evidence
  deriving DecidableEq, Repr

/-- The validated body of a feedback. -/
structure FeedbackIn where
  reportType : Option String := none
  message : String
  email : Option String := none
  screenshotName : Option String := none
  screenshotContentType : Option String := none
  screenshotBase64 : Option String := none
  projectId : Option String := none
  page : Option String := none
  mode : Option String := none
  timestamp : Option String := none
  appVersion : Option String := none

inductive Body
  | projects (l : List ProjectOut)
  | project (p : ProjectOut)
  | providers (l : List String)
  | deleted
  | keys (l : List KeySummaryOut)
  | key (k : KeySummaryOut)
  | createdKey (k : CreateKeyOut)
  | protect (p : ProjectProtect)
  | webhook (w : ProjectWebhookOut)
  | webhookTest (t : ProjectWebhookTestOut)
  | realtime (requests60s : ℕ) (tokens60s : ℤ)
  | protectMetrics (m : ActionMetrics)
  | protectHealth (h : Health)
  | deliveryFailures (d : DeliveryFailuresOut)
  | incidents (l : List IncidentOut)
  | resolved
  | queued
  deriving DecidableEq, Repr

/-- A call of the user API with its parameters and the ids and keys drawn for it. -/
inductive Call
  | listProjects
  | createProject (name newId : String)
  | listProjectProviders (projectId : String)
  | deleteProject (projectId : String)
  | listProjectKeys (projectId : String)
  | createProjectKey (projectId name newId plaintext : String)
  | revokeKey (keyId : String)
  | rotateKey (keyId newId plaintext : String)
  | getProjectProtect (projectId : String)
  | updateProjectProtect (projectId : String) (payload : ProjectProtect)
  | getProjectWebhook (projectId : String)
  | updateProjectWebhook (projectId : String) (payload : ProjectWebhookIn)
  | testProjectWebhook (projectId : String) (url : Option String) (clientIp : String)
  | getRealtimeMetrics (projectId : String) (provider : Option String)
  | getProtectMetrics (projectId : String) (provider : Option String)
  | getProtectHealth (projectId : String) (provider : Option String)
  | getDeliveryFailures (projectId : String) (kind : Kind)
  | listIncidents (projectId status : String) (provider : Option String)
  | resolveIncident (incidentId webhookId emailId : String)
  | sendFeedback (payload : FeedbackIn) (newId : String)

abbrev Api := Action Database Exn

/-- An insert that a unique constraint refuses. -/
def integrityError : Exn := .value "UNIQUE constraint failed"

def projectNotFound : Exn := .http 404 "project not found"

def keyNotFound : Exn := .http 404 "key not found"

def incidentNotFound : Exn := .http 404 "Incident not found"

/-- HTTP errors are passed on, and everything else becomes an internal error. -/
def orInternalError {α : Type} (detail : String) (m : Api α) : Api α :=
  tryCatchThe Exn m fun
    | .http status text => throw (.http status text)
    | _ => throw (.http 500 detail)

/-- A program on the Redis store, which may use what the tables hold. -/
def onRedis {α : Type} (p : Database → Redis.Prog α) : Api α :=
  transaction fun d =>
    let served := Redis.run (p d) d.redis
    (served.1, { d with redis := served.2 })

def truncateLast (n : ℕ) (s : String) : String := String.ofList (s.toList.drop (s.toList.length - n))

/-- `(value or "").strip() or default`. -/
def stripped (value : Option String) (default : String) : String :=
  orElse (some (strip (orElse value ""))) default

def controlChars : List Char := ['\r', '\n', '\t']

/-- The characters of `^[A-Za-z0-9 _.-]+$`. -/
def isNameChar (c : Char) : Bool :=
  c.isAlphanum || c = ' ' || c = '_' || c = '.' || c = '-'

def sanitizeName (value fieldName : String) : Except Exn String :=
  let normalized := strip value
  if normalized = "" then .error (.http 400 (fieldName ++ " is required"))
  else if 80 < normalized.toList.length then
    .error (.http 400 (fieldName ++ " must be <= 80 chars"))
  else if normalized.toList.any (· ∈ controlChars) then
    .error (.http 400 (fieldName ++ " contains invalid characters"))
  else if normalized.toList.all isNameChar then .ok normalized
  else .error (.http 400 (fieldName ++ " has invalid format"))

section Projects

/-- The check that a call names a project of its user. -/
def ensureProjectOwnedByUser (projectId userId : String) : Api ProjectRecord := do
  match ← query fun d : Database => d.projects.get projectId with
  | none => throw projectNotFound
  | some project => if project.userId = some userId then pure project else throw projectNotFound

def projectOut (e : String × ProjectRecord) : ProjectOut := ⟨e.1, e.2.name, e.2.createdAt⟩

def listProjectsForUser (userId : String) (d : Database) : List (String × ProjectRecord) :=
  sortedBy (fun e => e.2.createdAt) (d.projects.select fun _ project => project.userId = some userId)

def listProjects (user : User) : Api Body := do
  return .projects ((← query (listProjectsForUser user.id)).map projectOut)

def getProjectByNameForUser (name userId : String) (d : Database) : Option (String × ProjectRecord) :=
  d.projects.rows.find? fun e => e.2.name = name ∧ e.2.userId = some userId

def insertProject (id : String) (project : ProjectRecord) : Api Unit :=
  transaction fun d =>
    match d.projects.insert id project with
    | some projects => (.ok (), { d with projects := projects })
    | none => (.error integrityError, d)

def createProject (user : User) (now : ℕ) (name newId : String) : Api Body := do
  let normalizedName ← ofResult (sanitizeName name "project name")
  match ← query (getProjectByNameForUser normalizedName user.id) with
  | some _ => throw (.http 409 "project name already exists")
  | none =>
    let project : ProjectRecord := { name := normalizedName, userId := some user.id, createdAt := now }
    insertProject newId project
    return .project (projectOut (newId, project))

def listProjectProviders (user : User) (projectId : String) : Api Body := do
  let _ ← ensureProjectOwnedByUser projectId user.id
  return .providers (← query fun d => MetricsService.listProjectProviders d.projectModels projectId)

/-- Remove a project with the rows that refer to it; its outbox rows stay. -/
def removeProject (projectId : String) : Api Bool :=
  transaction fun d =>
    match d.projects.get projectId with
    | none => (.ok false, d)
    | some _ =>
      (.ok true, { d with
        events := d.events.filter fun event => event.projectId ≠ projectId
        incidents := d.incidents.deleteWhere fun _ i => i.projectId = projectId
        ingestKeys := d.ingestKeys.deleteWhere fun _ key => key.projectId = projectId
        projectModels := d.projectModels.filter fun m => m.projectId ≠ projectId
        projects := d.projects.deleteWhere fun id _ => id = projectId })

def deleteProject (user : User) (projectId : String) : Api Body := do
  let _ ← ensureProjectOwnedByUser projectId user.id
  if ← removeProject projectId then return .deleted else throw projectNotFound

/-- Write to the row of a project; without one there is no answer. -/
def updateProject (projectId : String) (f : ProjectRecord → ProjectRecord) :
    Api (Option ProjectRecord) :=
  transaction fun d =>
    let projects := d.projects.update projectId f
    (.ok (projects.get projectId), { d with projects := projects })

def protectOut (project : ProjectRecord) : ProjectProtect where
  protectEnabled := project.protectEnabled
  protectFailMode := project.protectFailMode
  applyClamp := project.applyClamp
  protectMaxReqPerMin := project.protectMaxReqPerMin
  protectMaxTokPerMin := project.protectMaxTokPerMin

def getProjectProtect (user : User) (projectId : String) : Api Body := do
  return .protect (protectOut (← ensureProjectOwnedByUser projectId user.id))

def ProjectRecord.withProtect (project : ProjectRecord) (payload : ProjectProtect) :
    ProjectRecord :=
  { project with
    protectEnabled := payload.protectEnabled
    protectFailMode := payload.protectFailMode
    applyClamp := payload.applyClamp
    protectMaxReqPerMin := payload.protectMaxReqPerMin
    protectMaxTokPerMin := payload.protectMaxTokPerMin }

def updateProjectProtect (user : User) (projectId : String) (payload : ProjectProtect) :
    Api Body := do
  let _ ← ensureProjectOwnedByUser projectId user.id
  match ← updateProject projectId fun project => project.withProtect payload with
  | none => throw projectNotFound
  | some updated => return .protect (protectOut updated)

end Projects

section Keys

def keySummary (e : String × IngestKeyRecord) : KeySummaryOut :=
  ⟨e.1, e.2.name, e.2.last4, e.2.status, e.2.createdAt, e.2.revokedAt⟩

/-- The keys of a project, those created last first. -/
def listByProject (projectId : String) (d : Database) : List (String × IngestKeyRecord) :=
  sortedByDesc (fun e => e.2.createdAt) (d.ingestKeys.select fun _ key => key.projectId = projectId)

def listProjectKeys (user : User) (projectId : String) : Api Body := do
  let _ ← ensureProjectOwnedByUser projectId user.id
  return .keys ((← query (listByProject projectId)).map keySummary)

/-- Ids and hashes of keys are unique. -/
def insertKey (id : String) (key : IngestKeyRecord) : Api Unit :=
  transaction fun d =>
    if d.ingestKeys.rows.any fun e => e.2.keyHash = key.keyHash then (.error integrityError, d)
    else match d.ingestKeys.insert id key with
      | some ingestKeys => (.ok (), { d with ingestKeys := ingestKeys })
      | none => (.error integrityError, d)

def createKey (ext : External) (user : User) (now : ℕ) (projectId name newId plaintext : String) :
    Api Body := do
  let _ ← ensureProjectOwnedByUser projectId user.id
  let normalizedName ← ofResult (sanitizeName name "key label")
  let last4 := some (truncateLast 4 plaintext)
  insertKey newId
    { projectId := projectId, name := normalizedName, keyHash := ext.hashKey plaintext,
      last4 := last4, createdAt := now }
  return .createdKey ⟨plaintext, newId, normalizedName, last4, now⟩

/-- Write that a key is revoked; without its row there is no answer. -/
def markRevoked (keyId : String) (now : ℕ) : Api (Option IngestKeyRecord) :=
  transaction fun d =>
    let ingestKeys := d.ingestKeys.update keyId fun key =>
      { key with status := .revoked, revokedAt := some now }
    (.ok (ingestKeys.get keyId), { d with ingestKeys := ingestKeys })

def revokeKey (user : User) (now : ℕ) (keyId : String) : Api Body := do
  match ← query fun d : Database => d.ingestKeys.get keyId with
  | none => throw keyNotFound
  | some existing =>
    let _ ← ensureProjectOwnedByUser existing.projectId user.id
    if existing.status = .revoked then return .key (keySummary (keyId, existing))
    else match ← markRevoked keyId now with
      | none => throw keyNotFound
      | some revoked => return .key (keySummary (keyId, revoked))

/-- Revoke a key and create another of its name. -/
def rotateKey (ext : External) (user : User) (now : ℕ) (keyId newId plaintext : String) :
    Api Body := do
  match ← query fun d : Database => d.ingestKeys.get keyId with
  | none => throw keyNotFound
  | some existing =>
    let _ ← ensureProjectOwnedByUser existing.projectId user.id
    let _ ← revokeKey user now keyId
    createKey ext user now existing.projectId existing.name newId plaintext

end Keys

section Outbox

/-- The row changed last among those of a project and kind that have ended or failed. -/
def getLatestTerminalByProjectKind (projectId : String) (kind : Kind)
    (excludeEventTypes : List String) (since : Option ℕ) (d : Database) : Option Outbox :=
  ((d.transport.rows.select fun _ row => row.message.projectId = projectId ∧
      row.message.kind = kind ∧ row.status ∈ [.delivered, .failed, .dead] ∧
      row.message.eventType ∉ excludeEventTypes ∧ since.all (· ≤ row.updatedAt)).argmax
    fun e => e.2.updatedAt).map Prod.snd

def countFailedOrDeadByProjectKind (projectId : String) (kind : Kind)
    (excludeEventTypes : List String) (since : Option ℕ) (d : Database) : ℕ :=
  (d.transport.rows.select fun _ row => row.message.projectId = projectId ∧
    row.message.kind = kind ∧ row.status ∈ [.failed, .dead] ∧
    row.message.eventType ∉ excludeEventTypes ∧ since.all (· ≤ row.updatedAt)).length

def deliveryFailures (projectId : String) (kind : Kind) (now : ℕ) (d : Database) :
    DeliveryFailuresOut :=
  let cutoff := now - 24 * 60 * 60 * 1000
  let excludeEventTypes := if kind = .webhook then ["webhook.test"] else []
  let count := countFailedOrDeadByProjectKind projectId kind excludeEventTypes (some cutoff) d
  match getLatestTerminalByProjectKind projectId kind excludeEventTypes (some cutoff) d with
  | none => ⟨0, none⟩
  | some latest =>
    if latest.status = .delivered then ⟨0, none⟩
    else ⟨count, some (latest.deliveredAt.getD latest.updatedAt)⟩

def getDeliveryFailures (user : User) (now : ℕ) (projectId : String) (kind : Kind) : Api Body := do
  let _ ← ensureProjectOwnedByUser projectId user.id
  return .deliveryFailures (← query (deliveryFailures projectId kind now))

/-- Enqueue a message; a failure is part of the answer. -/
def enqueue (ext : External) (message : Message) (newId : String) (now : ℕ) :
    Api (Except Raised String) :=
  transaction fun d =>
    let call : EnqueueCall :=
      { message := message, newId := newId, now := now, replies := ext.queueReplies newId }
    let served := TransportService.enqueue ext.config call d.transport
    (.ok served.1, { d with transport := served.2 })

end Outbox

section Webhook

def lastStatus (latest : Outbox) : Option String :=
  match latest.status with
  | .delivered => some "success"
  | .failed | .dead => some "failed"
  | _ => none

/-- The webhook settings of a project and its last delivery, tests apart. -/
def webhookOut (projectId : String) (project : ProjectRecord) (d : Database) : ProjectWebhookOut :=
  let latest := getLatestTerminalByProjectKind projectId .webhook ["webhook.test"] none d
  { enabled := project.webhookEnabled
    emailEnabled := project.emailEnabled
    url := project.webhookUrl
    lastStatus := latest.bind lastStatus
    lastAt := latest.map fun row => row.deliveredAt.getD row.updatedAt
    lastError := latest.bind (·.lastErrorMessage) }

def getProjectWebhook (user : User) (projectId : String) : Api Body := do
  let project ← ensureProjectOwnedByUser projectId user.id
  return .webhook (← query (webhookOut projectId project))

def normalizeWebhookUrl (value : Option String) : Option String := truthy (value.map strip)

def ProjectRecord.withWebhook (project : ProjectRecord) (payload : ProjectWebhookIn)
    (url : Option String) : ProjectRecord :=
  { project with
    webhookEnabled := payload.enabled
    emailEnabled := payload.emailEnabled
    webhookUrl := url }

def updateProjectWebhook (ext : External) (user : User) (now : ℕ) (projectId : String)
    (payload : ProjectWebhookIn) : Api Body := do
  let _ ← ensureProjectOwnedByUser projectId user.id
  let url := normalizeWebhookUrl payload.url
  ofResult (match url with
    | some url => ext.ensureWebhookUrlIsSafe now url
    | none => .ok ())
  if payload.enabled ∧ url = none then
    throw (.http 422 "url is required when webhook is enabled")
  else
    let _ ← ensureProjectOwnedByUser projectId user.id
    match ← updateProject projectId fun project => project.withWebhook payload url with
    | none => throw projectNotFound
    | some updated => return .webhook (← query (webhookOut projectId updated))

def webhookTestRateLimitKey (projectId userId clientIp : String) (windowEpoch : ℕ) : String :=
  "webhook_test_rl:" ++ projectId ++ ":" ++ userId ++ ":" ++ clientIp ++ ":" ++ toString windowEpoch

def webhookTestWindow (ext : External) : ℕ := (max ext.webhookTestRateLimitWindowSeconds 1).toNat

/-- The rate-limit key of a webhook test at a time. -/
def webhookTestKeyAt (ext : External) (userId : String) (now : ℕ) (projectId clientIp : String) :
    String :=
  webhookTestRateLimitKey projectId userId clientIp (now / 1000 / webhookTestWindow ext)

def startTestWindow (ext : External) (key : String) (counter : ℤ) : Redis.Prog Unit :=
  if counter = 1 then do
    let _ ← Redis.expire key (webhookTestWindow ext)
    pure ()
  else pure ()

/-- HTTP errors are passed on and so is nothing else: without Redis there is no rate limit. -/
def enforceWebhookTestRateLimit (ext : External) (key : String) : Redis.Prog Unit :=
  tryCatchThe Exn (do
    let counter ← Redis.incr key
    startTestWindow ext key counter
    if ext.webhookTestRateLimitPerWindow < counter then
      throw (.http 429 "rate limit exceeded")
    else pure ()) fun
    | .http status text => throw (.http status text)
    | _ => pure ()

def testOut : TestReply → Except Exn Body
  | .response statusCode =>
    .ok (.webhookTest { status := "success", statusCode := some statusCode })
  | .httpStatusError statusCode =>
    .ok (.webhookTest
      { status := "failed", statusCode := some statusCode, error := some s!"HTTP {statusCode}" })
  | .timeout => .ok (.webhookTest { status := "failed", error := some "Timed out" })
  | .httpError text =>
    .ok (.webhookTest { status := "failed", error := some (orElse (some text) "Network error") })
  | .otherError => .error (.http 500 "Failed to send webhook test")

def testProjectWebhook (ext : External) (user : User) (now : ℕ) (projectId : String)
    (url : Option String) (clientIp : String) : Api Body := do
  onRedis fun _ =>
    enforceWebhookTestRateLimit ext (webhookTestKeyAt ext user.id now projectId clientIp)
  let project ← ensureProjectOwnedByUser projectId user.id
  match truthy ((normalizeWebhookUrl url).or project.webhookUrl) with
  | none => throw (.http 422 "url is required for webhook test")
  | some targetUrl =>
    ofResult (ext.ensureWebhookUrlIsSafe now targetUrl)
    ofResult (testOut (ext.sendWebhookTestRequest now projectId targetUrl))

end Webhook

section Metrics

variable (user : User) (now : ℕ) (projectId : String) (provider : Option String)

def getRealtimeMetrics : Api Body := do
  let _ ← ensureProjectOwnedByUser projectId user.id
  let metrics ← onRedis fun d =>
    MetricsService.getRealtime d.projectModels projectId provider now
  return .realtime metrics.1 metrics.2

def getProtectMetrics : Api Body := do
  let _ ← ensureProjectOwnedByUser projectId user.id
  return .protectMetrics (← onRedis fun d =>
    MetricsService.getProtectMetrics d.projectModels projectId provider now)

def getProtectHealth : Api Body := do
  let _ ← ensureProjectOwnedByUser projectId user.id
  return .protectHealth (← onRedis fun d =>
    MetricsService.getProtectHealth d.projectModels projectId provider now)

end Metrics

section Incidents

/-- Whether a status is the one asked for; `resolved` means both ways of closing. -/
def statusMatches (asked : String) (status : IncidentRepository.Status) : Bool :=
  asked = "" || asked = "all" || match status with
    | .open => asked = "open"
    | .resolved => asked = "resolved"
    | .autoResolved => asked = "resolved" || asked = "auto_resolved"

def incidentsByProject (projectId status : String) (provider : Option String) (d : Database) :
    List (String × Incident) :=
  sortedByDesc (fun e => e.2.createdAt) (d.incidents.select fun _ i => i.projectId = projectId ∧
    statusMatches status i.status ∧ (truthy provider).all (i.provider = ·))

def incidentOut (e : String × Incident) : IncidentOut :=
  ⟨e.1, e.2.incidentType, e.2.status, e.2.createdAt, e.2.resolvedAt,
    e.2.evidence.filter (·.1 ≠ "count")⟩

def listIncidents (user : User) (projectId status : String) (provider : Option String) :
    Api Body := do
  let _ ← ensureProjectOwnedByUser projectId user.id
  return .incidents ((← query (incidentsByProject projectId status provider)).map incidentOut)

def incidentTypeText : IncidentType → String
  | .signal .retryStorm => "retry_storm"
  | .signal .loopSuspect => "loop_suspect"
  | .signal .tokenExplosion => "token_explosion"
  | .block => "block"

/-- A text of the evidence. -/
def evidenceText (i : Incident) (key : String) : Option String :=
  match i.evidence.get key with
  | .str s => some s
  | _ => none

/-- What is told of an incident that a user has resolved. -/
def resolvedPayload (ext : External) (id : String) (i : Incident) (now : ℕ) : Json :=
  .object [("event", .str "incident.resolved"), ("project_id", .str i.projectId),
    ("incident_id", .str id), ("incident_type", .str (incidentTypeText i.incidentType)),
    ("resolved_by", .str "manual"), ("resolved_at", .str (ext.isoformat (i.resolvedAt.getD now))),
    ("created_at", .str (ext.isoformat i.createdAt)),
    ("last_seen_at", .optional (i.lastSeenAt.map ext.isoformat)),
    ("provider", .str (orElse (some i.provider) "unknown")),
    ("requested_model", .optional (evidenceText i "requested_model")),
    ("resolved_model", .optional (evidenceText i "resolved_model")),
    ("environment", .optional (evidenceText i "environment")),
    ("sent_at", .str (ext.isoformat now))]

/-- A message with the key that its source hashes to. -/
def messageOf (ext : External) (source : DedupeSource) (template : Option String) : Message where
  projectId := source.projectId
  kind := source.kind
  eventType := source.eventType
  destination := source.destination
  template := template
  payload := .json (ext.encode source.payload)
  dedupeKey := ext.dedupeKey source

def resolvedWebhook (ext : External) (i : Incident) (payload : Json) : Message :=
  messageOf ext ⟨i.projectId, .webhook, "incident.resolved", none,
    .object [("body", payload), ("__transport_meta", .object [("force_send", .bool false)])],
    none⟩ none

def resolvedEmail (ext : External) (id : String) (i : Incident) (payload : Json) : Message :=
  messageOf ext ⟨i.projectId, .email, "incident.resolved", none, payload, some id⟩
    (some "incident_resolved")

def isProtectModeEnabled (projectId : String) (d : Database) : Bool :=
  (d.projects.get projectId).any (·.protectEnabled)

/-- The webhook is told of every resolution, the mail goes out under protection. -/
def enqueueIncidentResolvedNotifications (ext : External) (now : ℕ) (id : String) (i : Incident)
    (webhookId emailId : String) : Api Unit := do
  let payload := resolvedPayload ext id i now
  let _ ← enqueue ext (resolvedWebhook ext i payload) webhookId now
  if ← query (isProtectModeEnabled i.projectId) then
    let _ ← enqueue ext (resolvedEmail ext id i payload) emailId now

def markResolved (id : String) (now : ℕ) : Api (Option Incident) :=
  transaction fun d =>
    let incidents := d.incidents.update id fun i => i.closed .resolved now
    (.ok (incidents.get id), { d with incidents := incidents })

def releaseIncidentLock (projectId incidentType : String) : Redis.Prog Unit := do
  let _ ← Redis.delete (incidentOpenLockKey projectId incidentType)

def resolveIncident (ext : External) (user : User) (now : ℕ)
    (incidentId webhookId emailId : String) : Api Body := do
  match ← query fun d : Database => d.incidents.get incidentId with
  | none => throw incidentNotFound
  | some incident =>
    let _ ← ensureProjectOwnedByUser incident.projectId user.id
    match ← markResolved incidentId now with
    | none => throw incidentNotFound
    | some resolved =>
      onRedis fun _ => releaseIncidentLock
        (scopedProjectProviderId resolved.projectId (some resolved.provider))
        (incidentTypeText resolved.incidentType)
      enqueueIncidentResolvedNotifications ext now incidentId resolved webhookId emailId
      return .resolved

end Incidents

section Feedback

/-- The project that a feedback is filed under. -/
def FeedbackIn.scope (payload : FeedbackIn) : String := stripped payload.projectId "global"

def feedbackBody (ext : External) (user : User) (now : ℕ) (payload : FeedbackIn)
    (message : String) : Json :=
  let screenshotName := strip (orElse payload.screenshotName "")
  let screenshotContentType := strip (orElse payload.screenshotContentType "")
  let screenshotBase64 := strip (orElse payload.screenshotBase64 "")
  .object ([("report_type", .str (stripped payload.reportType "feedback")),
      ("message", .str message), ("email", .str (stripped payload.email user.email)),
      ("user_id", .str user.id), ("user_email", .str user.email),
      ("project_id", .str (stripped payload.projectId "-")),
      ("page", .str (stripped payload.page "-")), ("mode", .str (stripped payload.mode "-")),
      ("timestamp", .str (orElse payload.timestamp (ext.isoformat now))),
      ("app_version", .str (stripped payload.appVersion "-"))] ++
    if screenshotName ≠ "" ∧ screenshotContentType ≠ "" ∧ screenshotBase64 ≠ "" then
      [("screenshot_name", .str screenshotName),
        ("screenshot_content_type", .str screenshotContentType),
        ("screenshot_base64", .str screenshotBase64)]
    else [])

/-- The row that a feedback leaves: its project is the one that the caller names. -/
def feedbackMessage (ext : External) (user : User) (now : ℕ) (payload : FeedbackIn)
    (message : String) : Message :=
  messageOf ext ⟨payload.scope, .email, "feedback.submitted", none,
    feedbackBody ext user now payload message, some user.id⟩ (some "feedback_submitted")

theorem feedbackMessage_projectId (ext : External) (user : User) (now : ℕ) (payload : FeedbackIn)
    (message : String) :
    (feedbackMessage ext user now payload message).projectId = payload.scope := by
  rw [feedbackMessage, messageOf]

def sendFeedback (ext : External) (user : User) (now : ℕ) (payload : FeedbackIn)
    (newId : String) : Api Body := do
  let message := strip payload.message
  if message = "" then throw (.http 400 "message is required")
  else match ← enqueue ext (feedbackMessage ext user now payload message) newId now with
    | .ok _ => return .queued
    | .error e =>
      if e.cls = .valueError then throw (.http 500 e.text)
      else throw (.http 500 "failed to send feedback")

end Feedback

section Serve

variable (ext : External)

/-- The endpoint of a call. -/
def endpoint (user : User) (now : ℕ) : Call → Api Body
  | .listProjects => orInternalError "Failed to list projects" (listProjects user)
  | .createProject name newId =>
    orInternalError "Failed to create project" (createProject user now name newId)
  | .listProjectProviders projectId =>
    orInternalError "Failed to list project providers" (listProjectProviders user projectId)
  | .deleteProject projectId =>
    orInternalError "Failed to delete project" (deleteProject user projectId)
  | .listProjectKeys projectId =>
    orInternalError "Failed to list keys" (listProjectKeys user projectId)
  | .createProjectKey projectId name newId plaintext =>
    orInternalError "Failed to create key" (createKey ext user now projectId name newId plaintext)
  | .revokeKey keyId => orInternalError "Failed to revoke key" (revokeKey user now keyId)
  | .rotateKey keyId newId plaintext =>
    orInternalError "Failed to rotate key" (rotateKey ext user now keyId newId plaintext)
  | .getProjectProtect projectId =>
    orInternalError "Failed to fetch project protect settings" (getProjectProtect user projectId)
  | .updateProjectProtect projectId payload =>
    orInternalError "Failed to update project protect settings"
      (updateProjectProtect user projectId payload)
  | .getProjectWebhook projectId =>
    orInternalError "Failed to fetch project webhook settings" (getProjectWebhook user projectId)
  | .updateProjectWebhook projectId payload =>
    orInternalError "Failed to update project webhook settings"
      (updateProjectWebhook ext user now projectId payload)
  | .testProjectWebhook projectId url clientIp =>
    orInternalError "Failed to send webhook test"
      (testProjectWebhook ext user now projectId url clientIp)
  | .getRealtimeMetrics projectId provider =>
    orInternalError "Failed to fetch realtime metrics"
      (getRealtimeMetrics user now projectId provider)
  | .getProtectMetrics projectId provider =>
    orInternalError "Failed to fetch protect metrics" (getProtectMetrics user now projectId provider)
  | .getProtectHealth projectId provider =>
    orInternalError "Failed to fetch protect health" (getProtectHealth user now projectId provider)
  | .getDeliveryFailures projectId kind =>
    orInternalError "Failed to fetch delivery failures"
      (getDeliveryFailures user now projectId kind)
  | .listIncidents projectId status provider =>
    orInternalError "Failed to list incidents" (listIncidents user projectId status provider)
  | .resolveIncident incidentId webhookId emailId =>
    orInternalError "Failed to resolve incident"
      (resolveIncident ext user now incidentId webhookId emailId)
  | .sendFeedback payload newId =>
    orInternalError "failed to send feedback" (sendFeedback ext user now payload newId)

def serveCall (user : User) (now : ℕ) (call : Call) (d : Database) : Except Exn Body × Database :=
  exec (endpoint ext user now call) { d with redis := d.redis.advance now }

def forReport (project : ProjectRecord) : TransportJob.Project where
  protectEnabled := project.protectEnabled
  webhookEnabled := project.webhookEnabled
  emailEnabled := project.emailEnabled
  webhookUrl := project.webhookUrl

/-- The project of a row, as a delivery reads it. -/
def projectOfRow (outboxId : String) (d : Database) : Option ProjectRecord :=
  (d.transport.rows.get outboxId).bind fun row => d.projects.get row.message.projectId

/-- What a delivery job finds in the tables. -/
def preparedJob (job : TransportJob.DeliveryJob) (d : Database) : TransportJob.DeliveryJob :=
  { job with
    delivery := match d.transport.rows.get job.outboxId with
      | some row => ext.deliver job.claimedAt (row.claimed job.claimedAt) (projectOfRow job.outboxId d)
      | none => .ok ()
    project := (projectOfRow job.outboxId d).map forReport }

/-- A delivery job of the worker. -/
def work (job : TransportJob.DeliveryJob) (d : Database) : Database :=
  { d with
    transport := (TransportJob.processOutboxDelivery ext.config ext.failureKey
      (preparedJob ext job d) d.transport).2 }

end Serve

end Rheonic.UserApi
