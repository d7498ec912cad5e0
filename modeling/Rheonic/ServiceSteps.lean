import Rheonic.IngestDetection
import Rheonic.MetricsService
import Rheonic.ProtectBackend

namespace Rheonic.ServiceSteps
open CommandProgram PyText ProtectService ProtectApi
open IngestEvent (Event)
open IncidentManager (Manager SignalCall)
open IncidentRepository (Detector)
open ProtectBackend (Backend LiveCall ReportCall LiveStage ReportStage FailClosedNotice)
open Detectors (PyFloat Signal)
open IngestDetection (DetectorSettings)
open MetricsService (ProjectModel)

/-- What ingest, decisions and fallback reports share. -/
structure Service where
  stores : IngestEvent.World
  incidents : IncidentRepository.World
  notices : List FailClosedNotice := []
  models : List ProjectModel := []

namespace Service

def atTime (w : Service) (now : ℕ) : Service :=
  { w with stores := { w.stores with redis := w.stores.redis.advance now } }

def backend (w : Service) : Backend := ⟨w.stores.redis, w.incidents, w.notices⟩

def withBackend (w : Service) (b : Backend) : Service :=
  { w with
    stores := { w.stores with redis := b.redis }
    incidents := b.incidents
    notices := b.notices }

end Service

/-- The configuration of all services, and the rows of the projects. -/
structure Deployment (F : Type) [PyFloat F] where
  ingest : IngestEvent.Settings
  protect : ProtectService.Settings
  manager : Manager
  detectors : DetectorSettings F
  hashKey : String → String
  projects : String → Option Project

/-- An ingest request, with the ids drawn for the incidents of its signals. -/
structure IngestCall where
  request : IngestEvent.Request
  newIds : Detector → String

/-- Where an ingest stands: admitted past the rate limit, stored and counted, run through the
detectors, with the signals that are kept, or answered. -/
inductive IngestStage
  | waiting
  | admitted (projectId : String) (createdAt : ℕ)
  | counted (projectId : String) (createdAt requests60s : ℕ) (tokens60s : ℤ)
  | detected (projectId : String) (createdAt : ℕ) (signals : List Signal)
  | kept (projectId : String) (createdAt : ℕ) (signals : List Signal)
  | ended (answer : Except Exn String)

section Ingest

open IngestEvent

variable (settings : IngestEvent.Settings) (hashKey : String → String)

/-- What comes before the event is built; a duplicate gets no further. -/
def admitRequest (normalizedKey : String) (idempotencyKey : Option String) (now : ℕ) :
    IngestEvent.Prog (Option String) :=
  if normalizedKey = "" then throw (.http 401 "missing ingest key")
  else do
    let projectId ← .perform (Cmd.resolveProjectId (hashKey normalizedKey))
    match projectId with
    | none => throw (.http 401 "invalid ingest key")
    | some projectId =>
      let accepted ← claimIdempotencyKey settings hashKey projectId idempotencyKey
      if accepted then do
        checkRateLimit settings (rateKeyAt settings hashKey normalizedKey now)
        pure (some projectId)
      else pure none

def record (event : Event) (memberId : String) : IngestEvent.Prog (ℕ × ℤ) := do
  let _ ← .perform (Cmd.addEvent event)
  let _ ← .perform (Cmd.incrementProject60s event.scopedId event.totalTokens memberId)
  .perform (Cmd.getProject60s event.scopedId)

def answered : Exn → Exn
  | .http status detail => .http status detail
  | _ => .http 500 "Failed to ingest event"

theorem ingest_eq (event : Event) (memberId : String) :
    ingest event memberId = record event memberId >>= fun counters =>
      .perform (Cmd.finishIngest event counters.1 counters.2) := by
  unfold ingest record readAndFinish
  rw [Program.bind_assoc]
  congr 1
  funext _
  rw [Program.bind_assoc]

/-- What follows the admission of a request to a project. -/
def ingestAdmitted (r : IngestEvent.Request) : Option String → IngestEvent.Prog String
  | none => pure "accepted"
  | some projectId => do
    let counters ← record (r.buildEvent projectId) r.memberId
    let _ ← .perform (Cmd.finishIngest (r.buildEvent projectId) counters.1 counters.2)
    pure "accepted"

theorem ingestEventBody_eq (r : IngestEvent.Request) :
    ingestEventBody settings hashKey r =
      admitRequest settings hashKey r.normalizedKey r.idempotencyKey r.madeAt >>=
        ingestAdmitted r := by
  unfold ingestEventBody admitRequest
  by_cases hkey : r.normalizedKey = ""
  · rw [if_pos hkey, if_pos hkey]
    rfl
  · rw [if_neg hkey, if_neg hkey, Program.bind_assoc]
    congr 1
    funext found
    cases found with
    | none => rfl
    | some projectId =>
      dsimp only
      rw [Program.bind_assoc]
      congr 1
      funext accepted
      cases accepted with
      | false => rfl
      | true =>
        simp only [if_true, processEvent]
        rw [Program.bind_assoc]
        congr 1
        funext _
        rw [ingest_eq, Program.bind_assoc]
        rfl

end Ingest

section Incidents

open IncidentManager IncidentRepository

variable (m : Manager)

def processSignals : List SignalCall → IncidentRepository.Prog Unit
  | [] => pure ()
  | r :: rest => do
    processSignal m r
    processSignals rest

/-- `_has_active_block_incident`. -/
def hasActiveBlockIncident (projectId provider : String) (now : ℕ) :
    IncidentRepository.Prog Bool := do
  let incidents ← listOpenByProjectProvider projectId provider
  pure (incidents.any fun e => e.2.incidentType = .block && now - blockWindowMs m ≤ e.2.seenAt)

end Incidents

section Steps

variable {F : Type} [PyFloat F] (D : Deployment F)

namespace IngestCall

variable (c : IngestCall)

def event (projectId : String) (createdAt : ℕ) : Event :=
  { c.request with madeAt := createdAt }.buildEvent projectId

def signalCall (event : Event) (now : ℕ) (signal : Signal) : SignalCall where
  projectId := event.projectId
  provider := IngestDetection.providerOf event
  requestedModel := event.requestedModel
  resolvedModel := event.resolvedModel
  environment := event.environment
  now := now
  signal := signal.toSignal
  newId := c.newIds signal.detector

def readings (projectId : String) (now requests60s : ℕ) (tokens60s : ℤ) :
    IngestDetection.Readings where
  now := now
  requests60s := requests60s
  tokens60s := tokens60s
  reqCap := (D.projects projectId).bind (·.protectMaxReqPerMin)
  tokCap := (D.projects projectId).bind (·.protectMaxTokPerMin)

def detect (event : Event) (r : IngestDetection.Readings) (events : List Event) : List Signal :=
  IngestDetection.signals D.detectors r event (IngestDetection.listRecent events event.projectId
    (IngestDetection.recentLimit D.detectors) (IngestDetection.providerOf event))

/-- A protected project keeps block signals only while a block incident is active, and no detector
gives one. -/
def keep (event : Event) (now : ℕ) (signals : List Signal) (w : IncidentRepository.World) :
    List Signal :=
  if (D.projects event.projectId).any (·.protectEnabled) then
    match (Program.run IncidentRepository.exec (hasActiveBlockIncident D.manager event.projectId
      (IngestDetection.providerOf event) now) w).1 with
    | .ok true => []
    | _ => signals
  else signals

def afterAdmission (now : ℕ) : Except Exn (Option String) → IngestStage
  | .ok (some projectId) => .admitted projectId now
  | .ok none => .ended (.ok "accepted")
  | .error e => .ended (.error (answered e))

def afterRecord (projectId : String) (createdAt : ℕ) : Except Exn (ℕ × ℤ) → IngestStage
  | .ok (requests60s, tokens60s) => .counted projectId createdAt requests60s tokens60s
  | .error e => .ended (.error (answered e))

def afterSignals : Except IncidentRepository.Exn Unit → IngestStage
  | .ok _ => .ended (.ok "accepted")
  | .error _ => .ended (.error (answered (.response "integrity")))

/-- The next step of an ingest: admit the request; store and count the event; run the detectors;
look for an active block; record the incidents. -/
def step (now : ℕ) : IngestStage → Service → IngestStage × Service
  | .waiting, w =>
    let r := Program.run (IngestEvent.exec c.request.raises)
      (admitRequest D.ingest D.hashKey c.request.normalizedKey c.request.idempotencyKey now) w.stores
    (afterAdmission now r.1, { w with stores := r.2 })
  | .admitted projectId createdAt, w =>
    let r := Program.run (IngestEvent.exec c.request.raises)
      (record (c.event projectId createdAt) c.request.memberId) w.stores
    (afterRecord projectId createdAt r.1, { w with stores := r.2 })
  | .counted projectId createdAt requests60s tokens60s, w =>
    let event := c.event projectId createdAt
    match c.request.raises (.finishIngest event requests60s tokens60s) with
    | some message => (.ended (.error (answered (.response message))), w)
    | none =>
      let signals := detect D event (readings D projectId now requests60s tokens60s)
        w.stores.events
      (.detected projectId createdAt signals,
        { w with models := MetricsService.detectPolicyGapIfNeeded event w.models })
  | .detected projectId createdAt signals, w =>
    (.kept projectId createdAt (keep D (c.event projectId createdAt) now signals w.incidents), w)
  | .kept projectId createdAt signals, w =>
    let r := Program.run IncidentRepository.exec (processSignals D.manager
      (signals.map (c.signalCall (c.event projectId createdAt) now))) w.incidents
    (afterSignals r.1, { w with incidents := r.2 })
  | .ended answer, w => (.ended answer, w)

end IngestCall

inductive Request
  | ingest (c : IngestCall)
  | decision (c : LiveCall)
  | fallback (c : ReportCall)

structure State where
  service : Service
  ingests : ℕ → IngestStage := fun _ => .waiting
  decisions : ℕ → LiveStage := fun _ => .waiting
  fallbacks : ℕ → ReportStage := fun _ => .waiting

def authenticated (ingestKey : Option String) (project : Option Project) : Option Project :=
  (authenticate ingestKey project).outcome.bind Except.toOption

variable (requests : ℕ → Request)

/-- The next step of a request at a time; a request without a valid key gets nowhere. -/
def State.turn (x : State) (i now : ℕ) : State :=
  match requests i with
  | .ingest c =>
    let r := c.step D now (x.ingests i) (x.service.atTime now)
    { x with service := r.2, ingests := Function.update x.ingests i r.1 }
  | .decision c =>
    match authenticated c.request.ingestKey c.request.project with
    | none => x
    | some project =>
      let r := c.step D.protect D.manager project now (x.decisions i)
        (x.service.atTime now).backend
      { x with
        service := (x.service.atTime now).withBackend r.2
        decisions := Function.update x.decisions i r.1 }
  | .fallback c =>
    match authenticated c.report.ingestKey c.report.project with
    | none => x
    | some project =>
      let r := c.step D.protect D.manager project now (x.fallbacks i)
        (x.service.atTime now).backend
      { x with
        service := (x.service.atTime now).withBackend r.2
        fallbacks := Function.update x.fallbacks i r.1 }

def State.turns (x : State) : List (ℕ × ℕ) → State
  | [] => x
  | (i, now) :: rest => State.turns (x.turn D requests i now) rest

end Steps

end Rheonic.ServiceSteps
