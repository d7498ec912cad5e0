import Rheonic.Detectors

namespace Rheonic.IngestDetection
open PyText SortedBy Detectors
open IngestEvent (Event)
open IncidentRepository (Evidence Value)

/-- The thresholds and windows that the ingest service hands to its detectors. -/
structure DetectorSettings (F : Type) [PyFloat F] where
  retryStormWindowSeconds : ℤ := 60
  retryStormCount : ℤ := 5
  loopWindowSeconds : ℤ := 30
  loopCount : ℤ := 6
  loopMaxGapSeconds : F := ofInt 2
  loopConcurrencyThreshold : ℤ := 30
  tokenExplosionAbs : ℤ := 10000
  tokenExplosionGrowthRatio : F := ofInt 17 / ofInt 10
  tokenExplosionGrowthCount : ℤ := 2
  tokenExplosionGrowthMinTokens : ℤ := 1800
  tokenExplosionConcurrencyThreshold : ℤ := 8

/-- What an ingest reads besides the events: the clock, the window of its scope and the caps of its
project. -/
structure Readings where
  now : ℕ
  requests60s : ℕ
  tokens60s : ℤ
  reqCap : Option ℤ := none
  tokCap : Option ℤ := none

/-- `(event.provider or "").strip() or "unknown"`. -/
def providerOf (event : Event) : String := orElse (some (strip event.provider)) "unknown"

/-- The rows that `list_recent` selects from the events, in any order. -/
def selectsRecent (projectId provider : String) (event : Event) : Bool :=
  event.projectId = projectId && (provider = "" || event.provider = provider)

/-- What `list_recent` may answer: the newest rows by the client's timestamp, where the database is
free in the order of equal ones. -/
def ListsRecent (events : List Event) (projectId : String) (limit : ℤ) (provider : String)
    (recentEvents : List Event) : Prop :=
  ∃ rows : List Event, rows.Perm (events.filter (selectsRecent projectId provider)) ∧
    rows.Pairwise (fun event older => older.ts ≤ event.ts) ∧
    recentEvents = rows.take limit.toNat

/-- One such answer: equal timestamps stay in the order of insertion. -/
def listRecent (events : List Event) (projectId : String) (limit : ℤ) (provider : String) :
    List Event :=
  (sortedByDesc (fun event => event.ts)
    (events.filter (selectsRecent projectId provider))).take limit.toNat

theorem listsRecent_listRecent (events : List Event) (projectId : String) (limit : ℤ)
    (provider : String) :
    ListsRecent events projectId limit provider (listRecent events projectId limit provider) :=
  ⟨_, sortedByDesc_perm _ _, pairwise_sortedByDesc _ _, rfl⟩

section Service

variable {F : Type} [PyFloat F] (settings : DetectorSettings F)

def recentLimit : ℤ := max settings.retryStormCount settings.loopCount + 8

/-- The context that ingesting an event hands to the detectors. -/
def detectionContext (r : Readings) (event : Event) (recentEvents : List Event) :
    DetectionContext F where
  projectId := event.projectId
  provider := providerOf event
  requestedModel := event.requestedModel
  resolvedModel := event.resolvedModel
  environment := event.environment
  now := r.now
  currentRequests60s := some r.requests60s
  currentTokens60s := some r.tokens60s
  reqCap := r.reqCap
  tokCap := r.tokCap
  requestEndpoint := event.requestEndpoint
  requestFeature := event.requestFeature
  requestFingerprint := event.requestFingerprint
  estimatedNextTokens := some event.totalTokens
  tokenExplosionTokens := event.tokenExplosionTokens
  previousEstimatedTokens := TokenExplosion.resolvePreviousEstimatedTokens F
    { provider := providerOf event
      requestedModel := event.requestedModel
      requestEndpoint := event.requestEndpoint
      requestFeature := event.requestFeature
      currentEvent := some event } recentEvents
  currentEvent := some event
  recentEvents := recentEvents
  retryStormWindowSeconds := settings.retryStormWindowSeconds
  retryStormCount := settings.retryStormCount
  loopWindowSeconds := settings.loopWindowSeconds
  loopCount := settings.loopCount
  loopMaxGapSeconds := settings.loopMaxGapSeconds
  loopConcurrencyThreshold := settings.loopConcurrencyThreshold
  tokenExplosionAbs := settings.tokenExplosionAbs
  tokenExplosionGrowthRatio := settings.tokenExplosionGrowthRatio
  tokenExplosionGrowthCount := settings.tokenExplosionGrowthCount
  tokenExplosionGrowthMinTokens := settings.tokenExplosionGrowthMinTokens
  tokenExplosionConcurrencyThreshold := settings.tokenExplosionConcurrencyThreshold

/-- The signals of an ingest, before those of a protected project are set aside. -/
def signals (r : Readings) (event : Event) (recentEvents : List Event) : List Signal :=
  detect (detectionContext settings r event recentEvents)

end Service

end Rheonic.IngestDetection
