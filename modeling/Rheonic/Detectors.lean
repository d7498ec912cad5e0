import Rheonic.Lib.SortedBy
import Rheonic.IncidentManager
import Rheonic.IngestEvent

namespace Rheonic.Detectors
open PyText SortedBy
open IngestEvent (Event)
open IncidentRepository (Evidence Value)

/-- The floating-point numbers of the detectors: those that are compared with one another are not
NaN, and nothing is asked of their rounding. -/
class PyFloat (F : Type) extends LinearOrder F, Sub F, Div F where
  /-- `float(n)`. -/
  ofInt : ℤ → F
  /-- `datetime.timestamp()`; the unit in which times are counted is up to the instance. -/
  timestamp : ℕ → F
  /-- The number in a dictionary. -/
  value : F → Value

export PyFloat (ofInt timestamp)

/-- Shared detector input for one ingest or protect evaluation. -/
structure DetectionContext (F : Type) [PyFloat F] where
  projectId : String
  provider : String
  requestedModel : Option String
  resolvedModel : Option String
  environment : Option String
  now : ℕ
  currentRequests60s : Option ℤ
  currentTokens60s : Option ℤ
  reqCap : Option ℤ
  tokCap : Option ℤ
  requestEndpoint : Option String := none
  requestFeature : Option String := none
  requestFingerprint : Option String := none
  estimatedNextTokens : Option ℤ := none
  tokenExplosionTokens : Option ℤ := none
  previousEstimatedTokens : Option ℤ := none
  currentEvent : Option Event := none
  recentEvents : List Event := []
  retryStormWindowSeconds : ℤ := 60
  retryStormCount : ℤ := 5
  loopWindowSeconds : ℤ := 30
  loopCount : ℤ := 6
  loopMaxGapSeconds : F := ofInt 2
  loopConcurrencyThreshold : ℤ := 30
  tokenExplosionAbs : ℤ := 10000
  tokenExplosionGrowthRatio : F := ofInt 17 / ofInt 10
  tokenExplosionGrowthCount : ℤ := 2
  tokenExplosionGrowthMinTokens : ℤ := 1800
  tokenExplosionConcurrencyThreshold : ℤ := 8

/-- Detector output, with what the incident manager does not read. -/
structure Signal extends IncidentManager.Signal where
  scopeProvider : String
  tags : List (String × String) := []

def normalizedModelName (value : Option String) : String := strip (orElse value "")

/-- `str.lower()`; the letters outside ASCII never become those it is compared with here. -/
def lower (s : String) : String := String.ofList (s.toList.map Char.toLower)

def optional {α : Type} (f : α → Value) (value : Option α) : Value := (value.map f).getD .null

def tags {F : Type} [PyFloat F] (ctx : DetectionContext F) : List (String × String) :=
  match truthy ctx.requestedModel with
  | some requestedModel => [("requested_model", requestedModel)]
  | none => []

/-- The fields that the evidence of every detector begins with. -/
def contextEvidence {F : Type} [PyFloat F] (ctx : DetectionContext F) : Evidence :=
  [("provider", .str ctx.provider), ("requested_model", optional .str ctx.requestedModel),
    ("resolved_model", optional .str ctx.resolvedModel),
    ("environment", optional .str ctx.environment),
    ("requests_60s", optional .int ctx.currentRequests60s),
    ("tokens_60s", optional .int ctx.currentTokens60s), ("req_cap", optional .int ctx.reqCap),
    ("tok_cap", optional .int ctx.tokCap)]

namespace RetryStorm

/-- The texts that mark an error as a failure of the provider. -/
def failureTokens : List String := ["timed out", "timeout", "connection", "reset", "refused"]

def mentionsFailure (text : Option String) : Bool :=
  failureTokens.any fun token => token.toList <:+: (lower (strip (orElse text ""))).toList

def isFailure (event : Event) : Bool :=
  let httpStatus := event.httpStatus.getD 0
  if httpStatus ≥ 500 || httpStatus ∈ [408, 429] then true
  else if lower (strip (orElse event.status "")) ∈ ["error", "failed", "fail"] then true
  else if mentionsFailure event.errorType then true
  else mentionsFailure event.errorMessage

variable {F : Type} [PyFloat F]

/-- The failures of the context's model since the beginning of the window. -/
def failedEvents (ctx : DetectionContext F) : List Event :=
  let cutoff : F := timestamp ctx.now - ofInt ctx.retryStormWindowSeconds
  ctx.recentEvents.filter fun event =>
    event.provider = ctx.provider
      && normalizedModelName event.requestedModel = normalizedModelName ctx.requestedModel
      && decide (cutoff ≤ timestamp event.createdAt)
      && isFailure event

def fingerprint (ctx : DetectionContext F) : String :=
  ctx.projectId ++ ":" ++ ctx.provider ++ ":" ++
    orElse (some (normalizedModelName ctx.requestedModel)) "na" ++ ":retry_storm"

def signal (ctx : DetectionContext F) (failureCount : ℕ) : Signal where
  detector := .retryStorm
  scopeProvider := ctx.provider
  fingerprint := fingerprint ctx
  evidence := contextEvidence ctx ++
    [("estimated_next_tokens", optional .int ctx.estimatedNextTokens),
      ("failure_count", .int failureCount), ("window_seconds", .int ctx.retryStormWindowSeconds),
      ("threshold_count", .int ctx.retryStormCount), ("reason", .str "retry_storm")]
  episodeWindowSeconds := some ctx.retryStormWindowSeconds
  tags := tags ctx

def detect (ctx : DetectionContext F) : List Signal :=
  if ctx.recentEvents = [] then []
  else
    let failureCount := (failedEvents ctx).length
    if (failureCount : ℤ) < ctx.retryStormCount then [] else [signal ctx failureCount]

theorem eq_signal_of_mem {ctx : DetectionContext F} {s : Signal} (h : s ∈ detect ctx) :
    s = signal ctx (failedEvents ctx).length := by
  unfold detect at h
  split at h
  · exact absurd h List.not_mem_nil
  · dsimp only at h
    split at h
    · exact absurd h List.not_mem_nil
    · exact List.mem_singleton.mp h

end RetryStorm

namespace LoopSuspect

/-- `_signature` of an event, and `_context_signature`: the fields by which requests are alike. -/
def signature (projectId provider : String) (requestedModel environment requestEndpoint
    requestFeature requestFingerprint : Option String) : String :=
  let endpoint := strip (orElse requestEndpoint "na")
  let feature := orElse (some (strip (orElse requestFeature "unknown"))) "unknown"
  let fingerprint := orElse (some (strip (orElse requestFingerprint "unknown"))) "unknown"
  projectId ++ ":" ++ provider ++ ":" ++ orElse (some (normalizedModelName requestedModel)) "na" ++
    ":" ++ orElse environment "na" ++ ":" ++ endpoint ++ ":" ++ feature ++ ":" ++ fingerprint

def eventSignature (projectId : String) (event : Event) : String :=
  signature projectId event.provider event.requestedModel event.environment event.requestEndpoint
    event.requestFeature event.requestFingerprint

variable {F : Type} [PyFloat F]

def contextSignature (ctx : DetectionContext F) : String :=
  signature ctx.projectId ctx.provider ctx.requestedModel ctx.environment ctx.requestEndpoint
    ctx.requestFeature ctx.requestFingerprint

/-- Whether the same request stream grows into a large context. -/
def looksLikeTokenContextGrowth (ctx : DetectionContext F) : Bool :=
  let currentTokens := (((ctx.tokenExplosionTokens.or (ctx.currentEvent.bind (·.tokenExplosionTokens))).or
    ctx.estimatedNextTokens).or (ctx.currentEvent.map (·.totalTokens)))
  match currentTokens with
  | none => false
  | some currentTokens =>
    let currentTokens := max currentTokens 0
    if currentTokens < ctx.tokenExplosionGrowthMinTokens then false
    else match ctx.previousEstimatedTokens with
      | none => true
      | some previousTokens => max previousTokens 0 < currentTokens

/-- A failure in the loop detector's sense, which leaves those to the retry storm. -/
def isFailure (event : Event) : Bool :=
  event.httpStatus.getD 0 ≥ 400 || lower (strip (orElse event.status "")) ∈ ["error", "failed", "fail"]
    || (truthy event.errorType).isSome

/-- The walk from the newest event back: how many events of the signature follow one another
within the allowed gap. It ends where the sequence breaks. -/
def sequenceCount (ctx : DetectionContext F) : List Event → ℕ → Option F → ℕ
  | [], count, _ => count
  | event :: older, count, prevTs =>
    let eventTs : F := timestamp event.createdAt
    if event.provider ≠ ctx.provider then sequenceCount ctx older count prevTs
    else if eventTs < timestamp ctx.now - ofInt ctx.loopWindowSeconds then count
    else if eventSignature ctx.projectId event ≠ contextSignature ctx then count
    else if prevTs.any fun prevTs => decide (ctx.loopMaxGapSeconds < prevTs - eventTs) then count
    else if isFailure event then sequenceCount ctx older count prevTs
    else sequenceCount ctx older (count + 1) (some eventTs)

def fingerprint (ctx : DetectionContext F) : String :=
  ctx.projectId ++ ":" ++ ctx.provider ++ ":loop_suspect:" ++ contextSignature ctx

def signal (ctx : DetectionContext F) (count : ℕ) : Signal where
  detector := .loopSuspect
  scopeProvider := ctx.provider
  fingerprint := fingerprint ctx
  evidence := contextEvidence ctx ++
    [("estimated_next_tokens", optional .int ctx.estimatedNextTokens),
      ("signature", .str (contextSignature ctx)),
      ("request_fingerprint", optional .str ctx.requestFingerprint),
      ("window_seconds", .int ctx.loopWindowSeconds), ("sequence_count", .int count),
      ("max_gap_seconds", PyFloat.value ctx.loopMaxGapSeconds),
      ("threshold_count", .int ctx.loopCount), ("reason", .str "loop_suspect")]
  episodeWindowSeconds := some ctx.loopWindowSeconds
  tags := tags ctx

def detect (ctx : DetectionContext F) : List Signal :=
  if ctx.recentEvents = [] then []
  else if looksLikeTokenContextGrowth ctx then []
  else
    let orderedEvents := sortedByDesc (fun event => (timestamp event.createdAt : F)) ctx.recentEvents
    let count := sequenceCount ctx orderedEvents 0 none
    -- a high request volume is taken for parallel work
    if ctx.currentRequests60s.any (ctx.loopConcurrencyThreshold ≤ ·) && (count : ℤ) < ctx.loopCount * 2
      then []
    else if (count : ℤ) < ctx.loopCount then []
    else [signal ctx count]

theorem eq_signal_of_mem {ctx : DetectionContext F} {s : Signal} (h : s ∈ detect ctx) :
    ∃ count, s = signal ctx count := by
  unfold detect at h
  split at h
  · exact absurd h List.not_mem_nil
  · split at h
    · exact absurd h List.not_mem_nil
    · dsimp only at h
      split at h
      · exact absurd h List.not_mem_nil
      · split at h
        · exact absurd h List.not_mem_nil
        · exact ⟨_, List.mem_singleton.mp h⟩

end LoopSuspect

namespace TokenExplosion

def requestSignature (requestEndpoint requestFeature : Option String) : String :=
  strip (orElse requestEndpoint "na") ++ ":" ++
    orElse (some (strip (orElse requestFeature "unknown"))) "unknown"

def eventSignature (event : Event) : String :=
  requestSignature event.requestEndpoint event.requestFeature

/-- The request whose growth is looked for, as the two resolving functions are given it. -/
structure GrowthQuery where
  provider : String
  requestedModel : Option String
  requestEndpoint : Option String := none
  requestFeature : Option String := none
  currentEvent : Option Event := none

/-- An event of the queried request stream other than the current one. -/
def GrowthQuery.accepts (query : GrowthQuery) (event : Event) : Bool :=
  event.provider = query.provider
    && normalizedModelName event.requestedModel = normalizedModelName query.requestedModel
    && !query.currentEvent.any (fun current => event.id = current.id)
    && eventSignature event = requestSignature query.requestEndpoint query.requestFeature

/-- The size of an event's request context, never negative. -/
def contextTokens (event : Event) : ℤ := max (event.tokenExplosionTokens.getD event.totalTokens) 0

/-- `l[i:]`; a negative index counts from the end. -/
def sliceFrom {α : Type} (l : List α) (i : ℤ) : List α :=
  if i < 0 then l.drop (l.length + i).toNat else l.drop i.toNat

variable (F : Type) [PyFloat F]

def resolvePreviousEstimatedTokens (query : GrowthQuery) (recentEvents : List Event) : Option ℤ :=
  let orderedEvents := sortedByDesc (fun event => (timestamp event.ts : F)) recentEvents
  (orderedEvents.find? query.accepts).map contextTokens

def resolveRecentTokenExplosionSequence (query : GrowthQuery) (recentEvents : List Event)
    (currentTokens requiredCount : ℤ) : List ℤ :=
  let requiredPoints := max requiredCount 0 + 1
  if requiredPoints ≤ 1 then [currentTokens]
  else
    let orderedEvents := sortedBy (fun event => (timestamp event.ts : F)) recentEvents
    let sequence := (orderedEvents.filter query.accepts).map contextTokens ++ [max currentTokens 0]
    if (sequence.length : ℤ) < requiredPoints then [] else sequence

variable {F}

/-- The request that a context is about. -/
def growthQuery (ctx : DetectionContext F) : GrowthQuery where
  provider := ctx.provider
  requestedModel := ctx.requestedModel
  requestEndpoint := ctx.requestEndpoint
  requestFeature := ctx.requestFeature
  currentEvent := ctx.currentEvent

/-- The context's token count, from the most to the least specific source. -/
def explosionTokens (ctx : DetectionContext F) : Option ℤ :=
  ((ctx.tokenExplosionTokens.or (ctx.currentEvent.bind (·.tokenExplosionTokens))).or
    ctx.estimatedNextTokens).or (ctx.currentEvent.map fun event => max event.totalTokens 0)

/-- What is known of the growth: its ratio to the previous request, how many steps were counted,
and whether they all grew enough. -/
structure Growth (F : Type) where
  ratio : Option F := none
  sequenceCount : ℕ := 0
  hit : Bool := false

def growth (ctx : DetectionContext F) (currentTokens : ℤ) : Growth F :=
  let growthFloor := ctx.tokenExplosionGrowthMinTokens
  if currentTokens < growthFloor then {}
  else
    let growthRatio := (ctx.previousEstimatedTokens.filter (0 < ·)).map fun previousTokens =>
      (ofInt currentTokens / ofInt previousTokens : F)
    let sequence := resolveRecentTokenExplosionSequence F (growthQuery ctx)
      ctx.recentEvents currentTokens ctx.tokenExplosionGrowthCount
    if sequence = [] then { ratio := growthRatio }
    else
      let atLeastFloor := sequence.filter (growthFloor ≤ ·)
      let requiredPoints := ctx.tokenExplosionGrowthCount + 1
      let eligibleSequence := if requiredPoints ≤ atLeastFloor.length
        then sliceFrom atLeastFloor (-requiredPoints) else atLeastFloor
      let adjacentGrowth := ((eligibleSequence.zip eligibleSequence.tail).filter (0 < ·.1)).map
        fun (previous, current) => (ofInt current / ofInt previous : F)
      { ratio := growthRatio
        sequenceCount := eligibleSequence.length - 1
        hit := (adjacentGrowth.length : ℤ) = ctx.tokenExplosionGrowthCount
          && adjacentGrowth.all (ctx.tokenExplosionGrowthRatio ≤ ·) }

/-- Growth counts only in a live burst whose requests do not run in parallel. -/
def growthHit (ctx : DetectionContext F) (g : Growth F) : Bool :=
  if ctx.currentRequests60s.getD 0 ≤ 0 || ctx.currentTokens60s.getD 0 ≤ 0 then false
  else if ctx.currentRequests60s.any (ctx.tokenExplosionConcurrencyThreshold ≤ ·) then false
  else g.hit

def fingerprint (ctx : DetectionContext F) : String :=
  ctx.projectId ++ ":" ++ ctx.provider ++ ":" ++
    orElse (some (normalizedModelName ctx.requestedModel)) "na" ++ ":token_explosion"

def signal (ctx : DetectionContext F) (tokens : ℤ) (g : Growth F) (absHit growthHit : Bool) :
    Signal where
  detector := .tokenExplosion
  scopeProvider := ctx.provider
  fingerprint := fingerprint ctx
  evidence := contextEvidence ctx ++
    [("token_explosion_tokens", .int tokens),
      ("previous_token_explosion_tokens", optional .int ctx.previousEstimatedTokens),
      ("absolute_threshold_tokens", .int ctx.tokenExplosionAbs),
      ("growth_ratio", optional PyFloat.value g.ratio),
      ("growth_threshold", PyFloat.value ctx.tokenExplosionGrowthRatio),
      ("growth_sequence_count", .int g.sequenceCount),
      ("growth_required_count", .int ctx.tokenExplosionGrowthCount),
      ("growth_min_tokens", .int ctx.tokenExplosionGrowthMinTokens),
      ("absolute_hit", .bool absHit), ("growth_hit", .bool growthHit),
      ("reason", .str "token_explosion")]
  episodeWindowSeconds := some 60
  tags := tags ctx

def detect (ctx : DetectionContext F) : List Signal :=
  match explosionTokens ctx with
  | none => []
  | some tokens =>
    let absHit := decide (ctx.tokenExplosionAbs ≤ tokens)
    let g := growth ctx tokens
    let hit := growthHit ctx g
    if absHit || hit then [signal ctx tokens g absHit hit] else []

theorem eq_signal_of_mem {ctx : DetectionContext F} {s : Signal} (h : s ∈ detect ctx) :
    ∃ tokens g absHit growthHit, s = signal ctx tokens g absHit growthHit := by
  unfold detect at h
  split at h
  · exact absurd h List.not_mem_nil
  · dsimp only at h
    split at h
    · exact ⟨_, _, _, _, List.mem_singleton.mp h⟩
    · exact absurd h List.not_mem_nil

end TokenExplosion

/-- `DetectorRegistry.detect` with the detectors that ingest configures. -/
def detect {F : Type} [PyFloat F] (ctx : DetectionContext F) : List Signal :=
  RetryStorm.detect ctx ++ LoopSuspect.detect ctx ++ TokenExplosion.detect ctx

end Rheonic.Detectors
