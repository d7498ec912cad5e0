import Rheonic.Detectors

namespace Rheonic.Detectors
open SortedBy
open IngestEvent (Event)

variable {F : Type} [PyFloat F]

/-- The context with another list of recent events. -/
def DetectionContext.withEvents (ctx : DetectionContext F) (events : List Event) :
    DetectionContext F :=
  { ctx with recentEvents := events }

/-- No two of the events have one sort key: what `.timestamp()` returns for their times, and for
their times of creation. -/
structure DistinctSortKeys (F : Type) [PyFloat F] (events : List Event) : Prop where
  ts : (events.map fun event => (timestamp event.ts : F)).Nodup
  createdAt : (events.map fun event => (timestamp event.createdAt : F)).Nodup

variable {ctx : DetectionContext F} {events events' : List Event}

theorem eq_nil_iff_of_perm (h : events.Perm events') : events = [] ↔ events' = [] := by
  constructor
  · rintro rfl
    exact h.nil_eq.symm
  · rintro rfl
    exact h.eq_nil

theorem RetryStorm.detect_perm (h : ctx.recentEvents.Perm events) :
    detect ctx = detect (ctx.withEvents events) := by
  have hcount : (failedEvents ctx).length = (failedEvents (ctx.withEvents events)).length :=
    (h.filter _).length_eq
  have hnil : ctx.recentEvents = [] ↔ (ctx.withEvents events).recentEvents = [] :=
    eq_nil_iff_of_perm h
  simp only [detect, hnil, hcount]
  rfl

theorem LoopSuspect.sequenceCount_withEvents (ctx : DetectionContext F) (events walked : List Event)
    (count : ℕ) (prevTs : Option F) :
    sequenceCount (ctx.withEvents events) walked count prevTs =
      sequenceCount ctx walked count prevTs := by
  induction walked generalizing count prevTs with
  | nil => rfl
  | cons event older ih =>
    simp only [sequenceCount, ih]
    rfl

theorem LoopSuspect.detect_perm (h : ctx.recentEvents.Perm events)
    (hkeys : DistinctSortKeys F ctx.recentEvents) :
    detect ctx = detect (ctx.withEvents events) := by
  have hordered : sortedByDesc (fun event => (timestamp event.createdAt : F)) ctx.recentEvents =
      sortedByDesc (fun event => timestamp event.createdAt) (ctx.withEvents events).recentEvents :=
    sortedByDesc_eq_of_perm h hkeys.createdAt
  have hnil : ctx.recentEvents = [] ↔ (ctx.withEvents events).recentEvents = [] :=
    eq_nil_iff_of_perm h
  simp only [detect, hnil, hordered, sequenceCount_withEvents]
  rfl

namespace TokenExplosion

theorem resolvePreviousEstimatedTokens_perm (query : GrowthQuery) (h : events.Perm events')
    (hkeys : DistinctSortKeys F events) :
    resolvePreviousEstimatedTokens F query events =
      resolvePreviousEstimatedTokens F query events' := by
  unfold resolvePreviousEstimatedTokens
  rw [sortedByDesc_eq_of_perm h hkeys.ts]

theorem resolveRecentTokenExplosionSequence_perm (query : GrowthQuery) (h : events.Perm events')
    (hkeys : DistinctSortKeys F events) (currentTokens requiredCount : ℤ) :
    resolveRecentTokenExplosionSequence F query events currentTokens requiredCount =
      resolveRecentTokenExplosionSequence F query events' currentTokens requiredCount := by
  unfold resolveRecentTokenExplosionSequence
  rw [sortedBy_eq_of_perm h hkeys.ts]

theorem growth_perm (h : ctx.recentEvents.Perm events) (hkeys : DistinctSortKeys F ctx.recentEvents)
    (currentTokens : ℤ) : growth ctx currentTokens = growth (ctx.withEvents events) currentTokens := by
  have hsequence := resolveRecentTokenExplosionSequence_perm (growthQuery ctx) h hkeys
    currentTokens ctx.tokenExplosionGrowthCount
  simp only [growth, hsequence]
  rfl

theorem detect_perm (h : ctx.recentEvents.Perm events)
    (hkeys : DistinctSortKeys F ctx.recentEvents) :
    detect ctx = detect (ctx.withEvents events) := by
  simp only [detect, growth_perm h hkeys]
  rfl

end TokenExplosion

/-- The detectors and their helpers see a set of events, not a list. -/
theorem detection_order_free (ctx : DetectionContext F) (events : List Event)
    (h : ctx.recentEvents.Perm events) (hkeys : DistinctSortKeys F ctx.recentEvents) :
    RetryStorm.detect ctx = RetryStorm.detect (ctx.withEvents events) ∧
      LoopSuspect.detect ctx = LoopSuspect.detect (ctx.withEvents events) ∧
      TokenExplosion.detect ctx = TokenExplosion.detect (ctx.withEvents events) ∧
      ∀ query : TokenExplosion.GrowthQuery,
        TokenExplosion.resolvePreviousEstimatedTokens F query ctx.recentEvents =
            TokenExplosion.resolvePreviousEstimatedTokens F query events ∧
          ∀ currentTokens requiredCount : ℤ,
            TokenExplosion.resolveRecentTokenExplosionSequence F query ctx.recentEvents
                currentTokens requiredCount =
              TokenExplosion.resolveRecentTokenExplosionSequence F query events currentTokens
                requiredCount := by
  refine ⟨RetryStorm.detect_perm h, LoopSuspect.detect_perm h hkeys,
    TokenExplosion.detect_perm h hkeys, ?_⟩
  intro query
  refine ⟨TokenExplosion.resolvePreviousEstimatedTokens_perm query h hkeys, ?_⟩
  intro currentTokens requiredCount
  exact TokenExplosion.resolveRecentTokenExplosionSequence_perm query h hkeys currentTokens
    requiredCount

/-- Exact arithmetic, with times in milliseconds. -/
instance exactFloat : PyFloat ℚ where
  ofInt n := n
  timestamp ms := ms / 1000
  value q := .other (toString q) (some (q.num.tdiv q.den))

/-- An event of a project, with the given id and time. -/
def sampleEvent (id : String) (time : ℕ) (totalTokens : ℤ) : Event where
  id := id
  ts := time
  projectId := "p"
  provider := "openai"
  requestedModel := some "gpt"
  resolvedModel := none
  environment := some "prod"
  inputTokens := totalTokens
  outputTokens := 0
  totalTokens := totalTokens
  latencyMs := none
  status := none
  errorType := none
  errorMessage := none
  httpStatus := none
  createdAt := time
  tokenExplosionTokens := none
  requestEndpoint := none
  requestFeature := none
  requestFingerprint := none

def sampleContext (events : List Event) : DetectionContext ℚ where
  projectId := "p"
  provider := "openai"
  requestedModel := some "gpt"
  resolvedModel := none
  environment := some "prod"
  now := 10000
  currentRequests60s := some 2
  currentTokens60s := some 4000
  reqCap := none
  tokCap := none
  currentEvent := events.head?
  recentEvents := events

theorem detection_order_free_sample :
    TokenExplosion.detect (sampleContext [sampleEvent "b" 9000 2500, sampleEvent "a" 8000 1900]) =
      TokenExplosion.detect ((sampleContext [sampleEvent "b" 9000 2500,
        sampleEvent "a" 8000 1900]).withEvents
          [sampleEvent "a" 8000 1900, sampleEvent "b" 9000 2500]) :=
  (detection_order_free _ _ (List.Perm.swap _ _ _)
    ⟨by simp [sampleContext, sampleEvent, timestamp], by simp [sampleContext, sampleEvent, timestamp]⟩).2.2.1

/-- The nearest integer, and the even one of two. -/
def roundHalfEven (q : ℚ) : ℤ :=
  if q - ⌊q⌋ < 1 / 2 then ⌊q⌋ else if 1 / 2 < q - ⌊q⌋ then ⌊q⌋ + 1 else ⌊q⌋ + ⌊q⌋ % 2

/-- The nearest number of 53 significant bits. -/
def round53 (q : ℚ) : ℚ :=
  let guess : ℤ := Nat.log2 q.num.natAbs - Nat.log2 q.den
  let exponent := if |q| < 2 ^ guess then guess - 1 else guess
  roundHalfEven (q / 2 ^ (exponent - 52)) * 2 ^ (exponent - 52)

/-- Python's floats, with times in microseconds, which is what a `datetime` resolves. -/
@[reducible] def binary64 : PyFloat ℚ where
  __ := (inferInstance : LinearOrder ℚ)
  sub x y := round53 (x - y)
  div x y := round53 (x / y)
  ofInt n := round53 n
  timestamp us := round53 (us / 10 ^ 6)
  value q := .other (toString q) (some (q.num.tdiv q.den))

/-- Two events of the first microseconds of the year 2500. -/
def centuriesAhead : List Event :=
  [sampleEvent "a" 16725225600000001 1900, sampleEvent "b" 16725225600000002 2500]

/-- Distinct times may have one float, and then the first of the list is the latest event. -/
theorem one_float_two_orders :
    (centuriesAhead.map Event.ts).Nodup ∧ (centuriesAhead.map Event.createdAt).Nodup ∧
      centuriesAhead.Perm centuriesAhead.reverse ∧
      @TokenExplosion.resolvePreviousEstimatedTokens ℚ binary64
          { provider := "openai", requestedModel := some "gpt" } centuriesAhead = some 1900 ∧
        @TokenExplosion.resolvePreviousEstimatedTokens ℚ binary64
          { provider := "openai", requestedModel := some "gpt" } centuriesAhead.reverse =
            some 2500 := by
  refine ⟨by decide, by decide, (List.reverse_perm _).symm, by decide +kernel, by decide +kernel⟩

end Rheonic.Detectors
