import Rheonic.DetectionOrder
import Rheonic.IngestDetection

namespace Rheonic.StorageBounds
open CommandProgram PyText SortedBy Detectors IngestDetection
open IngestEvent (Event EventIn EventRequestIn EventResponseIn Request)
open IncidentManager (BlockReason blockFingerprint)

/-- A `VARCHAR(n)` column takes the value; NULL is taken too. -/
def FitsVarchar (n : ℕ) (value : Option String) : Prop := ∀ s ∈ value, s.length ≤ n

/-- An `INTEGER` column takes the value. -/
def FitsInteger (value : Option ℤ) : Prop := ∀ n ∈ value, -2 ^ 31 ≤ n ∧ n < 2 ^ 31

/-- The bounds of `EventRecord`'s columns. -/
structure EventFits (event : Event) : Prop where
  id : event.id.length ≤ 64
  projectId : event.projectId.length ≤ 128
  provider : event.provider.length ≤ 32
  requestedModel : FitsVarchar 128 event.requestedModel
  resolvedModel : FitsVarchar 128 event.resolvedModel
  environment : FitsVarchar 32 event.environment
  inputTokens : FitsInteger (some event.inputTokens)
  outputTokens : FitsInteger (some event.outputTokens)
  totalTokens : FitsInteger (some event.totalTokens)
  tokenExplosionTokens : FitsInteger event.tokenExplosionTokens
  latencyMs : FitsInteger event.latencyMs
  status : FitsVarchar 32 event.status
  errorType : FitsVarchar 64 event.errorType
  errorMessage : FitsVarchar 512 event.errorMessage
  httpStatus : FitsInteger event.httpStatus
  requestEndpoint : FitsVarchar 255 event.requestEndpoint
  requestFeature : FitsVarchar 255 event.requestFeature
  requestFingerprint : FitsVarchar 255 event.requestFingerprint

/-- The total that will be stored is in range: the response's own, or else the sum of both counts
where there are a request and a response. -/
def FitsTotal (request : Option EventRequestIn) (response : Option EventResponseIn) : Prop :=
  ∀ out ∈ response, FitsInteger out.totalTokens ∧
    (out.totalTokens = none → ∀ inp ∈ request,
      FitsInteger (some (inp.inputTokens.getD 0 + out.outputTokens.getD 0)))

/-- The bounds that a payload would have to be validated against, field by field. -/
structure PayloadFits (payload : EventIn) : Prop where
  provider : payload.provider.length ≤ 32
  requestedModel : FitsVarchar 128 payload.requestedModel
  resolvedModel : FitsVarchar 128 payload.resolvedModel
  environment : FitsVarchar 32 payload.environment
  status : FitsVarchar 32 payload.status
  inputTokens : ∀ request ∈ payload.request, FitsInteger request.inputTokens
  tokenExplosionTokens : ∀ request ∈ payload.request, FitsInteger request.tokenExplosionTokens
  endpoint : ∀ request ∈ payload.request, FitsVarchar 255 request.endpoint
  feature : ∀ request ∈ payload.request, FitsVarchar 255 request.feature
  requestFingerprint : ∀ request ∈ payload.request, FitsVarchar 255 request.requestFingerprint
  outputTokens : ∀ response ∈ payload.response, FitsInteger response.outputTokens
  latencyMs : ∀ response ∈ payload.response, FitsInteger response.latencyMs
  httpStatus : ∀ response ∈ payload.response, FitsInteger response.httpStatus
  errorType : ∀ response ∈ payload.response, FitsVarchar 64 response.errorType
  errorMessage : ∀ response ∈ payload.response, FitsVarchar 512 response.errorMessage
  totalTokens : FitsTotal payload.request payload.response

theorem fitsInteger_getD {value : Option ℤ} : FitsInteger (some (value.getD 0)) ↔ FitsInteger value := by
  cases value with
  | none => simp [FitsInteger]
  | some n => rfl

theorem fitsVarchar_truthy {n : ℕ} {value : Option String} :
    FitsVarchar n (truthy value) ↔ FitsVarchar n value := by
  cases value with
  | none => rfl
  | some s =>
    by_cases hs : s = ""
    · simp [FitsVarchar, truthy, hs]
    · simp [FitsVarchar, truthy, hs]

theorem fitsVarchar_bind {α : Type} {n : ℕ} {part : Option α} {f : α → Option String} :
    FitsVarchar n (part.bind f) ↔ ∀ a ∈ part, FitsVarchar n (f a) := by
  cases part <;> simp [FitsVarchar]

theorem fitsInteger_bind {α : Type} {part : Option α} {f : α → Option ℤ} :
    FitsInteger (part.bind f) ↔ ∀ a ∈ part, FitsInteger (f a) := by
  cases part <;> simp [FitsInteger]

theorem resolveTokens_fst (payload : EventIn) : (IngestEvent.resolveTokens payload).1 =
    (payload.request.bind (·.inputTokens)).getD 0 := by
  unfold IngestEvent.resolveTokens
  split
  · rfl
  · split <;> rfl

theorem resolveTokens_snd_fst (payload : EventIn) : (IngestEvent.resolveTokens payload).2.1 =
    (payload.response.bind (·.outputTokens)).getD 0 := by
  unfold IngestEvent.resolveTokens
  split
  · rfl
  · split <;> rfl

theorem fitsInteger_total (payload : EventIn) :
    FitsInteger (some (IngestEvent.resolveTokens payload).2.2) ↔
      FitsTotal payload.request payload.response := by
  unfold IngestEvent.resolveTokens FitsTotal
  cases hresponse : payload.response with
  | none => simp [FitsInteger]
  | some response =>
    cases htotal : response.totalTokens with
    | some total => simp [htotal]
    | none =>
      cases hrequest : payload.request <;> simp [FitsInteger, htotal]

theorem fitsInteger_input (payload : EventIn) :
    FitsInteger (some (IngestEvent.resolveTokens payload).1) ↔
      ∀ request ∈ payload.request, FitsInteger request.inputTokens := by
  rw [resolveTokens_fst, fitsInteger_getD, fitsInteger_bind]

theorem fitsInteger_output (payload : EventIn) :
    FitsInteger (some (IngestEvent.resolveTokens payload).2.1) ↔
      ∀ response ∈ payload.response, FitsInteger response.outputTokens := by
  rw [resolveTokens_snd_fst, fitsInteger_getD, fitsInteger_bind]

/-- The event that ingest builds fits the table exactly where the payload fits, and the two ids do
that the payload does not choose. -/
theorem event_fits_iff (r : Request) (projectId : String) :
    EventFits (r.buildEvent projectId) ↔
      r.eventId.length ≤ 64 ∧ projectId.length ≤ 128 ∧ PayloadFits r.payload := by
  constructor
  · intro h
    refine ⟨h.id, h.projectId, ?_⟩
    exact {
      provider := h.provider
      requestedModel := h.requestedModel
      resolvedModel := h.resolvedModel
      environment := h.environment
      status := h.status
      inputTokens := (fitsInteger_input r.payload).mp h.inputTokens
      tokenExplosionTokens := fitsInteger_bind.mp h.tokenExplosionTokens
      endpoint := fitsVarchar_bind.mp h.requestEndpoint
      feature := fitsVarchar_bind.mp h.requestFeature
      requestFingerprint := fitsVarchar_bind.mp h.requestFingerprint
      outputTokens := (fitsInteger_output r.payload).mp h.outputTokens
      latencyMs := fitsInteger_bind.mp h.latencyMs
      httpStatus := fitsInteger_bind.mp h.httpStatus
      errorType := fitsVarchar_bind.mp (fitsVarchar_truthy.mp h.errorType)
      errorMessage := fitsVarchar_bind.mp (fitsVarchar_truthy.mp h.errorMessage)
      totalTokens := (fitsInteger_total r.payload).mp h.totalTokens }
  · rintro ⟨hid, hproject, h⟩
    exact {
      id := hid
      projectId := hproject
      provider := h.provider
      requestedModel := h.requestedModel
      resolvedModel := h.resolvedModel
      environment := h.environment
      inputTokens := (fitsInteger_input r.payload).mpr h.inputTokens
      outputTokens := (fitsInteger_output r.payload).mpr h.outputTokens
      totalTokens := (fitsInteger_total r.payload).mpr h.totalTokens
      tokenExplosionTokens := fitsInteger_bind.mpr h.tokenExplosionTokens
      latencyMs := fitsInteger_bind.mpr h.latencyMs
      status := h.status
      errorType := fitsVarchar_truthy.mpr (fitsVarchar_bind.mpr h.errorType)
      errorMessage := fitsVarchar_truthy.mpr (fitsVarchar_bind.mpr h.errorMessage)
      httpStatus := fitsInteger_bind.mpr h.httpStatus
      requestEndpoint := fitsVarchar_bind.mpr h.endpoint
      requestFeature := fitsVarchar_bind.mpr h.feature
      requestFingerprint := fitsVarchar_bind.mpr h.requestFingerprint }

/-- One letter, `n` times. -/
@[irreducible] def letters (n : ℕ) : String := String.ofList (List.replicate n 'x')

theorem length_letters (n : ℕ) : (letters n).length = n := by
  rw [letters, String.length_ofList, List.length_replicate]

theorem strip_letters (n : ℕ) : strip (letters n) = letters n := by
  have hx : isSpace 'x' = false := by decide
  have hstrip : stripChars (List.replicate n 'x') = List.replicate n 'x' := by
    apply stripChars_of_ends
    · intro c hc
      rw [List.eq_of_mem_replicate (List.mem_of_head? hc), hx]
    · intro c hc
      rw [List.eq_of_mem_replicate (List.mem_of_getLast? hc), hx]
  rw [letters, strip, String.toList_ofList, hstrip]

/-- A payload whose error message is longer than its column. -/
def longMessage : EventIn where
  ts := 0
  provider := "openai"
  response := some { errorMessage := some (letters 513) }

theorem validated_event_may_not_fit :
    ¬∀ (r : Request) (projectId : String), r.eventId.length = 36 → projectId.length ≤ 64 →
      EventFits (r.buildEvent projectId) := by
  intro h
  have hfits := h ⟨longMessage, some "key", none, letters 36, "m", 0, fun _ => none⟩ "p"
    (length_letters 36) (by decide)
  have hmessage : (letters 513).length ≤ 512 :=
    ((event_fits_iff _ _).mp hfits).2.2.errorMessage _ rfl _ rfl
  rw [length_letters] at hmessage
  omega

theorem ingest_of_not_fits {r : Request} {projectId : String}
    (raises : IngestEvent.Cmd → Option String)
    (hraises : ∀ event, ¬EventFits event → raises (.addEvent event) ≠ none)
    (h : ¬PayloadFits r.payload) (w : IngestEvent.World) :
    ∃ message, Program.run (IngestEvent.exec raises)
      (IngestEvent.ingest (r.buildEvent projectId) r.memberId) w =
        (.error (.response message), w) := by
  have hnot : ¬EventFits (r.buildEvent projectId) := by
    intro hfits
    exact h ((event_fits_iff r projectId).mp hfits).2.2
  obtain ⟨message, hmessage⟩ := Option.ne_none_iff_exists'.mp (hraises _ hnot)
  refine ⟨message, ?_⟩
  rw [IngestEvent.ingest, Program.run_bind, Program.run_perform, IngestEvent.exec, hmessage]

/-- The bound of `IncidentRecord.fingerprint`. -/
def FingerprintFits (fingerprint : String) : Prop := fingerprint.length ≤ 255

/-- Whatever the configuration, the history and the readings, every fingerprint that the detectors
build for the event fits, and so does every fingerprint of a block of its project and provider. -/
structure FingerprintsFit (F : Type) [PyFloat F] (event : Event) : Prop where
  detected : ∀ (settings : DetectorSettings F) (r : Readings) (recentEvents : List Event),
    ∀ signal ∈ signals settings r event recentEvents, FingerprintFits signal.fingerprint
  block : ∀ reason ∈ [BlockReason.reqCapBreach, .tokCapBreach],
    FingerprintFits (blockFingerprint event.projectId (providerOf event) reason)

/-- The lengths of the parts of the event's signature, the project and the provider twice. -/
def signatureParts (event : Event) : ℕ :=
  2 * event.projectId.length + 2 * (providerOf event).length +
    (orElse (some (normalizedModelName event.requestedModel)) "na").length +
    (orElse event.environment "na").length + (strip (orElse event.requestEndpoint "na")).length +
    (orElse (some (strip (orElse event.requestFeature "unknown"))) "unknown").length +
    (orElse (some (strip (orElse event.requestFingerprint "unknown"))) "unknown").length

section Fingerprints

variable {F : Type} [PyFloat F] (settings : DetectorSettings F) (r : Readings) (event : Event)
  (recentEvents : List Event)

theorem length_loopSuspect_fingerprint :
    (LoopSuspect.fingerprint (detectionContext settings r event recentEvents)).length =
      signatureParts event + 21 := by
  have hname : ":loop_suspect:".length = 14 := by decide
  have hcolon : ":".length = 1 := by decide
  simp only [LoopSuspect.fingerprint, LoopSuspect.contextSignature, LoopSuspect.signature,
    detectionContext, signatureParts, String.length_append, hname, hcolon]
  omega

theorem length_retryStorm_fingerprint :
    (RetryStorm.fingerprint (detectionContext settings r event recentEvents)).length =
      event.projectId.length + (providerOf event).length +
        (orElse (some (normalizedModelName event.requestedModel)) "na").length + 14 := by
  have hname : ":retry_storm".length = 12 := by decide
  have hcolon : ":".length = 1 := by decide
  simp only [RetryStorm.fingerprint, detectionContext, String.length_append, hname, hcolon]
  omega

theorem length_tokenExplosion_fingerprint :
    (TokenExplosion.fingerprint (detectionContext settings r event recentEvents)).length =
      event.projectId.length + (providerOf event).length +
        (orElse (some (normalizedModelName event.requestedModel)) "na").length + 18 := by
  have hname : ":token_explosion".length = 16 := by decide
  have hcolon : ":".length = 1 := by decide
  simp only [TokenExplosion.fingerprint, detectionContext, String.length_append, hname, hcolon]
  omega

theorem length_blockFingerprint {reason : BlockReason}
    (h : reason ∈ [BlockReason.reqCapBreach, .tokCapBreach]) (projectId provider : String) :
    (blockFingerprint projectId provider reason).length =
      projectId.length + provider.length + 22 := by
  have hname : ":block:".length = 7 := by decide
  have hcolon : ":".length = 1 := by decide
  have hreason : reason.text.length = 14 := by
    rcases List.mem_pair.mp h with rfl | rfl <;> decide
  simp only [blockFingerprint, String.length_append, hname, hcolon, hreason]
  omega

theorem fingerprint_of_mem_signals {signal : Signal}
    (h : signal ∈ signals settings r event recentEvents) :
    let ctx := detectionContext settings r event recentEvents
    signal.fingerprint = RetryStorm.fingerprint ctx ∨
      signal.fingerprint = LoopSuspect.fingerprint ctx ∨
      signal.fingerprint = TokenExplosion.fingerprint ctx := by
  intro ctx
  rcases List.mem_append.mp h with h | h
  · rcases List.mem_append.mp h with h | h
    · rw [RetryStorm.eq_signal_of_mem h]
      exact .inl rfl
    · obtain ⟨count, rfl⟩ := LoopSuspect.eq_signal_of_mem h
      exact .inr (.inl rfl)
  · obtain ⟨tokens, g, absHit, growthHit, rfl⟩ := TokenExplosion.eq_signal_of_mem h
    exact .inr (.inr rfl)

/-- What the loop detector adds to the signals of an ingest whose context does not grow. -/
theorem loopSuspect_mem_signals {count : ℕ} (hne : recentEvents ≠ [])
    (hgrowth : event.tokenExplosionTokens.getD event.totalTokens <
      settings.tokenExplosionGrowthMinTokens)
    (hfloor : 0 < settings.tokenExplosionGrowthMinTokens)
    (hcount : LoopSuspect.sequenceCount (detectionContext settings r event recentEvents)
      (sortedByDesc (fun event => (timestamp event.createdAt : F)) recentEvents) 0 none = count)
    (hquiet : (r.requests60s : ℤ) < settings.loopConcurrencyThreshold)
    (hloop : settings.loopCount ≤ count) :
    LoopSuspect.signal (detectionContext settings r event recentEvents) count ∈
      signals settings r event recentEvents := by
  have hsmall : LoopSuspect.looksLikeTokenContextGrowth
      (detectionContext settings r event recentEvents) = false := by
    have hmax : max (event.tokenExplosionTokens.getD event.totalTokens) 0 <
        settings.tokenExplosionGrowthMinTokens := max_lt hgrowth hfloor
    cases htokens : event.tokenExplosionTokens with
    | none =>
      rw [htokens, Option.getD_none] at hmax
      simp [LoopSuspect.looksLikeTokenContextGrowth, detectionContext, htokens, hmax]
    | some tokens =>
      rw [htokens, Option.getD_some] at hmax
      simp [LoopSuspect.looksLikeTokenContextGrowth, detectionContext, htokens, hmax]
  have hparallel : ¬settings.loopConcurrencyThreshold ≤ (r.requests60s : ℤ) := by omega
  have hdetect : LoopSuspect.detect (detectionContext settings r event recentEvents) =
      [LoopSuspect.signal (detectionContext settings r event recentEvents) count] := by
    have hlist : (detectionContext settings r event recentEvents).recentEvents = recentEvents := rfl
    simp only [LoopSuspect.detect, hlist, hne, hsmall, hcount, if_false]
    have henough : ¬(count : ℤ) < settings.loopCount := not_lt.mpr hloop
    simp [detectionContext, hparallel, henough]
  unfold signals detect
  rw [hdetect]
  simp

/-- Thresholds under which every event counts as a loop. -/
def eagerSettings (F : Type) [PyFloat F] (event : Event) : DetectorSettings F where
  loopCount := 0
  tokenExplosionGrowthMinTokens := max (event.tokenExplosionTokens.getD event.totalTokens) 0 + 1

theorem eagerSettings_mem_signals (hquiet : r.requests60s = 0) :
    ∃ count, LoopSuspect.signal (detectionContext (eagerSettings F event) r event [event]) count ∈
      signals (eagerSettings F event) r event [event] := by
  refine ⟨_, loopSuspect_mem_signals (eagerSettings F event) r event [event] (List.cons_ne_nil _ _)
    ?_ ?_ rfl ?_ ?_⟩
  · exact Int.lt_add_one_of_le (le_max_left _ _)
  · exact Int.lt_add_one_of_le (le_max_right _ _)
  · rw [hquiet]
    exact (by decide : ((0 : ℕ) : ℤ) < 30)
  · exact Int.natCast_nonneg _

/-- The fingerprints fit exactly where the parts of the signature leave room for the loop
detector's letters; the other fingerprints are shorter. -/
theorem fingerprints_fit_iff (F : Type) [PyFloat F] (event : Event) :
    FingerprintsFit F event ↔ signatureParts event ≤ 234 := by
  constructor
  · intro h
    obtain ⟨count, hmem⟩ := eagerSettings_mem_signals (F := F) ⟨0, 0, 0, none, none⟩ event rfl
    have hfits := h.detected _ _ _ _ hmem
    have hlength := length_loopSuspect_fingerprint (eagerSettings F event)
      ⟨0, 0, 0, none, none⟩ event [event]
    unfold FingerprintFits at hfits
    change (LoopSuspect.fingerprint _).length ≤ 255 at hfits
    omega
  · intro h
    constructor
    · intro settings r recentEvents signal hsignal
      unfold FingerprintFits
      rcases fingerprint_of_mem_signals settings r event recentEvents hsignal with he | he | he
      · rw [he, length_retryStorm_fingerprint]
        unfold signatureParts at h
        omega
      · rw [he, length_loopSuspect_fingerprint]
        omega
      · rw [he, length_tokenExplosion_fingerprint]
        unfold signatureParts at h
        omega
    · intro reason hreason
      rw [FingerprintFits, length_blockFingerprint hreason]
      unfold signatureParts at h
      omega

/-- A walk over events that all repeat the context's request counts every one of them. -/
theorem sequenceCount_of_repeats (ctx : DetectionContext F) (walked : List Event) (count : ℕ)
    (prevTs : Option F)
    (hrepeat : ∀ event ∈ walked, event.provider = ctx.provider ∧
      LoopSuspect.eventSignature ctx.projectId event = LoopSuspect.contextSignature ctx ∧
      LoopSuspect.isFailure event = false ∧
      ¬(timestamp event.createdAt : F) < timestamp ctx.now - ofInt ctx.loopWindowSeconds)
    (hgap : ∀ event ∈ walked, ∀ newer : F, some newer = prevTs ∨
      (∃ e ∈ walked, timestamp e.createdAt = newer) →
        ¬ctx.loopMaxGapSeconds < newer - timestamp event.createdAt) :
    LoopSuspect.sequenceCount ctx walked count prevTs = count + walked.length := by
  induction walked generalizing count prevTs with
  | nil => rfl
  | cons event older ih =>
    obtain ⟨hprovider, hsignature, hfailure, hrecent⟩ := hrepeat event List.mem_cons_self
    have hnear : (prevTs.any fun newer =>
        decide (ctx.loopMaxGapSeconds < newer - timestamp event.createdAt)) = false := by
      cases hprev : prevTs with
      | none => rfl
      | some newer =>
        simpa using hgap event List.mem_cons_self newer (.inl hprev.symm)
    have hrest := ih (count + 1) (some (timestamp event.createdAt))
      (fun e he => hrepeat e (List.mem_cons_of_mem _ he)) (by
        intro e he newer hnewer
        apply hgap e (List.mem_cons_of_mem _ he) newer
        rcases hnewer with h | ⟨e', he', h⟩
        · exact .inr ⟨event, List.mem_cons_self, (Option.some.inj h).symm⟩
        · exact .inr ⟨e', List.mem_cons_of_mem _ he', h⟩)
    rw [LoopSuspect.sequenceCount]
    simp only [hprovider, hsignature, hfailure, hrecent, hnear, ne_eq, not_true_eq_false, if_false,
      Bool.false_eq_true]
    rw [hrest, List.length_cons]
    omega

end Fingerprints

/-- A request with a feature name as long as its column, sent again every tenth of a second. -/
def loopingEvent (ms : ℕ) : Event :=
  { sampleEvent "e" ms 100 with requestFeature := some (letters 255) }

def loopingEvents : List Event := [9900, 9800, 9700, 9600, 9500, 9400].map loopingEvent

theorem eventFits_loopingEvent (ms : ℕ) : EventFits (loopingEvent ms) where
  id := (by decide : "e".length ≤ 64)
  projectId := (by decide : "p".length ≤ 128)
  provider := (by decide : "openai".length ≤ 32)
  requestedModel := by
    rintro s ⟨⟩
    decide
  resolvedModel := by rintro s ⟨⟩
  environment := by
    rintro s ⟨⟩
    decide
  inputTokens := by
    rintro n ⟨⟩
    exact (by decide : -2 ^ 31 ≤ (100 : ℤ) ∧ (100 : ℤ) < 2 ^ 31)
  outputTokens := by
    rintro n ⟨⟩
    exact (by decide : -2 ^ 31 ≤ (0 : ℤ) ∧ (0 : ℤ) < 2 ^ 31)
  totalTokens := by
    rintro n ⟨⟩
    exact (by decide : -2 ^ 31 ≤ (100 : ℤ) ∧ (100 : ℤ) < 2 ^ 31)
  tokenExplosionTokens := by rintro n ⟨⟩
  latencyMs := by rintro n ⟨⟩
  status := by rintro s ⟨⟩
  errorType := by rintro s ⟨⟩
  errorMessage := by rintro s ⟨⟩
  httpStatus := by rintro n ⟨⟩
  requestEndpoint := by rintro s ⟨⟩
  requestFeature := by
    intro s hs
    rw [← Option.some.inj hs, length_letters]
  requestFingerprint := by rintro s ⟨⟩

theorem providerOf_loopingEvent (ms : ℕ) : providerOf (loopingEvent ms) = "openai" := by
  have hstrip : orElse (some (strip "openai")) "unknown" = "openai" := by decide
  exact hstrip

def loopingReadings : Readings := ⟨10000, 6, 600, none, none⟩

theorem timestamp_loopingEvents {event : Event} (h : event ∈ loopingEvents) :
    (9.4 : ℚ) ≤ timestamp event.createdAt ∧ (timestamp event.createdAt : ℚ) ≤ 9.9 := by
  obtain ⟨ms, hms, rfl⟩ := List.mem_map.mp h
  have hrange : ∀ ms ∈ [9900, 9800, 9700, 9600, 9500, 9400], 9400 ≤ ms ∧ ms ≤ 9900 := by decide
  have hlow : (9400 : ℚ) ≤ ms := by exact_mod_cast (hrange ms hms).1
  have hhigh : (ms : ℚ) ≤ 9900 := by exact_mod_cast (hrange ms hms).2
  change (9.4 : ℚ) ≤ (ms : ℚ) / 1000 ∧ (ms : ℚ) / 1000 ≤ 9.9
  constructor <;> linarith

theorem sequenceCount_loopingEvents : LoopSuspect.sequenceCount (F := ℚ)
    (detectionContext {} loopingReadings (loopingEvent 9900) loopingEvents)
    (sortedByDesc (fun event => (timestamp event.createdAt : ℚ)) loopingEvents) 0 none = 6 := by
  have hsorted : sortedByDesc (fun event => (timestamp event.createdAt : ℚ)) loopingEvents =
      loopingEvents := by
    apply sortedByDesc_of_pairwise
    simp [loopingEvents, loopingEvent, sampleEvent, timestamp]
    norm_num
  rw [hsorted, sequenceCount_of_repeats]
  · rfl
  · intro event hevent
    have htime := timestamp_loopingEvents hevent
    obtain ⟨ms, hms, rfl⟩ := List.mem_map.mp hevent
    have hfailure : LoopSuspect.isFailure (sampleEvent "e" 0 100) = false := by decide
    refine ⟨(providerOf_loopingEvent 9900).symm, ?_, hfailure, ?_⟩
    · simp only [LoopSuspect.eventSignature, LoopSuspect.contextSignature, detectionContext,
        providerOf_loopingEvent]
      rfl
    · have hcutoff : (timestamp 10000 : ℚ) - ofInt 30 = -20 := by
        simp only [timestamp, ofInt]
        norm_num
      change ¬(timestamp (loopingEvent ms).createdAt : ℚ) < timestamp 10000 - ofInt 30
      rw [hcutoff]
      linarith
  · intro event hevent newer hnewer
    rcases hnewer with hnone | ⟨e, he, rfl⟩
    · exact absurd hnone (Option.some_ne_none newer)
    · have hfirst := timestamp_loopingEvents hevent
      have hsecond := timestamp_loopingEvents he
      have hgap : (ofInt 2 : ℚ) = 2 := by
        simp only [ofInt]
        norm_num
      change ¬(ofInt 2 : ℚ) < timestamp e.createdAt - timestamp event.createdAt
      rw [hgap]
      linarith

theorem fitting_event_may_overflow :
    ¬∀ event : Event, EventFits event → FingerprintsFit ℚ event := by
  intro h
  have hsignal := loopSuspect_mem_signals (F := ℚ) {} loopingReadings (loopingEvent 9900)
    loopingEvents (List.cons_ne_nil _ _) (by decide) (by decide) sequenceCount_loopingEvents
    (by decide) (by decide)
  have hfits := (h (loopingEvent 9900) (eventFits_loopingEvent 9900)).detected _ _ _ _ hsignal
  have hlength := length_loopSuspect_fingerprint (F := ℚ) {} loopingReadings (loopingEvent 9900)
    loopingEvents
  unfold FingerprintFits at hfits
  change (LoopSuspect.fingerprint _).length ≤ 255 at hfits
  have hne : letters 255 ≠ "" := by
    intro he
    have hlen := congrArg String.length he
    rw [length_letters] at hlen
    exact absurd hlen (by decide)
  have hfeature : orElse (some (strip (orElse (loopingEvent 9900).requestFeature "unknown")))
      "unknown" = letters 255 := by
    change orElse (some (strip (orElse (some (letters 255)) "unknown"))) "unknown" = letters 255
    rw [orElse_of_ne hne, strip_letters, orElse_of_ne hne]
  rw [hlength, signatureParts, hfeature, length_letters] at hfits
  omega

end Rheonic.StorageBounds
