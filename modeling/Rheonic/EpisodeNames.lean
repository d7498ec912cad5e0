import Rheonic.GrowthWarnings
import Rheonic.Lib.Separated

namespace Rheonic.Detectors
open PyText Separated
open IngestEvent (Event)
open IncidentRepository (Detector)
open TokenExplosion (endpointOf featureOf)

section Fields

/-- The normalized model, environment and request fingerprint of a request. -/
def modelOf (requestedModel : Option String) : String :=
  orElse (some (normalizedModelName requestedModel)) "na"

def environmentOf (environment : Option String) : String := orElse environment "na"

def fingerprintOf (requestFingerprint : Option String) : String :=
  orElse (some (strip (orElse requestFingerprint "unknown"))) "unknown"

/-- The fields by which the loop detector takes requests to be alike. -/
def loopFields (requestedModel environment requestEndpoint requestFeature
    requestFingerprint : Option String) : List String :=
  [modelOf requestedModel, environmentOf environment, endpointOf requestEndpoint,
    featureOf requestFeature, fingerprintOf requestFingerprint]

def eventFields (event : Event) : List String :=
  loopFields event.requestedModel event.environment event.requestEndpoint event.requestFeature
    event.requestFingerprint

/-- Texts joined by colons, as lists of characters. -/
def joined (texts : List String) : List Char := [':'].intercalate (texts.map String.toList)

theorem joined_cons (text : String) {texts : List String} (h : texts ≠ []) :
    joined (text :: texts) = text.toList ++ ':' :: joined texts := by
  unfold joined
  rw [List.map_cons, List.intercalate_cons_of_ne_nil (by simpa using h), List.append_assoc,
    List.singleton_append]

theorem signature_eq (projectId provider : String) (requestedModel environment requestEndpoint
    requestFeature requestFingerprint : Option String) :
    (LoopSuspect.signature projectId provider requestedModel environment requestEndpoint
      requestFeature requestFingerprint).toList =
        joined (projectId :: provider :: loopFields requestedModel environment requestEndpoint
          requestFeature requestFingerprint) := by
  simp [LoopSuspect.signature, joined, loopFields, modelOf, environmentOf, endpointOf, featureOf,
    fingerprintOf, List.intercalate_cons_cons, String.toList_append]

/-- The texts' pieces between colons, and how many of them each text has. -/
def piecesOf (texts : List String) : List (List Char) := pieces ':' (texts.map String.toList)

def groupingOf (texts : List String) : List ℕ := grouping ':' (texts.map String.toList)

theorem joined_separates_iff {texts texts' : List String} (h : texts ≠ []) (h' : texts' ≠ []) :
    (joined texts = joined texts' ↔ texts = texts') ↔
      (piecesOf texts = piecesOf texts' → groupingOf texts = groupingOf texts') := by
  have hmap : texts.map String.toList = texts'.map String.toList ↔ texts = texts' :=
    (List.map_injective_iff.mpr fun _ _ h => String.toList_injective h).eq_iff
  rw [← hmap]
  exact separates_iff (by simpa using h) (by simpa using h')

end Fields

section Fingerprints

variable {F : Type} [PyFloat F]

/-- The scope fields of a detector's signals. -/
def scopeFields (ctx : DetectionContext F) : Detector → List String
  | .retryStorm | .tokenExplosion => [modelOf ctx.requestedModel]
  | .loopSuspect => loopFields ctx.requestedModel ctx.environment ctx.requestEndpoint
      ctx.requestFeature ctx.requestFingerprint

/-- The same detector, and the same scope fields. -/
def SameEpisode (ctx ctx' : DetectionContext F) (detector detector' : Detector) : Prop :=
  detector = detector' ∧ scopeFields ctx detector = scopeFields ctx' detector'

/-- What a fingerprint joins after the project and the provider. -/
def fingerprintTexts (ctx : DetectionContext F) : Detector → List String
  | .retryStorm => [modelOf ctx.requestedModel, "retry_storm"]
  | .tokenExplosion => [modelOf ctx.requestedModel, "token_explosion"]
  | .loopSuspect => "loop_suspect" :: ctx.projectId :: ctx.provider ::
      loopFields ctx.requestedModel ctx.environment ctx.requestEndpoint ctx.requestFeature
        ctx.requestFingerprint

variable {ctx ctx' : DetectionContext F} {s s' : Signal}

theorem fingerprintTexts_ne_nil (detector : Detector) : fingerprintTexts ctx detector ≠ [] := by
  cases detector <;> simp [fingerprintTexts]

theorem sameEpisode_iff (hproject : ctx.projectId = ctx'.projectId)
    (hprovider : ctx.provider = ctx'.provider) (detector detector' : Detector) :
    fingerprintTexts ctx detector = fingerprintTexts ctx' detector' ↔
      SameEpisode ctx ctx' detector detector' := by
  cases detector <;> cases detector' <;>
    simp [fingerprintTexts, SameEpisode, scopeFields, loopFields, hproject, hprovider]

theorem fingerprint_of_mem (h : s ∈ detect ctx) : s.fingerprint.toList =
    joined (ctx.projectId :: ctx.provider :: fingerprintTexts ctx s.detector) := by
  unfold detect at h
  rcases List.mem_append.mp h with h | h
  · rcases List.mem_append.mp h with h | h
    · rw [RetryStorm.eq_signal_of_mem h]
      simp [RetryStorm.signal, RetryStorm.fingerprint, joined, fingerprintTexts, modelOf,
        List.intercalate_cons_cons, String.toList_append]
    · obtain ⟨count, rfl⟩ := LoopSuspect.eq_signal_of_mem h
      have htail := joined_cons "loop_suspect"
        (List.cons_ne_nil ctx.projectId (ctx.provider :: loopFields ctx.requestedModel
          ctx.environment ctx.requestEndpoint ctx.requestFeature ctx.requestFingerprint))
      show (LoopSuspect.fingerprint ctx).toList =
        joined (ctx.projectId :: ctx.provider :: "loop_suspect" :: _)
      rw [joined_cons _ (by simp), joined_cons _ (by simp), htail, ← signature_eq]
      simp [LoopSuspect.fingerprint, LoopSuspect.contextSignature, String.toList_append]
  · obtain ⟨tokens, g, absHit, growthHit, rfl⟩ := TokenExplosion.eq_signal_of_mem h
    simp [TokenExplosion.signal, TokenExplosion.fingerprint, joined, fingerprintTexts, modelOf,
      List.intercalate_cons_cons, String.toList_append]

theorem joined_scope_inj (projectId provider : String) {texts texts' : List String}
    (h : texts ≠ []) (h' : texts' ≠ []) :
    joined (projectId :: provider :: texts) = joined (projectId :: provider :: texts') ↔
      joined texts = joined texts' := by
  have hscope : ∀ {l : List String}, l ≠ [] → joined (projectId :: provider :: l) =
      projectId.toList ++ ':' :: (provider.toList ++ ':' :: joined l) := by
    intro l hl
    rw [joined_cons projectId (List.cons_ne_nil _ _), joined_cons provider hl]
  rw [hscope h, hscope h']
  simp

/-- Fingerprints and loop signatures tell episodes apart exactly where the colons in their fields
leave no other way of grouping the pieces. -/
theorem fingerprints_separate_iff (hproject : ctx.projectId = ctx'.projectId)
    (hprovider : ctx.provider = ctx'.provider) (hs : s ∈ detect ctx) (hs' : s' ∈ detect ctx')
    (event event' : Event) (hevents : event.provider = event'.provider) :
    ((s.fingerprint = s'.fingerprint ↔ SameEpisode ctx ctx' s.detector s'.detector) ↔
      (piecesOf (fingerprintTexts ctx s.detector) = piecesOf (fingerprintTexts ctx' s'.detector) →
        groupingOf (fingerprintTexts ctx s.detector) =
          groupingOf (fingerprintTexts ctx' s'.detector))) ∧
    ((LoopSuspect.eventSignature ctx.projectId event = LoopSuspect.eventSignature ctx'.projectId event'
        ↔ eventFields event = eventFields event') ↔
      (piecesOf (eventFields event) = piecesOf (eventFields event') →
        groupingOf (eventFields event) = groupingOf (eventFields event'))) := by
  constructor
  · rw [← joined_separates_iff (fingerprintTexts_ne_nil _) (fingerprintTexts_ne_nil _),
      ← sameEpisode_iff hproject hprovider,
      ← joined_scope_inj ctx.projectId ctx.provider (fingerprintTexts_ne_nil _)
        (fingerprintTexts_ne_nil _), ← fingerprint_of_mem hs]
    have hfingerprint := fingerprint_of_mem hs'
    rw [← hproject, ← hprovider] at hfingerprint
    rw [← hfingerprint, String.toList_inj]
  · rw [← joined_separates_iff (by simp [eventFields, loopFields]) (by simp [eventFields, loopFields]),
      ← joined_scope_inj ctx.projectId event.provider (by simp [eventFields, loopFields])
        (by simp [eventFields, loopFields]), ← String.toList_inj, hproject]
    unfold LoopSuspect.eventSignature
    rw [signature_eq, signature_eq, hevents]
    rfl

/-- A request that explodes in tokens, of a model. -/
def sampleModel (requestedModel : String) : DetectionContext ℚ :=
  { sampleContext [] with requestedModel := some requestedModel, tokenExplosionTokens := some 20000 }

/-- A request of an endpoint and a feature, after one of the same kind. -/
def sampleLoop (endpoint feature : String) : DetectionContext ℚ :=
  { sampleContext [{ sampleEvent "e1" 9000 10 with
      requestEndpoint := some endpoint, requestFeature := some feature }] with
    requestEndpoint := some endpoint
    requestFeature := some feature
    loopCount := 1 }

theorem exists_loop_signal (h : (LoopSuspect.detect ctx).isEmpty = false) :
    ∃ s ∈ detect ctx, s.detector = .loopSuspect ∧ s.fingerprint = LoopSuspect.fingerprint ctx := by
  obtain ⟨s, hs⟩ := List.exists_mem_of_ne_nil _ (List.isEmpty_eq_false_iff.mp h)
  obtain ⟨count, hcount⟩ := LoopSuspect.eq_signal_of_mem hs
  refine ⟨s, List.mem_append_left _ (List.mem_append_right _ hs), ?_, ?_⟩
  · rw [hcount]
    rfl
  · rw [hcount]
    rfl

theorem exists_explosion_signal (h : (TokenExplosion.detect ctx).isEmpty = false) :
    ∃ s ∈ detect ctx, s.detector = .tokenExplosion := by
  obtain ⟨s, hs⟩ := List.exists_mem_of_ne_nil _ (List.isEmpty_eq_false_iff.mp h)
  obtain ⟨tokens, g, absHit, hit, hsignal⟩ := TokenExplosion.eq_signal_of_mem hs
  refine ⟨s, List.mem_append_right _ hs, ?_⟩
  rw [hsignal]
  rfl

/-- The loops of two endpoints go under one fingerprint. -/
theorem endpoints_share_fingerprint :
    ∃ s ∈ detect (sampleLoop "/v1:chat" "summary"),
      ∃ s' ∈ detect (sampleLoop "/v1" "chat:summary"), s.fingerprint = s'.fingerprint ∧
        ¬SameEpisode (sampleLoop "/v1:chat" "summary") (sampleLoop "/v1" "chat:summary") s.detector
          s'.detector := by
  have hfields : scopeFields (sampleLoop "/v1:chat" "summary") .loopSuspect ≠
      scopeFields (sampleLoop "/v1" "chat:summary") .loopSuspect := by
    decide +kernel
  have hfingerprint : LoopSuspect.fingerprint (sampleLoop "/v1:chat" "summary") =
      LoopSuspect.fingerprint (sampleLoop "/v1" "chat:summary") := by
    decide +kernel
  obtain ⟨s, hmem, hs, hf⟩ := exists_loop_signal
    (by decide +kernel : (LoopSuspect.detect (sampleLoop "/v1:chat" "summary")).isEmpty = false)
  obtain ⟨s', hmem', hs', hf'⟩ := exists_loop_signal
    (by decide +kernel : (LoopSuspect.detect (sampleLoop "/v1" "chat:summary")).isEmpty = false)
  refine ⟨s, hmem, s', hmem', ?_, ?_⟩
  · rw [hf, hf', hfingerprint]
  · rw [hs, hs']
    exact fun hsame => hfields hsame.2

/-- The token explosions of two models are told apart. -/
theorem fingerprints_separate_sample :
    ∃ s ∈ detect (sampleModel "gpt"), ∃ s' ∈ detect (sampleModel "ft:gpt"),
      s.fingerprint = s'.fingerprint ↔
        SameEpisode (sampleModel "gpt") (sampleModel "ft:gpt") s.detector s'.detector := by
  have hpieces : piecesOf (fingerprintTexts (sampleModel "gpt") .tokenExplosion) ≠
      piecesOf (fingerprintTexts (sampleModel "ft:gpt") .tokenExplosion) := by
    decide +kernel
  obtain ⟨s, hmem, hs⟩ := exists_explosion_signal
    (by decide +kernel : (TokenExplosion.detect (sampleModel "gpt")).isEmpty = false)
  obtain ⟨s', hmem', hs'⟩ := exists_explosion_signal
    (by decide +kernel : (TokenExplosion.detect (sampleModel "ft:gpt")).isEmpty = false)
  have hproject : (sampleModel "gpt").projectId = (sampleModel "ft:gpt").projectId := rfl
  have hprovider : (sampleModel "gpt").provider = (sampleModel "ft:gpt").provider := rfl
  have hseparate := fingerprints_separate_iff hproject hprovider hmem hmem' (sampleEvent "e1" 1 1)
    (sampleEvent "e2" 2 2) rfl
  refine ⟨s, hmem, s', hmem', hseparate.1.mpr ?_⟩
  rw [hs, hs']
  exact fun heq => absurd heq hpieces

end Fingerprints

end Rheonic.Detectors
