import Rheonic.NodeAdapters
import Rheonic.Lib.Effect
import Rheonic.Lib.Trim

namespace Rheonic.Providers.Node
open ProtectEngine Effect

variable {ε ρ : Type}

/-- What can be thrown: a value from outside (by the provider or by a getter of its outcome), or an
error of the SDK. -/
inductive Thrown (ε : Type)
  | foreign (e : ε)
  | blocked (reason : String)
  | validation (message : String)
  deriving DecidableEq, Repr

def isWhiteSpace (c : Char) : Bool :=
  (c.toNat ∈ [9, 10, 11, 12, 13, 32, 160, 5760, 8232, 8233, 8239, 8287, 12288, 65279]) ||
    (8192 ≤ c.toNat && c.toNat ≤ 8202)

/-- `value.trim().length === 0`. -/
def isBlank (s : String) : Bool := (Trim.trim isWhiteSpace s.toList).isEmpty

/-- `assertOptionalString`. -/
def assertOptionalString (value : JsValue) (label : String) : Except (Thrown ε) Unit :=
  match value with
  | .undefined | .null | .string _ => .ok ()
  | _ => .error (.validation s!"RHEONIC: {label} must be a string.")

/-- `value ?? default`. -/
def coalesce (value default : JsValue) : JsValue :=
  match value with
  | .undefined | .null => default
  | value => value

structure EventRequest where
  endpoint : JsValue
  feature : JsValue
  inputTokensEstimate : Option JsNumber
  protectDecision : Option Decision
  protectReason : Option String
  deriving DecidableEq, Repr

structure EventResponse where
  totalTokens : Option JsNumber := none
  errorType : Option String := none
  errorMessage : Option String := none
  httpStatus : Option JsNumber := none
  deriving DecidableEq, Repr

/-- An event as the wrappers build it, which set every other field to a string or a number. -/
structure EventPayload where
  provider : String
  requestedModel : Option String
  resolvedModel : Option String := none
  environment : JsValue
  request : EventRequest
  response : EventResponse
  deriving DecidableEq, Repr

def validateRequestShape (request : EventRequest) : Except (Thrown ε) Unit := do
  assertOptionalString request.endpoint "event.request.endpoint"
  assertOptionalString request.feature "event.request.feature"

/-- A string that is not blank. -/
def assertNonEmptyString (value : JsValue) (label : String) : Except (Thrown ε) Unit :=
  match value with
  | .string s =>
    if isBlank s then .error (.validation s!"RHEONIC: {label} must be a non-empty string.")
    else .ok ()
  | _ => .error (.validation s!"RHEONIC: {label} must be a non-empty string.")

def buildInternalEvent (input : EventPayload) : Except (Thrown ε) EventPayload := do
  assertNonEmptyString (.string input.provider) "event.provider"
  assertOptionalString input.environment "event.environment"
  validateRequestShape input.request
  pure { input with environment := coalesce input.environment (.string "dev") }

/-- `normalizeEventPayload` of an event that `buildInternalEvent` has built. -/
def normalizeEventPayload (event : EventPayload) : Except (Thrown ε) EventPayload := do
  assertNonEmptyString (.string event.provider) "event.provider"
  assertNonEmptyString event.environment "event.environment"
  validateRequestShape event.request
  pure event

/-- The environment of a client: its option, else the first variable that is set. -/
def clientEnvironment (option : Option String) (processEnv : List (Option String)) : String :=
  ((option :: processEnv).findSome? id).getD "unknown"

structure Options where
  environment : JsValue := .undefined
  endpoint : JsValue := .undefined
  feature : JsValue := .undefined
  clientEnvironment : String := "unknown"
  deriving DecidableEq, Repr

/-- The outside of one call: the estimate, the decision, the provider's outcome, and what the reads
of that outcome give or throw. -/
structure World (ε ρ : Type) where
  estimate : Option JsNumber
  decision : Evaluation
  provider : Except ε ρ
  extractTotalTokens : ρ → Except ε (Option JsNumber)
  extractResponseModel : ρ → Except ε (Option String)
  extractError : Thrown ε → Except ε EventResponse

/-- What a call leaves: the arguments that the provider was called with, and the captured events. -/
structure Trace where
  calls : List Call := []
  captured : List EventPayload := []
  deriving DecidableEq, Repr

/-- The parts in which the adapters differ. -/
structure Adapter where
  provider : String
  limitKeys : List String
  deriving DecidableEq, Repr

def openai : Adapter := ⟨"openai", openaiLimitKeys⟩

def anthropic : Adapter := ⟨"anthropic", anthropicLimitKeys⟩

def supportedProviders : List String := ["openai", "anthropic", "google"]

section Wrapper

variable (a : Adapter) (options : Options) (w : World ε ρ)

/-- The name of an adapter is one of the supported ones, so that only the model can be missing. -/
def validateProviderModel (provider : String) (model : Option String) :
    Effect (Thrown ε) Trace Unit :=
  if provider ∉ supportedProviders then
    throw (.validation s!"RHEONIC: unsupported provider: {provider}")
  else if isBlank (model.getD "") then
    throw (.validation s!"RHEONIC: model must be explicitly provided for provider {provider}.")
  else pure ()

def captureEventAndFlush (event : EventPayload) : Effect (Thrown ε) Trace Unit := do
  let event ← answer id (normalizeEventPayload event)
  modify fun trace => { trace with captured := trace.captured ++ [event] }

def inputOf (model : Option String) (decision : Evaluation) (response : EventResponse) :
    EventPayload where
  provider := a.provider
  requestedModel := model
  environment := coalesce options.environment (.string options.clientEnvironment)
  request :=
    { endpoint := options.endpoint
      feature := options.feature
      inputTokensEstimate := w.estimate
      protectDecision := if decision.decision = .allow then none else some decision.decision
      protectReason := if decision.decision = .allow then none else some decision.reason }
  response := response

def captureSuccess (model : Option String) (decision : Evaluation) (response : ρ) :
    Effect (Thrown ε) Trace Unit := do
  let totalTokens ← answer .foreign (w.extractTotalTokens response)
  let event ← answer id (buildInternalEvent (inputOf a options w model decision
    { totalTokens := totalTokens, httpStatus := some (.finite 200) }))
  let resolvedModel ← answer .foreign (w.extractResponseModel response)
  captureEventAndFlush { event with resolvedModel := resolvedModel }

def captureFailure (model : Option String) (decision : Evaluation) (error : Thrown ε) :
    Effect (Thrown ε) Trace Unit := do
  let response ← answer .foreign (w.extractError error)
  let event ← answer id (buildInternalEvent (inputOf a options w model decision response))
  captureEventAndFlush event

def originalCreate (c : Call) : Effect (Thrown ε) Trace ρ := do
  modify fun trace => { trace with calls := trace.calls ++ [c] }
  answer .foreign w.provider

/-- The wrapped method of either adapter. -/
def wrappedCreate (c : Call) : Effect (Thrown ε) Trace ρ := do
  let model := extractRequestedModel c
  validateProviderModel a.provider model
  if w.decision.decision = .block then throw (.blocked w.decision.reason)
  else
    let (callArgs, decision) := applyClamp a.limitKeys c w.decision
    handle (fun _ => true)
      (do
        let response ← originalCreate w callArgs
        captureSuccess a options w model decision response
        pure response)
      fun error => do
        captureFailure a options w model decision error
        throw error

end Wrapper

/-- The provider is called once with the given arguments, the caller sees its outcome, and at most
one event is captured. -/
structure Transparent (callArgs : Call) (provider : Except ε ρ)
    (outcome : Except (Thrown ε) ρ × Trace) : Prop where
  called : outcome.2.calls = [callArgs]
  seen : outcome.1 = provider.mapError Thrown.foreign
  captured : outcome.2.captured.length ≤ 1

def IsOptionalString : JsValue → Prop
  | .undefined | .null | .string _ => True
  | _ => False

/-- The options give a text that is not blank as the environment, and texts for the rest. -/
structure WellFormed (options : Options) : Prop where
  environment : ∃ s, coalesce options.environment (.string options.clientEnvironment) = .string s ∧
    isBlank s = false
  endpoint : IsOptionalString options.endpoint
  feature : IsOptionalString options.feature

/-- The telemetry of the provider's outcome throws nothing, or no other than the provider's error. -/
def Quiet (options : Options) (w : World ε ρ) : Prop :=
  match w.provider with
  | .ok response => WellFormed options ∧ (∃ total, w.extractTotalTokens response = .ok total) ∧
      ∃ model, w.extractResponseModel response = .ok model
  | .error e => w.extractError (.foreign e) = .error e ∨
      (WellFormed options ∧ ∃ response, w.extractError (.foreign e) = .ok response)

section Events

variable {options : Options} {a : Adapter} {w : World ε ρ}

theorem assertOptionalString_ok {value : JsValue} (h : IsOptionalString value) (label : String) :
    (assertOptionalString value label : Except (Thrown ε) Unit) = .ok () := by
  cases value with
  | undefined | null | string => rfl
  | bool | number | other | ref => exact h.elim

theorem assertOptionalString_error {value : JsValue} (h : ¬ IsOptionalString value)
    (label : String) : ∃ message, (assertOptionalString value label : Except (Thrown ε) Unit) =
      .error (.validation message) := by
  cases value with
  | undefined | null | string => exact absurd trivial h
  | bool | number | other | ref => exact ⟨_, rfl⟩

theorem validateRequestShape_ok {request : EventRequest} (hendpoint : IsOptionalString request.endpoint)
    (hfeature : IsOptionalString request.feature) :
    (validateRequestShape request : Except (Thrown ε) Unit) = .ok () := by
  unfold validateRequestShape
  rw [assertOptionalString_ok hendpoint, assertOptionalString_ok hfeature]
  rfl

theorem validateRequestShape_error {request : EventRequest}
    (h : ¬ (IsOptionalString request.endpoint ∧ IsOptionalString request.feature)) :
    ∃ message, (validateRequestShape request : Except (Thrown ε) Unit) =
      .error (.validation message) := by
  unfold validateRequestShape
  by_cases hendpoint : IsOptionalString request.endpoint
  · obtain ⟨message, hfeature⟩ := assertOptionalString_error (ε := ε)
      (fun hfeature => h ⟨hendpoint, hfeature⟩) "event.request.feature"
    exact ⟨message, by rw [assertOptionalString_ok hendpoint, hfeature]; rfl⟩
  · obtain ⟨message, hendpoint⟩ := assertOptionalString_error (ε := ε) hendpoint
      "event.request.endpoint"
    exact ⟨message, by rw [hendpoint]; rfl⟩

theorem assertNonEmptyString_ok {s : String} (h : isBlank s = false) (label : String) :
    (assertNonEmptyString (.string s) label : Except (Thrown ε) Unit) = .ok () := by
  unfold assertNonEmptyString
  dsimp only
  rw [h, if_neg (by decide)]

theorem assertNonEmptyString_error {value : JsValue}
    (h : ¬ ∃ s, value = .string s ∧ isBlank s = false) (label : String) :
    ∃ message, (assertNonEmptyString value label : Except (Thrown ε) Unit) =
      .error (.validation message) := by
  cases value with
  | string s =>
    have hblank : isBlank s = true := by
      by_contra hblank
      exact h ⟨s, rfl, Bool.not_eq_true _ ▸ hblank⟩
    exact ⟨_, if_pos hblank⟩
  | undefined | null | bool | number | other | ref => exact ⟨_, rfl⟩

variable {input : EventPayload}

theorem buildInternalEvent_cases (hprovider : isBlank input.provider = false)
    (hpresent : ∀ default, coalesce input.environment default = input.environment) :
    (buildInternalEvent input : Except (Thrown ε) EventPayload) = .ok input ∨
      ∃ message, (buildInternalEvent input : Except (Thrown ε) EventPayload) =
        .error (.validation message) := by
  unfold buildInternalEvent
  rw [assertNonEmptyString_ok hprovider, hpresent]
  by_cases henvironment : IsOptionalString input.environment
  · rw [assertOptionalString_ok henvironment]
    by_cases hrequest : IsOptionalString input.request.endpoint ∧
        IsOptionalString input.request.feature
    · rw [validateRequestShape_ok hrequest.1 hrequest.2]
      exact .inl rfl
    · obtain ⟨message, herror⟩ := validateRequestShape_error (ε := ε) hrequest
      rw [herror]
      exact .inr ⟨message, rfl⟩
  · obtain ⟨message, herror⟩ := assertOptionalString_error (ε := ε) henvironment "event.environment"
    rw [herror]
    exact .inr ⟨message, rfl⟩

/-- The input of an event that can be captured. -/
def Capturable (input : EventPayload) : Prop :=
  (∃ s, input.environment = .string s ∧ isBlank s = false) ∧
    IsOptionalString input.request.endpoint ∧ IsOptionalString input.request.feature

theorem buildInternalEvent_ok (hprovider : isBlank input.provider = false)
    (h : Capturable input) :
    (buildInternalEvent input : Except (Thrown ε) EventPayload) = .ok input := by
  obtain ⟨s, hs, -⟩ := h.1
  have hpresent : ∀ default, coalesce input.environment default = input.environment := by
    intro default
    rw [hs]
    rfl
  have htext : IsOptionalString input.environment := by
    rw [hs]
    exact trivial
  unfold buildInternalEvent
  rw [assertNonEmptyString_ok hprovider, hpresent, validateRequestShape_ok h.2.1 h.2.2,
    assertOptionalString_ok htext]
  rfl

theorem normalizeEventPayload_ok (hprovider : isBlank input.provider = false)
    (h : Capturable input) :
    (normalizeEventPayload input : Except (Thrown ε) EventPayload) = .ok input := by
  obtain ⟨s, hs, hblank⟩ := h.1
  unfold normalizeEventPayload
  rw [assertNonEmptyString_ok hprovider, hs, assertNonEmptyString_ok hblank,
    validateRequestShape_ok h.2.1 h.2.2]
  rfl

theorem normalizeEventPayload_error (hprovider : isBlank input.provider = false)
    (h : ¬ Capturable input) : ∃ message,
      (normalizeEventPayload input : Except (Thrown ε) EventPayload) =
        .error (.validation message) := by
  unfold normalizeEventPayload
  rw [assertNonEmptyString_ok hprovider]
  by_cases henvironment : ∃ s, input.environment = .string s ∧ isBlank s = false
  · obtain ⟨s, hs, hblank⟩ := henvironment
    have hrequest : ¬ (IsOptionalString input.request.endpoint ∧
        IsOptionalString input.request.feature) := fun hrequest => h ⟨⟨s, hs, hblank⟩, hrequest⟩
    obtain ⟨message, herror⟩ := validateRequestShape_error (ε := ε) hrequest
    rw [hs, assertNonEmptyString_ok hblank, herror]
    exact ⟨message, rfl⟩
  · obtain ⟨message, herror⟩ := assertNonEmptyString_error (ε := ε) henvironment "event.environment"
    rw [herror]
    exact ⟨message, rfl⟩

theorem capturable_inputOf_iff (model : Option String) (decision : Evaluation)
    (response : EventResponse) :
    Capturable (inputOf a options w model decision response) ↔ WellFormed options :=
  ⟨fun h => ⟨h.1, h.2.1, h.2.2⟩, fun h => ⟨h.environment, h.endpoint, h.feature⟩⟩

theorem coalesce_inputOf (model : Option String) (decision : Evaluation) (response : EventResponse)
    (default : JsValue) :
    coalesce (inputOf a options w model decision response).environment default =
      (inputOf a options w model decision response).environment := by
  show coalesce (coalesce options.environment _) default = coalesce options.environment _
  cases options.environment <;> rfl

end Events

section Steps

theorem exec_capture_ok {event : EventPayload}
    (h : (normalizeEventPayload event : Except (Thrown ε) EventPayload) = .ok event) (t : Trace) :
    exec (captureEventAndFlush event : Effect (Thrown ε) Trace Unit) t =
      (.ok (), { t with captured := t.captured ++ [event] }) := by
  unfold captureEventAndFlush
  rw [h, exec_answer_ok, exec_modify]

theorem exec_capture_error {event : EventPayload} {thrown : Thrown ε}
    (h : (normalizeEventPayload event : Except (Thrown ε) EventPayload) = .error thrown)
    (t : Trace) :
    exec (captureEventAndFlush event : Effect (Thrown ε) Trace Unit) t = (.error thrown, t) := by
  unfold captureEventAndFlush
  rw [h, exec_answer_error]
  rfl

variable (a : Adapter) (options : Options) (w : World ε ρ) (model : Option String)
  (decision : Evaluation) (t : Trace)

/-- The event of a response is captured, or something is thrown instead. -/
theorem exec_captureSuccess (hprovider : isBlank a.provider = false) (response : ρ) :
    (WellFormed options ∧ (∃ total, w.extractTotalTokens response = .ok total) ∧
        (∃ resolved, w.extractResponseModel response = .ok resolved) →
      ∃ event, exec (captureSuccess a options w model decision response) t =
        (.ok (), { t with captured := t.captured ++ [event] })) ∧
    (¬ (WellFormed options ∧ (∃ total, w.extractTotalTokens response = .ok total) ∧
        ∃ resolved, w.extractResponseModel response = .ok resolved) →
      ∃ thrown, exec (captureSuccess a options w model decision response) t =
        (.error thrown, t)) := by
  unfold captureSuccess
  cases htotal : w.extractTotalTokens response with
  | error e =>
    -- an extractor of the adapter has thrown
    rw [exec_answer_error]
    exact ⟨fun h => absurd h.2.1.choose_spec (by simp), fun _ => ⟨.foreign e, rfl⟩⟩
  | ok total =>
    rw [exec_answer_ok]
    generalize hinput : inputOf a options w model decision
      { totalTokens := total, httpStatus := some (.finite 200) } = input
    have hname : isBlank input.provider = false := hinput ▸ hprovider
    have hiff : Capturable input ↔ WellFormed options :=
      hinput ▸ capturable_inputOf_iff model decision _
    have hpresent : ∀ default, coalesce input.environment default = input.environment :=
      hinput ▸ coalesce_inputOf model decision _
    -- the event is built before the model is asked for, and either may throw
    rcases buildInternalEvent_cases (ε := ε) hname hpresent with hbuild | ⟨message, hbuild⟩
    · rw [hbuild, exec_answer_ok]
      cases hresolved : w.extractResponseModel response with
      | error e =>
        rw [exec_answer_error]
        exact ⟨fun h => absurd h.2.2.choose_spec (by simp), fun _ => ⟨.foreign e, rfl⟩⟩
      | ok resolved =>
        rw [exec_answer_ok]
        -- built, but the payload is refused unless the options are well formed
        by_cases hwell : WellFormed options
        · have hnormal : (normalizeEventPayload { input with resolvedModel := resolved } :
              Except (Thrown ε) EventPayload) = .ok { input with resolvedModel := resolved } :=
            normalizeEventPayload_ok hname (hiff.mpr hwell)
          exact ⟨fun _ => ⟨_, exec_capture_ok hnormal t⟩,
            fun h => (h ⟨hwell, ⟨total, rfl⟩, ⟨resolved, rfl⟩⟩).elim⟩
        · have hnot : ¬ Capturable { input with resolvedModel := resolved } :=
            fun h => hwell (hiff.mp h)
          have hresolvedName : isBlank { input with resolvedModel := resolved }.provider = false :=
            hname
          obtain ⟨message, hnormal⟩ := normalizeEventPayload_error (ε := ε) hresolvedName hnot
          exact ⟨fun h => absurd h.1 hwell, fun _ => ⟨_, exec_capture_error hnormal t⟩⟩
    · have hwell : ¬ WellFormed options := by
        intro hwell
        have hok := buildInternalEvent_ok (ε := ε) hname (hiff.mpr hwell)
        rw [hbuild] at hok
        exact absurd hok (by simp)
      rw [hbuild, exec_answer_error]
      exact ⟨fun h => absurd h.1 hwell, fun _ => ⟨_, rfl⟩⟩

/-- The event of an error is captured, or something is thrown instead: what a read throws, or an
error of the SDK. -/
theorem exec_captureFailure (hprovider : isBlank a.provider = false) (error : Thrown ε) :
    match w.extractError error with
    | .error e => exec (captureFailure a options w model decision error) t = (.error (.foreign e), t)
    | .ok _ =>
      (WellFormed options → ∃ event, exec (captureFailure a options w model decision error) t =
        (.ok (), { t with captured := t.captured ++ [event] })) ∧
      (¬ WellFormed options → ∃ message, exec (captureFailure a options w model decision error) t =
        (.error (.validation message), t)) := by
  unfold captureFailure
  cases herror : w.extractError error with
  | error e => exact exec_answer_error _ _ _ _
  | ok response =>
    dsimp only
    rw [exec_answer_ok]
    generalize hinput : inputOf a options w model decision response = input
    have hname : isBlank input.provider = false := hinput ▸ hprovider
    have hiff : Capturable input ↔ WellFormed options :=
      hinput ▸ capturable_inputOf_iff model decision _
    have hpresent : ∀ default, coalesce input.environment default = input.environment :=
      hinput ▸ coalesce_inputOf model decision _
    rcases buildInternalEvent_cases (ε := ε) hname hpresent with hbuild | ⟨message, hbuild⟩
    · rw [hbuild, exec_answer_ok]
      by_cases hwell : WellFormed options
      · have hnormal := normalizeEventPayload_ok (ε := ε) hname (hiff.mpr hwell)
        exact ⟨fun _ => ⟨_, exec_capture_ok hnormal t⟩, fun h => absurd hwell h⟩
      · have hnot : ¬ Capturable input := fun h => hwell (hiff.mp h)
        obtain ⟨message, hnormal⟩ := normalizeEventPayload_error (ε := ε) hname hnot
        exact ⟨fun h => absurd h hwell, fun _ => ⟨message, exec_capture_error hnormal t⟩⟩
    · have hwell : ¬ WellFormed options := by
        intro hwell
        have hok := buildInternalEvent_ok (ε := ε) hname (hiff.mpr hwell)
        rw [hbuild] at hok
        exact absurd hok (by simp)
      rw [hbuild, exec_answer_error]
      exact ⟨fun h => absurd h hwell, fun _ => ⟨message, rfl⟩⟩

end Steps

section Wrapped

variable {a : Adapter} {options : Options} {w : World ε ρ} {c : Call}

/-- A wrapped call of which the provider has been asked. -/
def attempted (a : Adapter) (options : Options) (w : World ε ρ) (c : Call) :
    Except (Thrown ε) ρ × Trace :=
  let (callArgs, decision) := applyClamp a.limitKeys c w.decision
  exec (handle (fun _ => true)
    (do
      let response ← originalCreate w callArgs
      captureSuccess a options w (extractRequestedModel c) decision response
      pure response)
    fun error => do
      captureFailure a options w (extractRequestedModel c) decision error
      throw error) {}

theorem exec_wrappedCreate (ha : a.provider ∈ supportedProviders)
    (hdecision : w.decision.decision ≠ .block) :
    exec (wrappedCreate a options w c) {} =
      if isBlank ((extractRequestedModel c).getD "") then
        (.error (.validation
          s!"RHEONIC: model must be explicitly provided for provider {a.provider}."), {})
      else attempted a options w c := by
  unfold wrappedCreate validateProviderModel attempted
  dsimp only
  rw [if_neg (not_not.mpr ha), if_neg hdecision]
  split
  · exact exec_bind_error _ (exec_throw _ _)
  · exact exec_bind_ok _ (exec_pure _ _)

theorem exec_bind_throw {α : Type} (body : Effect (Thrown ε) Trace Unit) (thrown : Thrown ε)
    (t : Trace) : ∃ e t', exec (do body; throw thrown : Effect (Thrown ε) Trace α) t =
      (.error e, t') := by
  cases hbody : exec body t with
  | mk result t' =>
    cases result with
    | ok _ => exact ⟨thrown, t', exec_bind_ok _ hbody⟩
    | error e => exact ⟨e, t', exec_bind_error _ hbody⟩

theorem attempted_transparent_iff (ha : isBlank a.provider = false) :
    Transparent (applyClamp a.limitKeys c w.decision).1 w.provider (attempted a options w c) ↔
      Quiet options w := by
  unfold attempted Quiet
  dsimp only
  generalize (applyClamp a.limitKeys c w.decision).1 = callArgs
  generalize (applyClamp a.limitKeys c w.decision).2 = decision
  cases hprovider : w.provider with
  | ok response =>
    have hcall : exec (originalCreate w callArgs) {} = (.ok response, { calls := [callArgs] }) := by
      unfold originalCreate
      rw [hprovider]
      rfl
    have hsuccess := exec_captureSuccess a options w (extractRequestedModel c) decision
      { calls := [callArgs] } ha response
    by_cases hquiet : WellFormed options ∧ (∃ total, w.extractTotalTokens response = .ok total) ∧
        ∃ resolved, w.extractResponseModel response = .ok resolved
    · obtain ⟨event, hevent⟩ := hsuccess.1 hquiet
      refine iff_of_true ?_ hquiet
      rw [exec_handle_ok ((exec_bind_ok _ hcall).trans (exec_bind_ok _ hevent))]
      exact ⟨rfl, rfl, le_rfl⟩
    · -- what is thrown here is taken for an error of the provider
      obtain ⟨thrown, hthrown⟩ := hsuccess.2 hquiet
      refine iff_of_false ?_ hquiet
      rw [exec_handle_caught ((exec_bind_ok _ hcall).trans (exec_bind_error _ hthrown)) rfl]
      obtain ⟨e, t', herror⟩ := exec_bind_throw
        (captureFailure a options w (extractRequestedModel c) decision thrown) thrown
        { calls := [callArgs] }
      rw [herror]
      intro htransparent
      have hseen : Except.error e = Except.ok response := htransparent.seen
      exact absurd hseen (by simp)
  -- the provider has thrown, and its own error is to reach the caller
  | error e =>
    have hcall : exec (originalCreate w callArgs) {} =
        (.error (.foreign e), { calls := [callArgs] }) := by
      unfold originalCreate
      rw [hprovider]
      rfl
    rw [exec_handle_caught (exec_bind_error _ hcall) rfl]
    have hfailure := exec_captureFailure a options w (extractRequestedModel c) decision
      { calls := [callArgs] } ha (.foreign e)
    dsimp only
    cases hread : w.extractError (.foreign e) with
    -- reading the error throws in its turn
    | error e' =>
      rw [hread] at hfailure
      rw [exec_bind_error _ hfailure]
      constructor
      · intro htransparent
        have hseen : (Except.error (Thrown.foreign e') : Except _ ρ) = .error (.foreign e) :=
          htransparent.seen
        exact .inl (congrArg _ (Thrown.foreign.inj (Except.error.inj hseen)))
      · intro hquiet
        rcases hquiet with hsame | ⟨-, response, hresponse⟩
        · rw [Except.error.inj hsame]
          exact ⟨rfl, rfl, Nat.zero_le _⟩
        · exact absurd hresponse (by simp)
    | ok response =>
      rw [hread] at hfailure
      by_cases hwell : WellFormed options
      · obtain ⟨event, hevent⟩ := hfailure.1 hwell
        rw [exec_bind_ok _ hevent]
        exact iff_of_true ⟨rfl, rfl, le_rfl⟩ (.inr ⟨hwell, response, rfl⟩)
      · obtain ⟨message, hmessage⟩ := hfailure.2 hwell
        rw [exec_bind_error _ hmessage]
        refine iff_of_false ?_ ?_
        · intro htransparent
          have hseen : (Except.error (Thrown.validation message) : Except _ ρ) =
              .error (.foreign e) := htransparent.seen
          exact absurd hseen (by simp)
        · intro hquiet
          rcases hquiet with hsame | ⟨hyes, -⟩
          · exact absurd hsame (by simp)
          · exact hwell hyes

/-- A wrapped call that is not blocked is transparent exactly if it names a model and the telemetry
of its outcome is quiet. -/
theorem instrumentation_transparent_iff (ha : a ∈ [openai, anthropic])
    (hdecision : w.decision.decision ≠ .block) :
    Transparent (applyClamp a.limitKeys c w.decision).1 w.provider
        (exec (wrappedCreate a options w c) {}) ↔
      isBlank ((extractRequestedModel c).getD "") = false ∧ Quiet options w := by
  have hnames : a.provider ∈ supportedProviders ∧ isBlank a.provider = false := by
    simp only [List.mem_cons, List.not_mem_nil, or_false] at ha
    rcases ha with rfl | rfl
    · decide +kernel
    · decide +kernel
  rw [exec_wrappedCreate hnames.1 hdecision]
  by_cases hblank : isBlank ((extractRequestedModel c).getD "") = true
  · rw [if_pos hblank, hblank]
    refine iff_of_false ?_ fun h => absurd h.1 (by decide)
    intro htransparent
    exact absurd htransparent.called (by simp)
  · rw [if_neg hblank, attempted_transparent_iff hnames.2]
    exact ⟨fun h => ⟨Bool.not_eq_true _ ▸ hblank, h⟩, fun h => h.2⟩

end Wrapped

def sampleWorld : World String String where
  estimate := some (.finite 12)
  decision := { decision := .allow, reason := "ok" }
  provider := .ok "text"
  extractTotalTokens := fun _ => .ok (some (.finite 30))
  extractResponseModel := fun _ => .ok none
  extractError := fun _ => .ok {}

def sampleCreate : Call where
  heap := [⟨.object, [("model", .string "gpt-4o")]⟩]
  args := [.ref 0]

theorem instrumentation_transparent_iff_sample :
    (exec (wrappedCreate openai { clientEnvironment := "prod" } sampleWorld sampleCreate) {}).1 =
      .ok "text" := by
  have hquiet : Quiet { clientEnvironment := "prod" } sampleWorld :=
    ⟨⟨⟨"prod", rfl, by decide +kernel⟩, trivial, trivial⟩, ⟨_, rfl⟩, ⟨_, rfl⟩⟩
  exact ((instrumentation_transparent_iff (by decide) (by decide)).mpr
    ⟨by decide +kernel, hquiet⟩).seen

/-- With an empty environment variable a successful call fails. -/
theorem blank_environment_shows :
    clientEnvironment none [some "", none] = "" ∧
      (exec (wrappedCreate openai { clientEnvironment := "" } sampleWorld sampleCreate) {}) =
        (.error (.validation "RHEONIC: event.environment must be a non-empty string."),
          { calls := [sampleCreate], captured := [] }) := by
  decide +kernel

end Rheonic.Providers.Node
