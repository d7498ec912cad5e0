import Rheonic.PythonGoogle
import Rheonic.Lib.Effect

namespace Rheonic.Providers.Python
open ProtectEngine PyText Effect

variable {ε ρ : Type}

/-- What a call can raise: an `Exception`, something that is none (an interrupt, a cancellation), or
the errors of the SDK. -/
inductive Raised (ε : Type)
  | exception (e : ε)
  | interrupt (e : ε)
  | blocked (reason : String)
  | validation (message : String)
  deriving DecidableEq, Repr

/-- Caught by `except Exception`. -/
def Raised.isException : Raised ε → Bool
  | .interrupt _ => false
  | _ => true

/-- The options of an instrumentation, with the environment of its client. -/
structure Options where
  environment : Option String := none
  endpoint : Option String := none
  feature : Option String := none
  clientEnvironment : String := "dev"
  protectFailMode : FailMode := .open
  deriving DecidableEq, Repr

def Options.resolvedEnvironment (options : Options) : String :=
  orElse options.environment options.clientEnvironment

structure PreflightContext where
  provider : String
  requestedModel : Option String
  environment : String
  feature : Option String
  inputTokensEstimate : Option ℤ
  maxOutputTokens : Option ℤ
  deriving DecidableEq, Repr

structure EventResponse where
  resolvedModel : Option String := none
  totalTokens : Option ℤ := none
  errorType : Option String := none
  errorMessage : Option String := none
  httpStatus : Option ℤ := none
  deriving DecidableEq, Repr

structure Event where
  provider : String
  requestedModel : Option String
  environment : String
  endpoint : Option String
  feature : Option String
  inputTokensEstimate : Option ℤ
  protectDecision : Option String
  protectReason : Option String
  response : EventResponse
  deriving DecidableEq, Repr

/-- The outside of one call: what the estimator, the transport of the preflight, the provider and the
reads of its outcome give or raise, and whether the capture of an event puts it into the queue and
what it raises. -/
structure World (ε ρ : Type) where
  estimator : Fields PyValue → Except ε (Option ℤ)
  transport : PreflightContext → Except ε Evaluation
  provider : Except (Raised ε) ρ
  readSuccess : ρ → Except ε EventResponse
  readFailure : Raised ε → Except ε EventResponse
  capture : Event → Bool × Option ε

/-- What a call leaves: the arguments that the provider was called with, and the captured events. -/
structure Trace where
  calls : List Call := []
  captured : List Event := []
  deriving DecidableEq, Repr

/-- The parts in which the adapters differ. -/
structure Adapter where
  provider : String
  extractRequestedModel : Call → Option String
  extractRequestPayload : Option String → Call → Fields PyValue
  extractMaxOutputTokens : Call → Option ℤ
  applyClamp : Call → Evaluation → Call × Evaluation

def asStr : PyValue → Option String
  | .str s => some s
  | _ => none

/-- The model of the keywords, else that of the payload. -/
def extractRequestedModel (c : Call) : Option String :=
  match (c.kwargs.get "model").bind asStr with
  | some model => some model
  | none => c.payload.bind fun payload => (payload.get "model").bind asStr

def extractRequestPayload (c : Call) : Fields PyValue := c.payload.getD c.kwargs

def openai : Adapter where
  provider := "openai"
  extractRequestedModel := extractRequestedModel
  extractRequestPayload := fun _ => extractRequestPayload
  extractMaxOutputTokens := extractMaxOutputTokens openaiLimitKeys
  applyClamp := applyOpenaiClamp

def anthropic : Adapter where
  provider := "anthropic"
  extractRequestedModel := extractRequestedModel
  extractRequestPayload := fun _ => extractRequestPayload
  extractMaxOutputTokens := extractMaxOutputTokens anthropicLimitKeys
  applyClamp := applyAnthropicClamp

/-- A payload for the estimator, with the model if it has none. -/
def withModel (model : Option String) (payload : Fields PyValue) : Fields PyValue :=
  match model with
  | some model =>
    if model ≠ "" ∧ payload.get "model" = none then payload.set "model" (.str model) else payload
  | none => payload

def Google.extractRequestPayload (model : Option String) (c : Call) : Fields PyValue :=
  match c.args.head? with
  | some (.str prompt) => [("model", (model.map PyValue.str).getD .none), ("prompt", .str prompt)]
  | _ => withModel model (c.payload.getD c.kwargs)

/-- The adapter of a Google model, which may carry its name itself. -/
def google (modelName : Option String) : Adapter where
  provider := "google"
  extractRequestedModel := fun c =>
    match modelName with
    | some model => some model
    | none => Python.extractRequestedModel c
  extractRequestPayload := Google.extractRequestPayload
  extractMaxOutputTokens := Google.extractMaxOutputTokens
  applyClamp := Google.applyGoogleClamp

def supportedProviders : List String := ["openai", "anthropic", "google"]

/-- `provider.strip().lower()`. -/
def normalizedProvider (provider : String) : String :=
  String.ofList ((strip provider).toList.map Char.toLower)

section Wrapper

variable (a : Adapter) (options : Options) (w : World ε ρ)

def validateProviderModel (provider : String) (model : Option String) :
    Effect (Raised ε) Trace Unit :=
  if normalizedProvider provider = "" then
    throw (.validation "RHEONIC: provider must be explicitly provided.")
  else if normalizedProvider provider ∉ supportedProviders then
    throw (.validation s!"RHEONIC: unsupported provider: {provider}")
  else if strip (model.getD "") = "" then
    throw (.validation
      s!"RHEONIC: model must be explicitly provided for provider {normalizedProvider provider}.")
  else pure ()

/-- `_estimate_input_tokens`: what the estimator raises is no estimate. -/
def estimateInputTokens (payload : Fields PyValue) : Effect (Raised ε) Trace (Option ℤ) :=
  handle Raised.isException
    (match (payload.get "input_tokens").bind asInt with
      | some explicit => pure (some explicit)
      | none => answer .exception (w.estimator payload))
    fun _ => pure none

/-- The decision of a preflight that failed unexpectedly. -/
def unexpected (failMode : FailMode) : Evaluation :=
  match failMode with
  | .closed => { decision := .block, reason := "fail_closed" }
  | .open => { decision := .allow, reason := "decision_unavailable" }

def preflightProtectDecision (context : PreflightContext) : Effect (Raised ε) Trace Evaluation :=
  handle Raised.isException (answer .exception (w.transport context)) fun _ =>
    pure (unexpected options.protectFailMode)

/-- `build_internal_event` and `capture_event_and_flush`, which may raise after it has queued. -/
def captureEventAndFlush (event : Event) : Effect (Raised ε) Trace Unit := do
  let (queued, raised) := w.capture event
  if queued then modify fun trace => { trace with captured := trace.captured ++ [event] }
  match raised with
  | some e => throw (.exception e)
  | none => pure ()

def eventOf (model : Option String) (estimate : Option ℤ) (decision : Evaluation)
    (response : EventResponse) : Event where
  provider := a.provider
  requestedModel := model
  environment := options.resolvedEnvironment
  endpoint := options.endpoint
  feature := options.feature
  inputTokensEstimate := estimate
  protectDecision := if decision.decision = .clamp then some "clamp" else none
  protectReason := if decision.decision = .allow then none else some (orElse (some decision.reason) "ok")
  response := response

/-- `_capture_success` and `_capture_failure`: whatever is raised is logged. -/
def captureOutcome (model : Option String) (estimate : Option ℤ) (decision : Evaluation)
    (read : Except ε EventResponse) : Effect (Raised ε) Trace Unit :=
  handle Raised.isException
    (do
      let response ← answer .exception read
      captureEventAndFlush w (eventOf a options model estimate decision response))
    fun _ => pure ()

def originalCreate (c : Call) : Effect (Raised ε) Trace ρ := do
  modify fun trace => { trace with calls := trace.calls ++ [c] }
  answer id w.provider

/-- The call of the provider between the preflight and the caller. -/
def invoke (model : Option String) (estimate : Option ℤ) (decision : Evaluation) (c : Call) :
    Effect (Raised ε) Trace ρ :=
  handle Raised.isException
    (do
      let response ← originalCreate w c
      captureOutcome a options w model estimate decision (w.readSuccess response)
      pure response)
    fun exc => do
      captureOutcome a options w model estimate decision (w.readFailure exc)
      throw exc

def contextOf (model : Option String) (estimate : Option ℤ) (c : Call) : PreflightContext where
  provider := a.provider
  requestedModel := model
  environment := options.resolvedEnvironment
  feature := options.feature
  inputTokensEstimate := estimate
  maxOutputTokens := a.extractMaxOutputTokens c

/-- The wrapped method of every adapter. -/
def wrapped (c : Call) : Effect (Raised ε) Trace ρ := do
  let model := a.extractRequestedModel c
  validateProviderModel a.provider model
  let estimate ← estimateInputTokens w (a.extractRequestPayload model c)
  let decision ← preflightProtectDecision options w (contextOf a options model estimate c)
  if decision.decision = .block then throw (.blocked (orElse (some decision.reason) "blocked"))
  else
    let (callArgs, decision) := a.applyClamp c decision
    invoke a options w model estimate decision callArgs

/-- The asynchronous wrapper raises again what it catches around the same steps. -/
def wrappedAsync (c : Call) : Effect (Raised ε) Trace ρ :=
  handle Raised.isException (wrapped a options w c) fun exc => throw exc

end Wrapper

/-- What the caller of a wrapped method sees: a block instead of a call, or the one call's outcome. -/
structure Transparent (decision : Evaluation) (callArgs : Call) (provider : Except (Raised ε) ρ)
    (outcome : Except (Raised ε) ρ × Trace) : Prop where
  blocked : decision.decision = .block →
    outcome = (.error (.blocked (orElse (some decision.reason) "blocked")), {})
  called : decision.decision ≠ .block → outcome.2.calls = [callArgs]
  seen : decision.decision ≠ .block → outcome.1 = provider
  captured : outcome.2.captured.length ≤ 1

section Steps

variable {a : Adapter} {options : Options} {w : World ε ρ}

/-- The estimate in spite of what the estimator raises. -/
def estimateOf (w : World ε ρ) (payload : Fields PyValue) : Option ℤ :=
  match (payload.get "input_tokens").bind asInt with
  | some explicit => some explicit
  | none =>
    match w.estimator payload with
    | .ok estimate => estimate
    | .error _ => none

/-- The decision in spite of what the transport raises. -/
def decisionOf (options : Options) (w : World ε ρ) (context : PreflightContext) : Evaluation :=
  match w.transport context with
  | .ok decision => decision
  | .error _ => unexpected options.protectFailMode

theorem exec_estimateInputTokens (payload : Fields PyValue) (t : Trace) :
    exec (estimateInputTokens w payload) t = (.ok (estimateOf w payload), t) := by
  unfold estimateInputTokens estimateOf
  cases (payload.get "input_tokens").bind asInt with
  | some explicit => exact exec_handle_ok rfl
  | none =>
    dsimp only
    cases w.estimator payload with
    | ok estimate => exact exec_handle_ok rfl
    | error e => exact exec_handle_caught rfl rfl

theorem exec_preflight (context : PreflightContext) (t : Trace) :
    exec (preflightProtectDecision options w context) t =
      (.ok (decisionOf options w context), t) := by
  unfold preflightProtectDecision decisionOf
  cases w.transport context with
  | ok decision => exact exec_handle_ok rfl
  | error e => exact exec_handle_caught rfl rfl

def CapturesOne (t t' : Trace) : Prop :=
  t'.calls = t.calls ∧ t'.captured.length ≤ t.captured.length + 1

/-- A capture gives nothing, or raises an `Exception`. -/
theorem exec_captureEventAndFlush (event : Event) (t : Trace) :
    ∃ t', CapturesOne t t' ∧ (exec (captureEventAndFlush w event) t = (.ok (), t') ∨
      ∃ e, exec (captureEventAndFlush w event) t = (.error (.exception e), t')) := by
  unfold captureEventAndFlush
  obtain ⟨queued, raised⟩ := w.capture event
  have hone : CapturesOne t { t with captured := t.captured ++ [event] } :=
    ⟨rfl, by simp⟩
  cases queued with
  | true =>
    refine ⟨_, hone, ?_⟩
    cases raised with
    | none => exact .inl rfl
    | some e => exact .inr ⟨e, rfl⟩
  | false =>
    refine ⟨t, ⟨rfl, Nat.le_succ _⟩, ?_⟩
    cases raised with
    | none => exact .inl rfl
    | some e => exact .inr ⟨e, rfl⟩

theorem exec_captureOutcome (a : Adapter) (options : Options) (w : World ε ρ)
    (model : Option String) (estimate : Option ℤ) (decision : Evaluation)
    (read : Except ε EventResponse) (t : Trace) :
    ∃ t', exec (captureOutcome a options w model estimate decision read) t = (.ok (), t') ∧
      CapturesOne t t' := by
  unfold captureOutcome
  cases read with
  | error e => exact ⟨t, exec_handle_caught rfl rfl, rfl, Nat.le_succ _⟩
  | ok response =>
    obtain ⟨t', hone, hexec⟩ :=
      exec_captureEventAndFlush (w := w) (eventOf a options model estimate decision response) t
    have hread : exec (answer (σ := Trace) Raised.exception (Except.ok response : Except ε _)) t =
        (.ok response, t) := rfl
    rcases hexec with hexec | ⟨e, hexec⟩
    · exact ⟨t', exec_handle_ok ((exec_bind_ok _ hread).trans hexec), hone⟩
    · exact ⟨t', exec_handle_caught ((exec_bind_ok _ hread).trans hexec) rfl, hone⟩

theorem exec_invoke (a : Adapter) (options : Options) (w : World ε ρ) (model : Option String)
    (estimate : Option ℤ) (decision : Evaluation) (c : Call) (t : Trace) :
    ∃ t', exec (invoke a options w model estimate decision c) t = (w.provider, t') ∧
      t'.calls = t.calls ++ [c] ∧ t'.captured.length ≤ t.captured.length + 1 := by
  unfold invoke
  cases hprovider : w.provider with
  | ok response =>
    have hcall : exec (originalCreate w c) t =
        (.ok response, { t with calls := t.calls ++ [c] }) := by
      unfold originalCreate
      rw [hprovider]
      rfl
    obtain ⟨t', hcapture, hone⟩ := exec_captureOutcome a options w model estimate decision
      (w.readSuccess response) { t with calls := t.calls ++ [c] }
    refine ⟨t', exec_handle_ok ?_, hone.1, hone.2⟩
    rw [exec_bind_ok _ hcall, exec_bind_ok _ hcapture]
    rfl
  | error raised =>
    have hcall : exec (originalCreate w c) t =
        (.error raised, { t with calls := t.calls ++ [c] }) := by
      unfold originalCreate
      rw [hprovider]
      rfl
    cases hcaught : raised.isException with
    | false =>
      exact ⟨_, exec_handle_escaped (exec_bind_error _ hcall) hcaught, rfl, Nat.le_succ _⟩
    | true =>
      obtain ⟨t', hcapture, hone⟩ := exec_captureOutcome a options w model estimate decision
        (w.readFailure raised) { t with calls := t.calls ++ [c] }
      refine ⟨t', (exec_handle_caught (exec_bind_error _ hcall) hcaught).trans ?_, hone.1, hone.2⟩
      rw [exec_bind_ok _ hcapture]
      rfl

theorem exec_validateProviderModel {provider : String} {model : Option String}
    (hprovider : normalizedProvider provider ∈ supportedProviders)
    (hmodel : strip (model.getD "") ≠ "") (t : Trace) :
    exec (validateProviderModel provider model : Effect (Raised ε) Trace Unit) t = (.ok (), t) := by
  unfold validateProviderModel
  have hempty : normalizedProvider provider ≠ "" := by
    intro hempty
    rw [hempty] at hprovider
    exact absurd hprovider (by decide)
  rw [if_neg hempty, if_neg (not_not.mpr hprovider), if_neg hmodel]
  rfl

/-- The decision that a wrapped call gets. -/
def callDecision (a : Adapter) (options : Options) (w : World ε ρ) (c : Call) : Evaluation :=
  let model := a.extractRequestedModel c
  decisionOf options w
    (contextOf a options model (estimateOf w (a.extractRequestPayload model c)) c)

theorem wrapped_transparent (a : Adapter) (options : Options) (w : World ε ρ) (c : Call)
    (hprovider : normalizedProvider a.provider ∈ supportedProviders)
    (hmodel : strip ((a.extractRequestedModel c).getD "") ≠ "") :
    Transparent (callDecision a options w c) (a.applyClamp c (callDecision a options w c)).1
      w.provider (exec (wrapped a options w c) {}) := by
  have hsteps : exec (wrapped a options w c) {} = exec
      (if (callDecision a options w c).decision = .block then
        throw (.blocked (orElse (some (callDecision a options w c).reason) "blocked"))
      else
        let (callArgs, decision) := a.applyClamp c (callDecision a options w c)
        invoke a options w (a.extractRequestedModel c)
          (estimateOf w (a.extractRequestPayload (a.extractRequestedModel c) c)) decision
          callArgs) {} := by
    unfold wrapped
    rw [exec_bind_ok _ (exec_validateProviderModel hprovider hmodel {}),
      exec_bind_ok _ (exec_estimateInputTokens _ _), exec_bind_ok _ (exec_preflight _ _)]
    rfl
  rw [hsteps]
  by_cases hblock : (callDecision a options w c).decision = .block
  · rw [if_pos hblock]
    exact ⟨fun _ => rfl, fun hnot => absurd hblock hnot, fun hnot => absurd hblock hnot,
      Nat.zero_le _⟩
  · rw [if_neg hblock]
    obtain ⟨t', hexec, hcalls, hcaptured⟩ := exec_invoke a options w (a.extractRequestedModel c)
      (estimateOf w (a.extractRequestPayload (a.extractRequestedModel c) c))
      (a.applyClamp c (callDecision a options w c)).2
      (a.applyClamp c (callDecision a options w c)).1 {}
    dsimp only
    rw [hexec]
    exact ⟨fun hyes => absurd hyes hblock, fun _ => hcalls, fun _ => rfl, hcaptured⟩

end Steps

/-- The six wrappers, synchronous and asynchronous, are transparent whatever the estimator, the
transport, the provider and the capture raise. -/
theorem instrumentation_transparent (modelName : Option String) (options : Options) (w : World ε ρ)
    (c : Call) (a : Adapter) (hadapter : a ∈ [openai, anthropic, google modelName])
    (hmodel : strip ((a.extractRequestedModel c).getD "") ≠ "") :
    Transparent (callDecision a options w c) (a.applyClamp c (callDecision a options w c)).1
        w.provider (exec (wrapped a options w c) {}) ∧
      Transparent (callDecision a options w c) (a.applyClamp c (callDecision a options w c)).1
        w.provider (exec (wrappedAsync a options w c) {}) := by
  have hprovider : normalizedProvider a.provider ∈ supportedProviders := by
    have hnames : ∀ provider ∈ supportedProviders,
        normalizedProvider provider ∈ supportedProviders := by decide
    apply hnames
    simp only [List.mem_cons, List.not_mem_nil, or_false] at hadapter
    rcases hadapter with rfl | rfl | rfl
    · exact List.mem_cons_self
    · exact List.mem_cons_of_mem _ List.mem_cons_self
    · exact List.mem_cons_of_mem _ (List.mem_cons_of_mem _ List.mem_cons_self)
  have hsync := wrapped_transparent a options w c hprovider hmodel
  refine ⟨hsync, ?_⟩
  unfold wrappedAsync
  rw [exec_handle_rethrow]
  exact hsync

/-- A world in which everything but the provider fails. -/
def brokenWorld : World String String where
  estimator := fun _ => .error "encoder"
  transport := fun _ => .error "socket"
  provider := .ok "text"
  readSuccess := fun _ => .error "usage"
  readFailure := fun _ => .error "status"
  capture := fun _ => (true, some "queue")

theorem instrumentation_transparent_sample :
    (exec (wrapped anthropic {} brokenWorld { kwargs := [("model", .str "claude")] }) {}).1 =
      .ok "text" := by
  have htransparent := instrumentation_transparent none {} brokenWorld
    { kwargs := [("model", .str "claude")] } anthropic (by simp) (by decide +kernel)
  exact htransparent.1.seen (by decide +kernel)

end Rheonic.Providers.Python
