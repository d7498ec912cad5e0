import Rheonic.EventBuilder
import Rheonic.NodeWrappers

namespace Rheonic.EventBuilder

namespace Node
open Providers.Node (JsValue isBlank isWhiteSpace)

/-- A property of an input; an object is one that is not an array. -/
inductive Entry
  | item (v : JsValue)
  | object (fields : Fields JsValue)
  deriving DecidableEq, Repr

abbrev Event := Fields Entry

/-- `record.key`, which is undefined without such a property. -/
def read (record : Event) (key : String) : Entry := (record.get key).getD (.item .undefined)

/-- `value ?? default`. -/
def coalesce (value default : Entry) : Entry :=
  if value = .item .undefined ∨ value = .item .null then default else value

/-- `typeof value === "string" && value.trim().length !== 0`. -/
def isNonEmptyString : Entry → Bool
  | .item (.string s) => !isBlank s
  | _ => false

def requireNonEmptyString (value : Entry) (label : String) : Option String :=
  if isNonEmptyString value then none else some s!"RHEONIC: {label} must be a non-empty string."

def assertOptionalString (value : Entry) (label : String) : Option String :=
  match value with
  | .item .undefined | .item .null | .item (.string _) => none
  | _ => some s!"RHEONIC: {label} must be a string."

def assertOptionalNumber (value : Entry) (label : String) : Option String :=
  match value with
  | .item .undefined | .item .null | .item (.number _) => none
  | _ => some s!"RHEONIC: {label} must be a number."

/-- The first property outside the allowed ones. -/
def assertNoExtraKeys {ν : Type} (record : Fields ν) (allowedKeys : List String) (label : String) :
    Option String :=
  ((record.map Prod.fst).find? (· ∉ allowedKeys)).map fun key =>
    s!"RHEONIC: unexpected {label} property: {key}"

def publicEventKeys : List String :=
  ["provider", "model", "environment", "ts", "status", "request", "response"]

def internalEventKeys : List String :=
  ["provider", "requested_model", "resolved_model", "environment", "ts", "status", "request",
    "response"]

def requestKeys : List String :=
  ["endpoint", "feature", "request_fingerprint", "input_tokens", "input_tokens_estimate",
    "token_explosion_tokens", "max_output_tokens", "protect_decision", "protect_reason"]

def responseKeys : List String :=
  ["http_status", "latency_ms", "output_tokens", "total_tokens", "error_type", "error_message"]

/-- An object whose properties are checked under its label. -/
def validateShape (allowedKeys : List String) (label : String)
    (checks : List ((Entry → String → Option String) × String)) (value : Entry) : Option String :=
  match value with
  | .item _ => some s!"RHEONIC: {label} must be an object."
  | .object record =>
    let value (key : String) : Entry := .item ((record.get key).getD .undefined)
    firstError (assertNoExtraKeys record allowedKeys label ::
      checks.map fun (check, key) => check (value key) s!"{label}.{key}")

def validateRequestShape : Entry → Option String :=
  validateShape requestKeys "event.request"
    [(assertOptionalString, "endpoint"), (assertOptionalString, "feature"),
      (assertOptionalString, "request_fingerprint"), (assertOptionalNumber, "input_tokens"),
      (assertOptionalNumber, "input_tokens_estimate"),
      (assertOptionalNumber, "token_explosion_tokens"),
      (assertOptionalNumber, "max_output_tokens"), (assertOptionalString, "protect_decision"),
      (assertOptionalString, "protect_reason")]

def validateResponseShape : Entry → Option String :=
  validateShape responseKeys "event.response"
    [(assertOptionalNumber, "http_status"), (assertOptionalNumber, "latency_ms"),
      (assertOptionalNumber, "output_tokens"), (assertOptionalNumber, "total_tokens"),
      (assertOptionalString, "error_type"), (assertOptionalString, "error_message")]

/-- A part that an input may leave out; null is not left out. -/
def validateIfDefined (validate : Entry → Option String) (value : Entry) : Option String :=
  if value = .item .undefined then none else validate value

/-- The body of both input checks, which differ in the keys. An input that is not a plain object is
none. -/
def validateInput (allowedKeys modelKeys : List String) : Option Event → Option String
  | none => some "RHEONIC: event must be an object."
  | some record =>
    firstError ([assertNoExtraKeys record allowedKeys "event",
        requireNonEmptyString (read record "provider") "event.provider"] ++
      (modelKeys.map fun key => assertOptionalString (read record key) s!"event.{key}") ++
      [assertOptionalString (read record "environment") "event.environment",
        assertOptionalString (read record "ts") "event.ts",
        assertOptionalString (read record "status") "event.status",
        validateIfDefined validateRequestShape (read record "request"),
        validateIfDefined validateResponseShape (read record "response")])

def validateBuildEventInput : Option Event → Option String :=
  validateInput publicEventKeys ["model"]

def validateInternalEventInput : Option Event → Option String :=
  validateInput internalEventKeys ["requested_model", "resolved_model"]

def missingKey (record : Event) : Option String :=
  ["ts", "provider", "requested_model", "resolved_model", "environment", "request",
    "response"].find? fun key => (record.get key).isNone

def validateEventPayload : Option Event → Option String
  | none => some "RHEONIC: event must be an object."
  | some record =>
    firstError
      [assertNoExtraKeys record internalEventKeys "event",
        (missingKey record).map fun key => s!"RHEONIC: event.{key} is required.",
        requireNonEmptyString (read record "ts") "event.ts",
        requireNonEmptyString (read record "provider") "event.provider",
        requireNonEmptyString (read record "environment") "event.environment",
        assertOptionalString (read record "requested_model") "event.requested_model",
        assertOptionalString (read record "resolved_model") "event.resolved_model",
        assertOptionalString (read record "status") "event.status",
        validateRequestShape (read record "request"),
        validateResponseShape (read record "response")]

/-- The event of an input that has passed its check. -/
def eventOf (now : UtcTime) (input : Event) : Event :=
  let status : Event :=
    if read input "status" = .item .undefined then [] else [("status", read input "status")]
  [("ts", coalesce (read input "ts") (.item (.string now.toISOString))),
    ("provider", read input "provider"),
    ("requested_model", coalesce (read input "requested_model") (.item .null)),
    ("resolved_model", coalesce (read input "resolved_model") (.item .null)),
    ("environment", coalesce (read input "environment") (.item (.string "dev")))] ++ status ++
    [("request", coalesce (read input "request") (.object [])),
      ("response", coalesce (read input "response") (.object []))]

def buildInternalEvent (now : UtcTime) (input : Option Event) : Except String Event :=
  match validateInternalEventInput input with
  | some error => .error error
  | none => .ok (eventOf now (input.getD []))

/-- The input of the internal builder that the public one makes of its own. -/
def internalInput (input : Event) : Event :=
  [("provider", read input "provider"),
    ("requested_model", coalesce (read input "model") (.item .null)),
    ("resolved_model", .item .null), ("environment", read input "environment"),
    ("ts", read input "ts"), ("status", read input "status"), ("request", read input "request"),
    ("response", read input "response")]

def buildEvent (now : UtcTime) (input : Option Event) : Except String Event :=
  match validateBuildEventInput input with
  | some error => .error error
  | none => buildInternalEvent now (some (internalInput (input.getD [])))

def isInternal (record : Event) : Bool :=
  (record.get "requested_model").isSome || (record.get "resolved_model").isSome

/-- An event with a model of either kind is checked and returned as it is. -/
def normalizeEventPayload (now : UtcTime) : Option Event → Except String Event
  | none => .error "RHEONIC: event must be an object."
  | some record =>
    if isInternal record then
      match validateEventPayload (some record) with
      | some error => .error error
      | none => .ok record
    else buildEvent now (some record)

section Checks

variable {now later : UtcTime} {value default : Entry} {label : String} {input event : Event}

theorem requireNonEmptyString_eq_none :
    requireNonEmptyString value label = none ↔ isNonEmptyString value = true := by
  unfold requireNonEmptyString
  by_cases hvalue : isNonEmptyString value = true
  · simp [hvalue]
  · simp [hvalue]

def OptionalString (value : Entry) : Prop :=
  value = .item .undefined ∨ value = .item .null ∨ ∃ s, value = .item (.string s)

theorem assertOptionalString_eq_none :
    assertOptionalString value label = none ↔ OptionalString value := by
  unfold assertOptionalString OptionalString
  split
  · simp
  · simp
  · simp
  · rename_i hundefined hnull hstring
    refine iff_of_false (Option.some_ne_none _) ?_
    rintro (h | h | ⟨s, h⟩)
    · exact hundefined h
    · exact hnull h
    · exact hstring s h

theorem assertNoExtraKeys_eq_none {ν : Type} {record : Fields ν} {allowedKeys : List String} :
    assertNoExtraKeys record allowedKeys label = none ↔ ∀ field ∈ record, field.1 ∈ allowedKeys := by
  rw [assertNoExtraKeys, Option.map_eq_none_iff, List.find?_eq_none]
  simp only [List.mem_map, decide_eq_true_eq, not_not, forall_exists_index, and_imp,
    forall_apply_eq_imp_iff₂]

theorem coalesce_of_ne (hundefined : value ≠ .item .undefined) (hnull : value ≠ .item .null) :
    coalesce value default = value :=
  if_neg fun h => h.elim hundefined hnull

/-- A string that is blank, which is not nullish. -/
def isBlankString : Entry → Bool
  | .item (.string s) => isBlank s
  | _ => false

theorem isNonEmptyString_coalesce (hvalue : OptionalString value)
    (hdefault : isNonEmptyString default = true) :
    isNonEmptyString (coalesce value default) = true ↔ isBlankString value = false := by
  rcases hvalue with rfl | rfl | ⟨s, rfl⟩
  · exact iff_of_true hdefault rfl
  · exact iff_of_true hdefault rfl
  · rw [coalesce_of_ne (by simp) (by simp), isNonEmptyString, Bool.not_eq_true', isBlankString]

theorem optionalString_coalesce (hvalue : OptionalString value) :
    OptionalString (coalesce value (.item .null)) := by
  rcases hvalue with rfl | rfl | ⟨s, rfl⟩
  · exact .inr (.inl rfl)
  · exact .inr (.inl rfl)
  · rw [coalesce_of_ne (by simp) (by simp)]
    exact .inr (.inr ⟨s, rfl⟩)

theorem isNonEmptyString_toISOString (now : UtcTime) :
    isNonEmptyString (.item (.string now.toISOString)) = true := by
  rw [isNonEmptyString, Bool.not_eq_true', isBlank, Bool.eq_false_iff, Ne, List.isEmpty_iff,
    Trim.trim_eq_nil]
  intro h
  exact absurd (h 'T' now.mem_toISOString) (by decide)

theorem validateShape_coalesce {allowedKeys : List String}
    {checks : List ((Entry → String → Option String) × String)}
    (hempty : validateShape allowedKeys label checks (.object []) = none)
    (h : validateIfDefined (validateShape allowedKeys label checks) value = none) :
    validateShape allowedKeys label checks (coalesce value (.object [])) = none := by
  unfold validateIfDefined at h
  by_cases hundefined : value = .item .undefined
  · rw [hundefined]
    exact hempty
  · rw [if_neg hundefined] at h
    have hnull : value ≠ .item .null := by
      rintro rfl
      exact absurd h (Option.some_ne_none _)
    rw [coalesce_of_ne hundefined hnull]
    exact h

theorem read_eventOf (now : UtcTime) (input : Event) :
    read (eventOf now input) "ts" =
      coalesce (read input "ts") (.item (.string now.toISOString)) ∧
    read (eventOf now input) "provider" = read input "provider" ∧
    read (eventOf now input) "requested_model" =
      coalesce (read input "requested_model") (.item .null) ∧
    read (eventOf now input) "resolved_model" =
      coalesce (read input "resolved_model") (.item .null) ∧
    read (eventOf now input) "environment" =
      coalesce (read input "environment") (.item (.string "dev")) ∧
    read (eventOf now input) "status" = read input "status" ∧
    read (eventOf now input) "request" = coalesce (read input "request") (.object []) ∧
    read (eventOf now input) "response" = coalesce (read input "response") (.object []) := by
  unfold eventOf
  by_cases hstatus : read input "status" = .item .undefined
  · rw [if_pos hstatus, hstatus]
    exact ⟨rfl, rfl, rfl, rfl, rfl, rfl, rfl, rfl⟩
  · rw [if_neg hstatus]
    exact ⟨rfl, rfl, rfl, rfl, rfl, rfl, rfl, rfl⟩

theorem keys_eventOf (now : UtcTime) (input : Event) :
    isInternal (eventOf now input) = true ∧ missingKey (eventOf now input) = none ∧
    assertNoExtraKeys (eventOf now input) internalEventKeys "event" = none := by
  unfold eventOf
  rw [assertNoExtraKeys_eq_none]
  by_cases hstatus : read input "status" = .item .undefined
  · rw [if_pos hstatus]
    refine ⟨rfl, rfl, ?_⟩
    simp [internalEventKeys]
  · rw [if_neg hstatus]
    refine ⟨rfl, rfl, ?_⟩
    simp [internalEventKeys]

/-- What the internal builder accepts. -/
structure Accepted (input : Event) : Prop where
  provider : isNonEmptyString (read input "provider") = true
  requestedModel : OptionalString (read input "requested_model")
  resolvedModel : OptionalString (read input "resolved_model")
  environment : OptionalString (read input "environment")
  ts : OptionalString (read input "ts")
  status : OptionalString (read input "status")
  request : validateIfDefined validateRequestShape (read input "request") = none
  response : validateIfDefined validateResponseShape (read input "response") = none

theorem accepted_of_valid (h : validateInternalEventInput (some input) = none) : Accepted input := by
  unfold validateInternalEventInput validateInput at h
  rw [firstError_eq_none] at h
  simp only [List.map_cons, List.map_nil, List.cons_append, List.nil_append, List.mem_cons,
    List.not_mem_nil, or_false, forall_eq_or_imp, forall_eq, requireNonEmptyString_eq_none,
    assertOptionalString_eq_none] at h
  obtain ⟨-, hprovider, hrequested, hresolved, henvironment, hts, hstatus, hrequest, hresponse⟩ := h
  exact ⟨hprovider, hrequested, hresolved, henvironment, hts, hstatus, hrequest, hresponse⟩

theorem validateEventPayload_eventOf (now : UtcTime) (h : Accepted input) :
    validateEventPayload (some (eventOf now input)) = none ↔
      isBlankString (read input "environment") = false ∧ isBlankString (read input "ts") = false := by
  obtain ⟨hreadTs, hreadProvider, hreadRequested, hreadResolved, hreadEnvironment, hreadStatus,
    hreadRequest, hreadResponse⟩ := read_eventOf now input
  obtain ⟨-, hmissing, hkeys⟩ := keys_eventOf now input
  unfold validateEventPayload
  dsimp only
  rw [hreadTs, hreadProvider, hreadRequested, hreadResolved, hreadEnvironment, hreadStatus,
    hreadRequest, hreadResponse, hmissing, hkeys, Option.map_none, firstError_eq_none]
  have hrequest : validateRequestShape (coalesce (read input "request") (.object [])) = none :=
    validateShape_coalesce rfl h.request
  have hresponse : validateResponseShape (coalesce (read input "response") (.object [])) = none :=
    validateShape_coalesce rfl h.response
  have hts := isNonEmptyString_coalesce h.ts (isNonEmptyString_toISOString now)
  have henvironment : isNonEmptyString
      (coalesce (read input "environment") (.item (.string "dev"))) = true ↔
        isBlankString (read input "environment") = false :=
    isNonEmptyString_coalesce h.environment (by decide +kernel)
  simp only [List.mem_cons, List.not_mem_nil, or_false, forall_eq_or_imp, forall_eq,
    requireNonEmptyString_eq_none, assertOptionalString_eq_none, hrequest, hresponse, hts,
    henvironment, h.provider, optionalString_coalesce h.requestedModel,
    optionalString_coalesce h.resolvedModel, h.status, true_and, and_true]
  exact and_comm

end Checks

/-- The calls that give an event. -/
inductive Call
  | buildEvent (input : Option Event)
  | buildInternalEvent (input : Option Event)
  | normalizeEventPayload (input : Option Event)

def Call.run (now : UtcTime) : Call → Except String Event
  | .buildEvent input => Node.buildEvent now input
  | .buildInternalEvent input => Node.buildInternalEvent now input
  | .normalizeEventPayload input => Node.normalizeEventPayload now input

/-- Neither the environment nor the time of an input is a blank string. -/
def hasNoBlankString (input : Option Event) : Bool :=
  !isBlankString (read (input.getD []) "environment") && !isBlankString (read (input.getD []) "ts")

def Call.keepsEvent : Call → Bool
  | .buildEvent input => hasNoBlankString input
  | .buildInternalEvent input => hasNoBlankString input
  -- An internal event is returned as it is; any other goes to the builder.
  | .normalizeEventPayload input => isInternal (input.getD []) || hasNoBlankString input

section Survival

variable {now later : UtcTime} {event : Event} {input : Option Event}

theorem normalizeEventPayload_internal (hinternal : isInternal event = true) :
    normalizeEventPayload later (some event) = .ok event ↔
      validateEventPayload (some event) = none := by
  unfold normalizeEventPayload
  dsimp only
  rw [if_pos hinternal]
  split
  · rename_i hinvalid
    rw [hinvalid]
    exact iff_of_false (fun h => by cases h) (Option.some_ne_none _)
  · rename_i hvalid
    exact iff_of_true rfl hvalid

theorem buildInternalEvent_survives_iff (h : buildInternalEvent now input = .ok event) :
    (∀ later, normalizeEventPayload later (some event) = .ok event) ↔
      hasNoBlankString input = true := by
  unfold buildInternalEvent at h
  split at h
  · cases h
  · rename_i hvalid
    cases input with
    | none => cases hvalid
    | some input =>
      have hevent : eventOf now input = event := Except.ok.inj h
      have hchecked := validateEventPayload_eventOf now (accepted_of_valid hvalid)
      rw [hevent] at hchecked
      have hinternal : isInternal event = true := hevent ▸ (keys_eventOf now input).1
      rw [hasNoBlankString, Bool.and_eq_true, Bool.not_eq_true', Bool.not_eq_true',
        Option.getD_some, ← hchecked]
      constructor
      · intro hall
        exact (normalizeEventPayload_internal hinternal).mp (hall now)
      · intro hnone later
        exact (normalizeEventPayload_internal hinternal).mpr hnone

theorem buildEvent_survives_iff (h : buildEvent now input = .ok event) :
    (∀ later, normalizeEventPayload later (some event) = .ok event) ↔
      hasNoBlankString input = true := by
  unfold buildEvent at h
  split at h
  · cases h
  · have hinput : hasNoBlankString (some (internalInput (input.getD []))) =
        hasNoBlankString input := rfl
    rw [buildInternalEvent_survives_iff h, hinput]

theorem survives_iff {call : Call} (h : call.run now = .ok event) :
    (∀ later, normalizeEventPayload later (some event) = .ok event) ↔ call.keepsEvent = true := by
  cases call with
  | buildEvent input => exact buildEvent_survives_iff h
  | buildInternalEvent input => exact buildInternalEvent_survives_iff h
  | normalizeEventPayload input =>
    cases input with
    | none => cases h
    | some record =>
      unfold Call.run normalizeEventPayload at h
      unfold Call.keepsEvent
      dsimp only [Option.getD_some] at h ⊢
      by_cases hinternal : isInternal record = true
      · rw [if_pos hinternal] at h
        split at h
        · cases h
        · rename_i hvalid
          have hrecord : record = event := Except.ok.inj h
          rw [hinternal, Bool.true_or, ← hrecord]
          exact iff_of_true (fun later => (normalizeEventPayload_internal hinternal).mpr hvalid) rfl
      · rw [if_neg hinternal] at h
        rw [buildEvent_survives_iff h, Bool.eq_false_of_not_eq_true hinternal, Bool.false_or]

end Survival

end Node

/-- In both SDKs an event that a call has given is normalized to itself, now and later, exactly if
the call leaves no blank environment or time in it. -/
theorem survives_normalization_iff (now : UtcTime) :
    (∀ (call : Python.Call) (event : Python.Event), call.run now = .ok event →
      ((∀ later, Python.normalizeEventPayload later (some event) = .ok event) ↔
        call.keepsEvent = true)) ∧
    ∀ (call : Node.Call) (event : Node.Event), call.run now = .ok event →
      ((∀ later, Node.normalizeEventPayload later (some event) = .ok event) ↔
        call.keepsEvent = true) :=
  ⟨fun _ _ => Python.survives_iff, fun _ _ => Node.survives_iff⟩

theorem openai_event_survives :
    (∀ later, Python.normalizeEventPayload later
        (some (Python.eventOf ⟨2026, 1, 1, 12, 0, 0, 0⟩ (.item .none) (.item .none)
          { provider := .item (.str "openai") } [] [])) =
      .ok (Python.eventOf ⟨2026, 1, 1, 12, 0, 0, 0⟩ (.item .none) (.item .none)
        { provider := .item (.str "openai") } [] [])) ∧
    ∀ later, Node.normalizeEventPayload later
        (some (Node.eventOf ⟨2026, 1, 1, 12, 0, 0, 0⟩ [("provider", .item (.string "openai"))])) =
      .ok (Node.eventOf ⟨2026, 1, 1, 12, 0, 0, 0⟩ [("provider", .item (.string "openai"))]) :=
  ⟨((survives_normalization_iff ⟨2026, 1, 1, 12, 0, 0, 0⟩).1
      (.buildEvent { provider := .item (.str "openai") } (.item .none)) _ rfl).mpr rfl,
    ((survives_normalization_iff ⟨2026, 1, 1, 12, 0, 0, 0⟩).2
      (.buildInternalEvent (some [("provider", .item (.string "openai"))])) _ rfl).mpr rfl⟩

/-- An empty environment passes both builders and neither normalizer; a public payload with a blank
time is normalized once and not again. -/
theorem blank_strings_do_not_survive :
    (∃ event, Python.buildEvent ⟨2026, 1, 1, 12, 0, 0, 0⟩
        { provider := .item (.str "openai"), environment := .item (.str "") } = .ok event ∧
      Python.normalizeEventPayload ⟨2026, 1, 1, 12, 0, 0, 0⟩ (some event) =
        .error "RHEONIC: event.environment must be a non-empty string.") ∧
    (∃ event, Python.normalizeEventPayload ⟨2026, 1, 1, 12, 0, 0, 0⟩
        (some [("provider", .item (.str "openai")), ("ts", .item (.str " "))]) = .ok event ∧
      Python.normalizeEventPayload ⟨2026, 1, 1, 12, 0, 0, 0⟩ (some event) =
        .error "RHEONIC: event.ts must be a non-empty string.") ∧
    (∃ event, Node.buildEvent ⟨2026, 1, 1, 12, 0, 0, 0⟩
        (some [("provider", .item (.string "openai")), ("environment", .item (.string ""))]) =
        .ok event ∧
      Node.normalizeEventPayload ⟨2026, 1, 1, 12, 0, 0, 0⟩ (some event) =
        .error "RHEONIC: event.environment must be a non-empty string.") ∧
    ∃ event, Node.normalizeEventPayload ⟨2026, 1, 1, 12, 0, 0, 0⟩
        (some [("provider", .item (.string "openai")), ("ts", .item (.string " "))]) = .ok event ∧
      Node.normalizeEventPayload ⟨2026, 1, 1, 12, 0, 0, 0⟩ (some event) =
        .error "RHEONIC: event.ts must be a non-empty string." :=
  ⟨⟨_, rfl, rfl⟩, ⟨_, rfl, rfl⟩, ⟨_, rfl, rfl⟩, ⟨_, rfl, rfl⟩⟩

end Rheonic.EventBuilder
