import Rheonic.Lib.Trim
import Rheonic.PythonAdapters
import Rheonic.Lib.PyText
import Rheonic.Lib.SortedBy

namespace Rheonic.EventBuilder

structure UtcTime where
  year : ℕ
  month : ℕ
  day : ℕ
  hour : ℕ
  minute : ℕ
  second : ℕ
  microsecond : ℕ

def zeroFilled (width n : ℕ) : String := String.ofList (n.repr.toList.leftpad width '0')

namespace UtcTime

variable (t : UtcTime)

def date : String := zeroFilled 4 t.year ++ "-" ++ zeroFilled 2 t.month ++ "-" ++ zeroFilled 2 t.day

def time : String :=
  zeroFilled 2 t.hour ++ ":" ++ zeroFilled 2 t.minute ++ ":" ++ zeroFilled 2 t.second

/-- `datetime.isoformat()`, which leaves out a fraction of zero. -/
def isoformat : String :=
  let fraction := if t.microsecond = 0 then "" else "." ++ zeroFilled 6 t.microsecond
  t.date ++ "T" ++ t.time ++ fraction ++ "+00:00"

/-- `Date.toISOString()`, which counts milliseconds. -/
def toISOString : String :=
  t.date ++ "T" ++ t.time ++ "." ++ zeroFilled 3 (t.microsecond / 1000) ++ "Z"

theorem mem_isoformat : 'T' ∈ t.isoformat.toList := by
  simp [isoformat]

theorem mem_toISOString : 'T' ∈ t.toISOString.toList := by
  simp [toISOString]

end UtcTime

/-- Checks are made in their order; the first that fails says what is raised. -/
def firstError (checks : List (Option String)) : Option String := checks.findSome? id

theorem firstError_eq_none {checks : List (Option String)} :
    firstError checks = none ↔ ∀ check ∈ checks, check = none := by
  rw [firstError, List.findSome?_eq_none_iff]
  rfl

namespace Python
open Providers.Python (PyValue asInt)
open PyText SortedBy

/-- An argument of a builder or an entry of a payload; deeper values are not looked into. -/
inductive Entry
  | item (v : PyValue)
  | dict (fields : Fields PyValue)
  deriving DecidableEq, Repr

abbrev Event := Fields Entry

/-- `mapping.get(key)`. -/
def read (event : Event) (key : String) : Entry := (event.get key).getD (.item .none)

/-- `isinstance(value, str) and value.strip()`. -/
def isNonEmptyString : Entry → Bool
  | .item (.str s) => strip s ≠ ""
  | _ => false

/-- `value if isinstance(value, str) else None`. -/
def strOrNone : Entry → Entry
  | .item (.str s) => .item (.str s)
  | _ => .item .none

/-- `value if isinstance(value, dict) else None`. -/
def dictOrNone : Entry → Entry
  | .dict fields => .dict fields
  | _ => .item .none

def requireNonEmptyString (value : Entry) (label : String) : Option String :=
  if isNonEmptyString value then none else some s!"RHEONIC: {label} must be a non-empty string."

def validateOptionalString (value : Entry) (label : String) : Option String :=
  match value with
  | .item .none | .item (.str _) => none
  | _ => some s!"RHEONIC: {label} must be a string."

/-- A Boolean is a number as well. -/
def validateOptionalNumber (value : Entry) (label : String) : Option String :=
  match value with
  | .item .none | .item (.int _) | .item (.bool _) => none
  | _ => some s!"RHEONIC: {label} must be a number."

def extraKey {ν : Type} (fields : Fields ν) (allowedKeys : List String) : Option String :=
  (sortedBy id ((fields.map Prod.fst).filter (· ∉ allowedKeys))).head?

def unexpectedProperty {ν : Type} (fields : Fields ν) (allowedKeys : List String) (label : String) :
    Option String :=
  (extraKey fields allowedKeys).map fun key => s!"RHEONIC: unexpected {label} property: {key}"

def validateMapping (value : Entry) (allowedKeys : List String) (label : String) :
    Except String (Fields PyValue) :=
  match value with
  | .item .none => .ok []
  | .item _ => .error s!"RHEONIC: {label} must be an object."
  | .dict fields =>
    match unexpectedProperty fields allowedKeys label with
    | some error => .error error
    | none => .ok fields

def publicEventKeys : List String :=
  ["provider", "model", "environment", "ts", "status", "request", "response"]

def internalEventKeys : List String :=
  ["ts", "provider", "requested_model", "resolved_model", "environment", "status", "request",
    "response"]

def requestKeys : List String :=
  ["endpoint", "feature", "request_fingerprint", "input_tokens", "input_tokens_estimate",
    "token_explosion_tokens", "max_output_tokens", "protect_decision", "protect_reason"]

def responseKeys : List String :=
  ["http_status", "latency_ms", "total_tokens", "output_tokens", "error_type", "error_message"]

/-- A mapping whose fields are checked under its label. -/
def validateFields (value : Entry) (allowedKeys : List String) (label : String)
    (checks : List ((Entry → String → Option String) × String)) :
    Except String (Fields PyValue) :=
  match validateMapping value allowedKeys label with
  | .error error => .error error
  | .ok fields =>
    let value (key : String) : Entry := .item ((fields.get key).getD .none)
    match firstError (checks.map fun (check, key) => check (value key) s!"{label}.{key}") with
    | some error => .error error
    | none => .ok fields

def validateRequest (request : Entry) : Except String (Fields PyValue) :=
  validateFields request requestKeys "event.request"
    [(validateOptionalString, "endpoint"), (validateOptionalString, "feature"),
      (validateOptionalString, "request_fingerprint"), (validateOptionalNumber, "input_tokens"),
      (validateOptionalNumber, "input_tokens_estimate"),
      (validateOptionalNumber, "token_explosion_tokens"),
      (validateOptionalNumber, "max_output_tokens"), (validateOptionalString, "protect_decision"),
      (validateOptionalString, "protect_reason")]

def validateResponse (response : Entry) : Except String (Fields PyValue) :=
  validateFields response responseKeys "event.response"
    [(validateOptionalNumber, "http_status"), (validateOptionalNumber, "latency_ms"),
      (validateOptionalNumber, "total_tokens"), (validateOptionalNumber, "output_tokens"),
      (validateOptionalString, "error_type"), (validateOptionalString, "error_message")]

/-- The arguments that both builders take. -/
structure Arguments where
  provider : Entry
  environment : Entry := .item (.str "dev")
  status : Entry := .item .none
  request : Entry := .item .none
  response : Entry := .item .none
  ts : Entry := .item .none
  deriving DecidableEq, Repr

/-- `ts or datetime.now(timezone.utc).isoformat()`, for an optional string. -/
def tsOr (ts : Entry) (now : UtcTime) : Entry :=
  if ts = .item .none ∨ ts = .item (.str "") then .item (.str now.isoformat) else ts

def eventOf (now : UtcTime) (requestedModel resolvedModel : Entry) (a : Arguments)
    (request response : Fields PyValue) : Event :=
  let status : Event := if a.status = .item .none then [] else [("status", a.status)]
  [("ts", tsOr a.ts now), ("provider", a.provider), ("requested_model", requestedModel),
    ("resolved_model", resolvedModel), ("environment", a.environment)] ++ status ++
    [("request", .dict request), ("response", .dict response)]

/-- The body of both builders, which differ in the models and in the checks of them. -/
def build (now : UtcTime) (modelChecks : List (Option String)) (requestedModel resolvedModel : Entry)
    (a : Arguments) : Except String Event :=
  match firstError (requireNonEmptyString a.provider "event.provider" :: modelChecks ++
      [validateOptionalString a.environment "event.environment",
        validateOptionalString a.status "event.status",
        validateOptionalString a.ts "event.ts"]) with
  | some error => .error error
  | none =>
    match validateRequest a.request with
    | .error error => .error error
    | .ok request =>
      match validateResponse a.response with
      | .error error => .error error
      | .ok response => .ok (eventOf now requestedModel resolvedModel a request response)

def buildEvent (now : UtcTime) (a : Arguments) (model : Entry := .item .none) :
    Except String Event :=
  build now [validateOptionalString model "event.model"] model (.item .none) a

def buildInternalEvent (now : UtcTime) (a : Arguments) (requestedModel : Entry := .item .none)
    (resolvedModel : Entry := .item .none) : Except String Event :=
  build now
    [validateOptionalString requestedModel "event.requested_model",
      validateOptionalString resolvedModel "event.resolved_model"]
    requestedModel resolvedModel a

/-- A payload with a model of either kind is an event that has been built. -/
def isInternal (payload : Event) : Bool :=
  (payload.get "requested_model").isSome || (payload.get "resolved_model").isSome

def missingKey (payload : Event) : Option String :=
  ["ts", "provider", "requested_model", "resolved_model", "environment", "request",
    "response"].find? fun key => (payload.get key).isNone

def normalizeInternal (now : UtcTime) (payload : Event) : Except String Event :=
  match firstError
      [unexpectedProperty payload internalEventKeys "event",
        (missingKey payload).map fun key => s!"RHEONIC: event.{key} is required.",
        requireNonEmptyString (read payload "ts") "event.ts",
        requireNonEmptyString (read payload "provider") "event.provider",
        requireNonEmptyString (read payload "environment") "event.environment",
        validateOptionalString (read payload "status") "event.status"] with
  | some error => .error error
  | none =>
    buildInternalEvent now
      { provider := read payload "provider"
        environment := read payload "environment"
        status := strOrNone (read payload "status")
        request := dictOrNone (read payload "request")
        response := dictOrNone (read payload "response")
        ts := read payload "ts" }
      (strOrNone (read payload "requested_model")) (strOrNone (read payload "resolved_model"))

def normalizePublic (now : UtcTime) (payload : Event) : Except String Event :=
  let environment := (payload.get "environment").getD (.item (.str "dev"))
  match firstError
      [unexpectedProperty payload publicEventKeys "event",
        requireNonEmptyString (read payload "provider") "event.provider",
        requireNonEmptyString environment "event.environment",
        validateOptionalString (read payload "status") "event.status"] with
  | some error => .error error
  | none =>
    buildEvent now
      { provider := read payload "provider"
        environment := environment
        status := strOrNone (read payload "status")
        request := dictOrNone (read payload "request")
        response := dictOrNone (read payload "response")
        ts := strOrNone (read payload "ts") }
      (read payload "model")

/-- A payload that is not a dictionary is none. -/
def normalizeEventPayload (now : UtcTime) : Option Event → Except String Event
  | none => .error "RHEONIC: event must be an object."
  | some payload =>
    if isInternal payload then normalizeInternal now payload else normalizePublic now payload

section Reads

variable {now later : UtcTime} {requestedModel resolvedModel : Entry} {a : Arguments}
  {request response : Fields PyValue} {value : Entry} {label : String} {event : Event}

theorem requireNonEmptyString_eq_none :
    requireNonEmptyString value label = none ↔ isNonEmptyString value = true := by
  unfold requireNonEmptyString
  by_cases hvalue : isNonEmptyString value = true
  · simp [hvalue]
  · simp [hvalue]

/-- `None` or a string. -/
def OptionalString (value : Entry) : Prop := strOrNone value = value

theorem validateOptionalString_eq_none :
    validateOptionalString value label = none ↔ OptionalString value := by
  unfold validateOptionalString OptionalString strOrNone
  split
  · simp
  · simp
  · rename_i hnone hstr
    split
    · rename_i s
      exact absurd rfl (hstr s)
    · exact iff_of_false (Option.some_ne_none _) fun h => hnone h.symm

theorem optionalString_of_isNonEmptyString (h : isNonEmptyString value = true) :
    OptionalString value := by
  unfold isNonEmptyString at h
  split at h
  · rfl
  · exact absurd h Bool.false_ne_true

theorem extraKey_eq_none {ν : Type} {fields : Fields ν} {allowedKeys : List String} :
    extraKey fields allowedKeys = none ↔ ∀ field ∈ fields, field.1 ∈ allowedKeys := by
  unfold extraKey
  rw [List.head?_eq_none_iff, List.eq_nil_iff_forall_not_mem]
  simp only [mem_sortedBy, List.mem_filter, List.mem_map, decide_eq_true_eq, not_and, not_not,
    forall_exists_index, and_imp]
  constructor
  · intro h field hfield
    exact h field.1 field hfield rfl
  · rintro h key field hfield rfl
    exact h field hfield

theorem validateFields_ok {fields : Fields PyValue} {allowedKeys : List String}
    {checks : List ((Entry → String → Option String) × String)}
    (h : validateFields value allowedKeys label checks = .ok fields) :
    validateFields (.dict fields) allowedKeys label checks = .ok fields := by
  have hmapping (hvalue : validateMapping value allowedKeys label = .ok fields) :
      validateMapping (.dict fields) allowedKeys label = .ok fields := by
    unfold validateMapping at hvalue
    split at hvalue
    · rw [← Except.ok.inj hvalue]
      rfl
    · cases hvalue
    · rename_i given
      split at hvalue
      · cases hvalue
      · rename_i hkeys
        rw [← Except.ok.inj hvalue]
        unfold validateMapping
        dsimp only
        rw [hkeys]
  unfold validateFields at h ⊢
  split at h
  · cases h
  · rename_i given hgiven
    dsimp only at h
    split at h
    · cases h
    · rename_i hchecks
      have hfields : given = fields := Except.ok.inj h
      rw [hmapping (hfields ▸ hgiven)]
      dsimp only
      rw [← hfields, hchecks]

theorem build_cases {modelChecks : List (Option String)}
    (h : build now modelChecks requestedModel resolvedModel a = .ok event) :
    (isNonEmptyString a.provider = true ∧ (∀ check ∈ modelChecks, check = none) ∧
      OptionalString a.environment ∧ OptionalString a.status ∧ OptionalString a.ts) ∧
    ∃ request response, validateRequest a.request = .ok request ∧
      validateResponse a.response = .ok response ∧
      event = eventOf now requestedModel resolvedModel a request response := by
  unfold build at h
  split at h
  · cases h
  · rename_i hchecks
    split at h
    · cases h
    · rename_i request hrequest
      split at h
      · cases h
      · rename_i response hresponse
        refine ⟨?_, request, response, hrequest, hresponse, (Except.ok.inj h).symm⟩
        rw [firstError_eq_none] at hchecks
        simpa only [List.cons_append, List.mem_cons, List.mem_append, List.not_mem_nil, or_false,
          or_imp, forall_and, forall_eq, requireNonEmptyString_eq_none,
          validateOptionalString_eq_none] using hchecks

theorem build_ok {modelChecks : List (Option String)}
    (hprovider : isNonEmptyString a.provider = true) (hmodels : ∀ check ∈ modelChecks, check = none)
    (henvironment : OptionalString a.environment) (hstatus : OptionalString a.status)
    (hts : OptionalString a.ts) (hrequest : validateRequest a.request = .ok request)
    (hresponse : validateResponse a.response = .ok response) :
    build now modelChecks requestedModel resolvedModel a =
      .ok (eventOf now requestedModel resolvedModel a request response) := by
  have hchecks : firstError (requireNonEmptyString a.provider "event.provider" :: modelChecks ++
      [validateOptionalString a.environment "event.environment",
        validateOptionalString a.status "event.status",
        validateOptionalString a.ts "event.ts"]) = none := by
    rw [firstError_eq_none]
    simp only [List.cons_append, List.mem_cons, List.mem_append, List.not_mem_nil, or_false,
      or_imp, forall_and, forall_eq, requireNonEmptyString_eq_none, validateOptionalString_eq_none]
    exact ⟨hprovider, hmodels, henvironment, hstatus, hts⟩
  unfold build
  rw [hchecks]
  dsimp only
  rw [hrequest]
  dsimp only
  rw [hresponse]

section EventOf

theorem read_eventOf (now : UtcTime) (requestedModel resolvedModel : Entry)
    (a : Arguments) (request response : Fields PyValue) :
    read (eventOf now requestedModel resolvedModel a request response) "ts" = tsOr a.ts now ∧
    read (eventOf now requestedModel resolvedModel a request response) "provider" = a.provider ∧
    read (eventOf now requestedModel resolvedModel a request response) "requested_model" =
      requestedModel ∧
    read (eventOf now requestedModel resolvedModel a request response) "resolved_model" =
      resolvedModel ∧
    read (eventOf now requestedModel resolvedModel a request response) "environment" =
      a.environment ∧
    read (eventOf now requestedModel resolvedModel a request response) "status" = a.status ∧
    read (eventOf now requestedModel resolvedModel a request response) "request" =
      .dict request ∧
    read (eventOf now requestedModel resolvedModel a request response) "response" =
      .dict response := by
  unfold eventOf
  by_cases hstatus : a.status = .item .none
  · rw [if_pos hstatus, hstatus]
    exact ⟨rfl, rfl, rfl, rfl, rfl, rfl, rfl, rfl⟩
  · rw [if_neg hstatus]
    exact ⟨rfl, rfl, rfl, rfl, rfl, rfl, rfl, rfl⟩

theorem keys_eventOf (now : UtcTime) (requestedModel resolvedModel : Entry)
    (a : Arguments) (request response : Fields PyValue) :
    isInternal (eventOf now requestedModel resolvedModel a request response) = true ∧
    missingKey (eventOf now requestedModel resolvedModel a request response) = none ∧
    unexpectedProperty (eventOf now requestedModel resolvedModel a request response)
      internalEventKeys "event" = none := by
  unfold unexpectedProperty eventOf
  rw [Option.map_eq_none_iff, extraKey_eq_none]
  by_cases hstatus : a.status = .item .none
  · rw [if_pos hstatus]
    refine ⟨rfl, rfl, ?_⟩
    simp [internalEventKeys]
  · rw [if_neg hstatus]
    refine ⟨rfl, rfl, ?_⟩
    simp [internalEventKeys]

end EventOf

theorem tsOr_of_isNonEmptyString (h : isNonEmptyString value = true) : tsOr value now = value := by
  unfold tsOr
  rw [if_neg]
  rintro (rfl | rfl)
  · exact absurd h Bool.false_ne_true
  · exact absurd h (by decide +kernel)

/-- The arguments that an event shows when it is read. -/
def Arguments.settled (a : Arguments) (now : UtcTime) (request response : Fields PyValue) :
    Arguments :=
  { a with
    request := .dict request
    response := .dict response
    ts := tsOr a.ts now }

theorem buildInternalEvent_settled (hprovider : isNonEmptyString a.provider = true)
    (henvironment : isNonEmptyString a.environment = true) (hstatus : OptionalString a.status)
    (hts : isNonEmptyString (tsOr a.ts now) = true) (hrequested : OptionalString requestedModel)
    (hresolved : OptionalString resolvedModel) (hrequest : validateRequest a.request = .ok request)
    (hresponse : validateResponse a.response = .ok response) :
    buildInternalEvent later (a.settled now request response) requestedModel resolvedModel =
      .ok (eventOf now requestedModel resolvedModel a request response) := by
  have hmodels : ∀ check ∈ [validateOptionalString requestedModel "event.requested_model",
      validateOptionalString resolvedModel "event.resolved_model"], check = none := by
    simp only [List.mem_cons, List.not_mem_nil, or_false, forall_eq_or_imp, forall_eq,
      validateOptionalString_eq_none]
    exact ⟨hrequested, hresolved⟩
  have hevent : eventOf later requestedModel resolvedModel (a.settled now request response)
      request response = eventOf now requestedModel resolvedModel a request response := by
    unfold eventOf Arguments.settled
    dsimp only
    rw [tsOr_of_isNonEmptyString hts]
  rw [← hevent]
  exact build_ok hprovider hmodels (optionalString_of_isNonEmptyString henvironment) hstatus
    (optionalString_of_isNonEmptyString hts) (validateFields_ok hrequest)
    (validateFields_ok hresponse)

theorem normalize_built {modelChecks : List (Option String)}
    (h : build now modelChecks requestedModel resolvedModel a = .ok event)
    (hrequested : OptionalString requestedModel) (hresolved : OptionalString resolvedModel) :
    normalizeEventPayload later (some event) = .ok event ↔
      isNonEmptyString a.environment = true ∧ isNonEmptyString (tsOr a.ts now) = true := by
  obtain ⟨⟨hprovider, -, -, hstatus, -⟩, request, response, hrequest, hresponse, rfl⟩ :=
    build_cases h
  obtain ⟨hreadTs, hreadProvider, hreadRequested, hreadResolved, hreadEnvironment, hreadStatus,
    hreadRequest, hreadResponse⟩ := read_eventOf now requestedModel resolvedModel a request response
  obtain ⟨hinternal, hmissing, hkeys⟩ :=
    keys_eventOf now requestedModel resolvedModel a request response
  unfold normalizeEventPayload normalizeInternal
  dsimp only
  rw [if_pos hinternal, hreadTs, hreadProvider, hreadRequested, hreadResolved, hreadEnvironment,
    hreadStatus, hreadRequest, hreadResponse, hmissing, hkeys, Option.map_none]
  constructor
  · intro haccepted
    split at haccepted
    · cases haccepted
    · rename_i hchecks
      rw [firstError_eq_none] at hchecks
      have henvironment := hchecks (requireNonEmptyString a.environment "event.environment")
        (by simp)
      have hts := hchecks (requireNonEmptyString (tsOr a.ts now) "event.ts") (by simp)
      exact ⟨requireNonEmptyString_eq_none.mp henvironment, requireNonEmptyString_eq_none.mp hts⟩
  · rintro ⟨henvironment, hts⟩
    have hchecks : firstError
        [none, none, requireNonEmptyString (tsOr a.ts now) "event.ts",
          requireNonEmptyString a.provider "event.provider",
          requireNonEmptyString a.environment "event.environment",
          validateOptionalString a.status "event.status"] = none := by
      rw [requireNonEmptyString_eq_none.mpr hts, requireNonEmptyString_eq_none.mpr hprovider,
        requireNonEmptyString_eq_none.mpr henvironment, validateOptionalString_eq_none.mpr hstatus]
      rfl
    rw [hchecks]
    dsimp only [dictOrNone]
    rw [hrequested, hresolved, hstatus]
    exact buildInternalEvent_settled hprovider henvironment hstatus hts hrequested hresolved
      hrequest hresponse

theorem isNonEmptyString_isoformat : isNonEmptyString (.item (.str now.isoformat)) = true := by
  have hstripped : Trim.trim isSpace now.isoformat.toList ≠ [] := by
    rw [Ne, Trim.trim_eq_nil]
    intro h
    exact absurd (h 'T' now.mem_isoformat) (by decide)
  rw [isNonEmptyString, decide_eq_true_eq]
  intro h
  exact hstripped (String.ofList_injective h)

/-- A string that is blank but not empty, which does not count as missing. -/
def isBlankString : Entry → Bool
  | .item (.str s) => s ≠ "" ∧ strip s = ""
  | _ => false

theorem isBlankString_strOrNone (value : Entry) :
    isBlankString (strOrNone value) = isBlankString value := by
  cases value with
  | item v => cases v <;> rfl
  | dict fields => rfl

theorem isNonEmptyString_tsOr (now : UtcTime) (hvalue : OptionalString value) :
    isNonEmptyString (tsOr value now) = true ↔ isBlankString value = false := by
  unfold tsOr
  by_cases hmissing : value = .item .none ∨ value = .item (.str "")
  · rw [if_pos hmissing]
    refine iff_of_true isNonEmptyString_isoformat ?_
    rcases hmissing with rfl | rfl
    · rfl
    · rfl
  · rw [if_neg hmissing]
    unfold OptionalString strOrNone at hvalue
    split at hvalue
    · rename_i s
      have hs : s ≠ "" := fun hs => hmissing (.inr (by rw [hs]))
      simp [isNonEmptyString, isBlankString, hs]
    · exact absurd (.inl hvalue.symm) hmissing

end Reads

/-- The calls that give an event. -/
inductive Call
  | buildEvent (a : Arguments) (model : Entry)
  | buildInternalEvent (a : Arguments) (requestedModel resolvedModel : Entry)
  | normalizeEventPayload (payload : Option Event)

def Call.run (now : UtcTime) : Call → Except String Event
  | .buildEvent a model => Python.buildEvent now a model
  | .buildInternalEvent a requested resolved => Python.buildInternalEvent now a requested resolved
  | .normalizeEventPayload payload => Python.normalizeEventPayload now payload

/-- What a builder takes and the normalizer does not: an environment that is missing or blank, or
a blank time. The normalizer itself checks every environment, but the time of no public payload. -/
def Call.keepsEvent : Call → Bool
  | .buildEvent a _ => isNonEmptyString a.environment && !isBlankString a.ts
  | .buildInternalEvent a _ _ => isNonEmptyString a.environment && !isBlankString a.ts
  | .normalizeEventPayload none => true
  | .normalizeEventPayload (some payload) => isInternal payload || !isBlankString (read payload "ts")

section Survival

variable {now : UtcTime} {event payload : Event} {a : Arguments}

theorem built_survives_iff {modelChecks : List (Option String)} {requested resolved : Entry}
    (h : build now modelChecks requested resolved a = .ok event)
    (hrequested : OptionalString requested) (hresolved : OptionalString resolved) :
    (∀ later, normalizeEventPayload later (some event) = .ok event) ↔
      (isNonEmptyString a.environment && !isBlankString a.ts) = true := by
  have hts : OptionalString a.ts := (build_cases h).1.2.2.2.2
  have hiff (later : UtcTime) : normalizeEventPayload later (some event) = .ok event ↔
      (isNonEmptyString a.environment && !isBlankString a.ts) = true := by
    rw [normalize_built h hrequested hresolved, isNonEmptyString_tsOr now hts, Bool.and_eq_true,
      Bool.not_eq_true']
  exact ⟨fun hall => (hiff now).mp (hall now), fun hkeeps later => (hiff later).mpr hkeeps⟩

theorem buildEvent_survives_iff {model : Entry} (h : buildEvent now a model = .ok event) :
    (∀ later, normalizeEventPayload later (some event) = .ok event) ↔
      (isNonEmptyString a.environment && !isBlankString a.ts) = true := by
  have hmodel := (build_cases h).1.2.1 _ List.mem_cons_self
  exact built_survives_iff h (validateOptionalString_eq_none.mp hmodel) rfl

theorem buildInternalEvent_survives_iff {requested resolved : Entry}
    (h : buildInternalEvent now a requested resolved = .ok event) :
    (∀ later, normalizeEventPayload later (some event) = .ok event) ↔
      (isNonEmptyString a.environment && !isBlankString a.ts) = true := by
  have hmodels := (build_cases h).1.2.1
  have hrequested := hmodels _ List.mem_cons_self
  have hresolved := hmodels _ (List.mem_cons_of_mem _ List.mem_cons_self)
  exact built_survives_iff h (validateOptionalString_eq_none.mp hrequested)
    (validateOptionalString_eq_none.mp hresolved)

theorem normalizeInternal_survives (h : normalizeInternal now payload = .ok event) :
    ∀ later, normalizeEventPayload later (some event) = .ok event := by
  unfold normalizeInternal at h
  split at h
  · cases h
  · rename_i hchecks
    rw [firstError_eq_none] at hchecks
    have henvironment := hchecks
      (requireNonEmptyString (read payload "environment") "event.environment") (by simp)
    have hts := hchecks (requireNonEmptyString (read payload "ts") "event.ts") (by simp)
    rw [requireNonEmptyString_eq_none] at henvironment hts
    rw [buildInternalEvent_survives_iff h, Bool.and_eq_true, Bool.not_eq_true']
    dsimp only
    refine ⟨henvironment, ?_⟩
    rw [← isNonEmptyString_tsOr now (optionalString_of_isNonEmptyString hts),
      tsOr_of_isNonEmptyString hts]
    exact hts

theorem normalizePublic_survives_iff (h : normalizePublic now payload = .ok event) :
    (∀ later, normalizeEventPayload later (some event) = .ok event) ↔
      isBlankString (read payload "ts") = false := by
  unfold normalizePublic at h
  dsimp only at h
  split at h
  · cases h
  · rename_i hchecks
    rw [firstError_eq_none] at hchecks
    have henvironment := hchecks (requireNonEmptyString
      ((payload.get "environment").getD (.item (.str "dev"))) "event.environment") (by simp)
    rw [requireNonEmptyString_eq_none] at henvironment
    rw [buildEvent_survives_iff h]
    dsimp only
    rw [henvironment, isBlankString_strOrNone, Bool.true_and, Bool.not_eq_true']

/-- Exactly the calls of `keepsEvent` give an event that the normalizer takes and leaves as it
is. -/
theorem survives_iff {call : Call} (h : call.run now = .ok event) :
    (∀ later, normalizeEventPayload later (some event) = .ok event) ↔ call.keepsEvent = true := by
  cases call with
  | buildEvent a model => exact buildEvent_survives_iff h
  | buildInternalEvent a requested resolved => exact buildInternalEvent_survives_iff h
  | normalizeEventPayload payload =>
    cases payload with
    | none => cases h
    | some payload =>
      unfold Call.run normalizeEventPayload at h
      unfold Call.keepsEvent
      dsimp only at h ⊢
      by_cases hinternal : isInternal payload = true
      · rw [if_pos hinternal] at h
        rw [hinternal, Bool.true_or]
        exact iff_of_true (normalizeInternal_survives h) rfl
      · rw [if_neg hinternal] at h
        rw [normalizePublic_survives_iff h, Bool.eq_false_of_not_eq_true hinternal, Bool.false_or,
          Bool.not_eq_true']

end Survival

end Python
end Rheonic.EventBuilder
