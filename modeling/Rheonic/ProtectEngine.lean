import Rheonic.Lib.Double
import Rheonic.Lib.PyText

namespace Rheonic.ProtectEngine
open PyText

inductive FailMode
  | open
  | closed
  deriving DecidableEq, Repr

inductive Decision
  | allow
  | clamp
  | block
  deriving DecidableEq, Repr

/-- The only reason that an engine keeps for a cooldown. -/
inductive CooldownReason
  | cooldownActive
  deriving DecidableEq, Repr

def CooldownReason.text : CooldownReason → String
  | cooldownActive => "cooldown_active"

/-- The state of an engine, of either language. -/
structure Engine where
  failMode : FailMode
  decisionTimeoutMs : ℤ
  cooldownUntilMs : Option ℤ := none
  cooldownReason : Option CooldownReason := none
  deriving DecidableEq, Repr

/-- A value of the clamp dictionary. -/
inductive IntOrBool
  | int (n : ℤ)
  | bool (b : Bool)
  deriving DecidableEq, Repr

structure ClampBody where
  recommendedMaxOutputTokens : Option IntOrBool := none
  applied : Option IntOrBool := none
  deriving DecidableEq, Repr

/-- A decision as the backend's schema writes it, every field absent or present. -/
structure DecisionBody where
  decision : Option String := none
  reason : Option String := none
  failMode : Option String := none
  protectDecisionTimeoutMs : Option ℤ := none
  retryAfterSeconds : Option ℤ := none
  blockedUntil : Option String := none
  applyClampEnabled : Option Bool := none
  clamp : Option ClampBody := none
  deriving DecidableEq, Repr

structure ConfigBody where
  protectFailMode : Option String := none
  protectDecisionTimeoutMs : Option ℤ := none
  deriving DecidableEq, Repr

/-- The text of a response: nothing, something that is no JSON, or a body. -/
inductive Content (β : Type)
  | empty
  | invalid
  | json (body : β)
  deriving DecidableEq, Repr

inductive TransportResult (β : Type)
  | response (status : ℤ) (content : Content β)
  | timeout
  | networkError
  deriving DecidableEq, Repr

/-- One call of `evaluate`: the provider of its context, the readings of the clock when it starts
and at its two looks at the cooldown, and what the transport brings back. -/
structure Call where
  provider : String
  startedAt : ℕ
  comparedAt : ℕ
  expiredAt : ℕ
  result : TransportResult DecisionBody
  deriving DecidableEq, Repr

structure Clamp where
  recommendedMaxOutputTokens : Double
  applied : Bool
  deriving DecidableEq, Repr

/-- What the caller gets, without the ids and the snapshot that are handed through. -/
structure Evaluation where
  decision : Decision
  reason : String
  blockedUntil : Option String := none
  retryAfterSeconds : Option ℤ := none
  applyClampEnabled : Option Bool := none
  clamp : Option Clamp := none
  deriving DecidableEq, Repr

/-- What an engine tells the backend after a call that failed. -/
inductive Report
  | decisionTimeout
  | decisionUnavailable
  deriving DecidableEq, Repr

structure Outcome where
  evaluation : Evaluation
  engine : Engine
  /-- The backend was asked. -/
  asked : Bool := true
  report : Option Report := none
  deriving DecidableEq, Repr

/-- The conversions of timestamps in both languages, exact to the millisecond: either language's
text of an instant is read as that instant, and a blank text is none. -/
structure Timestamps where
  parse : String → Option ℤ
  isoformat : ℤ → String
  toISOString : ℤ → String
  parse_isoformat : ∀ ms, 0 < ms → parse (isoformat ms) = some ms
  parse_toISOString : ∀ ms, 0 < ms → parse (toISOString ms) = some ms
  parse_blank : ∀ s, strip s = "" → parse s = none

def parseFailMode : String → Option FailMode
  | "open" => some .open
  | "closed" => some .closed
  | _ => none

def parseDecision : String → Decision
  | "clamp" => .clamp
  | "block" => .block
  | _ => .allow

def isSuccess (status : ℤ) : Bool := 200 ≤ status && status < 300

def reportOf {β : Type} : TransportResult β → Report
  | .timeout => .decisionTimeout
  | _ => .decisionUnavailable

def Engine.cooling (s : Engine) (now : ℕ) : Option ℤ := s.cooldownUntilMs.filter fun u => (now : ℤ) < u

/-- `_fallback_decision`, and `fallbackEvaluation`. -/
def fallbackDecision (s : Engine) : Evaluation :=
  match s.failMode with
  | .closed => { decision := .block, reason := "fail_closed" }
  | .open => { decision := .allow, reason := "decision_unavailable" }

/-- The cooldown after an answer whose parsed `blocked_until` is given. -/
def Engine.updateCooldown (s : Engine) (blockedUntilMs : Option ℤ) (comparedAt expiredAt : ℕ) :
    Engine :=
  if blockedUntilMs.any ((comparedAt : ℤ) < ·) then
    { s with cooldownUntilMs := blockedUntilMs, cooldownReason := some .cooldownActive }
  else if s.cooldownUntilMs.any (· ≤ (expiredAt : ℤ)) then
    { s with cooldownUntilMs := none, cooldownReason := none }
  else s

namespace Python

variable (τ : Timestamps)

def failModeText : FailMode → String
  | .open => "open"
  | .closed => "closed"

/-- `_fail_mode` after a text for it has been received. -/
def updateFailMode (s : Engine) (failMode : Option String) : Engine :=
  match parseFailMode (orElse failMode (failModeText s.failMode)) with
  | some mode => { s with failMode := mode }
  | none => s

def updateTimeout (s : Engine) (decisionTimeout : Option ℤ) : Engine :=
  match decisionTimeout with
  | some n => if 0 < n then { s with decisionTimeoutMs := n } else s
  | none => s

def parseBlockedUntilMs (value : Option String) : Option ℤ := (truthy value).bind τ.parse

def formatBlockedUntilMs (value : ℤ) : Option String :=
  if value ≤ 0 then none else some (τ.isoformat value)

def toRetryAfterSeconds (blockedUntilMs nowMs : ℤ) : Option ℤ :=
  if blockedUntilMs ≤ nowMs then none else some (max 0 ((blockedUntilMs - nowMs + 999) / 1000))

/-- `True` is an integer too. -/
def asInt : IntOrBool → ℤ
  | .int n => n
  | .bool b => if b then 1 else 0

def appliedFlag : Option IntOrBool → Bool
  | some (.bool b) => b
  | _ => false

def parseClamp (value : Option ClampBody) : Option Clamp :=
  value.bind fun clamp => (clamp.recommendedMaxOutputTokens.filter (0 < asInt ·)).map
    fun recommended => ⟨.finite (asInt recommended), appliedFlag clamp.applied⟩

def answer (body : DecisionBody) : Evaluation where
  decision := parseDecision (orElse body.decision "allow")
  reason := orElse body.reason "ok"
  blockedUntil := body.blockedUntil.filter fun value => strip value ≠ ""
  retryAfterSeconds := body.retryAfterSeconds.filter (0 ≤ ·)
  applyClampEnabled := body.applyClampEnabled
  clamp := parseClamp body.clamp

def learn (s : Engine) (body : DecisionBody) (comparedAt expiredAt : ℕ) : Engine :=
  (updateTimeout (updateFailMode s body.failMode) body.protectDecisionTimeoutMs).updateCooldown
    (parseBlockedUntilMs τ body.blockedUntil) comparedAt expiredAt

def evaluate (s : Engine) (call : Call) : Outcome :=
  match s.cooling call.startedAt with
  | some u =>
    { evaluation :=
        { decision := .block
          reason := orElse (s.cooldownReason.map CooldownReason.text) "cooldown_active"
          blockedUntil := formatBlockedUntilMs τ u
          retryAfterSeconds := toRetryAfterSeconds u call.startedAt }
      engine := s
      asked := false }
  | none =>
    match call.result with
    | .response status (.json body) =>
      if isSuccess status then
        { evaluation := answer body, engine := learn τ s body call.comparedAt call.expiredAt }
      else
        { evaluation := fallbackDecision s, engine := s, report := some .decisionUnavailable }
    | result =>
      -- no body that `json()` could load: the exception ends in the fallback
      { evaluation := fallbackDecision s, engine := s, report := some (reportOf result) }

def bootstrap (s : Engine) (result : TransportResult ConfigBody) : Engine :=
  match result with
  | .response status (.json body) =>
    if isSuccess status then
      updateTimeout (updateFailMode s body.protectFailMode) body.protectDecisionTimeoutMs
    else s
  | _ => s

end Python

namespace Node

variable (τ : Timestamps)

def updateFailMode (s : Engine) (failMode : Option String) : Engine :=
  match failMode.bind parseFailMode with
  | some mode => { s with failMode := mode }
  | none => s

/-- The integer that a number of the JSON text is read as, unless it is too large. -/
def finiteNumber (value : Option ℤ) : Option ℤ :=
  match value.map Double.ofInt with
  | some (.finite n) => some n
  | _ => none

def updateTimeout (s : Engine) (decisionTimeout : Option ℤ) : Engine :=
  match finiteNumber decisionTimeout with
  | some n => if 0 < n then { s with decisionTimeoutMs := n } else s
  | none => s

def parseBlockedUntilMs (value : Option String) : Option ℤ :=
  ((truthy value).bind τ.parse).filter (0 < ·)

def formatBlockedUntilMs (value : ℤ) : Option String :=
  if value ≤ 0 then none else some (τ.toISOString value)

def toRetryAfterSeconds (blockedUntilMs nowMs : ℤ) : Option ℤ :=
  if blockedUntilMs ≤ nowMs then none else some (max 0 (-(-(blockedUntilMs - nowMs) / 1000)))

def appliedFlag : Option IntOrBool → Bool
  | some (.bool b) => b
  | _ => false

def parseClamp (value : Option ClampBody) : Option Clamp :=
  value.bind fun clamp =>
    match clamp.recommendedMaxOutputTokens with
    | some (.int n) =>
      match Double.ofInt n with
      | .finite m => if m < 1 then none else some ⟨.finite m, appliedFlag clamp.applied⟩
      | .infinite negative =>
        if negative then none else some ⟨.infinite negative, appliedFlag clamp.applied⟩
    | _ => none

def answer (body : DecisionBody) : Evaluation where
  decision := (body.decision.map parseDecision).getD .allow
  reason := body.reason.getD "ok"
  blockedUntil := body.blockedUntil
  retryAfterSeconds := (finiteNumber body.retryAfterSeconds).filter (0 ≤ ·)
  applyClampEnabled := body.applyClampEnabled
  clamp := parseClamp body.clamp

def learn (s : Engine) (body : DecisionBody) (comparedAt expiredAt : ℕ) : Engine :=
  (updateTimeout (updateFailMode s body.failMode) body.protectDecisionTimeoutMs).updateCooldown
    (parseBlockedUntilMs τ body.blockedUntil) comparedAt expiredAt

def evaluate (s : Engine) (call : Call) : Outcome :=
  match s.cooling call.startedAt with
  | some u =>
    { evaluation :=
        { decision := .block
          reason := (s.cooldownReason.map CooldownReason.text).getD "cooldown_active"
          blockedUntil := formatBlockedUntilMs τ u
          retryAfterSeconds := toRetryAfterSeconds u call.startedAt }
      engine := s
      asked := false }
  | none =>
    match call.result with
    | .response status content =>
      if isSuccess status then
        match content with
        -- the transport reads an empty text as the empty object
        | .empty => { evaluation := answer {}, engine := learn τ s {} call.comparedAt call.expiredAt }
        | .invalid =>
          { evaluation := fallbackDecision s, engine := s, report := some .decisionUnavailable }
        | .json body =>
          { evaluation := answer body, engine := learn τ s body call.comparedAt call.expiredAt }
      else { evaluation := fallbackDecision s, engine := s, report := some .decisionUnavailable }
    | result =>
      { evaluation := fallbackDecision s, engine := s, report := some (reportOf result) }

def bootstrap (s : Engine) (result : TransportResult ConfigBody) : Engine :=
  match result with
  | .response status content =>
    if isSuccess status then
      match content with
      | .empty => s
      | .invalid => s
      | .json body =>
        updateTimeout (updateFailMode s body.protectFailMode) body.protectDecisionTimeoutMs
    else s
  | _ => s

end Node

/-- What a caller uses of an engine. -/
structure Implementation where
  evaluate : Engine → Call → Outcome
  bootstrap : Engine → TransportResult ConfigBody → Engine

def python (τ : Timestamps) : Implementation := ⟨Python.evaluate τ, Python.bootstrap⟩

def node (τ : Timestamps) : Implementation := ⟨Node.evaluate τ, Node.bootstrap⟩

end Rheonic.ProtectEngine
