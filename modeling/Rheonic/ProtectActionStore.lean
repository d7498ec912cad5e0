import Rheonic.Keys
import Rheonic.Redis

namespace Rheonic.ProtectActionStore
open CommandProgram Redis Keys PyText

def protectActionCounterTtlSeconds : ℕ := 3600

def sourceLive : String := "live"

def sourceTimeoutFallback : String := "timeout_fallback"

def sourceUnavailableFallback : String := "unavailable_fallback"

def sourceRank (source : String) : ℕ :=
  if source = sourceLive then 1
  else if source = sourceTimeoutFallback ∨ source = sourceUnavailableFallback then 2
  else 0

/-- Updates of equal precedence are duplicates unless they change the effective decision. -/
def shouldReplaceOutcome (existing incoming : OutcomePayload) : Bool :=
  if sourceRank incoming.source < sourceRank existing.source then false
  else if sourceRank existing.source < sourceRank incoming.source then true
  else existing.decision ≠ incoming.decision || existing.reason ≠ incoming.reason

/-- A record with an empty field does not count; neither does text that is no JSON object. -/
def parseLast : Option Text → Option OutcomePayload
  | some (.json p) => if p.decision = "" ∨ p.reason = "" ∨ p.source = "" then none else some p
  | _ => none

/-- Redis writes the counters, so the digit limit of `int` is never reached. -/
def intOfText : Option Text → ℤ
  | some (.str s) => (parseNumber s).getD 0
  | _ => 0

def readInt (key : String) : Prog ℤ := do
  let raw ← get key
  pure (intOfText raw)

def incrementWithTtl (key : String) : Prog Unit := do
  let value ← incr key
  if value = 1 then
    let _ ← expire key protectActionCounterTtlSeconds
    pure ()
  else pure ()

def counterKeyForDecision (projectId decision : String) : Option String :=
  if decision = "allow" then some (allowKey projectId)
  else if decision = "clamp" then some (clampKey projectId)
  else if decision = "block" then some (blockKey projectId)
  else none

def decrementCounterForDecision (projectId decision : String) : Prog Unit :=
  match counterKeyForDecision projectId decision with
  | none => pure ()
  | some key => do
    let current ← readInt key
    if current ≤ 0 then pure ()
    else
      let _ ← incrby key (-1)
      pure ()

def recordTimeoutEvent (projectId requestId : String) (ts : ℕ) : Prog Unit := do
  let _ ← zadd (timeoutEventsKey projectId) requestId ts
  let _ ← expire (timeoutEventsKey projectId) protectActionCounterTtlSeconds
  pure ()

/-- The body of an `if request_id:`. -/
def whenRequestId (requestId : Option String) (body : String → Prog Unit) : Prog Unit :=
  match truthy requestId with
  | none => pure ()
  | some requestId => body requestId

def incrementCounterForDecision (projectId decision : String) : Prog Unit :=
  match counterKeyForDecision projectId decision with
  | none => pure ()
  | some key => incrementWithTtl key

def applyOutcomeCounters (projectId : String) (payload : OutcomePayload)
    (requestId : Option String) : Prog Unit := do
  incrementCounterForDecision projectId payload.decision
  if payload.source = sourceTimeoutFallback then
    incrementWithTtl (timeoutKey projectId)
    whenRequestId requestId fun requestId => recordTimeoutEvent projectId requestId payload.ts
  else pure ()

def decrementTimeoutCounter (projectId : String) : Prog Unit := do
  let current ← readInt (timeoutKey projectId)
  if 0 < current then
    let _ ← incrby (timeoutKey projectId) (-1)
    pure ()
  else pure ()

def removeTimeoutEvent (projectId requestId : String) : Prog Unit := do
  let _ ← zrem (timeoutEventsKey projectId) requestId
  pure ()

def removeOutcomeCounters (projectId : String) (payload : OutcomePayload)
    (requestId : Option String) : Prog Unit := do
  decrementCounterForDecision projectId payload.decision
  if payload.source = sourceTimeoutFallback then
    decrementTimeoutCounter projectId
    whenRequestId requestId fun requestId => removeTimeoutEvent projectId requestId
  else pure ()

/-- The last steps of finalizing: the counters and the last-action record. -/
def publishOutcome (projectId : String) (payload : OutcomePayload)
    (requestId : Option String) : Prog Unit := do
  applyOutcomeCounters projectId payload requestId
  set (lastKey projectId) (.json payload) protectActionCounterTtlSeconds

def replaceOutcome (projectId : String) (payload : OutcomePayload) (requestId : String) :
    Prog Unit := do
  set (outcomeKey projectId requestId) (.json payload) protectActionCounterTtlSeconds
  publishOutcome projectId payload (some requestId)

/-- What is done once the stored outcome of the request is known. -/
def settleOutcome (projectId : String) (payload : OutcomePayload) (requestId : String) :
    Option OutcomePayload → Prog (Bool × Option OutcomePayload)
  | none => do
    replaceOutcome projectId payload requestId
    pure (true, none)
  | some existing =>
    if shouldReplaceOutcome existing payload then do
      removeOutcomeCounters projectId existing (some requestId)
      replaceOutcome projectId payload requestId
      pure (true, some existing)
    else pure (false, some existing)

/-- The body of the `try` in `finalize_outcome`. -/
def finalizeBody (projectId : String) (payload : OutcomePayload) (requestId : Option String) :
    Prog (Bool × Option OutcomePayload) :=
  match truthy requestId with
  | none => do
    publishOutcome projectId payload none
    pure (true, none)
  | some requestId => do
    let raw ← get (outcomeKey projectId requestId)
    settleOutcome projectId payload requestId (parseLast raw)

/-- Finalize one canonical protect outcome and derive counters from it. Whatever is raised, the
call answers `(false, none)`. -/
def finalizeOutcome (projectId decision reason source : String) (requestId : Option String)
    (ts : ℕ) : Prog (Bool × Option OutcomePayload) :=
  tryCatchThe Exn (finalizeBody projectId ⟨decision, reason, source, ts⟩ requestId)
    fun _ => pure (false, none)

/-- Record a preflight latency sample; `memberId` is the random part of the member. -/
def recordHealth (projectId : String) (latencyMs : ℤ) (nowMs : ℕ) (memberId : String) :
    Prog Unit :=
  tryCatchThe Exn (do
    let _ ← zadd (latencyKey projectId)
      (toString nowMs ++ ":" ++ memberId ++ ":" ++ toString (max latencyMs 0)) nowMs
    let _ ← zremrangebyscore (latencyKey projectId) 0
      ((nowMs : ℤ) - protectActionCounterTtlSeconds * 1000)
    let _ ← expire (latencyKey projectId) protectActionCounterTtlSeconds
    pure ()) fun _ => pure ()

def setBlockCooldown (projectId : String) (blockedUntilMs : ℤ) (cooldownSeconds : ℤ)
    (requestId : Option String) : Prog Unit :=
  tryCatchThe Exn (do
    set (cooldownKey projectId) (.str (toString blockedUntilMs)) (max cooldownSeconds 1).toNat
    whenRequestId requestId fun requestId =>
      set (cooldownOwnerKey projectId) (.str requestId) (max cooldownSeconds 1).toNat)
    fun _ => pure ()

/-- The text of a value that is no JSON document; the keys read through it hold none. -/
def plainText : Text → Option String
  | .str s => some s
  | .json _ => none

def getBlockCooldownUntilMs (projectId : String) : Prog (Option ℤ) :=
  tryCatchThe Exn (do
    let raw ← get (cooldownKey projectId)
    match raw with
    | none => pure none
    | some raw =>
      match (plainText raw).bind parseNumber with
      | none => throw (.value "invalid literal for int()")
      | some parsed => pure (if 0 < parsed then some parsed else none))
    fun _ => pure none

def clearBlockCooldown (projectId : String) (requestId : Option String) : Prog Bool :=
  tryCatchThe Exn (do
    match requestId with
    | none =>
      let _ ← delete (cooldownKey projectId)
      let _ ← delete (cooldownOwnerKey projectId)
      pure true
    | some requestId =>
      let ownerRaw ← get (cooldownOwnerKey projectId)
      if (ownerRaw.bind plainText).getD "" ≠ requestId then pure false
      else
        let _ ← delete (cooldownKey projectId)
        let _ ← delete (cooldownOwnerKey projectId)
        pure true)
    fun _ => pure false

/-- Whether this marker is first observed inside its time to live. -/
def markReportSent (projectId reportType marker : String) (ttlSeconds : ℤ) : Prog Bool :=
  tryCatchThe Exn (setNxEx (reportKey projectId reportType marker) (.str "1")
    (max ttlSeconds 1).toNat) fun _ => pure false

/-- Record timeout health without counting an outcome. -/
def recordTimeoutFallback (projectId : String) (requestId : Option String) (ts : ℕ) :
    Prog Unit :=
  tryCatchThe Exn (do
    incrementWithTtl (timeoutKey projectId)
    whenRequestId requestId fun requestId => recordTimeoutEvent projectId requestId ts)
    fun _ => pure ()

end Rheonic.ProtectActionStore
