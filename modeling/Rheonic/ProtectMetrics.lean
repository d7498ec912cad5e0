import Rheonic.ProtectActionStore
import Rheonic.Lib.Double

namespace Rheonic.ProtectActionStore
open CommandProgram Redis Keys PyText

structure Health where
  p50Ms : Option ℤ
  p95Ms : Option ℤ
  timeouts60m : ℤ
  timeouts30m : ℕ
  deriving DecidableEq, Repr

structure ActionMetrics where
  allowed60m : ℤ
  clamped60m : ℤ
  blocked60m : ℤ
  decisionTimeouts60m : ℤ
  last : Option OutcomePayload
  decisionLatencyP5060mMs : Option ℤ
  decisionLatencyP9560mMs : Option ℤ
  deriving DecidableEq, Repr

/-- The number after the last colon, as a latency; a member without one is skipped. -/
def parseLatency (member : String) : Option ℤ :=
  if ':' ∈ member.toList then
    ((split ':' member.toList).getLast?.bind fun part => parseInt (String.ofList part)).map (max · 0)
  else none

def parseLatencies (members : List String) : List ℤ :=
  (members.filterMap parseLatency).insertionSort (· ≤ ·)

/-- `n / d`, rounded to the nearest integer and to the even one of two. -/
def roundQuotient (n d : ℕ) : ℕ :=
  if 2 * (n % d) < d then n / d
  else if d < 2 * (n % d) then n / d + 1
  else n / d + n / d % 2

/-- `math.ceil((percentile / 100) * n)` in binary64, for percentiles from 50 to 99: the quotient
has 53 bits after the point, and the product is rounded once more. -/
def ceilShare (percentile n : ℕ) : ℕ :=
  (Double.roundNat (roundQuotient (percentile * 2 ^ 53) 100 * n) + (2 ^ 53 - 1)) / 2 ^ 53

def percentile (values : List ℤ) (percentile : ℕ) : Option ℤ :=
  if values = [] then none
  else values[min (ceilShare percentile values.length - 1) (values.length - 1)]?

example : ceilShare 95 20 = 19 := by decide +kernel

def readRecentTimeoutCount (projectId : String) (windowSeconds : ℤ) (nowMs : ℕ) : Prog ℕ := do
  let _ ← zremrangebyscore (timeoutEventsKey projectId) 0
    ((nowMs : ℤ) - protectActionCounterTtlSeconds * 1000)
  let members ← zrangebyscore (timeoutEventsKey projectId)
    ((nowMs : ℤ) - max windowSeconds 1 * 1000)
  pure members.length

def readHealth (projectId : String) (nowMs : ℕ) : Prog Health := do
  let cutoffMs := (nowMs : ℤ) - protectActionCounterTtlSeconds * 1000
  let _ ← zremrangebyscore (latencyKey projectId) 0 cutoffMs
  let latencyMembers ← zrangebyscore (latencyKey projectId) cutoffMs
  let latencies := parseLatencies latencyMembers
  let timeouts60m ← readInt (timeoutKey projectId)
  let timeouts30m ← readRecentTimeoutCount projectId 1800 nowMs
  pure ⟨percentile latencies 50, percentile latencies 95, timeouts60m, timeouts30m⟩

/-- Read the latency percentiles and the timeout counts. Whatever is raised, the answer is empty. -/
def getHealth (projectId : String) (nowMs : ℕ) : Prog Health :=
  tryCatchThe Exn (readHealth projectId nowMs) fun _ => pure ⟨none, none, 0, 0⟩

def readMetrics (projectId : String) (nowMs : ℕ) : Prog ActionMetrics := do
  let allowed ← readInt (allowKey projectId)
  let clamp ← readInt (clampKey projectId)
  let block ← readInt (blockKey projectId)
  let decisionTimeouts ← readInt (timeoutKey projectId)
  let lastRaw ← get (lastKey projectId)
  let health ← getHealth projectId nowMs
  pure ⟨allowed, clamp, block, decisionTimeouts, parseLast lastRaw, health.p50Ms, health.p95Ms⟩

/-- Read the decision counters and the last decision. Whatever is raised, the answer is empty. -/
def getMetrics (projectId : String) (nowMs : ℕ) : Prog ActionMetrics :=
  tryCatchThe Exn (readMetrics projectId nowMs) fun _ => pure ⟨0, 0, 0, 0, none, none, none⟩

end Rheonic.ProtectActionStore
