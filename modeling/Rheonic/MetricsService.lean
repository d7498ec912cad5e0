import Rheonic.ProtectRuns
import Rheonic.ProtectMetrics
import Rheonic.Lib.SortedBy

namespace Rheonic.MetricsService
open CommandProgram Redis Keys PyText ProtectActionStore RollingWindow SortedBy

/-- A row of `project_models`: a provider and model that an ingest of the project has seen. -/
structure ProjectModel where
  projectId : String
  provider : String
  requestedModel : String
  deriving DecidableEq, Repr

/-- Insert a row once; the answer says whether it is new and whether the project had others. -/
def recordProjectModelFirstSeen (row : ProjectModel) (models : List ProjectModel) :
    (Bool × Bool) × List ProjectModel :=
  if row ∈ models then ((false, true), models)
  else ((true, models.any fun m => m.projectId = row.projectId), models ++ [row])

/-- The table after the ingest of an event; an event without provider or model leaves no row. -/
def detectPolicyGapIfNeeded (event : IngestEvent.Event) (models : List ProjectModel) :
    List ProjectModel :=
  let provider := strip event.provider
  let requestedModel := strip (orElse event.requestedModel "")
  if provider = "" ∨ requestedModel = "" then models
  else (recordProjectModelFirstSeen ⟨event.projectId, provider, requestedModel⟩ models).2

def listProjectProviders (models : List ProjectModel) (projectId : String) : List String :=
  (sortedBy id ((models.filter fun m => m.projectId = projectId).map (·.provider)).dedup).filter
    (· ≠ "")

/-- The providers summed where the table has none of the project. -/
def fallbackProviders : List String := ["openai", "anthropic", "google", "unknown"]

def projectProvidersForAggregation (models : List ProjectModel) (projectId : String)
    (provider : Option String) : List String :=
  match truthy provider with
  | some provider => [provider]
  | none =>
    if listProjectProviders models projectId = [] then fallbackProviders
    else listProjectProviders models projectId

/-- The loop of `get_realtime`. -/
def sumRealtime (projectId : String) (nowMs : ℕ) : List String → ℕ × ℤ → Prog (ℕ × ℤ)
  | [], totals => pure totals
  | provider :: providers, totals => do
    let counted ← getProject60s (scopedProjectProviderId projectId (some provider)) nowMs
    sumRealtime projectId nowMs providers (totals.1 + counted.1, totals.2 + counted.2)

/-- Requests and tokens of the last minute over the providers of a project. -/
def getRealtime (models : List ProjectModel) (projectId : String) (provider : Option String)
    (nowMs : ℕ) : Prog (ℕ × ℤ) :=
  sumRealtime projectId nowMs (projectProvidersForAggregation models projectId provider) (0, 0)

/-- What the loop of `get_protect_metrics` gathers. -/
structure Gathered where
  allowed60m : ℤ := 0
  clamped60m : ℤ := 0
  blocked60m : ℤ := 0
  decisionTimeouts60m : ℤ := 0
  latenciesP50 : List ℤ := []
  latenciesP95 : List ℤ := []
  latestLast : Option OutcomePayload := none

def Gathered.add (g : Gathered) (raw : ActionMetrics) : Gathered where
  allowed60m := g.allowed60m + raw.allowed60m
  clamped60m := g.clamped60m + raw.clamped60m
  blocked60m := g.blocked60m + raw.blocked60m
  decisionTimeouts60m := g.decisionTimeouts60m + raw.decisionTimeouts60m
  latenciesP50 := g.latenciesP50 ++ raw.decisionLatencyP5060mMs.toList
  latenciesP95 := g.latenciesP95 ++ raw.decisionLatencyP9560mMs.toList
  latestLast := match raw.last with
    | some last => if g.latestLast.all (·.ts ≤ last.ts) then some last else g.latestLast
    | none => g.latestLast

/-- `round(sum(l) / len(l))` of latencies, which are never negative. -/
def roundedMean (l : List ℤ) : Option ℤ :=
  if l = [] then none else some (roundQuotient l.sum.toNat l.length)

def Gathered.metrics (g : Gathered) : ActionMetrics where
  allowed60m := g.allowed60m
  clamped60m := g.clamped60m
  blocked60m := g.blocked60m
  decisionTimeouts60m := g.decisionTimeouts60m
  last := g.latestLast
  decisionLatencyP5060mMs := roundedMean g.latenciesP50
  decisionLatencyP9560mMs := roundedMean g.latenciesP95

def gatherMetrics (projectId : String) (nowMs : ℕ) : List String → Gathered → Prog Gathered
  | [], g => pure g
  | provider :: providers, g => do
    let raw ← getMetrics (scopedProjectProviderId projectId (some provider)) nowMs
    gatherMetrics projectId nowMs providers (g.add raw)

/-- Protect counters and latencies over the providers of a project. -/
def getProtectMetrics (models : List ProjectModel) (projectId : String) (provider : Option String)
    (nowMs : ℕ) : Prog ActionMetrics := do
  let g ← gatherMetrics projectId nowMs
    (projectProvidersForAggregation models projectId provider) {}
  pure g.metrics

/-- What the loop of `get_protect_health` gathers. -/
structure GatheredHealth where
  p50Values : List ℤ := []
  p95Values : List ℤ := []
  timeouts60m : ℤ := 0
  timeouts30m : ℕ := 0

def GatheredHealth.add (g : GatheredHealth) (metrics : Health) : GatheredHealth where
  p50Values := g.p50Values ++ metrics.p50Ms.toList
  p95Values := g.p95Values ++ metrics.p95Ms.toList
  timeouts60m := g.timeouts60m + metrics.timeouts60m
  timeouts30m := g.timeouts30m + metrics.timeouts30m

def gatherHealth (projectId : String) (nowMs : ℕ) : List String → GatheredHealth →
    Prog GatheredHealth
  | [], g => pure g
  | provider :: providers, g => do
    let metrics ← getHealth (scopedProjectProviderId projectId (some provider)) nowMs
    gatherHealth projectId nowMs providers (g.add metrics)

/-- Preflight latencies and timeouts over the providers of a project. -/
def getProtectHealth (models : List ProjectModel) (projectId : String) (provider : Option String)
    (nowMs : ℕ) : Prog Health := do
  let g ← gatherHealth projectId nowMs
    (projectProvidersForAggregation models projectId provider) {}
  pure ⟨roundedMean g.p50Values, roundedMean g.p95Values, g.timeouts60m, g.timeouts30m⟩

/-- The stores behind the protect API, and the table of seen models. -/
structure Dashboard where
  stores : IngestEvent.World
  models : List ProjectModel

/-- A call of the protect API or an ingest; an ingest that succeeds records its model. -/
def serve (settings : ProtectService.Settings) (d : Dashboard) (now : ℕ) (call : ProtectApi.Call) :
    ProtectApi.Answer × Dashboard :=
  let served := ProtectApi.serve settings d.stores now call
  (served.1, ⟨served.2, match call, served.1 with
    | .ingest event _, .ingested (.ok _) => detectPolicyGapIfNeeded event d.models
    | _, _ => d.models⟩)

/-- Any calls of any projects at a nondecreasing clock. -/
inductive Runs (settings : ProtectService.Settings) : Dashboard → List ProtectApi.Call →
    Dashboard → Prop
  | nil (d : Dashboard) : Runs settings d [] d
  | cons {d d' : Dashboard} {calls : List ProtectApi.Call} (now : ℕ) (call : ProtectApi.Call)
      (hclock : d.stores.redis.clock ≤ now) (hfresh : ProtectApi.Fresh d.stores call)
      (hrest : Runs settings (serve settings d now call).2 calls d') :
      Runs settings d (call :: calls) d'

def start (now : ℕ) : Dashboard := ⟨ProtectApi.start now, []⟩

section Readings

variable (d : Dashboard) (projectId : String) (provider : Option String) (now : ℕ)

def protectMetrics : Except Exn ActionMetrics :=
  (run (getProtectMetrics d.models projectId provider now) (d.stores.redis.advance now)).1

def realtime : Except Exn (ℕ × ℤ) :=
  (run (getRealtime d.models projectId provider now) (d.stores.redis.advance now)).1

end Readings

end Rheonic.MetricsService
