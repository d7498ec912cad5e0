import Rheonic.EventBuilder
import Rheonic.Lib.FirstSeen
import Rheonic.MetricsService

namespace Rheonic.PolicyGap
open PyText FirstSeen MetricsService
open EventBuilder (UtcTime)
open IngestEvent (Event)

/-- The payload of a policy-gap webhook. -/
structure Payload where
  event : String
  projectId : String
  provider : String
  requestedModel : String
  firstSeenAt : String
  sentAt : String
  deriving DecidableEq, Repr

/-- What the webhook dispatcher is asked to enqueue. -/
structure Notification where
  projectId : String
  eventType : String
  payload : Payload
  deriving DecidableEq, Repr

def policyGapDetected (projectId provider requestedModel : String) (firstSeenAt : UtcTime) :
    Notification where
  projectId := projectId
  eventType := "policy_gap.detected"
  payload :=
    { event := "policy_gap.detected"
      projectId := projectId
      provider := provider
      requestedModel := requestedModel
      firstSeenAt := firstSeenAt.isoformat
      sentAt := firstSeenAt.isoformat }

/-- The ids of the project rows, the table of seen models and the webhooks enqueued so far. -/
structure Stores where
  projects : List String
  models : List ProjectModel
  enqueued : List Notification
  deriving DecidableEq, Repr

/-- The collaborators that a service was built with, and what they raise during a call. -/
structure Collaborators where
  projectRepository : Bool := true
  webhookDispatcher : Bool := true
  recordRaises : Option String := none
  getProjectRaises : Option String := none
  enqueueRaises : Option String := none
  deriving DecidableEq, Repr

/-- `_detect_policy_gap_if_needed`: only reading the project can fail the call. -/
def detectPolicyGapIfNeeded (c : Collaborators) (firstSeenAt : UtcTime) (event : Event)
    (s : Stores) : Except String Unit × Stores :=
  let provider := strip event.provider
  let requestedModel := strip (orElse event.requestedModel "")
  if c.projectRepository = false then (.ok (), s)
  else if provider = "" ∨ requestedModel = "" then (.ok (), s)
  else if c.recordRaises.isSome then (.ok (), s)
  else
    let recorded :=
      recordProjectModelFirstSeen ⟨event.projectId, provider, requestedModel⟩ s.models
    let s := { s with models := recorded.2 }
    if recorded.1.1 = false then (.ok (), s)
    else if recorded.1.2 = false then (.ok (), s)
    else
      match c.getProjectRaises with
      | some detail => (.error detail, s)
      | none =>
        if c.webhookDispatcher && s.projects.contains event.projectId && c.enqueueRaises.isNone then
          (.ok (), { s with enqueued := s.enqueued ++
            [policyGapDetected event.projectId provider requestedModel firstSeenAt] })
        else (.ok (), s)

/-- A run of ingested events, each with the reading of the clock, where nothing raises. -/
def ingestAll (events : List (UtcTime × Event)) (s : Stores) : Stores :=
  events.foldl (fun s e => (detectPolicyGapIfNeeded {} e.1 e.2 s).2) s

/-- The pair that an event of the project is about, if neither part is blank. -/
def pairOf (projectId : String) (event : Event) : Option (String × String) :=
  if event.projectId = projectId ∧ strip event.provider ≠ "" ∧
      strip (orElse event.requestedModel "") ≠ "" then
    some (strip event.provider, strip (orElse event.requestedModel ""))
  else none

/-- The pairs of a project in a run, in the order of their events. -/
def pairs (projectId : String) (events : List (UtcTime × Event)) : List (String × String) :=
  events.filterMap fun e => pairOf projectId e.2

def known (projectId : String) (models : List ProjectModel) : List (String × String) :=
  (models.filter fun m => m.projectId = projectId).map fun m => (m.provider, m.requestedModel)

/-- The pairs that a project has been notified of. -/
def notified (projectId : String) (s : Stores) : List (String × String) :=
  (s.enqueued.filter fun n => n.projectId = projectId ∧ n.eventType = "policy_gap.detected").map
    fun n => (n.payload.provider, n.payload.requestedModel)

section Table

variable {projectId provider requestedModel : String} {models : List ProjectModel}

theorem mem_known :
    (provider, requestedModel) ∈ known projectId models ↔
      (⟨projectId, provider, requestedModel⟩ : ProjectModel) ∈ models := by
  rw [known, List.mem_map]
  constructor
  · rintro ⟨m, hm, hpair⟩
    have hmem := List.mem_filter.mp hm
    have hproject : m.projectId = projectId := of_decide_eq_true hmem.2
    obtain ⟨hprovider, hmodel⟩ := Prod.mk.inj hpair
    rw [← hproject, ← hprovider, ← hmodel]
    exact hmem.1
  · intro hmem
    exact ⟨_, List.mem_filter.mpr ⟨hmem, decide_eq_true rfl⟩, rfl⟩

theorem any_project_iff :
    (models.any fun m => m.projectId = projectId) = true ↔ known projectId models ≠ [] := by
  rw [known, ne_eq, List.map_eq_nil_iff, List.filter_eq_nil_iff, List.any_eq_true]
  push Not
  rfl

theorem known_append_self :
    known projectId (models ++ [⟨projectId, provider, requestedModel⟩]) =
      known projectId models ++ [(provider, requestedModel)] := by
  simp [known]

theorem known_append_ne {m : ProjectModel} (h : m.projectId ≠ projectId) :
    known projectId (models ++ [m]) = known projectId models := by
  simp [known, h]

end Table

section Step

variable {projectId : String} {s : Stores} {event : Event} {pair : String × String}

def rowOf (event : Event) : ProjectModel :=
  ⟨event.projectId, strip event.provider, strip (orElse event.requestedModel "")⟩

theorem detect_models (now : UtcTime) (event : Event) (s : Stores) :
    (detectPolicyGapIfNeeded {} now event s).2.models =
      MetricsService.detectPolicyGapIfNeeded event s.models := by
  unfold detectPolicyGapIfNeeded MetricsService.detectPolicyGapIfNeeded
  dsimp only
  rw [if_neg (by decide)]
  by_cases hblank : strip event.provider = "" ∨ strip (orElse event.requestedModel "") = ""
  · rw [if_pos hblank, if_pos hblank]
  · rw [if_neg hblank, if_neg hblank, if_neg (by decide)]
    split
    · rfl
    · split
      · rfl
      · split <;> rfl

theorem detect_blank (now : UtcTime)
    (h : strip event.provider = "" ∨ strip (orElse event.requestedModel "") = "") :
    (detectPolicyGapIfNeeded {} now event s).2 = s := by
  unfold detectPolicyGapIfNeeded
  dsimp only
  rw [if_neg (by decide), if_pos h]

theorem detect_seen (now : UtcTime) (h : rowOf event ∈ s.models) :
    (detectPolicyGapIfNeeded {} now event s).2 = s := by
  by_cases hblank : strip event.provider = "" ∨ strip (orElse event.requestedModel "") = ""
  · exact detect_blank now hblank
  · unfold detectPolicyGapIfNeeded recordProjectModelFirstSeen
    dsimp only
    rw [if_neg (by decide), if_neg hblank, if_neg (by decide)]
    have hrow : (⟨event.projectId, strip event.provider, strip (orElse event.requestedModel "")⟩ :
        ProjectModel) ∈ s.models := h
    rw [if_pos hrow, if_pos rfl]

/-- A new row is announced where the project is there and had others. -/
theorem detect_new (now : UtcTime)
    (hfilled : ¬(strip event.provider = "" ∨ strip (orElse event.requestedModel "") = ""))
    (h : rowOf event ∉ s.models) :
    (detectPolicyGapIfNeeded {} now event s).2 =
      { s with
        models := s.models ++ [rowOf event]
        enqueued := s.enqueued ++
          if known event.projectId s.models ≠ [] ∧ event.projectId ∈ s.projects then
            [policyGapDetected event.projectId (strip event.provider)
              (strip (orElse event.requestedModel "")) now]
          else [] } := by
  have hrow : (⟨event.projectId, strip event.provider, strip (orElse event.requestedModel "")⟩ :
      ProjectModel) ∉ s.models := h
  unfold detectPolicyGapIfNeeded recordProjectModelFirstSeen
  dsimp only
  rw [if_neg (by decide), if_neg hfilled, if_neg (by decide), if_neg hrow]
  dsimp only
  rw [if_neg (by decide)]
  -- the first model of a project is no gap
  by_cases hknown : known event.projectId s.models = []
  · have hnone : (s.models.any fun m => m.projectId = event.projectId) = false := by
      rw [← Bool.not_eq_true, any_project_iff]
      exact fun hne => hne hknown
    rw [hnone, if_pos rfl, if_neg (fun hboth => hboth.1 hknown), List.append_nil]
    rfl
  · have hany : (s.models.any fun m => m.projectId = event.projectId) = true :=
      any_project_iff.mpr hknown
    rw [hany, if_neg (by decide)]
    -- nor is one of a project that is gone
    by_cases hproject : event.projectId ∈ s.projects
    · have hcontains : s.projects.contains event.projectId = true :=
        List.contains_iff_mem.mpr hproject
      rw [hcontains, if_pos (by decide), if_pos ⟨hknown, hproject⟩]
      rfl
    · have hcontains : s.projects.contains event.projectId = false := by
        rw [← Bool.not_eq_true, List.contains_iff_mem]
        exact hproject
      rw [hcontains, if_neg (by decide), if_neg (fun hboth => hproject hboth.2), List.append_nil]
      rfl

theorem pairOf_eq_some (h : pairOf projectId event = some pair) :
    event.projectId = projectId ∧
      ¬(strip event.provider = "" ∨ strip (orElse event.requestedModel "") = "") ∧
      pair = (strip event.provider, strip (orElse event.requestedModel "")) := by
  unfold pairOf at h
  split at h
  · next hfilled =>
    exact ⟨hfilled.1, not_or.mpr hfilled.2, (Option.some.inj h).symm⟩
  · exact absurd h (Option.some_ne_none pair).symm

theorem detect_other (now : UtcTime) (h : pairOf projectId event = none) :
    known projectId (detectPolicyGapIfNeeded {} now event s).2.models = known projectId s.models ∧
      notified projectId (detectPolicyGapIfNeeded {} now event s).2 = notified projectId s := by
  by_cases hblank : strip event.provider = "" ∨ strip (orElse event.requestedModel "") = ""
  · rw [detect_blank now hblank]
    exact ⟨rfl, rfl⟩
  · by_cases hseen : rowOf event ∈ s.models
    · rw [detect_seen now hseen]
      exact ⟨rfl, rfl⟩
    · have hproject : event.projectId ≠ projectId := by
        intro heq
        rw [pairOf, if_pos ⟨heq, not_or.mp hblank⟩] at h
        exact absurd h (Option.some_ne_none _)
      rw [detect_new now hblank hseen]
      refine ⟨known_append_ne hproject, ?_⟩
      unfold notified
      dsimp only
      split
      · simp [policyGapDetected, hproject]
      · rw [List.append_nil]

/-- The first event with a pair of the project records it, and announces it unless it is the first
pair of all. -/
theorem detect_pair (now : UtcTime) (h : pairOf projectId event = some pair)
    (hproject : projectId ∈ s.projects) (hnew : pair ∉ known projectId s.models) :
    known projectId (detectPolicyGapIfNeeded {} now event s).2.models =
        known projectId s.models ++ [pair] ∧
      notified projectId (detectPolicyGapIfNeeded {} now event s).2 =
        notified projectId s ++ if known projectId s.models = [] then [] else [pair] := by
  obtain ⟨rfl, hfilled, rfl⟩ := pairOf_eq_some h
  have hrow : rowOf event ∉ s.models := fun hmem => hnew (mem_known.mpr hmem)
  rw [detect_new now hfilled hrow]
  refine ⟨known_append_self, ?_⟩
  unfold notified
  dsimp only
  by_cases hknown : known event.projectId s.models = []
  · rw [if_neg (fun hboth => hboth.1 hknown), if_pos hknown, List.append_nil, List.append_nil]
  · rw [if_pos ⟨hknown, hproject⟩, if_neg hknown]
    simp [policyGapDetected]

theorem detect_again (now : UtcTime) (h : pairOf projectId event = some pair)
    (hseen : pair ∈ known projectId s.models) :
    (detectPolicyGapIfNeeded {} now event s).2 = s := by
  obtain ⟨rfl, -, rfl⟩ := pairOf_eq_some h
  exact detect_seen now (mem_known.mp hseen)

@[simp] theorem detect_projects (now : UtcTime) (event : Event) (s : Stores) :
    (detectPolicyGapIfNeeded {} now event s).2.projects = s.projects := by
  by_cases hblank : strip event.provider = "" ∨ strip (orElse event.requestedModel "") = ""
  · rw [detect_blank now hblank]
  · by_cases hseen : rowOf event ∈ s.models
    · rw [detect_seen now hseen]
    · rw [detect_new now hblank hseen]

end Step

section Runs

variable {projectId : String} {s : Stores}

@[simp] theorem ingestAll_cons (e : UtcTime × Event) (events : List (UtcTime × Event))
    (s : Stores) :
    ingestAll (e :: events) s = ingestAll events (detectPolicyGapIfNeeded {} e.1 e.2 s).2 := by
  rw [ingestAll, List.foldl_cons, ingestAll]

theorem pairs_cons_none {e : UtcTime × Event} {events : List (UtcTime × Event)}
    (h : pairOf projectId e.2 = none) : pairs projectId (e :: events) = pairs projectId events :=
  List.filterMap_cons_none h

theorem pairs_cons_some {e : UtcTime × Event} {events : List (UtcTime × Event)}
    {pair : String × String} (h : pairOf projectId e.2 = some pair) :
    pairs projectId (e :: events) = pair :: pairs projectId events :=
  List.filterMap_cons_some h

theorem notified_of_known {events : List (UtcTime × Event)} (hproject : projectId ∈ s.projects)
    (hknown : known projectId s.models ≠ []) :
    notified projectId (ingestAll events s) =
      notified projectId s ++ firsts (known projectId s.models) (pairs projectId events) := by
  induction events generalizing s with
  | nil => exact (List.append_nil _).symm
  | cons e events ih =>
    have hproject' : projectId ∈ (detectPolicyGapIfNeeded {} e.1 e.2 s).2.projects := by
      rw [detect_projects]
      exact hproject
    rw [ingestAll_cons]
    cases hpair : pairOf projectId e.2 with
    | none =>
      obtain ⟨hrows, hnotified⟩ := detect_other (s := s) e.1 hpair
      rw [ih hproject' (by rw [hrows]; exact hknown), hrows, hnotified, pairs_cons_none hpair]
    | some pair =>
      rw [pairs_cons_some hpair]
      by_cases hseen : pair ∈ known projectId s.models
      · rw [detect_again e.1 hpair hseen, ih hproject hknown, firsts_cons_of_mem hseen]
      · obtain ⟨hrows, hnotified⟩ := detect_pair e.1 hpair hproject hseen
        rw [ih hproject' (by rw [hrows]; exact List.append_ne_nil_of_right_ne_nil _ (by simp)),
          hrows, hnotified, if_neg hknown, firsts_cons_of_not_mem hseen, List.append_assoc]
        rfl

theorem notified_of_unknown {events : List (UtcTime × Event)} (hproject : projectId ∈ s.projects)
    (hknown : known projectId s.models = []) :
    notified projectId (ingestAll events s) =
      notified projectId s ++ (firsts [] (pairs projectId events)).tail := by
  induction events generalizing s with
  | nil => exact (List.append_nil _).symm
  | cons e events ih =>
    have hproject' : projectId ∈ (detectPolicyGapIfNeeded {} e.1 e.2 s).2.projects := by
      rw [detect_projects]
      exact hproject
    rw [ingestAll_cons]
    cases hpair : pairOf projectId e.2 with
    | none =>
      obtain ⟨hrows, hnotified⟩ := detect_other (s := s) e.1 hpair
      rw [ih hproject' (hrows.trans hknown), hnotified, pairs_cons_none hpair]
    | some pair =>
      have hnew : pair ∉ known projectId s.models := by
        rw [hknown]
        exact List.not_mem_nil
      obtain ⟨hrows, hnotified⟩ := detect_pair e.1 hpair hproject hnew
      have hrows' : known projectId (detectPolicyGapIfNeeded {} e.1 e.2 s).2.models = [pair] := by
        rw [hrows, hknown, List.nil_append]
      rw [notified_of_known hproject' (by rw [hrows']; exact List.cons_ne_nil _ _), hrows',
        hnotified, if_pos hknown, List.append_nil, pairs_cons_some hpair,
        firsts_cons_of_not_mem List.not_mem_nil]
      rfl

end Runs

/-- Over a run from a project's first event, its notifications are one for each pair that occurs,
but for the first pair of all. -/
theorem policyGap_once (projectId : String) (s : Stores) (events : List (UtcTime × Event))
    (hproject : projectId ∈ s.projects) (hfirst : ∀ m ∈ s.models, m.projectId ≠ projectId)
    (pair : String × String) :
    (notified projectId (ingestAll events s)).count pair =
      (notified projectId s).count pair +
        if pair ∈ pairs projectId events ∧ (pairs projectId events).head? ≠ some pair
        then 1 else 0 := by
  have hknown : known projectId s.models = [] := by
    rw [known, List.map_eq_nil_iff, List.filter_eq_nil_iff]
    intro m hm
    simpa using hfirst m hm
  rw [notified_of_unknown hproject hknown, List.count_append, count_tail_firsts]

/-- An event of a project for a model of OpenAI. -/
def sampleEvent (requestedModel : String) : UtcTime × Event where
  fst := ⟨2026, 3, 1, 12, 0, 0, 0⟩
  snd :=
    { id := "e1", ts := 0, projectId := "p1", provider := " openai "
      requestedModel := some requestedModel, resolvedModel := none, environment := none
      inputTokens := 0, outputTokens := 0, totalTokens := 0, latencyMs := none, status := none
      errorType := none, errorMessage := none, httpStatus := none, createdAt := 0
      tokenExplosionTokens := none, requestEndpoint := none, requestFeature := none
      requestFingerprint := none }

theorem policyGap_once_run :
    (notified "p1" (ingestAll [sampleEvent "gpt-4o", sampleEvent "gpt-4o-mini",
      sampleEvent "gpt-4o-mini"] ⟨["p1"], [], []⟩)).count ("openai", "gpt-4o-mini") = 1 :=
  (policyGap_once "p1" ⟨["p1"], [], []⟩ [sampleEvent "gpt-4o", sampleEvent "gpt-4o-mini",
    sampleEvent "gpt-4o-mini"] (by decide) (by simp) ("openai", "gpt-4o-mini")).trans
    (by decide +kernel)

end Rheonic.PolicyGap
