import Rheonic.BackendSteps
import Rheonic.DetectionOrder
import Rheonic.IncidentNames
import Rheonic.Lib.Trim

namespace Rheonic.ServiceSteps
open CommandProgram PyText Keys RowTable ProtectService ProtectApi
open Program (Coupled AnswersRelated)
open IngestEvent (Event Cmd)
open IncidentManager (SameButProvider Renamed WorldsRenamed)
open ProtectBackend (Backend LiveCall ReportCall LiveStage ReportStage)
open Detectors (PyFloat Signal)

def providerName (p : String) : String := orElse (some (strip p)) "unknown"

def Plain (p : String) : Prop := providerName p = p

instance (p : String) : Decidable (Plain p) := inferInstanceAs (Decidable (_ = _))

/-- Whitespace on both sides of a name. -/
structure Padding where
  before : List Char := []
  after : List Char := []
  blank : ∀ c ∈ before ++ after, isSpace c = true

def Padding.on (pad : Padding) (p : String) : String :=
  String.ofList (pad.before ++ p.toList ++ pad.after)

theorem Padding.strip_on (pad : Padding) (p : String) : strip (pad.on p) = strip p := by
  have htrim : ∀ cs : List Char, stripChars cs = Trim.trim isSpace cs := fun _ => rfl
  unfold strip Padding.on
  rw [String.toList_ofList, htrim, htrim,
    Trim.trim_append (fun c hc => pad.blank c (List.mem_append_left _ hc))
      fun c hc => pad.blank c (List.mem_append_right _ hc)]

section Names

variable {p p' : String}

theorem providerName_congr (h : strip p' = strip p) : providerName p' = providerName p := by
  unfold providerName
  rw [h]

theorem scopedProjectProviderId_congr (projectId : String) (h : strip p' = strip p) :
    scopedProjectProviderId projectId (some p') = scopedProjectProviderId projectId (some p) := by
  have horElse : ∀ q : String, orElse (some q) "" = q := by
    intro q
    by_cases hq : q = ""
    · rw [hq, orElse_empty]
    · rw [orElse_of_ne hq]
  unfold scopedProjectProviderId
  rw [horElse, horElse, h]

theorem providerName_ne_empty (p : String) : providerName p ≠ "" := by
  unfold providerName
  by_cases hempty : strip p = ""
  · rw [hempty, orElse_empty]
    decide
  · rw [orElse_of_ne hempty]
    exact hempty

theorem providerName_providerName (p : String) : providerName (providerName p) = providerName p := by
  unfold providerName
  by_cases hempty : strip p = ""
  · rw [hempty, orElse_empty]
    decide
  · rw [orElse_of_ne hempty, strip_strip, orElse_of_ne hempty]

end Names

section Events

/-- An event under a padded name, which is found under itself on both sides or on neither. -/
def SameEvent (e e' : Event) : Prop :=
  e' = { e with provider := e'.provider } ∧ strip e'.provider = strip e.provider ∧
    (Plain e'.provider ↔ Plain e.provider)

variable {e e' : Event} {l l' : List Event}

theorem SameEvent.eq_of_plain (h : SameEvent e e') (hplain : Plain e.provider) : e' = e := by
  have hname : e'.provider = e.provider := by
    rw [← h.2.2.mpr hplain, ← hplain]
    rw [providerName_congr h.2.1]
  rw [h.1, hname]

theorem SameEvent.provider_iff (h : SameEvent e e') (p : String) :
    e'.provider = providerName p ↔ e.provider = providerName p := by
  have hplain : Plain (providerName p) := providerName_providerName p
  constructor
  · intro hname
    have he : Plain e.provider := h.2.2.mp (hname ▸ hplain)
    rw [← hname, h.eq_of_plain he]
  · intro hname
    rw [h.eq_of_plain (hname ▸ hplain), hname]

theorem listRecent_same (h : List.Forall₂ SameEvent l l') (projectId : String) (limit : ℤ)
    (p : String) : IngestDetection.listRecent l' projectId limit (providerName p) =
      IngestDetection.listRecent l projectId limit (providerName p) := by
  have hfilter : l'.filter (IngestDetection.selectsRecent projectId (providerName p)) =
      l.filter (IngestDetection.selectsRecent projectId (providerName p)) := by
    induction h with
    | nil => rfl
    | @cons e e' l l' he _ ih =>
      have hselects : IngestDetection.selectsRecent projectId (providerName p) e' =
          IngestDetection.selectsRecent projectId (providerName p) e := by
        have hproject : e'.projectId = e.projectId := by rw [he.1]
        simp only [IngestDetection.selectsRecent, hproject, he.provider_iff p,
          providerName_ne_empty]
      rw [List.filter_cons, List.filter_cons, hselects, ih]
      by_cases hselected : IngestDetection.selectsRecent projectId (providerName p) e = true
      · have hname : e.provider = providerName p := by
          simpa [IngestDetection.selectsRecent, providerName_ne_empty] using
            (Bool.and_eq_true_iff.mp hselected).2
        have hplain : Plain e.provider := hname ▸ providerName_providerName p
        rw [if_pos hselected, if_pos hselected, he.eq_of_plain hplain]
      · rw [if_neg hselected, if_neg hselected]
  unfold IngestDetection.listRecent
  rw [hfilter]

end Events

section Detection

open Detectors IngestDetection

variable {F : Type} [PyFloat F] (ctx : DetectionContext F) (e : Event) (p : String)

/-- The context of an event that is being ingested. -/
def ofCurrent : DetectionContext F := { ctx with currentEvent := some e }

theorem sequenceCount_ofCurrent (walked : List Event) (count : ℕ) (prevTs : Option F) :
    LoopSuspect.sequenceCount (ofCurrent ctx e) walked count prevTs =
      LoopSuspect.sequenceCount ctx walked count prevTs := by
  induction walked generalizing count prevTs with
  | nil => rfl
  | cons event older ih =>
    simp only [LoopSuspect.sequenceCount, ih]
    rfl

theorem detect_ofCurrent :
    detect (ofCurrent ctx { e with provider := p }) = detect (ofCurrent ctx e) := by
  have hloop : LoopSuspect.detect (ofCurrent ctx { e with provider := p }) =
      LoopSuspect.detect (ofCurrent ctx e) := by
    simp only [LoopSuspect.detect, sequenceCount_ofCurrent]
    rfl
  have htoken : TokenExplosion.detect (ofCurrent ctx { e with provider := p }) =
      TokenExplosion.detect (ofCurrent ctx e) := rfl
  unfold detect
  rw [hloop, htoken]
  rfl

theorem signals_congr (settings : DetectorSettings F) (r : Readings) (recent : List Event)
    (h : strip p = strip e.provider) :
    signals settings r { e with provider := p } recent = signals settings r e recent := by
  have hname : providerOf { e with provider := p } = providerOf e := providerName_congr h
  have hctx : detectionContext settings r { e with provider := p } recent =
      ofCurrent (detectionContext settings r e recent) { e with provider := p } := by
    unfold detectionContext
    rw [hname]
    rfl
  unfold signals
  rw [hctx, detect_ofCurrent]
  rfl

end Detection

/-- A command with another provider in its event. -/
def withProvider (p : String) : Cmd → Cmd
  | .addEvent event => .addEvent { event with provider := p }
  | .finishIngest event requests60s tokens60s =>
    .finishIngest { event with provider := p } requests60s tokens60s
  | c => c

namespace IngestCall

def provider (c : IngestCall) : String := c.request.payload.provider

/-- The request under another name; what fails of it fails as before. -/
def under (c : IngestCall) (p : String) : IngestCall :=
  { c with request := { c.request with
      payload := { c.request.payload with provider := p }
      raises := fun command => c.request.raises (withProvider c.provider command) } }

end IngestCall

/-- The request with whitespace around its provider name. -/
def Request.padded (pad : Padding) : Request → Request
  | .ingest c => .ingest (c.under (pad.on c.provider))
  | .decision c => .decision
      { c with request := { c.request with provider := pad.on c.request.provider } }
  | .fallback c => .fallback
      { c with report := { c.report with provider := c.report.provider.map pad.on } }

section Stores

/-- Stores with the same Redis, and the same events up to the padding. -/
structure StoresAlike (s s' : IngestEvent.World) : Prop where
  redis : s'.redis = s.redis
  projectOf : s'.projectOf = s.projectOf
  increments : s'.increments = s.increments
  events : List.Forall₂ SameEvent s.events s'.events

variable {c : IngestCall} {p : String}

/-- Two ingest programs, run for a request and for the request under another name. -/
abbrev IngestsAlike {α : Type} (c : IngestCall) (p : String) (q q' : IngestEvent.Prog α) : Prop :=
  Coupled (IngestEvent.exec c.request.raises) (IngestEvent.exec (c.under p).request.raises)
    StoresAlike Eq q q'

theorem ingests_redis (command : Redis.Cmd) :
    IngestsAlike c p (IngestEvent.redis command) (IngestEvent.redis command) := by
  refine Coupled.perform (Cmd.redis command) (Cmd.redis command) ?_
  intro s s' hs
  have hraises : (c.under p).request.raises (.redis command) = c.request.raises (.redis command) :=
    rfl
  unfold IngestEvent.exec
  rw [hraises]
  cases c.request.raises (.redis command) with
  | some message => exact ⟨.error _, hs⟩
  | none =>
    dsimp only
    rw [hs.redis]
    exact ⟨.refl _, { hs with redis := rfl }⟩

theorem ingests_resolveProjectId (keyHash : String) :
    IngestsAlike c p (.perform (Cmd.resolveProjectId keyHash))
      (.perform (Cmd.resolveProjectId keyHash)) := by
  refine Coupled.perform (Cmd.resolveProjectId keyHash) (Cmd.resolveProjectId keyHash) ?_
  intro s s' hs
  have hraises : (c.under p).request.raises (.resolveProjectId keyHash) =
      c.request.raises (.resolveProjectId keyHash) := rfl
  unfold IngestEvent.exec
  rw [hraises]
  cases c.request.raises (.resolveProjectId keyHash) with
  | some message => exact ⟨.error _, hs⟩
  | none => exact ⟨.ok (congrFun hs.projectOf keyHash).symm, hs⟩

theorem ingests_claimIdempotencyKey (settings : IngestEvent.Settings) (hashKey : String → String)
    (projectId : String) (key : Option String) :
    IngestsAlike c p (IngestEvent.claimIdempotencyKey settings hashKey projectId key)
      (IngestEvent.claimIdempotencyKey settings hashKey projectId key) := by
  unfold IngestEvent.claimIdempotencyKey
  cases truthy key with
  | none => exact .pure rfl
  | some key =>
    refine .tryCatch ?_ fun _ => .pure rfl
    exact ingests_redis (.setNxEx (idempotencyKey projectId (hashKey key)) (.str "1")
      settings.idempotencyTtlSeconds)

theorem ingests_checkRateLimit (settings : IngestEvent.Settings) (key : String) :
    IngestsAlike c p (IngestEvent.checkRateLimit settings key)
      (IngestEvent.checkRateLimit settings key) := by
  unfold IngestEvent.checkRateLimit
  refine .tryCatch ?_ ?_
  · refine (ingests_redis (.incrby key 1)).bind ?_
    intro counter counter' hcounter
    obtain rfl : counter = counter' := hcounter
    refine Coupled.bind (Q := Eq) ?_ ?_
    · unfold IngestEvent.startRateLimitWindow
      apply Coupled.ite
      · intro _
        exact (ingests_redis _).bind fun _ _ _ => .pure rfl
      · intro _
        exact .pure rfl
    · intro _ _ _
      apply Coupled.ite
      · intro _
        exact .throw _
      · intro _
        exact .pure rfl
  · intro e
    cases e with
    | http status detail => exact .throw _
    | response message => exact .pure rfl
    | value message => exact .pure rfl

theorem ingests_admitRequest (settings : IngestEvent.Settings) (hashKey : String → String)
    (normalizedKey : String) (idempotencyKey : Option String) (now : ℕ) :
    IngestsAlike c p (admitRequest settings hashKey normalizedKey idempotencyKey now)
      (admitRequest settings hashKey normalizedKey idempotencyKey now) := by
  unfold admitRequest
  apply Coupled.ite
  · intro _
    exact .throw _
  · intro _
    refine (ingests_resolveProjectId _).bind ?_
    intro found found' hfound
    obtain rfl : found = found' := hfound
    cases found with
    | none => exact .throw _
    | some projectId =>
      refine (ingests_claimIdempotencyKey settings hashKey projectId idempotencyKey).bind ?_
      intro accepted accepted' haccepted
      obtain rfl : accepted = accepted' := haccepted
      apply Coupled.ite
      · intro _
        exact (ingests_checkRateLimit settings _).bind fun _ _ _ => .pure rfl
      · intro _
        exact .pure rfl

variable {event : Event}

theorem ingests_addEvent (hown : event.provider = c.provider)
    (hsame : SameEvent event { event with provider := p }) :
    IngestsAlike c p (.perform (Cmd.addEvent event))
      (.perform (Cmd.addEvent { event with provider := p })) := by
  refine Coupled.perform (Cmd.addEvent event) (Cmd.addEvent { event with provider := p }) ?_
  intro s s' hs
  have hraises : (c.under p).request.raises (.addEvent { event with provider := p }) =
      c.request.raises (.addEvent event) := by
    have hback : ({ event with provider := c.provider } : Event) = event := by rw [← hown]
    exact congrArg c.request.raises (congrArg Cmd.addEvent hback)
  unfold IngestEvent.exec
  rw [hraises]
  cases c.request.raises (.addEvent event) with
  | some message => exact ⟨.error _, hs⟩
  | none => exact ⟨.ok rfl, { hs with events := List.rel_append hs.events (.cons hsame .nil) }⟩

theorem ingests_increment (projectId memberId : String) (totalTokens : ℤ) :
    IngestsAlike c p (.perform (Cmd.incrementProject60s projectId totalTokens memberId))
      (.perform (Cmd.incrementProject60s projectId totalTokens memberId)) := by
  refine Coupled.perform (Cmd.incrementProject60s projectId totalTokens memberId)
    (Cmd.incrementProject60s projectId totalTokens memberId) ?_
  intro s s' hs
  have hraises : (c.under p).request.raises
      (.incrementProject60s projectId totalTokens memberId) =
        c.request.raises (.incrementProject60s projectId totalTokens memberId) := rfl
  unfold IngestEvent.exec
  rw [hraises]
  cases c.request.raises (.incrementProject60s projectId totalTokens memberId) with
  | some message => exact ⟨.error _, hs⟩
  | none =>
    dsimp only
    rw [hs.redis]
    rcases Redis.run (RollingWindow.incrementProject60s projectId (some totalTokens) s.redis.clock
      memberId) s.redis with ⟨e | _, t⟩
    · exact ⟨.error e, { hs with redis := rfl }⟩
    · exact ⟨.ok rfl, { hs with
        redis := rfl
        increments := congrArg (· ++ [(projectId, ⟨s.redis.clock, memberId, totalTokens⟩)])
          hs.increments }⟩

theorem ingests_getProject60s (projectId : String) :
    IngestsAlike c p (.perform (Cmd.getProject60s projectId))
      (.perform (Cmd.getProject60s projectId)) := by
  refine Coupled.perform (Cmd.getProject60s projectId) (Cmd.getProject60s projectId) ?_
  intro s s' hs
  have hraises : (c.under p).request.raises (.getProject60s projectId) =
      c.request.raises (.getProject60s projectId) := rfl
  unfold IngestEvent.exec
  rw [hraises]
  cases c.request.raises (.getProject60s projectId) with
  | some message => exact ⟨.error _, hs⟩
  | none =>
    dsimp only
    rw [hs.redis]
    exact ⟨.refl _, { hs with redis := rfl }⟩

theorem ingests_record (hown : event.provider = c.provider)
    (hsame : SameEvent event { event with provider := p }) (memberId : String) :
    IngestsAlike c p (record event memberId) (record { event with provider := p } memberId) := by
  have hscope : ({ event with provider := p } : Event).scopedId = event.scopedId := by
    have hname : strip p = strip event.provider := hsame.2.1
    unfold Event.scopedId
    rw [hname]
  unfold record
  rw [hscope]
  refine (ingests_addEvent hown hsame).bind ?_
  intro _ _ _
  refine (ingests_increment event.scopedId memberId event.totalTokens).bind ?_
  intro _ _ _
  exact ingests_getProject60s event.scopedId

end Stores

section Services

/-- Services with the same Redis, and events and incidents that are the same up to the names. -/
structure ServicesAlike (ρ : String → String → String) (w w' : Service) : Prop where
  stores : StoresAlike w.stores w'.stores
  incidents : WorldsRenamed ρ w.incidents w'.incidents
  notices : w'.notices = w.notices
  models : w'.models = w.models

variable {ρ : String → String → String} {w w' : Service}

theorem ServicesAlike.atTime (h : ServicesAlike ρ w w') (now : ℕ) :
    ServicesAlike ρ (w.atTime now) (w'.atTime now) := by
  refine { h with stores := { h.stores with redis := ?_ } }
  exact congrArg (fun s => s.advance now) h.stores.redis

theorem ServicesAlike.withStores (h : ServicesAlike ρ w w') {s s' : IngestEvent.World}
    (hs : StoresAlike s s') :
    ServicesAlike ρ { w with stores := s } { w' with stores := s' } :=
  ⟨hs, h.incidents, h.notices, h.models⟩

theorem ServicesAlike.withIncidents (h : ServicesAlike ρ w w') {s s' : IncidentRepository.World}
    (hs : WorldsRenamed ρ s s') :
    ServicesAlike ρ { w with incidents := s } { w' with incidents := s' } :=
  ⟨h.stores, hs, h.notices, h.models⟩

end Services

namespace IngestCall

variable {F : Type} [PyFloat F] {D : Deployment F} {ρ : String → String → String} {c : IngestCall}
  {p : String} {w w' : Service}

/-- An event is stored under a name that is found under itself in both runs or in neither, and
incidents are looked for under the stripped name where that is what they are filed under. -/
def Steady (D : Deployment F) (ρ : String → String → String) (c : IngestCall) (p : String) :
    IngestStage → Prop
  | .admitted _ _ => Plain p ↔ Plain c.provider
  | .detected projectId _ _ => (D.projects projectId).any (·.protectEnabled) = true →
      ρ projectId (providerName c.provider) = providerName c.provider
  | .kept projectId _ signals => signals ≠ [] →
      ρ projectId (providerName c.provider) = providerName c.provider
  | _ => True

theorem event_under (projectId : String) (createdAt : ℕ) :
    (c.under p).event projectId createdAt = { c.event projectId createdAt with provider := p } :=
  rfl

theorem providerOf_event (projectId : String) (createdAt : ℕ) :
    IngestDetection.providerOf (c.event projectId createdAt) = providerName c.provider := rfl

theorem providerOf_under (hp : strip p = strip c.provider) (projectId : String) (createdAt : ℕ) :
    IngestDetection.providerOf { c.event projectId createdAt with provider := p } =
      providerName c.provider :=
  providerName_congr hp

theorem detect_alike (hp : strip p = strip c.provider) (h : StoresAlike w.stores w'.stores)
    (projectId : String) (createdAt : ℕ) (r : IngestDetection.Readings) :
    detect D { c.event projectId createdAt with provider := p } r w'.stores.events =
      detect D (c.event projectId createdAt) r w.stores.events := by
  unfold detect
  rw [providerOf_under hp, providerOf_event, listRecent_same h.events]
  exact signals_congr _ _ _ _ _ hp

theorem keep_alike (hρ : ∀ q, Function.Injective (ρ q)) (hp : strip p = strip c.provider)
    (h : WorldsRenamed ρ w.incidents w'.incidents) {projectId : String} (createdAt now : ℕ)
    (hname : (D.projects projectId).any (·.protectEnabled) = true →
      ρ projectId (providerName c.provider) = providerName c.provider) (signals : List Signal) :
    keep D { c.event projectId createdAt with provider := p } now signals w'.incidents =
      keep D (c.event projectId createdAt) now signals w.incidents := by
  have hproject : (c.event projectId createdAt).projectId = projectId := rfl
  unfold keep
  rw [providerOf_under hp, providerOf_event, hproject]
  by_cases henabled : (D.projects projectId).any (·.protectEnabled) = true
  · rw [if_pos henabled, if_pos henabled]
    have hactive := (IncidentManager.runs_hasActiveBlockIncident D.manager hρ (hname henabled) now
      w.incidents w'.incidents h).1.eq
    rw [hactive]
  · rw [if_neg henabled, if_neg henabled]

theorem processSignals_alike (hρ : ∀ q, Function.Injective (ρ q)) (hp : strip p = strip c.provider)
    (h : WorldsRenamed ρ w.incidents w'.incidents) {projectId : String} (createdAt now : ℕ)
    {signals : List Signal}
    (hname : signals ≠ [] → ρ projectId (providerName c.provider) = providerName c.provider) :
    AnswersRelated (fun _ _ => True)
      (Program.run IncidentRepository.exec (processSignals D.manager
        (signals.map (c.signalCall (c.event projectId createdAt) now))) w.incidents).1
      (Program.run IncidentRepository.exec (processSignals D.manager (signals.map
        ((c.under p).signalCall { c.event projectId createdAt with provider := p } now)))
        w'.incidents).1 ∧
    WorldsRenamed ρ
      (Program.run IncidentRepository.exec (processSignals D.manager
        (signals.map (c.signalCall (c.event projectId createdAt) now))) w.incidents).2
      (Program.run IncidentRepository.exec (processSignals D.manager (signals.map
        ((c.under p).signalCall { c.event projectId createdAt with provider := p } now)))
        w'.incidents).2 := by
  have hcall : (c.under p).signalCall { c.event projectId createdAt with provider := p } now =
      c.signalCall (c.event projectId createdAt) now := by
    funext signal
    unfold signalCall
    rw [providerOf_under hp, providerOf_event]
    rfl
  rw [hcall]
  refine IncidentManager.runs_processSignals D.manager hρ ?_ w.incidents w'.incidents h
  intro r hr
  obtain ⟨signal, hsignal, rfl⟩ := List.mem_map.mp hr
  have hproject : (c.event projectId createdAt).projectId = projectId := rfl
  unfold signalCall
  dsimp only
  rw [hproject, providerOf_event]
  exact hname (List.ne_nil_of_mem hsignal)

theorem normalizedKey_under (c : IngestCall) (p : String) :
    (c.under p).request.normalizedKey = c.request.normalizedKey := by
  have hkey : (c.under p).request.ingestKey = c.request.ingestKey := rfl
  unfold IngestEvent.Request.normalizedKey
  rw [hkey]

theorem step_alike (hρ : ∀ q, Function.Injective (ρ q)) (hp : strip p = strip c.provider)
    (h : ServicesAlike ρ w w') {stage : IngestStage} (hsteady : c.Steady D ρ p stage) (now : ℕ) :
    ((c.under p).step D now stage w').1 = (c.step D now stage w).1 ∧
      ServicesAlike ρ (c.step D now stage w).2 ((c.under p).step D now stage w').2 := by
  cases stage with
  | waiting =>
    -- admission does not look at the provider
    have hkey := c.normalizedKey_under p
    have hidempotency : (c.under p).request.idempotencyKey = c.request.idempotencyKey := rfl
    obtain ⟨hanswer, hafter⟩ := ingests_admitRequest (c := c) (p := p) D.ingest D.hashKey
      c.request.normalizedKey c.request.idempotencyKey now w.stores w'.stores h.stores
    simp only [step, hkey, hidempotency]
    exact ⟨congrArg (afterAdmission now) hanswer.eq.symm,
      h.withStores hafter⟩
  | admitted projectId createdAt =>
    have hmember : (c.under p).request.memberId = c.request.memberId := rfl
    have hevent : SameEvent (c.event projectId createdAt)
        { c.event projectId createdAt with provider := p } := ⟨rfl, hp, hsteady⟩
    obtain ⟨hanswer, hafter⟩ := ingests_record (c := c) (p := p) rfl hevent c.request.memberId
      w.stores w'.stores h.stores
    simp only [step, event_under, hmember]
    exact ⟨congrArg (afterRecord projectId createdAt) hanswer.eq.symm,
      h.withStores hafter⟩
  | counted projectId createdAt requests60s tokens60s =>
    -- whether the last write fails is not up to the name
    have hraises : (c.under p).request.raises (.finishIngest
        { c.event projectId createdAt with provider := p } requests60s tokens60s) =
          c.request.raises (.finishIngest (c.event projectId createdAt) requests60s tokens60s) :=
      rfl
    simp only [step, event_under, hraises]
    cases c.request.raises (.finishIngest (c.event projectId createdAt) requests60s tokens60s) with
    | some message => exact ⟨rfl, h⟩
    | none =>
      have hname : strip p = strip (c.event projectId createdAt).provider := hp
      refine ⟨?_, ⟨h.stores, h.incidents, h.notices, ?_⟩⟩
      · rw [detect_alike hp h.stores]
      · simp only [MetricsService.detectPolicyGapIfNeeded, hname, h.models]
  | detected projectId createdAt signals =>
    simp only [step, event_under, keep_alike hρ hp h.incidents createdAt now hsteady]
    exact ⟨trivial, h⟩
  | kept projectId createdAt signals =>
    obtain ⟨hanswer, hafter⟩ := processSignals_alike (D := D) (p := p) hρ hp h.incidents createdAt
      now hsteady
    have hstage : ∀ x y, AnswersRelated (fun _ _ => True) x y → afterSignals y = afterSignals x := by
      intro x y hxy
      cases hxy with
      | ok _ => rfl
      | error e => rfl
    simp only [step, event_under]
    exact ⟨hstage _ _ hanswer, h.withIncidents hafter⟩
  | ended answer => exact ⟨rfl, h⟩

end IngestCall

section Protect

open ProtectBackend

/-- The same of what the protect endpoints use. -/
structure BackendsAlike (ρ : String → String → String) (b b' : Backend) : Prop where
  redis : b'.redis = b.redis
  incidents : WorldsRenamed ρ b.incidents b'.incidents
  notices : b'.notices = b.notices

variable {ρ : String → String → String} {b b' : Backend} {settings : ProtectService.Settings}
  {m : IncidentManager.Manager} {project : Project} {p : String}

theorem BackendsAlike.withRedis (h : BackendsAlike ρ b b') (s : Redis.Store) :
    BackendsAlike ρ { b with redis := s } { b' with redis := s } :=
  ⟨rfl, h.incidents, h.notices⟩

theorem BackendsAlike.withIncidents (h : BackendsAlike ρ b b') {s s' : IncidentRepository.World}
    (hs : WorldsRenamed ρ s s') :
    BackendsAlike ρ { b with incidents := s } { b' with incidents := s' } :=
  ⟨h.redis, hs, h.notices⟩

def liveUnder (c : LiveCall) (p : String) : LiveCall :=
  { c with request := { c.request with provider := p } }

def reportUnder (c : ReportCall) (provider : Option String) : ReportCall :=
  { c with report := { c.report with provider := provider } }

section Live

variable {c : LiveCall}

theorem evaluateDecision_under (hp : strip p = strip c.request.provider) (now : ℕ) :
    evaluateDecision settings project (liveUnder c p).request.context now =
      evaluateDecision settings project c.request.context now := by
  have hscope : scopedProjectProviderId project.id (liveUnder c p).request.context.provider =
      scopedProjectProviderId project.id c.request.context.provider :=
    scopedProjectProviderId_congr project.id hp
  have hjudge : ∀ usage cooldownUntilMs,
      judge settings project (liveUnder c p).request.context now usage cooldownUntilMs =
        judge settings project c.request.context now usage cooldownUntilMs := fun _ _ => rfl
  unfold evaluateDecision
  simp only [scoped_normalizedProvider, hscope, hjudge]

theorem scopedId_under (hp : strip p = strip c.request.provider) :
    (liveUnder c p).request.scopedId project = c.request.scopedId project :=
  scopedProjectProviderId_congr project.id hp

/-- A finalized decision that opens or merges a block incident. -/
def Records : LiveStage → Prop
  | .cooled decision finalized =>
    finalized = true ∧ decision.decision = .block ∧ (blockReason decision.reason).isSome = true
  | _ => False

instance : DecidablePred Records := fun stage => by
  cases stage <;> unfold Records <;> infer_instance

theorem recordPreflight_alike (hρ : ∀ q, Function.Injective (ρ q)) (h : BackendsAlike ρ b b')
    (decision : ProtectDecision) (now : ℕ)
    (hname : Records (.cooled decision true) → p = ρ project.id c.request.provider) :
    BackendsAlike ρ (recordPreflightIncidentIfNeeded m project c decision now b)
      (recordPreflightIncidentIfNeeded m project (liveUnder c p) decision now b') := by
  unfold recordPreflightIncidentIfNeeded
  cases hreason : blockReason decision.reason with
  | none => exact h
  | some reason =>
    dsimp only
    by_cases hblock : decision.decision = .block
    · rw [if_pos hblock, if_pos hblock]
      have hrecords : Records (.cooled decision true) := ⟨rfl, hblock, by rw [hreason]; rfl⟩
      simp only [liveUnder, hname hrecords]
      exact h.withIncidents
        (IncidentManager.runs_processProtectBlock m hρ _ b.incidents b'.incidents h.incidents).2
    · rw [if_neg hblock, if_neg hblock]
      exact h

theorem live_alike (settings : ProtectService.Settings) (m : IncidentManager.Manager)
    (hρ : ∀ q, Function.Injective (ρ q)) (hp : strip p = strip c.request.provider)
    (h : BackendsAlike ρ b b') {stage : LiveStage}
    (hsteady : Records stage → p = ρ project.id c.request.provider) (now : ℕ) :
    ((liveUnder c p).step settings m project now stage b').1 =
        (c.step settings m project now stage b).1 ∧
      BackendsAlike ρ (c.step settings m project now stage b).2
        ((liveUnder c p).step settings m project now stage b').2 := by
  have hrequest : (liveUnder c p).request.requestId = c.request.requestId := rfl
  cases stage with
  | waiting =>
    simp only [LiveCall.step, evaluateDecision_under hp, h.redis]
    rcases Redis.run (evaluateDecision settings project c.request.context now) b.redis with
      ⟨e | decision, s⟩
    · exact ⟨rfl, h.withRedis s⟩
    · exact ⟨rfl, h.withRedis s⟩
  | evaluated decision =>
    simp only [LiveCall.step, scopedId_under hp, hrequest, h.redis]
    split
    · exact ⟨rfl, h⟩
    · split
      · exact ⟨rfl, h.withRedis _⟩
      · exact ⟨rfl, h⟩
  | finalized decision finalized =>
    have hlatency : (liveUnder c p).request.latencyMs = c.request.latencyMs := rfl
    have hmember : (liveUnder c p).request.memberId = c.request.memberId := rfl
    simp only [LiveCall.step, scopedId_under hp, hrequest, hlatency, hmember, h.redis]
    exact ⟨trivial, h.withRedis _⟩
  | cooled decision finalized =>
    simp only [LiveCall.step]
    by_cases hfinalized : finalized = true
    · rw [if_pos hfinalized, if_pos hfinalized]
      rw [hfinalized] at hsteady
      exact ⟨rfl, recordPreflight_alike hρ h decision now hsteady⟩
    · rw [if_neg hfinalized, if_neg hfinalized]
      exact ⟨rfl, h⟩
  | ended => exact ⟨rfl, h⟩

end Live

section Report

variable {c : ReportCall} {provider : Option String}

/-- A report that closes block incidents or is merged into them. -/
def Reaches (project : Project) : ReportStage → Prop
  | .cleared outcome => supersedesLiveBlock (fallbackDecision project) outcome = true
  | .reconciled => project.protectEnabled = true ∧ project.protectFailMode = "closed"
  | _ => False

instance (project : Project) : DecidablePred (Reaches project) := fun stage => by
  cases stage <;> unfold Reaches <;> infer_instance

/-- The scope of a report under the other name is the same. -/
def SameScope (provider provider' : Option String) : Prop :=
  ∀ projectId, scopedProjectProviderId projectId (some (orElse provider' "unknown")) =
    scopedProjectProviderId projectId (some (orElse provider "unknown"))

theorem scopedId_reportUnder (hp : SameScope c.report.provider provider) :
    (reportUnder c provider).report.scopedId project = c.report.scopedId project :=
  hp project.id

theorem reportFailClosedBlock_alike (settings : ProtectService.Settings) (project : Project)
    (hp : SameScope c.report.provider provider)
    (h : BackendsAlike ρ b b') (now : ℕ) :
    (ProtectBackend.reportFailClosedBlock settings project (reportUnder c provider) now b').1 =
        (ProtectBackend.reportFailClosedBlock settings project c now b).1 ∧
      BackendsAlike ρ (ProtectBackend.reportFailClosedBlock settings project c now b).2
        (ProtectBackend.reportFailClosedBlock settings project (reportUnder c provider) now b').2 := by
  have hrequest : (reportUnder c provider).report.resolvedRequestId = c.report.resolvedRequestId :=
    rfl
  have hkind : (reportUnder c provider).kind = c.kind := rfl
  simp only [ProtectBackend.reportFailClosedBlock, scopedId_reportUnder hp, hrequest, hkind,
    h.redis]
  split
  · rcases Redis.run (RollingWindow.getProject60s (c.report.scopedId project) now) _ with ⟨e | _, s⟩
    · exact ⟨rfl, h.withRedis s⟩
    · refine ⟨rfl, rfl, h.incidents, ?_⟩
      dsimp only
      rw [h.notices]
  · exact ⟨rfl, h.withRedis _⟩

/-- A step of a report, and the same step under the padded name. -/
theorem report_alike (settings : ProtectService.Settings) (m : IncidentManager.Manager)
    (hρ : ∀ q, Function.Injective (ρ q)) (hp : SameScope c.report.provider provider)
    (h : BackendsAlike ρ b b') {stage : ReportStage}
    (hsteady : Reaches project stage →
      (reportUnder c provider).provider = ρ project.id c.provider) (now : ℕ) :
    ((reportUnder c provider).step settings m project now stage b').1 =
        (c.step settings m project now stage b).1 ∧
      BackendsAlike ρ (c.step settings m project now stage b).2
        ((reportUnder c provider).step settings m project now stage b').2 := by
  have hrequest : (reportUnder c provider).report.resolvedRequestId = c.report.resolvedRequestId :=
    rfl
  have hkind : (reportUnder c provider).kind = c.kind := rfl
  cases stage with
  | waiting =>
    simp only [ReportCall.step, observeFallback, scopedId_reportUnder hp, hrequest, hkind, h.redis]
    split
    · exact ⟨rfl, h.withRedis _⟩
    · exact ⟨rfl, h.withRedis _⟩
  | finalized outcome =>
    simp only [ReportCall.step, scopedId_reportUnder hp, hrequest, h.redis]
    split
    · exact ⟨rfl, h.withRedis _⟩
    · exact ⟨rfl, h⟩
  | cleared outcome =>
    simp only [ReportCall.step]
    by_cases hsupersedes : supersedesLiveBlock (fallbackDecision project) outcome = true
    -- here the name itself is used, so that it has to be a steady one
    · rw [if_pos hsupersedes, if_pos hsupersedes, hrequest, hsteady hsupersedes]
      exact ⟨rfl, h.withIncidents (IncidentManager.runs_reconcile hρ project.id c.provider
        c.report.resolvedRequestId now b.incidents b'.incidents h.incidents).2⟩
    · rw [if_neg hsupersedes, if_neg hsupersedes]
      exact ⟨rfl, h⟩
  | reconciled =>
    simp only [ReportCall.step]
    by_cases hclosed : project.protectEnabled = true ∧ project.protectFailMode = "closed"
    · rw [if_pos hclosed, if_pos hclosed]
      obtain ⟨hflag, hafter⟩ := reportFailClosedBlock_alike settings project hp h now
      have hblock : failClosedBlock project (reportUnder c provider) now =
          (failClosedBlock project c now).renamed ρ := by
        unfold failClosedBlock IncidentManager.BlockCall.renamed
        rw [hsteady hclosed, hrequest, hkind]
        rfl
      rw [hblock]
      -- the two reports answer alike, so they are taken apart together
      generalize ProtectBackend.reportFailClosedBlock settings project c now b = x at hflag hafter ⊢
      generalize ProtectBackend.reportFailClosedBlock settings project (reportUnder c provider) now
        b' = x' at hflag hafter ⊢
      obtain ⟨flag, b₁⟩ := x
      obtain ⟨flag', b₁'⟩ := x'
      obtain rfl : flag' = flag := hflag
      cases flag' with
      | true => exact ⟨rfl, hafter.withIncidents (IncidentManager.runs_processProtectBlock m hρ _
          b₁.incidents b₁'.incidents hafter.incidents).2⟩
      | false => exact ⟨rfl, hafter⟩
    · rw [if_neg hclosed, if_neg hclosed]
      exact ⟨rfl, h⟩
  | ended => exact ⟨rfl, h⟩

theorem sameScope_padded (pad : Padding) (provider : Option String) :
    SameScope provider (provider.map pad.on) := by
  have horElse : ∀ (projectId : String) (q : Option String),
      scopedProjectProviderId projectId (some (orElse q "unknown")) =
        scopedProjectProviderId projectId (some (q.getD "")) := by
    intro projectId q
    cases q with
    | none => rfl
    | some q =>
      by_cases hq : q = ""
      · rw [hq]
        rfl
      · rw [orElse_of_ne hq]
        rfl
  intro projectId
  rw [horElse, horElse]
  cases provider with
  | none => rfl
  | some q => exact scopedProjectProviderId_congr projectId (pad.strip_on q)

end Report

end Protect

section Turns

variable {F : Type} [PyFloat F] (D : Deployment F) (ρ : String → String → String)

/-- The padding leaves the names of a request's next step alone where they matter: a stored event is
found under its name in both runs or in neither, and the names under which incidents are looked for
and written are renamed. -/
def State.Steady (requests : ℕ → Request) (pads : ℕ → Padding) (x : State) (i : ℕ) : Prop :=
  match requests i with
  | .ingest c => c.Steady D ρ ((pads i).on c.provider) (x.ingests i)
  | .decision c =>
    match authenticated c.request.ingestKey c.request.project with
    | none => True
    | some project => Records (x.decisions i) →
        (pads i).on c.request.provider = ρ project.id c.request.provider
  | .fallback c =>
    match authenticated c.report.ingestKey c.report.project with
    | none => True
    | some project => Reaches project (x.fallbacks i) →
        (reportUnder c (c.report.provider.map (pads i).on)).provider = ρ project.id c.provider

instance (c : IngestCall) (p : String) : DecidablePred (c.Steady D ρ p) := fun stage => by
  cases stage <;> unfold IngestCall.Steady <;> infer_instance

instance (requests : ℕ → Request) (pads : ℕ → Padding) (x : State) (i : ℕ) :
    Decidable (x.Steady D ρ requests pads i) := by
  unfold State.Steady
  split
  · infer_instance
  · split <;> infer_instance
  · split <;> infer_instance

/-- States of two runs that stand at the same stages over services that are alike. -/
structure StatesAlike (x x' : State) : Prop where
  service : ServicesAlike ρ x.service x'.service
  ingests : x'.ingests = x.ingests
  decisions : x'.decisions = x.decisions
  fallbacks : x'.fallbacks = x.fallbacks

variable {D ρ} {requests : ℕ → Request} {pads : ℕ → Padding} {x x' : State}

theorem ServicesAlike.backend {w w' : Service} (h : ServicesAlike ρ w w') :
    BackendsAlike ρ w.backend w'.backend :=
  ⟨h.stores.redis, h.incidents, h.notices⟩

theorem ServicesAlike.withBackend {w w' : Service} (h : ServicesAlike ρ w w') {b b' : Backend}
    (hb : BackendsAlike ρ b b') : ServicesAlike ρ (w.withBackend b) (w'.withBackend b') :=
  ⟨⟨hb.redis, h.stores.projectOf, h.stores.increments, h.stores.events⟩, hb.incidents, hb.notices,
    h.models⟩

theorem StatesAlike.turn (hρ : ∀ q, Function.Injective (ρ q)) (h : StatesAlike ρ x x') {i : ℕ}
    (hsteady : x.Steady D ρ requests pads i) (now : ℕ) :
    StatesAlike ρ (x.turn D requests i now)
      (x'.turn D (fun j => (requests j).padded (pads j)) i now) := by
  unfold State.Steady at hsteady
  unfold State.turn
  have hservice := h.service.atTime now
  cases hrequest : requests i with
  | ingest c =>
    rw [hrequest] at hsteady
    obtain ⟨hstage, hafter⟩ := IngestCall.step_alike hρ ((pads i).strip_on c.provider) hservice
      hsteady now
    simp only [hrequest, Request.padded, h.ingests]
    refine ⟨hafter, ?_, h.decisions, h.fallbacks⟩
    exact congrArg (Function.update x.ingests i) hstage
  | decision c =>
    rw [hrequest] at hsteady
    simp only [hrequest, Request.padded]
    cases hproject : authenticated c.request.ingestKey c.request.project with
    | none => exact h
    | some project =>
      simp only [hproject] at hsteady
      obtain ⟨hstage, hafter⟩ := live_alike D.protect D.manager hρ
        ((pads i).strip_on c.request.provider) hservice.backend hsteady now
      simp only [h.decisions]
      refine ⟨hservice.withBackend hafter, h.ingests, ?_, h.fallbacks⟩
      exact congrArg (Function.update x.decisions i) hstage
  | fallback c =>
    rw [hrequest] at hsteady
    simp only [hrequest, Request.padded]
    cases hproject : authenticated c.report.ingestKey c.report.project with
    | none => exact h
    | some project =>
      simp only [hproject] at hsteady
      obtain ⟨hstage, hafter⟩ := report_alike D.protect D.manager hρ
        (sameScope_padded (pads i) c.report.provider) hservice.backend hsteady now
      simp only [h.fallbacks]
      refine ⟨hservice.withBackend hafter, h.ingests, h.decisions, ?_⟩
      exact congrArg (Function.update x.fallbacks i) hstage

variable (D ρ) in
/-- The same of every step of a run. -/
def State.AllSteady (requests : ℕ → Request) (pads : ℕ → Padding) :
    State → List (ℕ × ℕ) → Prop
  | _, [] => True
  | x, (i, now) :: rest =>
    x.Steady D ρ requests pads i ∧ AllSteady requests pads (x.turn D requests i now) rest

variable (D ρ) in
def State.decidableAllSteady (requests : ℕ → Request) (pads : ℕ → Padding) :
    ∀ (x : State) (schedule : List (ℕ × ℕ)), Decidable (x.AllSteady D ρ requests pads schedule)
  | _, [] => isTrue trivial
  | x, (i, now) :: rest =>
    have := State.decidableAllSteady requests pads (x.turn D requests i now) rest
    inferInstanceAs (Decidable (x.Steady D ρ requests pads i ∧ _))

instance (schedule : List (ℕ × ℕ)) : Decidable (x.AllSteady D ρ requests pads schedule) :=
  State.decidableAllSteady D ρ requests pads x schedule

/-- Two runs with the same counts, decisions and signals, and the same incidents up to the text of
the provider. -/
structure State.Agree (x x' : State) : Prop where
  redis : x'.service.stores.redis = x.service.stores.redis
  increments : x'.service.stores.increments = x.service.stores.increments
  ingests : x'.ingests = x.ingests
  decisions : x'.decisions = x.decisions
  fallbacks : x'.fallbacks = x.fallbacks
  notices : x'.service.notices = x.service.notices
  models : x'.service.models = x.service.models
  notifications : x'.service.incidents.notifications = x.service.incidents.notifications
  incidents : Table.Related SameButProvider x.service.incidents.incidents
    x'.service.incidents.incidents

theorem State.Agree.statuses (h : x.Agree x') :
    x'.service.incidents.incidents.rows.map (·.2.status) =
      x.service.incidents.incidents.rows.map (·.2.status) := by
  have hrows : List.Forall₂ _ _ _ := h.incidents
  generalize x'.service.incidents.incidents.rows = rows' at hrows ⊢
  generalize x.service.incidents.incidents.rows = rows at hrows ⊢
  induction hrows with
  | nil => rfl
  | cons hrow _ ih => rw [List.map_cons, List.map_cons, ih, hrow.2.status]

theorem StatesAlike.agree (h : StatesAlike ρ x x') : x.Agree x' where
  redis := h.service.stores.redis
  increments := h.service.stores.increments
  ingests := h.ingests
  decisions := h.decisions
  fallbacks := h.fallbacks
  notices := h.service.notices
  models := h.service.models
  notifications := h.service.incidents.2
  incidents := h.service.incidents.1.imp fun _ _ hrow => ⟨hrow.1, hrow.2.1⟩

theorem StatesAlike.turns (hρ : ∀ q, Function.Injective (ρ q)) (h : StatesAlike ρ x x')
    {schedule : List (ℕ × ℕ)} (hsteady : x.AllSteady D ρ requests pads schedule) :
    StatesAlike ρ (x.turns D requests schedule)
      (x'.turns D (fun j => (requests j).padded (pads j)) schedule) := by
  induction schedule generalizing x x' with
  | nil => exact h
  | cons step rest ih =>
    obtain ⟨i, now⟩ := step
    exact ih (h.turn hρ hsteady.1 now) hsteady.2

theorem StatesAlike.refl
    (hnames : ∀ e ∈ x.service.incidents.incidents.rows, ρ e.2.projectId e.2.provider = e.2.provider) :
    StatesAlike ρ x x := by
  have hincidents : Table.Related (Renamed ρ) x.service.incidents.incidents
      x.service.incidents.incidents := by
    refine Table.Related.refl fun e he => ⟨?_, (hnames e he).symm⟩
    exact ⟨rfl, rfl, rfl, rfl, rfl, rfl, .refl _, .inl ⟨rfl, rfl⟩⟩
  have hevents : List.Forall₂ SameEvent x.service.stores.events x.service.stores.events :=
    List.forall₂_same.mpr fun _ _ => ⟨rfl, rfl, Iff.rfl⟩
  exact ⟨⟨⟨rfl, rfl, rfl, hevents⟩, ⟨hincidents, rfl⟩, rfl, rfl⟩, rfl, rfl, rfl⟩

/-- Whitespace around provider names changes nothing in a run in which it turns no event's name into
one that is found or is no longer found under itself, and in which incidents keep being looked for
under the names that they are written under. -/
theorem padding_changes_nothing (hρ : ∀ projectId, Function.Injective (ρ projectId))
    (hnames : ∀ e ∈ x.service.incidents.incidents.rows, ρ e.2.projectId e.2.provider = e.2.provider)
    {schedule : List (ℕ × ℕ)} (hsteady : x.AllSteady D ρ requests pads schedule) :
    (x.turns D requests schedule).Agree
      (x.turns D (fun i => (requests i).padded (pads i)) schedule) :=
  ((StatesAlike.refl hnames).turns hρ hsteady).agree

end Turns

section Samples

open ProtectBackend

def sampleDeployment : Deployment ℚ where
  ingest := {}
  protect := sampleSettings
  manager := {}
  detectors := {}
  hashKey := id
  projects projectId := if projectId = "p1" then some sampleProject else none

def sampleStart : State where
  service := {
    stores := {
      redis := .empty 0
      projectOf := fun keyHash => if keyHash = "rk_live" then some "p1" else none
      events := []
      increments := [] }
    incidents := { incidents := .empty } }

/-- A failed request to the provider, of 10 tokens. -/
def sampleIngest (id : String) : IngestCall where
  request := {
    payload := { ts := 1, provider := "openai", status := some "error",
                 response := some { totalTokens := some 10 } }
    ingestKey := some "rk_live"
    idempotencyKey := none
    eventId := id
    memberId := id
    madeAt := 1000
    raises := fun _ => none }
  newIds _ := "i-" ++ id

/-- An event, a decision, and a report of the decision's timeout. -/
def sampleRequests : ℕ → Request
  | 0 => .ingest (sampleIngest "e0")
  | 1 => .decision sampleLive
  | _ => .fallback sampleTimeout

def sampleSchedule : List (ℕ × ℕ) :=
  List.replicate 5 (0, 1000) ++ List.replicate 4 (1, 2000) ++ List.replicate 4 (2, 3000)

def failures (i : ℕ) : Request := .ingest (sampleIngest (toString i))

/-- Five failures, as many as make a retry storm. -/
def failureSchedule : List (ℕ × ℕ) :=
  (List.range 5).flatMap fun i => List.replicate 5 (i, 1000 + i)

/-- A space before the name in one of the requests. -/
def spaced (i j : ℕ) : Padding :=
  if j = i then ⟨[' '], [], by simp; rfl⟩ else ⟨[], [], by simp⟩

/-- The report of " openai" leaves the block incident of "openai" open, and the failure of " openai"
is none of the storm's. -/
theorem padded_names_are_missed :
    ¬(sampleStart.turns sampleDeployment sampleRequests sampleSchedule).Agree
        (sampleStart.turns sampleDeployment
          (fun i => (sampleRequests i).padded (spaced 2 i)) sampleSchedule) ∧
      ¬(sampleStart.turns sampleDeployment failures failureSchedule).Agree
        (sampleStart.turns sampleDeployment
          (fun i => (failures i).padded (spaced 0 i)) failureSchedule) := by
  constructor
  · intro h
    exact absurd h.statuses (by decide +kernel)
  · intro h
    exact absurd h.statuses (by decide +kernel)

/-- Up to the recording of its incident a decision may be padded. -/
theorem padding_changes_nothing_sample :
    (sampleStart.turns sampleDeployment sampleRequests (sampleSchedule.take 8)).Agree
      (sampleStart.turns sampleDeployment
        (fun i => (sampleRequests i).padded (spaced 1 i)) (sampleSchedule.take 8)) :=
  padding_changes_nothing (ρ := fun _ => id) (fun _ => Function.injective_id)
    (fun _ he => absurd he (List.not_mem_nil)) (by decide +kernel)

end Samples

end Rheonic.ServiceSteps
