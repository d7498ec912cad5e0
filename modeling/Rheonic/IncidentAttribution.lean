import Rheonic.BackendSteps

namespace Rheonic.ProtectBackend
open CommandProgram Redis Keys PyText ProtectActionStore ProtectService ProtectApi RowTable
open IncidentRepository (Incident Incidents)
open IncidentManager (Manager BlockCall attributedTo mergedEvidence withPreviousReason withCount
  strValue processProtectBlock run_reconcile Reconciled)

/-- A block that has been recorded in an incident. -/
structure Contribution where
  incident : String
  request : Option String
  source : String
  deriving DecidableEq, Repr

/-- A whole call of one of the two endpoints, with what the project is at its time. -/
inductive BackendCall
  | decision (project : Project) (c : LiveCall) (now : ℕ)
  | fallback (project : Project) (q : ReportCall) (now : ℕ)

namespace BackendCall

def request : BackendCall → Option String
  | decision _ c _ => c.request.requestId
  | fallback _ q _ => q.report.resolvedRequestId

def source : BackendCall → String
  | decision _ _ _ => sourceLive
  | fallback _ q _ => q.kind.source

def projectId : BackendCall → String
  | decision project _ _ => project.id
  | fallback project _ _ => project.id

def provider : BackendCall → String
  | decision _ c _ => c.request.provider
  | fallback _ q _ => q.provider

section Serve

variable (settings : Settings) (m : Manager) (w : Backend)

def serve : BackendCall → Backend
  | decision project c now => c.whole settings m project now w
  | fallback project q now => q.whole settings m project now w

/-- Whether the call replaces a live block by an allow. -/
def supersedes : BackendCall → Bool
  | decision _ _ _ => false
  | fallback project q now =>
    match (q.step settings m project now .waiting (w.at now)).1 with
    | .finalized outcome => supersedesLiveBlock (fallbackDecision project) outcome
    | _ => false

end Serve

end BackendCall

/-- The incidents that have counted one more occurrence. -/
def counted (t t' : Incidents) : List String :=
  t'.keys.filter fun id => (t.get id).map Incident.count ≠ (t'.get id).map Incident.count

/-- The backend, with the blocks that its incidents are made of, the last one first, and the
requests whose live block has been superseded. -/
structure History where
  backend : Backend
  contributions : List Contribution := []
  superseded : List (Option String) := []

section History

variable (settings : Settings) (m : Manager)

def History.serve (x : History) (call : BackendCall) : History :=
  let w := call.serve settings m x.backend
  { backend := w
    contributions := (counted x.backend.incidents.incidents w.incidents.incidents).map
      (⟨·, call.request, call.source⟩) ++ x.contributions
    superseded := if call.supersedes settings m x.backend then call.request :: x.superseded
      else x.superseded }

def History.serveAll (x : History) (calls : List BackendCall) : History :=
  calls.foldl (History.serve settings m) x

end History

def History.of (x : History) (id : String) : List Contribution :=
  x.contributions.filter fun k => k.incident = id

section Recorded

variable {m : Manager} {request : Option String} {source : String} {t t' t'' : Incidents}

/-- The row is the same up to its status. -/
structure SameRow (i i' : Incident) : Prop where
  evidence : i'.evidence = i.evidence
  projectId : i'.projectId = i.projectId
  provider : i'.provider = i.provider
  incidentType : i'.incidentType = i.incidentType

theorem SameRow.refl (i : Incident) : SameRow i i := ⟨rfl, rfl, rfl, rfl⟩

/-- Every incident is an old one as it was before, up to its status, or has counted a block of
the request, which its evidence names. -/
def Recorded (request : Option String) (source : String) (t t' : Incidents) : Prop :=
  ∀ id i', t'.get id = some i' → (∃ i, t.get id = some i ∧ SameRow i i') ∨
    (t.get id).map Incident.count ≠ some i'.count ∧
      i'.evidence.get "request_id" = strValue request ∧ i'.evidence.get "source" = .str source

theorem Recorded.refl (t : Incidents) : Recorded request source t t :=
  fun _ i' hi' => .inl ⟨i', hi', .refl i'⟩

theorem evidence_merged {r : BlockCall} (hrequest : r.requestId = request)
    (hsource : r.source = some source) (e : IncidentRepository.Evidence) (n : ℤ) :
    (withCount (e.merge r.evidence) n).get "request_id" = strValue request ∧
      (withCount (e.merge r.evidence) n).get "source" = .str source := by
  subst hrequest
  constructor
  · simp [withCount, IncidentRepository.Evidence.merge, IncidentRepository.Evidence.get,
      BlockCall.evidence]
  · simp [withCount, IncidentRepository.Evidence.merge, IncidentRepository.Evidence.get,
      BlockCall.evidence, hsource, strValue]

theorem evidence_opened {r : BlockCall} (hrequest : r.requestId = request)
    (hsource : r.source = some source) :
    (withCount r.evidence 1).get "request_id" = strValue request ∧
      (withCount r.evidence 1).get "source" = .str source := by
  subst hrequest
  constructor
  · simp [withCount, IncidentRepository.Evidence.merge, IncidentRepository.Evidence.get,
      BlockCall.evidence]
  · simp [withCount, IncidentRepository.Evidence.merge, IncidentRepository.Evidence.get,
      BlockCall.evidence, hsource, strValue]

theorem recorded_update {id : String} {i : Incident} {e : IncidentRepository.Evidence} {now : ℕ}
    (hi : t.get id = some i) (ht : t' = t.update id fun i' => i'.seen e now)
    (hcount : (i.seen e now).count ≠ i.count) (hrequest : e.get "request_id" = strValue request)
    (hsource : e.get "source" = .str source) : Recorded request source t t' := by
  intro id' i' hi'
  rw [ht, Table.get_update] at hi'
  by_cases hid : id' = id
  · subst hid
    rw [if_pos rfl, hi] at hi'
    obtain rfl := Option.some.inj hi'
    refine .inr ⟨?_, hrequest, hsource⟩
    rw [hi, Option.map_some]
    exact fun h => hcount (Option.some.inj h).symm
  · rw [if_neg hid] at hi'
    exact .inl ⟨i', hi', .refl i'⟩

theorem recorded_processProtectBlock {r : BlockCall} (hrequest : r.requestId = request)
    (hsource : r.source = some source) (w : IncidentRepository.World) :
    Recorded request source w.incidents
      (Program.run IncidentRepository.exec (processProtectBlock m r) w).2.incidents := by
  have hupsert : Recorded request source w.incidents
      (Program.run IncidentRepository.exec (IncidentManager.upsert m (r.occurrence m)) w).2.incidents := by
    have h := IncidentManager.run_upsert m (r.occurrence m) w
    generalize Program.run IncidentRepository.exec (IncidentManager.upsert m (r.occurrence m)) w =
      result at h
    obtain ⟨answer, w'⟩ := result
    cases h with
    | seen id i t hfound ht =>
      obtain ⟨hi, -⟩ := IncidentRepository.findOpen_some hfound
      obtain ⟨hr, hs⟩ := evidence_merged hrequest hsource i.evidence (i.count + 1)
      refine recorded_update hi ht ?_ hr hs
      have hcount := (IncidentManager.again_merged i r.evidence r.now).count
      -- the count has grown, so that the incident is not as it was
      exact fun h => by have hsame := h.symm.trans hcount; omega
    | opened t hnone ht =>
      intro id' i' hi'
      rw [Table.get_insert ht] at hi'
      by_cases hid : id' = (r.occurrence m).newId
      · rw [if_pos hid] at hi'
        obtain rfl := Option.some.inj hi'
        have hnew : w.incidents.get id' = none := hid ▸ Table.get_eq_none_of_insert ht
        obtain ⟨hr, hs⟩ := evidence_opened hrequest hsource
        refine .inr ⟨?_, hr, hs⟩
        rw [hnew]
        simp
      · rw [if_neg hid] at hi'
        -- every other incident is as it was
        exact .inl ⟨i', hi', .refl i'⟩
    | taken hid => exact .refl _
  have hmerge : Recorded request source w.incidents
      (Program.run IncidentRepository.exec (IncidentManager.mergeIntoActiveBlock m r) w).2.incidents := by
    have h := (IncidentManager.run_mergeIntoActiveBlock m r w).2
    generalize (Program.run IncidentRepository.exec (IncidentManager.mergeIntoActiveBlock m r) w).2 =
      w' at h
    cases h with
    | none hnone => exact .refl _
    | some id i t hfound ht =>
      obtain ⟨hi, -⟩ := IncidentManager.activeBlock_some hfound
      obtain ⟨hr, hs⟩ := evidence_merged hrequest hsource i.evidence (i.count + 1)
      refine recorded_update hi ht ?_ ?_ ?_
      · have hcount := (IncidentManager.again_mergedBlock i r.reason r.evidence r.now).count
        exact fun h => by have hsame := h.symm.trans hcount; omega
      · rw [IncidentManager.get_withPreviousReason _ _ _ (by decide)]
        exact hr
      · rw [IncidentManager.get_withPreviousReason _ _ _ (by decide)]
        exact hs
  unfold processProtectBlock
  cases r.reason with
  | reqCapBreach => exact hupsert
  | tokCapBreach => exact hupsert
  | cooldownActive => exact hmerge
  | failClosed => exact hmerge
  | other text => exact .refl _

end Recorded

section Calls

variable {settings : Settings} {m : Manager} {project : Project} {c : LiveCall} {q : ReportCall}
  {w : Backend} {now : ℕ} {r : String}

theorem recordPreflightIncidentIfNeeded_recorded (d : ProtectDecision) :
    Recorded c.request.requestId sourceLive w.incidents.incidents
      (recordPreflightIncidentIfNeeded m project c d now w).incidents.incidents := by
  unfold recordPreflightIncidentIfNeeded
  split
  · exact .refl _
  · split
    · exact recorded_processProtectBlock rfl rfl w.incidents
    · exact .refl _

variable (settings m project c now) in
theorem LiveCall.step_recorded (t : Incidents) (e : LiveStage × Backend)
    (h : e.2.incidents.incidents = t ∨
      e.1 = .ended ∧ Recorded c.request.requestId sourceLive t e.2.incidents.incidents) :
    let e' := c.step settings m project now e.1 e.2
    e'.2.incidents.incidents = t ∨
      e'.1 = .ended ∧ Recorded c.request.requestId sourceLive t e'.2.incidents.incidents := by
  obtain ⟨stage, w⟩ := e
  rcases h with h | ⟨rfl, h⟩
  · subst h
    cases stage with
    | waiting =>
      simp only [LiveCall.step]
      rcases run (evaluateDecision settings project c.request.context now) w.redis with
        ⟨_ | _, s⟩ <;> exact .inl rfl
    | evaluated d =>
      simp only [LiveCall.step]
      split
      · exact .inl rfl
      · split
        · exact .inl rfl
        · exact .inl rfl
    | finalized d applied => exact .inl rfl
    | cooled d applied =>
      simp only [LiveCall.step]
      split
      · exact .inr ⟨rfl, recordPreflightIncidentIfNeeded_recorded d⟩
      · exact .inl rfl
    | ended => exact .inl rfl
  · exact .inr ⟨rfl, h⟩

theorem LiveCall.whole_recorded : Recorded c.request.requestId sourceLive w.incidents.incidents
    (c.whole settings m project now w).incidents.incidents := by
  have hstart : (w.at now).incidents.incidents = w.incidents.incidents ∨
      LiveStage.waiting = .ended ∧ Recorded c.request.requestId sourceLive w.incidents.incidents
        (w.at now).incidents.incidents := .inl rfl
  have hstep := LiveCall.step_recorded settings m project c now w.incidents.incidents
  have hend := hstep _ (hstep _ (hstep _ (hstep (.waiting, w.at now) hstart)))
  rcases hend with hsame | ⟨-, hrecorded⟩
  · rw [LiveCall.whole, hsame]
    exact .refl _
  · exact hrecorded

/-- The state before a fallback report tells whether it supersedes a live block: protection is on
and fails open, the stored outcome of the request is a live block, and the store answers. -/
structure Supersedes (project : Project) (q : ReportCall) (r : String) (now : ℕ) (s : Store) :
    Prop where
  enabled : project.protectEnabled = true
  opens : project.protectFailMode ≠ "closed"
  stands : ∃ x, s.lookup (outcomeKey (q.report.scopedId project) r) = some (.text (.json x)) ∧
    parseLast (some (.json x)) = some x ∧ x.source = sourceLive ∧ x.decision = "block"
  answers : Answers (q.report.scopedId project) r (q.payload project now) s

theorem supersedes_iff (hr : r ≠ "") (hq : q.report.resolvedRequestId = some r)
    {outcome : Bool × Option OutcomePayload} {w₁ : Backend}
    (hfirst : q.step settings m project now .waiting (w.at now) = (.finalized outcome, w₁)) :
    supersedesLiveBlock (fallbackDecision project) outcome = true ↔
      Supersedes project q r now (w.redis.advance now) := by
  obtain ⟨finalized, replaced⟩ := outcome
  by_cases henabled : project.protectEnabled = true
  · simp only [ReportCall.step, if_pos henabled, hq, Prod.mk.injEq, ReportStage.finalized.injEq]
      at hfirst
    have hanswer := hfirst.1
    rw [Backend.at] at hanswer
    constructor
    · intro h
      have hopen : project.protectFailMode ≠ "closed" := by
        intro hclosed
        simp [supersedesLiveBlock, fallbackDecision, hclosed] at h
      cases replaced with
      | none => simp [supersedesLiveBlock] at h
      | some x =>
        simp only [supersedesLiveBlock, Bool.and_eq_true, Option.any_some, decide_eq_true_eq] at h
        -- an outcome was replaced, so the call has not failed
        have hok : (answerOf (false, none) (run (finalizeOutcome (q.report.scopedId project)
            (q.payload project now).decision (q.payload project now).reason
            (q.payload project now).source (some r) (q.payload project now).ts)
            (w.redis.advance now))) ≠ (false, none) := by
          rw [ReportCall.payload, hanswer]
          simp
        have hanswers := answers_of_answerOf hok
        obtain ⟨applied, old, s, hrun, hf⟩ := hanswers.finalized hr
        rw [ReportCall.payload] at hrun
        rw [hrun] at hanswer
        obtain ⟨rfl, rfl⟩ := Prod.mk.inj hanswer
        obtain ⟨raw, hraw, hparse⟩ := hf.old_eq
        rw [parseLast_some hparse] at hraw hparse
        exact ⟨henabled, hopen, ⟨x, hraw, hparse, h.2⟩, hanswers⟩
    · intro h
      obtain ⟨applied, old, s, hrun, hf⟩ := h.answers.finalized hr
      rw [ReportCall.payload] at hrun
      rw [hrun] at hanswer
      obtain ⟨rfl, rfl⟩ := Prod.mk.inj hanswer
      obtain ⟨x, hlookup, hparse, hsource, hblock⟩ := h.stands
      obtain ⟨raw, hraw, hold⟩ := hf.old_eq
      -- what the call has read is the live block that stands
      have hjson : raw = some (.json x) := by
        rw [hlookup] at hraw
        cases raw with
        | none => cases hraw
        | some text => rw [Value.text.inj (Option.some.inj hraw)]
      rw [hjson, hparse] at hold
      subst hold
      have happlied := hf.applied_eq
      rw [Option.all_some, shouldReplace_fallback hsource (sourceRank_kind q.kind)] at happlied
      simp [supersedesLiveBlock, happlied, fallbackDecision, h.opens, hsource, hblock]
  -- with protection off nothing is finalized
  · simp only [ReportCall.step, if_neg henabled, Prod.mk.injEq, ReportStage.finalized.injEq]
      at hfirst
    obtain ⟨⟨rfl, rfl⟩, -⟩ := hfirst
    exact ⟨fun h => by simp [supersedesLiveBlock] at h, fun h => absurd h.enabled henabled⟩

/-- The incidents after the finalize and clear steps are those before; then the report reconciles. -/
theorem ReportCall.whole_incidents (settings : Settings) (m : Manager) (project : Project)
    (q : ReportCall) (now : ℕ) (w : Backend) : ∃ outcome w₁ w₃,
    q.step settings m project now .waiting (w.at now) = (.finalized outcome, w₁) ∧
      w₃.incidents = (if supersedesLiveBlock (fallbackDecision project) outcome then
        (Program.run IncidentRepository.exec (IncidentManager.reconcileTimeoutSupersededLiveBlock
          project.id q.provider q.report.resolvedRequestId now) w.incidents).2
        else w.incidents) ∧
      q.whole settings m project now w = (q.step settings m project now .reconciled w₃).2 := by
  obtain ⟨outcome, w₁, w₂, w₃, hfirst, hsecond, hthird, hwhole⟩ :=
    ReportCall.whole_stages settings m project q now w
  have h₁ : w₁.incidents = w.incidents := by
    have hstep := congrArg (fun e => e.2.incidents) hfirst
    simp only [ReportCall.step] at hstep
    split at hstep
    · exact hstep.symm
    · exact hstep.symm
  have h₂ : w₂.incidents = w₁.incidents := by
    have hstep := congrArg (fun e => e.2.incidents) hsecond
    simp only [ReportCall.step] at hstep
    split at hstep
    · exact hstep.symm
    · exact hstep.symm
  refine ⟨outcome, w₁, w₃, hfirst, ?_, hwhole⟩
  have hstep := congrArg (fun e => e.2.incidents) hthird
  simp only [ReportCall.step, h₂, h₁] at hstep
  split at hstep
  · next hsupersedes => rw [if_pos hsupersedes, ← hstep]
  · next hkept => rw [if_neg hkept, ← hstep, h₂, h₁]

theorem truthy_eq_some {requestId : Option String} {r : String}
    (h : truthy requestId = some r) : requestId = some r ∧ r ≠ "" := by
  obtain ⟨hr, hne⟩ := Option.filter_eq_some_iff.mp h
  exact ⟨hr, by simpa using hne⟩

theorem reconcile_sameRow (projectId provider : String) (requestId : Option String)
    (w : IncidentRepository.World) {id : String} {i' : Incident}
    (hi' : (Program.run IncidentRepository.exec
      (IncidentManager.reconcileTimeoutSupersededLiveBlock projectId provider requestId now)
      w).2.incidents.get id = some i') : ∃ i, w.incidents.get id = some i ∧ SameRow i i' := by
  cases htruthy : truthy requestId with
  | none =>
    rw [IncidentManager.reconcileTimeoutSupersededLiveBlock, htruthy] at hi'
    exact ⟨i', hi', .refl i'⟩
  | some r =>
    obtain ⟨rfl, hr⟩ := truthy_eq_some htruthy
    rw [(run_reconcile hr projectId provider now w).2 id] at hi'
    obtain ⟨i, hi, rfl⟩ := Option.map_eq_some_iff.mp hi'
    refine ⟨i, hi, ?_⟩
    split
    · exact ⟨rfl, rfl, rfl, rfl⟩
    · exact .refl i

theorem reconcile_keeps (projectId provider : String) (requestId : Option String)
    (w : IncidentRepository.World) {id : String} {i : Incident} (hi : w.incidents.get id = some i) :
    ∃ i', (Program.run IncidentRepository.exec
      (IncidentManager.reconcileTimeoutSupersededLiveBlock projectId provider requestId now)
      w).2.incidents.get id = some i' ∧ SameRow i i' := by
  cases htruthy : truthy requestId with
  | none =>
    rw [IncidentManager.reconcileTimeoutSupersededLiveBlock, htruthy]
    exact ⟨i, hi, .refl i⟩
  | some r =>
    obtain ⟨rfl, hr⟩ := truthy_eq_some htruthy
    rw [(run_reconcile hr projectId provider now w).2 id, hi]
    refine ⟨_, rfl, ?_⟩
    dsimp only
    split
    · exact ⟨rfl, rfl, rfl, rfl⟩
    · exact .refl i

theorem ReportCall.whole_recorded : Recorded q.report.resolvedRequestId q.kind.source
    w.incidents.incidents (q.whole settings m project now w).incidents.incidents := by
  obtain ⟨outcome, w₁, w₃, -, hincidents, hwhole⟩ :=
    ReportCall.whole_incidents settings m project q now w
  -- reconciling closes incidents, and leaves what is recorded of them
  have hsame : ∀ id i', w₃.incidents.incidents.get id = some i' →
      ∃ i, w.incidents.incidents.get id = some i ∧ SameRow i i' := by
    intro id i' hi'
    rw [hincidents] at hi'
    split at hi'
    · exact reconcile_sameRow _ _ _ _ hi'
    · exact ⟨i', hi', .refl i'⟩
  -- so the record may be taken before or after it
  have hafter : ∀ t, Recorded q.report.resolvedRequestId q.kind.source w₃.incidents.incidents t →
      Recorded q.report.resolvedRequestId q.kind.source w.incidents.incidents t := by
    intro t h id i'' hi''
    rcases h id i'' hi'' with ⟨i', hi', hrow⟩ | ⟨hcount, hnames⟩
    · obtain ⟨i, hi, hrow'⟩ := hsame id i' hi'
      exact .inl ⟨i, hi, hrow.evidence.trans hrow'.evidence, hrow.projectId.trans hrow'.projectId,
        hrow.provider.trans hrow'.provider, hrow.incidentType.trans hrow'.incidentType⟩
    · refine .inr ⟨fun hold => hcount ?_, hnames⟩
      obtain ⟨i, hi, hc⟩ := Option.map_eq_some_iff.mp hold
      have hrow : ∃ i', w₃.incidents.incidents.get id = some i' ∧ SameRow i i' := by
        rw [hincidents]
        split
        · exact reconcile_keeps _ _ _ _ hi
        · exact ⟨i, hi, .refl i⟩
      obtain ⟨i', hi', hrow⟩ := hrow
      rw [hi', Option.map_some, ← hc, Incident.count, Incident.count, hrow.evidence]
  apply hafter
  rw [hwhole]
  simp only [ReportCall.step]
  split
  · have hleaves : ∀ (b : Bool) (w' : Backend),
        reportFailClosedBlock settings project q now w₃ = (b, w') → w'.incidents = w₃.incidents := by
      intro b w' hreport
      have hsecond := congrArg (fun e => e.2.incidents) hreport
      rw [← hsecond]
      exact reportFailClosedBlock_incidents settings project q w₃ now
    split
    · next w' hreport =>
      have hrecorded := recorded_processProtectBlock (m := m) (r := failClosedBlock project q now)
        rfl rfl w'.incidents
      rw [hleaves _ _ hreport] at hrecorded ⊢
      exact hrecorded
    · next w' hreport =>
      rw [hleaves _ _ hreport]
      exact .refl _
  · exact .refl _

variable (settings m) in
theorem BackendCall.serve_recorded (call : BackendCall) : Recorded call.request call.source
    w.incidents.incidents (call.serve settings m w).incidents.incidents := by
  cases call with
  | decision project c now => exact LiveCall.whole_recorded
  | fallback project q now => exact ReportCall.whole_recorded

end Calls

section Own

variable {settings : Settings} {m : Manager} {project : Project} {q : ReportCall} {r : String}
  {now : ℕ} {projectId provider : String} {x : History}

/-- The evidence of every block incident of the scope names the block that it counted last. -/
def Attributed (projectId provider : String) (x : History) : Prop :=
  ∀ id i, x.backend.incidents.incidents.get id = some i → i.projectId = projectId →
    i.provider = provider → i.incidentType = .block → ∃ k rest, x.of id = k :: rest ∧
      i.evidence.get "request_id" = strValue k.request ∧ i.evidence.get "source" = .str k.source

theorem of_serve (call : BackendCall) (id : String) :
    (x.serve settings m call).of id =
      ((counted x.backend.incidents.incidents
        (call.serve settings m x.backend).incidents.incidents).filter fun id' => id' = id).map
          (⟨·, call.request, call.source⟩) ++ x.of id := by
  simp only [History.serve, History.of, List.filter_append, List.filter_map]
  rfl

theorem mem_counted {t t' : Incidents} {id : String} {i' : Incident} (hi' : t'.get id = some i') :
    id ∈ counted t t' ↔ (t.get id).map Incident.count ≠ some i'.count := by
  simp [counted, Table.mem_keys_iff, hi']

theorem Attributed.serve (h : Attributed projectId provider x) (call : BackendCall) :
    Attributed projectId provider (x.serve settings m call) := by
  intro id i' hi' hproject hprovider htype
  rw [of_serve]
  have hnew : (call.serve settings m x.backend).incidents.incidents.get id = some i' := hi'
  have hcounted := mem_counted (t := x.backend.incidents.incidents) hnew
  rcases call.serve_recorded settings m id i' hnew with
    ⟨i, hi, hrow⟩ | ⟨hcount, hrequest, hsource⟩
  · -- not counted, so nothing is added
    have hnot : id ∉ counted x.backend.incidents.incidents
        (call.serve settings m x.backend).incidents.incidents := by
      rw [hcounted, hi, Option.map_some, Incident.count, Incident.count, hrow.evidence]
      simp
    have hnone : (counted x.backend.incidents.incidents
        (call.serve settings m x.backend).incidents.incidents).filter (fun id' => id' = id) = [] := by
      rw [List.filter_eq_nil_iff]
      intro id' hmem heq
      have hid : id' = id := by simpa using heq
      exact hnot (hid ▸ hmem)
    rw [hnone, List.map_nil, List.nil_append, hrow.evidence]
    exact h id i hi (hrow.projectId.symm.trans hproject) (hrow.provider.symm.trans hprovider)
      (hrow.incidentType.symm.trans htype)
  · have hmem : id ∈ (counted x.backend.incidents.incidents
        (call.serve settings m x.backend).incidents.incidents).filter fun id' => id' = id := by
      rw [List.mem_filter]
      exact ⟨hcounted.mpr hcount, by simp⟩
    obtain ⟨id', rest, hcons⟩ := List.exists_cons_of_ne_nil (List.ne_nil_of_mem hmem)
    rw [hcons, List.map_cons, List.cons_append]
    exact ⟨_, _, rfl, hrequest, hsource⟩

theorem Attributed.serveAll (h : Attributed projectId provider x) (calls : List BackendCall) :
    Attributed projectId provider (x.serveAll settings m calls) := by
  induction calls generalizing x with
  | nil => exact h
  | cons call calls ih => exact ih (h.serve call)

def OpenBlock (projectId provider : String) (i : Incident) : Prop :=
  i.projectId = projectId ∧ i.provider = provider ∧ i.status = .open ∧ i.incidentType = .block

/-- A live block of another request, which no fallback has superseded. -/
def Contribution.Foreign (x : History) (r : String) (k : Contribution) : Prop :=
  k.source = sourceLive ∧ k.request ≠ some r ∧ k.request ∉ x.superseded

def Contribution.Own (r : String) (k : Contribution) : Prop :=
  k.request = some r ∧ k.source = sourceLive

/-- The report of `r` leaves open what other requests have a part in, and closes what is its
own. -/
structure OnlyOwn (projectId provider r : String) (x : History) (t' : Incidents) : Prop where
  others : ∀ id i, x.backend.incidents.incidents.get id = some i → OpenBlock projectId provider i →
    (∃ k ∈ x.of id, k.Foreign x r) → ∃ i', t'.get id = some i' ∧ i'.status = .open
  own : ∀ id i, x.backend.incidents.incidents.get id = some i → OpenBlock projectId provider i →
    (∀ k ∈ x.of id, k.Own r) → ∃ i', t'.get id = some i' ∧ i'.status ≠ .open

/-- No open incident that counted a live block of `r` last has counted one of another request as
well, where the report supersedes a live block; and it does where an incident is all its own. -/
structure Separate (project : Project) (q : ReportCall) (r : String) (now : ℕ) (x : History) :
    Prop where
  others : Supersedes project q r now (x.backend.redis.advance now) →
    ∀ id i, x.backend.incidents.incidents.get id = some i →
      Reconciled project.id q.provider r i → ∀ k ∈ x.of id, ¬k.Foreign x r
  own : (∃ id i, x.backend.incidents.incidents.get id = some i ∧
      OpenBlock project.id q.provider i ∧ ∀ k ∈ x.of id, k.Own r) →
    Supersedes project q r now (x.backend.redis.advance now)

theorem attributedTo_iff {i : Incident} : attributedTo r i = true ↔
    i.incidentType = .block ∧ i.evidence.get "request_id" = .str r ∧
      i.evidence.get "source" = .str "live" := by
  simp [attributedTo]

variable (settings m now) in
theorem whole_get (hr : r ≠ "") (hq : q.report.resolvedRequestId = some r)
    (hopen : project.protectFailMode ≠ "closed") (w : Backend) {id : String} {i : Incident}
    (hi : w.incidents.incidents.get id = some i) :
    ∃ i', (q.whole settings m project now w).incidents.incidents.get id = some i' ∧
      (Supersedes project q r now (w.redis.advance now) → Reconciled project.id q.provider r i →
        i'.status ≠ .open) ∧
      (¬(Supersedes project q r now (w.redis.advance now) ∧
        Reconciled project.id q.provider r i) → i' = i) := by
  obtain ⟨outcome, w₁, w₃, hfirst, hincidents, hwhole⟩ :=
    ReportCall.whole_incidents settings m project q now w
  have hiff := supersedes_iff hr hq hfirst
  have hlast : (q.whole settings m project now w).incidents = w₃.incidents := by
    have hclosed : ¬(project.protectEnabled = true ∧ project.protectFailMode = "closed") :=
      fun h => hopen h.2
    rw [hwhole]
    simp only [ReportCall.step, if_neg hclosed]
  rw [hlast, hincidents, hq]
  by_cases hsupersedes : supersedesLiveBlock (fallbackDecision project) outcome = true
  · rw [if_pos hsupersedes, (run_reconcile hr project.id q.provider now w.incidents).2 id, hi,
      Option.map_some]
    refine ⟨_, rfl, fun _ hreconciled => ?_, fun hnot => ?_⟩
    · rw [if_pos hreconciled]
      simp [IncidentRepository.Incident.closed]
    · exact if_neg fun hreconciled => hnot ⟨hiff.mp hsupersedes, hreconciled⟩
  · rw [if_neg hsupersedes]
    exact ⟨i, hi, fun h => absurd (hiff.mpr h) hsupersedes, fun _ => rfl⟩

theorem Attributed.reconciled (h : Attributed projectId provider x) {id : String} {i : Incident}
    (hi : x.backend.incidents.incidents.get id = some i) (hblock : OpenBlock projectId provider i)
    (hown : ∀ k ∈ x.of id, k.Own r) : Reconciled projectId provider r i := by
  obtain ⟨hproject, hprovider, hstatus, htype⟩ := hblock
  obtain ⟨k, rest, hof, hrequest, hsource⟩ := h id i hi hproject hprovider htype
  obtain ⟨hk, hk'⟩ := hown k (by rw [hof]; exact List.mem_cons_self)
  refine ⟨hproject, hprovider, hstatus, attributedTo_iff.mpr ⟨htype, ?_, ?_⟩⟩
  · rw [hrequest, hk]
    rfl
  · rw [hsource, hk']
    rfl

/-- After any calls, a fail-open report of `r` leaves open what other requests have a part in and
closes what is its own, if and only if the incidents are separate. -/
theorem reconciles_only_own_iff (settings : Settings) (m : Manager) (project : Project)
    (q : ReportCall) (r : String) (hr : r ≠ "") (hq : q.report.resolvedRequestId = some r)
    (hopen : project.protectFailMode ≠ "closed") (w : Backend)
    (hstart : ∀ id i, w.incidents.incidents.get id = some i → i.projectId = project.id →
      i.provider = q.provider → i.incidentType ≠ .block)
    (calls : List BackendCall) (now : ℕ) :
    OnlyOwn project.id q.provider r (({ backend := w } : History).serveAll settings m calls)
        (q.whole settings m project now
          (({ backend := w } : History).serveAll settings m calls).backend).incidents.incidents ↔
      Separate project q r now (({ backend := w } : History).serveAll settings m calls) := by
  -- the evidence names the block that was counted last
  have hattributed : Attributed project.id q.provider
      (({ backend := w } : History).serveAll settings m calls) :=
    Attributed.serveAll (fun id i hi hproject hprovider htype =>
      absurd htype (hstart id i hi hproject hprovider)) calls
  generalize ({ backend := w } : History).serveAll settings m calls = x at *
  constructor
  · intro h
    refine ⟨fun hsupersedes id i hi hreconciled k hk hforeign => ?_, ?_⟩
    · obtain ⟨i', hi', hclosed, -⟩ := whole_get settings m now hr hq hopen x.backend hi
      have hblock : OpenBlock project.id q.provider i := ⟨hreconciled.1, hreconciled.2.1,
        hreconciled.2.2.1, (attributedTo_iff.mp hreconciled.2.2.2).1⟩
      obtain ⟨i'', hi'', hstatus⟩ := h.others id i hi hblock ⟨k, hk, hforeign⟩
      rw [hi'] at hi''
      obtain rfl := Option.some.inj hi''
      exact hclosed hsupersedes hreconciled hstatus
    -- an own incident is closed, which only a report that supersedes does
    · rintro ⟨id, i, hi, hblock, hown⟩
      by_contra hnot
      obtain ⟨i', hi', -, hsame⟩ := whole_get settings m now hr hq hopen x.backend hi
      obtain ⟨i'', hi'', hstatus⟩ := h.own id i hi hblock hown
      rw [hi', hsame fun hboth => hnot hboth.1] at hi''
      obtain rfl := Option.some.inj hi''
      exact hstatus hblock.2.2.1
  · intro h
    refine ⟨fun id i hi hblock hforeign => ?_, fun id i hi hblock hown => ?_⟩
    · obtain ⟨k, hk, hforeign⟩ := hforeign
      obtain ⟨i', hi', -, hsame⟩ := whole_get settings m now hr hq hopen x.backend hi
      refine ⟨i', hi', ?_⟩
      rw [hsame fun hboth => h.others hboth.1 id i hi hboth.2 k hk hforeign]
      exact hblock.2.2.1
    · obtain ⟨i', hi', hclosed, -⟩ := whole_get settings m now hr hq hopen x.backend hi
      exact ⟨i', hi', hclosed (h.own ⟨id, i, hi, hblock, hown⟩)
        (hattributed.reconciled hi hblock hown)⟩

end Own

instance (projectId provider : String) (i : Incident) :
    Decidable (OpenBlock projectId provider i) :=
  inferInstanceAs (Decidable (_ ∧ _ ∧ _ ∧ _))

instance (x : History) (r : String) (k : Contribution) : Decidable (k.Foreign x r) :=
  inferInstanceAs (Decidable (_ ∧ _ ∧ _))

/-- A block for the token cap opens an incident, and one during the cooldown is merged into it. -/
def sampleBlocks : List BackendCall :=
  [.decision sampleProject { request := samplePreflight "r0", newId := "i0" } 2000,
    .decision sampleProject sampleLive 3000]

def sampleHistory (calls : List BackendCall) : History :=
  ({ backend := sampleBackend } : History).serveAll sampleSettings {} calls

theorem reconciles_only_own_iff_sample :
    OnlyOwn "p1" "openai" "r1" (sampleHistory sampleBlocks)
        (sampleTimeout.whole sampleSettings {} sampleProject 4000
          (sampleHistory sampleBlocks).backend).incidents.incidents ↔
      Separate sampleProject sampleTimeout "r1" 4000 (sampleHistory sampleBlocks) :=
  reconciles_only_own_iff sampleSettings {} sampleProject sampleTimeout "r1" (by decide) rfl
    (by decide) sampleBackend (fun _ _ hi => by cases hi) sampleBlocks 4000

/-- The incident of `r0` is closed by the report of `r1`, whose block was merged into it. -/
theorem report_closes_foreign_incident :
    ¬OnlyOwn "p1" "openai" "r1" (sampleHistory sampleBlocks)
      (sampleTimeout.whole sampleSettings {} sampleProject 4000
        (sampleHistory sampleBlocks).backend).incidents.incidents := by
  intro h
  have hbefore : ((sampleHistory sampleBlocks).backend.incidents.incidents.get "i0").any
      (fun i => OpenBlock "p1" "openai" i) = true := by decide
  have hforeign : ∃ k ∈ (sampleHistory sampleBlocks).of "i0",
      k.Foreign (sampleHistory sampleBlocks) "r1" :=
    ⟨⟨"i0", some "r0", "live"⟩, by decide, by decide⟩
  have hafter : ((sampleTimeout.whole sampleSettings {} sampleProject 4000
      (sampleHistory sampleBlocks).backend).incidents.incidents.get "i0").all
        (fun i => i.status ≠ .open) = true := by decide
  obtain ⟨i, hi, hblock⟩ := (Option.any_eq_true _ _).mp hbefore
  obtain ⟨i', hi', hopen⟩ := h.others "i0" i hi (by simpa using hblock) hforeign
  rw [hi', Option.all_some] at hafter
  simp [hopen] at hafter

end Rheonic.ProtectBackend
