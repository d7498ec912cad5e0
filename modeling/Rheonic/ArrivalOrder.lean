import Rheonic.WholeCalls

namespace Rheonic.ProtectBackend
open CommandProgram Redis Keys PyText ProtectActionStore ProtectService ProtectApi RowTable
open IncidentRepository (Incident Incidents findOpen listOpen)
open IncidentManager (Manager BlockCall BlockReason Upserted Merged Reconciled activeBlock
  activeBlock_some attributedTo blockFingerprint blockWindowMs mergedEvidence processProtectBlock
  run_mergeIntoActiveBlock run_reconcile run_upsert withCount withPreviousReason)

/-- The open incident that a block would be merged into. -/
def joins (m : Manager) (t : Incidents) (projectId provider : String) (reason : BlockReason)
    (now : ℕ) : Option String :=
  match reason with
  | .reqCapBreach | .tokCapBreach => (findOpen t projectId provider
      (blockFingerprint projectId provider reason) (now - blockWindowMs m)).map Prod.fst
  | .cooldownActive | .failClosed =>
    (activeBlock (now - blockWindowMs m) (listOpen t projectId provider)).map Prod.fst
  | .other _ => none

/-- An open block incident of the scope has this id. -/
def OpenIn (projectId provider : String) (t : Incidents) (id : String) : Prop :=
  ∃ i, t.get id = some i ∧ OpenBlock projectId provider i

/-- One that the live block of the request was not recorded in last. -/
def OpenApart (projectId provider r : String) (t : Incidents) (id : String) : Prop :=
  ∃ i, t.get id = some i ∧ OpenBlock projectId provider i ∧ ¬Reconciled projectId provider r i

section Incidents

variable {m : Manager} {projectId provider r id : String} {t t' : Incidents} {now : ℕ}

theorem reconciled_iff {i : Incident} : Reconciled projectId provider r i ↔
    OpenBlock projectId provider i ∧ i.evidence.get "request_id" = .str r ∧
      i.evidence.get "source" = .str sourceLive := by
  unfold Reconciled OpenBlock
  rw [attributedTo_iff]
  constructor
  · rintro ⟨hproject, hprovider, hstatus, htype, hnames⟩
    exact ⟨⟨hproject, hprovider, hstatus, htype⟩, hnames⟩
  · rintro ⟨⟨hproject, hprovider, hstatus, htype⟩, hnames⟩
    exact ⟨hproject, hprovider, hstatus, htype, hnames⟩

theorem openIn_update {id' : String} {e : IncidentRepository.Evidence}
    (ht : t' = t.update id' fun i' => i'.seen e now) :
    OpenIn projectId provider t' id ↔ OpenIn projectId provider t id := by
  unfold OpenIn
  rw [ht, Table.get_update]
  by_cases hid : id = id'
  · rw [if_pos hid]
    cases t.get id with
    | none => simp
    | some i => simp [OpenBlock, IncidentRepository.Incident.seen]
  · rw [if_neg hid]

theorem openIn_merged {b : BlockCall} {w w' : IncidentRepository.World} (h : Merged m b w w') :
    OpenIn projectId provider w'.incidents id ↔ OpenIn projectId provider w.incidents id := by
  cases h with
  | none hnone => exact Iff.rfl
  | some id' i t hfound ht => exact openIn_update ht

theorem openApart_update {id' : String} {e : IncidentRepository.Evidence}
    (ht : t' = t.update id' fun i' => i'.seen e now) (hrequest : e.get "request_id" = .str r)
    (hsource : e.get "source" = .str sourceLive) :
    OpenApart projectId provider r t' id ↔ OpenApart projectId provider r t id ∧ id ≠ id' := by
  unfold OpenApart
  rw [ht, Table.get_update]
  by_cases hid : id = id'
  · rw [if_pos hid]
    constructor
    · rintro ⟨i', hi', hopen, hapart⟩
      obtain ⟨i, -, rfl⟩ := Option.map_eq_some_iff.mp hi'
      exact absurd (reconciled_iff.mpr ⟨hopen, hrequest, hsource⟩) hapart
    · rintro ⟨-, hne⟩
      exact absurd hid hne
  · rw [if_neg hid]
    exact ⟨fun h => ⟨h, hid⟩, fun h => h.1⟩

theorem upsert_ok_of_found {o : IncidentManager.Occurrence} {w : IncidentRepository.World}
    {found : String × Incident}
    (h : findOpen w.incidents o.projectId o.provider o.fingerprint (o.now - o.windowMs) =
      some found) :
    (Program.run IncidentRepository.exec (IncidentManager.upsert m o) w).1 = .ok () := by
  obtain ⟨id, i⟩ := found
  obtain ⟨hi, hm⟩ := IncidentRepository.findOpen_some h
  have hopen := (IncidentRepository.matchesFingerprint_iff.mp hm).2.2.1
  unfold IncidentManager.upsert
  rw [Program.run_bind_eq _ (IncidentRepository.run_getOpenIncidentByFingerprint w ..), h]
  simp only []
  rw [Program.run_bind_eq _ (IncidentRepository.run_updateOpenIncidentActivity _ _ hi hopen)]
  rfl

theorem openApart_processProtectBlock {b : BlockCall} (hrequest : b.requestId = some r)
    (hsource : b.source = some sourceLive) (hreason : ∀ text, b.reason ≠ .other text)
    (w : IncidentRepository.World) :
    OpenApart projectId provider r
        (Program.run IncidentRepository.exec (processProtectBlock m b) w).2.incidents id ↔
      OpenApart projectId provider r w.incidents id ∧
        joins m w.incidents b.projectId b.provider b.reason b.now ≠ some id := by
  have hupsert : OpenApart projectId provider r
        (Program.run IncidentRepository.exec (IncidentManager.upsert m (b.occurrence m))
          w).2.incidents id ↔
      OpenApart projectId provider r w.incidents id ∧
        (findOpen w.incidents b.projectId b.provider
          (blockFingerprint b.projectId b.provider b.reason) (b.now - blockWindowMs m)).map
            Prod.fst ≠ some id := by
    have h := run_upsert m (b.occurrence m) w
    generalize hrun : Program.run IncidentRepository.exec (IncidentManager.upsert m
      (b.occurrence m)) w = result at h
    obtain ⟨answer, w'⟩ := result
    have hnone : findOpen w.incidents b.projectId b.provider
          (blockFingerprint b.projectId b.provider b.reason) (b.now - blockWindowMs m) = none →
        ((findOpen w.incidents b.projectId b.provider
          (blockFingerprint b.projectId b.provider b.reason) (b.now - blockWindowMs m)).map
            Prod.fst ≠ some id) := by
      intro hnone
      rw [hnone]
      simp
    cases h with
    -- the incident it is seen as becomes one of the request
    | seen id' i t hfound ht =>
      obtain ⟨hr, hs⟩ := evidence_merged hrequest hsource i.evidence (i.count + 1)
      have hjoined : findOpen w.incidents b.projectId b.provider
        (blockFingerprint b.projectId b.provider b.reason) (b.now - blockWindowMs m) =
          some (id', i) := hfound
      rw [openApart_update ht hr hs, hjoined, Option.map_some]
      simp [eq_comm]
    | opened t hfound ht =>
      have hfree := hnone hfound
      obtain ⟨hr, hs⟩ := evidence_opened hrequest hsource
      have hsame : OpenApart projectId provider r t id ↔
          OpenApart projectId provider r w.incidents id := by
        unfold OpenApart
        rw [Table.get_insert ht]
        by_cases hid : id = (b.occurrence m).newId
        · rw [if_pos hid, hid, Table.get_eq_none_of_insert ht]
          constructor
          -- the new incident is one of the request, so it does not count
          · rintro ⟨i, hi, hopen, hapart⟩
            obtain rfl := Option.some.inj hi
            exact absurd (reconciled_iff.mpr ⟨hopen, hr, hs⟩) hapart
          · rintro ⟨i, hi, -⟩
            cases hi
        · rw [if_neg hid]
      exact hsame.trans ⟨fun h => ⟨h, hfree⟩, fun h => h.1⟩
    -- the id is taken, which it cannot be where an incident of the key is active
    | taken htaken =>
      have hfound : findOpen w'.incidents b.projectId b.provider
          (blockFingerprint b.projectId b.provider b.reason) (b.now - blockWindowMs m) = none := by
        cases hfound : findOpen w'.incidents b.projectId b.provider
          (blockFingerprint b.projectId b.provider b.reason) (b.now - blockWindowMs m) with
        | none => rfl
        | some found =>
          have hok := upsert_ok_of_found (o := b.occurrence m) (m := m) hfound
          rw [hrun] at hok
          cases hok
      exact ⟨fun h => ⟨h, hnone hfound⟩, fun h => h.1⟩
  have hmerge : OpenApart projectId provider r
        (Program.run IncidentRepository.exec (IncidentManager.mergeIntoActiveBlock m b)
          w).2.incidents id ↔
      OpenApart projectId provider r w.incidents id ∧
        (activeBlock (b.now - blockWindowMs m) (listOpen w.incidents b.projectId b.provider)).map
          Prod.fst ≠ some id := by
    have h := (run_mergeIntoActiveBlock m b w).2
    generalize (Program.run IncidentRepository.exec (IncidentManager.mergeIntoActiveBlock m b)
      w).2 = w' at h
    cases h with
    | none hnone =>
      rw [hnone]
      simp
    | some id' i t hfound ht =>
      obtain ⟨hr, hs⟩ := evidence_merged hrequest hsource i.evidence (i.count + 1)
      have hne : ∀ key, "previous_reason" ≠ key → (withPreviousReason i b.reason
          (mergedEvidence i b.evidence)).get key = (mergedEvidence i b.evidence).get key :=
        fun key hkey => IncidentManager.get_withPreviousReason i b.reason _ hkey
      rw [openApart_update ht ((hne _ (by decide)).trans hr) ((hne _ (by decide)).trans hs), hfound,
        Option.map_some]
      simp [eq_comm]
  -- a cap opens an incident of its own; a cooldown joins the one that is active
  unfold processProtectBlock joins
  rcases hcase : b.reason with _ | _ | _ | _ | text
  · rw [hcase] at hupsert
    exact hupsert
  · rw [hcase] at hupsert
    exact hupsert
  · exact hmerge
  · exact hmerge
  · exact absurd hcase (hreason text)

variable {settings : Settings} {project : Project} {c : LiveCall} {q : ReportCall} {w : Backend}

variable (settings m) in
/-- A report closes what it supersedes, and neither opens nor closes anything else. -/
theorem ReportCall.whole_openIn (hr : r ≠ "") (hq : q.report.resolvedRequestId = some r)
    (henabled : project.protectEnabled = true)
    (hanswers : Answers (q.report.scopedId project) r (q.payload project now)
      (w.redis.advance now)) (id : String) :
    OpenIn project.id q.provider (q.whole settings m project now w).incidents.incidents id ↔
      if supersedesLiveBlock (fallbackDecision project)
          ((View.of (q.report.scopedId project) r (w.redis.advance now)).accepts
              (q.payload project now),
            (View.of (q.report.scopedId project) r (w.redis.advance now)).outcome) = true then
        OpenApart project.id q.provider r w.incidents.incidents id
      else OpenIn project.id q.provider w.incidents.incidents id := by
  obtain ⟨s', hstep, -⟩ := ReportCall.first_view settings m hr hq henabled
    hanswers
  obtain ⟨outcome, w₁, w₃, hfirst, hincidents, hwhole⟩ :=
    ReportCall.whole_incidents settings m project q now w
  rw [hstep] at hfirst
  obtain ⟨houtcome, -⟩ := Prod.mk.inj hfirst
  obtain rfl := ReportStage.finalized.inj houtcome
  -- the last stage merges at most, which opens and closes nothing
  have hlast : OpenIn project.id q.provider
        (q.whole settings m project now w).incidents.incidents id ↔
      OpenIn project.id q.provider w₃.incidents.incidents id := by
    rw [hwhole]
    by_cases hclosed : project.protectEnabled = true ∧ project.protectFailMode = "closed"
    · have hleaves := reportFailClosedBlock_incidents settings project q w₃ now
      simp only [ReportCall.step, if_pos hclosed]
      rcases hreport : reportFailClosedBlock settings project q now w₃ with ⟨_ | _, w'⟩
      · rw [hreport] at hleaves
        have hsame : w'.incidents = w₃.incidents := hleaves
        simp only [hsame]
      · rw [hreport] at hleaves
        have hsame : w'.incidents = w₃.incidents := hleaves
        simp only [hsame]
        exact openIn_merged (run_failClosedBlock m project q now w₃.incidents)
    · simp only [ReportCall.step, if_neg hclosed]
  rw [hlast, hincidents, hq]
  split
  -- the report takes back what is of its request
  · unfold OpenIn OpenApart
    rw [(run_reconcile hr project.id q.provider now w.incidents).2 id]
    constructor
    · rintro ⟨i', hi', hopen⟩
      obtain ⟨i, hi, rfl⟩ := Option.map_eq_some_iff.mp hi'
      by_cases hreconciled : Reconciled project.id q.provider r i
      · simp only [if_pos hreconciled] at hopen
        exact absurd hopen.2.2.1 (by simp [IncidentRepository.Incident.closed])
      · simp only [if_neg hreconciled] at hopen
        exact ⟨i, hi, hopen, hreconciled⟩
    · rintro ⟨i, hi, hopen, hapart⟩
      refine ⟨i, ?_, hopen⟩
      rw [hi, Option.map_some, if_neg hapart]
  · exact Iff.rfl

/-- The incident that the block of a decision joins. -/
def joined (m : Manager) (t : Incidents) (project : Project) (c : LiveCall) (now : ℕ)
    (d : ProtectDecision) : Option String :=
  (blockReason d.reason).bind fun reason => joins m t project.id c.request.provider reason now

theorem openApart_recorded (hc : c.request.requestId = some r) {d : ProtectDecision}
    (hblock : d.decision = .block) {reason : BlockReason} (hreason : blockReason d.reason = some reason)
    (id : String) :
    OpenApart project.id c.request.provider r
        (recordPreflightIncidentIfNeeded m project c d now w).incidents.incidents id ↔
      OpenApart project.id c.request.provider r w.incidents.incidents id ∧
        joined m w.incidents.incidents project c now d ≠ some id := by
  have hother : ∀ text, reason ≠ .other text := by
    intro text htext
    subst htext
    cases hd : d.reason <;> simp [hd, blockReason] at hreason
  unfold recordPreflightIncidentIfNeeded joined
  simp only [hreason, if_pos hblock, Option.bind_some]
  exact openApart_processProtectBlock hc rfl hother w.incidents

theorem openIn_recorded {d : ProtectDecision}
    (h : d.decision ≠ .block ∨ d.reason = .cooldownActive) (id : String) :
    OpenIn projectId provider
        (recordPreflightIncidentIfNeeded m project c d now w).incidents.incidents id ↔
      OpenIn projectId provider w.incidents.incidents id := by
  unfold recordPreflightIncidentIfNeeded
  split
  · exact Iff.rfl
  · next reason hreason =>
    split
    · next hblock =>
      rcases h with h | h
      · exact absurd hblock h
      · rw [h, blockReason] at hreason
        obtain rfl := Option.some.inj hreason
        exact openIn_merged (run_mergeIntoActiveBlock m _ w.incidents).2
    · exact Iff.rfl

end Incidents

section Judge

variable {settings : Settings} {project : Project} {c : LiveCall} {r : String} {now : ℕ}
  {w : Backend} {d : ProtectDecision}

/-- The time until which a mark says that a scope cools down. -/
def untilOf : Option Value → Option ℤ
  | some (.text t) => ((plainText t).bind parseNumber).filter (0 < ·)
  | _ => none

theorem run_getBlockCooldownUntilMs_eq (p : String) (s : Store) :
    run (getBlockCooldownUntilMs p) s = (.ok (untilOf (s.lookup (cooldownKey p))), s) := by
  unfold getBlockCooldownUntilMs
  rw [run, Program.run_tryCatch]
  cases hlookup : s.lookup (cooldownKey p) with
  | none =>
    have hget : run (get (cooldownKey p)) s = (.ok none, s) := run_get hlookup
    rw [Program.run_bind_eq exec hget]
    rfl
  | some v =>
    cases v with
    | zset z =>
      have hget : Program.run exec (get (cooldownKey p)) s = (.error wrongType, s) := by
        rw [Redis.get, Program.run_perform, exec, hlookup]
      rw [Program.run_bind, hget]
      rfl
    | text t =>
      have hget : run (get (cooldownKey p)) s = (.ok (some t), s) := run_get hlookup
      rw [Program.run_bind_eq exec hget]
      unfold untilOf
      cases hparse : (plainText t).bind parseNumber with
      | none =>
        simp only [hparse]
        rfl
      | some u =>
        simp only [hparse, Option.filter_some]
        by_cases hu : 0 < u <;> simp [hu]

theorem Decides.judged (h : Decides settings project c r now w d) : ∃ usage,
    d = judge settings project c.request.context now usage
      (untilOf (View.of (c.request.scopedId project) r (w.redis.advance now)).mark) := by
  have hevaluated := h.evaluated
  rcases hrun : run (evaluateDecision settings project c.request.context now)
    (w.redis.advance now) with ⟨answer, s'⟩
  rw [hrun] at hevaluated
  obtain rfl : answer = .ok d := hevaluated
  unfold evaluateDecision at hrun
  rw [scoped_normalizedProvider] at hrun
  obtain ⟨⟨requests60s, tokens60s⟩, s₁, hwindow, hrest⟩ := run_bind_ok hrun
  simp only [if_pos h.enabled] at hrest
  obtain ⟨cooldownUntilMs, s₂, hcooldown, hpure⟩ := run_bind_ok hrest
  have hkey : Watched (c.request.scopedId project) (cooldownKey (c.request.scopedId project)) :=
    .inr (.inl rfl)
  have hentry := run_entry_ne (RollingWindow.getProject60s_issues (c.request.scopedId project) now)
    (fun cmd hcmd => by
      rcases hcmd with hcmd | hcmd
      · rw [hcmd]
        exact hkey.ne_requests60sKey
      · rw [hcmd]
        exact hkey.ne_tokens60sKey) (w.redis.advance now)
  have hsame : s₁.lookup (cooldownKey (c.request.scopedId project)) =
      (w.redis.advance now).lookup (cooldownKey (c.request.scopedId project)) := by
    have hs₁ := congrArg Prod.snd hwindow
    rw [← show _ = s₁ from hs₁]
    exact lookup_eq_of_entry hentry.1 hentry.2
  have hread := (run_getBlockCooldownUntilMs_eq (c.request.scopedId project) s₁).symm.trans hcooldown
  rw [hsame] at hread
  obtain ⟨hanswer, -⟩ := Prod.mk.inj hread
  refine ⟨⟨requests60s, tokens60s⟩, ?_⟩
  rw [show (View.of (c.request.scopedId project) r (w.redis.advance now)).mark =
    (w.redis.advance now).lookup (cooldownKey (c.request.scopedId project)) from rfl,
    Except.ok.inj hanswer]
  exact (Except.ok.inj (Prod.mk.inj hpure).1).symm

/-- A decision is a block in the cooldown, a block for a cap, or none. -/
inductive Judged (now : ℕ) (cooldownUntilMs : Option ℤ) (d : ProtectDecision) : Prop
  | cooling (hactive : cooldownUntilMs.any ((now : ℤ) < ·) = true) (hblock : d.decision = .block)
      (hreason : d.reason = .cooldownActive)
  | breach (hidle : cooldownUntilMs.any ((now : ℤ) < ·) = false) (hblock : d.decision = .block)
      (hreason : d.reason = .tokCapBreach ∨ d.reason = .reqCapBreach) (untilMs seconds : ℤ)
      (htimes : capBreachTimes d = some (untilMs, seconds)) (hlater : (now : ℤ) < untilMs)
  | admitted (hidle : cooldownUntilMs.any ((now : ℤ) < ·) = false) (hblock : d.decision ≠ .block)

theorem judged_judge (settings : Settings) (project : Project) (ctx : ProtectDecisionContext)
    (now : ℕ) (usage : Usage) (cooldownUntilMs : Option ℤ) :
    Judged now cooldownUntilMs (judge settings project ctx now usage cooldownUntilMs) := by
  have hlater : (now : ℤ) < now + max settings.protectBlockCooldownSeconds 1 * 1000 := by omega
  unfold judge
  cases hfilter : cooldownUntilMs.filter ((now : ℤ) < ·) with
  | some untilMs =>
    obtain ⟨rfl, hactive⟩ := Option.filter_eq_some_iff.mp hfilter
    exact .cooling (by simpa using hactive) rfl rfl
  | none =>
    have hidle : cooldownUntilMs.any ((now : ℤ) < ·) = false := by
      cases cooldownUntilMs with
      | none => rfl
      | some untilMs => simpa [Option.filter_some] using hfilter
    simp only []
    split
    · exact .breach hidle rfl (.inl rfl) _ _ rfl hlater
    · split
      · exact .breach hidle rfl (.inr rfl) _ _ rfl hlater
      · exact .admitted hidle withinCaps_ne_block

end Judge

namespace View

variable (now : ℕ) (v : View) (payload : OutcomePayload) (r : String) (project : Project)

/-- The owner of the cooldown, as long as it lasts. -/
def cooldown : Option (Option Value) :=
  if (untilOf v.mark).any ((now : ℤ) < ·) then some v.owner else none

/-- A live block stands as the outcome of the request. -/
def liveBlock : Bool := v.outcome.any fun x => x.source = sourceLive && x.decision = "block"

/-- A report of the payload lifts what a live block has set. -/
def lifts : Bool :=
  supersedesLiveBlock (fallbackDecision project) (v.accepts payload, v.outcome)

variable {now v payload r project}

variable (project) in
theorem lifts_iff (haccepts : v.accepts payload = true) :
    v.lifts payload project = true ↔ project.protectFailMode ≠ "closed" ∧ v.liveBlock = true := by
  unfold lifts supersedesLiveBlock liveBlock fallbackDecision
  by_cases hclosed : project.protectFailMode = "closed"
  · simp [hclosed]
  · simp [hclosed, haccepts]

theorem reported_outcome : (v.reported payload r project).outcome = (v.finalized payload).outcome := by
  unfold reported cleared
  split
  · split <;> rfl
  · rfl

theorem reported_count : (v.reported payload r project).count = (v.finalized payload).count := by
  unfold reported cleared
  split
  · split <;> rfl
  · rfl

theorem cooled_outcome (d : ProtectDecision) : (v.cooled r d).outcome = v.outcome := by
  unfold cooled
  split <;> rfl

theorem cooled_count (d : ProtectDecision) : (v.cooled r d).count = v.count := by
  unfold cooled
  split <;> rfl

theorem cooldown_reported : (v.reported payload r project).cooldown now =
    if v.lifts payload project = true ∧ v.owner = some (.text (.str r)) then none
    else v.cooldown now := by
  unfold reported
  by_cases hlifts : v.lifts payload project = true
  · have hif : supersedesLiveBlock (fallbackDecision project) (v.accepts payload, v.outcome) = true :=
      hlifts
    rw [if_pos hif]
    unfold cleared
    by_cases howner : v.owner = some (.text (.str r))
    · have howner' : (v.finalized payload).owner = some (.text (.str r)) := howner
      rw [if_pos howner', if_pos ⟨hlifts, howner⟩]
      simp [cooldown, untilOf]
    · have howner' : ¬(v.finalized payload).owner = some (.text (.str r)) := howner
      rw [if_neg howner', if_neg fun h => howner h.2]
      rfl
  · have hif : ¬supersedesLiveBlock (fallbackDecision project)
        (v.accepts payload, v.outcome) = true := hlifts
    rw [if_neg hif, if_neg fun h => hlifts h.1]
    rfl

end View

/-- The same outcome up to its time, and the same counters. -/
structure SameTally (p r : String) (a b : Backend) : Prop where
  outcome : (View.of p r a.redis).outcome.map (fun x => { x with ts := 0 }) =
    (View.of p r b.redis).outcome.map fun x => { x with ts := 0 }
  counters : (View.of p r a.redis).count = (View.of p r b.redis).count

/-- The same outcome, counters, cooldown and open block incidents. -/
structure SameEnd (p projectId provider r : String) (now : ℕ) (a b : Backend) : Prop
    extends SameTally p r a b where
  cooldown : (View.of p r a.redis).cooldown now = (View.of p r b.redis).cooldown now
  incidents : ∀ id, OpenIn projectId provider a.incidents.incidents id ↔
    OpenIn projectId provider b.incidents.incidents id

/-- Nothing that the accepted decision leaves stays, and nothing else goes, when its report
comes second instead of first. -/
structure OrderFree (m : Manager) (project : Project) (c : LiveCall) (r : String) (now : ℕ)
    (w : Backend) (d : ProtectDecision) : Prop where
  closed : project.protectFailMode = "closed" → capBreachTimes d = none
  cooldown : project.protectFailMode ≠ "closed" → d.reason = .cooldownActive →
    d.decision = .block →
    (View.of (c.request.scopedId project) r (w.redis.advance now)).owner = some (.text (.str r)) →
      (View.of (c.request.scopedId project) r (w.redis.advance now)).liveBlock = true
  incidents : project.protectFailMode ≠ "closed" → ∀ id i,
    w.incidents.incidents.get id = some i → OpenBlock project.id c.request.provider i →
      ((d.decision = .block ∧ (Reconciled project.id c.request.provider r i ∨
          joined m w.incidents.incidents project c now d = some id)) ↔
        (View.of (c.request.scopedId project) r (w.redis.advance now)).liveBlock = true ∧
          Reconciled project.id c.request.provider r i)

section Order

variable {settings : Settings} {m : Manager} {project : Project} {c : LiveCall} {q : ReportCall}
  {r : String} {w : Backend} {now : ℕ} {d : ProtectDecision}

theorem Verdict.text_eq_block {verdict : Verdict} : verdict.text = "block" ↔ verdict = .block := by
  cases verdict <;> simp [Verdict.text]

variable (project q now) in
theorem sourceRank_payload : sourceRank (q.payload project now).source = 2 := sourceRank_kind q.kind

variable (project q) in
theorem accepts_fallback {v : View} (h : v.accepts (LiveCall.payload d now) = true) :
    v.accepts (q.payload project now) = true := by
  unfold View.accepts at h ⊢
  cases hx : v.outcome with
  | none => rfl
  | some x =>
    rw [hx, Option.all_some] at h
    rw [Option.all_some]
    have hlive : sourceRank (LiveCall.payload d now).source = 1 :=
      show sourceRank sourceLive = 1 by decide
    have hfallback := sourceRank_payload project q now
    have hlow : sourceRank x.source ≤ 1 := by
      by_contra hhigh
      unfold shouldReplaceOutcome at h
      rw [if_pos (by omega)] at h
      cases h
    unfold shouldReplaceOutcome
    rw [if_neg (by omega), if_pos (by omega)]

theorem refuses_of_reported {v : View} (d : ProtectDecision) :
    (v.reported (q.payload project now) r project).accepts (LiveCall.payload d now) = false := by
  have hrefuse : ∀ x : OutcomePayload, sourceRank x.source = 2 →
      shouldReplaceOutcome x (LiveCall.payload d now) = false := fun x hx => shouldReplace_live rfl hx
  unfold View.accepts
  rw [View.reported_outcome]
  by_cases haccepts : v.accepts (q.payload project now) = true
  · simp only [View.finalized, if_pos haccepts, Option.all_some]
    exact hrefuse _ (sourceRank_payload _ _ _)
  · simp only [View.finalized, if_neg haccepts]
    unfold View.accepts at haccepts
    cases hx : v.outcome with
    | none =>
      rw [hx] at haccepts
      exact absurd rfl haccepts
    | some x =>
      rw [hx, Option.all_some] at haccepts
      rw [Option.all_some]
      apply hrefuse
      have hle := sourceRank_le x.source
      have hfallback := sourceRank_payload project q now
      by_contra hne
      unfold shouldReplaceOutcome at haccepts
      rw [if_neg (by omega), if_pos (by omega)] at haccepts
      exact haccepts rfl

variable (project q r) in
theorem finalized_twice {v : View} (haccepted : v.accepts (LiveCall.payload d now) = true)
    (hcounts : ∀ f n, v.count f = some n → 0 ≤ n) :
    ((((v.finalized (LiveCall.payload d now)).cooled r d).reported (q.payload project now) r
          project).outcome = (v.reported (q.payload project now) r project).outcome) ∧
      (((v.finalized (LiveCall.payload d now)).cooled r d).reported (q.payload project now) r
          project).count = (v.reported (q.payload project now) r project).count := by
  have haccepts := accepts_fallback project q haccepted
  have houtcome : ((v.finalized (LiveCall.payload d now)).cooled r d).outcome =
      some (LiveCall.payload d now) := by
    rw [View.cooled_outcome, View.finalized, if_pos haccepted]
  have hagain : ((v.finalized (LiveCall.payload d now)).cooled r d).accepts
      (q.payload project now) = true := by
    rw [View.accepts, houtcome, Option.all_some]
    exact shouldReplace_fallback rfl (sourceRank_payload _ _ _)
  have hcount : ((v.finalized (LiveCall.payload d now)).cooled r d).count =
      fun f => (v.count f).map (moved true v.outcome (LiveCall.payload d now) f.1) := by
    rw [View.cooled_count, View.finalized, haccepted]
  rw [View.reported_outcome, View.reported_outcome, View.reported_count, View.reported_count]
  generalize (v.finalized (LiveCall.payload d now)).cooled r d = v' at *
  constructor
  · simp only [View.finalized, if_pos haccepts, if_pos hagain]
  · simp only [View.finalized, haccepts, hagain]
    funext f
    simp only [hcount, houtcome]
    cases hf : v.count f with
    | none => rfl
    | some n =>
      simp only [Option.map_some, moved_twice (hcounts f n hf)]

theorem not_lifts_of_closed {v : View} {payload : OutcomePayload}
    (hclosed : project.protectFailMode = "closed") : ¬v.lifts payload project = true := by
  simp [View.lifts, supersedesLiveBlock, fallbackDecision, hclosed]

variable (project q r) in
theorem lifts_decided {v : View} (haccepted : v.accepts (LiveCall.payload d now) = true) :
    ((v.finalized (LiveCall.payload d now)).cooled r d).lifts (q.payload project now) project =
      true ↔ project.protectFailMode ≠ "closed" ∧ d.decision = .block := by
  have houtcome : ((v.finalized (LiveCall.payload d now)).cooled r d).outcome =
      some (LiveCall.payload d now) := by
    rw [View.cooled_outcome, View.finalized, if_pos haccepted]
  have hblock : ((v.finalized (LiveCall.payload d now)).cooled r d).liveBlock = true ↔
      d.decision = .block := by
    rw [View.liveBlock, houtcome]
    simp [LiveCall.payload, Verdict.text_eq_block]
  rw [View.lifts_iff _, hblock]
  rw [View.accepts, houtcome, Option.all_some]
  exact shouldReplace_fallback rfl (sourceRank_payload _ _ _)

variable (project q r) in
theorem cooldown_twice {v : View} (haccepted : v.accepts (LiveCall.payload d now) = true)
    (hjudged : Judged now (untilOf v.mark) d) :
    (((v.finalized (LiveCall.payload d now)).cooled r d).reported (q.payload project now) r
          project).cooldown now = (v.reported (q.payload project now) r project).cooldown now ↔
      (project.protectFailMode = "closed" → capBreachTimes d = none) ∧
        (project.protectFailMode ≠ "closed" → d.reason = .cooldownActive → d.decision = .block →
          v.owner = some (.text (.str r)) → v.liveBlock = true) := by
  have hsecond := View.lifts_iff project (accepts_fallback project q haccepted)
  have hfirst := lifts_decided project q r haccepted
  have hidle : (untilOf v.mark).any ((now : ℤ) < ·) = false →
      (v.reported (q.payload project now) r project).cooldown now = none := by
    intro h
    rw [View.cooldown_reported, View.cooldown, h]
    simp
  have huncooled : capBreachTimes d = none →
      (v.finalized (LiveCall.payload d now)).cooled r d = v.finalized (LiveCall.payload d now) := by
    intro h
    rw [View.cooled, h]
  rw [View.cooldown_reported]
  cases hjudged with
  -- a cooldown runs already, and the decision sets none
  | cooling hactive hdecision hreason =>
    have hnone : capBreachTimes d = none := by
      simp [capBreachTimes, hreason]
    have hcooling : v.cooldown now = some v.owner := by rw [View.cooldown, if_pos hactive]
    rw [View.cooldown_reported]
    simp only [hfirst, hsecond]
    simp only [huncooled hnone]
    have howner : (v.finalized (LiveCall.payload d now)).owner = v.owner := rfl
    have hsame : (v.finalized (LiveCall.payload d now)).cooldown now = v.cooldown now := rfl
    rw [howner, hsame, hcooling]
    by_cases hclosed : project.protectFailMode = "closed"
    · simp [hclosed, hnone]
    -- the report takes it back where it is owned by the request
    · by_cases howned : v.owner = some (.text (.str r))
      · by_cases hlive : v.liveBlock = true
        · simp [hclosed, howned, hlive, hdecision, hnone]
        · simp [hclosed, howned, hlive, hdecision, hreason]
      · simp [hclosed, howned]
  -- the decision sets a cooldown, which only a project that fails closed keeps
  | breach hinactive hdecision hreason untilMs seconds htimes hlater =>
    have hcooled : (v.finalized (LiveCall.payload d now)).cooled r d =
        { v.finalized (LiveCall.payload d now) with
          mark := some (number untilMs)
          owner := some (.text (.str r)) } := by
      rw [View.cooled, htimes]
    have hpos : 0 < untilMs := by omega
    have huntil : untilOf (some (number untilMs)) = some untilMs := by
      simp only [untilOf, number, plainText, Option.bind_some, parseNumber_toString,
        Option.filter_some]
      rw [if_pos (by simpa using hpos)]
    have hne : d.reason ≠ .cooldownActive := by
      rcases hreason with hreason | hreason <;> simp [hreason]
    rw [hidle hinactive]
    simp only [hfirst]
    simp only [hcooled]
    by_cases hclosed : project.protectFailMode = "closed"
    · simp [hclosed, View.cooldown, huntil, hlater, htimes]
    · simp [hclosed, hdecision, hne]
  -- no cooldown before or after
  | admitted hinactive hdecision =>
    have hnone : capBreachTimes d = none := by
      simp [capBreachTimes, hdecision]
    rw [hidle hinactive]
    simp only [hfirst]
    simp only [huncooled hnone]
    have hsame : (v.finalized (LiveCall.payload d now)).cooldown now = none := by
      rw [View.cooldown]
      have hmark : (v.finalized (LiveCall.payload d now)).mark = v.mark := rfl
      rw [hmark, hinactive]
      simp
    simp [hsame, hdecision, hnone]

theorem Decides.unique {d' : ProtectDecision} (h : Decides settings project c r now w d)
    (h' : Decides settings project c r now w d') : d' = d :=
  Except.ok.inj (h'.evaluated.symm.trans h.evaluated)

variable (r now) in
theorem observeFallback_congr {p : String} (hscope : q.report.scopedId project = p) {s t : Store}
    (hkeeps : Keeps p s t) :
    View.of p r (run (observeFallback project q now) t).2 =
      View.of p r (run (observeFallback project q now) s).2 := by
  subst hscope
  cases hkind : q.kind with
  | unavailable =>
    have hidle : observeFallback project q now = pure () := by simp [observeFallback, hkind]
    rw [hidle]
    exact hkeeps.view
  | timeout =>
    have hcount : observeFallback project q now = recordTimeoutFallback (q.report.scopedId project)
        q.report.resolvedRequestId now := by simp [observeFallback, hkind]
    have hissues : Program.Issues (fun cmd => Watched (q.report.scopedId project) cmd.key)
        (observeFallback project q now) := by
      rw [hcount]
      apply Program.Issues.tryCatch
      · refine Program.Issues.bind ?_ fun _ => ?_
        · have hkey : Watched (q.report.scopedId project) (timeoutKey (q.report.scopedId project)) :=
            watched_field .timeout
          refine Program.Issues.bind (.perform hkey) fun value => ?_
          exact .ite (fun _ => .bind (.perform hkey) fun _ => .pure _) fun _ => .pure _
        · have hkey : Watched (q.report.scopedId project)
              (timeoutEventsKey (q.report.scopedId project)) := watched_field .timeoutEvents
          refine whenRequestId_issues _ fun _ => ?_
          refine Program.Issues.bind (.perform hkey) fun _ => ?_
          exact .bind (.perform hkey) fun _ => .pure _
      · intro _
        exact .pure _
    obtain ⟨-, hlookup⟩ := run_congr hissues fun k hk => hkeeps.lookup hk
    have houtcome := hlookup (outcomeKey (q.report.scopedId project) r)
      (watched_field (.outcome r))
    simp only [View.of, View.mk.injEq]
    refine ⟨congrArg readOutcome houtcome, ?_, hlookup _ (.inr (.inl rfl)),
      hlookup _ (.inr (.inr rfl))⟩
    funext f
    exact congrArg counterOf (hlookup _ (watched_field f.1))

/-- The incidents come out alike. -/
theorem incidents_twice (hc : c.request.requestId = some r) {v : View}
    (haccepted : v.accepts (LiveCall.payload d now) = true)
    (hjudged : Judged now (untilOf v.mark) d) (hopen : project.protectFailMode ≠ "closed") :
    (∀ id, (if ((v.finalized (LiveCall.payload d now)).cooled r d).lifts (q.payload project now)
          project = true then
          OpenApart project.id c.request.provider r
            (recordPreflightIncidentIfNeeded m project c d now w).incidents.incidents id
        else OpenIn project.id c.request.provider
            (recordPreflightIncidentIfNeeded m project c d now w).incidents.incidents id) ↔
        if v.lifts (q.payload project now) project = true then
          OpenApart project.id c.request.provider r w.incidents.incidents id
        else OpenIn project.id c.request.provider w.incidents.incidents id) ↔
      ∀ id i, w.incidents.incidents.get id = some i → OpenBlock project.id c.request.provider i →
        ((d.decision = .block ∧ (Reconciled project.id c.request.provider r i ∨
            joined m w.incidents.incidents project c now d = some id)) ↔
          v.liveBlock = true ∧ Reconciled project.id c.request.provider r i) := by
  have hfirst := lifts_decided project q r haccepted
  have hsecond := View.lifts_iff project (accepts_fallback project q haccepted)
  simp only [hopen, ne_eq, not_false_eq_true, true_and] at hfirst hsecond
  simp only [hfirst, hsecond]
  -- what the decision and then the report leave open
  have hleft : ∀ id, (if d.decision = .block then
        OpenApart project.id c.request.provider r
          (recordPreflightIncidentIfNeeded m project c d now w).incidents.incidents id
      else OpenIn project.id c.request.provider
          (recordPreflightIncidentIfNeeded m project c d now w).incidents.incidents id) ↔
      ∃ i, w.incidents.incidents.get id = some i ∧ OpenBlock project.id c.request.provider i ∧
        ¬(d.decision = .block ∧ (Reconciled project.id c.request.provider r i ∨
          joined m w.incidents.incidents project c now d = some id)) := by
    intro id
    by_cases hblock : d.decision = .block
    · obtain ⟨reason, hreason⟩ : ∃ reason, blockReason d.reason = some reason := by
        cases hjudged with
        | cooling _ _ hreason => exact ⟨_, by rw [hreason]; rfl⟩
        | breach _ _ hreason =>
          rcases hreason with hreason | hreason
          · exact ⟨_, by rw [hreason]; rfl⟩
          · exact ⟨_, by rw [hreason]; rfl⟩
        | admitted _ hne => exact absurd hblock hne
      rw [if_pos hblock, openApart_recorded hc hblock hreason]
      unfold OpenApart
      constructor
      · rintro ⟨⟨i, hi, hopen, hapart⟩, hjoined⟩
        exact ⟨i, hi, hopen, fun h => h.2.elim hapart hjoined⟩
      · rintro ⟨i, hi, hopen, hnot⟩
        exact ⟨⟨i, hi, hopen, fun h => hnot ⟨hblock, .inl h⟩⟩, fun h => hnot ⟨hblock, .inr h⟩⟩
    · rw [if_neg hblock, openIn_recorded (.inl hblock)]
      simp [OpenIn, hblock]
  -- what the report alone leaves open
  have hright : ∀ id, (if v.liveBlock = true then
        OpenApart project.id c.request.provider r w.incidents.incidents id
      else OpenIn project.id c.request.provider w.incidents.incidents id) ↔
      ∃ i, w.incidents.incidents.get id = some i ∧ OpenBlock project.id c.request.provider i ∧
        ¬(v.liveBlock = true ∧ Reconciled project.id c.request.provider r i) := by
    intro id
    by_cases hlive : v.liveBlock = true
    · simp [hlive, OpenApart]
    · simp [hlive, OpenIn]
  constructor
  · intro h id i hi hblock
    -- both sides are about one open incident, so the exceptions agree
    have hid := ((hleft id).symm.trans (h id)).trans (hright id)
    simp only [hi, Option.some.injEq, exists_eq_left', hblock, true_and] at hid
    exact not_iff_not.mp hid
  · intro h id
    rw [hleft, hright]
    constructor
    · rintro ⟨i, hi, hblock, hnot⟩
      exact ⟨i, hi, hblock, fun hgone => hnot ((h id i hi hblock).mpr hgone)⟩
    · rintro ⟨i, hi, hblock, hnot⟩
      exact ⟨i, hi, hblock, fun hgone => hnot ((h id i hi hblock).mp hgone)⟩

/-- How the two calls end: with a view of Redis, and with the block incidents that remain open. -/
structure EndsAt (project : Project) (c : LiveCall) (r : String) (a : Backend) (v : View)
    (remains : String → Prop) : Prop where
  view : View.of (c.request.scopedId project) r a.redis = v
  incidents : ∀ id, OpenIn project.id c.request.provider a.incidents.incidents id ↔ remains id

variable (now) in
theorem EndsAt.sameEnd {a b : Backend} {v : View} {remains : String → Prop}
    (h : EndsAt project c r a v remains) (h' : EndsAt project c r b v remains) :
    SameEnd (c.request.scopedId project) project.id c.request.provider r now a b where
  outcome := by rw [h.view, h'.view]
  counters := by rw [h.view, h'.view]
  cooldown := by rw [h.view, h'.view]
  incidents id := (h.incidents id).trans (h'.incidents id).symm

/-- What remains open of some incidents where a report finds a view. -/
def remains (project : Project) (c : LiveCall) (q : ReportCall) (r : String) (now : ℕ) (v : View)
    (t : Incidents) (id : String) : Prop :=
  if v.lifts (q.payload project now) project = true then
    OpenApart project.id c.request.provider r t id
  else OpenIn project.id c.request.provider t id

section Ends

variable (settings m w now)
variable (hr : r ≠ "") (hc : c.request.requestId = some r)
  (hq : q.report.resolvedRequestId = some r) (hprovider : q.provider = c.request.provider)
include hr hq hprovider

/-- A report of the request ends with what it makes of the view that it finds. -/
theorem report_ends (henabled : project.protectEnabled = true)
    (hanswers : Answers (c.request.scopedId project) r (q.payload project now)
      (w.redis.advance now)) :
    (q.whole settings m project now w).redis.clock = now ∧
      EndsAt project c r (q.whole settings m project now w)
        ((View.of (c.request.scopedId project) r (w.redis.advance now)).reported
          (q.payload project now) r project)
        (remains project c q r now (View.of (c.request.scopedId project) r (w.redis.advance now))
          w.incidents.incidents) := by
  have hscope : q.report.scopedId project = c.request.scopedId project :=
    scopedId_report hprovider
  obtain ⟨hclock, hview⟩ := ReportCall.whole_view settings m hr hq henabled (hscope ▸ hanswers)
  have hopen := ReportCall.whole_openIn m settings hr hq henabled (hscope ▸ hanswers)
  rw [hscope] at hview hopen
  rw [hprovider] at hopen
  exact ⟨hclock, hview, hopen⟩

include hc

/-- With the report first the live decision is refused, and the report's end stays. -/
theorem report_first_ends (henabled : project.protectEnabled = true)
    (hanswers : Answers (c.request.scopedId project) r (q.payload project now)
      (w.redis.advance now)) :
    EndsAt project c r (c.whole settings m project now (q.whole settings m project now w))
      ((View.of (c.request.scopedId project) r (w.redis.advance now)).reported
        (q.payload project now) r project)
      (remains project c q r now (View.of (c.request.scopedId project) r (w.redis.advance now))
        w.incidents.incidents) := by
  obtain ⟨hclock, hends⟩ := report_ends settings m w now hr hq hprovider henabled hanswers
  have hrefused : ∀ d, ¬Decides settings project c r now (q.whole settings m project now w) d := by
    intro d hd
    have haccepted := hd.accepted
    rw [advance_self hclock, hends.view, refuses_of_reported] at haccepted
    cases haccepted
  obtain ⟨hkeeps, hincidents⟩ := LiveCall.whole_of_refused settings m hr hc hrefused
  rw [advance_self hclock] at hkeeps
  refine ⟨hkeeps.view.trans hends.view, fun id => ?_⟩
  rw [hincidents]
  exact hends.incidents id

/-- After an accepted decision the report finds what the decision has left. -/
theorem live_first_ends (henabled : project.protectEnabled = true)
    (hd : Decides settings project c r now w d)
    (hlive : Answers (c.request.scopedId project) r (LiveCall.payload d now)
      (run (evaluateDecision settings project c.request.context now) (w.redis.advance now)).2)
    (hafter : Answers (c.request.scopedId project) r (q.payload project now)
      ((c.whole settings m project now w).redis.advance now)) :
    EndsAt project c r (q.whole settings m project now (c.whole settings m project now w))
      ((((View.of (c.request.scopedId project) r (w.redis.advance now)).finalized
        (LiveCall.payload d now)).cooled r d).reported (q.payload project now) r project)
      (remains project c q r now
        (((View.of (c.request.scopedId project) r (w.redis.advance now)).finalized
          (LiveCall.payload d now)).cooled r d)
        (recordPreflightIncidentIfNeeded m project c d now w).incidents.incidents) := by
  obtain ⟨hclock, hview, hincidents⟩ := LiveCall.whole_of_decides settings m hr hc hd hlive
  have hends := (report_ends settings m (c.whole settings m project now w) now hr hq hprovider
    henabled hafter).2
  rwa [advance_self hclock, hview, hincidents] at hends

/-- Where no decision is accepted, the report finds what it finds without the decision. -/
theorem live_first_ends_of_refused (henabled : project.protectEnabled = true)
    (hnone : ∀ d, ¬Decides settings project c r now w d)
    (hafter : Answers (c.request.scopedId project) r (q.payload project now)
      ((c.whole settings m project now w).redis.advance now)) :
    EndsAt project c r (q.whole settings m project now (c.whole settings m project now w))
      ((View.of (c.request.scopedId project) r (w.redis.advance now)).reported
        (q.payload project now) r project)
      (remains project c q r now (View.of (c.request.scopedId project) r (w.redis.advance now))
        w.incidents.incidents) := by
  obtain ⟨hkeeps, hincidents⟩ := LiveCall.whole_of_refused settings m hr hc hnone
  have hclock : (c.whole settings m project now w).redis.clock = now := hkeeps.clock
  have hends := (report_ends settings m (c.whole settings m project now w) now hr hq hprovider
    henabled hafter).2
  rwa [advance_self hclock, hkeeps.view, hincidents] at hends

omit hq in
theorem sameEnd_of_disabled (henabled : ¬project.protectEnabled = true) :
    SameEnd (c.request.scopedId project) project.id c.request.provider r now
      (q.whole settings m project now (c.whole settings m project now w))
      (c.whole settings m project now (q.whole settings m project now w)) := by
  have hscope : q.report.scopedId project = c.request.scopedId project :=
    scopedId_report hprovider
  have hnone : ∀ w' d, ¬Decides settings project c r now w' d :=
    fun w' d hd => henabled hd.enabled
  obtain ⟨hkeepsA, hincidentsA⟩ := LiveCall.whole_of_refused settings m hr hc (hnone w)
  obtain ⟨hkeepsB, hincidentsB⟩ := LiveCall.whole_of_refused settings m hr hc
    (hnone (q.whole settings m project now w))
  have hfirst := whole_of_disabled settings m q w now henabled
  have hsecond := whole_of_disabled settings m q (c.whole settings m project now w) now henabled
  have hclockA : (c.whole settings m project now w).redis.clock = now := hkeepsA.clock
  have hclockB : (q.whole settings m project now w).redis.clock = now := by
    rw [hfirst]
    exact run_clock _ _
  have hends := observeFallback_congr r now hscope hkeepsA
  rw [advance_self hclockB] at hkeepsB
  have hviews : View.of (c.request.scopedId project) r
        (q.whole settings m project now (c.whole settings m project now w)).redis =
      View.of (c.request.scopedId project) r
        (c.whole settings m project now (q.whole settings m project now w)).redis := by
    rw [hkeepsB.view, hsecond, hfirst, advance_self hclockA]
    exact hends
  refine ⟨⟨by rw [hviews], by rw [hviews]⟩, by rw [hviews], fun id => ?_⟩
  rw [hsecond, hincidentsB, hfirst]
  simp only [hincidentsA]

end Ends

theorem Judged.idle {until' : Option ℤ} (hjudged : Judged now until' d)
    (hnone : capBreachTimes d = none) : d.decision ≠ .block ∨ d.reason = .cooldownActive := by
  cases hjudged with
  | cooling _ _ hreason => exact .inr hreason
  | breach _ _ _ untilMs seconds htimes =>
    rw [htimes] at hnone
    cases hnone
  | admitted _ hne => exact .inl hne

/-- The two ends of an accepted decision and its report, compared. -/
theorem ends_alike_iff (hc : c.request.requestId = some r) (hd : Decides settings project c r now w d)
    (hcounts : ∀ f n, (View.of (c.request.scopedId project) r (w.redis.advance now)).count f =
      some n → 0 ≤ n) {a b : Backend}
    (ha : EndsAt project c r a
      ((((View.of (c.request.scopedId project) r (w.redis.advance now)).finalized
        (LiveCall.payload d now)).cooled r d).reported (q.payload project now) r project)
      (remains project c q r now
        (((View.of (c.request.scopedId project) r (w.redis.advance now)).finalized
          (LiveCall.payload d now)).cooled r d)
        (recordPreflightIncidentIfNeeded m project c d now w).incidents.incidents))
    (hb : EndsAt project c r b
      ((View.of (c.request.scopedId project) r (w.redis.advance now)).reported
        (q.payload project now) r project)
      (remains project c q r now (View.of (c.request.scopedId project) r (w.redis.advance now))
        w.incidents.incidents)) :
    SameTally (c.request.scopedId project) r a b ∧
      (SameEnd (c.request.scopedId project) project.id c.request.provider r now a b ↔
        OrderFree m project c r now w d) := by
  obtain ⟨usage, hjudge⟩ := hd.judged
  have hjudged := judged_judge settings project c.request.context now usage
    (untilOf (View.of (c.request.scopedId project) r (w.redis.advance now)).mark)
  rw [← hjudge] at hjudged
  obtain ⟨houtcome, hcount⟩ := finalized_twice project q r hd.accepted hcounts
  have hcooldown := cooldown_twice project q r hd.accepted hjudged
  have htally : SameTally (c.request.scopedId project) r a b :=
    ⟨by rw [ha.view, hb.view, houtcome], by rw [ha.view, hb.view, hcount]⟩
  have hincidents : (∀ id, OpenIn project.id c.request.provider a.incidents.incidents id ↔
      OpenIn project.id c.request.provider b.incidents.incidents id) ↔ _ :=
    forall_congr' fun id => iff_congr (ha.incidents id) (hb.incidents id)
  have hmode : project.protectFailMode ≠ "closed" → _ :=
    incidents_twice (m := m) (q := q) (w := w) hc hd.accepted hjudged
  refine ⟨htally, fun h => ?_, fun h => ⟨htally, ?_, ?_⟩⟩
  · have hsame := h.cooldown
    rw [ha.view, hb.view] at hsame
    obtain ⟨hclosed, hopen⟩ := hcooldown.mp hsame
    exact ⟨hclosed, hopen, fun hmode' => (hmode hmode').mp (hincidents.mp h.incidents)⟩
  · rw [ha.view, hb.view]
    exact hcooldown.mpr ⟨h.closed, h.cooldown⟩
  · by_cases hclosed : project.protectFailMode = "closed"
    · intro id
      rw [ha.incidents, hb.incidents, remains, remains, if_neg (not_lifts_of_closed hclosed),
        if_neg (not_lifts_of_closed hclosed)]
      exact openIn_recorded (hjudged.idle (h.closed hclosed)) id
    · exact hincidents.mpr ((hmode hclosed).mpr (h.incidents hclosed))

/-- The whole live decision and the whole report of one request, in either order and at one time,
leave the same outcome and counters, and end alike if and only if the accepted decision is free of
the order. -/
theorem order_free_iff (settings : Settings) (m : Manager) (project : Project) (c : LiveCall)
    (q : ReportCall) (r : String) (hr : r ≠ "") (hc : c.request.requestId = some r)
    (hq : q.report.resolvedRequestId = some r) (hprovider : q.provider = c.request.provider)
    (w : Backend) (now : ℕ)
    (hcounts : ∀ f n, (View.of (c.request.scopedId project) r (w.redis.advance now)).count f =
      some n → 0 ≤ n)
    (hlive : ∀ d, Decides settings project c r now w d →
      Answers (c.request.scopedId project) r (LiveCall.payload d now)
        (run (evaluateDecision settings project c.request.context now) (w.redis.advance now)).2)
    (hreport : project.protectEnabled = true → Answers (c.request.scopedId project) r
      (q.payload project now) (w.redis.advance now))
    (hafter : project.protectEnabled = true → Answers (c.request.scopedId project) r
      (q.payload project now) ((c.whole settings m project now w).redis.advance now)) :
    SameTally (c.request.scopedId project) r
        (q.whole settings m project now (c.whole settings m project now w))
        (c.whole settings m project now (q.whole settings m project now w)) ∧
      (SameEnd (c.request.scopedId project) project.id c.request.provider r now
          (q.whole settings m project now (c.whole settings m project now w))
          (c.whole settings m project now (q.whole settings m project now w)) ↔
        ∀ d, Decides settings project c r now w d → OrderFree m project c r now w d) := by
  by_cases henabled : project.protectEnabled = true
  · have hends := report_first_ends settings m w now hr hc hq hprovider henabled (hreport henabled)
    by_cases hdecides : ∃ d, Decides settings project c r now w d
    · obtain ⟨d, hd⟩ := hdecides
      obtain ⟨htally, hiff⟩ := ends_alike_iff hc hd hcounts
        (live_first_ends settings m w now hr hc hq hprovider henabled hd (hlive d hd)
          (hafter henabled)) hends
      exact ⟨htally, hiff.trans ⟨fun h d' hd' => hd.unique hd' ▸ h, fun h => h d hd⟩⟩
    · have hnone : ∀ d, ¬Decides settings project c r now w d := fun d hd => hdecides ⟨d, hd⟩
      have hsame := (live_first_ends_of_refused settings m w now hr hc hq hprovider henabled hnone
        (hafter henabled)).sameEnd now hends
      exact ⟨hsame.toSameTally, fun _ d hd => absurd hd (hnone d), fun _ => hsame⟩
  · have hsame := sameEnd_of_disabled settings m w now hr hc hprovider henabled
    exact ⟨hsame.toSameTally, fun _ d hd => absurd hd.enabled henabled, fun _ => hsame⟩

/-- In either order the outcome and the counters come out alike. In a project that fails closed the
cooldown and the incidents do so exactly if no block for a cap is accepted, and in one that fails
open if the accepted decision is free of the order. -/
theorem either_order_same_end (settings : Settings) (m : Manager) (project : Project) (c : LiveCall)
    (q : ReportCall) (r : String) (hr : r ≠ "") (hc : c.request.requestId = some r)
    (hq : q.report.resolvedRequestId = some r) (hprovider : q.provider = c.request.provider)
    (w : Backend) (now : ℕ)
    (hcounts : ∀ f n, (View.of (c.request.scopedId project) r (w.redis.advance now)).count f =
      some n → 0 ≤ n)
    (hlive : ∀ d, Decides settings project c r now w d →
      Answers (c.request.scopedId project) r (LiveCall.payload d now)
        (run (evaluateDecision settings project c.request.context now) (w.redis.advance now)).2)
    (hreport : project.protectEnabled = true → Answers (c.request.scopedId project) r
      (q.payload project now) (w.redis.advance now))
    (hafter : project.protectEnabled = true → Answers (c.request.scopedId project) r
      (q.payload project now) ((c.whole settings m project now w).redis.advance now)) :
    SameTally (c.request.scopedId project) r
        (q.whole settings m project now (c.whole settings m project now w))
        (c.whole settings m project now (q.whole settings m project now w)) ∧
      (project.protectFailMode = "closed" →
        (SameEnd (c.request.scopedId project) project.id c.request.provider r now
            (q.whole settings m project now (c.whole settings m project now w))
            (c.whole settings m project now (q.whole settings m project now w)) ↔
          ∀ d, Decides settings project c r now w d → capBreachTimes d = none)) ∧
      (project.protectFailMode ≠ "closed" →
        (∀ d, Decides settings project c r now w d → OrderFree m project c r now w d) →
          SameEnd (c.request.scopedId project) project.id c.request.provider r now
            (q.whole settings m project now (c.whole settings m project now w))
            (c.whole settings m project now (q.whole settings m project now w))) := by
  obtain ⟨htally, hiff⟩ := order_free_iff settings m project c q r hr hc hq hprovider w now hcounts
    hlive hreport hafter
  refine ⟨htally, fun hclosed => hiff.trans ?_, fun _ => hiff.mpr⟩
  constructor
  · intro h d hd
    exact (h d hd).closed hclosed
  · intro h d hd
    exact ⟨fun _ => h d hd, fun hopen => absurd hclosed hopen, fun hopen => absurd hclosed hopen⟩

end Order

/-- A scope of a project that fails closed and has used up its tokens. -/
def sampleClosed : Project := { sampleProject with protectFailMode := "closed" }

theorem either_order_same_end_sample :
    SameTally "p1:openai" "r1"
        (sampleTimeout.whole sampleSettings {} sampleClosed 2000
          (sampleLive.whole sampleSettings {} sampleClosed 2000 sampleBackend))
        (sampleLive.whole sampleSettings {} sampleClosed 2000
          (sampleTimeout.whole sampleSettings {} sampleClosed 2000 sampleBackend)) ∧
      (SameEnd "p1:openai" "p1" "openai" "r1" 2000
          (sampleTimeout.whole sampleSettings {} sampleClosed 2000
            (sampleLive.whole sampleSettings {} sampleClosed 2000 sampleBackend))
          (sampleLive.whole sampleSettings {} sampleClosed 2000
            (sampleTimeout.whole sampleSettings {} sampleClosed 2000 sampleBackend)) ↔
        ∀ d, Decides sampleSettings sampleClosed sampleLive "r1" 2000 sampleBackend d →
          capBreachTimes d = none) := by
  have hcounts : ∀ f : OutcomeField, IsCounter f →
      counterOf ((sampleBackend.redis.advance 2000).lookup (f.key "p1:openai")) = some 0 := by
    intro f hf
    rcases hf with rfl | rfl | rfl | rfl <;> decide
  have hsample := either_order_same_end sampleSettings {} sampleClosed sampleLive sampleTimeout "r1"
    (by decide) rfl rfl rfl sampleBackend 2000 ?_ ?_ (fun _ => by decide) fun _ => by decide
  · exact ⟨hsample.1, hsample.2.1 rfl⟩
  · intro f n hn
    have hzero := (hcounts f.1 f.2).symm.trans hn
    exact (Option.some.inj hzero).le
  · intro d hd
    have hall : (run (evaluateDecision sampleSettings sampleClosed sampleLive.request.context 2000)
        (sampleBackend.redis.advance 2000)).1.toOption.all (fun d => Answers "p1:openai" "r1"
          (LiveCall.payload d 2000) (run (evaluateDecision sampleSettings sampleClosed
            sampleLive.request.context 2000) (sampleBackend.redis.advance 2000)).2) = true := by
      decide
    rw [hd.evaluated] at hall
    exact of_decide_eq_true hall

/-- A block for a cap leaves its cooldown only where it comes before the report. -/
theorem closed_order_matters : ¬SameEnd "p1:openai" "p1" "openai" "r1" 2000
    (sampleTimeout.whole sampleSettings {} sampleClosed 2000
      (sampleLive.whole sampleSettings {} sampleClosed 2000 sampleBackend))
    (sampleLive.whole sampleSettings {} sampleClosed 2000
      (sampleTimeout.whole sampleSettings {} sampleClosed 2000 sampleBackend)) := by
  intro h
  have hcooldown := h.cooldown
  revert hcooldown
  decide

end Rheonic.ProtectBackend
