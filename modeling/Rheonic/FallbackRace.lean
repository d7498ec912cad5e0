import Rheonic.BackendSteps

namespace Rheonic.ProtectBackend
open CommandProgram Redis Keys PyText ProtectActionStore ProtectService ProtectApi RowTable
open IncidentRepository (Incident)
open IncidentManager (Manager attributedTo run_reconcile Reconciled)

/-- No cooldown of the request, and no open incident of the scope that its live block is recorded
in. -/
structure NoTrace (p projectId provider r : String) (w : Backend) : Prop where
  cooldown : ¬Owned p r w.redis
  incident : ∀ id i, w.incidents.incidents.get id = some i → ¬Reconciled projectId provider r i

inductive Party
  | live
  | report
  deriving DecidableEq, Repr

/-- A live decision and a report of one request in progress on the same backend. -/
structure Race where
  backend : Backend
  live : LiveStage := .waiting
  report : ReportStage := .waiting

section Race

variable (settings : Settings) (m : Manager) (project : Project) (c : LiveCall) (q : ReportCall)

/-- One of the parties takes its next step. -/
def Race.move (x : Race) : Party → ℕ → Race
  | .live, now =>
    let e := c.step settings m project now x.live (x.backend.at now)
    { x with live := e.1, backend := e.2 }
  | .report, now =>
    let e := q.step settings m project now x.report (x.backend.at now)
    { x with report := e.1, backend := e.2 }

def Race.moves : Race → List (Party × ℕ) → Race
  | x, [] => x
  | x, e :: l => Race.moves (x.move settings m project c q e.1 e.2) l

def Race.Ended (x : Race) : Prop := x.live = .ended ∧ x.report = .ended

/-- No step is at a time before the step that it follows. -/
def InOrder : Race → List (Party × ℕ) → Prop
  | _, [] => True
  | x, e :: l => x.backend.redis.clock ≤ e.2 ∧
    InOrder (x.move settings m project c q e.1 e.2) l

/-- Not finalized yet. -/
def LiveStage.Undecided : LiveStage → Prop
  | .waiting => True
  | .evaluated _ => True
  | _ => False

/-- A block has become the outcome, and the task in the background has not run yet. -/
def LiveStage.Accepted : LiveStage → Prop
  | .finalized d applied => applied = true ∧ d.decision = .block
  | .cooled d applied => applied = true ∧ d.decision = .block
  | _ => False

def LiveStage.Cooling : LiveStage → Prop
  | .finalized d applied => applied = true ∧ (capBreachTimes d).isSome = true
  | _ => False

/-- A step of the race with which nothing goes wrong. -/
structure Prompt (r : String) (x : Race) (party : Party) (now : ℕ) : Prop where
  kept : (party = .live ∧ x.live.Undecided ∧ x.report ≠ .waiting ∨
      party = .report ∧ x.report = .waiting ∧ ¬x.live.Undecided) →
    ∀ e, x.backend.redis.entry (outcomeKey (c.request.scopedId project) r) = some e →
      e.alive now = true
  answered : party = .report → x.report = .waiting → project.protectEnabled = true →
    Answers (c.request.scopedId project) r (q.payload project now) (x.backend.redis.advance now)
  cleared : party = .report → ∀ outcome, x.report = .finalized outcome →
    supersedesLiveBlock (fallbackDecision project) outcome = true → ¬x.live.Cooling
  reconciled : party = .report → ∀ outcome, x.report = .cleared outcome →
    supersedesLiveBlock (fallbackDecision project) outcome = true → ¬x.live.Accepted

def AllPrompt (r : String) : Race → List (Party × ℕ) → Prop
  | _, [] => True
  | x, e :: l => Prompt project c q r x e.1 e.2 ∧
    AllPrompt r (x.move settings m project c q e.1 e.2) l

/-- What the report still has to undo, and finds when it does. -/
def Pending (p r : String) (live : LiveStage) (report : ReportStage) (w : Backend) : Prop :=
  match report with
  | .waiting => Holds p r (fun x => x.source = sourceLive ∧ x.decision = "block") w.redis
  | .finalized outcome => supersedesLiveBlock (fallbackDecision project) outcome = true
  | .cleared outcome => supersedesLiveBlock (fallbackDecision project) outcome = true ∧
    ¬Owned p r w.redis ∧ ¬live.Cooling
  | _ => False

/-- Either the request has left no trace so far and the live decision is not about to leave one,
or its block stands and the report is going to undo it. -/
inductive Guarded (p r : String) (live : LiveStage) (report : ReportStage) (w : Backend) : Prop
  | clean (htrace : NoTrace p project.id c.request.provider r w) (hlive : ¬live.Accepted)
      (hfallback : live.Undecided → report ≠ .waiting → project.protectEnabled = true →
        Holds p r (fun x => sourceRank x.source = 2) w.redis)
  | standing (henabled : project.protectEnabled = true) (hlive : live.Accepted ∨ live = .ended)
      (hpending : Pending project p r live report w)

section Guard

variable {settings m project c q} {r : String} {live : LiveStage} {report : ReportStage}
  {w : Backend} {now : ℕ}

theorem NoTrace.of_owned {p projectId provider : String} (h : NoTrace p projectId provider r w)
    {s : Store} (hs : Owned p r s → Owned p r w.redis) :
    NoTrace p projectId provider r { w with redis := s } :=
  ⟨fun howned => h.cooldown (hs howned), h.incident⟩

theorem Guarded.at {p : String} (h : Guarded project c p r live report w)
    (hnow : w.redis.clock ≤ now) : Guarded project c p r live report (w.at now) := by
  cases h with
  | clean htrace hlive hfallback =>
    exact .clean (htrace.of_owned fun h => h.of_advance hnow) hlive hfallback
  | standing henabled hlive hpending =>
    refine .standing henabled hlive ?_
    cases report with
    | waiting => exact hpending
    | finalized outcome => exact hpending
    | cleared outcome =>
      exact ⟨hpending.1, fun howned => hpending.2.1 (howned.of_advance hnow), hpending.2.2⟩
    | reconciled => exact hpending
    | ended => exact hpending

theorem capBreachTimes_block {d : ProtectDecision} (h : (capBreachTimes d).isSome = true) :
    d.decision = .block := by
  unfold capBreachTimes at h
  split at h
  · next hblock => exact hblock.1
  · cases h

theorem not_cooling {d : ProtectDecision} {applied : Bool}
    (h : ¬(LiveStage.finalized d applied).Accepted) :
    applied = false ∨ capBreachTimes d = none := by
  by_cases happlied : applied = true
  · refine .inr ?_
    by_contra hne
    exact h ⟨happlied, capBreachTimes_block (Option.ne_none_iff_isSome.mp hne)⟩
  · exact .inl (by simpa using happlied)

variable (m project c w now) in
theorem recordPreflightIncidentIfNeeded_redis (d : ProtectDecision) :
    (recordPreflightIncidentIfNeeded m project c d now w).redis = w.redis := by
  unfold recordPreflightIncidentIfNeeded
  split
  · rfl
  · split
    · rfl
    · rfl

theorem sourceLive_ne : sourceLive ≠ "" := by decide

theorem Verdict.text_block {d : Verdict} (h : d = .block) : d.text = "block" := by rw [h]; rfl

/-- Finalizing the decision: a block is accepted only if no report has been finalized before. -/
theorem Guarded.finalize {d : ProtectDecision} (hr : r ≠ "") (hc : c.request.requestId = some r)
    (h : Guarded project c (c.request.scopedId project) r (.evaluated d) report w)
    (hkept : report ≠ .waiting →
      ∀ e, w.redis.entry (outcomeKey (c.request.scopedId project) r) = some e →
        e.alive w.redis.clock = true) (henabled : project.protectEnabled = true)
    {answer : Except Exn (Bool × Option OutcomePayload)} {s : Store}
    (hrun : run (finalizeOutcome (c.request.scopedId project) d.decision.text d.reason.text
      sourceLive c.request.requestId now) w.redis = (answer, s)) :
    Guarded project c (c.request.scopedId project) r
      (.finalized d (answerOf (false, none) (answer, s)).1) report { w with redis := s } := by
  obtain ⟨htrace, hfallback⟩ :
      NoTrace (c.request.scopedId project) project.id c.request.provider r w ∧
        (report ≠ .waiting → Holds (c.request.scopedId project) r
          (fun x => sourceRank x.source = 2) w.redis) := by
    cases h with
    | clean htrace _ hfallback => exact ⟨htrace, fun hne => hfallback trivial hne henabled⟩
    | standing _ hlive _ => rcases hlive with hlive | hlive <;> cases hlive
  -- finalizing owns no cooldown
  have htrace' : NoTrace (c.request.scopedId project) project.id c.request.provider r
      { w with redis := s } := by
    refine htrace.of_owned fun howned => ?_
    have hsame := Owned.of_onAction (p := c.request.scopedId project) (r := r) (s := w.redis)
      (finalizeOutcome_issues (p := c.request.scopedId project) d.decision.text d.reason.text
        sourceLive c.request.requestId now)
    rw [hrun] at hsame
    exact hsame howned
  by_cases haccepted : (LiveStage.finalized d (answerOf (false, none) (answer, s)).1).Accepted
  · obtain ⟨happlied, hblock⟩ := haccepted
    obtain ⟨old, rfl⟩ : ∃ old, answer = .ok (true, old) := by
      cases answer with
      | error e => cases happlied
      | ok a =>
        obtain ⟨applied, old⟩ := a
        obtain rfl : applied = true := happlied
        exact ⟨old, rfl⟩
    rw [hc] at hrun
    have hf := finalizeOutcome_finalized hr hrun (by simp)
    -- accepted before the report has finalized: from now on it stands
    by_cases hreport : report = .waiting
    · subst hreport
      refine .standing henabled (.inl ⟨happlied, hblock⟩) ?_
      have hholds := hf.holds (parseLast_json (Verdict.text_ne _) (Reason.text_ne _)
        sourceLive_ne)
      obtain ⟨e, x, he, hvalue, hparse, rfl⟩ := hholds
      exact ⟨e, _, he, hvalue, hparse, rfl, Verdict.text_block hblock⟩
    · -- the report's outcome is still there, and stays
      obtain ⟨x, rfl, hx⟩ := hf.old_of_holds (hfallback hreport) (hkept hreport)
      have hreplace := hf.applied_eq
      rw [Option.all_some, shouldReplace_live rfl hx] at hreplace
      cases hreplace
  · exact .clean htrace' haccepted fun hlive => by cases hlive

theorem Guarded.evaluate (h : Guarded project c (c.request.scopedId project) r .waiting report w) :
    Guarded project c (c.request.scopedId project) r
      (c.step settings m project now .waiting w).1 report
      (c.step settings m project now .waiting w).2 := by
  have hkey : ActionKey (outcomeKey (c.request.scopedId project) r) := actionKey_outcomeKey _ r
  obtain ⟨htrace, hfallback⟩ :
      NoTrace (c.request.scopedId project) project.id c.request.provider r w ∧
        (report ≠ .waiting → project.protectEnabled = true →
          Holds (c.request.scopedId project) r (fun x => sourceRank x.source = 2) w.redis) := by
    cases h with
    | clean htrace _ hfallback => exact ⟨htrace, hfallback trivial⟩
    | standing _ hlive _ => rcases hlive with hlive | hlive <;> cases hlive
  have hleaves : ∀ k, k ≠ requests60sKey (c.request.scopedId project) →
      k ≠ tokens60sKey (c.request.scopedId project) →
      Leaves k w.redis (run (evaluateDecision settings project c.request.context now) w.redis).2 :=
    fun k hk hk' => evaluateDecision_leaves c.request.context now hk hk'
  rcases hrun : run (evaluateDecision settings project c.request.context now) w.redis with
    ⟨answer, s⟩
  rw [hrun] at hleaves
  have htrace' : NoTrace (c.request.scopedId project) project.id c.request.provider r
      { w with redis := s } := htrace.of_owned fun howned => howned.of_leaves
    (hleaves _ (requests60sKey_ne_cooldownKey _ _).symm (tokens60sKey_ne_cooldownKey _ _).symm)
    (hleaves _ (requests60sKey_ne_cooldownOwnerKey _ _).symm
      (tokens60sKey_ne_cooldownOwnerKey _ _).symm)
  have houtcome := hleaves _ (hkey.ne_requests60sKey _) (hkey.ne_tokens60sKey _)
  cases answer with
  | ok decision =>
    simp only [LiveCall.step, hrun]
    refine .clean htrace' (fun h => by cases h) fun _ hreport henabled => ?_
    exact (hfallback hreport henabled).of_entry houtcome.1
  | error e =>
    simp only [LiveCall.step, hrun]
    exact .clean htrace' (fun h => by cases h) fun h => by cases h

theorem Guarded.decide {d : ProtectDecision} (hr : r ≠ "") (hc : c.request.requestId = some r)
    (h : Guarded project c (c.request.scopedId project) r (.evaluated d) report w)
    (hkept : report ≠ .waiting →
      ∀ e, w.redis.entry (outcomeKey (c.request.scopedId project) r) = some e →
        e.alive w.redis.clock = true) :
    Guarded project c (c.request.scopedId project) r
      (c.step settings m project now (.evaluated d) w).1 report
      (c.step settings m project now (.evaluated d) w).2 := by
  have htrace : NoTrace (c.request.scopedId project) project.id c.request.provider r w := by
    cases h with
    | clean htrace _ _ => exact htrace
    | standing _ hlive _ => rcases hlive with hlive | hlive <;> cases hlive
  by_cases hid : project.id = ""
  · simp only [LiveCall.step, if_pos hid]
    exact .clean htrace (fun h => by cases h) fun h => by cases h
  · by_cases henabled : project.protectEnabled = true
    · simp only [LiveCall.step, if_neg hid, if_pos henabled]
      exact h.finalize hr hc hkept henabled rfl
    · simp only [LiveCall.step, if_neg hid, if_neg henabled]
      exact .clean htrace (fun h => by cases h.1) fun h => by cases h

theorem Guarded.cool {d : ProtectDecision} {applied : Bool}
    (h : Guarded project c (c.request.scopedId project) r (.finalized d applied) report w) :
    Guarded project c (c.request.scopedId project) r
      (c.step settings m project now (.finalized d applied) w).1 report
      (c.step settings m project now (.finalized d applied) w).2 := by
  have hkey : ActionKey (outcomeKey (c.request.scopedId project) r) := actionKey_outcomeKey _ r
  simp only [LiveCall.step]
  have hhealth := recordHealth_issues (p := c.request.scopedId project) c.request.latencyMs now
    c.request.memberId
  cases h with
  | clean htrace hlive _ =>
    -- not accepted, so no cooldown is set
    refine .clean (htrace.of_owned fun howned => ?_) hlive fun h => by cases h
    have howned := howned.of_onAction hhealth
    rwa [run_startCooldown_idle (not_cooling hlive)] at howned
  | standing henabled hlive hpending =>
    have haccepted : (LiveStage.finalized d applied).Accepted :=
      hlive.resolve_right fun h => by cases h
    refine .standing henabled (.inl haccepted) ?_
    cases report with
    | waiting =>
      have hstart := startCooldown_leaves (s := w.redis)
        (hkey.ne_cooldownKey (c.request.scopedId project))
        (hkey.ne_cooldownOwnerKey (c.request.scopedId project)) c.request.requestId ⟨d, applied⟩
      exact Holds.of_entry hpending (hstart.trans (recordHealth_leaves
        (outcomeKey_ne_latencyKey (c.request.scopedId project) r) c.request.latencyMs now
        c.request.memberId)).1
    | finalized outcome => exact hpending
    | cleared outcome =>
      -- the report has cleared already, and the condition keeps the decision from setting one
      obtain ⟨hsupersedes, howned, hcooling⟩ := hpending
      have hidle : applied = false ∨ capBreachTimes d = none := by
        refine .inr ?_
        by_contra hne
        exact hcooling ⟨haccepted.1, Option.ne_none_iff_isSome.mp hne⟩
      refine ⟨hsupersedes, fun h => howned ?_, fun h => by cases h⟩
      have h := h.of_onAction hhealth
      rwa [run_startCooldown_idle hidle] at h
    | reconciled => exact hpending
    | ended => exact hpending

theorem Guarded.record {d : ProtectDecision} {applied : Bool}
    (h : Guarded project c (c.request.scopedId project) r (.cooled d applied) report w) :
    Guarded project c (c.request.scopedId project) r
      (c.step settings m project now (.cooled d applied) w).1 report
      (c.step settings m project now (.cooled d applied) w).2 := by
  cases h with
  | clean htrace hlive _ =>
    by_cases happlied : applied = true
    · have hblock : d.decision ≠ .block := fun h => hlive ⟨happlied, h⟩
      have hsame : recordPreflightIncidentIfNeeded m project c d now w = w := by
        unfold recordPreflightIncidentIfNeeded
        split
        · rfl
        · rw [if_neg hblock]
      simp only [LiveCall.step, if_pos happlied, hsame]
      exact .clean htrace (fun h => by cases h) fun h => by cases h
    · simp only [LiveCall.step, if_neg happlied]
      exact .clean htrace (fun h => by cases h) fun h => by cases h
  | standing henabled hlive hpending =>
    have haccepted : (LiveStage.cooled d applied).Accepted :=
      hlive.resolve_right fun h => by cases h
    simp only [LiveCall.step, if_pos haccepted.1]
    refine .standing henabled (.inr rfl) ?_
    have hredis := recordPreflightIncidentIfNeeded_redis m project c w now d
    cases report with
    | waiting => exact Holds.of_entry hpending (by rw [hredis])
    | finalized outcome => exact hpending
    | cleared outcome =>
      exact ⟨hpending.1, hredis.symm ▸ hpending.2.1, fun h => by cases h⟩
    | reconciled => exact hpending
    | ended => exact hpending

theorem Guarded.liveStep (hr : r ≠ "") (hc : c.request.requestId = some r)
    (h : Guarded project c (c.request.scopedId project) r live report w)
    (hkept : live.Undecided → report ≠ .waiting →
      ∀ e, w.redis.entry (outcomeKey (c.request.scopedId project) r) = some e →
        e.alive w.redis.clock = true) :
    Guarded project c (c.request.scopedId project) r
      (c.step settings m project now live w).1 report (c.step settings m project now live w).2 := by
  cases live with
  | waiting => exact h.evaluate
  | evaluated d => exact h.decide hr hc (hkept trivial)
  | finalized d applied => exact h.cool
  | cooled d applied => exact h.record
  | ended => exact h

theorem fallbackDecision_open (hopen : project.protectFailMode ≠ "closed") :
    fallbackDecision project = .allow := if_neg hopen

theorem scopedId_report (hprovider : q.provider = c.request.provider) :
    q.report.scopedId project = c.request.scopedId project := by
  rw [ReportRequest.scopedId, PreflightRequest.scopedId, ← hprovider]
  rfl

/-- Finalizing the fallback: it is stored, or one that was there before; a live block is replaced. -/
theorem Guarded.fallback (hr : r ≠ "") (hq : q.report.resolvedRequestId = some r)
    (hprovider : q.provider = c.request.provider) (hopen : project.protectFailMode ≠ "closed")
    (h : Guarded project c (c.request.scopedId project) r live .waiting w)
    (hkept : ¬live.Undecided →
      ∀ e, w.redis.entry (outcomeKey (c.request.scopedId project) r) = some e →
        e.alive w.redis.clock = true) (henabled : project.protectEnabled = true)
    (hanswered : Answers (c.request.scopedId project) r (q.payload project now) w.redis) :
    Guarded project c (c.request.scopedId project) r live
      (q.step settings m project now .waiting w).1 (q.step settings m project now .waiting w).2 := by
  obtain ⟨applied, old, s, hrun, hf⟩ := hanswered.finalized hr
  have hstep : q.step settings m project now .waiting w =
      (.finalized (applied, old), { w with redis := s }) := by
    simp only [ReportCall.step, if_pos henabled, scopedId_report hprovider, hq]
    simp only [ReportCall.payload] at hrun
    rw [hrun]
    rfl
  rw [hstep]
  cases h with
  | clean htrace hlive _ =>
    refine .clean (htrace.of_owned fun howned => ?_) hlive fun _ _ _ => ?_
    · have hsame := Owned.of_onAction (p := c.request.scopedId project) (r := r) (s := w.redis)
        (finalizeOutcome_issues (p := c.request.scopedId project) (q.payload project now).decision
          (q.payload project now).reason (q.payload project now).source (some r)
          (q.payload project now).ts)
      rw [hrun] at hsame
      exact hsame howned
    · cases applied with
      | true =>
        obtain ⟨e, x, he, hvalue, hparse, rfl⟩ := hf.holds (parseLast_payload project q now)
        exact ⟨e, _, he, hvalue, hparse, sourceRank_kind q.kind⟩
      | false =>
        obtain ⟨e, x, he, hvalue, hparse, hx⟩ := hf.holds_of_refused
        refine ⟨e, x, he, hvalue, hparse, ?_⟩
        -- only a fallback stands in the way of another one
        have hle := sourceRank_le x.source
        have hkind : sourceRank (q.payload project now).source = 2 := sourceRank_kind q.kind
        unfold shouldReplaceOutcome at hx
        rw [hkind] at hx
        by_contra hne
        rw [if_neg (by omega), if_pos (by omega)] at hx
        cases hx
  | standing _ hlive hpending =>
    refine .standing henabled hlive ?_
    have hdecided : ¬live.Undecided := by
      rcases hlive with hlive | rfl
      · cases live <;> simp_all [LiveStage.Accepted, LiveStage.Undecided]
      · exact id
    obtain ⟨x, rfl, hsource, hblock⟩ := hf.old_of_holds hpending (hkept hdecided)
    have happlied := hf.applied_eq
    rw [Option.all_some, shouldReplace_fallback hsource (sourceRank_kind q.kind)] at happlied
    simp [Pending, supersedesLiveBlock, happlied, fallbackDecision_open hopen, hsource, hblock]

/-- Every step of the report keeps the guard. -/
theorem Guarded.reportStep (hr : r ≠ "") (hq : q.report.resolvedRequestId = some r)
    (hprovider : q.provider = c.request.provider) (hopen : project.protectFailMode ≠ "closed")
    (h : Guarded project c (c.request.scopedId project) r live report w)
    (hkept : report = .waiting → ¬live.Undecided →
      ∀ e, w.redis.entry (outcomeKey (c.request.scopedId project) r) = some e →
        e.alive w.redis.clock = true)
    (hanswered : report = .waiting → project.protectEnabled = true →
      Answers (c.request.scopedId project) r (q.payload project now) w.redis)
    (hcleared : ∀ outcome, report = .finalized outcome →
      supersedesLiveBlock (fallbackDecision project) outcome = true → ¬live.Cooling)
    (hreconciled : ∀ outcome, report = .cleared outcome →
      supersedesLiveBlock (fallbackDecision project) outcome = true → ¬live.Accepted) :
    Guarded project c (c.request.scopedId project) r live
      (q.step settings m project now report w).1 (q.step settings m project now report w).2 := by
  have hkey : ActionKey (outcomeKey (c.request.scopedId project) r) := actionKey_outcomeKey _ r
  cases report with
  -- with protection off the report only counts
  | waiting =>
    by_cases henabled : project.protectEnabled = true
    · exact h.fallback hr hq hprovider hopen (hkept rfl) henabled (hanswered rfl henabled)
    · cases h with
      | standing henabled' _ _ => exact absurd henabled' henabled
      | clean htrace hlive _ =>
        have hobserve : Program.Issues OnAction (observeFallback project q now) := by
          unfold observeFallback
          split
          · exact recordTimeoutFallback_issues _ _
          · exact .pure _
        simp only [ReportCall.step, if_neg henabled]
        exact .clean (htrace.of_owned fun howned => howned.of_onAction hobserve) hlive
          fun _ _ henabled' => absurd henabled' henabled
  -- clearing: whatever the live call has set is gone, unless it sets it later
  | finalized outcome =>
    by_cases hsupersedes : supersedesLiveBlock (fallbackDecision project) outcome = true
    · simp only [ReportCall.step, if_pos hsupersedes, scopedId_report hprovider, hq]
      have hgone := not_owned_of_clear (p := c.request.scopedId project) hr w.redis
      cases h with
      | clean htrace hlive hfallback =>
        refine .clean ⟨hgone, htrace.incident⟩ hlive fun hundecided _ henabled => ?_
        exact (hfallback hundecided (by simp) henabled).of_entry (clearBlockCooldown_leaves
          (hkey.ne_cooldownKey _) (hkey.ne_cooldownOwnerKey _) (some r)).1
      | standing henabled hlive _ =>
        exact .standing henabled hlive ⟨hsupersedes, hgone, hcleared outcome rfl hsupersedes⟩
    · simp only [ReportCall.step, if_neg hsupersedes]
      cases h with
      | clean htrace hlive hfallback =>
        exact .clean htrace hlive fun hundecided _ => hfallback hundecided (by simp)
      | standing _ _ hpending => exact absurd hpending hsupersedes
  -- reconciling: no incident of the request is open, unless one comes later
  | cleared outcome =>
    by_cases hsupersedes : supersedesLiveBlock (fallbackDecision project) outcome = true
    · simp only [ReportCall.step, if_pos hsupersedes, hprovider, hq]
      have hincident : ∀ id i, (Program.run IncidentRepository.exec
          (IncidentManager.reconcileTimeoutSupersededLiveBlock project.id c.request.provider
            (some r) now) w.incidents).2.incidents.get id = some i →
          ¬Reconciled project.id c.request.provider r i := by
        intro id i hi hreconciled
        rw [(run_reconcile hr project.id c.request.provider now w.incidents).2 id] at hi
        obtain ⟨j, _, rfl⟩ := Option.map_eq_some_iff.mp hi
        by_cases hj : Reconciled project.id c.request.provider r j
        · rw [if_pos hj] at hreconciled
          have hstatus := hreconciled.2.2.1
          cases hstatus
        · rw [if_neg hj] at hreconciled
          exact hj hreconciled
      cases h with
      | clean htrace hlive hfallback =>
        exact .clean ⟨htrace.cooldown, hincident⟩ hlive fun hundecided _ =>
          hfallback hundecided (by simp)
      | standing henabled hlive hpending =>
        obtain rfl := hlive.resolve_left (hreconciled outcome rfl hsupersedes)
        exact .clean ⟨hpending.2.1, hincident⟩ id fun h => by cases h
    · simp only [ReportCall.step, if_neg hsupersedes]
      cases h with
      | clean htrace hlive hfallback =>
        exact .clean htrace hlive fun hundecided _ => hfallback hundecided (by simp)
      | standing _ _ hpending => exact absurd hpending.1 hsupersedes
  -- a project that fails open is not told
  | reconciled =>
    have hclosed : ¬(project.protectEnabled = true ∧ project.protectFailMode = "closed") :=
      fun h => hopen h.2
    simp only [ReportCall.step, if_neg hclosed]
    cases h with
    | clean htrace hlive hfallback =>
      exact .clean htrace hlive fun hundecided _ => hfallback hundecided (by simp)
    | standing _ _ hpending => exact absurd hpending id
  | ended => exact h

variable (settings m) in
/-- Every step of the race at which nothing goes wrong keeps the guard. -/
theorem Guarded.move {x : Race} (hr : r ≠ "") (hc : c.request.requestId = some r)
    (hq : q.report.resolvedRequestId = some r) (hprovider : q.provider = c.request.provider)
    (hopen : project.protectFailMode ≠ "closed") {party : Party}
    (h : Guarded project c (c.request.scopedId project) r x.live x.report x.backend)
    (hnow : x.backend.redis.clock ≤ now) (hprompt : Prompt project c q r x party now) :
    Guarded project c (c.request.scopedId project) r
      (x.move settings m project c q party now).live
      (x.move settings m project c q party now).report
      (x.move settings m project c q party now).backend := by
  have hat := h.at hnow
  cases party with
  | live =>
    refine hat.liveStep hr hc fun hundecided hreport => ?_
    exact hprompt.kept (.inl ⟨rfl, hundecided, hreport⟩)
  | report =>
    refine hat.reportStep hr hq hprovider hopen (fun hreport hdecided => ?_) ?_ ?_ ?_
    · exact hprompt.kept (.inr ⟨rfl, hreport, hdecided⟩)
    · exact hprompt.answered rfl
    · exact hprompt.cleared rfl
    · exact hprompt.reconciled rfl

theorem Guarded.moves {x : Race} (hr : r ≠ "") (hc : c.request.requestId = some r)
    (hq : q.report.resolvedRequestId = some r) (hprovider : q.provider = c.request.provider)
    (hopen : project.protectFailMode ≠ "closed")
    (h : Guarded project c (c.request.scopedId project) r x.live x.report x.backend)
    {l : List (Party × ℕ)} (horder : InOrder settings m project c q x l)
    (hprompt : AllPrompt settings m project c q r x l) :
    Guarded project c (c.request.scopedId project) r (x.moves settings m project c q l).live
      (x.moves settings m project c q l).report (x.moves settings m project c q l).backend := by
  induction l generalizing x with
  | nil => exact h
  | cons e l ih =>
    have hnext := h.move settings m hr hc hq hprovider hopen horder.1 hprompt.1
    exact ih hnext horder.2 hprompt.2

end Guard

/-- In fail-open mode, whatever the order of the steps of a live decision and a fallback report of
one request: if the report lifts cooldowns and reconciles incidents only after the steps that set
and open them, and neither outcome expires or fails in between, then no trace of a live block is
left once all steps are done. -/
theorem no_trace_of_prompt (hopen : project.protectFailMode ≠ "closed") {r : String} (hr : r ≠ "")
    (hc : c.request.requestId = some r) (hq : q.report.resolvedRequestId = some r)
    (hprovider : q.provider = c.request.provider) (w : Backend)
    (hstart : NoTrace (c.request.scopedId project) project.id c.request.provider r w)
    (l : List (Party × ℕ)) (horder : InOrder settings m project c q { backend := w } l)
    (hprompt : AllPrompt settings m project c q r { backend := w } l)
    (hended : (({ backend := w } : Race).moves settings m project c q l).Ended) :
    NoTrace (c.request.scopedId project) project.id c.request.provider r
      (({ backend := w } : Race).moves settings m project c q l).backend := by
  have hguard : Guarded project c (c.request.scopedId project) r .waiting .waiting w :=
    .clean hstart id fun _ hreport => absurd rfl hreport
  have hend := Guarded.moves (x := { backend := w }) hr hc hq hprovider hopen hguard horder hprompt
  obtain ⟨-, hreport⟩ := hended
  rw [hreport] at hend
  cases hend with
  | clean htrace _ _ => exact htrace
  | standing _ _ hpending => exact absurd hpending id

instance (x : Race) (l : List (Party × ℕ)) : Decidable (InOrder settings m project c q x l) :=
  match l with
  | [] => .isTrue trivial
  | e :: l =>
    have := instDecidableInOrder (x.move settings m project c q e.1 e.2) l
    inferInstanceAs (Decidable (_ ∧ InOrder settings m project c q _ l))

instance (x : Race) : Decidable x.Ended := inferInstanceAs (Decidable (_ ∧ _))

end Race

theorem sampleBackend_noTrace : NoTrace "p1:openai" "p1" "openai" "r1" sampleBackend where
  cooldown := fun h => by
    have hmark := h.1
    revert hmark
    decide
  incident := fun id i hi => by cases hi

theorem prompt_live {project : Project} {c : LiveCall} {q : ReportCall} {r : String} {x : Race}
    {now : ℕ} (hreport : x.report = .waiting) : Prompt project c q r x .live now where
  kept := fun h => by
    rcases h with ⟨_, _, hne⟩ | ⟨hparty, _⟩
    · exact absurd hreport hne
    · cases hparty
  answered := fun hparty => by cases hparty
  cleared := fun hparty => by cases hparty
  reconciled := fun hparty => by cases hparty

theorem prompt_report {project : Project} {c : LiveCall} {q : ReportCall} {r : String} {x : Race}
    {now : ℕ} (hlive : x.live = .ended)
    (hkept : (x.backend.redis.entry (outcomeKey (c.request.scopedId project) r)).all
      (·.alive now) = true)
    (hanswered : x.report = .waiting → Answers (c.request.scopedId project) r
      (q.payload project now) (x.backend.redis.advance now)) :
    Prompt project c q r x .report now where
  kept := fun _ e he => by
    rw [he] at hkept
    exact hkept
  answered := fun _ hreport _ => hanswered hreport
  cleared := fun _ _ _ _ => by
    rw [hlive]
    exact id
  reconciled := fun _ _ _ _ => by
    rw [hlive]
    exact id

/-- The report comes after the live decision, with its block, has ended. -/
def inTime : List (Party × ℕ) :=
  [(.live, 2000), (.live, 2000), (.live, 2000), (.live, 2000),
    (.report, 2100), (.report, 2100), (.report, 2100), (.report, 2100)]

theorem no_trace_of_prompt_sample : sampleProject.protectFailMode ≠ "closed" ∧
    NoTrace "p1:openai" "p1" "openai" "r1" (({ backend := sampleBackend } : Race).moves
      sampleSettings {} sampleProject sampleLive sampleTimeout inTime).backend := by
  have hopen : sampleProject.protectFailMode ≠ "closed" := by decide
  refine ⟨hopen, no_trace_of_prompt sampleSettings {} sampleProject sampleLive sampleTimeout
    hopen (by decide) rfl rfl rfl sampleBackend sampleBackend_noTrace inTime (by decide) ?_ (by decide)⟩
  refine ⟨prompt_live rfl, prompt_live rfl, prompt_live rfl, prompt_live rfl, ?_⟩
  exact ⟨prompt_report (by decide) (by decide) (by decide),
    prompt_report (by decide) (by decide) (by decide),
    prompt_report (by decide) (by decide) (by decide),
    prompt_report (by decide) (by decide) (by decide), trivial⟩

/-- The report comes between the finalize step of the live block and its cooldown. -/
def tooEarly : List (Party × ℕ) :=
  [(.live, 2000), (.live, 2000), (.report, 2100), (.report, 2100), (.report, 2100),
    (.report, 2100), (.live, 2200), (.live, 2200)]

/-- The cooldown is set and the incident opened after the report has cleared and reconciled. -/
theorem late_block_leaves_trace : sampleProject.protectFailMode = "open" ∧
    NoTrace "p1:openai" "p1" "openai" "r1" sampleBackend ∧
    InOrder sampleSettings {} sampleProject sampleLive sampleTimeout { backend := sampleBackend }
      tooEarly ∧
    (({ backend := sampleBackend } : Race).moves sampleSettings {} sampleProject sampleLive
      sampleTimeout tooEarly).Ended ∧
    Owned "p1:openai" "r1" (({ backend := sampleBackend } : Race).moves sampleSettings {}
      sampleProject sampleLive sampleTimeout tooEarly).backend.redis ∧
    ∃ i, (({ backend := sampleBackend } : Race).moves sampleSettings {} sampleProject sampleLive
        sampleTimeout tooEarly).backend.incidents.incidents.get "i1" = some i ∧
      Reconciled "p1" "openai" "r1" i := by
  refine ⟨rfl, sampleBackend_noTrace, by decide, by decide, ⟨by decide, by decide⟩, ?_⟩
  have hopen : ((({ backend := sampleBackend } : Race).moves sampleSettings {} sampleProject
      sampleLive sampleTimeout tooEarly).backend.incidents.incidents.get "i1").any
        (fun i => Reconciled "p1" "openai" "r1" i) = true := by decide
  generalize (({ backend := sampleBackend } : Race).moves sampleSettings {} sampleProject sampleLive
    sampleTimeout tooEarly).backend.incidents.incidents.get "i1" = found at hopen ⊢
  cases found with
  | none => cases hopen
  | some i => exact ⟨i, rfl, by simpa using hopen⟩

end Rheonic.ProtectBackend
