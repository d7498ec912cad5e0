import Rheonic.BackendSteps

namespace Rheonic.ProtectBackend
open CommandProgram Redis Keys PyText ProtectActionStore ProtectService ProtectApi RowTable
open IncidentRepository (Incident Incidents listOpen)
open IncidentManager (Manager activeBlock blockWindowMs run_mergeIntoActiveBlock Merged
  again_mergedBlock)

def undated : Value → Value
  | .text (.json payload) => .text (.json { payload with ts := 0 })
  | v => v

/-- The same counters, last record, notifications and incidents, up to times. -/
structure SameRecords (p : String) (a b : Backend) : Prop where
  counters : ∀ f ∈ [OutcomeField.allow, .clamp, .block, .timeout],
    a.redis.lookup (f.key p) = b.redis.lookup (f.key p)
  last : (a.redis.lookup (lastKey p)).map undated = (b.redis.lookup (lastKey p)).map undated
  notices : a.notices = b.notices
  notifications : a.incidents.notifications = b.incidents.notifications
  counts : ∀ id, (a.incidents.incidents.get id).map Incident.count =
    (b.incidents.incidents.get id).map Incident.count

theorem SameRecords.refl (p : String) (w : Backend) : SameRecords p w w :=
  ⟨fun _ _ => rfl, rfl, rfl, rfl, fun _ => rfl⟩

section Store

variable {p : String} {s : Store}

theorem lookup_recordTimeoutFallback {n : ℤ} (hn : counterOf (s.lookup (timeoutKey p)) = some n)
    (hrange : inRange (n + 1) = true) (requestId : Option String) (ts : ℕ) :
    (run (recordTimeoutFallback p requestId ts) s).2.lookup (timeoutKey p) =
      some (number (n + 1)) := by
  have hincr : run (incr (timeoutKey p)) s =
      (.ok (n + 1), s.alter (timeoutKey p) (some (number (n + 1)))) := by
    simp only [run, incr, Program.run_perform, exec, hn, hrange, if_true, number]
  obtain ⟨s₁, hcount, hlookup⟩ : ∃ s₁, run (incrementWithTtl (timeoutKey p)) s = (.ok (), s₁) ∧
      s₁.lookup (timeoutKey p) = some (number (n + 1)) := by
    have hpos : 0 < protectActionCounterTtlSeconds := by decide
    have hms : 0 < protectActionCounterTtlSeconds * 1000 := by decide
    unfold incrementWithTtl
    rw [run, Program.run_bind_eq exec hincr]
    -- the first increment sets a life, which keeps the value
    by_cases hone : n + 1 = 1
    · rw [if_pos hone, Program.run_bind_eq exec (run_expire hpos)]
      refine ⟨_, rfl, ?_⟩
      rw [TtlStore.Store.lookup_expireIn _ _ _ hms, TtlStore.Store.lookup_alter, if_pos rfl]
    · rw [if_neg hone]
      refine ⟨_, rfl, ?_⟩
      rw [TtlStore.Store.lookup_alter, if_pos rfl]
  have hne : timeoutKey p ≠ timeoutEventsKey p := by
    intro h
    have hsuffix : OutcomeField.key p .timeout = OutcomeField.key p .timeoutEvents := h
    rw [OutcomeField.key_eq, OutcomeField.key_eq, append_left_inj] at hsuffix
    exact absurd (OutcomeField.suffix_injective hsuffix) (by simp)
  -- the event goes under another key, whether its commands succeed or not
  have hevent : Program.Issues (fun c => c.key = timeoutEventsKey p)
      (whenRequestId requestId fun requestId => recordTimeoutEvent p requestId ts) := by
    refine whenRequestId_issues requestId fun r => ?_
    refine Program.Issues.bind (.perform rfl) fun _ => ?_
    exact .bind (.perform rfl) fun _ => .pure _
  have hkeep := run_entry_ne hevent (k := timeoutKey p) (fun _ hc => hc ▸ hne) s₁
  unfold recordTimeoutFallback
  rw [run, Program.run_tryCatch, Program.run_bind_eq exec hcount]
  rw [run] at hkeep
  rcases hrest : Program.run exec
      (whenRequestId requestId fun requestId => recordTimeoutEvent p requestId ts) s₁ with
    ⟨e | a, s₂⟩
  · rw [hrest] at hkeep
    exact (lookup_eq_of_entry hkeep.1 hkeep.2).trans hlookup
  · rw [hrest] at hkeep
    exact (lookup_eq_of_entry hkeep.1 hkeep.2).trans hlookup

theorem markReportSent_issues_key (t marker : String) (ttlSeconds : ℤ) :
    Program.Issues (fun c => c.key = reportKey p t marker) (markReportSent p t marker ttlSeconds) :=
  .tryCatch (.perform rfl) fun _ => .pure _

theorem run_markReportSent_again {t marker : String} (ttlSeconds : ℤ)
    (h : (s.lookup (reportKey p t marker)).isSome = true) :
    run (markReportSent p t marker ttlSeconds) s = (.ok false, s) := by
  have hpos : ¬(max ttlSeconds 1).toNat = 0 := by omega
  have hset : Program.run exec (setNxEx (reportKey p t marker) (.str "1") (max ttlSeconds 1).toNat)
      s = (.ok false, s) := by
    rw [setNxEx, Program.run_perform, exec, if_neg hpos, if_pos h]
  rw [run, markReportSent, Program.run_tryCatch, hset]

theorem lookup_markReportSent (t marker : String) (ttlSeconds : ℤ) :
    ((run (markReportSent p t marker ttlSeconds) s).2.lookup (reportKey p t marker)).isSome =
      true := by
  by_cases h : (s.lookup (reportKey p t marker)).isSome = true
  · rw [run_markReportSent_again ttlSeconds h]
    exact h
  · have hpos : ¬(max ttlSeconds 1).toNat = 0 := by omega
    have hset : Program.run exec
        (setNxEx (reportKey p t marker) (.str "1") (max ttlSeconds 1).toNat) s =
        (.ok true, s.put (reportKey p t marker) (.text (.str "1"))
          ((max ttlSeconds 1).toNat * 1000)) := by
      rw [setNxEx, Program.run_perform, exec, if_neg hpos, if_neg h]
    rw [run, markReportSent, Program.run_tryCatch, hset]
    dsimp only
    rw [TtlStore.Store.lookup_put _ _ _ _ (by omega), if_pos rfl]
    rfl

end Store

section Duplicate

variable {settings : Settings} {m : Manager} {project : Project} {q : ReportCall} {p r : String}
  {w : Backend} {t₁ t₂ : ℕ}

theorem whole_of_kept {now : ℕ} {outcome : Bool × Option OutcomePayload} {w' : Backend}
    (hfirst : q.step settings m project now .waiting (w.at now) = (.finalized outcome, w'))
    (hkept : supersedesLiveBlock (fallbackDecision project) outcome = false) :
    q.whole settings m project now w = (q.step settings m project now .reconciled w').2 := by
  have hfinalized : q.step settings m project now (.finalized outcome) w' =
      (.cleared outcome, w') := by simp [ReportCall.step, hkept]
  have hcleared : q.step settings m project now (.cleared outcome) w' = (.reconciled, w') := by
    simp [ReportCall.step, hkept]
  simp only [ReportCall.whole, hfirst, hfinalized, hcleared]

variable (settings m q w) in
theorem whole_of_disabled (now : ℕ) (h : ¬project.protectEnabled = true) :
    q.whole settings m project now w =
      { w with redis := (run (observeFallback project q now) (w.redis.advance now)).2 } := by
  have hfirst : q.step settings m project now .waiting (w.at now) = (.finalized (false, none),
      { w with redis := (run (observeFallback project q now) (w.redis.advance now)).2 }) := by
    simp only [ReportCall.step, if_neg h]
    rfl
  rw [whole_of_kept hfirst rfl]
  simp [ReportCall.step, h]

theorem outcomeKey_ne_reportKey (p r t marker : String) : outcomeKey p r ≠ reportKey p t marker := by
  intro h
  have hl := congrArg String.toList h
  simp [outcomeKey, reportKey] at hl

/-- The store once the marker of a report is set. -/
def marked (settings : Settings) (project : Project) (q : ReportCall) (s : Store) : Store :=
  (run (markReportSent (q.report.scopedId project) "fail_closed"
    (orElse q.report.resolvedRequestId q.kind.reason) settings.incidentDedupWindowSeconds) s).2

variable (settings project q w) in
theorem reportFailClosedBlock_leaves (now : ℕ) {k : String}
    (hrequests : k ≠ requests60sKey (q.report.scopedId project))
    (htokens : k ≠ tokens60sKey (q.report.scopedId project)) :
    Leaves k (marked settings project q w.redis)
        (reportFailClosedBlock settings project q now w).2.redis ∧
      (reportFailClosedBlock settings project q now w).2.incidents = w.incidents := by
  have hwindow := run_entry_ne (k := k)
    (RollingWindow.getProject60s_issues (q.report.scopedId project) now) (fun c hc => by
      rcases hc with hc | hc
      · rw [hc]
        exact hrequests
      · rw [hc]
        exact htokens) (marked settings project q w.redis)
  unfold reportFailClosedBlock
  simp only []
  rw [← marked]
  split
  · rcases hread : run (RollingWindow.getProject60s (q.report.scopedId project) now)
      (marked settings project q w.redis) with ⟨e | usage, s⟩
    · rw [hread] at hwindow
      exact ⟨hwindow, rfl⟩
    · rw [hread] at hwindow
      exact ⟨hwindow, rfl⟩
  · exact ⟨⟨rfl, rfl⟩, rfl⟩

variable (settings m project q r w) in
theorem step_outcome (now : ℕ) (stage : ReportStage) (hstage : stage ≠ .waiting) :
    (q.step settings m project now stage w).1 ≠ .waiting ∧
      (q.step settings m project now stage w).2.redis.entry
          (outcomeKey (q.report.scopedId project) r) =
        w.redis.entry (outcomeKey (q.report.scopedId project) r) := by
  have hkey : ActionKey (outcomeKey (q.report.scopedId project) r) := actionKey_outcomeKey _ r
  cases stage with
  | waiting => exact absurd rfl hstage
  | finalized outcome =>
    by_cases hsupersedes : supersedesLiveBlock (fallbackDecision project) outcome = true
    · simp only [ReportCall.step, if_pos hsupersedes]
      exact ⟨by simp, (clearBlockCooldown_leaves (hkey.ne_cooldownKey _)
        (hkey.ne_cooldownOwnerKey _) q.report.resolvedRequestId).1⟩
    · simp only [ReportCall.step, if_neg hsupersedes]
      exact ⟨by simp, trivial⟩
  | cleared outcome =>
    by_cases hsupersedes : supersedesLiveBlock (fallbackDecision project) outcome = true
    · simp only [ReportCall.step, if_pos hsupersedes]
      exact ⟨by simp, trivial⟩
    · simp only [ReportCall.step, if_neg hsupersedes]
      exact ⟨by simp, trivial⟩
  | reconciled =>
    by_cases hclosed : project.protectEnabled = true ∧ project.protectFailMode = "closed"
    -- marker and windows have keys of their own
    · have hmark := run_entry_ne (markReportSent_issues_key (p := q.report.scopedId project)
        "fail_closed" (orElse q.report.resolvedRequestId q.kind.reason)
        settings.incidentDedupWindowSeconds) (fun c hc => hc ▸ outcomeKey_ne_reportKey _ r _ _)
        w.redis
      have hblock := (reportFailClosedBlock_leaves settings project q w now
        (hkey.ne_requests60sKey (q.report.scopedId project))
        (hkey.ne_tokens60sKey (q.report.scopedId project))).1
      have hentry := hblock.1.trans hmark.1
      simp only [ReportCall.step, if_pos hclosed]
      rcases hreport : reportFailClosedBlock settings project q now w with ⟨_ | _, w'⟩
      · rw [hreport] at hentry
        exact ⟨by simp, hentry⟩
      · rw [hreport] at hentry
        exact ⟨by simp, hentry⟩
    · simp only [ReportCall.step, if_neg hclosed]
      exact ⟨by simp, trivial⟩
  | ended => exact ⟨by simp [ReportCall.step], rfl⟩

variable (settings m project q) in
theorem whole_last (r : String) (now : ℕ) (w : Backend) : ∃ outcome w₁ w₃,
    q.step settings m project now .waiting (w.at now) = (.finalized outcome, w₁) ∧
      w₃.redis.entry (outcomeKey (q.report.scopedId project) r) =
        w₁.redis.entry (outcomeKey (q.report.scopedId project) r) ∧
      q.whole settings m project now w = (q.step settings m project now .reconciled w₃).2 := by
  obtain ⟨outcome, w₁, w₂, w₃, hfirst, hsecond, hthird, hwhole⟩ :=
    ReportCall.whole_stages settings m project q now w
  refine ⟨outcome, w₁, w₃, hfirst, ?_, hwhole⟩
  have h₂ := (step_outcome settings m project q r w₁ now
    (.finalized outcome) (by simp)).2
  have h₃ := (step_outcome settings m project q r w₂ now
    (.cleared outcome) (by simp)).2
  rw [hsecond] at h₂
  rw [hthird] at h₃
  exact h₃.trans h₂

variable (settings m t₂) in
/-- A processed report has left an outcome that refuses it, and its marker. -/
theorem whole_leaves (hr : r ≠ "") (hq : q.report.resolvedRequestId = some r)
    (henabled : project.protectEnabled = true)
    (hanswers : Answers (q.report.scopedId project) r (q.payload project t₁)
      (w.redis.advance t₁)) :
    Holds (q.report.scopedId project) r
        (fun x => shouldReplaceOutcome x (q.payload project t₂) = false)
        (q.whole settings m project t₁ w).redis ∧
      (project.protectFailMode = "closed" →
        ((q.whole settings m project t₁ w).redis.lookup
          (reportKey (q.report.scopedId project) "fail_closed" r)).isSome = true) := by
  obtain ⟨applied, old, s, hrun, hf⟩ := hanswers.finalized hr
  obtain ⟨outcome, w₁, w₃, hfirst, hentry, hwhole⟩ :=
    whole_last settings m project q r t₁ w
  have hkey : ActionKey (outcomeKey (q.report.scopedId project) r) := actionKey_outcomeKey _ r
  constructor
  · have hw₁ : w₁.redis = s := by
      simp only [ReportCall.step, if_pos henabled, hq] at hfirst
      simp only [ReportCall.payload] at hrun
      rw [Backend.at, hrun] at hfirst
      exact (congrArg Backend.redis (Prod.mk.inj hfirst).2).symm
    -- what the first report has stored refuses the second
    obtain ⟨e, x, he, hx⟩ := hf.refuses (parseLast_payload project q t₁)
    have hlast := (step_outcome settings m project q r w₃ t₁
      (.reconciled) (by simp)).2
    rw [← hwhole] at hlast
    exact ⟨e, x, by rw [hlast, hentry, hw₁, he], hx⟩
  · intro hclosed
    -- a closed project has marked the report as sent
    have hmarker := lookup_markReportSent (s := w₃.redis) (p := q.report.scopedId project)
      "fail_closed" (orElse q.report.resolvedRequestId q.kind.reason)
      settings.incidentDedupWindowSeconds
    have hreport : ActionKey (reportKey (q.report.scopedId project) "fail_closed" r) :=
      actionKey_reportKey _ _ r
    have hleaves := (reportFailClosedBlock_leaves settings project q w₃ t₁
      (hreport.ne_requests60sKey (q.report.scopedId project))
      (hreport.ne_tokens60sKey (q.report.scopedId project))).1
    have hredis : (q.whole settings m project t₁ w).redis =
        (reportFailClosedBlock settings project q t₁ w₃).2.redis := by
      rw [hwhole]
      simp only [ReportCall.step, if_pos (And.intro henabled hclosed)]
      rcases reportFailClosedBlock settings project q t₁ w₃ with ⟨_ | _, w'⟩ <;> rfl
    rw [hredis, lookup_eq_of_entry hleaves.1 hleaves.2]
    rw [hq, orElse_of_ne hr] at hmarker
    rw [marked, hq, orElse_of_ne hr]
    exact hmarker

/-- Where the outcome and the marker are still there, only an incident can change. -/
theorem whole_again (hr : r ≠ "") (hq : q.report.resolvedRequestId = some r)
    (henabled : project.protectEnabled = true)
    (hholds : Holds (q.report.scopedId project) r
      (fun x => shouldReplaceOutcome x (q.payload project t₂) = false) w.redis)
    (halive : ∀ e, w.redis.entry (outcomeKey (q.report.scopedId project) r) = some e →
      e.alive t₂ = true)
    (hmarker : project.protectFailMode = "closed" → ((w.redis.advance t₂).lookup
      (reportKey (q.report.scopedId project) "fail_closed" r)).isSome = true) :
    q.whole settings m project t₂ w =
      if project.protectFailMode = "closed" then { w.at t₂ with
        incidents := (Program.run IncidentRepository.exec (IncidentManager.processProtectBlock m
          (failClosedBlock project q t₂)) w.incidents).2 }
      else w.at t₂ := by
  obtain ⟨x, hrun⟩ := run_finalizeOutcome_refused (p := q.report.scopedId project) hr
    (s := w.redis.advance t₂) hholds halive
  have hfirst : q.step settings m project t₂ .waiting (w.at t₂) =
      (.finalized (false, some x), w.at t₂) := by
    simp only [ReportCall.step, if_pos henabled, hq]
    simp only [ReportCall.payload] at hrun
    rw [Backend.at, hrun]
    rfl
  rw [whole_of_kept hfirst (by simp [supersedesLiveBlock])]
  by_cases hclosed : project.protectFailMode = "closed"
  · have hmark : run (markReportSent (q.report.scopedId project) "fail_closed"
        (orElse q.report.resolvedRequestId q.kind.reason) settings.incidentDedupWindowSeconds)
        (w.at t₂).redis = (.ok false, (w.at t₂).redis) := by
      rw [hq, orElse_of_ne hr]
      exact run_markReportSent_again _ (hmarker hclosed)
    have hreport : reportFailClosedBlock settings project q t₂ (w.at t₂) = (true, w.at t₂) := by
      unfold reportFailClosedBlock
      simp only [hmark]
      rfl
    simp only [ReportCall.step, if_pos (And.intro henabled hclosed), hreport, if_pos hclosed]
    rfl
  · have hopen : ¬(project.protectEnabled = true ∧ project.protectFailMode = "closed") :=
      fun h => hclosed h.2
    simp only [ReportCall.step, if_neg hopen, if_neg hclosed]

variable (m project q) in
/-- A repeated report finds nothing to count: no active block incident to merge into where the
project fails closed; and where protection is off, it reports no timeout. -/
def RepeatsNothing (now : ℕ) (w : Backend) : Prop :=
  if project.protectEnabled = true then
    project.protectFailMode = "closed" →
      activeBlock (now - blockWindowMs m)
        (listOpen w.incidents.incidents project.id q.provider) = none
  else q.kind = .unavailable

variable (m project q) in
theorem run_failClosedBlock (now : ℕ) (w : IncidentRepository.World) :
    Merged m (failClosedBlock project q now) w (Program.run IncidentRepository.exec
      (IncidentManager.processProtectBlock m (failClosedBlock project q now)) w).2 :=
  (run_mergeIntoActiveBlock m (failClosedBlock project q now) w).2

theorem sameRecords_merged {now : ℕ} {w' : IncidentRepository.World}
    (h : Merged m (failClosedBlock project q now) w.incidents w') :
    SameRecords p w { w with incidents := w' } ↔
      activeBlock (now - blockWindowMs m)
        (listOpen w.incidents.incidents project.id q.provider) = none := by
  cases h with
  | none hnone => exact ⟨fun _ => hnone, fun _ => .refl p w⟩
  | some id i tbl hfound htbl =>
    constructor
    · intro h
      have hi := (IncidentManager.activeBlock_some hfound).1
      have hcount := h.counts id
      rw [htbl, Table.get_update, if_pos rfl, hi, Option.map_some, Option.map_some, Option.map_some,
        (again_mergedBlock i _ _ _).count] at hcount
      have hsame := Option.some.inj hcount
      omega
    · intro hnone
      have hfound' : activeBlock (now - blockWindowMs m)
          (listOpen w.incidents.incidents project.id q.provider) = some (id, i) := hfound
      rw [hfound'] at hnone
      cases hnone

/-- A report that comes again, while its outcome and its marker are still stored, changes nothing
if and only if it finds nothing to count. -/
theorem duplicate_report_iff (settings : Settings) (m : Manager) (project : Project)
    (q : ReportCall) (r : String) (hr : r ≠ "") (hq : q.report.resolvedRequestId = some r)
    (w : Backend) (t₁ t₂ : ℕ)
    (hanswers : project.protectEnabled = true → Answers (q.report.scopedId project) r
      (q.payload project t₁) (w.redis.advance t₁))
    (houtcome : project.protectEnabled = true →
      ∀ e, (q.whole settings m project t₁ w).redis.entry
        (outcomeKey (q.report.scopedId project) r) = some e → e.alive t₂ = true)
    (hwindow : project.protectEnabled = true → project.protectFailMode = "closed" →
      ∀ e, (q.whole settings m project t₁ w).redis.entry
        (reportKey (q.report.scopedId project) "fail_closed" r) = some e → e.alive t₂ = true)
    (hcounter : project.protectEnabled = false → q.kind = .timeout → ∃ n,
      counterOf (((q.whole settings m project t₁ w).redis.advance t₂).lookup
        (timeoutKey (q.report.scopedId project))) = some n ∧ inRange (n + 1) = true) :
    SameRecords (q.report.scopedId project) ((q.whole settings m project t₁ w).at t₂)
        (q.whole settings m project t₂ (q.whole settings m project t₁ w)) ↔
      RepeatsNothing m project q t₂ (q.whole settings m project t₁ w) := by
  unfold RepeatsNothing
  by_cases henabled : project.protectEnabled = true
  · obtain ⟨hholds, hmarker⟩ := whole_leaves settings m t₂ hr hq henabled
      (hanswers henabled)
    generalize q.whole settings m project t₁ w = w' at *
    -- the marker of the first report is still there
    have hmarker' : project.protectFailMode = "closed" → ((w'.redis.advance t₂).lookup
        (reportKey (q.report.scopedId project) "fail_closed" r)).isSome = true := by
      intro hclosed
      obtain ⟨v, hv⟩ := Option.isSome_iff_exists.mp (hmarker hclosed)
      obtain ⟨e, he, -⟩ := Option.map_eq_some_iff.mp hv
      have hentry := (Option.filter_eq_some_iff.mp he).1
      have halive := hwindow henabled hclosed e hentry
      simp [TtlStore.Store.lookup, TtlStore.Store.live, hentry, Option.filter_some, halive]
    rw [whole_again hr hq henabled hholds (houtcome henabled) hmarker', if_pos henabled]
    -- the second report finds its outcome; only a closed project merges once more
    by_cases hclosed : project.protectFailMode = "closed"
    · rw [if_pos hclosed]
      have hmerged := sameRecords_merged (p := q.report.scopedId project) (w := w'.at t₂)
        (run_failClosedBlock m project q t₂ w'.incidents)
      exact hmerged.trans ⟨fun h _ => h, fun h => h hclosed⟩
    · rw [if_neg hclosed]
      exact ⟨fun _ h => absurd h hclosed, fun _ => .refl _ _⟩
  · rw [if_neg henabled, whole_of_disabled settings m q (q.whole settings m project t₁ w) t₂ henabled]
    have hcounter := hcounter (by simpa using henabled)
    generalize q.whole settings m project t₁ w = w' at *
    cases hkind : q.kind with
    -- a report that is no timeout is not counted
    | unavailable =>
      have hidle : observeFallback project q t₂ = pure () := by simp [observeFallback, hkind]
      rw [hidle]
      exact ⟨fun _ => rfl, fun _ => .refl _ _⟩
    | timeout =>
      have hcount : observeFallback project q t₂ = recordTimeoutFallback
          (q.report.scopedId project) q.report.resolvedRequestId t₂ := by
        simp [observeFallback, hkind]
      obtain ⟨n, hn, hrange⟩ := hcounter hkind
      constructor
      · intro h
        -- the timeout is counted once more
        have htimeout := h.counters .timeout (by simp)
        simp only [hcount, OutcomeField.key, Backend.at] at htimeout
        rw [lookup_recordTimeoutFallback hn hrange] at htimeout
        rw [htimeout, counterOf_number] at hn
        have hsame := Option.some.inj hn
        omega
      · intro h
        cases h

end Duplicate

/-- A report of a project that fails closed, twice within the window of its marker. -/
theorem duplicate_report_iff_sample :
    SameRecords "p1:openai"
        ((sampleTimeout.whole sampleSettings {} { sampleProject with protectFailMode := "closed" }
          2000 sampleBackend).at 3000)
        (sampleTimeout.whole sampleSettings {} { sampleProject with protectFailMode := "closed" } 3000
          (sampleTimeout.whole sampleSettings {} { sampleProject with protectFailMode := "closed" }
            2000 sampleBackend)) ↔
      RepeatsNothing {} { sampleProject with protectFailMode := "closed" } sampleTimeout 3000
        (sampleTimeout.whole sampleSettings {} { sampleProject with protectFailMode := "closed" }
          2000 sampleBackend) := by
  have hall : ∀ {k : String} {s : Store}, (s.entry k).all (·.alive 3000) = true →
      ∀ e, s.entry k = some e → e.alive 3000 = true := by
    intro k s h e he
    rw [he] at h
    exact h
  exact duplicate_report_iff sampleSettings {} { sampleProject with protectFailMode := "closed" }
    sampleTimeout "r1" (by decide) rfl sampleBackend 2000 3000 (fun _ => by decide)
    (fun _ => hall (by decide)) (fun _ _ => hall (by decide)) fun h => by cases h

/-- Where protection is off, a timeout that is reported twice counts twice. -/
theorem duplicate_timeout_counts_twice :
    ((sampleTimeout.whole sampleSettings {} { sampleProject with protectEnabled := false }
        2000 sampleBackend).redis.advance 3000).lookup (timeoutKey "p1:openai") =
      some (number 1) ∧
    (sampleTimeout.whole sampleSettings {} { sampleProject with protectEnabled := false } 3000
        (sampleTimeout.whole sampleSettings {} { sampleProject with protectEnabled := false }
          2000 sampleBackend)).redis.lookup (timeoutKey "p1:openai") = some (number 2) ∧
    ¬SameRecords "p1:openai"
      ((sampleTimeout.whole sampleSettings {} { sampleProject with protectEnabled := false }
        2000 sampleBackend).at 3000)
      (sampleTimeout.whole sampleSettings {} { sampleProject with protectEnabled := false } 3000
        (sampleTimeout.whole sampleSettings {} { sampleProject with protectEnabled := false }
          2000 sampleBackend)) := by
  refine ⟨by decide, by decide, fun h => ?_⟩
  have hcount := h.counters .timeout (by simp)
  revert hcount
  decide

end Rheonic.ProtectBackend
