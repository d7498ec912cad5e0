import Rheonic.DuplicateReport
import Rheonic.FinalizeCounters
import Rheonic.FallbackRace
import Rheonic.IncidentAttribution

namespace Rheonic.ProtectBackend
open CommandProgram Redis Keys PyText ProtectActionStore ProtectService ProtectApi
open IncidentManager (Manager)

/-- The keys of the outcomes, the counters and the cooldown of a scope. -/
def Watched (p k : String) : Prop :=
  (∃ f : OutcomeField, k = f.key p) ∨ k = cooldownKey p ∨ k = cooldownOwnerKey p

/-- A step that leaves all of them as they are. -/
def Keeps (p : String) (s s' : Store) : Prop := ∀ k, Watched p k → Leaves k s s'

def readOutcome : Option Value → Option OutcomePayload
  | some (.text t) => parseLast (some t)
  | _ => none

/-- What the store tells of a request and its scope. -/
structure View where
  outcome : Option OutcomePayload
  count : {f // IsCounter f} → Option ℤ
  mark : Option Value
  owner : Option Value

namespace View

def of (p r : String) (s : Store) : View where
  outcome := readOutcome (s.lookup (outcomeKey p r))
  count f := counterOf (s.lookup (f.1.key p))
  mark := s.lookup (cooldownKey p)
  owner := s.lookup (cooldownOwnerKey p)

variable (v : View) (payload : OutcomePayload) (r : String)

/-- Nothing is stored that refuses the payload. -/
def accepts : Bool := v.outcome.all (shouldReplaceOutcome · payload)

def finalized : View :=
  { v with
    outcome := if v.accepts payload then some payload else v.outcome
    count := fun f => (v.count f).map (moved (v.accepts payload) v.outcome payload f.1) }

def cooled (d : ProtectDecision) : View :=
  match capBreachTimes d with
  | some (untilMs, _) =>
    { v with mark := some (number untilMs), owner := some (.text (.str r)) }
  | none => v

def cleared : View :=
  if v.owner = some (.text (.str r)) then { v with mark := none, owner := none } else v

def reported (project : Project) : View :=
  if supersedesLiveBlock (fallbackDecision project) (v.accepts payload, v.outcome) then
    (v.finalized payload).cleared r
  else v.finalized payload

end View

section Keep

variable {p r k : String} {s s' s'' : Store}

theorem Keeps.refl (p : String) (s : Store) : Keeps p s s := fun _ _ => ⟨rfl, rfl⟩

theorem Keeps.trans (h : Keeps p s s') (h' : Keeps p s' s'') : Keeps p s s'' :=
  fun k hk => (h k hk).trans (h' k hk)

theorem watched_field (f : OutcomeField) : Watched p (f.key p) := .inl ⟨f, rfl⟩

theorem Keeps.lookup (h : Keeps p s s') (hk : Watched p k) : s'.lookup k = s.lookup k :=
  lookup_eq_of_entry (h k hk).1 (h k hk).2

theorem Keeps.clock (h : Keeps p s s') : s'.clock = s.clock :=
  (h (cooldownKey p) (.inr (.inl rfl))).2

theorem Keeps.view (h : Keeps p s s') : View.of p r s' = View.of p r s := by
  have hcount : (View.of p r s').count = (View.of p r s).count := by
    funext f
    exact congrArg counterOf (h.lookup (watched_field f.1))
  have houtcome : s'.lookup (outcomeKey p r) = s.lookup (outcomeKey p r) :=
    h.lookup (watched_field (.outcome r))
  simp only [View.of, View.mk.injEq] at hcount ⊢
  exact ⟨congrArg readOutcome houtcome, hcount, h.lookup (.inr (.inl rfl)),
    h.lookup (.inr (.inr rfl))⟩

theorem actionKey_field (p : String) (f : OutcomeField) : ActionKey (f.key p) := by
  rw [OutcomeField.key_eq, String.append_assoc, String.append_assoc]
  exact ⟨_, rfl⟩

theorem Watched.ne_requests60sKey (h : Watched p k) : k ≠ requests60sKey p := by
  rcases h with ⟨f, rfl⟩ | rfl | rfl
  · exact (actionKey_field p f).ne_requests60sKey p
  · exact (requests60sKey_ne_cooldownKey p p).symm
  · exact (requests60sKey_ne_cooldownOwnerKey p p).symm

theorem Watched.ne_tokens60sKey (h : Watched p k) : k ≠ tokens60sKey p := by
  rcases h with ⟨f, rfl⟩ | rfl | rfl
  · exact (actionKey_field p f).ne_tokens60sKey p
  · exact (tokens60sKey_ne_cooldownKey p p).symm
  · exact (tokens60sKey_ne_cooldownOwnerKey p p).symm

theorem actionKey_latencyKey (p : String) : ActionKey (latencyKey p) := by
  unfold latencyKey
  exact actionKey_append p _

theorem Watched.ne_latencyKey (h : Watched p k) : k ≠ latencyKey p := by
  rcases h with ⟨f, rfl⟩ | rfl | rfl
  · intro he
    have hl : "pa:" ++ p ++ ":" ++ f.suffix = "pa:" ++ p ++ ":" ++ "latency:60m" := by
      rw [← OutcomeField.key_eq, he]
      apply String.toList_injective
      simp [latencyKey]
    have hsuffix := congrArg String.toList (append_left_inj.mp hl)
    cases f <;> simp [OutcomeField.suffix] at hsuffix
  · exact ((actionKey_latencyKey p).ne_cooldownKey p).symm
  · exact ((actionKey_latencyKey p).ne_cooldownOwnerKey p).symm

theorem Watched.ne_reportKey (h : Watched p k) (t marker : String) : k ≠ reportKey p t marker := by
  rcases h with ⟨f, rfl⟩ | rfl | rfl
  · intro he
    have hl : "pa:" ++ p ++ ":" ++ f.suffix = "pa:" ++ p ++ ":" ++ ("report:" ++ t ++ ":" ++ marker) := by
      rw [← OutcomeField.key_eq, he]
      apply String.toList_injective
      simp [reportKey]
    have hsuffix := congrArg String.toList (append_left_inj.mp hl)
    cases f <;> simp [OutcomeField.suffix] at hsuffix
  · exact ((actionKey_reportKey p t marker).ne_cooldownKey p).symm
  · exact ((actionKey_reportKey p t marker).ne_cooldownOwnerKey p).symm

end Keep

section Steps

variable {p r : String} {payload : OutcomePayload} {s s' : Store}

theorem readOutcome_map (raw : Option Text) : readOutcome (raw.map .text) = parseLast raw := by
  cases raw with
  | none => rfl
  | some t => rfl

theorem readOutcome_some {v : Option Value} {x : OutcomePayload} (h : readOutcome v = some x) :
    v = some (.text (.json x)) ∧ parseLast (some (.json x)) = some x := by
  unfold readOutcome at h
  split at h
  · have hjson := parseLast_some h
    rw [Option.some.inj hjson] at h ⊢
    exact ⟨rfl, h⟩
  · cases h

theorem lookup_of_entry {k : String} {e : TtlStore.Entry Value} (h : s.entry k = some e)
    (halive : e.alive s.clock = true) : s.lookup k = some e.value := by
  simp [TtlStore.Store.lookup, TtlStore.Store.live, h, Option.filter_some, halive]

theorem alive_of_lt {v : Value} {deadline now : ℕ} (h : now < deadline) :
    TtlStore.Entry.alive ⟨v, some deadline⟩ now = true := by
  simpa [TtlStore.Entry.alive] using h

theorem lookup_of_finalized {old : Option OutcomePayload}
    (hf : Finalized p r payload s true old s') :
    s'.lookup (outcomeKey p r) = some (.text (.json payload)) := by
  have hentry := hf.stored rfl
  have hpos : 0 < protectActionCounterTtlSeconds * 1000 := by decide
  generalize protectActionCounterTtlSeconds * 1000 = ms at hentry hpos
  have hlt : s'.clock < s.clock + ms := by
    have hclock := hf.clock
    omega
  exact lookup_of_entry hentry (alive_of_lt hlt)

theorem view_of_finalized {applied : Bool} {old : Option OutcomePayload}
    (hf : Finalized p r payload s applied old s')
    (hmoves : Moves p s s' (moved applied old payload))
    (hmark : Leaves (cooldownKey p) s s') (howner : Leaves (cooldownOwnerKey p) s s')
    (hparse : parseLast (some (.json payload)) = some payload) :
    applied = (View.of p r s).accepts payload ∧ old = (View.of p r s).outcome ∧
      View.of p r s' = (View.of p r s).finalized payload := by
  obtain ⟨raw, hraw, hold⟩ := hf.old_eq
  have hold' : old = (View.of p r s).outcome := by
    simp only [View.of]
    rw [hraw, readOutcome_map, hold]
  have happlied : applied = (View.of p r s).accepts payload := by
    rw [View.accepts, ← hold', hf.applied_eq]
  -- stored if accepted, as it was if refused
  have houtcome : (View.of p r s').outcome =
      if applied = true then some payload else (View.of p r s).outcome := by
    cases applied with
    | true =>
      have hread : readOutcome (some (.text (.json payload))) = some payload := hparse
      rw [if_pos rfl, View.of, lookup_of_finalized hf]
      exact hread
    | false =>
      rw [hf.refused rfl]
      rfl
  have hcount : (View.of p r s').count =
      fun f => ((View.of p r s).count f).map (moved applied old payload f.1) := by
    funext f
    exact hmoves f.1 f.2
  refine ⟨happlied, hold', ?_⟩
  rw [happlied] at houtcome hcount
  rw [hold'] at hcount
  -- finalizing knows nothing of the cooldown
  have hmark' : (View.of p r s').mark = (View.of p r s).mark :=
    lookup_eq_of_entry hmark.1 hmark.2
  have howner' : (View.of p r s').owner = (View.of p r s).owner :=
    lookup_eq_of_entry howner.1 howner.2
  generalize View.of p r s' = v' at houtcome hcount hmark' howner'
  obtain ⟨outcome', count', mark', owner'⟩ := v'
  subst houtcome hcount hmark' howner'
  rfl

theorem view_of_answers (hr : r ≠ "") (h : Answers p r payload s)
    (hparse : parseLast (some (.json payload)) = some payload) : ∃ s',
    run (finalizeOutcome p payload.decision payload.reason payload.source (some r) payload.ts) s =
        (.ok ((View.of p r s).accepts payload, (View.of p r s).outcome), s') ∧
      s'.clock = s.clock ∧ View.of p r s' = (View.of p r s).finalized payload := by
  have hcaught := Program.run_tryCatch exec (finalizeBody p payload (some r))
    (fun _ => pure (false, none)) s
  have hissues := finalizeBody_issues (p := p) payload (some r)
  have hmark := run_entry_ne hissues (fun _ hc => (ActionKey.ne_cooldownKey hc p).symm) s
  have howner := run_entry_ne hissues (fun _ hc => (ActionKey.ne_cooldownOwnerKey hc p).symm) s
  unfold Answers at h
  rcases hbody : run (finalizeBody p payload (some r)) s with ⟨e | ⟨applied, old⟩, s'⟩
  · rw [hbody] at h
    cases h
  · rw [hbody] at hmark howner
    obtain ⟨happlied, hold, hview⟩ := view_of_finalized (finalizeBody_finalized hr hbody)
      (finalizeBody_moves hr hbody) hmark howner hparse
    rw [run] at hbody
    rw [hbody] at hcaught
    refine ⟨s', ?_, hmark.2, hview⟩
    rw [happlied, hold] at hcaught
    exact hcaught

theorem run_finalizeOutcome_view_refused (hr : r ≠ "")
    (h : (View.of p r s).accepts payload = false) :
    ∃ old, run (finalizeOutcome p payload.decision payload.reason payload.source (some r)
      payload.ts) s = (.ok (false, old), s) := by
  obtain ⟨x, hx, hrefuses⟩ : ∃ x, (View.of p r s).outcome = some x ∧
      shouldReplaceOutcome x payload = false := by
    unfold View.accepts at h
    cases hx : (View.of p r s).outcome with
    | none =>
      rw [hx] at h
      cases h
    | some x =>
      rw [hx] at h
      exact ⟨x, rfl, h⟩
  obtain ⟨hlookup, hparse⟩ := readOutcome_some hx
  obtain ⟨e, he, hvalue⟩ := Option.map_eq_some_iff.mp hlookup
  obtain ⟨hentry, halive⟩ := Option.filter_eq_some_iff.mp he
  obtain ⟨old, hrun⟩ := run_finalizeOutcome_refused hr ⟨e, x, hentry, hvalue, hparse, hrefuses⟩
    (fun e' he' => by rw [hentry] at he'; exact Option.some.inj he' ▸ halive)
  exact ⟨some old, hrun⟩

theorem view_clearBlockCooldown (hr : r ≠ "") :
    View.of p r (run (clearBlockCooldown p (some r)) s).2 = (View.of p r s).cleared r := by
  have hfield : ∀ f : OutcomeField, (run (clearBlockCooldown p (some r)) s).2.lookup (f.key p) =
      s.lookup (f.key p) := by
    intro f
    have hleaves := clearBlockCooldown_leaves (s := s) ((actionKey_field p f).ne_cooldownKey p)
      ((actionKey_field p f).ne_cooldownOwnerKey p) (some r)
    exact lookup_eq_of_entry hleaves.1 hleaves.2
  have houtcome := hfield (.outcome r)
  unfold View.cleared
  by_cases howner : s.lookup (cooldownOwnerKey p) = some (.text (.str r))
  · rw [if_pos (show (View.of p r s).owner = _ from howner)]
    simp only [View.of, View.mk.injEq, hfield]
    refine ⟨congrArg readOutcome houtcome, trivial, ?_, ?_⟩
    · rw [run_clearBlockCooldown_owner howner]
      simp [TtlStore.Store.lookup_alter]
    · rw [run_clearBlockCooldown_owner howner]
      simp [TtlStore.Store.lookup_alter]
  · rw [if_neg (show ¬(View.of p r s).owner = _ from howner), run_clearBlockCooldown_other hr howner]

theorem view_startCooldown (hr : r ≠ "") {d : ProtectDecision} :
    View.of p r (run (startCooldown p (some r) ⟨d, true⟩) s).2 = (View.of p r s).cooled r d := by
  have hfield : ∀ f : OutcomeField, (run (startCooldown p (some r) ⟨d, true⟩) s).2.lookup
      (f.key p) = s.lookup (f.key p) := by
    intro f
    have hleaves := startCooldown_leaves (s := s) ((actionKey_field p f).ne_cooldownKey p)
      ((actionKey_field p f).ne_cooldownOwnerKey p) (some r) ⟨d, true⟩
    exact lookup_eq_of_entry hleaves.1 hleaves.2
  have houtcome := hfield (.outcome r)
  cases htimes : capBreachTimes d with
  | none =>
    rw [run_startCooldown_idle (.inr htimes), View.cooled, htimes]
  | some times =>
    obtain ⟨untilMs, seconds⟩ := times
    have hpos : ¬(max seconds 1).toNat = 0 := by omega
    have hms : 0 < (max seconds 1).toNat * 1000 := by omega
    -- both keys live for the same seconds
    have hset : ∀ (k : String) (v : Text) (t : Store), Program.run exec
        (set k v (max seconds 1).toNat) t =
          (.ok (), t.put k (.text v) ((max seconds 1).toNat * 1000)) := by
      intro k v t
      rw [Redis.set, Program.run_perform, exec, if_neg hpos]
    have hrun : run (startCooldown p (some r) ⟨d, true⟩) s = (.ok (),
        (s.put (cooldownKey p) (number untilMs) ((max seconds 1).toNat * 1000)).put
          (cooldownOwnerKey p) (.text (.str r)) ((max seconds 1).toNat * 1000)) := by
      unfold startCooldown
      simp only [htimes, if_true]
      unfold setBlockCooldown
      rw [run, Program.run_tryCatch, Program.run_bind_eq exec (hset _ _ s), whenRequestId_some hr,
        hset]
      rfl
    have hne : cooldownKey p ≠ cooldownOwnerKey p := cooldownKey_ne_ownerKey p p
    rw [View.cooled, htimes]
    simp only [View.of, View.mk.injEq, hfield]
    -- outcome and counts are left, mark and owner are the new ones
    refine ⟨congrArg readOutcome houtcome, trivial, ?_, ?_⟩
    · rw [hrun]
      dsimp only
      rw [TtlStore.Store.lookup_put _ _ _ _ hms, if_neg hne, TtlStore.Store.lookup_put _ _ _ _ hms,
        if_pos rfl]
    · rw [hrun]
      dsimp only
      rw [TtlStore.Store.lookup_put _ _ _ _ hms, if_pos rfl]

end Steps

section Report

variable {settings : Settings} {m : Manager} {project : Project} {q : ReportCall} {r : String}
  {w : Backend} {now : ℕ}

theorem advance_self {s : Store} (h : s.clock = now) : s.advance now = s := by
  obtain ⟨clock, entry⟩ := s
  obtain rfl := h
  rfl

variable (settings project q w now) in
theorem reportFailClosedBlock_keeps : Keeps (q.report.scopedId project) w.redis
    (reportFailClosedBlock settings project q now w).2.redis := by
  intro k hk
  have hmark := run_entry_ne (markReportSent_issues_key (p := q.report.scopedId project)
    "fail_closed" (orElse q.report.resolvedRequestId q.kind.reason)
    settings.incidentDedupWindowSeconds) (fun c hc => hc ▸ hk.ne_reportKey _ _) w.redis
  have hblock := (reportFailClosedBlock_leaves settings project q w now hk.ne_requests60sKey
    hk.ne_tokens60sKey).1
  exact Leaves.trans hmark hblock

variable (settings m) in
/-- The first step of a report, as the view shows it. -/
theorem ReportCall.first_view (hr : r ≠ "") (hq : q.report.resolvedRequestId = some r)
    (henabled : project.protectEnabled = true)
    (hanswers : Answers (q.report.scopedId project) r (q.payload project now)
      (w.redis.advance now)) :
    ∃ s', q.step settings m project now .waiting (w.at now) =
        (.finalized ((View.of (q.report.scopedId project) r (w.redis.advance now)).accepts
            (q.payload project now),
          (View.of (q.report.scopedId project) r (w.redis.advance now)).outcome),
          { w with redis := s' }) ∧
      s'.clock = now ∧ View.of (q.report.scopedId project) r s' =
        (View.of (q.report.scopedId project) r (w.redis.advance now)).finalized
          (q.payload project now) := by
  obtain ⟨s', hrun, hclock, hview⟩ := view_of_answers hr hanswers (parseLast_payload project q now)
  have hfinalize : run (finalizeOutcome (q.report.scopedId project) (fallbackDecision project).text
      q.kind.reason q.kind.source (some r) now) (w.redis.advance now) = _ := hrun
  refine ⟨s', ?_, hclock, hview⟩
  simp only [ReportCall.step, if_pos henabled, hq]
  rw [Backend.at, hfinalize]
  rfl

variable (settings m) in
theorem ReportCall.whole_view (hr : r ≠ "") (hq : q.report.resolvedRequestId = some r)
    (henabled : project.protectEnabled = true)
    (hanswers : Answers (q.report.scopedId project) r (q.payload project now)
      (w.redis.advance now)) :
    (q.whole settings m project now w).redis.clock = now ∧
      View.of (q.report.scopedId project) r (q.whole settings m project now w).redis =
        (View.of (q.report.scopedId project) r (w.redis.advance now)).reported
          (q.payload project now) r project := by
  obtain ⟨s', hstep, hclock, hview⟩ := ReportCall.first_view settings m hr hq henabled
    hanswers
  obtain ⟨outcome, w₁, w₂, w₃, hfirst, hsecond, hthird, hwhole⟩ :=
    ReportCall.whole_stages settings m project q now w
  rw [hstep] at hfirst
  generalize View.of (q.report.scopedId project) r (w.redis.advance now) = v at *
  obtain ⟨houtcome, rfl⟩ := Prod.mk.inj hfirst
  obtain rfl := ReportStage.finalized.inj houtcome
  -- only the second stage changes the cooldown
  have h₂ : w₂.redis.clock = now ∧ View.of (q.report.scopedId project) r w₂.redis =
      v.reported (q.payload project now) r project := by
    have hredis := congrArg (fun e => e.2.redis) hsecond
    unfold View.reported
    by_cases hsupersedes : supersedesLiveBlock (fallbackDecision project)
        (v.accepts (q.payload project now), v.outcome) = true
    · simp only [ReportCall.step, if_pos hsupersedes, hq] at hredis
      rw [if_pos hsupersedes, ← hview, ← view_clearBlockCooldown hr, ← hredis]
      exact ⟨(run_clock _ s').trans hclock, rfl⟩
    · simp only [ReportCall.step, if_neg hsupersedes] at hredis
      rw [if_neg hsupersedes, ← hview, ← hredis]
      exact ⟨hclock, rfl⟩
  -- reconciling is about incidents
  have h₃ : w₃.redis = w₂.redis := by
    have hredis := congrArg (fun e => e.2.redis) hthird
    simp only [ReportCall.step] at hredis
    split at hredis
    · exact hredis.symm
    · exact hredis.symm
  -- and the alert has keys of its own
  have hlast : Keeps (q.report.scopedId project) w₃.redis
      (q.whole settings m project now w).redis := by
    rw [hwhole]
    by_cases hclosed : project.protectEnabled = true ∧ project.protectFailMode = "closed"
    · have hkeeps := reportFailClosedBlock_keeps settings project q w₃ now
      simp only [ReportCall.step, if_pos hclosed]
      rcases hreport : reportFailClosedBlock settings project q now w₃ with ⟨_ | _, w'⟩
      · rw [hreport] at hkeeps
        exact hkeeps
      · rw [hreport] at hkeeps
        exact hkeeps
    · simp only [ReportCall.step, if_neg hclosed]
      exact .refl _ _
  rw [h₃] at hlast
  exact ⟨hlast.clock.trans h₂.1, hlast.view.trans h₂.2⟩

end Report

section Live

variable {settings : Settings} {m : Manager} {project : Project} {c : LiveCall} {r : String}
  {w : Backend} {now : ℕ}

/-- The payload that a live decision finalizes. -/
def LiveCall.payload (d : ProtectDecision) (now : ℕ) : OutcomePayload :=
  ⟨d.decision.text, d.reason.text, sourceLive, now⟩

/-- The live decision comes out as `d`, and its outcome is going to be accepted. -/
structure Decides (settings : Settings) (project : Project) (c : LiveCall) (r : String) (now : ℕ)
    (w : Backend) (d : ProtectDecision) : Prop where
  enabled : project.protectEnabled = true
  id : project.id ≠ ""
  evaluated : (run (evaluateDecision settings project c.request.context now)
    (w.redis.advance now)).1 = .ok d
  accepted : (View.of (c.request.scopedId project) r (w.redis.advance now)).accepts
    (LiveCall.payload d now) = true

variable (settings project c now) in
theorem evaluateDecision_keeps (s : Store) : Keeps (c.request.scopedId project) s
    (run (evaluateDecision settings project c.request.context now) s).2 :=
  fun _ hk => evaluateDecision_leaves c.request.context now hk.ne_requests60sKey hk.ne_tokens60sKey

theorem recordHealth_keeps (p : String) (latencyMs : ℤ) (now : ℕ) (memberId : String) (s : Store) :
    Keeps p s (run (recordHealth p latencyMs now memberId) s).2 :=
  fun _ hk => recordHealth_leaves hk.ne_latencyKey latencyMs now memberId

theorem recordPreflightIncidentIfNeeded_congr {w' : Backend} (d : ProtectDecision)
    (h : w'.incidents = w.incidents) :
    (recordPreflightIncidentIfNeeded m project c d now w').incidents =
      (recordPreflightIncidentIfNeeded m project c d now w).incidents := by
  unfold recordPreflightIncidentIfNeeded
  split
  · exact h
  · split
    · rw [h]
    · exact h

variable (settings m) in
theorem LiveCall.whole_of_refused (hr : r ≠ "") (hc : c.request.requestId = some r)
    (h : ∀ d, ¬Decides settings project c r now w d) :
    Keeps (c.request.scopedId project) (w.redis.advance now)
        (c.whole settings m project now w).redis ∧
      (c.whole settings m project now w).incidents = w.incidents := by
  have hevaluate := evaluateDecision_keeps settings project c now (w.redis.advance now)
  have hended : ∀ w' : Backend, c.step settings m project now .ended w' = (.ended, w') :=
    fun _ => rfl
  rcases hrun : run (evaluateDecision settings project c.request.context now)
    (w.redis.advance now) with ⟨e | d, s₁⟩
  · rw [hrun] at hevaluate
    have hfirst : c.step settings m project now .waiting (w.at now) =
        (.ended, { w with redis := s₁ }) := by
      simp only [LiveCall.step, Backend.at, hrun]
    simp only [LiveCall.whole, hfirst, hended]
    exact ⟨hevaluate, trivial⟩
  · rw [hrun] at hevaluate
    have hfirst : c.step settings m project now .waiting (w.at now) =
        (.evaluated d, { w with redis := s₁ }) := by
      simp only [LiveCall.step, Backend.at, hrun]
    -- an outcome that is not accepted starts nothing but the health record
    have hrest : c.step settings m project now (.evaluated d) { w with redis := s₁ } =
        (.finalized d false, { w with redis := s₁ }) →
        Keeps (c.request.scopedId project) (w.redis.advance now)
            (c.whole settings m project now w).redis ∧
          (c.whole settings m project now w).incidents = w.incidents := by
      intro hsecond
      have hidle : (run (startCooldown (c.request.scopedId project) c.request.requestId ⟨d, false⟩)
          s₁).2 = s₁ := run_startCooldown_idle (.inl rfl)
      have hhealth := recordHealth_keeps (c.request.scopedId project) c.request.latencyMs now
        c.request.memberId s₁
      simp only [LiveCall.whole, hfirst, hsecond]
      simp only [LiveCall.step, hidle]
      exact ⟨hevaluate.trans hhealth, rfl⟩
    by_cases hid : project.id = ""
    · have hsecond : c.step settings m project now (.evaluated d) { w with redis := s₁ } =
          (.ended, { w with redis := s₁ }) := by
        simp only [LiveCall.step, if_pos hid]
      simp only [LiveCall.whole, hfirst, hsecond, hended]
      exact ⟨hevaluate, trivial⟩
    · by_cases henabled : project.protectEnabled = true
      · have hrefused : (View.of (c.request.scopedId project) r s₁).accepts
            (LiveCall.payload d now) = false := by
          rw [hevaluate.view]
          by_contra haccepted
          exact h d ⟨henabled, hid, congrArg Prod.fst hrun, by simpa using haccepted⟩
        obtain ⟨old, hfinalize⟩ := run_finalizeOutcome_view_refused hr hrefused
        simp only [LiveCall.payload] at hfinalize
        apply hrest
        simp only [LiveCall.step, if_neg hid, if_pos henabled, hc, hfinalize]
        rfl
      · apply hrest
        simp only [LiveCall.step, if_neg hid, if_neg henabled]

variable (settings m) in
/-- A decision whose outcome is accepted does to the view what deciding does to it. -/
theorem LiveCall.whole_of_decides (hr : r ≠ "") (hc : c.request.requestId = some r)
    {d : ProtectDecision} (h : Decides settings project c r now w d)
    (hanswers : Answers (c.request.scopedId project) r (LiveCall.payload d now)
      (run (evaluateDecision settings project c.request.context now) (w.redis.advance now)).2) :
    (c.whole settings m project now w).redis.clock = now ∧
      View.of (c.request.scopedId project) r (c.whole settings m project now w).redis =
        ((View.of (c.request.scopedId project) r (w.redis.advance now)).finalized
          (LiveCall.payload d now)).cooled r d ∧
      (c.whole settings m project now w).incidents =
        (recordPreflightIncidentIfNeeded m project c d now w).incidents := by
  have hevaluate := evaluateDecision_keeps settings project c now (w.redis.advance now)
  have hevaluated := h.evaluated
  have haccepted := h.accepted
  rcases hrun : run (evaluateDecision settings project c.request.context now)
    (w.redis.advance now) with ⟨answer, s₁⟩
  rw [hrun] at hevaluate hevaluated hanswers
  obtain rfl : answer = .ok d := hevaluated
  -- evaluating leaves what is known of the request
  have hfirst : c.step settings m project now .waiting (w.at now) =
      (.evaluated d, { w with redis := s₁ }) := by
    simp only [LiveCall.step, Backend.at, hrun]
  have hparse : parseLast (some (.json (LiveCall.payload d now))) = some (LiveCall.payload d now) :=
    parseLast_json (Verdict.text_ne _) (Reason.text_ne _) sourceLive_ne
  obtain ⟨s₂, hfinalize, hclock, hview⟩ := view_of_answers hr hanswers hparse
  rw [hevaluate.view] at hfinalize hview
  rw [haccepted] at hfinalize
  have hcalled : run (finalizeOutcome (c.request.scopedId project) d.decision.text d.reason.text
      sourceLive (some r) now) s₁ = _ := hfinalize
  -- finalizing stores the decision
  have hsecond : c.step settings m project now (.evaluated d) { w with redis := s₁ } =
      (.finalized d true, { w with redis := s₂ }) := by
    simp only [LiveCall.step, if_neg h.id, if_pos h.enabled, hc, hcalled]
    rfl
  -- the cooldown and the latency follow, in keys of their own
  have hcooled := view_startCooldown (p := c.request.scopedId project) (s := s₂) hr (d := d)
  have hhealth := recordHealth_keeps (c.request.scopedId project) c.request.latencyMs now
    c.request.memberId (run (startCooldown (c.request.scopedId project) (some r) ⟨d, true⟩) s₂).2
  have hwhole : c.whole settings m project now w = recordPreflightIncidentIfNeeded m project c d now
      { w with redis := (run (recordHealth (c.request.scopedId project) c.request.latencyMs now
        c.request.memberId) (run (startCooldown (c.request.scopedId project) (some r) ⟨d, true⟩)
          s₂).2).2 } := by
    simp only [LiveCall.whole, hfirst, hsecond]
    simp only [LiveCall.step, hc, if_true]
  rw [hwhole, recordPreflightIncidentIfNeeded_redis]
  refine ⟨?_, ?_, recordPreflightIncidentIfNeeded_congr d rfl⟩
  · rw [hhealth.clock, run_clock, hclock]
    exact hevaluate.clock
  · rw [hhealth.view, hcooled, hview]

end Live

end Rheonic.ProtectBackend
