import Rheonic.ProtectRuns
import Rheonic.Finalize

namespace Rheonic.ProtectApi
open CommandProgram Redis Keys PyText ProtectActionStore ProtectService RollingWindow
open IngestEvent (World)

/-- The scope cools down until `u`, and the cooldown belongs to the request `r`. -/
structure Cooling (p r : String) (u : ℕ) (s : Store) : Prop where
  mark : s.entry (cooldownKey p) = some ⟨.text (.str (toString (u : ℤ))), some u⟩
  owner : s.entry (cooldownOwnerKey p) = some ⟨.text (.str r), some u⟩

namespace Cooling

variable {p q r : String} {u now : ℕ} {s s' : Store}

theorem of_entry (h : Cooling p r u s) (hmark : s'.entry (cooldownKey p) = s.entry (cooldownKey p))
    (howner : s'.entry (cooldownOwnerKey p) = s.entry (cooldownOwnerKey p)) : Cooling p r u s' :=
  ⟨hmark.trans h.mark, howner.trans h.owner⟩

theorem exec_of_ne (h : Cooling p r u s) {c : Cmd} (hmark : cooldownKey p ≠ c.key)
    (howner : cooldownOwnerKey p ≠ c.key) : Cooling p r u (exec c s).2 :=
  h.of_entry (exec_entry_ne c s hmark) (exec_entry_ne c s howner)

theorem stable (now : ℕ) (p q r : String) (u : ℕ) : Stable (Cooling p r u) now q where
  action _ _ hc h := h.exec_of_ne (hc.ne_cooldownKey p).symm (hc.ne_cooldownOwnerKey p).symm
  window s h := h.of_entry
    (run_onWindow_entry (getProject60s_issues q now) (requests60sKey_ne_cooldownKey q p).symm
      (tokens60sKey_ne_cooldownKey q p).symm s)
    (run_onWindow_entry (getProject60s_issues q now) (requests60sKey_ne_cooldownOwnerKey q p).symm
      (tokens60sKey_ne_cooldownOwnerKey q p).symm s)

theorem cooldownStable_of_ne (hne : q ≠ p) : CooldownStable (Cooling p r u) q := by
  intro c s hc h
  apply h.exec_of_ne
  · rcases hc with hc | hc
    · rw [hc]
      simpa using hne.symm
    · rw [hc]
      exact cooldownKey_ne_ownerKey p q
  · rcases hc with hc | hc
    · rw [hc]
      exact (cooldownKey_ne_ownerKey q p).symm
    · rw [hc]
      simpa using hne.symm

theorem lookup_mark (h : Cooling p r u s) (hearly : s.clock < u) :
    s.lookup (cooldownKey p) = some (.text (.str (toString (u : ℤ)))) := by
  have hmark := h.mark
  simp [TtlStore.Store.lookup, TtlStore.Store.live, hmark, Option.filter_some,
    TtlStore.Entry.alive, hearly]

theorem lookup_owner (h : Cooling p r u s) (hearly : s.clock < u) :
    s.lookup (cooldownOwnerKey p) = some (.text (.str r)) := by
  have howner := h.owner
  simp [TtlStore.Store.lookup, TtlStore.Store.live, howner, Option.filter_some,
    TtlStore.Entry.alive, hearly]

theorem run_getBlockCooldownUntilMs (h : Cooling p r u s) (hearly : s.clock < u) :
    run (getBlockCooldownUntilMs p) s = (.ok (some (u : ℤ)), s) := by
  have hget : run (get (cooldownKey p)) s = (.ok (some (.str (toString (u : ℤ)))), s) :=
    run_get (h.lookup_mark hearly)
  have hpos : (0 : ℤ) < u := by omega
  unfold getBlockCooldownUntilMs
  rw [run, Program.run_tryCatch, Program.run_bind_eq exec hget]
  simp only [plainText, Option.bind_some, parseNumber_toString, if_pos hpos, Program.run_pure]

theorem run_clearBlockCooldown (h : Cooling p r u s) (hearly : s.clock < u) (requestId : String) :
    requestId ≠ r ∧ run (clearBlockCooldown p (some requestId)) s = (.ok false, s) ∨
      requestId = r ∧ ∃ s', run (clearBlockCooldown p (some requestId)) s = (.ok true, s') := by
  have hget : run (get (cooldownOwnerKey p)) s = (.ok (some (.str r)), s) :=
    run_get (h.lookup_owner hearly)
  unfold clearBlockCooldown
  rw [run, Program.run_tryCatch, Program.run_bind_eq exec hget]
  by_cases hr : requestId = r
  · refine .inr ⟨hr, ?_⟩
    rw [if_neg (by simp [plainText, hr])]
    exact ⟨_, rfl⟩
  · refine .inl ⟨hr, ?_⟩
    rw [if_pos (by simpa [plainText] using Ne.symm hr)]
    rfl

theorem run_setBlockCooldown (hclock : s.clock = now) {seconds : ℤ} (hseconds : 1 ≤ seconds)
    (hr : r ≠ "") (p : String) : ∃ u : ℕ, (now : ℤ) + seconds * 1000 = u ∧ Cooling p r u
      (run (setBlockCooldown p (now + seconds * 1000) seconds (some r)) s).2 := by
  refine ⟨now + seconds.toNat * 1000, by omega, ?_⟩
  have hu : (now : ℤ) + seconds * 1000 = ((now + seconds.toNat * 1000 : ℕ) : ℤ) := by omega
  have httl : (max seconds 1).toNat = seconds.toNat := by omega
  have hpos : ¬seconds.toNat = 0 := by omega
  have hset : ∀ (k : String) (v : Text) (t : Store), run (set k v seconds.toNat) t =
      (.ok (), t.put k (.text v) (seconds.toNat * 1000)) := by
    intro k v t
    rw [run, Redis.set, Program.run_perform, exec, if_neg hpos]
  unfold setBlockCooldown
  rw [hu, httl, run, Program.run_tryCatch, Program.run_bind_eq exec (hset _ _ s),
    whenRequestId_some hr]
  have howner := hset (cooldownOwnerKey p) (.str r)
    (s.put (cooldownKey p) (.text (.str (toString ((now + seconds.toNat * 1000 : ℕ) : ℤ))))
      (seconds.toNat * 1000))
  rw [run] at howner
  rw [howner]
  constructor
  · change (TtlStore.Store.setEntry _ _ _).entry _ = _
    rw [TtlStore.Store.setEntry_entry_ne _ _ (cooldownKey_ne_ownerKey p p)]
    simp [TtlStore.Store.put, hclock]
  · simp [TtlStore.Store.put, hclock]

end Cooling

section Report

variable {settings : Settings} {p r : String} {u now : ℕ} {s s' : Store}

theorem finalizeOutcome_replaced {q decision reason source : String} {requestId : Option String}
    {ts : ℕ} {finalized : Bool} {old : OutcomePayload}
    (h : run (finalizeOutcome q decision reason source requestId ts) s =
      (.ok (finalized, some old), s')) : ∃ id, requestId = some id := by
  cases requestId with
  | some id => exact ⟨id, rfl⟩
  | none =>
    have hbody : finalizeBody q ⟨decision, reason, source, ts⟩ none = (do
        publishOutcome q ⟨decision, reason, source, ts⟩ none
        pure (true, none)) := rfl
    unfold finalizeOutcome at h
    rw [hbody, run, Program.run_tryCatch, Program.run_bind] at h
    rcases hpublish : Program.run exec (publishOutcome q ⟨decision, reason, source, ts⟩ none) s with
      ⟨e | a, s₁⟩
    · rw [hpublish] at h
      simp at h
    · rw [hpublish] at h
      simp at h

theorem finalizeFallback_cooling {q reason source : String} {decision : Verdict}
    {requestId : Option String} {answer : Except Exn Bool} (h : Cooling p r u s)
    (hclock : s.clock = now) (hearly : now < u)
    (hrun : run (finalizeFallback q decision reason source requestId now) s = (answer, s')) :
    Cooling p r u s' ∨ q = p ∧ requestId = some r ∧ decision = .allow ∧ answer = .ok true := by
  have hfinalize := (Cooling.stable now p q r u).of_action
    (finalizeOutcome_issues (p := q) decision.text reason source requestId now) s h
  have hsame := (finalizeOutcome_issues (p := q) decision.text reason source requestId
    now).run_preserves exec (fun t => t.clock = now) (fun c t _ ht => (exec_clock c t).trans ht) hclock
  unfold finalizeFallback at hrun
  rw [run, Program.run_bind] at hrun
  rcases houtcome : Program.run exec (finalizeOutcome q decision.text reason source requestId now) s
    with ⟨e | outcome, s₁⟩
  · rw [houtcome] at hrun hfinalize
    exact .inl ((Prod.mk.inj hrun).2 ▸ hfinalize)
  · rw [houtcome] at hrun hfinalize hsame
    dsimp only at hrun hsame
    -- only a report that supersedes touches the cooldown
    by_cases hsuper : supersedesLiveBlock decision outcome = true
    · rw [if_pos hsuper] at hrun
      obtain ⟨finalized, replaced⟩ := outcome
      cases replaced with
      | none => simp [supersedesLiveBlock] at hsuper
      | some old =>
        obtain ⟨id, rfl⟩ := finalizeOutcome_replaced houtcome
        have hallow : decision = .allow := by
          simp only [supersedesLiveBlock, Bool.and_eq_true, decide_eq_true_eq] at hsuper
          exact hsuper.1.2
        -- it clears the one of its own scope, and only as the owner
        by_cases hq : q = p
        · subst hq
          rcases hfinalize.run_clearBlockCooldown (hsame ▸ hearly) id with
            ⟨-, hclear⟩ | ⟨hid, s₂, hclear⟩
          · rw [run] at hclear
            rw [hclear] at hrun
            exact .inl ((Prod.mk.inj hrun).2 ▸ hfinalize)
          · rw [run] at hclear
            rw [hclear] at hrun
            exact .inr ⟨rfl, hid ▸ rfl, hallow, (Prod.mk.inj hrun).1.symm⟩
        · have hkeep := Program.Preserves.of_issues (clearBlockCooldown_issues (some id))
            (Cooling.cooldownStable_of_ne (r := r) (u := u) hq) s₁ hfinalize
          rw [hrun] at hkeep
          exact .inl hkeep
    · rw [if_neg hsuper] at hrun
      exact .inl ((Prod.mk.inj hrun).2 ▸ hfinalize)

theorem fallbackEndpoint_cooling {detail reason source : String}
    {observe : String → Option String → Prog Unit} {q : ReportRequest}
    {answer : Except Exn Bool}
    (hobserve : ∀ p requestId, Program.Issues OnAction (observe p requestId))
    (h : Cooling p r u s) (hclock : s.clock = now) (hearly : now < u)
    (hrun : run (fallbackEndpoint settings detail reason source observe q now) s = (answer, s')) :
    Cooling p r u s' ∨ (∃ project ∈ q.project, q.scopedId project = p) ∧
      q.resolvedRequestId = some r ∧ answer = .ok true := by
  have hstable := fun q => Cooling.stable now p q r u
  unfold fallbackEndpoint answering at hrun
  rw [run, Program.run_tryCatch, Program.run_bind] at hrun
  have hauth := preserves_authenticate (I := Cooling p r u) q.ingestKey q.project s h
  rcases hproject : Program.run exec (authenticate q.ingestKey q.project) s with ⟨e | project, s₁⟩
  · rw [hproject] at hrun hauth
    dsimp only at hrun
    have hsame : s' = s₁ := by
      cases e <;> exact (Prod.mk.inj hrun).2.symm
    exact .inl (hsame ▸ hauth)
  · obtain ⟨rfl, hfound⟩ := run_authenticate hproject
    rw [hproject] at hrun
    dsimp only at hrun
    -- The handler changes no state, so the body decides about the cooldown.
    have hbody : ∀ {result t}, run (recordFallback settings reason source observe q project now) s₁ =
        (result, t) → Cooling p r u t ∨ q.scopedId project = p ∧ q.resolvedRequestId = some r ∧
          result = .ok true := by
      intro result t hrec
      unfold recordFallback at hrec
      by_cases henabled : project.protectEnabled = true
      · rw [if_pos henabled, run, Program.run_bind] at hrec
        rcases hfinal : Program.run exec (finalizeFallback (q.scopedId project)
          (fallbackDecision project) reason source q.resolvedRequestId now) s₁ with ⟨e | cleared, s₂⟩
        · rw [hfinal] at hrec
          rcases finalizeFallback_cooling h hclock hearly hfinal with hcool | ⟨-, -, -, hok⟩
          · exact .inl ((Prod.mk.inj hrec).2 ▸ hcool)
          · simp at hok
        · rw [hfinal] at hrec
          dsimp only at hrec
          rcases finalizeFallback_cooling h hclock hearly hfinal with hcool | ⟨hq, hid, hallow, hok⟩
          · have hrest : Program.Preserves exec (Cooling p r u)
                (if project.protectFailMode = "closed" then do
                  reportFailClosedBlock settings (q.scopedId project) reason q.resolvedRequestId now
                  pure cleared
                else pure cleared) := by
              apply Program.Preserves.ite
              · intro _
                exact .bind ((hstable _).reportFailClosedBlock reason _) fun _ => .pure _
              · intro _
                exact .pure _
            have hkeep := hrest s₂ hcool
            rw [hrec] at hkeep
            exact .inl hkeep
          -- a report that has cleared the cooldown has answered with an allow
          · have hopen : ¬project.protectFailMode = "closed" := by
              intro hclosed
              simp [fallbackDecision, hclosed] at hallow
            rw [if_neg hopen] at hrec
            exact .inr ⟨hq, hid, (Prod.mk.inj hrec).1.symm.trans hok⟩
      -- with protection off only the report is counted
      · rw [if_neg henabled] at hrec
        have hkeep := Program.Preserves.bind ((hstable (q.scopedId project)).of_action
          (hobserve (q.scopedId project) q.resolvedRequestId)) (fun _ => .pure false) s₁ h
        rw [run] at hrec
        rw [hrec] at hkeep
        exact .inl hkeep
    rcases hrec : Program.run exec (recordFallback settings reason source observe q project now) s₁
      with ⟨e | cleared, s₂⟩
    · rw [hrec] at hrun
      have hsame : s' = s₂ := by
        cases e <;> exact (Prod.mk.inj hrun).2.symm
      rcases hbody hrec with hcool | ⟨-, -, hok⟩
      · exact .inl (hsame ▸ hcool)
      · simp at hok
    · rw [hrec] at hrun
      obtain ⟨hanswer, rfl⟩ := Prod.mk.inj hrun
      rcases hbody hrec with hcool | ⟨hq, hid, hok⟩
      · exact .inl hcool
      · exact .inr ⟨⟨project, hfound, hq⟩, hid, hanswer.symm.trans hok⟩

end Report

/-- A report of `r` in the scope has lifted the cooldown. -/
def Entry.Clears (p r : String) (e : Entry) : Prop :=
  e.answer = .report (.ok true) ∧ ∃ q, (e.call = .timeout q ∨ e.call = .unavailable q) ∧
    q.resolvedRequestId = some r ∧ ∃ project ∈ q.project, q.scopedId project = p

section Run

variable {settings : Settings} {p r : String} {u now : ℕ} {w w' : World}

theorem evaluateDecision_cooling (settings : Settings) (ctx : ProtectDecisionContext)
    {increments : List (String × Point)} {project : Project} {s : Store}
    (hscope : scopedProjectProviderId project.id ctx.provider = p) (hcool : Cooling p r u s)
    (htracked : Tracked increments now s) (hearly : now < u)
    (henabled : project.protectEnabled = true) :
    ∃ s', Tracked increments now s' ∧ run (evaluateDecision settings project ctx now) s =
      (.ok (blockUntil settings project .cooldownActive (usageOf p increments now) now u), s') := by
  obtain ⟨s', c, hentry, htracked', hc, hrun⟩ :=
    run_evaluateDecision settings ctx hscope htracked henabled
  have hcool' : Cooling p r u s' := hcool.of_entry
    (hentry _ (requests60sKey_ne_cooldownKey p p).symm (tokens60sKey_ne_cooldownKey p p).symm)
    (hentry _ (requests60sKey_ne_cooldownOwnerKey p p).symm
      (tokens60sKey_ne_cooldownOwnerKey p p).symm)
  have hread := hcool'.run_getBlockCooldownUntilMs (htracked'.1 ▸ hearly)
  have huntil : c = some (u : ℤ) := by
    rw [hc] at hread
    exact Except.ok.inj (Prod.mk.inj hread).1
  have hlate : (now : ℤ) < u := by omega
  rw [huntil, judge_cooling hlate] at hrun
  exact ⟨s', htracked', hrun⟩

theorem serve_cooling (hcool : Cooling p r u w.redis)
    (htracked : Tracked w.increments w.redis.clock w.redis) (hclock : w.redis.clock ≤ now)
    (hearly : now < u) {call : Call} (hfresh : Fresh w call)
    (hclears : ¬Entry.Clears p r ⟨now, call, (serve settings w now call).1⟩) :
    Cooling p r u (serve settings w now call).2.redis := by
  have hcool' : Cooling p r u (w.redis.advance now) := ⟨hcool.mark, hcool.owner⟩
  have htracked' := htracked.advance hclock
  cases call with
  | decision q =>
    have hboth : ∀ p', Stable (fun s => Cooling p r u s ∧ Tracked w.increments now s) now p' := by
      intro p'
      have hcooling := Cooling.stable now p p' r u
      have htracking := tracked_stable w.increments now p'
      exact ⟨fun c s hc h => ⟨hcooling.action c s hc h.1, htracking.action c s hc h.2⟩,
        fun s h => ⟨hcooling.window s h.1, htracking.window s h.2⟩⟩
    suffices hkeep : Program.Preserves exec (fun s => Cooling p r u s ∧ Tracked w.increments now s)
        (protectDecision settings q now) from (hkeep _ ⟨hcool', htracked'⟩).1
    apply protectDecision_preserves fun _ _ => hboth _
    intro project _ s decision s' hs heval henabled hbreach
    -- in its own scope the decision finds the cooldown and sets none
    by_cases hscope : q.scopedId project = p
    · obtain ⟨s'', -, hblock⟩ := evaluateDecision_cooling settings q.context
        hscope hs.1 hs.2 hearly henabled
      rw [heval] at hblock
      have hdecision := Except.ok.inj (Prod.mk.inj hblock).1
      rw [hdecision] at hbreach
      simp [capBreachTimes, blockUntil, decisionOf] at hbreach
    · intro c t hc ht
      exact ⟨Cooling.cooldownStable_of_ne hscope c t hc ht.1,
        tracked_cooldownStable _ _ _ c t hc ht.2⟩
  | timeout q =>
    rcases hrun : run (protectDecisionTimeout settings q now) (w.redis.advance now) with ⟨answer, s'⟩
    rcases fallbackEndpoint_cooling (fun _ _ => recordTimeoutFallback_issues _ now) hcool' rfl hearly
      hrun with h | ⟨hscope, hid, hok⟩
    · rw [serve, serveAt, onRedis, hrun]
      exact h
    -- the report has cleared it as its owner, which the entry tells
    · refine absurd ⟨?_, q, .inl rfl, hid, hscope⟩ hclears
      rw [serve, serveAt, onRedis, hrun, hok]
  | unavailable q =>
    rcases hrun : run (protectDecisionUnavailable settings q now) (w.redis.advance now) with
      ⟨answer, s'⟩
    rcases fallbackEndpoint_cooling observe_issues hcool' rfl hearly hrun with h | ⟨hscope, hid, hok⟩
    · rw [serve, serveAt, onRedis, hrun]
      exact h
    · refine absurd ⟨?_, q, .inr rfl, hid, hscope⟩ hclears
      rw [serve, serveAt, onRedis, hrun, hok]
  | ingest event memberId =>
    obtain ⟨s', hrun, -, hentry⟩ := ingest_tracked
      (w := { w with redis := w.redis.advance now }) htracked' event hfresh
    rw [serve, serveAt, hrun]
    exact hcool'.of_entry
      (hentry _ (requests60sKey_ne_cooldownKey _ p).symm (tokens60sKey_ne_cooldownKey _ p).symm)
      (hentry _ (requests60sKey_ne_cooldownOwnerKey _ p).symm
        (tokens60sKey_ne_cooldownOwnerKey _ p).symm)

theorem Runs.cooling {log : List Entry} (hrun : Runs settings w log w')
    (hcool : Cooling p r u w.redis) (htracked : Tracked w.increments w.redis.clock w.redis)
    (hearly : w'.redis.clock < u) (hclears : ∀ e ∈ log, ¬e.Clears p r) :
    Cooling p r u w'.redis := by
  induction hrun with
  | nil w => exact hcool
  | @cons w w' log t call hclock hfresh hrest ih =>
    have hstep := serve_tracked settings htracked hclock hfresh
    have hstep' : Tracked (serve settings w t call).2.increments
        (serve settings w t call).2.redis.clock (serve settings w t call).2.redis :=
      hstep.1.symm ▸ hstep
    have hle := hrest.clock_le hstep'
    rw [hstep.1] at hle
    apply ih _ hstep' hearly fun e he => hclears e (List.mem_cons_of_mem _ he)
    exact serve_cooling hcool htracked hclock (hle.trans_lt hearly) hfresh
      (hclears _ List.mem_cons_self)

theorem decision_starts_cooldown {increments : List (String × Point)} {q : PreflightRequest}
    {s s' : Store} {answer : Preflight} {deadline : ℤ} (htracked : Tracked increments now s)
    (hrun : run (protectDecision settings q now) s = (.ok answer, s'))
    (hfinalized : answer.finalized = true) (hblock : answer.decision.decision = .block)
    (hreason : answer.decision.reason = .tokCapBreach ∨ answer.decision.reason = .reqCapBreach)
    (huntil : answer.decision.blockedUntil = some deadline) (hid : q.requestId = some r) (hr : r ≠ "") :
    ∃ project ∈ q.project, ∃ u : ℕ, deadline = u ∧ Cooling (q.scopedId project) r u s' := by
  obtain ⟨project, hproject, s₁, s₂, heval, hfinalize, hhealth⟩ := protectDecision_ok hrun
  refine ⟨project, hproject, ?_⟩
  unfold finalizeDecision at hfinalize
  by_cases henabled : project.protectEnabled = true
  · rw [if_pos henabled] at hfinalize
    obtain ⟨s₁', c, -, htracked₁, -, hjudge⟩ := run_evaluateDecision settings q.context
      (p := q.scopedId project) rfl htracked henabled
    rw [heval] at hjudge
    obtain ⟨hdecision, rfl⟩ := Prod.mk.inj hjudge
    have hdecision' := Except.ok.inj hdecision
    have htimes := judge_capBreach (hdecision' ▸ hreason)
    rw [← hdecision'] at htimes
    have hbreach : capBreachTimes answer.decision = some
        (now + max settings.protectBlockCooldownSeconds 1 * 1000,
          max settings.protectBlockCooldownSeconds 1) := by
      have hcap : answer.decision.decision = .block ∧ (answer.decision.reason = .reqCapBreach ∨
        answer.decision.reason = .tokCapBreach) := ⟨hblock, hreason.symm⟩
      rw [capBreachTimes, if_pos hcap, htimes.1, htimes.2]
      rfl
    obtain ⟨outcome, t, houtcome, hfinalize⟩ := Redis.run_bind_ok hfinalize
    obtain ⟨_, t', hstart, hfinalize⟩ := Redis.run_bind_ok hfinalize
    obtain ⟨hflag, rfl⟩ := Prod.mk.inj hfinalize
    have hset : outcome.1 = true := (Except.ok.inj hflag).trans hfinalized
    -- no command of the finalization moves the clock
    have hclock : t.clock = now := by
      have hkeep := (tracked_stable increments now (q.scopedId project)).of_action (finalizeOutcome_issues (p := q.scopedId project)
          answer.decision.decision.text answer.decision.reason.text sourceLive q.requestId now)
        s₁ htracked₁
      rw [run] at houtcome
      rw [houtcome] at hkeep
      exact hkeep.1
    unfold startCooldown at hstart
    rw [hbreach] at hstart
    dsimp only at hstart
    rw [if_pos hset, hid] at hstart
    obtain ⟨u, hu, hcool⟩ := Cooling.run_setBlockCooldown hclock (le_max_right
      settings.protectBlockCooldownSeconds 1) hr (q.scopedId project)
    rw [hstart] at hcool
    -- recording the latency leaves the cooldown
    have hkeep := (Cooling.stable now (q.scopedId project) (q.scopedId project) r u).of_action
      (recordHealth_issues (p := q.scopedId project) q.latencyMs now q.memberId) t' hcool
    rw [run] at hhealth
    rw [hhealth] at hkeep
    refine ⟨u, ?_, hkeep⟩
    rw [huntil, Option.some.injEq] at htimes
    exact htimes.1.trans hu
  · rw [if_neg henabled] at hfinalize
    have hflag := Except.ok.inj (Prod.mk.inj hfinalize).1
    rw [hfinalized] at hflag
    simp at hflag

theorem recordDecision_ok (q : PreflightRequest) (now : ℕ) {project : Project}
    {decision : ProtectDecision} (hid : project.id ≠ "") (htimes : capBreachTimes decision = none)
    (s : Store) :
    ∃ finalized s', run (recordDecision q project decision now) s =
      (.ok ⟨decision, finalized⟩, s') := by
  have hfinalize : ∃ finalized s', run (finalizeDecision (q.scopedId project) q project decision now)
      s = (.ok finalized, s') := by
    unfold finalizeDecision
    by_cases henabled : project.protectEnabled = true
    · obtain ⟨outcome, s₁, houtcome⟩ := Program.run_tryCatch_pure exec (finalizeBody
        (q.scopedId project) ⟨decision.decision.text, decision.reason.text, sourceLive, now⟩
          q.requestId) (fun _ => (false, none)) s
      rw [if_pos henabled, run]
      unfold finalizeOutcome startCooldown
      rw [Program.run_bind_eq exec houtcome]
      dsimp only
      rw [htimes]
      exact ⟨outcome.1, s₁, rfl⟩
    · rw [if_neg henabled]
      exact ⟨false, s, rfl⟩
  obtain ⟨finalized, s₁, hrun⟩ := hfinalize
  obtain ⟨_, s₂, hhealth⟩ := Program.run_tryCatch_pure exec (do
    let _ ← zadd (latencyKey (q.scopedId project))
      (toString now ++ ":" ++ q.memberId ++ ":" ++ toString (max q.latencyMs 0)) now
    let _ ← zremrangebyscore (latencyKey (q.scopedId project)) 0
      ((now : ℤ) - protectActionCounterTtlSeconds * 1000)
    let _ ← expire (latencyKey (q.scopedId project)) protectActionCounterTtlSeconds
    pure ()) (fun _ => ()) s₁
  refine ⟨finalized, s₂, ?_⟩
  rw [run] at hrun
  unfold recordDecision recordHealth
  rw [if_neg hid, run, Program.run_bind_eq exec hrun, Program.run_bind_eq exec hhealth]
  rfl

/-- Once a request has been finalized as a cap-breach block until `u`, every decision of an enabled
project in that scope before `u` is a block until `u`, unless a report of that request has lifted the
cooldown. -/
theorem cooldown_enforced {began later : ℕ} {before log : List Entry} {w₁ w₂ : World}
    {q q' : PreflightRequest} {answer : Preflight} {deadline : ℤ} {project : Project}
    (hbefore : Runs settings (start began) before w) (hclock : w.redis.clock ≤ now)
    (hserved : serve settings w now (.decision q) = (.preflight (.ok answer), w₁))
    (hfinalized : answer.finalized = true) (hblock : answer.decision.decision = .block)
    (hreason : answer.decision.reason = .tokCapBreach ∨ answer.decision.reason = .reqCapBreach)
    (huntil : answer.decision.blockedUntil = some deadline) (hid : q.requestId = some r) (hr : r ≠ "")
    (hproject : q.project = some project) (hlog : Runs settings w₁ log w₂)
    (hclears : ∀ e ∈ log, ¬e.Clears (q.scopedId project) r) (hlater : w₂.redis.clock ≤ later)
    (hearly : (later : ℤ) < deadline) {project' : Project} (hproject' : q'.project = some project')
    (hkey : truthy q'.ingestKey ≠ none) (hprojectId : project'.id ≠ "")
    (hscope : q'.scopedId project' = q.scopedId project)
    (henabled : project'.protectEnabled = true) :
    ∃ answer', (serve settings w₂ later (.decision q')).1 = .preflight (.ok answer') ∧
      answer'.decision.decision = .block ∧ answer'.decision.reason = .cooldownActive ∧
      answer'.decision.blockedUntil = some deadline := by
  have htracked := hbefore.tracked (tracked_start began)
  -- the decision that starts the cooldown
  have hserve : run (protectDecision settings q now) (w.redis.advance now) =
      (.ok answer, w₁.redis) := by
    rw [serve, serveAt, onRedis] at hserved
    obtain ⟨hanswer, hstate⟩ := Prod.mk.inj hserved
    exact Prod.ext (Answer.preflight.inj hanswer) (congrArg World.redis hstate)
  obtain ⟨found, hfound, u, rfl, hcool⟩ := decision_starts_cooldown (htracked.advance hclock) hserve
    hfinalized hblock hreason huntil hid hr
  obtain rfl := Option.some.inj (hproject.symm.trans (Option.mem_def.mp hfound))
  have htracked₁ := serve_tracked settings htracked hclock (show Fresh w (.decision q) from trivial)
  rw [hserved] at htracked₁
  dsimp only at htracked₁
  have htracked₁' := htracked₁
  rw [← htracked₁.1] at htracked₁'
  -- the run after it, up to the later decision
  have hlate : later < u := by omega
  have hcool₂ := hlog.cooling hcool htracked₁' (hlater.trans_lt hlate) hclears
  have hcool₂' : Cooling (q.scopedId project) r u (w₂.redis.advance later) :=
    ⟨hcool₂.mark, hcool₂.owner⟩
  have htracked₂ := (hlog.tracked htracked₁').advance hlater
  obtain ⟨s₁, -, heval⟩ := evaluateDecision_cooling settings q'.context hscope hcool₂' htracked₂ hlate henabled
  -- a block of the running cooldown sets none of its own
  have hnone : capBreachTimes (blockUntil settings project' .cooldownActive
      (usageOf (q.scopedId project) w₂.increments later) later u) = none := by
    simp [capBreachTimes, blockUntil, decisionOf]
  obtain ⟨finalized, s₂, hrecord⟩ := recordDecision_ok q' later hprojectId hnone s₁
  refine ⟨⟨blockUntil settings project' .cooldownActive
    (usageOf (q.scopedId project) w₂.increments later) later u, finalized⟩, ?_, rfl, rfl, rfl⟩
  have hauth : run (authenticate q'.ingestKey q'.project) (w₂.redis.advance later) =
      (.ok project', w₂.redis.advance later) := by
    obtain ⟨key, hsome⟩ := Option.ne_none_iff_exists'.mp hkey
    unfold authenticate
    rw [hsome, hproject']
    rfl
  have hrun : run (protectDecision settings q' later) (w₂.redis.advance later) =
      (.ok ⟨blockUntil settings project' .cooldownActive
        (usageOf (q.scopedId project) w₂.increments later) later u, finalized⟩, s₂) := by
    unfold protectDecision answering
    rw [run] at hauth heval hrecord
    rw [run, Program.run_tryCatch, Program.run_bind_eq exec hauth, Program.run_bind_eq exec heval,
      hrecord]
  rw [serve, serveAt, onRedis, hrun]

end Run

/-- The default settings; the products are rounded down. -/
def sampleSettings : Settings where
  intMul n x := n * x.num / x.den

def sampleProject : Project :=
  { id := "p1", protectEnabled := true, protectMaxReqPerMin := some 100,
    protectMaxTokPerMin := some 5 }

def samplePreflight (requestId : String) : PreflightRequest where
  provider := "openai"
  ingestKey := some "rk_live"
  requestId := some requestId
  project := some sampleProject
  latencyMs := 3
  memberId := "h"

def sampleEvent (tokens : ℤ) : IngestEvent.Event where
  id := "e1"
  ts := 0
  projectId := "p1"
  provider := "openai"
  requestedModel := none
  resolvedModel := none
  environment := none
  inputTokens := 0
  outputTokens := 0
  totalTokens := tokens
  latencyMs := none
  status := none
  errorType := none
  errorMessage := none
  httpStatus := none
  createdAt := 0
  tokenExplosionTokens := none
  requestEndpoint := none
  requestFeature := none
  requestFingerprint := none

/-- The report of another request, whose own outcome was an allow. -/
def sampleReport : ReportRequest where
  provider := some "openai"
  requestId := some "r2"
  requestIdHeader := none
  ingestKey := some "rk_live"
  project := some sampleProject

theorem cooldown_enforced_sample :
    ∃ answer', (serve sampleSettings
        (serve sampleSettings
          (serve sampleSettings (serve sampleSettings (start 0) 1000 (.ingest (sampleEvent 10) "m")).2
            2000 (.decision (samplePreflight "r1"))).2 3000 (.timeout sampleReport)).2
        61999 (.decision (samplePreflight "r3"))).1 = .preflight (.ok answer') ∧
      answer'.decision.decision = .block ∧ answer'.decision.reason = .cooldownActive ∧
      answer'.decision.blockedUntil = some 62000 := by
  have hserved : (serve sampleSettings
      (serve sampleSettings (start 0) 1000 (.ingest (sampleEvent 10) "m")).2 2000
      (.decision (samplePreflight "r1"))).1 = .preflight (.ok
        ⟨blockUntil sampleSettings sampleProject .tokCapBreach ⟨1, 10⟩ 2000 62000, true⟩) := by
    decide
  have hbefore : Runs sampleSettings (start 0) _ _ :=
    .cons 1000 (.ingest (sampleEvent 10) "m") (by decide) (by simp [Fresh, start]) (.nil _)
  have hlog : Runs sampleSettings (serve sampleSettings
      (serve sampleSettings (start 0) 1000 (.ingest (sampleEvent 10) "m")).2 2000
        (.decision (samplePreflight "r1"))).2 _ _ :=
    .cons 3000 (.timeout sampleReport) (by decide) trivial (.nil _)
  apply cooldown_enforced hbefore (by decide) (Prod.ext hserved rfl) rfl rfl (.inl rfl) rfl rfl
    (by decide) rfl hlog
  · intro e he hclears
    rw [List.mem_singleton] at he
    obtain ⟨-, q, hcall, hid, -⟩ := hclears
    rw [he] at hcall
    rcases hcall with hcall | hcall
    · rw [← Call.timeout.inj hcall] at hid
      exact absurd hid (by decide)
    · simp at hcall
  · decide
  · decide
  · rfl
  · decide
  · decide
  · rfl
  · rfl

end Rheonic.ProtectApi
