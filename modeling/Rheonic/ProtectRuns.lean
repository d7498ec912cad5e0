import Rheonic.ProtectFootprint

namespace Rheonic.ProtectApi
open CommandProgram Redis Keys PyText ProtectActionStore ProtectService RollingWindow
open IngestEvent (World)

/-- One whole endpoint execution of the protect API, or the ingest of an event. -/
inductive Call
  | decision (r : PreflightRequest)
  | timeout (r : ReportRequest)
  | unavailable (r : ReportRequest)
  | ingest (event : IngestEvent.Event) (memberId : String)

inductive Answer
  | preflight (result : Except Exn Preflight)
  | report (result : Except Exn Bool)
  | ingested (result : Except Exn Unit)
  deriving DecidableEq

/-- A program of the stores that live in Redis. -/
def onRedis {α : Type} (answer : Except Exn α → Answer) (p : Prog α) (w : World) : Answer × World :=
  (answer (run p w.redis).1, { w with redis := (run p w.redis).2 })

/-- One call, all of it at one time. -/
def serveAt (settings : Settings) (now : ℕ) (w : World) : Call → Answer × World
  | .decision r => onRedis .preflight (protectDecision settings r now) w
  | .timeout r => onRedis .report (protectDecisionTimeout settings r now) w
  | .unavailable r => onRedis .report (protectDecisionUnavailable settings r now) w
  | .ingest event memberId =>
    let served := Program.run (IngestEvent.exec fun _ => none) (IngestEvent.ingest event memberId) w
    (.ingested served.1, served.2)

def serve (settings : Settings) (w : World) (now : ℕ) (call : Call) : Answer × World :=
  serveAt settings now { w with redis := w.redis.advance now } call

def Fresh (w : World) : Call → Prop
  | .ingest _ memberId => ∀ e ∈ w.increments, e.2.memberId ≠ memberId
  | _ => True

structure Entry where
  time : ℕ
  call : Call
  answer : Answer

/-- Any calls of any scopes at a nondecreasing clock. -/
inductive Runs (settings : Settings) : World → List Entry → World → Prop
  | nil (w : World) : Runs settings w [] w
  | cons {w w' : World} {log : List Entry} (now : ℕ) (call : Call) (hclock : w.redis.clock ≤ now)
      (hfresh : Fresh w call) (hrest : Runs settings (serve settings w now call).2 log w') :
      Runs settings w (⟨now, call, (serve settings w now call).1⟩ :: log) w'

def start (now : ℕ) : World := ⟨.empty now, fun _ => none, [], []⟩

/-- The rolling window of every scope shows the increments of the scope. -/
def Tracked (increments : List (String × Point)) (now : ℕ) (s : Store) : Prop :=
  s.clock = now ∧ ∀ scope, TracksScope s scope (ofScope scope increments)

theorem tracked_start (now : ℕ) : Tracked (start now).increments now (start now).redis :=
  ⟨rfl, fun scope => .empty now scope⟩

section Preserve

variable {increments : List (String × Point)} {now : ℕ}

theorem Tracked.advance {s : Store} (h : Tracked increments s.clock s) {t : ℕ} (ht : s.clock ≤ t) :
    Tracked increments t (s.advance t) :=
  ⟨rfl, fun scope => (h.2 scope).advance ht⟩

def OffWindow (c : Cmd) : Prop := ∀ p, c.key ≠ requests60sKey p ∧ c.key ≠ tokens60sKey p

theorem OffWindow.tracked {c : Cmd} {s : Store} (hc : OffWindow c) (h : Tracked increments now s) :
    Tracked increments now (exec c s).2 := by
  have hclock := exec_clock c s
  refine ⟨hclock.trans h.1, fun scope => (h.2 scope).of_live hclock fun k hk => ?_⟩
  have hne : k ≠ c.key := by
    rcases hk with rfl | rfl
    · exact (hc scope).1.symm
    · exact (hc scope).2.symm
  rw [TtlStore.Store.live, TtlStore.Store.live, exec_entry_ne c s hne, hclock]

theorem offWindow_of_onAction {c : Cmd} (hc : OnAction c) : OffWindow c := fun p =>
  ⟨hc.ne_requests60sKey p, hc.ne_tokens60sKey p⟩

theorem preserves_tracked {α : Type} {P : Cmd → Prop} {p : Prog α} (h : Program.Issues P p)
    (hP : ∀ c, P c → OffWindow c) : Program.Preserves exec (Tracked increments now) p :=
  .of_issues h fun c _ hc hs => (hP c hc).tracked hs

theorem getProject60s_tracked (scope : String) :
    Program.Preserves exec (Tracked increments now) (getProject60s scope now) := by
  intro s hs
  obtain ⟨s', hrun, htracks, hclock, hlive⟩ := (hs.2 scope).getProject60s
  rw [hs.1, run] at hrun
  rw [hrun]
  refine ⟨hclock.trans hs.1, fun scope' => ?_⟩
  by_cases hscope : scope' = scope
  · rw [hscope]
    exact htracks
  · exact (hs.2 scope').of_other hscope hclock hlive

end Preserve

/-- A property of the store that neither counting nor reading the window of `p` destroys. -/
structure Stable (I : Store → Prop) (now : ℕ) (p : String) : Prop where
  action : ∀ c s, OnAction c → I s → I (exec c s).2
  window : Program.Preserves exec I (getProject60s p now)

/-- Writing the cooldown keys of `p` does not destroy the property either. -/
def CooldownStable (I : Store → Prop) (p : String) : Prop :=
  ∀ c s, OnCooldown p c → I s → I (exec c s).2

section Endpoints

variable {settings : Settings} {I : Store → Prop} {now : ℕ} {p : String} {project : Project}

namespace Stable

theorem of_action (h : Stable I now p) {α : Type} {q : Prog α} (hq : Program.Issues OnAction q) :
    Program.Preserves exec I q :=
  .of_issues hq h.action

theorem evaluate {ctx : ProtectDecisionContext}
    (h : Stable I now (scopedProjectProviderId project.id ctx.provider)) :
    Program.Preserves exec I (evaluateDecision settings project ctx now) := by
  unfold evaluateDecision
  rw [scoped_normalizedProvider]
  apply Program.Preserves.bind h.window
  intro counters
  apply Program.Preserves.ite
  · intro _
    have hget : Program.Preserves exec I (getBlockCooldownUntilMs
        (scopedProjectProviderId project.id ctx.provider)) := by
      intro s hs
      have hsame := getBlockCooldownUntilMs_state (scopedProjectProviderId project.id ctx.provider) s
      exact hsame.symm ▸ hs
    exact .bind hget fun _ => .pure _
  · intro _
    exact .pure _

theorem startCooldown (requestId : Option String) (preflight : Preflight)
    (hcool : (capBreachTimes preflight.decision).isSome → CooldownStable I p) :
    Program.Preserves exec I (startCooldown p requestId preflight) := by
  unfold ProtectApi.startCooldown
  cases htimes : capBreachTimes preflight.decision with
  | none => exact .pure _
  | some times =>
    have hwrite := hcool (htimes ▸ rfl)
    exact .ite (fun _ => .of_issues (setBlockCooldown_issues _ _ _) hwrite) fun _ => .pure _

theorem record {r : PreflightRequest} {decision : ProtectDecision}
    (h : Stable I now (r.scopedId project))
    (hcool : project.protectEnabled = true → (capBreachTimes decision).isSome →
      CooldownStable I (r.scopedId project)) :
    Program.Preserves exec I (recordDecision r project decision now) := by
  have hfinalize : Program.Preserves exec I
      (finalizeDecision (r.scopedId project) r project decision now) := by
    apply Program.Preserves.ite
    · intro henabled
      apply Program.Preserves.bind (h.of_action (finalizeOutcome_issues _ _ _ _ _))
      intro outcome
      exact .bind (startCooldown _ ⟨decision, outcome.1⟩ (hcool henabled)) fun _ => .pure _
    · intro _
      exact .pure _
  apply Program.Preserves.ite
  · intro _
    exact .raise _
  · intro _
    apply hfinalize.bind
    intro finalized
    exact .bind (h.of_action (recordHealth_issues _ _ _)) fun _ => .pure _

theorem reportFailClosedBlock (h : Stable I now p) (detailReason : String)
    (requestId : Option String) : Program.Preserves exec I
      (reportFailClosedBlock settings p detailReason requestId now) := by
  apply Program.Preserves.bind (h.of_action (markReportSent_issues _ _ _))
  intro first
  apply Program.Preserves.ite
  · intro _
    exact .bind h.window fun _ => .pure _
  · intro _
    exact .pure _

end Stable

theorem preserves_authenticate (ingestKey : Option String) (project : Option Project) :
    Program.Preserves exec I (authenticate ingestKey project) := by
  unfold authenticate
  split
  · exact .raise _
  · exact .raise _
  · exact .pure _

theorem preserves_answering {α : Type} {detail : String} {q : Prog α}
    (h : Program.Preserves exec I q) : Program.Preserves exec I (answering detail q) := by
  apply h.tryCatch
  intro e
  cases e <;> exact .raise _

theorem run_authenticate {ingestKey : Option String} {found : Option Project} {s s' : Store}
    (h : run (authenticate ingestKey found) s = (.ok project, s')) :
    s' = s ∧ found = some project := by
  unfold authenticate at h
  split at h
  · simp [run] at h
  · simp [run] at h
  · simp only [run, Program.run_pure, Prod.mk.injEq, Except.ok.injEq] at h
    exact ⟨h.2.symm, by rw [h.1]⟩

theorem run_answering_ok {α : Type} {detail : String} {q : Prog α} {a : α} {s s' : Store}
    (h : run (answering detail q) s = (.ok a, s')) : run q s = (.ok a, s') := by
  unfold answering at h
  rw [run, Program.run_tryCatch] at h
  rcases hq : Program.run exec q s with ⟨e | b, s₁⟩
  · rw [hq] at h
    cases e <;> simp at h
  · rw [hq] at h
    rw [run, hq]
    exact h

theorem protectDecision_ok {r : PreflightRequest} {answer : Preflight} {s s' : Store}
    (h : run (protectDecision settings r now) s = (.ok answer, s')) :
    ∃ project ∈ r.project, ∃ s₁ s₂,
      run (evaluateDecision settings project r.context now) s = (.ok answer.decision, s₁) ∧
      run (finalizeDecision (r.scopedId project) r project answer.decision now) s₁ =
        (.ok answer.finalized, s₂) ∧
      run (recordHealth (r.scopedId project) r.latencyMs now r.memberId) s₂ = (.ok (), s') := by
  obtain ⟨project, s₀, hauth, hbody⟩ := Redis.run_bind_ok (run_answering_ok h)
  obtain ⟨rfl, hproject⟩ := run_authenticate hauth
  obtain ⟨decision, s₁, heval, hrecord⟩ := Redis.run_bind_ok hbody
  unfold recordDecision at hrecord
  by_cases hempty : project.id = ""
  · rw [if_pos hempty] at hrecord
    simp [run] at hrecord
  · rw [if_neg hempty] at hrecord
    obtain ⟨finalized, s₂, hfinalize, hrest⟩ := Redis.run_bind_ok hrecord
    obtain ⟨_, s₃, hhealth, hlast⟩ := Redis.run_bind_ok hrest
    obtain ⟨hanswer, rfl⟩ := Prod.mk.inj hlast
    obtain rfl := Except.ok.inj hanswer
    exact ⟨project, hproject, s₁, s₂, heval, hfinalize, hhealth⟩

theorem protectDecision_preserves {r : PreflightRequest}
    (h : ∀ project ∈ r.project, Stable I now (r.scopedId project))
    (hcool : ∀ project ∈ r.project, ∀ s decision s', I s →
      run (evaluateDecision settings project r.context now) s = (.ok decision, s') →
      project.protectEnabled = true → (capBreachTimes decision).isSome →
        CooldownStable I (r.scopedId project)) :
    Program.Preserves exec I (protectDecision settings r now) := by
  apply preserves_answering
  refine (preserves_authenticate _ _).bind_of fun s project s' _ hrun hs' => ?_
  have hproject : project ∈ r.project := (run_authenticate hrun).2
  have hscope : Stable I now (scopedProjectProviderId project.id r.context.provider) :=
    h project hproject
  have hbody : Program.Preserves exec I (do
      let decision ← evaluateDecision settings project r.context now
      recordDecision r project decision now) := by
    refine hscope.evaluate.bind_of fun s decision s' hs heval hs' => ?_
    exact (h project hproject).record (hcool project hproject s decision s' hs heval) s' hs'
  exact hbody s' hs'

theorem fallbackEndpoint_preserves {r : ReportRequest} {detail reason source : String}
    {observe : String → Option String → Prog Unit}
    (hobserve : ∀ p requestId, Program.Issues OnAction (observe p requestId))
    (h : ∀ project ∈ r.project, Stable I now (r.scopedId project))
    (hcool : ∀ project ∈ r.project, CooldownStable I (r.scopedId project)) :
    Program.Preserves exec I (fallbackEndpoint settings detail reason source observe r now) := by
  apply preserves_answering
  refine (preserves_authenticate _ _).bind_of fun s project s' _ hrun hs' => ?_
  have hproject : project ∈ r.project := (run_authenticate hrun).2
  have hstable := h project hproject
  have hclear : ∀ requestId, Program.Preserves exec I
      (clearBlockCooldown (r.scopedId project) requestId) := fun requestId =>
    .of_issues (clearBlockCooldown_issues requestId) (hcool project hproject)
  have hbody : Program.Preserves exec I
      (recordFallback settings reason source observe r project now) := by
    apply Program.Preserves.ite
    · intro _
      apply Program.Preserves.bind
      · apply Program.Preserves.bind (hstable.of_action (finalizeOutcome_issues _ _ _ _ _))
        intro outcome
        exact .ite (fun _ => hclear _) fun _ => .pure _
      · intro cleared
        apply Program.Preserves.ite
        · intro _
          apply Program.Preserves.bind (hstable.reportFailClosedBlock reason _)
          intro _
          exact .pure _
        · intro _
          exact .pure _
    · intro _
      exact .bind (hstable.of_action (hobserve _ _)) fun _ => .pure _
  exact hbody s' hs'

end Endpoints

section Step

variable {settings : Settings} {increments : List (String × Point)} {now : ℕ}

def usageOf (scope : String) (increments : List (String × Point)) (now : ℕ) : Usage where
  requests60s := (window now (ofScope scope increments)).length
  tokens60s := ((window now (ofScope scope increments)).map Point.tokens).sum

theorem getBlockCooldownUntilMs_ok (p : String) (s : Store) :
    ∃ c, run (getBlockCooldownUntilMs p) s = (.ok c, s) := by
  have hstate := getBlockCooldownUntilMs_state p s
  have hok : ∃ c, (run (getBlockCooldownUntilMs p) s).1 = .ok c := by
    unfold getBlockCooldownUntilMs
    rw [run, Program.run_tryCatch]
    split
    · exact ⟨_, rfl⟩
    · exact ⟨_, rfl⟩
  obtain ⟨c, hc⟩ := hok
  exact ⟨c, Prod.ext hc hstate⟩

theorem run_onWindow_entry {α : Type} {q : Prog α} {p : String}
    (hq : Program.Issues (OnWindow p) q) {k : String} (hk : k ≠ requests60sKey p)
    (hk' : k ≠ tokens60sKey p) (s : Store) : (run q s).2.entry k = s.entry k := by
  refine (Redis.run_entry_ne hq ?_ s).1
  intro c hc he
  rcases hc with hc | hc
  · exact hk (he.trans hc)
  · exact hk' (he.trans hc)

theorem run_evaluateDecision (settings : Settings) (ctx : ProtectDecisionContext)
    {project : Project} {p : String} {s : Store} (hscope : scopedProjectProviderId project.id ctx.provider = p)
    (h : Tracked increments now s) (henabled : project.protectEnabled = true) :
    ∃ s' c, (∀ k, k ≠ requests60sKey p → k ≠ tokens60sKey p → s'.entry k = s.entry k) ∧
      Tracked increments now s' ∧ run (getBlockCooldownUntilMs p) s' = (.ok c, s') ∧
      run (evaluateDecision settings project ctx now) s =
        (.ok (judge settings project ctx now (usageOf p increments now) c), s') := by
  obtain ⟨s', hget, -⟩ := (h.2 p).getProject60s
  rw [h.1] at hget
  have hframe := fun k (hk : k ≠ requests60sKey p) hk' =>
    run_onWindow_entry (getProject60s_issues p now) hk hk' s
  have htracked := getProject60s_tracked p s h
  obtain ⟨c, hc⟩ := getBlockCooldownUntilMs_ok p s'
  change Tracked increments now (run (getProject60s p now) s).2 at htracked
  rw [hget] at hframe htracked
  refine ⟨s', c, hframe, htracked, hc, ?_⟩
  unfold evaluateDecision
  rw [scoped_normalizedProvider, hscope, run, Program.run_bind_eq exec hget]
  dsimp only
  rw [if_pos henabled, Program.run_bind_eq exec hc]
  rfl

theorem increment_tracked {s : Store} (h : Tracked increments now s) (p : String) (tokens : ℤ)
    {memberId : String} (hfresh : ∀ e ∈ increments, e.2.memberId ≠ memberId) :
    ∃ s', run (incrementProject60s p (some tokens) now memberId) s = (.ok (), s') ∧
      Tracked (increments ++ [(p, ⟨now, memberId, tokens⟩)]) now s' := by
  have hold : ∀ q ∈ ofScope p increments, q.memberId ≠ memberId := by
    intro q hq
    obtain ⟨e, he, rfl⟩ := List.mem_map.mp hq
    exact hfresh e (List.mem_filter.mp he).1
  obtain ⟨s', hrun, htracks, hclock, hlive⟩ := (h.2 p).increment (some tokens) memberId hold
  rw [h.1] at hrun htracks hclock
  refine ⟨s', hrun, hclock, fun scope => ?_⟩
  by_cases hscope : scope = p
  · rw [hscope]
    simpa [ofScope, normalizeTotalTokens] using htracks
  · have hother := (h.2 scope).of_other hscope (hclock.trans h.1.symm) hlive
    simpa [ofScope, Ne.symm hscope] using hother

/-- Ingesting an event puts one point into the window of its scope. -/
theorem ingest_tracked {w : World} (h : Tracked w.increments w.redis.clock w.redis)
    (event : IngestEvent.Event) {memberId : String}
    (hfresh : ∀ e ∈ w.increments, e.2.memberId ≠ memberId) :
    ∃ s', Program.run (IngestEvent.exec fun _ => none) (IngestEvent.ingest event memberId) w =
        (.ok (), ⟨s', w.projectOf, w.events ++ [event],
          w.increments ++ [(event.scopedId, ⟨w.redis.clock, memberId, event.totalTokens⟩)]⟩) ∧
      Tracked (w.increments ++ [(event.scopedId, ⟨w.redis.clock, memberId, event.totalTokens⟩)])
        w.redis.clock s' ∧
      ∀ k, k ≠ requests60sKey event.scopedId → k ≠ tokens60sKey event.scopedId →
        s'.entry k = w.redis.entry k := by
  -- the increment is one more point of the windows
  obtain ⟨s₁, hinc, htracked₁⟩ := increment_tracked h event.scopedId event.totalTokens hfresh
  have hentry₁ := fun k (hk : k ≠ requests60sKey event.scopedId) hk' => run_onWindow_entry
    (incrementProject60s_issues event.scopedId (some event.totalTokens) w.redis.clock memberId)
    hk hk' w.redis
  obtain ⟨s₂, hget, -⟩ := (htracked₁.2 event.scopedId).getProject60s
  rw [htracked₁.1] at hget
  -- reading trims what is out of the window
  have htracked₂ := getProject60s_tracked event.scopedId s₁ htracked₁
  have hentry₂ := fun k (hk : k ≠ requests60sKey event.scopedId) hk' => run_onWindow_entry
    (getProject60s_issues event.scopedId w.redis.clock) hk hk' s₁
  change Tracked _ _ (run _ s₁).2 at htracked₂
  rw [hinc] at hentry₁
  rw [hget] at htracked₂ hentry₂
  refine ⟨s₂, ?_, htracked₂, fun k hk hk' => (hentry₂ k hk hk').trans (hentry₁ k hk hk')⟩
  have hadd : IngestEvent.exec (fun _ => none) (.addEvent event) w =
      (.ok (), { w with events := w.events ++ [event] }) := rfl
  have hincrement : IngestEvent.exec (fun _ => none)
      (.incrementProject60s event.scopedId event.totalTokens memberId)
      { w with events := w.events ++ [event] } =
      (.ok (), ⟨s₁, w.projectOf, w.events ++ [event],
        w.increments ++ [(event.scopedId, ⟨w.redis.clock, memberId, event.totalTokens⟩)]⟩) := by
    rw [IngestEvent.exec]
    dsimp only
    rw [hinc]
  unfold IngestEvent.ingest IngestEvent.readAndFinish
  rw [Program.run_bind, Program.run_perform, hadd]
  dsimp only
  rw [Program.run_bind, Program.run_perform, hincrement]
  dsimp only
  rw [Program.run_bind, Program.run_perform, IngestEvent.exec]
  dsimp only
  rw [htracked₁.1, hget]
  rfl

theorem tracked_stable (increments : List (String × Point)) (now : ℕ) (p : String) :
    Stable (Tracked increments now) now p :=
  ⟨fun _ _ hc hs => (offWindow_of_onAction hc).tracked hs, getProject60s_tracked p⟩

theorem tracked_cooldownStable (increments : List (String × Point)) (now : ℕ) (p : String) :
    CooldownStable (Tracked increments now) p := by
  intro c s hc hs
  have hoff : OffWindow c := by
    intro q
    rcases hc with hc | hc
    · exact ⟨hc ▸ (requests60sKey_ne_cooldownKey q p).symm, hc ▸ (tokens60sKey_ne_cooldownKey q p).symm⟩
    · exact ⟨hc ▸ (requests60sKey_ne_cooldownOwnerKey q p).symm,
        hc ▸ (tokens60sKey_ne_cooldownOwnerKey q p).symm⟩
  exact hoff.tracked hs

theorem observe_issues (p : String) (requestId : Option String) :
    Program.Issues OnAction ((fun _ _ => pure () : String → Option String → Prog Unit) p requestId) :=
  .pure _

theorem serve_tracked (settings : Settings) {w : World} (h : Tracked w.increments w.redis.clock w.redis)
    (hclock : w.redis.clock ≤ now) {call : Call} (hfresh : Fresh w call) :
    Tracked (serve settings w now call).2.increments now (serve settings w now call).2.redis := by
  have hnow := h.advance hclock
  have hstable := tracked_stable w.increments now
  have hcool := tracked_cooldownStable w.increments now
  cases call with
  | decision r =>
    exact protectDecision_preserves (fun _ _ => hstable _) (fun _ _ _ _ _ _ _ _ _ => hcool _) _
      hnow
  | timeout r =>
    exact fallbackEndpoint_preserves (fun _ _ => recordTimeoutFallback_issues _ now)
      (fun _ _ => hstable _) (fun _ _ => hcool _) _ hnow
  | unavailable r =>
    exact fallbackEndpoint_preserves observe_issues (fun _ _ => hstable _) (fun _ _ => hcool _) _
      hnow
  | ingest event memberId =>
    obtain ⟨s', hrun, htracked, -⟩ :=
      ingest_tracked (w := { w with redis := w.redis.advance now }) hnow event hfresh
    rw [serve, serveAt, hrun]
    exact htracked

theorem Runs.tracked {w w' : World} {log : List Entry} (hrun : Runs settings w log w')
    (h : Tracked w.increments w.redis.clock w.redis) :
    Tracked w'.increments w'.redis.clock w'.redis := by
  induction hrun with
  | nil w => exact h
  | cons t call hclock hfresh _ ih =>
    have hstep := serve_tracked settings h hclock hfresh
    apply ih
    rw [hstep.1]
    exact hstep

theorem Runs.clock_le {w w' : World} {log : List Entry} (hrun : Runs settings w log w')
    (h : Tracked w.increments w.redis.clock w.redis) : w.redis.clock ≤ w'.redis.clock := by
  induction hrun with
  | nil w => exact le_rfl
  | cons t call hclock hfresh _ ih =>
    have hstep := serve_tracked settings h hclock hfresh
    have hrest := ih (hstep.1.symm ▸ hstep)
    rw [hstep.1] at hrest
    exact hclock.trans hrest

end Step

end Rheonic.ProtectApi
