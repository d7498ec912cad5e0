import Rheonic.Cooldown
import Rheonic.ProtectBackend

namespace Rheonic.ProtectBackend
open CommandProgram Redis Keys PyText ProtectActionStore ProtectService ProtectApi

/-- The scope cools down, and the cooldown belongs to the request. -/
def Owned (p r : String) (s : Store) : Prop :=
  (s.lookup (cooldownKey p)).isSome = true ∧
    s.lookup (cooldownOwnerKey p) = some (.text (.str r))

section Store

variable {p r : String} {s s' : Store}

theorem lookup_of_advance {t : ℕ} (ht : s.clock ≤ t) {k : String} {v : Value}
    (h : (s.advance t).lookup k = some v) : s.lookup k = some v := by
  rw [TtlStore.Store.lookup, TtlStore.Store.live_advance s ht] at h
  obtain ⟨e, he, rfl⟩ := Option.map_eq_some_iff.mp h
  rw [TtlStore.Store.lookup, (Option.filter_eq_some_iff.mp he).1, Option.map_some]

theorem Owned.of_advance {t : ℕ} (ht : s.clock ≤ t) (h : Owned p r (s.advance t)) : Owned p r s := by
  obtain ⟨v, hv⟩ := Option.isSome_iff_exists.mp h.1
  refine ⟨?_, lookup_of_advance ht h.2⟩
  rw [lookup_of_advance ht hv]
  rfl

/-- The entry of a key and the clock are as before. -/
def Leaves (k : String) (s s' : Store) : Prop := s'.entry k = s.entry k ∧ s'.clock = s.clock

theorem Leaves.trans {k : String} {s'' : Store} (h : Leaves k s s') (h' : Leaves k s' s'') :
    Leaves k s s'' :=
  ⟨h'.1.trans h.1, h'.2.trans h.2⟩

theorem Owned.of_leaves (hmark : Leaves (cooldownKey p) s s')
    (howner : Leaves (cooldownOwnerKey p) s s') (h : Owned p r s') : Owned p r s := by
  have h₁ := lookup_eq_of_entry hmark.1 hmark.2
  have h₂ := lookup_eq_of_entry howner.1 howner.2
  unfold Owned at h ⊢
  rw [← h₁, ← h₂]
  exact h

theorem Owned.of_onAction {α : Type} {q : Prog α} (hq : Program.Issues OnAction q)
    (h : Owned p r (run q s).2) : Owned p r s :=
  .of_leaves (run_entry_ne hq (fun _ hc => (hc.ne_cooldownKey p).symm) s)
    (run_entry_ne hq (fun _ hc => (hc.ne_cooldownOwnerKey p).symm) s) h

theorem run_clearBlockCooldown_other (hr : r ≠ "")
    (hother : s.lookup (cooldownOwnerKey p) ≠ some (.text (.str r))) :
    (run (clearBlockCooldown p (some r)) s).2 = s := by
  unfold clearBlockCooldown
  rw [run, Program.run_tryCatch, Program.run_bind, Redis.get, Program.run_perform, exec]
  cases hlookup : s.lookup (cooldownOwnerKey p) with
  | none =>
    have hne : (none.bind plainText).getD "" ≠ r := Ne.symm hr
    simp only [if_pos hne, Program.run_pure]
  | some v =>
    cases v with
    | zset z => simp only [Program.run_pure]
    | text t =>
      have hne : ((some t).bind plainText).getD "" ≠ r := by
        intro ht
        apply hother
        cases t with
        | str x => simpa [hlookup, plainText] using ht
        | json x => exact absurd ht (Ne.symm hr)
      simp only [if_pos hne, Program.run_pure]

theorem run_clearBlockCooldown_owner (howner : s.lookup (cooldownOwnerKey p) = some (.text (.str r))) :
    run (clearBlockCooldown p (some r)) s =
      (.ok true, (s.alter (cooldownKey p) none).alter (cooldownOwnerKey p) none) := by
  have hget : run (get (cooldownOwnerKey p)) s = (.ok (some (.str r)), s) := run_get howner
  have hdelete : ∀ (k : String) (t : Store), run (delete k) t =
      (.ok (if (t.lookup k).isSome then 1 else 0 : ℕ), t.alter k none) := fun _ _ => rfl
  unfold clearBlockCooldown
  rw [run, Program.run_tryCatch, Program.run_bind_eq exec hget, if_neg (by simp [plainText]),
    Program.run_bind_eq exec (hdelete _ _), Program.run_bind_eq exec (hdelete _ _)]
  rfl

theorem not_owned_of_clear (hr : r ≠ "") (s : Store) :
    ¬Owned p r (run (clearBlockCooldown p (some r)) s).2 := by
  intro h
  by_cases howner : s.lookup (cooldownOwnerKey p) = some (.text (.str r))
  · have hmark := h.1
    rw [run_clearBlockCooldown_owner howner] at hmark
    simp [TtlStore.Store.lookup_alter] at hmark
  · rw [run_clearBlockCooldown_other hr howner] at h
    exact howner h.2

end Store

section Steps

variable {settings : Settings} {project : Project} {p r k : String} {s : Store}

theorem evaluateDecision_leaves (ctx : ProtectDecisionContext) (now : ℕ)
    (hrequests : k ≠ requests60sKey (scopedProjectProviderId project.id ctx.provider))
    (htokens : k ≠ tokens60sKey (scopedProjectProviderId project.id ctx.provider)) :
    Leaves k s (run (evaluateDecision settings project ctx now) s).2 := by
  have hwindow : Program.Preserves exec (Leaves k s) (RollingWindow.getProject60s
      (scopedProjectProviderId project.id ctx.provider) now) := by
    refine .of_issues (RollingWindow.getProject60s_issues _ now) fun c t hc ht => ht.trans ?_
    refine ⟨exec_entry_ne c t ?_, exec_clock c t⟩
    rcases hc with hc | hc
    · rw [hc]
      exact hrequests
    · rw [hc]
      exact htokens
  have hcooldown : Program.Preserves exec (Leaves k s) (getBlockCooldownUntilMs
      (scopedProjectProviderId project.id ctx.provider)) := by
    intro t ht
    have hsame := getBlockCooldownUntilMs_state
      (scopedProjectProviderId project.id ctx.provider) t
    exact hsame.symm ▸ ht
  have h : Program.Preserves exec (Leaves k s) (evaluateDecision settings project ctx now) := by
    unfold evaluateDecision
    rw [scoped_normalizedProvider]
    apply hwindow.bind
    intro usage
    apply Program.Preserves.ite
    · intro _
      exact hcooldown.bind fun _ => .pure _
    · intro _
      exact .pure _
  exact h s ⟨rfl, rfl⟩

theorem startCooldown_leaves (hmark : k ≠ cooldownKey p) (howner : k ≠ cooldownOwnerKey p)
    (requestId : Option String) (preflight : Preflight) :
    Leaves k s (run (startCooldown p requestId preflight) s).2 := by
  have h : Program.Preserves exec (Leaves k s) (startCooldown p requestId preflight) := by
    unfold startCooldown
    split
    · apply Program.Preserves.ite
      · intro _
        refine .of_issues (setBlockCooldown_issues _ _ _) fun c t hc ht => ht.trans ?_
        refine ⟨exec_entry_ne c t ?_, exec_clock c t⟩
        rcases hc with hc | hc
        · rw [hc]
          exact hmark
        · rw [hc]
          exact howner
      · intro _
        exact .pure _
    · exact .pure _
  exact h s ⟨rfl, rfl⟩

theorem run_startCooldown_idle {requestId : Option String} {preflight : Preflight}
    (h : preflight.finalized = false ∨ capBreachTimes preflight.decision = none) :
    (run (startCooldown p requestId preflight) s).2 = s := by
  unfold startCooldown
  rcases h with h | h
  · split
    · rw [h]
      rfl
    · rfl
  · rw [h]
    rfl

theorem outcomeKey_ne_latencyKey (p r : String) : outcomeKey p r ≠ latencyKey p := by
  intro h
  have hl := congrArg String.toList h
  simp [outcomeKey, latencyKey] at hl

theorem recordHealth_leaves (hk : k ≠ latencyKey p) (latencyMs : ℤ) (now : ℕ) (memberId : String) :
    Leaves k s (run (recordHealth p latencyMs now memberId) s).2 := by
  have h : Program.Issues (fun c => c.key = latencyKey p)
      (recordHealth p latencyMs now memberId) := by
    refine .tryCatch ?_ fun _ => .pure _
    refine Program.Issues.bind (.perform rfl) fun _ => ?_
    refine Program.Issues.bind (.perform rfl) fun _ => ?_
    exact .bind (.perform rfl) fun _ => .pure _
  exact run_entry_ne h (fun _ hc => hc ▸ hk) s

theorem clearBlockCooldown_leaves (hmark : k ≠ cooldownKey p) (howner : k ≠ cooldownOwnerKey p)
    (requestId : Option String) : Leaves k s (run (clearBlockCooldown p requestId) s).2 := by
  refine run_entry_ne (clearBlockCooldown_issues requestId) (fun c hc => ?_) s
  rcases hc with hc | hc
  · rw [hc]
    exact hmark
  · rw [hc]
    exact howner

end Steps

section Payload

theorem answers_of_answerOf {p r : String} {payload : OutcomePayload} {s : Store}
    (h : answerOf (false, none) (run (finalizeOutcome p payload.decision payload.reason
      payload.source (some r) payload.ts) s) ≠ (false, none)) : Answers p r payload s := by
  have hcaught := Program.run_tryCatch exec (finalizeBody p payload (some r))
    (fun _ => pure (false, none)) s
  unfold Answers
  rcases hbody : run (finalizeBody p payload (some r)) s with ⟨e | answer, s'⟩
  · rw [run] at hbody
    rw [hbody] at hcaught
    exfalso
    apply h
    have hrun : run (finalizeOutcome p payload.decision payload.reason payload.source (some r)
        payload.ts) s = (.ok (false, none), s') := hcaught
    rw [hrun]
    rfl
  · rfl

def ReportCall.payload (q : ReportCall) (project : Project) (now : ℕ) : OutcomePayload :=
  ⟨(fallbackDecision project).text, q.kind.reason, q.kind.source, now⟩

theorem Verdict.text_ne (d : Verdict) : d.text ≠ "" := by cases d <;> decide

theorem Reason.text_ne (reason : Reason) : reason.text ≠ "" := by cases reason <;> decide

theorem sourceRank_kind (kind : ReportKind) : sourceRank kind.source = 2 := by
  cases kind <;> decide

theorem parseLast_payload (project : Project) (q : ReportCall) (now : ℕ) :
    parseLast (some (.json (q.payload project now))) = some (q.payload project now) := by
  have hreason : q.kind.reason ≠ "" := by cases q.kind <;> decide
  have hsource : q.kind.source ≠ "" := by cases q.kind <;> decide
  exact parseLast_json (Verdict.text_ne _) hreason hsource

end Payload

theorem reportFailClosedBlock_incidents (settings : Settings) (project : Project) (q : ReportCall)
    (w : Backend) (now : ℕ) :
    (reportFailClosedBlock settings project q now w).2.incidents = w.incidents := by
  unfold reportFailClosedBlock
  dsimp only
  split
  · split
    · rfl
    · rfl
  · rfl

theorem ReportCall.whole_stages (settings : Settings) (m : IncidentManager.Manager)
    (project : Project) (q : ReportCall) (now : ℕ) (w : Backend) : ∃ outcome w₁ w₂ w₃,
    q.step settings m project now .waiting (w.at now) = (.finalized outcome, w₁) ∧
      q.step settings m project now (.finalized outcome) w₁ = (.cleared outcome, w₂) ∧
      q.step settings m project now (.cleared outcome) w₂ = (.reconciled, w₃) ∧
      q.whole settings m project now w = (q.step settings m project now .reconciled w₃).2 := by
  obtain ⟨outcome, w₁, hfirst⟩ : ∃ outcome w₁,
      q.step settings m project now .waiting (w.at now) = (.finalized outcome, w₁) := by
    by_cases henabled : project.protectEnabled = true
    · simp only [ReportCall.step, if_pos henabled]
      exact ⟨_, _, rfl⟩
    · simp only [ReportCall.step, if_neg henabled]
      exact ⟨_, _, rfl⟩
  obtain ⟨w₂, hsecond⟩ : ∃ w₂, q.step settings m project now (.finalized outcome) w₁ =
      (.cleared outcome, w₂) := by
    by_cases hsupersedes : supersedesLiveBlock (fallbackDecision project) outcome = true
    · simp only [ReportCall.step, if_pos hsupersedes]
      exact ⟨_, rfl⟩
    · simp only [ReportCall.step, if_neg hsupersedes]
      exact ⟨_, rfl⟩
  obtain ⟨w₃, hthird⟩ : ∃ w₃, q.step settings m project now (.cleared outcome) w₂ =
      (.reconciled, w₃) := by
    by_cases hsupersedes : supersedesLiveBlock (fallbackDecision project) outcome = true
    · simp only [ReportCall.step, if_pos hsupersedes]
      exact ⟨_, rfl⟩
    · simp only [ReportCall.step, if_neg hsupersedes]
      exact ⟨_, rfl⟩
  refine ⟨outcome, w₁, w₂, w₃, hfirst, hsecond, hthird, ?_⟩
  simp only [ReportCall.whole, hfirst, hsecond, hthird]

deriving instance DecidableEq for SortedSet

deriving instance DecidableEq for Value

/-- A scope of a project in fail-open mode that has used up its tokens. -/
def sampleBackend : Backend where
  redis := (serve sampleSettings (start 0) 1000 (.ingest (sampleEvent 10) "m")).2.redis
  incidents := { incidents := .empty }

def sampleLive : LiveCall where
  request := samplePreflight "r1"
  newId := "i1"

def sampleTimeout : ReportCall where
  kind := .timeout
  report := { sampleReport with requestId := some "r1" }
  newId := "i2"

end Rheonic.ProtectBackend
