import Rheonic.ProtectApi

namespace Rheonic.ProtectActionStore
open CommandProgram Redis Keys PyText

/-- The keys of counters, outcomes, health records and report markers. -/
def ActionKey (k : String) : Prop := ∃ rest, k = "pa:" ++ rest

def OnAction (c : Cmd) : Prop := ActionKey c.key

theorem actionKey_append (p rest : String) : ActionKey ("pa:" ++ p ++ rest) :=
  ⟨p ++ rest, String.append_assoc⟩

theorem actionKey_outcomeKey (p r : String) : ActionKey (outcomeKey p r) :=
  ⟨p ++ ":outcome:" ++ r, by simp [outcomeKey, String.append_assoc]⟩

theorem actionKey_reportKey (p t m : String) : ActionKey (reportKey p t m) :=
  ⟨p ++ ":report:" ++ t ++ ":" ++ m, by simp [reportKey, String.append_assoc]⟩

theorem ActionKey.ne_of_take {k : String} (h : ActionKey k) {a : List Char} (hlen : 2 ≤ a.length)
    (htake : ['p', 'a'] ≠ a.take 2) (rest : String) : k ≠ String.ofList a ++ rest := by
  obtain ⟨x, rfl⟩ := h
  exact ofList_append_ne (a := ['p', 'a', ':']) 2 (by decide) hlen htake x rest

theorem ActionKey.ne_requests60sKey {k : String} (h : ActionKey k) (p : String) :
    k ≠ requests60sKey p := by
  rw [requests60sKey, String.append_assoc]
  exact h.ne_of_take (by decide) (by decide) _

theorem ActionKey.ne_tokens60sKey {k : String} (h : ActionKey k) (p : String) :
    k ≠ tokens60sKey p := by
  rw [tokens60sKey, String.append_assoc]
  exact h.ne_of_take (by decide) (by decide) _

theorem ActionKey.ne_cooldownKey {k : String} (h : ActionKey k) (p : String) : k ≠ cooldownKey p :=
  h.ne_of_take (by decide) (by decide) p

theorem ActionKey.ne_cooldownOwnerKey {k : String} (h : ActionKey k) (p : String) :
    k ≠ cooldownOwnerKey p :=
  h.ne_of_take (by decide) (by decide) p

section Issues

variable {p : String}

theorem readInt_issues {k : String} (h : ActionKey k) : Program.Issues OnAction (readInt k) :=
  .bind (.perform h) fun _ => .pure _

theorem decrement_issues {k : String} (h : ActionKey k) :
    Program.Issues OnAction (do let _ ← incrby k (-1); pure ()) :=
  .bind (.perform h) fun _ => .pure _

theorem incrementWithTtl_issues {k : String} (h : ActionKey k) :
    Program.Issues OnAction (incrementWithTtl k) := by
  refine Program.Issues.bind (.perform h) fun value => ?_
  apply Program.Issues.ite
  · intro _
    exact .bind (.perform h) fun _ => .pure _
  · intro _
    exact .pure _

theorem actionKey_counterKey {decision k : String} (h : counterKeyForDecision p decision = some k) :
    ActionKey k := by
  unfold counterKeyForDecision at h
  split_ifs at h <;> cases h <;> exact actionKey_append p _

theorem decrementCounterForDecision_issues (decision : String) :
    Program.Issues OnAction (decrementCounterForDecision p decision) := by
  unfold decrementCounterForDecision
  cases hk : counterKeyForDecision p decision with
  | none => exact .pure _
  | some k =>
    have hkey := actionKey_counterKey hk
    apply Program.Issues.bind (readInt_issues hkey)
    intro current
    exact .ite (fun _ => .pure _) fun _ => decrement_issues hkey

theorem incrementCounterForDecision_issues (decision : String) :
    Program.Issues OnAction (incrementCounterForDecision p decision) := by
  unfold incrementCounterForDecision
  cases hk : counterKeyForDecision p decision with
  | none => exact .pure _
  | some k => exact incrementWithTtl_issues (actionKey_counterKey hk)

theorem recordTimeoutEvent_issues (requestId : String) (ts : ℕ) :
    Program.Issues OnAction (recordTimeoutEvent p requestId ts) := by
  have hkey : ActionKey (timeoutEventsKey p) := actionKey_append p _
  refine Program.Issues.bind (.perform hkey) fun _ => ?_
  exact .bind (.perform hkey) fun _ => .pure _

theorem whenRequestId_issues {P : Cmd → Prop} (requestId : Option String)
    {body : String → Prog Unit} (h : ∀ r, Program.Issues P (body r)) :
    Program.Issues P (whenRequestId requestId body) := by
  unfold whenRequestId
  split
  · exact .pure _
  · exact h _

theorem applyOutcomeCounters_issues (payload : OutcomePayload) (requestId : Option String) :
    Program.Issues OnAction (applyOutcomeCounters p payload requestId) := by
  apply Program.Issues.bind (incrementCounterForDecision_issues _)
  intro _
  apply Program.Issues.ite
  · intro _
    apply Program.Issues.bind (incrementWithTtl_issues (actionKey_append p _))
    intro _
    exact whenRequestId_issues requestId fun r => recordTimeoutEvent_issues r _
  · intro _
    exact .pure _

theorem decrementTimeoutCounter_issues : Program.Issues OnAction (decrementTimeoutCounter p) := by
  have hkey : ActionKey (timeoutKey p) := actionKey_append p _
  apply Program.Issues.bind (readInt_issues hkey)
  intro current
  exact .ite (fun _ => decrement_issues hkey) fun _ => .pure _

theorem removeTimeoutEvent_issues (requestId : String) :
    Program.Issues OnAction (removeTimeoutEvent p requestId) := by
  have hkey : ActionKey (timeoutEventsKey p) := actionKey_append p _
  exact .bind (.perform hkey) fun _ => .pure _

theorem removeOutcomeCounters_issues (payload : OutcomePayload) (requestId : Option String) :
    Program.Issues OnAction (removeOutcomeCounters p payload requestId) := by
  apply Program.Issues.bind (decrementCounterForDecision_issues _)
  intro _
  apply Program.Issues.ite
  · intro _
    apply Program.Issues.bind decrementTimeoutCounter_issues
    intro _
    exact whenRequestId_issues requestId removeTimeoutEvent_issues
  · intro _
    exact .pure _

theorem publishOutcome_issues (payload : OutcomePayload) (requestId : Option String) :
    Program.Issues OnAction (publishOutcome p payload requestId) := by
  have hkey : ActionKey (lastKey p) := actionKey_append p _
  exact .bind (applyOutcomeCounters_issues payload requestId) fun _ => .perform hkey

theorem replaceOutcome_issues (payload : OutcomePayload) (requestId : String) :
    Program.Issues OnAction (replaceOutcome p payload requestId) :=
  .bind (.perform (actionKey_outcomeKey p requestId)) fun _ => publishOutcome_issues payload _

theorem settleOutcome_issues (payload : OutcomePayload) (requestId : String)
    (existing : Option OutcomePayload) :
    Program.Issues OnAction (settleOutcome p payload requestId existing) := by
  cases existing with
  | none => exact .bind (replaceOutcome_issues payload requestId) fun _ => .pure _
  | some existing =>
    apply Program.Issues.ite
    · intro _
      apply Program.Issues.bind (removeOutcomeCounters_issues existing _)
      intro _
      exact .bind (replaceOutcome_issues payload requestId) fun _ => .pure _
    · intro _
      exact .pure _

theorem finalizeBody_issues (payload : OutcomePayload) (requestId : Option String) :
    Program.Issues OnAction (finalizeBody p payload requestId) := by
  unfold finalizeBody
  split
  · exact .bind (publishOutcome_issues payload none) fun _ => .pure _
  · next r _ =>
    refine Program.Issues.bind (.perform (actionKey_outcomeKey p r)) fun raw => ?_
    exact settleOutcome_issues payload r _

theorem finalizeOutcome_issues (decision reason source : String) (requestId : Option String)
    (ts : ℕ) : Program.Issues OnAction (finalizeOutcome p decision reason source requestId ts) :=
  .tryCatch (finalizeBody_issues _ requestId) fun _ => .pure _

theorem recordHealth_issues (latencyMs : ℤ) (nowMs : ℕ) (memberId : String) :
    Program.Issues OnAction (recordHealth p latencyMs nowMs memberId) := by
  have hkey : ActionKey (latencyKey p) := actionKey_append p _
  refine .tryCatch ?_ fun _ => .pure _
  refine Program.Issues.bind (.perform hkey) fun _ => ?_
  refine Program.Issues.bind (.perform hkey) fun _ => ?_
  exact .bind (.perform hkey) fun _ => .pure _

theorem recordTimeoutFallback_issues (requestId : Option String) (ts : ℕ) :
    Program.Issues OnAction (recordTimeoutFallback p requestId ts) := by
  refine .tryCatch ?_ fun _ => .pure _
  apply Program.Issues.bind (incrementWithTtl_issues (actionKey_append p _))
  intro _
  exact whenRequestId_issues requestId fun r => recordTimeoutEvent_issues r ts

theorem markReportSent_issues (reportType marker : String) (ttlSeconds : ℤ) :
    Program.Issues OnAction (markReportSent p reportType marker ttlSeconds) :=
  .tryCatch (.perform (actionKey_reportKey p reportType marker)) fun _ => .pure _

/-- The commands on the two cooldown keys of a scope. -/
def OnCooldown (p : String) (c : Cmd) : Prop := c.key = cooldownKey p ∨ c.key = cooldownOwnerKey p

theorem setBlockCooldown_issues (untilMs seconds : ℤ) (requestId : Option String) :
    Program.Issues (OnCooldown p) (setBlockCooldown p untilMs seconds requestId) := by
  refine .tryCatch ?_ fun _ => .pure _
  refine Program.Issues.bind (.perform (.inl rfl)) fun _ => ?_
  exact whenRequestId_issues requestId fun r => .perform (.inr rfl)

theorem getBlockCooldownUntilMs_issues :
    Program.Issues (fun c => c = .get (cooldownKey p)) (getBlockCooldownUntilMs p) := by
  refine .tryCatch ?_ fun _ => .pure _
  refine Program.Issues.bind (.perform rfl) fun raw => ?_
  cases raw with
  | none => exact .pure _
  | some raw =>
    dsimp only
    split
    · exact .raise _
    · exact .pure _

theorem getBlockCooldownUntilMs_state (p : String) (s : Store) :
    (run (getBlockCooldownUntilMs p) s).2 = s := by
  refine getBlockCooldownUntilMs_issues.run_preserves exec (· = s) ?_ rfl
  intro c s' hc hs'
  rw [hc, exec]
  split <;> exact hs'

theorem clearBlockCooldown_issues (requestId : Option String) :
    Program.Issues (OnCooldown p) (clearBlockCooldown p requestId) := by
  have hdelete : Program.Issues (OnCooldown p) (do
      let _ ← delete (cooldownKey p)
      let _ ← delete (cooldownOwnerKey p)
      pure true) := by
    refine Program.Issues.bind (.perform (.inl rfl)) fun _ => ?_
    exact .bind (.perform (.inr rfl)) fun _ => .pure _
  refine .tryCatch ?_ fun _ => .pure _
  cases requestId with
  | none => exact hdelete
  | some r =>
    refine Program.Issues.bind (.perform (.inr rfl)) fun owner => ?_
    exact .ite (fun _ => .pure _) fun _ => hdelete

end Issues

end Rheonic.ProtectActionStore
