import Rheonic.DecisionBounds
import Rheonic.IngestEvent

namespace Rheonic.TokenUsage
open CommandProgram Redis Keys PyText RollingWindow ProtectActionStore ProtectService
open IngestEvent (EventIn resolveTokens)

/-- The window of a scope is a reachable one: its two sorted sets are as increments and reads have
left them, and the other keys hold anything. -/
def ReachableWindow (scopeId : String) (h : List Point) (s : Store) : Prop :=
  ∃ log s₀, Runs log s₀ ∧ h = ofScope scopeId log ∧ s.clock = s₀.clock ∧
    ∀ k, k = requests60sKey scopeId ∨ k = tokens60sKey scopeId → s.live k = s₀.live k

theorem ReachableWindow.tracks {scopeId : String} {h : List Point} {s : Store}
    (hreach : ReachableWindow scopeId h s) : TracksScope s scopeId h := by
  obtain ⟨log, s₀, hrun, hlog, hclock, hlive⟩ := hreach
  rw [hlog]
  exact (hrun.tracks scopeId).of_live hclock hlive

/-- The total that an accepted payload counts with. -/
def countedTokens (payload : EventIn) : ℤ := normalizeTotalTokens (some (resolveTokens payload).2.2)

/-- The store once the event of a payload has been counted. -/
def ingested (scopeId memberId : String) (payload : EventIn) (t : ℕ) (s : Store) : Store :=
  (run (incrementProject60s scopeId (some (resolveTokens payload).2.2) t memberId) s).2

/-- The usage of the scope is no lower than before, and what breached the token cap is blocked still. -/
structure NeverLowers (scopeId : String) (t : ℕ) (s s' : Store) : Prop where
  usage : ∃ before after, (run (getProject60s scopeId t) s).1 = .ok before ∧
    (run (getProject60s scopeId t) s').1 = .ok after ∧ before.2 ≤ after.2
  decisions : ∀ (settings : Settings) (project : Project) (ctx : ProtectDecisionContext),
    scopedProjectProviderId project.id ctx.provider = scopeId → ∀ d d',
      (run (evaluateDecision settings project ctx t) s).1 = .ok d →
      (run (evaluateDecision settings project ctx t) s').1 = .ok d' →
      d.reason = .tokCapBreach → d'.decision = .block

section Ingest

variable {scopeId memberId : String} {payload : EventIn} {h : List Point} {s : Store} {t : ℕ}
  {settings : Settings} {project : Project} {ctx : ProtectDecisionContext}

theorem sum_window_append (now : ℕ) (h : List Point) (memberId : String) (tokens : ℤ) :
    ((window now (h ++ [⟨now, memberId, tokens⟩])).map Point.tokens).sum =
      ((window now h).map Point.tokens).sum + tokens := by
  have hone : SlidingWindow.after Point.score ((now : ℤ) - rollingWindowMs)
      [(⟨now, memberId, tokens⟩ : Point)] = [⟨now, memberId, tokens⟩] := by
    have hlate : (now : ℤ) - rollingWindowMs < (⟨now, memberId, tokens⟩ : Point).score := by
      show (now : ℤ) - rollingWindowMs < now
      unfold rollingWindowMs
      omega
    simp [SlidingWindow.after, hlate]
  unfold window
  rw [SlidingWindow.after_append, hone, List.map_append, List.sum_append]
  simp

/-- An event is counted with its total, and the cooldown of the scope is left alone. -/
theorem ingested_spec (payload : EventIn) (htracks : TracksScope s scopeId h) (hclock : s.clock = t)
    (hfresh : ∀ p ∈ h, p.memberId ≠ memberId) :
    ∃ requests requests' tokens,
      (run (getProject60s scopeId t) s).1 = .ok (requests, tokens) ∧
      (run (getProject60s scopeId t) (ingested scopeId memberId payload t s)).1 =
        .ok (requests', tokens + countedTokens payload) ∧
      ∀ p, (run (getBlockCooldownUntilMs p) (ingested scopeId memberId payload t s)).1 =
        (run (getBlockCooldownUntilMs p) s).1 := by
  obtain ⟨s', hrun, htracks', hclock', hlive⟩ :=
    htracks.increment (some (resolveTokens payload).2.2) memberId hfresh
  obtain ⟨_, hbefore, _⟩ := htracks.getProject60s
  obtain ⟨_, hafter, _⟩ := htracks'.getProject60s
  rw [hclock] at hrun hbefore hclock' hafter
  rw [hclock', sum_window_append] at hafter
  have hingested : ingested scopeId memberId payload t s = s' := congrArg Prod.snd hrun
  rw [hingested]
  refine ⟨_, _, _, congrArg Prod.fst hbefore, congrArg Prod.fst hafter, ?_⟩
  intro p
  have hissues : Program.Issues (fun c => c.key = cooldownKey p) (getBlockCooldownUntilMs p) := by
    apply getBlockCooldownUntilMs_issues.mono
    intro c hc
    rw [hc]
    rfl
  apply (run_congr (K := fun k => k = cooldownKey p) hissues ?_).1
  intro k hk
  rw [hk, TtlStore.Store.lookup, TtlStore.Store.lookup,
    hlive _ (requests60sKey_ne_cooldownKey _ _).symm (tokens60sKey_ne_cooldownKey _ _).symm]

theorem withinCaps_reason_ne {usage : Usage} :
    (withinCaps settings project ctx usage).reason ≠ .tokCapBreach := by
  unfold withinCaps
  dsimp only
  split
  · show Reason.tokenClamp ≠ .tokCapBreach
    decide
  · show Reason.ok ≠ .tokCapBreach
    decide

theorem judge_tokCapBreach_mono {usage usage' : Usage} {c : Option ℤ}
    (hle : usage.tokens60s ≤ usage'.tokens60s)
    (h : (judge settings project ctx t usage c).reason = .tokCapBreach) :
    (judge settings project ctx t usage' c).decision = .block := by
  unfold judge at h ⊢
  cases hc : c.filter ((t : ℤ) < ·) with
  | some untilMs => rfl
  | none =>
    rw [hc] at h
    dsimp only at h ⊢
    by_cases hcap : project.protectMaxTokPerMin.any (· ≤ usage.tokens60s) = true
    · rw [if_pos (reached_mono hle hcap)]
      rfl
    · rw [if_neg hcap] at h
      by_cases hreq : project.protectMaxReqPerMin.any (· ≤ (usage.requests60s : ℤ)) = true
      · rw [if_pos hreq] at h
        have hreason : Reason.reqCapBreach = .tokCapBreach := h
        exact absurd hreason (by decide)
      · rw [if_neg hreq] at h
        exact absurd h withinCaps_reason_ne

theorem reason_of_disabled (hdisabled : project.protectEnabled = false) {d : ProtectDecision}
    (h : (run (evaluateDecision settings project ctx t) s).1 = .ok d) : d.reason = .ok := by
  unfold evaluateDecision at h
  rw [run, Program.run_bind] at h
  rcases hread : Program.run exec (getProject60s _ t) s with ⟨e | ⟨requests60s, tokens60s⟩, s₁⟩
  · rw [hread] at h
    exact absurd h (by simp)
  · rw [hread] at h
    dsimp only at h
    rw [if_neg (Bool.eq_false_iff.mp hdisabled)] at h
    rw [← Except.ok.inj h]
    rfl

/-- A breach of the token cap is still blocked where no fewer tokens are read. -/
theorem evaluateDecision_tokCapBreach_mono {s s' : Store} {usage usage' : ℕ × ℤ}
    (hread : (run (getProject60s (scopedProjectProviderId project.id ctx.provider) t) s).1 = .ok usage)
    (hread' : (run (getProject60s (scopedProjectProviderId project.id ctx.provider) t) s').1 =
      .ok usage')
    (hcooldown : ∀ p, (run (getBlockCooldownUntilMs p) s').1 = (run (getBlockCooldownUntilMs p) s).1)
    (hle : usage.2 ≤ usage'.2) {d d' : ProtectDecision}
    (hd : (run (evaluateDecision settings project ctx t) s).1 = .ok d)
    (hd' : (run (evaluateDecision settings project ctx t) s').1 = .ok d')
    (hreason : d.reason = .tokCapBreach) : d'.decision = .block := by
  rcases evaluateDecision_cases (Prod.ext hd rfl) with ⟨hoff, -⟩ | ⟨hon, u, c, hu, hc, hjudge⟩
  · rw [reason_of_disabled hoff hd] at hreason
    exact absurd hreason (by decide)
  rcases evaluateDecision_cases (Prod.ext hd' rfl) with ⟨hoff, -⟩ | ⟨-, u', c', hu', hc', hjudge'⟩
  · rw [hon] at hoff
    exact absurd hoff (by decide)
  have hsame : usage = (u.requests60s, u.tokens60s) := Except.ok.inj (hread.symm.trans hu)
  have hsame' : usage' = (u'.requests60s, u'.tokens60s) := Except.ok.inj (hread'.symm.trans hu')
  rw [hcooldown, hc] at hc'
  rw [hsame, hsame'] at hle
  rw [hjudge] at hreason
  rw [hjudge', ← Except.ok.inj hc']
  exact judge_tokCapBreach_mono hle hreason

/-- An event lowers no usage, and so undoes no breach of the token cap, exactly where its total is
not negative. -/
theorem never_lowers_iff (hreach : ReachableWindow scopeId h s) (payload : EventIn)
    (ht : s.clock ≤ t) (hfresh : ∀ p ∈ h, p.memberId ≠ memberId) :
    NeverLowers scopeId t (s.advance t) (ingested scopeId memberId payload t (s.advance t)) ↔
      0 ≤ (resolveTokens payload).2.2 := by
  obtain ⟨requests, requests', tokens, hbefore, hafter, hcooldown⟩ :=
    ingested_spec payload (hreach.tracks.advance ht) (TtlStore.Store.advance_clock _ _) hfresh
  constructor
  · intro hnever
    obtain ⟨before, after, hbefore', hafter', hle⟩ := hnever.usage
    rw [hbefore] at hbefore'
    rw [hafter] at hafter'
    rw [← Except.ok.inj hbefore', ← Except.ok.inj hafter'] at hle
    have htotal : countedTokens payload = (resolveTokens payload).2.2 := rfl
    dsimp only at hle
    omega
  · intro htotal
    have hle : tokens ≤ tokens + countedTokens payload := by
      show tokens ≤ tokens + (resolveTokens payload).2.2
      omega
    refine ⟨⟨_, _, hbefore, hafter, hle⟩, ?_⟩
    intro settings project ctx hscope d d' hd hd' hreason
    subst hscope
    exact evaluateDecision_tokCapBreach_mono hbefore hafter hcooldown hle hd hd' hreason

/-- An event of fifty tokens after one of a hundred. -/
theorem never_lowers_sample :
    NeverLowers "p:openai" 2000
      ((run (incrementProject60s "p:openai" (some 100) 1000 "m") (.advance (.empty 0) 1000)).2.advance 2000)
      (ingested "p:openai" "m2"
        { ts := 1, provider := "openai", response := some { totalTokens := some 50 } } 2000
        ((run (incrementProject60s "p:openai" (some 100) 1000 "m")
          (.advance (.empty 0) 1000)).2.advance 2000)) := by
  have hrun := (Runs.empty 0).increment 1000 "p:openai" (some 100) "m" (by decide) (by simp)
  have hreach : ReachableWindow "p:openai" [⟨1000, "m", 100⟩]
      (run (incrementProject60s "p:openai" (some 100) 1000 "m") (.advance (.empty 0) 1000)).2 :=
    ⟨_, _, hrun, rfl, rfl, fun _ _ => rfl⟩
  exact (never_lowers_iff hreach _ (by decide) (by decide)).mpr (by decide)

/-- A project of 100 tokens a minute, and a response that is said to have cost less than nothing. -/
def cappedProject : Project := { id := "p", protectEnabled := true, protectMaxTokPerMin := some 100 }

def negativePayload : EventIn :=
  { ts := 1, provider := "openai", response := some { totalTokens := some (-50) } }

/-- The decision that breached the cap is an allow after the negative event. -/
theorem negative_total_undoes_breach :
    ¬NeverLowers "p:openai" 1000 usedStore (ingested "p:openai" "m2" negativePayload 1000 usedStore) := by
  intro hnever
  have hbefore : (run (evaluateDecision exactSettings cappedProject { provider := some "openai" } 1000)
      usedStore).1 = .ok (judge exactSettings cappedProject { provider := some "openai" } 1000
        ⟨1, 100⟩ none) := by
    rfl
  have hafter : (run (evaluateDecision exactSettings cappedProject { provider := some "openai" } 1000)
      (ingested "p:openai" "m2" negativePayload 1000 usedStore)).1 =
        .ok (judge exactSettings cappedProject { provider := some "openai" } 1000 ⟨2, 50⟩ none) := by
    rfl
  have hblock := hnever.decisions exactSettings cappedProject { provider := some "openai" } rfl _ _
    hbefore hafter (by decide +kernel)
  exact absurd hblock (by decide +kernel)

end Ingest

end Rheonic.TokenUsage
