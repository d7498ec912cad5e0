import Rheonic.ProtectRuns
import Rheonic.Lib.Stages

namespace Rheonic.ProtectService
open CommandProgram Redis Keys PyText RollingWindow ProtectActionStore Stages

/-- `int(n * x)` of the exact product. -/
def truncatedMul (n : ℤ) (x : ℚ) : ℤ := if 0 ≤ (n : ℚ) * x then ⌊(n : ℚ) * x⌋ else ⌈(n : ℚ) * x⌉

/-- Products with the output ratios are exact before they are truncated. -/
def ExactRatios (settings : Settings) : Prop :=
  ∀ n, ∀ ratio ∈ settings.clampOutputRatios, settings.intMul n ratio = truncatedMul n ratio

section Truncation

variable {n : ℤ} {x y : ℚ}

theorem truncatedMul_of_pos (hn : 0 < n) (hx : 0 < x) : truncatedMul n x = ⌊(n : ℚ) * x⌋ := by
  have hprod : 0 ≤ (n : ℚ) * x := by positivity
  exact if_pos hprod

theorem truncatedMul_mono (hn : 0 < n) (h : x ≤ y) : truncatedMul n x ≤ truncatedMul n y := by
  have hprod : (n : ℚ) * x ≤ (n : ℚ) * y := by gcongr
  unfold truncatedMul
  by_cases hx : 0 ≤ (n : ℚ) * x
  · rw [if_pos hx, if_pos (hx.trans hprod)]
    exact Int.floor_mono hprod
  · rw [if_neg hx]
    by_cases hy : 0 ≤ (n : ℚ) * y
    · -- the sign changes between the two products
      rw [if_pos hy]
      have hneg : ⌈(n : ℚ) * x⌉ ≤ 0 := Int.ceil_le.mpr (by push_cast; linarith)
      have hpos : 0 ≤ ⌊(n : ℚ) * y⌋ := Int.floor_nonneg.mpr hy
      omega
    · rw [if_neg hy]
      exact Int.ceil_mono hprod

end Truncation

section Evaluate

variable {settings : Settings} {project : Project} {ctx : ProtectDecisionContext} {nowMs : ℕ}
  {s s' : Store} {decision : ProtectDecision}

theorem getBlockCooldown_after_window (p : String) (q : String) :
    (run (getBlockCooldownUntilMs p) (run (getProject60s q nowMs) s).2).1 =
      (run (getBlockCooldownUntilMs p) s).1 := by
  have hissues : Program.Issues (fun c => c.key = cooldownKey p) (getBlockCooldownUntilMs p) := by
    apply getBlockCooldownUntilMs_issues.mono
    intro c hc
    rw [hc]
    rfl
  have hframe := run_entry_ne (k := cooldownKey p) (getProject60s_issues q nowMs) (by
    intro c hc hkey
    rcases hc with hc | hc
    · exact (requests60sKey_ne_cooldownKey q p) (hc.symm.trans hkey.symm)
    · exact (tokens60sKey_ne_cooldownKey q p) (hc.symm.trans hkey.symm)) s
  apply (run_congr (K := fun k => k = cooldownKey p) hissues ?_).1
  intro k hk
  rw [hk]
  exact lookup_eq_of_entry hframe.1 hframe.2

/-- The decision for an enabled project is judged from its window and its cooldown. -/
theorem evaluateDecision_cases
    (h : run (evaluateDecision settings project ctx nowMs) s = (.ok decision, s')) :
    (project.protectEnabled = false ∧ decision.decision = .allow) ∨
      (project.protectEnabled = true ∧ ∃ usage cooldownUntilMs,
        (run (getProject60s (scopedProjectProviderId project.id ctx.provider) nowMs) s).1 =
          .ok (usage.requests60s, usage.tokens60s) ∧
        (run (getBlockCooldownUntilMs (scopedProjectProviderId project.id ctx.provider)) s).1 =
          .ok cooldownUntilMs ∧
        decision = judge settings project ctx nowMs usage cooldownUntilMs) := by
  generalize hscope : scopedProjectProviderId project.id ctx.provider = p
  have hafter : (run (getBlockCooldownUntilMs p) (run (getProject60s p nowMs) s).2).1 =
      (run (getBlockCooldownUntilMs p) s).1 := getBlockCooldown_after_window p p
  unfold evaluateDecision at h
  rw [scoped_normalizedProvider, hscope, run, Program.run_bind] at h
  simp only [run] at hafter
  rcases hread : Program.run exec (getProject60s p nowMs) s with ⟨e | ⟨requests60s, tokens60s⟩, s₁⟩
  · rw [hread] at h
    exact absurd h (by simp)
  · rw [hread] at h hafter
    by_cases henabled : project.protectEnabled = true
    · refine .inr ⟨henabled, ⟨requests60s, tokens60s⟩, ?_⟩
      obtain ⟨c, hc⟩ := ProtectApi.getBlockCooldownUntilMs_ok p s₁
      dsimp only at h hafter
      rw [if_pos henabled, Program.run_bind_eq exec hc] at h
      have hcooldown := hafter.symm.trans (congrArg Prod.fst hc)
      exact ⟨c, congrArg Prod.fst hread, hcooldown, (Except.ok.inj (Prod.mk.inj h).1).symm⟩
    · refine .inl ⟨Bool.eq_false_iff.mpr henabled, ?_⟩
      dsimp only at h
      rw [if_neg henabled] at h
      rw [← Except.ok.inj (Prod.mk.inj h).1]
      rfl

end Evaluate

/-- A stage that is reached while none after it is. -/
def LastStage (settings : Settings) (maxTok projectedTokens : ℤ) (ratio : ℚ) : Prop :=
  ∃ before threshold after,
    settings.clampPressureThresholds.zip settings.clampOutputRatios =
      before ++ (threshold, ratio) :: after ∧
    settings.intMul maxTok threshold ≤ projectedTokens ∧
    ∀ stage ∈ after, projectedTokens < settings.intMul maxTok stage.1

/-- What a clamp promises: under the caps, and less output than asked for, than its stage allows
and than is left of the token cap. -/
structure ClampBound (settings : Settings) (project : Project) (ctx : ProtectDecisionContext)
    (decision : ProtectDecision) : Prop where
  enabled : project.protectEnabled = true
  applies : project.applyClamp = true
  requests : ∀ cap ∈ project.protectMaxReqPerMin, (decision.snapshot.requests60s : ℤ) < cap
  tokens : ∀ cap ∈ project.protectMaxTokPerMin, decision.snapshot.tokens60s < cap
  limit : ∃ maxTok maxOutput estimate clamp ratio, project.protectMaxTokPerMin = some maxTok ∧
    ctx.maxOutputTokens = some maxOutput ∧ ctx.inputTokensEstimate = some estimate ∧
    decision.clamp = some clamp ∧
    LastStage settings maxTok (decision.snapshot.tokens60s + (max estimate 0 + maxOutput)) ratio ∧
    1 ≤ clamp.recommendedMaxOutputTokens ∧ clamp.recommendedMaxOutputTokens < maxOutput ∧
    clamp.recommendedMaxOutputTokens ≤ max 1 ⌊ratio * maxOutput⌋ ∧
    clamp.recommendedMaxOutputTokens ≤
      max 1 (maxTok - decision.snapshot.tokens60s - max estimate 0) ∧
    (1 ≤ maxTok - decision.snapshot.tokens60s - max estimate 0 →
      decision.snapshot.tokens60s + max estimate 0 + clamp.recommendedMaxOutputTokens ≤ maxTok)

section Clamp

variable {settings : Settings} {project : Project} {ctx : ProtectDecisionContext} {nowMs : ℕ}
  {usage : Usage} {cooldownUntilMs : Option ℤ}

theorem resolveClampOutputRatio_eq (projectedTokens maxTok : ℤ) :
    resolveClampOutputRatio settings projectedTokens maxTok =
      lastReached (fun threshold => settings.intMul maxTok threshold ≤ projectedTokens)
        (settings.clampPressureThresholds.zip settings.clampOutputRatios) := by
  unfold resolveClampOutputRatio lastReached
  simp only [decide_eq_true_eq]

theorem resolved_lastStage {projectedTokens maxTok : ℤ} {ratio : ℚ}
    (h : resolveClampOutputRatio settings projectedTokens maxTok = some ratio) :
    LastStage settings maxTok projectedTokens ratio := by
  rw [resolveClampOutputRatio_eq] at h
  obtain ⟨before, threshold, after, hsplit, hreached, hlater⟩ := lastReached_spec h
  refine ⟨before, threshold, after, hsplit, of_decide_eq_true hreached, fun stage hstage => ?_⟩
  have hnot := of_decide_eq_false (hlater stage hstage)
  omega

theorem ratio_mem {projectedTokens maxTok : ℤ} {ratio : ℚ}
    (h : resolveClampOutputRatio settings projectedTokens maxTok = some ratio) :
    ratio ∈ settings.clampOutputRatios := by
  rw [resolveClampOutputRatio_eq] at h
  obtain ⟨stage, hstage, hratio⟩ := List.mem_map.mp (lastReached_mem h)
  rw [← hratio]
  exact (List.of_mem_zip hstage).2

theorem buildClamp_some {maxTok maxOutputTokens estimated : Option ℤ} {tokens60s : ℤ}
    {clamp : Clamp} (h : buildClamp settings maxTok tokens60s maxOutputTokens estimated = some clamp) :
    ∃ cap maxOutput next ratio, maxTok = some cap ∧ 0 < cap ∧ maxOutputTokens = some maxOutput ∧
      0 < maxOutput ∧ estimated = some next ∧
      resolveClampOutputRatio settings (tokens60s + next) cap = some ratio ∧
      clamp.recommendedMaxOutputTokens = max 1 (min maxOutput
        (min (max 1 (settings.intMul maxOutput ratio)) (cap - tokens60s - max (next - maxOutput) 0))) := by
  unfold buildClamp at h
  obtain ⟨cap, hcap, h⟩ := Option.bind_eq_some_iff.mp h
  obtain ⟨maxOutput, houtput, h⟩ := Option.bind_eq_some_iff.mp h
  obtain ⟨next, hnext, h⟩ := Option.bind_eq_some_iff.mp h
  obtain ⟨ratio, hratio, h⟩ := Option.bind_eq_some_iff.mp h
  obtain ⟨hcap, hcapPos⟩ := Option.filter_eq_some_iff.mp hcap
  obtain ⟨houtput, houtputPos⟩ := Option.filter_eq_some_iff.mp houtput
  refine ⟨cap, maxOutput, next, ratio, hcap, of_decide_eq_true hcapPos, houtput,
    of_decide_eq_true houtputPos, hnext, hratio, ?_⟩
  rw [← Option.some.inj h]

theorem estimatedNextTokens_some {next : ℤ} (h : estimatedNextTokens ctx = some next)
    {maxOutput : ℤ} (houtput : ctx.maxOutputTokens = some maxOutput) (hpos : 0 < maxOutput) :
    ∃ estimate, ctx.inputTokensEstimate = some estimate ∧ next = max estimate 0 + maxOutput := by
  unfold estimatedNextTokens at h
  obtain ⟨estimate, hestimate, hnext⟩ := Option.map_eq_some_iff.mp h
  refine ⟨estimate, hestimate, ?_⟩
  rw [← hnext, houtput, Option.map_some, Option.getD_some, max_eq_left hpos.le]

theorem withinCaps_clamp (h : (withinCaps settings project ctx usage).decision = .clamp) :
    project.applyClamp = true ∧ ∃ clamp maxOutput,
      buildClamp settings project.protectMaxTokPerMin usage.tokens60s ctx.maxOutputTokens
        (estimatedNextTokens ctx) = some clamp ∧
      ctx.maxOutputTokens = some maxOutput ∧ clamp.recommendedMaxOutputTokens < maxOutput ∧
      (withinCaps settings project ctx usage).clamp = some clamp := by
  unfold withinCaps at h ⊢
  dsimp only at h ⊢
  generalize buildClamp settings project.protectMaxTokPerMin usage.tokens60s ctx.maxOutputTokens
    (estimatedNextTokens ctx) = built at h ⊢
  split at h
  · next hclamp =>
    rw [if_pos hclamp]
    rw [Bool.and_eq_true] at hclamp
    obtain ⟨clamp, hbuilt, hlimit⟩ := (Option.any_eq_true ..).mp hclamp.2
    obtain ⟨maxOutput, houtput, hlt⟩ := (Option.any_eq_true ..).mp hlimit
    exact ⟨hclamp.1, clamp, maxOutput, hbuilt, houtput, of_decide_eq_true hlt, hbuilt⟩
  · exact absurd h (by simp [decisionOf])

theorem judge_clamp (h : (judge settings project ctx nowMs usage cooldownUntilMs).decision = .clamp) :
    judge settings project ctx nowMs usage cooldownUntilMs =
      withinCaps settings project ctx usage := by
  unfold judge at h ⊢
  split at h
  · exact absurd h (by simp [blockUntil, decisionOf])
  · split at h
    · exact absurd h (by simp [buildBlockDecision, blockUntil, decisionOf])
    · next htok =>
      split at h
      · exact absurd h (by simp [buildBlockDecision, blockUntil, decisionOf])
      · next hreq => rw [if_neg htok, if_neg hreq]

variable (settings project ctx nowMs usage cooldownUntilMs) in
theorem judge_snapshot :
    (judge settings project ctx nowMs usage cooldownUntilMs).snapshot.requests60s =
        usage.requests60s ∧
      (judge settings project ctx nowMs usage cooldownUntilMs).snapshot.tokens60s =
        usage.tokens60s := by
  unfold judge withinCaps
  dsimp only
  repeat' split
  all_goals exact ⟨rfl, rfl⟩

theorem judge_clampBound (hexact : ExactRatios settings)
    (hratios : ∀ ratio ∈ settings.clampOutputRatios, 0 < ratio)
    (henabled : project.protectEnabled = true)
    (h : (judge settings project ctx nowMs usage cooldownUntilMs).decision = .clamp) :
    ClampBound settings project ctx (judge settings project ctx nowMs usage cooldownUntilMs) := by
  have hadmits := judge_admits (by rw [h]; decide)
  have hwithin := judge_clamp h
  have hsnapshot := judge_snapshot settings project ctx nowMs usage cooldownUntilMs
  rw [hwithin] at h
  obtain ⟨happlies, clamp, maxOutput, hbuilt, houtput, hlt, hclamp⟩ := withinCaps_clamp h
  obtain ⟨cap, maxOutput', next, ratio, hcap, -, houtput', hpos, hnext, hratio, hlimit⟩ :=
    buildClamp_some hbuilt
  obtain rfl : maxOutput' = maxOutput := Option.some.inj (houtput'.symm.trans houtput)
  obtain ⟨estimate, hestimate, hsum⟩ := estimatedNextTokens_some hnext houtput hpos
  have hmem := ratio_mem hratio
  have hstage := resolved_lastStage hratio
  have hfloor : settings.intMul maxOutput' ratio = ⌊ratio * maxOutput'⌋ := by
    rw [hexact _ ratio hmem, truncatedMul_of_pos hpos (hratios ratio hmem), mul_comm]
  rw [hfloor] at hlimit
  have hinput : max (next - maxOutput') 0 = max estimate 0 := by omega
  rw [hinput] at hlimit
  rw [hsum] at hstage
  exact {
    enabled := henabled
    applies := happlies
    requests := by
      rw [hsnapshot.1]
      exact hadmits.2
    tokens := by
      rw [hsnapshot.2]
      exact hadmits.1
    limit := by
      rw [hsnapshot.2, hwithin]
      exact ⟨cap, maxOutput', estimate, clamp, ratio, hcap, houtput, hestimate, hclamp, hstage,
        by omega, hlt, by omega, by omega, by omega⟩ }

/-- Every clamp that `evaluate_decision` answers keeps its promise. -/
theorem clamp_bound {s s' : Store} {decision : ProtectDecision} (hexact : ExactRatios settings)
    (hratios : ∀ ratio ∈ settings.clampOutputRatios, 0 < ratio)
    (hrun : run (evaluateDecision settings project ctx nowMs) s = (.ok decision, s'))
    (hclamp : decision.decision = .clamp) : ClampBound settings project ctx decision := by
  rcases evaluateDecision_cases hrun with ⟨-, hallow⟩ | ⟨henabled, usage, c, -, -, hjudge⟩
  · rw [hallow] at hclamp
    exact absurd hclamp (by decide)
  · rw [hjudge] at hclamp ⊢
    exact judge_clampBound hexact hratios henabled hclamp

theorem default_lists_same_length : ([0.70, 0.75, 0.80, 0.85, 0.90, 0.95] : List ℚ).length =
    ([0.90, 0.80, 0.70, 0.55, 0.40, 0.25] : List ℚ).length := rfl

def exactSettings : Settings :=
  { intMul := truncatedMul, same_length := default_lists_same_length }

theorem exactSettings_exact : ExactRatios exactSettings := fun _ _ _ => rfl

theorem exactSettings_ratios : ∀ ratio ∈ exactSettings.clampOutputRatios, 0 < ratio := by
  decide +kernel

def clampedProject : Project :=
  { id := "p", protectEnabled := true, applyClamp := true, protectMaxTokPerMin := some 1000 }

def longRequest : ProtectDecisionContext :=
  { maxOutputTokens := some 900, inputTokensEstimate := some 0, provider := some "openai" }

/-- A request that would fill nine tenths of the cap on its own is given two fifths of its limit. -/
theorem clamp_bound_sample : ∃ decision, ClampBound exactSettings clampedProject longRequest decision ∧
    decision.clamp = some ⟨360, false⟩ := by
  have hrun : (run (evaluateDecision exactSettings clampedProject longRequest 1000)
      (TtlStore.Store.empty 1000)).1 =
        .ok (judge exactSettings clampedProject longRequest 1000 ⟨0, 0⟩ none) := rfl
  have hclamp : (judge exactSettings clampedProject longRequest 1000 ⟨0, 0⟩ none).decision =
      .clamp := by
    decide +kernel
  exact ⟨_, clamp_bound exactSettings_exact exactSettings_ratios (Prod.ext hrun rfl) hclamp,
    by decide +kernel⟩

end Clamp

def Verdict.strictness : Verdict → ℕ
  | allow => 0
  | clamp => 1
  | block => 2

section Order

variable {settings : Settings} {project : Project} {ctx : ProtectDecisionContext}

theorem resolved_antitone (hfall : settings.clampOutputRatios.Pairwise (· ≥ ·))
    {projectedTokens projectedTokens' maxTok : ℤ} (hle : projectedTokens ≤ projectedTokens')
    {ratio : ℚ} (h : resolveClampOutputRatio settings projectedTokens maxTok = some ratio) :
    ∃ ratio', resolveClampOutputRatio settings projectedTokens' maxTok = some ratio' ∧
      ratio' ≤ ratio := by
  rw [resolveClampOutputRatio_eq] at h ⊢
  apply lastReached_antitone ?_ ?_ h
  · intro threshold hreached
    have hthreshold := of_decide_eq_true hreached
    exact decide_eq_true (by omega)
  · rw [List.map_snd_zip settings.same_length.ge]
    exact hfall

theorem buildClamp_antitone (hexact : ExactRatios settings)
    (hfall : settings.clampOutputRatios.Pairwise (· ≥ ·)) {maxTok maxOutputTokens estimated : Option ℤ}
    {tokens tokens' : ℤ} (hle : tokens ≤ tokens') {clamp : Clamp}
    (h : buildClamp settings maxTok tokens maxOutputTokens estimated = some clamp) :
    ∃ clamp', buildClamp settings maxTok tokens' maxOutputTokens estimated = some clamp' ∧
      clamp'.recommendedMaxOutputTokens ≤ clamp.recommendedMaxOutputTokens := by
  obtain ⟨cap, maxOutput, next, ratio, rfl, hcap, rfl, houtput, rfl, hratio, hlimit⟩ :=
    buildClamp_some h
  obtain ⟨ratio', hratio', hfalls⟩ :=
    resolved_antitone hfall (show tokens + next ≤ tokens' + next by omega) hratio
  have hstage : settings.intMul maxOutput ratio' ≤ settings.intMul maxOutput ratio := by
    rw [hexact _ _ (ratio_mem hratio'), hexact _ _ (ratio_mem hratio)]
    exact truncatedMul_mono houtput hfalls
  refine ⟨⟨max 1 (min maxOutput (min (max 1 (settings.intMul maxOutput ratio'))
    (cap - tokens' - max (next - maxOutput) 0))), false⟩, ?_, ?_⟩
  · unfold buildClamp
    simp only [Option.filter_some, decide_eq_true hcap, decide_eq_true houtput, if_true,
      Option.bind_eq_bind, Option.bind_some, hratio']
  · rw [hlimit]
    dsimp only
    omega

variable {nowMs nowMs' : ℕ} {usage usage' : Usage} {c c' : Option ℤ}

variable (settings project ctx usage) in
theorem judge_no_cooldown (hc : ∀ u ∈ c, u ≤ (nowMs : ℤ)) :
    (judge settings project ctx nowMs usage c).decision = .block ∧
        (project.protectMaxTokPerMin.any (· ≤ usage.tokens60s) = true ∨
          project.protectMaxReqPerMin.any (· ≤ (usage.requests60s : ℤ)) = true) ∨
      judge settings project ctx nowMs usage c = withinCaps settings project ctx usage ∧
        project.protectMaxTokPerMin.any (· ≤ usage.tokens60s) = false ∧
        project.protectMaxReqPerMin.any (· ≤ (usage.requests60s : ℤ)) = false := by
  have hnone : c.filter ((nowMs : ℤ) < ·) = none := by
    rw [Option.filter_eq_none_iff]
    intro u hu
    have hle := hc u hu
    simpa using hle
  unfold judge
  rw [hnone]
  dsimp only
  by_cases htok : project.protectMaxTokPerMin.any (· ≤ usage.tokens60s) = true
  · rw [if_pos htok]
    exact .inl ⟨rfl, .inl htok⟩
  · rw [if_neg htok]
    by_cases hreq : project.protectMaxReqPerMin.any (· ≤ (usage.requests60s : ℤ)) = true
    · rw [if_pos hreq]
      exact .inl ⟨rfl, .inr hreq⟩
    · rw [if_neg hreq]
      exact .inr ⟨rfl, Bool.eq_false_iff.mpr htok, Bool.eq_false_iff.mpr hreq⟩

theorem reached_mono {cap : Option ℤ} {n m : ℤ} (hle : n ≤ m) (h : cap.any (· ≤ n) = true) :
    cap.any (· ≤ m) = true := by
  obtain ⟨bound, hbound, hreached⟩ := (Option.any_eq_true ..).mp h
  have hn := of_decide_eq_true hreached
  exact (Option.any_eq_true ..).mpr ⟨bound, hbound, decide_eq_true (by omega)⟩

theorem withinCaps_of_clamp {clamp : Clamp} {maxOutput : ℤ} (happlies : project.applyClamp = true)
    (hbuilt : buildClamp settings project.protectMaxTokPerMin usage.tokens60s ctx.maxOutputTokens
      (estimatedNextTokens ctx) = some clamp)
    (houtput : ctx.maxOutputTokens = some maxOutput)
    (hlt : clamp.recommendedMaxOutputTokens < maxOutput) :
    (withinCaps settings project ctx usage).decision = .clamp ∧
      (withinCaps settings project ctx usage).clamp = some clamp := by
  unfold withinCaps
  dsimp only
  rw [hbuilt, houtput, happlies]
  simp only [Option.any_some, decide_eq_true hlt, Bool.and_self, if_true]
  exact ⟨rfl, trivial⟩

/-- One decision is at least as strict as another: no milder verdict, and no higher limit. -/
def AtLeastAsStrict (d' d : ProtectDecision) : Prop :=
  d.decision.strictness ≤ d'.decision.strictness ∧
    ∀ clamp clamp', d.decision = .clamp → d'.decision = .clamp → d.clamp = some clamp →
      d'.clamp = some clamp' →
      clamp'.recommendedMaxOutputTokens ≤ clamp.recommendedMaxOutputTokens

theorem atLeastAsStrict_of_block {d d' : ProtectDecision} (h : d'.decision = .block) :
    AtLeastAsStrict d' d := by
  refine ⟨?_, fun _ _ _ hclamp => ?_⟩
  · rw [h]
    cases d.decision <;> decide
  · rw [h] at hclamp
    exact absurd hclamp (by decide)

theorem withinCaps_antitone (hexact : ExactRatios settings)
    (hfall : settings.clampOutputRatios.Pairwise (· ≥ ·))
    (htokens : usage.tokens60s ≤ usage'.tokens60s) :
    AtLeastAsStrict (withinCaps settings project ctx usage')
      (withinCaps settings project ctx usage) := by
  by_cases hclamp : (withinCaps settings project ctx usage).decision = .clamp
  · obtain ⟨happlies, clamp, maxOutput, hbuilt, houtput, hlt, hclampField⟩ := withinCaps_clamp hclamp
    obtain ⟨clamp', hbuilt', hle⟩ := buildClamp_antitone hexact hfall htokens hbuilt
    obtain ⟨hdecision', hclampField'⟩ :=
      withinCaps_of_clamp happlies hbuilt' houtput (hle.trans_lt hlt)
    refine ⟨by rw [hclamp, hdecision'], fun first second _ _ hfirst hsecond => ?_⟩
    rw [hclampField] at hfirst
    rw [hclampField'] at hsecond
    rw [← Option.some.inj hfirst, ← Option.some.inj hsecond]
    exact hle
  · have hallow : (withinCaps settings project ctx usage).decision = .allow := by
      have hblock : (withinCaps settings project ctx usage).decision ≠ .block :=
        withinCaps_ne_block
      cases hd : (withinCaps settings project ctx usage).decision with
      | allow => rfl
      | clamp => exact absurd hd hclamp
      | block => exact absurd hd hblock
    refine ⟨by rw [hallow]; exact Nat.zero_le _, fun _ _ h => absurd h hclamp⟩

theorem judge_antitone (hexact : ExactRatios settings)
    (hfall : settings.clampOutputRatios.Pairwise (· ≥ ·)) (hc : ∀ u ∈ c, u ≤ (nowMs : ℤ))
    (hc' : ∀ u ∈ c', u ≤ (nowMs' : ℤ)) (hrequests : usage.requests60s ≤ usage'.requests60s)
    (htokens : usage.tokens60s ≤ usage'.tokens60s) :
    AtLeastAsStrict (judge settings project ctx nowMs' usage' c')
      (judge settings project ctx nowMs usage c) := by
  rcases judge_no_cooldown settings project ctx usage' hc' with ⟨hblock, -⟩ | ⟨hwithin', htok', hreq'⟩
  · exact atLeastAsStrict_of_block hblock
  · rcases judge_no_cooldown settings project ctx usage hc with ⟨-, hreached⟩ | ⟨hwithin, -⟩
    · -- what was reached with less usage would be reached with more
      rcases hreached with htok | hreq
      · rw [reached_mono htokens htok] at htok'
        exact absurd htok' (by decide)
      · rw [reached_mono (by omega) hreq] at hreq'
        exact absurd hreq' (by decide)
    · rw [hwithin, hwithin']
      exact withinCaps_antitone hexact hfall htokens

/-- No cooldown holds for the scope of the request. -/
def NoCooldown (project : Project) (ctx : ProtectDecisionContext) (nowMs : ℕ) (s : Store) : Prop :=
  ∀ untilMs, (run (getBlockCooldownUntilMs (scopedProjectProviderId project.id ctx.provider)) s).1 =
    .ok (some untilMs) → untilMs ≤ nowMs

/-- Among two answers to one request under a protected project, given without a cooldown, the one
that read more usage is at least as strict. -/
theorem more_usage_never_milder {s t s' t' : Store} {d d' : ProtectDecision}
    {requests60s requests60s' : ℕ} {tokens60s tokens60s' : ℤ} (hexact : ExactRatios settings)
    (hfall : settings.clampOutputRatios.Pairwise (· ≥ ·)) (henabled : project.protectEnabled = true)
    (hread : (run (getProject60s (scopedProjectProviderId project.id ctx.provider) nowMs) s).1 =
      .ok (requests60s, tokens60s))
    (hread' : (run (getProject60s (scopedProjectProviderId project.id ctx.provider) nowMs') t).1 =
      .ok (requests60s', tokens60s'))
    (hcool : NoCooldown project ctx nowMs s) (hcool' : NoCooldown project ctx nowMs' t)
    (hrequests : requests60s ≤ requests60s') (htokens : tokens60s ≤ tokens60s')
    (hrun : run (evaluateDecision settings project ctx nowMs) s = (.ok d, s'))
    (hrun' : run (evaluateDecision settings project ctx nowMs') t = (.ok d', t')) :
    AtLeastAsStrict d' d := by
  have hjudged : ∀ {now : ℕ} {s s' : Store} {d : ProtectDecision} {r : ℕ} {n : ℤ},
      (run (getProject60s (scopedProjectProviderId project.id ctx.provider) now) s).1 = .ok (r, n) →
      NoCooldown project ctx now s →
      run (evaluateDecision settings project ctx now) s = (.ok d, s') →
      ∃ c, (∀ u ∈ c, u ≤ (now : ℤ)) ∧ d = judge settings project ctx now ⟨r, n⟩ c := by
    intro now s s' d r n hread hcool hrun
    rcases evaluateDecision_cases hrun with ⟨hoff, -⟩ | ⟨-, usage, c, husage, hc, hjudge⟩
    · rw [henabled] at hoff
      exact absurd hoff (by decide)
    · have hsame : (r, n) = (usage.requests60s, usage.tokens60s) :=
        Except.ok.inj (hread.symm.trans husage)
      have husage : usage = ⟨r, n⟩ := by
        rw [(Prod.mk.inj hsame).1, (Prod.mk.inj hsame).2]
      rw [husage] at hjudge
      refine ⟨c, fun u hu => hcool u ?_, hjudge⟩
      rw [hc, Option.mem_def.mp hu]
  obtain ⟨c, hc, hd⟩ := hjudged hread hcool hrun
  obtain ⟨c', hc', hd'⟩ := hjudged hread' hcool' hrun'
  rw [hd, hd']
  exact judge_antitone hexact hfall hc hc' hrequests htokens

/-- The window after one response of a hundred tokens. -/
def usedStore : Store :=
  (run (incrementProject60s (scopedProjectProviderId "p" (some "openai")) (some 100) 1000 "m")
    (TtlStore.Store.empty 1000)).2

theorem more_usage_never_milder_sample : ∃ d d' : ProtectDecision, AtLeastAsStrict d' d ∧
    d.clamp = some ⟨360, false⟩ ∧ d'.clamp = some ⟨225, false⟩ := by
  have hrun : ∀ s usage, (run (evaluateDecision exactSettings clampedProject longRequest 1000) s).1 =
      .ok (judge exactSettings clampedProject longRequest 1000 usage none) →
        run (evaluateDecision exactSettings clampedProject longRequest 1000) s =
          (.ok (judge exactSettings clampedProject longRequest 1000 usage none),
            (run (evaluateDecision exactSettings clampedProject longRequest 1000) s).2) :=
    fun _ _ h => Prod.ext h rfl
  have hcool : ∀ s, (run (getBlockCooldownUntilMs
      (scopedProjectProviderId clampedProject.id longRequest.provider)) s).1 = .ok none →
        NoCooldown clampedProject longRequest 1000 s := by
    intro s hs untilMs huntil
    have hnone : Except.ok (some untilMs) = (Except.ok none : Except Exn (Option ℤ)) :=
      huntil.symm.trans hs
    exact absurd hnone (by simp)
  have hread : (run (getProject60s (scopedProjectProviderId clampedProject.id longRequest.provider) 1000)
      (TtlStore.Store.empty 1000)).1 = .ok (0, 0) := by decide +kernel
  have hread' : (run (getProject60s (scopedProjectProviderId clampedProject.id longRequest.provider) 1000)
      usedStore).1 = .ok (1, 100) := by decide +kernel
  have hfall : exactSettings.clampOutputRatios.Pairwise (· ≥ ·) := by decide +kernel
  have hrun₁ := hrun (TtlStore.Store.empty 1000) ⟨0, 0⟩ (by decide +kernel)
  have hrun₂ := hrun usedStore ⟨1, 100⟩ (by decide +kernel)
  have hcool₁ := hcool (TtlStore.Store.empty 1000) (by decide +kernel)
  have hcool₂ := hcool usedStore (by decide +kernel)
  have hfewer : (0 : ℤ) ≤ 100 := by decide
  exact ⟨_, _, more_usage_never_milder exactSettings_exact hfall rfl hread hread' hcool₁ hcool₂
    (Nat.zero_le 1) hfewer hrun₁ hrun₂,
    by decide +kernel, by decide +kernel⟩

end Order

end Rheonic.ProtectService
