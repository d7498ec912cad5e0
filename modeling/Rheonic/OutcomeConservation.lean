import Rheonic.OutcomeLedger

namespace Rheonic.ProtectActionStore
open CommandProgram Redis Keys PriorityRegister

/-- The request ids of a scope whose stored outcome has a property. -/
def holders (s : Store) (σ : Scope) (P : OutcomePayload → Prop) : Set String :=
  {r | ∃ p, storedOutcome s σ r = some p ∧ P p}

theorem countsIn_allow (p : OutcomePayload) : CountsIn .allow p ↔ p.decision = "allow" := by
  unfold CountsIn decisionField
  split_ifs <;> simp_all

theorem countsIn_clamp (p : OutcomePayload) : CountsIn .clamp p ↔ p.decision = "clamp" := by
  unfold CountsIn decisionField
  split_ifs <;> simp_all

theorem countsIn_block (p : OutcomePayload) : CountsIn .block p ↔ p.decision = "block" := by
  unfold CountsIn decisionField
  split_ifs <;> simp_all

theorem countsIn_timeout (p : OutcomePayload) :
    CountsIn .timeout p ↔ p.source = sourceTimeoutFallback := by
  unfold CountsIn decisionField
  split_ifs <;> simp_all

theorem Runs.step_now {s s₁ : Store} {calls : List Call} (c : Call) (h : Runs s calls s₁)
    (hclock : c.madeAt = s₁.clock) (hok : Succeeded (run c.finalize (s₁.advance c.madeAt)).1) :
    Runs s (calls ++ [c]) (run c.finalize (s₁.advance c.madeAt)).2 :=
  h.step c hclock.ge (fun _ _ he => hclock ▸ TtlStore.Store.alive_of_live he) hok

theorem Runs.consistent {now : ℕ} {calls : List Call} {s : Store}
    (h : Runs (.empty now) calls s) (σ : Scope) : Consistent s σ :=
  h.invariant.1 σ (consistent_empty now σ)

theorem Consistent.readInt_eq {s : Store} {σ : Scope} (h : Consistent s σ) {f : OutcomeField}
    (hf : IsCounter f) {P : OutcomePayload → Prop} (hP : ∀ p, CountsIn f p ↔ P p) :
    run (readInt (σ.key f)) s = (.ok ↑(holders s σ P).ncard, s) := by
  have htally : Tally.tally (storedOutcome s σ) (CountsIn f) = (holders s σ P).ncard := by
    simp only [Tally.tally, holders, hP]
  rw [ProtectActionStore.readInt_eq (h.counter f hf), htally]

theorem Consistent.counter_share {s : Store} {σ : Scope} (h : Consistent s σ) {r : String}
    {p : OutcomePayload} (hp : storedOutcome s σ r = some p) {f : OutcomeField}
    (hf : IsCounter f) : counterOf (s.lookup (σ.key f)) =
      some (((holders s σ (CountsIn f) \ {r}).ncard : ℤ) + if CountsIn f p then 1 else 0) := by
  have hshare := Tally.tally_eq_others_add_unit h.finite r (CountsIn f)
  rw [Tally.others_eq_ncard, hp, Tally.unit_some] at hshare
  rw [h.counter f hf, hshare, holders]
  push_cast
  rfl

/-- After any run of successful calls every counter of every scope is the number of request ids
whose stored outcome has its unit there. -/
theorem counters_conserved {now : ℕ} {calls : List Call} {s : Store}
    (h : Runs (.empty now) calls s) (σ : Scope) :
    (∀ P, (holders s σ P).Finite) ∧
    run (readInt (allowKey σ.id)) s = (.ok ↑(holders s σ (·.decision = "allow")).ncard, s) ∧
    run (readInt (clampKey σ.id)) s = (.ok ↑(holders s σ (·.decision = "clamp")).ncard, s) ∧
    run (readInt (blockKey σ.id)) s = (.ok ↑(holders s σ (·.decision = "block")).ncard, s) ∧
    run (readInt (timeoutKey σ.id)) s =
      (.ok ↑(holders s σ (·.source = sourceTimeoutFallback)).ncard, s) ∧
    (∃ z, zsetOf (s.lookup (timeoutEventsKey σ.id)) = some z ∧
      {r | r ∈ z.members} = holders s σ (·.source = sourceTimeoutFallback)) ∧
    ∀ f, IsCounter f → ∃ n, counterOf (s.lookup (σ.key f)) = some n ∧ 0 ≤ n := by
  have hs := h.consistent σ
  obtain ⟨z, hz, hmem⟩ := hs.events
  refine ⟨hs.finite.holders, hs.readInt_eq (f := .allow) (by simp [IsCounter]) countsIn_allow,
    hs.readInt_eq (f := .clamp) (by simp [IsCounter]) countsIn_clamp,
    hs.readInt_eq (f := .block) (by simp [IsCounter]) countsIn_block,
    hs.readInt_eq (f := .timeout) (by simp [IsCounter]) countsIn_timeout,
    ⟨z, hz, Set.ext hmem⟩, fun f hf => ⟨_, hs.counter f hf, by positivity⟩⟩

def sampleScope : Scope := ⟨"p1", "openai", by decide, by decide⟩

def liveBlock : Call where
  scope := sampleScope
  decision := "block"
  reason := "tokens_60s"
  source := "live"
  requestId := "r1"
  ts := 5
  madeAt := 5

def timeoutAllow : Call where
  scope := sampleScope
  decision := "allow"
  reason := "decision_timeout"
  source := "timeout_fallback"
  requestId := "r1"
  ts := 5
  madeAt := 5

/-- The store after a live decision and the timeout report for the same request. -/
def sampleStore : Store :=
  (run timeoutAllow.finalize (.advance (run liveBlock.finalize (.advance (.empty 5) 5)).2 5)).2

theorem sampleRun : Runs (.empty 5) [liveBlock, timeoutAllow] sampleStore := by
  have hstart : Runs (.empty 5) [] (.empty 5) := .nil
  exact (hstart.step_now liveBlock rfl (by decide)).step_now timeoutAllow rfl (by decide)

theorem counters_conserved_sample :
    run (readInt (blockKey sampleScope.id)) sampleStore =
      (.ok ↑(holders sampleStore sampleScope (·.decision = "block")).ncard, sampleStore) ∧
    run (readInt (timeoutKey sampleScope.id)) sampleStore =
      (.ok ↑(holders sampleStore sampleScope (·.source = sourceTimeoutFallback)).ncard,
        sampleStore) :=
  have h := counters_conserved sampleRun sampleScope
  ⟨h.2.2.2.1, h.2.2.2.2.1⟩

example : (run (readInt (blockKey sampleScope.id)) sampleStore).1 = .ok 0 ∧
    (run (readInt (allowKey sampleScope.id)) sampleStore).1 = .ok 1 := by decide

def IsFallback (source : String) : Prop :=
  source = sourceTimeoutFallback ∨ source = sourceUnavailableFallback

instance : DecidablePred IsFallback := fun _ => inferInstanceAs (Decidable (_ ∨ _))

theorem sourceRank_le_two (source : String) : sourceRank source ≤ 2 := by
  unfold sourceRank
  split_ifs <;> omega

theorem sourceRank_eq_two {source : String} : sourceRank source = 2 ↔ IsFallback source := by
  unfold sourceRank IsFallback
  constructor
  · intro h
    split_ifs at h with hlive hfallback
    · omega
    · exact hfallback
  · intro h
    rw [if_neg, if_pos h]
    rintro rfl
    simp [sourceLive, sourceTimeoutFallback, sourceUnavailableFallback] at h

theorem shouldReplaceOutcome_rankedBy :
    RankedBy shouldReplaceOutcome fun p => sourceRank p.source where
  refuses a b h := by
    unfold shouldReplaceOutcome
    rw [if_pos h]
  prefers a b h := by
    unfold shouldReplaceOutcome
    rw [if_neg (by omega), if_pos h]

theorem Call.live_after_fallback {s : Store} {c : Call} {p : OutcomePayload}
    (hok : Succeeded (run c.finalize s).1) (hlive : c.source = sourceLive)
    (hp : storedOutcome s c.scope c.requestId = some p) (hfallback : IsFallback p.source) :
    (run c.finalize s).2 = s := by
  obtain ⟨applied, old, hrun, hanswer⟩ := succeeded_cases hok
  obtain ⟨raw, hraw, hparse, happlied, heffect⟩ := finalizeBody_ok c.requestId_ne
    (finalizeOutcome_ok hrun hanswer)
  have hold : old = some p := by rw [← hparse, ← storedOutcome_of_get hraw, hp]
  have hrank : sourceRank c.source < sourceRank p.source := by
    rw [sourceRank_eq_two.mpr hfallback, hlive]
    decide
  have hrefused : applied = false := by
    rw [happlied, hold]
    exact shouldReplaceOutcome_rankedBy.refuses p c.payload hrank
  simpa [hrefused] using heffect

/-- The rank of a stored source never falls; a fallback outcome is out of the reach of live calls;
fallback calls that agree win in any order and count once. -/
theorem outcome_precedence {now : ℕ} {calls later : List Call} {s s' : Store}
    (h : Runs (.empty now) calls s) (hlater : Runs s later s') (σ : Scope) (r : String) :
    (∀ p, storedOutcome s σ r = some p →
      ∃ p', storedOutcome s' σ r = some p' ∧ sourceRank p.source ≤ sourceRank p'.source) ∧
    (∀ p, storedOutcome s σ r = some p → IsFallback p.source →
      ∀ c : Call, c.scope = σ → c.requestId = r → c.source = sourceLive →
        s'.clock ≤ c.madeAt → s'.Lasts c.madeAt →
        Succeeded (run c.finalize (s'.advance c.madeAt)).1 →
        ∀ k, (run c.finalize (s'.advance c.madeAt)).2.lookup k = s'.lookup k) ∧
    ∀ decision reason source,
      (∃ c ∈ calls, c.scope = σ ∧ c.requestId = r ∧ IsFallback c.source) →
      (∀ c ∈ calls, c.scope = σ → c.requestId = r → IsFallback c.source →
        c.decision = decision ∧ c.reason = reason ∧ c.source = source) →
      ∃ ts, storedOutcome s σ r = some ⟨decision, reason, source, ts⟩ ∧
        ∀ f, IsCounter f → counterOf (s.lookup (σ.key f)) =
          some (((holders s σ (CountsIn f) \ {r}).ncard : ℤ) +
            if CountsIn f ⟨decision, reason, source, ts⟩ then 1 else 0) := by
  have hrank : ∀ p, storedOutcome s σ r = some p →
      ∃ p', storedOutcome s' σ r = some p' ∧ sourceRank p.source ≤ sourceRank p'.source := by
    intro p hp
    -- what is stored is what the offers since then have come to
    have hfold := hlater.invariant.2 σ r
    obtain ⟨p', hp', -, hle, -⟩ := shouldReplaceOutcome_rankedBy.foldl_offer (storedOutcome s σ r)
      ((later.filter fun c => c.scope = σ ∧ c.requestId = r).map Call.payload) (by simp [hp])
    exact ⟨p', hfold.trans hp', hle p hp⟩
  refine ⟨hrank, ?_, ?_⟩
  · intro p hp hfallback c hσ hr hlive hclock hlasts hok k
    obtain ⟨p', hp', hle⟩ := hrank p hp
    have hfallback' : IsFallback p'.source := by
      -- the fallbacks have the highest rank, so no offer has taken it away
      have htwo := sourceRank_eq_two.mpr hfallback
      have hmax := sourceRank_le_two p'.source
      exact sourceRank_eq_two.mp (by omega)
    have hlookup := s'.lookup_advance hclock hlasts
    have hstored : storedOutcome (s'.advance c.madeAt) c.scope c.requestId = some p' := by
      rw [hσ, hr, storedOutcome_congr (hlookup _), hp']
    rw [Call.live_after_fallback hok hlive hstored hfallback', hlookup k]
  · intro decision reason source hexists hagree
    obtain ⟨c, hc, hcσ, hcr, hcfallback⟩ := hexists
    have hfold := h.invariant.2 σ r
    have hmem : c.payload ∈ (calls.filter fun c => c.scope = σ ∧ c.requestId = r).map
        Call.payload := List.mem_map.mpr ⟨c, by simp [hc, hcσ, hcr], rfl⟩
    obtain ⟨p, hp, hheld, -, hle⟩ := shouldReplaceOutcome_rankedBy.foldl_offer
      (storedOutcome (.empty now) σ r) _ fun _ => List.ne_nil_of_mem hmem
    rw [hp] at hfold
    -- one of the calls is a fallback, so the stored one ranks with it
    have hpfallback : IsFallback p.source := by
      have htop : sourceRank c.source ≤ sourceRank p.source := hle c.payload hmem
      rw [sourceRank_eq_two.mpr hcfallback] at htop
      have hmax := sourceRank_le_two p.source
      exact sourceRank_eq_two.mp (by omega)
    have hpcall : p ∈ (calls.filter fun c => c.scope = σ ∧ c.requestId = r).map Call.payload := by
      simpa [storedOutcome] using hheld
    -- and the stored one is a call, on which all fallbacks agree
    obtain ⟨c', hc', rfl⟩ := List.mem_map.mp hpcall
    simp only [List.mem_filter, decide_eq_true_eq] at hc'
    obtain ⟨hdecision, hreason, hsource'⟩ := hagree c' hc'.1 hc'.2.1 hc'.2.2 hpfallback
    have hpayload : c'.payload = ⟨decision, reason, source, c'.ts⟩ := by
      rw [← hdecision, ← hreason, ← hsource', Call.payload]
    refine ⟨c'.ts, hfold.trans (congrArg some hpayload), fun f hf => ?_⟩
    exact (h.consistent σ).counter_share (hpayload ▸ hfold) hf

/-- The store after the live decision has been sent once more. -/
def lateStore : Store := (run liveBlock.finalize (sampleStore.advance 5)).2

theorem outcome_precedence_sample :
    (∃ p, storedOutcome lateStore sampleScope "r1" = some p ∧ 2 ≤ sourceRank p.source) ∧
    (∀ k, (run liveBlock.finalize (lateStore.advance 5)).2.lookup k = lateStore.lookup k) ∧
    ∃ ts, storedOutcome sampleStore sampleScope "r1" =
      some ⟨"allow", "decision_timeout", "timeout_fallback", ts⟩ := by
  have hstart : Runs sampleStore [] sampleStore := .nil
  have hlater : Runs sampleStore [liveBlock] lateStore := hstart.step_now liveBlock rfl (by decide)
  obtain ⟨hrank, hlive, hagree⟩ := outcome_precedence sampleRun hlater sampleScope "r1"
  have hp : storedOutcome sampleStore sampleScope "r1" = some timeoutAllow.payload := by decide
  have hnow : lateStore.Lasts 5 := fun _ _ he => TtlStore.Store.alive_of_live he
  refine ⟨hrank _ hp, ?_, ?_⟩
  · exact hlive _ hp (.inl rfl) liveBlock rfl rfl rfl le_rfl hnow (by decide)
  · obtain ⟨ts, hts, -⟩ := hagree "allow" "decision_timeout" "timeout_fallback"
      ⟨timeoutAllow, by simp, rfl, rfl, .inl rfl⟩ (by
        intro c hc _ _ hfallback
        rcases List.mem_pair.mp hc with rfl | rfl
        · exact absurd hfallback (by decide)
        · exact ⟨rfl, rfl, rfl⟩)
    exact ⟨ts, hts⟩

end Rheonic.ProtectActionStore
