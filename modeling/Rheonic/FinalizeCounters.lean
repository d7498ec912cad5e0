import Rheonic.FinalizeAnswer

namespace Rheonic.ProtectActionStore
open CommandProgram Redis Keys PyText

/-- A step that changes the counters of a scope text by `δ`. -/
def Moves (p : String) (s s' : Store) (δ : OutcomeField → ℤ → ℤ) : Prop :=
  ∀ f, IsCounter f →
    counterOf (s'.lookup (f.key p)) = (counterOf (s.lookup (f.key p))).map (δ f)

namespace Moves

variable {p : String} {s s' s'' : Store} {δ δ' : OutcomeField → ℤ → ℤ}

theorem of_same (h : ∀ f, IsCounter f → s'.lookup (f.key p) = s.lookup (f.key p)) :
    Moves p s s' fun _ n => n := by
  intro f hf
  rw [h f hf]
  simp

theorem trans (h : Moves p s s' δ) (h' : Moves p s' s'' δ') :
    Moves p s s'' fun f n => δ' f (δ f n) := by
  intro f hf
  rw [h' f hf, h f hf, Option.map_map]
  rfl

theorem congr (h : Moves p s s' δ) (hδ : ∀ f n, IsCounter f → δ f n = δ' f n) :
    Moves p s s' δ' := by
  intro f hf
  rw [h f hf]
  congr 1
  funext n
  exact hδ f n hf

end Moves

section Programs

variable {p : String} {s s' : Store} {payload : OutcomePayload}

theorem field_key_inj {f g : OutcomeField} : f.key p = g.key p ↔ f = g := by
  constructor
  · intro h
    rw [OutcomeField.key_eq, OutcomeField.key_eq, append_left_inj] at h
    exact OutcomeField.suffix_injective h
  · intro h
    rw [h]

theorem counterKey_map (decision : String) :
    counterKeyForDecision p decision = (decisionField decision).map (OutcomeField.key p) := by
  unfold counterKeyForDecision decisionField
  split_ifs <;> rfl

theorem moves_of_counter {f₀ : OutcomeField} {n d : ℤ}
    (hn : counterOf (s.lookup (f₀.key p)) = some n)
    (h : s'.lookup = Function.update s.lookup (f₀.key p) (some (number (n + d)))) :
    Moves p s s' fun f n => if f = f₀ then n + d else n := by
  intro f _
  rw [h, Function.update_apply]
  by_cases hf : f = f₀
  · subst hf
    simp [hn]
  · rw [if_neg fun hkey => hf (field_key_inj.mp hkey)]
    simp [hf]

theorem moves_of_other (f₀ : OutcomeField) {v : Option Value} (hf₀ : ¬IsCounter f₀)
    (h : s'.lookup = Function.update s.lookup (f₀.key p) v) : Moves p s s' fun _ n => n := by
  apply Moves.of_same
  intro f hf
  rw [h, Function.update_apply, if_neg]
  intro hkey
  rw [field_key_inj.mp hkey] at hf
  exact hf₀ hf

theorem incrementWithTtl_moves {f : OutcomeField}
    (h : run (incrementWithTtl (f.key p)) s = (.ok (), s')) :
    Moves p s s' fun g n => if g = f then n + 1 else n := by
  obtain ⟨value, s₁, hincr, hrest⟩ := run_bind_ok h
  obtain ⟨n, hn, -, hlookup⟩ := incrby_ok hincr
  have hs' : s'.lookup = s₁.lookup := by
    split at hrest
    · obtain ⟨b, s₂, hexpire, hpure⟩ := run_bind_ok hrest
      rw [← (Prod.mk.inj hpure).2]
      exact expire_ok hexpire (by decide)
    · rw [← (Prod.mk.inj hrest).2]
  exact moves_of_counter hn (hs'.trans hlookup)

theorem decrement_moves (f : OutcomeField) (s' : Store) {current : ℤ} {s₁ : Store}
    (hread : run (readInt (f.key p)) s = (.ok current, s₁)) :
    s₁ = s ∧ (current ≤ 0 → Moves p s s fun g n => if g = f ∧ 0 < n then n - 1 else n) ∧
      (0 < current → ∀ n, run (incrby (f.key p) (-1)) s = (.ok n, s') →
        Moves p s s' fun g n => if g = f ∧ 0 < n then n - 1 else n) := by
  obtain ⟨rfl, hcurrent⟩ := readInt_ok hread
  refine ⟨rfl, fun hle g _ => ?_, fun hpos n hincrby => ?_⟩
  · by_cases hg : g = f
    · subst hg
      cases hn : counterOf (s₁.lookup (g.key p)) with
      | none => rfl
      | some n =>
        have hsame := hcurrent n hn
        have hnot : ¬0 < n := by omega
        simp [hnot]
    · simp [hg]
  · obtain ⟨n, hn, -, hlookup⟩ := incrby_ok hincrby
    have hsame := hcurrent n hn
    intro g hg
    rw [moves_of_counter hn hlookup g hg]
    by_cases hgf : g = f
    · subst hgf
      have habove : 0 < n := by omega
      simp [hn, habove, sub_eq_add_neg]
    · simp [hgf]

theorem decrementCounterForDecision_moves {decision : String}
    (h : run (decrementCounterForDecision p decision) s = (.ok (), s')) :
    Moves p s s' fun f n => if decisionField decision = some f ∧ 0 < n then n - 1 else n := by
  unfold decrementCounterForDecision at h
  rw [counterKey_map] at h
  cases hd : decisionField decision with
  | none =>
    rw [hd] at h
    rw [← (Prod.mk.inj h).2]
    exact (Moves.of_same fun _ _ => rfl).congr fun f n _ => by simp
  | some f =>
    rw [hd] at h
    obtain ⟨current, s₁, hread, hrest⟩ := run_bind_ok h
    obtain ⟨rfl, hzero, hdown⟩ := decrement_moves f s' hread
    have hmoves : Moves p s₁ s' fun g n => if g = f ∧ 0 < n then n - 1 else n := by
      split at hrest
      · next hle =>
        rw [← (Prod.mk.inj hrest).2]
        exact hzero hle
      · next hlt =>
        obtain ⟨n, s₂, hincrby, hpure⟩ := run_bind_ok hrest
        obtain rfl := (Prod.mk.inj hpure).2
        exact hdown (by omega) n hincrby
    exact hmoves.congr fun g n _ => by simp [eq_comm]

theorem decrementTimeoutCounter_moves (h : run (decrementTimeoutCounter p) s = (.ok (), s')) :
    Moves p s s' fun f n => if f = .timeout ∧ 0 < n then n - 1 else n := by
  obtain ⟨current, s₁, hread, hrest⟩ := run_bind_ok h
  obtain ⟨rfl, hzero, hdown⟩ := decrement_moves .timeout s' hread
  split at hrest
  · next hpos =>
    obtain ⟨n, s₂, hincrby, hpure⟩ := run_bind_ok hrest
    obtain rfl := (Prod.mk.inj hpure).2
    exact hdown hpos n hincrby
  · next hle =>
    rw [← (Prod.mk.inj hrest).2]
    exact hzero (by omega)

theorem timeoutEvents_key : timeoutEventsKey p = OutcomeField.key p .timeoutEvents := rfl

theorem not_counter_timeoutEvents : ¬IsCounter .timeoutEvents := by simp [IsCounter]

theorem recordTimeoutEvent_moves {requestId : String} {ts : ℕ}
    (h : run (recordTimeoutEvent p requestId ts) s = (.ok (), s')) :
    Moves p s s' fun _ n => n := by
  obtain ⟨n, s₁, hzadd, hrest⟩ := run_bind_ok h
  obtain ⟨b, s₂, hexpire, hpure⟩ := run_bind_ok hrest
  obtain rfl := (Prod.mk.inj hpure).2
  obtain ⟨z, -, hlookup⟩ := zadd_ok hzadd
  rw [timeoutEvents_key] at hlookup
  exact moves_of_other .timeoutEvents not_counter_timeoutEvents
    ((expire_ok hexpire (by decide)).trans hlookup)

theorem removeTimeoutEvent_moves {requestId : String}
    (h : run (removeTimeoutEvent p requestId) s = (.ok (), s')) : Moves p s s' fun _ n => n := by
  obtain ⟨n, s₁, hzrem, hpure⟩ := run_bind_ok h
  obtain rfl := (Prod.mk.inj hpure).2
  obtain ⟨z, -, hlookup⟩ := zrem_ok hzrem
  rw [timeoutEvents_key] at hlookup
  exact moves_of_other .timeoutEvents not_counter_timeoutEvents hlookup

theorem applyOutcomeCounters_moves {r : String} (hr : r ≠ "")
    (h : run (applyOutcomeCounters p payload (some r)) s = (.ok (), s')) :
    Moves p s s' fun f n => if CountsIn f payload then n + 1 else n := by
  obtain ⟨_, s₁, hdecision, hsource⟩ := run_bind_ok h
  have hmoves : Moves p s s₁ fun f n =>
      if decisionField payload.decision = some f then n + 1 else n := by
    rw [incrementCounterForDecision, counterKey_map] at hdecision
    cases hd : decisionField payload.decision with
    | none =>
      rw [hd] at hdecision
      rw [← (Prod.mk.inj hdecision).2]
      exact (Moves.of_same fun _ _ => rfl).congr fun f n _ => by simp
    | some f =>
      rw [hd] at hdecision
      exact (incrementWithTtl_moves hdecision).congr fun g n _ => by simp [eq_comm]
  split at hsource
  · next hp =>
    obtain ⟨_, s₂, htimeout, hevent⟩ := run_bind_ok hsource
    rw [whenRequestId_some hr] at hevent
    have htimeout' : run (incrementWithTtl (OutcomeField.key p .timeout)) s₁ = (.ok (), s₂) :=
      htimeout
    refine ((hmoves.trans (incrementWithTtl_moves htimeout')).trans
      (recordTimeoutEvent_moves hevent)).congr fun f n _ => ?_
    by_cases hf : decisionField payload.decision = some f
    · simp [CountsIn, hf, (decisionField_isCounter hf).2]
    · simp [CountsIn, hf, hp]
  · next hp =>
    rw [← (Prod.mk.inj hsource).2]
    exact hmoves.congr fun f n _ => by simp [CountsIn, hp]

theorem removeOutcomeCounters_moves {r : String} (hr : r ≠ "")
    (h : run (removeOutcomeCounters p payload (some r)) s = (.ok (), s')) :
    Moves p s s' fun f n => if CountsIn f payload ∧ 0 < n then n - 1 else n := by
  obtain ⟨_, s₁, hdecision, hsource⟩ := run_bind_ok h
  have hmoves := decrementCounterForDecision_moves hdecision
  split at hsource
  · next hp =>
    obtain ⟨_, s₂, htimeout, hevent⟩ := run_bind_ok hsource
    rw [whenRequestId_some hr] at hevent
    refine ((hmoves.trans (decrementTimeoutCounter_moves htimeout)).trans
      (removeTimeoutEvent_moves hevent)).congr fun f n _ => ?_
    by_cases hf : decisionField payload.decision = some f
    · simp [CountsIn, hf, (decisionField_isCounter hf).2]
    · simp [CountsIn, hf, hp]
  · next hp =>
    rw [← (Prod.mk.inj hsource).2]
    exact hmoves.congr fun f n _ => by simp [CountsIn, hp]

theorem replaceOutcome_moves {r : String} (hr : r ≠ "")
    (h : run (replaceOutcome p payload r) s = (.ok (), s')) :
    Moves p s s' fun f n => if CountsIn f payload then n + 1 else n := by
  obtain ⟨_, s₁, hset, hpublish⟩ := run_bind_ok h
  obtain ⟨_, s₂, hcounters, hlast⟩ := run_bind_ok hpublish
  have houtcome : Moves p s s₁ fun _ n => n :=
    moves_of_other (.outcome r) (by simp [IsCounter]) (set_ok hset)
  have hrecord : Moves p s₂ s' fun _ n => n :=
    moves_of_other .last (by simp [IsCounter]) (set_ok hlast)
  exact (houtcome.trans (applyOutcomeCounters_moves hr hcounters)).trans hrecord

/-- What a finalize call does to a counter: the old outcome gives back its unit, the new one takes
its own. -/
def moved (applied : Bool) (old : Option OutcomePayload) (payload : OutcomePayload)
    (f : OutcomeField) (n : ℤ) : ℤ :=
  if applied then if CountsIn f payload then givenBack old f n + 1 else givenBack old f n else n

theorem finalizeBody_moves {r : String} {applied : Bool} {old : Option OutcomePayload}
    (hr : r ≠ "") (hbody : run (finalizeBody p payload (some r)) s = (.ok (applied, old), s')) :
    Moves p s s' (moved applied old payload) := by
  rw [finalizeBody, truthy_some hr] at hbody
  obtain ⟨raw, s₁, hget, hsettle⟩ := run_bind_ok hbody
  obtain ⟨rfl, -⟩ := get_ok hget
  cases hparse : parseLast raw with
  | none =>
    rw [hparse] at hsettle
    obtain ⟨_, s₂, hreplace, hpure⟩ := run_bind_ok hsettle
    obtain ⟨hanswer, rfl⟩ := Prod.mk.inj hpure
    obtain ⟨rfl, rfl⟩ := Prod.mk.inj (Except.ok.inj hanswer)
    exact (replaceOutcome_moves hr hreplace).congr fun f n _ => by simp [moved, givenBack]
  | some existing =>
    rw [hparse, settleOutcome] at hsettle
    by_cases hreplaces : shouldReplaceOutcome existing payload = true
    · rw [if_pos hreplaces] at hsettle
      obtain ⟨_, s₂, hremove, hrest⟩ := run_bind_ok hsettle
      obtain ⟨_, s₃, hreplace, hpure⟩ := run_bind_ok hrest
      obtain ⟨hanswer, rfl⟩ := Prod.mk.inj hpure
      obtain ⟨rfl, rfl⟩ := Prod.mk.inj (Except.ok.inj hanswer)
      exact ((removeOutcomeCounters_moves hr hremove).trans
        (replaceOutcome_moves hr hreplace)).congr fun f n _ => by simp [moved, givenBack]
    · rw [if_neg hreplaces] at hsettle
      obtain ⟨hanswer, rfl⟩ := Prod.mk.inj hsettle
      obtain ⟨rfl, rfl⟩ := Prod.mk.inj (Except.ok.inj hanswer)
      exact (Moves.of_same fun _ _ => rfl).congr fun f n _ => by simp [moved]

theorem moved_twice {old : Option OutcomePayload} {live fallback : OutcomePayload} {f : OutcomeField}
    {n : ℤ} (hn : 0 ≤ n) :
    moved true (some live) fallback f (moved true old live f n) = moved true old fallback f n := by
  have hback : 0 ≤ givenBack old f n := by
    unfold givenBack
    split
    · omega
    · exact hn
  have hpos : 0 < givenBack old f n + 1 := by omega
  by_cases hlive : CountsIn f live
  · have htaken : moved true old live f n = givenBack old f n + 1 := by simp [moved, hlive]
    have hreturned : givenBack (some live) f (givenBack old f n + 1) = givenBack old f n := by
      unfold givenBack at hpos ⊢
      simp [hlive, hpos]
    rw [htaken]
    simp only [moved, if_true, hreturned]
  · have htaken : moved true old live f n = givenBack old f n := by simp [moved, hlive]
    have hreturned : ∀ k, givenBack (some live) f k = k := by simp [givenBack, hlive]
    rw [htaken]
    simp only [moved, if_true, hreturned]

end Programs

end Rheonic.ProtectActionStore
