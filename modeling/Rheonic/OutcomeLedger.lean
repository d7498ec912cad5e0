import Rheonic.Finalize
import Rheonic.Lib.Tally
import Rheonic.Lib.PriorityRegister

namespace Rheonic.ProtectActionStore
open CommandProgram Redis Keys PriorityRegister

/-- A finalize call with its arguments, made at the time `at`. -/
structure Call where
  scope : Scope
  decision : String
  reason : String
  source : String
  requestId : String
  ts : ℕ
  madeAt : ℕ
  decision_ne : decision ≠ "" := by decide
  reason_ne : reason ≠ "" := by decide
  source_ne : source ≠ "" := by decide
  requestId_ne : requestId ≠ "" := by decide

namespace Call

def payload (c : Call) : OutcomePayload := ⟨c.decision, c.reason, c.source, c.ts⟩

def finalize (c : Call) : Prog (Bool × Option OutcomePayload) :=
  finalizeOutcome c.scope.id c.decision c.reason c.source (some c.requestId) c.ts

theorem parseLast_payload (c : Call) : parseLast (some (.json c.payload)) = some c.payload := by
  simp [parseLast, payload, c.decision_ne, c.reason_ne, c.source_ne]

end Call

/-- `(false, none)` is the answer of a call that caught a failure of the store. -/
def Succeeded (answer : Except Exn (Bool × Option OutcomePayload)) : Prop :=
  answer ≠ .ok (false, none)

instance : DecidablePred Succeeded := fun _ => inferInstanceAs (Decidable (¬_))

/-- Calls one after the other, each of them successful; no live key expires before the next. -/
inductive Runs (s : Store) : List Call → Store → Prop
  | nil : Runs s [] s
  | step {calls s₁} (c : Call) (h : Runs s calls s₁) (hclock : s₁.clock ≤ c.madeAt)
      (hlasts : s₁.Lasts c.madeAt) (hok : Succeeded (run c.finalize (s₁.advance c.madeAt)).1) :
      Runs s (calls ++ [c]) (run c.finalize (s₁.advance c.madeAt)).2

/-- The outcome that is stored for a request id. -/
def storedOutcome (s : Store) (σ : Scope) (requestId : String) : Option OutcomePayload :=
  match s.lookup (σ.key (.outcome requestId)) with
  | some (.text t) => parseLast (some t)
  | _ => none

/-- The counters and the timeout events of a scope say what its stored outcomes say. -/
structure Consistent (s : Store) (σ : Scope) : Prop where
  texts : ∀ r, ∃ raw, s.lookup (σ.key (.outcome r)) = Option.map .text raw
  finite : Tally.Finite (storedOutcome s σ)
  counter : ∀ f, IsCounter f →
    counterOf (s.lookup (σ.key f)) = some (Tally.tally (storedOutcome s σ) (CountsIn f) : ℤ)
  events : ∃ z, zsetOf (s.lookup (σ.key .timeoutEvents)) = some z ∧ ∀ r, r ∈ z.members ↔
    ∃ p, storedOutcome s σ r = some p ∧ p.source = sourceTimeoutFallback

theorem consistent_empty (now : ℕ) (σ : Scope) : Consistent (.empty now) σ := by
  have hnone : storedOutcome (.empty now) σ = fun _ => none := by
    funext r
    simp [storedOutcome]
  refine ⟨fun r => ⟨none, rfl⟩, ?_, fun f _ => ?_, .empty, rfl, fun r => ?_⟩
  · rw [hnone]
    exact Tally.finite_none
  · rw [hnone]
    simp
  · simp [hnone]

theorem storedOutcome_congr {s s' : Store} {σ : Scope} {r : String}
    (h : s'.lookup (σ.key (.outcome r)) = s.lookup (σ.key (.outcome r))) :
    storedOutcome s' σ r = storedOutcome s σ r := by
  rw [storedOutcome, h, storedOutcome]

theorem Consistent.of_lookup {s s' : Store} {σ : Scope} (h : Consistent s σ)
    (hlookup : ∀ f, f ≠ .last → s'.lookup (σ.key f) = s.lookup (σ.key f)) : Consistent s' σ := by
  have hstored : storedOutcome s' σ = storedOutcome s σ := by
    funext r
    exact storedOutcome_congr (hlookup _ (by simp))
  refine ⟨fun r => ?_, hstored ▸ h.finite, fun f hf => ?_, ?_⟩
  · rw [hlookup _ (by simp)]
    exact h.texts r
  · rw [hlookup f (by rintro rfl; simp [IsCounter] at hf), hstored]
    exact h.counter f hf
  · rw [hlookup _ (by simp), hstored]
    exact h.events

theorem storedOutcome_of_get {s : Store} {σ : Scope} {r : String} {raw : Option Text}
    (h : s.lookup (σ.key (.outcome r)) = raw.map .text) :
    storedOutcome s σ r = parseLast raw := by
  rw [storedOutcome, h]
  cases raw <;> rfl

/-- A counter that contains the units of `old` gives them back exactly. -/
theorem givenBack_eq {old : Option OutcomePayload} {f : OutcomeField} {n : ℤ}
    (h : (Tally.unit old (CountsIn f) : ℤ) ≤ n) :
    givenBack old f n = n - Tally.unit old (CountsIn f) := by
  unfold givenBack
  unfold Tally.unit at h ⊢
  by_cases hold : (old.any fun p => CountsIn f p) = true
  · rw [if_pos hold] at h ⊢
    rw [if_pos ⟨hold, by omega⟩]
    rfl
  · rw [if_neg hold, if_neg fun hand => hold hand.1]
    simp

theorem mem_eventsGivenBack {old : Option OutcomePayload} {r q : String} {z : SortedSet String}
    (h : r ∈ z.members ↔ ∃ p, old = some p ∧ p.source = sourceTimeoutFallback) :
    q ∈ (eventsGivenBack old r z).members ↔ q ≠ r ∧ q ∈ z.members := by
  unfold eventsGivenBack
  split
  · simp
  · next hold =>
    have hr : r ∉ z.members := by
      rw [h]
      rintro ⟨p, rfl, hp⟩
      simp [hp] at hold
    have hne : q ∈ z.members → q ≠ r := fun hq he => hr (he ▸ hq)
    exact ⟨fun hq => ⟨hne hq, hq⟩, fun hq => hq.2⟩

section Replaced

variable {s s' : Store} {σ : Scope} {r : String} {p : OutcomePayload}

theorem Replaced.storedOutcome_eq {old : Option OutcomePayload}
    (h : Replaced s s' σ r old p) (hp : parseLast (some (.json p)) = some p) (τ : Scope) :
    storedOutcome s' τ =
      if τ = σ then Function.update (storedOutcome s τ) r (some p) else storedOutcome s τ := by
  funext q
  by_cases hτ : τ = σ
  · subst τ
    rw [if_pos rfl, Function.update_apply]
    by_cases hq : q = r
    · subst q
      rw [if_pos rfl, storedOutcome, h.outcome, if_pos ⟨rfl, rfl⟩]
      exact hp
    · rw [if_neg hq]
      exact storedOutcome_congr (by rw [h.outcome, if_neg (by simp [hq])])
  · rw [if_neg hτ]
    exact storedOutcome_congr (by rw [h.outcome, if_neg (by simp [hτ])])

theorem Replaced.consistent (h : Replaced s s' σ r (storedOutcome s σ r) p)
    (hp : parseLast (some (.json p)) = some p) {τ : Scope} (hs : Consistent s τ) :
    Consistent s' τ := by
  have hstored := h.storedOutcome_eq hp τ
  have htexts : ∀ q, ∃ raw, s'.lookup (τ.key (.outcome q)) = Option.map .text raw := by
    intro q
    rw [h.outcome τ q]
    split
    · exact ⟨some (.json p), rfl⟩
    · exact hs.texts q
  by_cases hτ : τ = σ
  · subst τ
    rw [if_pos rfl] at hstored
    refine ⟨htexts, hstored ▸ hs.finite.update r _, fun f hf => ?_, ?_⟩
    · rw [h.counter σ f hf, hs.counter f hf, hstored, if_pos rfl, Option.map_some]
      have hnew := Tally.tally_update hs.finite r (some p) (CountsIn f)
      have hold := Tally.tally_eq_others_add_unit hs.finite r (CountsIn f)
      rw [Tally.unit_some] at hnew
      rw [givenBack_eq (by omega)]
      congr 1
      split_ifs at hnew ⊢ <;> omega
    · obtain ⟨z, hz, hmem⟩ := hs.events
      have hback := fun q => mem_eventsGivenBack (q := q) (hmem r)
      refine ⟨_, (h.events σ).trans (by rw [hz, if_pos rfl, Option.map_some]), fun q => ?_⟩
      rw [hstored, Function.update_apply]
      by_cases hq : q = r
      · subst q
        by_cases hsource : p.source = sourceTimeoutFallback <;> simp [hsource, hback]
      · rw [if_neg hq, ← hmem q]
        by_cases hsource : p.source = sourceTimeoutFallback <;> simp [hsource, hback, hq]
  · rw [if_neg hτ] at hstored
    refine ⟨htexts, hstored ▸ hs.finite, fun f hf => ?_, ?_⟩
    · rw [h.counter τ f hf, hs.counter f hf, hstored, if_neg hτ]
      rfl
    · rw [h.events τ, hstored, if_neg hτ, Option.map_id]
      exact hs.events

end Replaced

namespace Call

variable {s s' : Store} {c : Call}

theorem succeeded_cases (hok : Succeeded (run c.finalize s).1) :
    ∃ applied old, run c.finalize s = (.ok (applied, old), (run c.finalize s).2) ∧
      (applied, old) ≠ (false, none) := by
  rcases hrun : run c.finalize s with ⟨_ | ⟨applied, old⟩, s'⟩
  · have hcaught := Program.run_tryCatch exec (finalizeBody c.scope.id c.payload (some c.requestId))
      (fun _ => pure (false, none)) s
    have hfinalize : run c.finalize s = _ := hcaught
    rw [hrun] at hfinalize
    split at hfinalize <;> simp at hfinalize
  · rw [hrun] at hok
    exact ⟨applied, old, rfl, fun he => hok (by rw [he])⟩

theorem finalize_step (hok : Succeeded (run c.finalize s).1) :
    (∀ σ, Consistent s σ → Consistent (run c.finalize s).2 σ) ∧
      ∀ σ r, storedOutcome (run c.finalize s).2 σ r =
        if σ = c.scope ∧ r = c.requestId then
          offer shouldReplaceOutcome (storedOutcome s σ r) c.payload
        else storedOutcome s σ r := by
  obtain ⟨applied, old, hrun, hanswer⟩ := succeeded_cases hok
  obtain ⟨raw, hraw, hparse, happlied, heffect⟩ := finalizeBody_ok c.requestId_ne
    (finalizeOutcome_ok hrun hanswer)
  have hold : storedOutcome s c.scope c.requestId = old :=
    (storedOutcome_of_get hraw).trans hparse
  cases applied with
  | true =>
    rw [if_pos rfl] at heffect
    have hreplaced : Replaced s (run c.finalize s).2 c.scope c.requestId
        (storedOutcome s c.scope c.requestId) c.payload := hold ▸ heffect
    refine ⟨fun σ hs => hreplaced.consistent c.parseLast_payload hs, fun σ r => ?_⟩
    -- the payload is stored for its request, and other requests keep theirs
    rw [hreplaced.storedOutcome_eq c.parseLast_payload σ]
    by_cases hσ : σ = c.scope
    · subst σ
      by_cases hr : r = c.requestId
      · subst r
        have hoffer : old.all (shouldReplaceOutcome · c.payload) = true := happlied.symm
        simp [hold, offer, hoffer]
      · simp [hr]
    · simp [hσ]
  | false =>
    rw [if_neg (by simp)] at heffect
    -- refused: nothing is written
    rw [heffect]
    refine ⟨fun σ hs => hs, fun σ r => ?_⟩
    split
    · next hat =>
      obtain ⟨rfl, rfl⟩ := hat
      have hrefuse : ¬old.all (shouldReplaceOutcome · c.payload) = true := by
        rw [show old.all (shouldReplaceOutcome · c.payload) = false from happlied.symm]
        simp
      rw [hold, offer, if_neg hrefuse]
    · rfl

end Call

namespace Runs

variable {s s' : Store} {calls : List Call}

theorem invariant (h : Runs s calls s') :
    (∀ σ, Consistent s σ → Consistent s' σ) ∧
      ∀ σ r, storedOutcome s' σ r =
        ((calls.filter fun c => c.scope = σ ∧ c.requestId = r).map Call.payload).foldl
          (offer shouldReplaceOutcome) (storedOutcome s σ r) := by
  induction h with
  | nil => exact ⟨fun σ hs => hs, fun σ r => rfl⟩
  | @step calls s₁ c _ hclock hlasts hok ih =>
    have hlookup := s₁.lookup_advance hclock hlasts
    obtain ⟨hkeep, hstored⟩ := Call.finalize_step hok
    refine ⟨fun σ hs => hkeep σ ((ih.1 σ hs).of_lookup fun f _ => hlookup _), fun σ r => ?_⟩
    rw [hstored σ r, storedOutcome_congr (hlookup _), ih.2 σ r, List.filter_append, List.map_append,
      List.foldl_append]
    by_cases hat : c.scope = σ ∧ c.requestId = r
    · rw [if_pos ⟨hat.1.symm, hat.2.symm⟩]
      simp [hat]
    · rw [if_neg fun he => hat ⟨he.1.symm, he.2.symm⟩]
      simp [hat]

end Runs

end Rheonic.ProtectActionStore
