import Rheonic.ProtectActionStore

namespace Rheonic.ProtectActionStore
open CommandProgram Redis Keys PyText

/-- The counter of a decision. -/
def decisionField (decision : String) : Option OutcomeField :=
  if decision = "allow" then some .allow
  else if decision = "clamp" then some .clamp
  else if decision = "block" then some .block
  else none

def IsCounter (f : OutcomeField) : Prop :=
  f = .allow ∨ f = .clamp ∨ f = .block ∨ f = .timeout

def CountsIn (f : OutcomeField) (p : OutcomePayload) : Prop :=
  decisionField p.decision = some f ∨ f = .timeout ∧ p.source = sourceTimeoutFallback

instance (f : OutcomeField) : DecidablePred (CountsIn f) :=
  fun _ => inferInstanceAs (Decidable (_ ∨ _ ∧ _))

theorem counterKey_eq (σ : Scope) (decision : String) :
    counterKeyForDecision σ.id decision = (decisionField decision).map σ.key := by
  unfold counterKeyForDecision decisionField
  split_ifs <;> rfl

theorem decisionField_isCounter {decision : String} {f : OutcomeField}
    (h : decisionField decision = some f) : IsCounter f ∧ f ≠ .timeout := by
  unfold decisionField at h
  split_ifs at h <;> cases h <;> simp [IsCounter]

/-- A step that changes, in the scope `σ` and nowhere else, the counters by `δ` and the timeout
events by `ζ`, and leaves every stored outcome. -/
structure Adjusts (s s' : Store) (σ : Scope) (δ : OutcomeField → ℤ → ℤ)
    (ζ : SortedSet String → SortedSet String) : Prop where
  counter : ∀ τ f, IsCounter f → counterOf (s'.lookup (τ.key f)) =
    (counterOf (s.lookup (τ.key f))).map (if τ = σ then δ f else id)
  events : ∀ τ : Scope, zsetOf (s'.lookup (τ.key .timeoutEvents)) =
    (zsetOf (s.lookup (τ.key .timeoutEvents))).map (if τ = σ then ζ else id)
  outcome : ∀ (τ : Scope) r, s'.lookup (τ.key (.outcome r)) = s.lookup (τ.key (.outcome r))

namespace Adjusts

variable {s s' s'' : Store} {σ : Scope} {δ δ' : OutcomeField → ℤ → ℤ}
  {ζ ζ' : SortedSet String → SortedSet String}

theorem refl (s : Store) (σ : Scope) : Adjusts s s σ (fun _ n => n) id where
  counter τ f _ := by split <;> simp
  events τ := by split <;> simp
  outcome _ _ := rfl

theorem trans (h : Adjusts s s' σ δ ζ) (h' : Adjusts s' s'' σ δ' ζ') :
    Adjusts s s'' σ (fun f n => δ' f (δ f n)) (fun z => ζ' (ζ z)) where
  counter τ f hf := by
    rw [h'.counter τ f hf, h.counter τ f hf]
    split <;> simp [Function.comp_def]
  events τ := by
    rw [h'.events τ, h.events τ]
    split <;> simp [Function.comp_def]
  outcome τ r := (h'.outcome τ r).trans (h.outcome τ r)

theorem congr (h : Adjusts s s' σ δ ζ) (hδ : ∀ f, IsCounter f → δ f = δ' f) (hζ : ζ = ζ') :
    Adjusts s s' σ δ' ζ' where
  counter τ f hf := by rw [h.counter τ f hf, hδ f hf]
  events τ := by rw [h.events τ, hζ]
  outcome := h.outcome

theorem of_counter {f₀ : OutcomeField} {c c' : ℤ} (hf₀ : IsCounter f₀)
    (hc : counterOf (s.lookup (σ.key f₀)) = some c)
    (h : s'.lookup = Function.update s.lookup (σ.key f₀) (some (number c'))) :
    Adjusts s s' σ (fun f n => if f = f₀ then n + (c' - c) else n) id where
  counter τ f _ := by
    rw [h, Function.update_apply]
    by_cases hτ : τ = σ
    · subst τ
      by_cases hf : f = f₀
      · subst f
        simp [hc]
      · simp [hf]
    · simp [hτ]
  events τ := by
    have hne : OutcomeField.timeoutEvents ≠ f₀ := by rintro rfl; simp [IsCounter] at hf₀
    rw [h, Function.update_apply]
    simp [hne]
  outcome τ r := by
    have hne : OutcomeField.outcome r ≠ f₀ := by rintro rfl; simp [IsCounter] at hf₀
    rw [h, Function.update_apply]
    simp [hne]

theorem of_events {z z' : SortedSet String} {v : Option Value}
    (hz : zsetOf (s.lookup (σ.key .timeoutEvents)) = some z) (hv : zsetOf v = some z')
    (h : s'.lookup = Function.update s.lookup (σ.key .timeoutEvents) v) (hζ : ζ z = z') :
    Adjusts s s' σ (fun _ n => n) ζ where
  counter τ f hf := by
    have hne : f ≠ .timeoutEvents := by rintro rfl; simp [IsCounter] at hf
    rw [h, Function.update_apply]
    simp [hne]
    split <;> simp
  events τ := by
    rw [h, Function.update_apply]
    by_cases hτ : τ = σ
    · subst τ
      simp [hz, hv, hζ]
    · simp [hτ]
  outcome τ r := by
    rw [h, Function.update_apply]
    simp

end Adjusts

section Programs

variable {s s' : Store} {σ : Scope}

theorem readInt_ok {key : String} {n : ℤ} (h : run (readInt key) s = (.ok n, s')) :
    s' = s ∧ ∀ c, counterOf (s.lookup key) = some c → n = c := by
  obtain ⟨raw, s₁, hget, hpure⟩ := run_bind_ok h
  obtain ⟨rfl, hraw⟩ := get_ok hget
  rw [run_pure] at hpure
  obtain ⟨hn, rfl⟩ := Prod.mk.inj hpure
  refine ⟨rfl, fun c hc => ?_⟩
  rw [hraw] at hc
  rw [← Except.ok.inj hn]
  cases raw with
  | none => simpa [intOfText] using hc
  | some t =>
    cases t with
    | json p => simp [counterOf] at hc
    | str x =>
      have hx : canonicalInt x = some c := hc
      simp only [canonicalInt, Option.filter_eq_some_iff] at hx
      simp [intOfText, hx.1]

theorem readInt_eq {key : String} {n : ℤ} (h : counterOf (s.lookup key) = some n) :
    run (readInt key) s = (.ok n, s) := by
  have hget : ∃ t, run (get key) s = (.ok t, s) := by
    rw [run, Redis.get, Program.run_perform, exec]
    cases hv : s.lookup key with
    | none => exact ⟨none, rfl⟩
    | some v =>
      cases v with
      | text t => exact ⟨some t, rfl⟩
      | zset z => simp [hv, counterOf] at h
  obtain ⟨t, ht⟩ := hget
  have hread : run (readInt key) s = (.ok (intOfText t), s) := Program.run_bind_eq exec ht
  rw [hread, (readInt_ok hread).2 n h]

theorem incrementWithTtl_adjusts {f : OutcomeField} (hf : IsCounter f)
    (h : run (incrementWithTtl (σ.key f)) s = (.ok (), s')) :
    Adjusts s s' σ (fun g n => if g = f then n + 1 else n) id := by
  obtain ⟨value, s₁, hincr, hrest⟩ := run_bind_ok h
  obtain ⟨c, hc, -, hlookup⟩ := incrby_ok hincr
  have hs' : s'.lookup = s₁.lookup := by
    split at hrest
    · obtain ⟨b, s₂, hexpire, hpure⟩ := run_bind_ok hrest
      rw [run_pure] at hpure
      obtain rfl := (Prod.mk.inj hpure).2
      exact expire_ok hexpire (by decide)
    · rw [run_pure] at hrest
      rw [(Prod.mk.inj hrest).2]
  exact (Adjusts.of_counter hf hc (hs'.trans hlookup)).congr (fun g _ => by simp) rfl

theorem decrement_adjusts {f : OutcomeField} (hf : IsCounter f) {current n : ℤ}
    (hcurrent : ∀ c, counterOf (s.lookup (σ.key f)) = some c → current = c) (hpos : 0 < current)
    (h : run (incrby (σ.key f) (-1)) s = (.ok n, s')) :
    Adjusts s s' σ (fun g n => if g = f ∧ 0 < n then n - 1 else n) id := by
  obtain ⟨c, hc, -, hlookup⟩ := incrby_ok h
  have hcpos : 0 < c := hcurrent c hc ▸ hpos
  have hadj := Adjusts.of_counter hf hc hlookup
  refine ⟨fun τ g hg => ?_, hadj.events, hadj.outcome⟩
  rw [hadj.counter τ g hg]
  by_cases hτ : τ = σ
  · subst τ
    by_cases hgf : g = f
    · subst g
      simp only [hc, if_true, Option.map_some, hcpos, and_self]
      congr 1
      omega
    · simp [hgf]
  · simp [hτ]

theorem skip_adjusts {f : OutcomeField} {current : ℤ}
    (hcurrent : ∀ c, counterOf (s.lookup (σ.key f)) = some c → current = c)
    (hpos : current ≤ 0) :
    Adjusts s s σ (fun g n => if g = f ∧ 0 < n then n - 1 else n) id := by
  refine ⟨fun τ g _ => ?_, (Adjusts.refl s σ).events, (Adjusts.refl s σ).outcome⟩
  by_cases hτ : τ = σ
  · subst τ
    by_cases hgf : g = f
    · subst g
      cases hc : counterOf (s.lookup (σ.key f)) with
      | none => rfl
      | some c =>
        have hcneg : ¬0 < c := by have := hcurrent c hc; omega
        simp [hcneg]
    · simp [hgf]
  · simp [hτ]

theorem decrementCounterForDecision_adjusts {decision : String}
    (h : run (decrementCounterForDecision σ.id decision) s = (.ok (), s')) :
    Adjusts s s' σ (fun f n => if decisionField decision = some f ∧ 0 < n then n - 1 else n)
      id := by
  unfold decrementCounterForDecision at h
  rw [counterKey_eq] at h
  cases hd : decisionField decision with
  | none =>
    rw [hd] at h
    obtain rfl := (Prod.mk.inj h).2
    simpa using Adjusts.refl s σ
  | some f =>
    have hf := (decisionField_isCounter hd).1
    rw [hd] at h
    obtain ⟨current, s₁, hread, hrest⟩ := run_bind_ok h
    obtain ⟨rfl, hcurrent⟩ := readInt_ok hread
    have hadj : Adjusts s₁ s' σ (fun g n => if g = f ∧ 0 < n then n - 1 else n) id := by
      split at hrest
      · obtain rfl := (Prod.mk.inj hrest).2
        exact skip_adjusts hcurrent ‹_›
      · obtain ⟨n, s₂, hincrby, hpure⟩ := run_bind_ok hrest
        obtain rfl := (Prod.mk.inj hpure).2
        exact decrement_adjusts hf hcurrent (by omega) hincrby
    exact hadj.congr (fun g _ => by funext n; simp [eq_comm]) rfl

theorem recordTimeoutEvent_adjusts {requestId : String} {ts : ℕ}
    (h : run (recordTimeoutEvent σ.id requestId ts) s = (.ok (), s')) :
    Adjusts s s' σ (fun _ n => n) (·.add requestId ts) := by
  obtain ⟨n, s₁, hzadd, hrest⟩ := run_bind_ok h
  obtain ⟨b, s₂, hexpire, hpure⟩ := run_bind_ok hrest
  obtain rfl := (Prod.mk.inj hpure).2
  obtain ⟨z, hz, hlookup⟩ := zadd_ok hzadd
  exact Adjusts.of_events hz rfl ((expire_ok hexpire (by decide)).trans hlookup) rfl

theorem timeoutKey_eq (σ : Scope) : timeoutKey σ.id = σ.key .timeout := rfl

theorem decrementTimeoutCounter_adjusts
    (h : run (decrementTimeoutCounter σ.id) s = (.ok (), s')) :
    Adjusts s s' σ (fun f n => if f = .timeout ∧ 0 < n then n - 1 else n) id := by
  obtain ⟨current, s₁, hread, hrest⟩ := run_bind_ok h
  obtain ⟨rfl, hcurrent⟩ := readInt_ok hread
  rw [timeoutKey_eq] at hcurrent
  split at hrest
  · next hpos =>
    obtain ⟨n, s₂, hincrby, hpure⟩ := run_bind_ok hrest
    obtain rfl := (Prod.mk.inj hpure).2
    exact decrement_adjusts (by simp [IsCounter]) hcurrent hpos hincrby
  · obtain rfl := (Prod.mk.inj hrest).2
    exact skip_adjusts hcurrent (by omega)

theorem removeTimeoutEvent_adjusts {requestId : String}
    (h : run (removeTimeoutEvent σ.id requestId) s = (.ok (), s')) :
    Adjusts s s' σ (fun _ n => n) (·.remove requestId) := by
  obtain ⟨n, s₁, hzrem, hpure⟩ := run_bind_ok h
  obtain rfl := (Prod.mk.inj hpure).2
  obtain ⟨z, hz, hlookup⟩ := zrem_ok hzrem
  exact Adjusts.of_events hz (zsetOf_ofZset _) hlookup rfl

theorem truthy_some {requestId : String} (h : requestId ≠ "") :
    truthy (some requestId) = some requestId := by simp [truthy, Option.filter_some, h]

theorem whenRequestId_some {requestId : String} (h : requestId ≠ "") (body : String → Prog Unit) :
    whenRequestId (some requestId) body = body requestId := by
  rw [whenRequestId, truthy_some h]

theorem applyOutcomeCounters_adjusts {p : OutcomePayload} {requestId : String}
    (hid : requestId ≠ "")
    (h : run (applyOutcomeCounters σ.id p (some requestId)) s = (.ok (), s')) :
    Adjusts s s' σ (fun f n => if CountsIn f p then n + 1 else n)
      (fun z => if p.source = sourceTimeoutFallback then z.add requestId p.ts else z) := by
  obtain ⟨_, s₁, hdecision, hsource⟩ := run_bind_ok h
  have hadj : Adjusts s s₁ σ (fun f n => if decisionField p.decision = some f then n + 1 else n)
      id := by
    rw [incrementCounterForDecision, counterKey_eq] at hdecision
    cases hd : decisionField p.decision with
    | none =>
      rw [hd] at hdecision
      obtain rfl := (Prod.mk.inj hdecision).2
      simpa using Adjusts.refl s σ
    | some f =>
      rw [hd] at hdecision
      exact (incrementWithTtl_adjusts (decisionField_isCounter hd).1 hdecision).congr
        (fun g _ => by funext n; simp [eq_comm]) rfl
  split at hsource
  · next hp =>
    obtain ⟨_, s₂, htimeout, hevent⟩ := run_bind_ok hsource
    rw [timeoutKey_eq] at htimeout
    rw [whenRequestId_some hid] at hevent
    refine ((hadj.trans (incrementWithTtl_adjusts (by simp [IsCounter]) htimeout)).trans
      (recordTimeoutEvent_adjusts hevent)).congr (fun f _ => ?_) (by funext z; simp [hp])
    funext n
    by_cases hf : decisionField p.decision = some f
    · simp [CountsIn, hf, (decisionField_isCounter hf).2]
    · simp [CountsIn, hf, hp]
  · next hp =>
    obtain rfl := (Prod.mk.inj hsource).2
    refine hadj.congr (fun f _ => ?_) (by funext z; simp [hp])
    funext n
    simp [CountsIn, hp]

theorem removeOutcomeCounters_adjusts {p : OutcomePayload} {requestId : String}
    (hid : requestId ≠ "")
    (h : run (removeOutcomeCounters σ.id p (some requestId)) s = (.ok (), s')) :
    Adjusts s s' σ (fun f n => if CountsIn f p ∧ 0 < n then n - 1 else n)
      (fun z => if p.source = sourceTimeoutFallback then z.remove requestId else z) := by
  obtain ⟨_, s₁, hdecision, hsource⟩ := run_bind_ok h
  have hadj := decrementCounterForDecision_adjusts hdecision
  split at hsource
  · next hp =>
    obtain ⟨_, s₂, htimeout, hevent⟩ := run_bind_ok hsource
    rw [whenRequestId_some hid] at hevent
    refine ((hadj.trans (decrementTimeoutCounter_adjusts htimeout)).trans
      (removeTimeoutEvent_adjusts hevent)).congr (fun f _ => ?_) (by funext z; simp [hp])
    funext n
    by_cases hf : decisionField p.decision = some f
    · simp [CountsIn, hf, (decisionField_isCounter hf).2]
    · simp [CountsIn, hf, hp]
  · next hp =>
    obtain rfl := (Prod.mk.inj hsource).2
    refine hadj.congr (fun f _ => ?_) (by funext z; simp [hp])
    funext n
    simp [CountsIn, hp]

/-- What remains of a counter and of the timeout events when `old` gives back its units. -/
def givenBack (old : Option OutcomePayload) (f : OutcomeField) (n : ℤ) : ℤ :=
  if (old.any fun p => CountsIn f p) = true ∧ 0 < n then n - 1 else n

def eventsGivenBack (old : Option OutcomePayload) (requestId : String) (z : SortedSet String) :
    SortedSet String :=
  if (old.any fun p => p.source = sourceTimeoutFallback) = true then z.remove requestId else z

/-- The store after `p` has taken the place of `old` as the outcome of `requestId`. -/
structure Replaced (s s' : Store) (σ : Scope) (requestId : String) (old : Option OutcomePayload)
    (p : OutcomePayload) : Prop where
  counter : ∀ τ f, IsCounter f → counterOf (s'.lookup (τ.key f)) =
    (counterOf (s.lookup (τ.key f))).map (if τ = σ then fun n =>
      if CountsIn f p then givenBack old f n + 1 else givenBack old f n else id)
  events : ∀ τ : Scope, zsetOf (s'.lookup (τ.key .timeoutEvents)) =
    (zsetOf (s.lookup (τ.key .timeoutEvents))).map (if τ = σ then fun z =>
      if p.source = sourceTimeoutFallback then (eventsGivenBack old requestId z).add requestId p.ts
      else eventsGivenBack old requestId z else id)
  outcome : ∀ (τ : Scope) r, s'.lookup (τ.key (.outcome r)) =
    if τ = σ ∧ r = requestId then some (.text (.json p)) else s.lookup (τ.key (.outcome r))
  last : s'.lookup (σ.key .last) = some (.text (.json p))

theorem Adjusts.of_record {f₀ : OutcomeField} {v : Option Value} (hf₀ : ¬IsCounter f₀)
    (hevents : f₀ ≠ .timeoutEvents)
    (h : s'.lookup = Function.update s.lookup (σ.key f₀) v) (τ : Scope) :
    (∀ f, IsCounter f → s'.lookup (τ.key f) = s.lookup (τ.key f)) ∧
      s'.lookup (τ.key .timeoutEvents) = s.lookup (τ.key .timeoutEvents) := by
  constructor
  · intro f hf
    have hne : f ≠ f₀ := fun he => hf₀ (he ▸ hf)
    rw [h, Function.update_apply]
    simp [hne]
  · rw [h, Function.update_apply]
    simp [Ne.symm hevents]

theorem replaceOutcome_replaced {p : OutcomePayload} {requestId : String} (hid : requestId ≠ "")
    (h : run (replaceOutcome σ.id p requestId) s = (.ok (), s')) :
    Replaced s s' σ requestId none p := by
  obtain ⟨_, s₁, hset, hpublish⟩ := run_bind_ok h
  obtain ⟨_, s₂, hcounters, hlast⟩ := run_bind_ok hpublish
  have hadj := applyOutcomeCounters_adjusts hid hcounters
  have h₁ : s₁.lookup = Function.update s.lookup (σ.key (.outcome requestId)) _ := set_ok hset
  have h₂ : s'.lookup = Function.update s₂.lookup (σ.key .last) _ := set_ok hlast
  have hrecord := Adjusts.of_record (by simp [IsCounter]) (by simp) h₁
  have hrecord' := Adjusts.of_record (by simp [IsCounter]) (by simp) h₂
  refine ⟨fun τ f hf => ?_, fun τ => ?_, fun τ r => ?_, ?_⟩
  · rw [(hrecord' τ).1 f hf, hadj.counter τ f hf, (hrecord τ).1 f hf]
    simp [givenBack]
  · rw [(hrecord' τ).2, hadj.events τ, (hrecord τ).2]
    simp [eventsGivenBack]
  · rw [h₂, Function.update_apply, if_neg (by simp), hadj.outcome τ r, h₁, Function.update_apply]
    simp
  · rw [h₂, Function.update_self]

/-- Taking back the units of `old` first. -/
theorem Replaced.after_removal {s₁ : Store} {old p : OutcomePayload} {requestId : String}
    (h : Replaced s₁ s' σ requestId none p)
    (hold : Adjusts s s₁ σ (fun f n => if CountsIn f old ∧ 0 < n then n - 1 else n)
      (fun z => if old.source = sourceTimeoutFallback then z.remove requestId else z)) :
    Replaced s s' σ requestId (some old) p := by
  refine ⟨fun τ f hf => ?_, fun τ => ?_, fun τ r => ?_, h.last⟩
  · rw [h.counter τ f hf, hold.counter τ f hf, Option.map_map]
    congr 1
    split
    · funext n
      simp [givenBack]
    · rfl
  · rw [h.events τ, hold.events τ, Option.map_map]
    congr 1
    split
    · funext z
      simp [eventsGivenBack]
    · rfl
  · rw [h.outcome τ r, hold.outcome τ r]

theorem finalizeBody_ok {p : OutcomePayload} {requestId : String} {old : Option OutcomePayload}
    {applied : Bool} (hid : requestId ≠ "")
    (h : run (finalizeBody σ.id p (some requestId)) s = (.ok (applied, old), s')) :
    ∃ raw, s.lookup (σ.key (.outcome requestId)) = raw.map .text ∧ parseLast raw = old ∧
      applied = old.all (shouldReplaceOutcome · p) ∧
      if applied then Replaced s s' σ requestId old p else s' = s := by
  rw [finalizeBody, truthy_some hid] at h
  obtain ⟨raw, s₁, hget, hrest⟩ := run_bind_ok h
  obtain ⟨rfl, hraw⟩ := get_ok hget
  refine ⟨raw, hraw, ?_⟩
  cases hparse : parseLast raw with
  | none =>
    rw [hparse] at hrest
    obtain ⟨_, s₂, hreplace, hpure⟩ := run_bind_ok hrest
    obtain ⟨hanswer, rfl⟩ := Prod.mk.inj hpure
    obtain ⟨rfl, rfl⟩ := Prod.mk.inj (Except.ok.inj hanswer)
    exact ⟨rfl, rfl, replaceOutcome_replaced hid hreplace⟩
  | some existing =>
    rw [hparse, settleOutcome] at hrest
    split at hrest
    · next hreplaces =>
      obtain ⟨_, s₂, hremove, hrest⟩ := run_bind_ok hrest
      obtain ⟨_, s₃, hreplace, hpure⟩ := run_bind_ok hrest
      obtain ⟨hanswer, rfl⟩ := Prod.mk.inj hpure
      obtain ⟨rfl, rfl⟩ := Prod.mk.inj (Except.ok.inj hanswer)
      refine ⟨rfl, hreplaces.symm, ?_⟩
      exact (replaceOutcome_replaced hid hreplace).after_removal
        (removeOutcomeCounters_adjusts hid hremove)
    · next hrefuses =>
      obtain ⟨hanswer, rfl⟩ := Prod.mk.inj hrest
      obtain ⟨rfl, rfl⟩ := Prod.mk.inj (Except.ok.inj hanswer)
      exact ⟨rfl, by simpa using hrefuses, rfl⟩

/-- An answer other than `(false, none)` is the body's own. -/
theorem finalizeOutcome_ok {decision reason source requestId : String} {ts : ℕ}
    {answer : Bool × Option OutcomePayload}
    (h : run (finalizeOutcome σ.id decision reason source (some requestId) ts) s =
      (.ok answer, s')) (hok : answer ≠ (false, none)) :
    run (finalizeBody σ.id ⟨decision, reason, source, ts⟩ (some requestId)) s =
      (.ok answer, s') := by
  rw [run, finalizeOutcome, Program.run_tryCatch] at h
  rcases hrun : Program.run exec
    (finalizeBody σ.id ⟨decision, reason, source, ts⟩ (some requestId)) s with ⟨_ | a, s₁⟩
  · rw [hrun] at h
    exact absurd (Except.ok.inj (Prod.mk.inj h).1).symm hok
  · rw [hrun] at h
    exact hrun.trans h

end Programs

end Rheonic.ProtectActionStore
