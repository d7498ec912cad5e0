import Rheonic.OutcomeLedger

namespace Rheonic.ProtectActionStore
open CommandProgram Redis Keys PyText

/-- The commands that finalizing `p` for `r` may issue. -/
def Footprint (σ : Scope) (r : String) (p : OutcomePayload) : Cmd → Prop
  | .get k => k = σ.key (.outcome r) ∨ ∃ f, IsCounter f ∧ k = σ.key f
  | .set k v ttl => (k = σ.key (.outcome r) ∨ k = σ.key .last) ∧ v = .json p ∧ 0 < ttl
  | .incrby k n => (∃ f, IsCounter f ∧ k = σ.key f) ∧ (n = 1 ∨ n = -1)
  | .expire k ttl => 0 < ttl ∧ ∃ f, f ≠ .last ∧ k = σ.key f
  | .zadd k _ _ => k = σ.key .timeoutEvents
  | .zrem k _ => k = σ.key .timeoutEvents
  | _ => False

/-- The commands that taking back an outcome's units may issue. -/
def Removal (σ : Scope) : Cmd → Prop
  | .get k => ∃ f, IsCounter f ∧ k = σ.key f
  | .incrby k n => (∃ f, IsCounter f ∧ k = σ.key f) ∧ n = -1
  | .zrem k _ => k = σ.key .timeoutEvents
  | _ => False

theorem Removal.footprint {σ : Scope} (r : String) (p : OutcomePayload) {c : Cmd}
    (h : Removal σ c) : Footprint σ r p c := by
  cases c with
  | get k => exact .inr h
  | incrby k n => exact ⟨h.1, .inr h.2⟩
  | zrem k member => exact h
  | _ => exact absurd h id

/-- What a command may take from the room a counter has left. -/
def countCost : Cmd → ℕ
  | .incrby _ _ => 1
  | _ => 0

section Programs

variable {σ : Scope} {r : String} {p : OutcomePayload}

theorem readInt_within {f : OutcomeField} (hf : IsCounter f) :
    Program.Within (Removal σ) countCost 0 (readInt (σ.key f)) :=
  .bind 0 0 (.perform ⟨f, hf, rfl⟩ le_rfl) fun _ => .pure _

theorem takeOne_within {f : OutcomeField} (hf : IsCounter f) :
    Program.Within (Removal σ) countCost 1 (incrby (σ.key f) (-1) >>= fun _ => pure ()) :=
  .bind 1 0 (.perform ⟨⟨f, hf, rfl⟩, rfl⟩ le_rfl) fun _ => .pure _

theorem expire_within {f : OutcomeField} (hf : f ≠ .last) :
    Program.Within (Footprint σ r p) countCost 0
      (expire (σ.key f) protectActionCounterTtlSeconds) :=
  .perform ⟨by decide, f, hf, rfl⟩ le_rfl

theorem incrementWithTtl_within {f : OutcomeField} (hf : IsCounter f) :
    Program.Within (Footprint σ r p) countCost 1 (incrementWithTtl (σ.key f)) := by
  have hincr : Footprint σ r p (.incrby (σ.key f) 1) := ⟨⟨f, hf, rfl⟩, .inl rfl⟩
  apply Program.Within.bind 1 0 (.perform hincr le_rfl)
  intro value
  apply Program.Within.ite
  · intro _
    have hlast : f ≠ .last := by
      rintro rfl
      simp [IsCounter] at hf
    exact .bind 0 0 (expire_within hlast) fun _ => .pure _
  · intro _
    exact .pure _

theorem decrementCounterForDecision_within (decision : String) :
    Program.Within (Removal σ) countCost 1 (decrementCounterForDecision σ.id decision) := by
  unfold decrementCounterForDecision
  rw [counterKey_eq]
  cases hd : decisionField decision with
  | none => exact .pure _
  | some f =>
    have hf := (decisionField_isCounter hd).1
    apply Program.Within.bind 0 1 (readInt_within hf)
    intro current
    apply Program.Within.ite
    · intro _
      exact .pure _
    · intro _
      exact takeOne_within hf

theorem incrementCounterForDecision_within (decision : String) :
    Program.Within (Footprint σ r p) countCost 1
      (incrementCounterForDecision σ.id decision) := by
  unfold incrementCounterForDecision
  rw [counterKey_eq]
  cases hd : decisionField decision with
  | none => exact .pure _
  | some f => exact incrementWithTtl_within (decisionField_isCounter hd).1

theorem recordTimeoutEvent_within (requestId : String) (ts : ℕ) :
    Program.Within (Footprint σ r p) countCost 0 (recordTimeoutEvent σ.id requestId ts) := by
  have hzadd : Footprint σ r p (.zadd (timeoutEventsKey σ.id) requestId ts) := rfl
  apply Program.Within.bind 0 0 (.perform hzadd le_rfl)
  intro _
  exact .bind 0 0 (expire_within (f := .timeoutEvents) (by simp)) fun _ => .pure _

theorem decrementTimeoutCounter_within :
    Program.Within (Removal σ) countCost 1 (decrementTimeoutCounter σ.id) := by
  have hf : IsCounter .timeout := by simp [IsCounter]
  apply Program.Within.bind 0 1 (readInt_within hf)
  intro current
  apply Program.Within.ite
  · intro _
    exact takeOne_within hf
  · intro _
    exact .pure _

theorem removeTimeoutEvent_within (requestId : String) :
    Program.Within (Removal σ) countCost 0 (removeTimeoutEvent σ.id requestId) := by
  have hzrem : Removal σ (.zrem (timeoutEventsKey σ.id) requestId) := rfl
  exact .bind 0 0 (.perform hzrem le_rfl) fun _ => .pure _

theorem applyOutcomeCounters_within (q : OutcomePayload) (hr : r ≠ "") :
    Program.Within (Footprint σ r p) countCost 2
      (applyOutcomeCounters σ.id q (some r)) := by
  apply Program.Within.bind 1 1 (incrementCounterForDecision_within q.decision)
  intro _
  apply Program.Within.ite
  · intro _
    apply Program.Within.bind 1 0 (incrementWithTtl_within (f := .timeout) (by simp [IsCounter]))
    intro _
    rw [whenRequestId_some hr]
    exact recordTimeoutEvent_within r q.ts
  · intro _
    exact .pure _

theorem removeOutcomeCounters_within (q : OutcomePayload) (hr : r ≠ "") :
    Program.Within (Removal σ) countCost 2 (removeOutcomeCounters σ.id q (some r)) := by
  apply Program.Within.bind 1 1 (decrementCounterForDecision_within q.decision)
  intro _
  apply Program.Within.ite
  · intro _
    apply Program.Within.bind 1 0 decrementTimeoutCounter_within
    intro _
    rw [whenRequestId_some hr]
    exact removeTimeoutEvent_within r
  · intro _
    exact .pure _

theorem set_within {k : String} (hk : k = σ.key (.outcome r) ∨ k = σ.key .last) :
    Program.Within (Footprint σ r p) countCost 0
      (set k (.json p) protectActionCounterTtlSeconds) :=
  .perform ⟨hk, rfl, by decide⟩ le_rfl

theorem replaceOutcome_within (hr : r ≠ "") :
    Program.Within (Footprint σ r p) countCost 2 (replaceOutcome σ.id p r) := by
  apply Program.Within.bind 0 2 (set_within (.inl rfl))
  intro _
  apply Program.Within.bind 2 0 (applyOutcomeCounters_within p hr)
  intro _
  exact set_within (.inr rfl)

theorem settleOutcome_within (old : Option OutcomePayload) (hr : r ≠ "") :
    Program.Within (Footprint σ r p) countCost 4 (settleOutcome σ.id p r old) := by
  cases old with
  | none => exact .bind 4 0 ((replaceOutcome_within hr).mono (by omega)) fun _ => .pure _
  | some existing =>
    unfold settleOutcome
    apply Program.Within.ite
    · intro _
      apply Program.Within.bind 2 2
        ((removeOutcomeCounters_within existing hr).imp fun c hc => hc.footprint r p)
      intro _
      exact .bind 2 0 (replaceOutcome_within hr) fun _ => .pure _
    · intro _
      exact .pure _

theorem finalizeBody_within (hr : r ≠ "") :
    Program.Within (Footprint σ r p) countCost 4 (finalizeBody σ.id p (some r)) := by
  unfold finalizeBody
  rw [truthy_some hr]
  exact .bind 0 4 (.perform (.inl rfl) le_rfl) fun _ => settleOutcome_within _ hr

end Programs

/-- The keys of a scope hold the kinds of values they are meant for, and every counter is `n` away
from the ends of its range. -/
structure Room (σ : Scope) (r : String) (n : ℕ) (s : Store) : Prop where
  counter : ∀ f, IsCounter f → ∃ v, counterOf (s.lookup (σ.key f)) = some v ∧
    -2 ^ 63 + (n : ℤ) ≤ v ∧ v + n < 2 ^ 63
  events : ∃ z, zsetOf (s.lookup (σ.key .timeoutEvents)) = some z
  text : ∃ raw, s.lookup (σ.key (.outcome r)) = Option.map .text raw

namespace Room

variable {σ : Scope} {r : String} {p : OutcomePayload} {n n' : ℕ} {s s' : Store}

theorem mono (h : Room σ r n s) (hn : n' ≤ n) : Room σ r n' s where
  counter f hf := by
    obtain ⟨v, hv, hlo, hhi⟩ := h.counter f hf
    exact ⟨v, hv, by omega, by omega⟩
  events := h.events
  text := h.text

theorem of_lookup (h : Room σ r n s)
    (hlookup : ∀ f, f ≠ .last → s'.lookup (σ.key f) = s.lookup (σ.key f)) : Room σ r n s' where
  counter f hf := by
    rw [hlookup f (by rintro rfl; simp [IsCounter] at hf)]
    exact h.counter f hf
  events := by
    rw [hlookup .timeoutEvents (by simp)]
    exact h.events
  text := by
    rw [hlookup (.outcome r) (by simp)]
    exact h.text

theorem get (h : Room σ r n s) {k : String}
    (hk : k = σ.key (.outcome r) ∨ ∃ f, IsCounter f ∧ k = σ.key f) :
    ∃ t, exec (.get k) s = (.ok t, s) := by
  rw [exec]
  rcases hk with rfl | ⟨f, hf, rfl⟩
  · obtain ⟨raw, hraw⟩ := h.text
    rw [hraw]
    cases raw with
    | none => exact ⟨none, rfl⟩
    | some t => exact ⟨some t, rfl⟩
  · obtain ⟨v, hv, -⟩ := h.counter f hf
    cases hval : s.lookup (σ.key f) with
    | none => exact ⟨none, rfl⟩
    | some val =>
      cases val with
      | text t => exact ⟨some t, rfl⟩
      | zset z => simp [hval, counterOf] at hv

theorem set (h : Room σ r n s) {k : String} {ttl : ℕ}
    (hk : k = σ.key (.outcome r) ∨ k = σ.key .last) (httl : 0 < ttl) :
    ∃ s', exec (.set k (.json p) ttl) s = (.ok (), s') ∧ Room σ r n s' := by
  have hexec : exec (.set k (.json p) ttl) s = (.ok (), s.put k (.text (.json p)) (ttl * 1000)) := by
    rw [exec, if_neg (by omega)]
  refine ⟨_, hexec, ?_⟩
  have hms : 0 < ttl * 1000 := by omega
  have hput := fun k' => s.lookup_put k k' (.text (.json p)) hms
  rcases hk with rfl | rfl
  · refine ⟨fun f hf => ?_, ?_, ?_⟩
    · rw [hput, if_neg (by rw [Scope.key_inj]; rintro ⟨-, rfl⟩; simp [IsCounter] at hf)]
      exact h.counter f hf
    · rw [hput, if_neg (by simp)]
      exact h.events
    · exact ⟨some (.json p), by rw [hput, if_pos rfl]; rfl⟩
  · apply h.of_lookup
    intro f hf
    rw [hput, if_neg (by simp [hf])]

theorem incrby (h : Room σ r (n + 1) s) {f : OutcomeField} (hf : IsCounter f) {d : ℤ}
    (hd : d = 1 ∨ d = -1) :
    ∃ v s', exec (.incrby (σ.key f) d) s = (.ok v, s') ∧ Room σ r n s' := by
  obtain ⟨v, hv, hlo, hhi⟩ := h.counter f hf
  have hrange : inRange (v + d) = true := by
    simp only [inRange, Bool.and_eq_true, decide_eq_true_eq]
    omega
  have hexec : exec (.incrby (σ.key f) d) s =
      (.ok (v + d), s.alter (σ.key f) (some (number (v + d)))) := by
    simp only [exec, hv, hrange, if_true, number]
  refine ⟨_, _, hexec, fun g hg => ?_, ?_, ?_⟩
  · rw [TtlStore.Store.lookup_alter]
    by_cases hgf : g = f
    · rw [if_pos (by rw [hgf]), counterOf_number]
      exact ⟨v + d, rfl, by omega, by omega⟩
    · rw [if_neg (by simp [hgf])]
      obtain ⟨u, hu, hulo, huhi⟩ := h.counter g hg
      exact ⟨u, hu, by omega, by omega⟩
  · rw [TtlStore.Store.lookup_alter, if_neg]
    · exact h.events
    · rw [Scope.key_inj]
      rintro ⟨-, rfl⟩
      simp [IsCounter] at hf
  · rw [TtlStore.Store.lookup_alter, if_neg]
    · exact h.text
    · rw [Scope.key_inj]
      rintro ⟨-, rfl⟩
      simp [IsCounter] at hf

theorem alter_events (h : Room σ r n s) (z : SortedSet String) {v : Option Value}
    (hv : zsetOf v = some z) : Room σ r n (s.alter (σ.key .timeoutEvents) v) := by
  refine ⟨fun f hf => ?_, ?_, ?_⟩
  · rw [TtlStore.Store.lookup_alter, if_neg]
    · exact h.counter f hf
    · rw [Scope.key_inj]
      rintro ⟨-, rfl⟩
      simp [IsCounter] at hf
  · rw [TtlStore.Store.lookup_alter, if_pos rfl]
    exact ⟨z, hv⟩
  · rw [TtlStore.Store.lookup_alter, if_neg (by simp)]
    exact h.text

theorem exec_ok (c : Cmd) (hc : Footprint σ r p c) (hcost : countCost c ≤ n)
    (h : Room σ r n s) :
    (∃ reply, (exec c s).1 = .ok reply) ∧ Room σ r (n - countCost c) (exec c s).2 := by
  cases c with
  | get k =>
    obtain ⟨t, ht⟩ := h.get hc
    rw [ht]
    exact ⟨⟨t, rfl⟩, h⟩
  | set k v ttl =>
    obtain ⟨hk, rfl, httl⟩ := hc
    obtain ⟨s', hset, hroom⟩ := h.set hk httl
    rw [hset]
    exact ⟨⟨(), rfl⟩, hroom⟩
  | incrby k d =>
    obtain ⟨⟨f, hf, rfl⟩, hd⟩ := hc
    -- one unit of the room is spent
    have hpos : n - 1 + 1 ≤ n := by
      have hone : 1 ≤ n := hcost
      omega
    obtain ⟨v, s', hincr, hroom⟩ := (h.mono hpos).incrby hf hd
    rw [hincr]
    exact ⟨⟨v, rfl⟩, hroom⟩
  | expire k ttl =>
    have hlookup : ∀ k', (exec (.expire k ttl) s).2.lookup k' = s.lookup k' := by
      intro k'
      have hpos : 0 < ttl := hc.1
      rw [exec, if_neg (by omega), TtlStore.Store.lookup_expireIn _ _ _ (by omega)]
    exact ⟨⟨_, rfl⟩, h.of_lookup fun f _ => hlookup _⟩
  | zadd k member score =>
    obtain rfl : k = _ := hc
    obtain ⟨z, hz⟩ := h.events
    simp only [exec, hz]
    exact ⟨⟨_, rfl⟩, h.alter_events (z.add member score) rfl⟩
  | zrem k member =>
    obtain rfl : k = _ := hc
    obtain ⟨z, hz⟩ := h.events
    simp only [exec, hz]
    exact ⟨⟨_, rfl⟩, h.alter_events (z.remove member) (zsetOf_ofZset _)⟩
  | _ => exact absurd hc id

end Room

theorem Call.finalize_succeeds {c : Call} {n : ℕ} {s : Store}
    (h : Room c.scope c.requestId (4 + n) s) :
    Succeeded (run c.finalize s).1 ∧ Room c.scope c.requestId n (run c.finalize s).2 := by
  obtain ⟨⟨applied, old⟩, s', hbody, hroom⟩ := (finalizeBody_within c.requestId_ne).run_ok exec
    (fun n cmd s hc hw hs => Room.exec_ok (p := c.payload) cmd hc hw hs)
    (fun i j s hij hs => hs.mono hij) h
  have hrun : run c.finalize s = (.ok (applied, old), s') := by
    have hcaught := Program.run_tryCatch exec (finalizeBody c.scope.id c.payload (some c.requestId))
      (fun _ => pure (false, none)) s
    rw [hbody] at hcaught
    exact hcaught
  obtain ⟨raw, -, -, happlied, -⟩ := finalizeBody_ok c.requestId_ne hbody
  rw [hrun]
  refine ⟨fun he => ?_, hroom⟩
  obtain ⟨rfl, rfl⟩ := Prod.mk.inj (Except.ok.inj he)
  simp at happlied

end Rheonic.ProtectActionStore
