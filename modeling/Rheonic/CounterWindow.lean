import Rheonic.FinalizeCounters
import Rheonic.ProtectMetrics
import Rheonic.Lib.FixedWindow

namespace Rheonic.CounterWindow
open CommandProgram Redis Keys ProtectActionStore FixedWindow

@[irreducible] def counterWindowMs : ℕ := protectActionCounterTtlSeconds * 1000

theorem counterWindowMs_pos : 0 < counterWindowMs := by
  unfold counterWindowMs
  exact Nat.mul_pos (by decide) (by decide)

/-- A finalized outcome; its time is that of the payload. -/
structure Finalization where
  requestId : String
  payload : OutcomePayload

/-- The times of the outcomes that have a unit in a counter. -/
def times (f : OutcomeField) (calls : List Finalization) : List ℕ :=
  (calls.filter fun c => CountsIn f c.payload).map fun c => c.payload.ts

/-- Finalize calls of one scope with fresh request ids, readings, the passing of time, and whatever
else leaves the scope's outcome keys alone. -/
inductive Runs (p : String) : List Finalization → Store → Prop
  | start (now : ℕ) : Runs p [] (.empty now)
  | advance {calls s} (hrun : Runs p calls s) (t : ℕ) (hclock : s.clock ≤ t) :
      Runs p calls (s.advance t)
  | finalize {calls s s'} (hrun : Runs p calls s) (decision reason source : String) {r : String}
      (hr : r ≠ "") (hfresh : ∀ c ∈ calls, c.requestId ≠ r) {old : Option OutcomePayload}
      (hfinalize : run (finalizeOutcome p decision reason source (some r) s.clock) s =
        (.ok (true, old), s')) :
      Runs p (calls ++ [⟨r, decision, reason, source, s.clock⟩]) s'
  | getHealth {calls s} (hrun : Runs p calls s) :
      Runs p calls (run (getHealth p s.clock) s).2
  | getMetrics {calls s} (hrun : Runs p calls s) :
      Runs p calls (run (getMetrics p s.clock) s).2
  | elsewhere {calls s s'} (hrun : Runs p calls s) (hclock : s'.clock = s.clock)
      (hfields : ∀ f : OutcomeField, s'.live (f.key p) = s.live (f.key p))
      (hlatency : (zsetOf (s'.lookup (latencyKey p))).isSome = true) : Runs p calls s'

/-- A counter key holds the last life of its count. -/
def Shows (W : ℕ) (s : Store) (k : String) (ts : List ℕ) : Prop :=
  s.live k = (shown W ts s.clock).map fun l => ⟨number l.2, some (l.1 + W)⟩

namespace Shows

variable {W : ℕ} {s s' : Store} {k : String} {ts : List ℕ}

theorem of_live (h : Shows W s k ts) (hclock : s'.clock = s.clock) (hlive : s'.live k = s.live k) :
    Shows W s' k ts := by
  unfold Shows
  rw [hlive, hclock]
  exact h

theorem advance (h : Shows W s k ts) {t : ℕ} (ht : s.clock ≤ t) : Shows W (s.advance t) k ts := by
  unfold Shows at h ⊢
  rw [TtlStore.Store.live_advance s ht, h, TtlStore.Store.advance_clock, shown_later ts ht]
  cases shown W ts s.clock with
  | none => rfl
  | some l =>
    by_cases hlive : t < l.1 + W <;>
      simp [Option.filter_some, TtlStore.Entry.alive, hlive]

theorem counterOf (h : Shows W s k ts) :
    counterOf (s.lookup k) = some (reading W ts s.clock : ℤ) := by
  unfold Shows at h
  unfold reading
  rw [TtlStore.Store.lookup, h]
  cases shown W ts s.clock with
  | none => rfl
  | some l => exact counterOf_number _

end Shows

section Increment

variable {s s' s₁ : Store} {k : String} {ts : List ℕ}

theorem incr_state {n : ℤ} (h : run (incr k) s = (.ok n, s')) :
    ∃ c, counterOf (s.lookup k) = some c ∧ n = c + 1 ∧ s' = s.alter k (some (number (c + 1))) := by
  rw [run, incr, Program.run_perform, exec] at h
  split at h
  · simp at h
  · next c hc =>
    split at h
    · obtain ⟨hn, hs'⟩ := Prod.mk.inj h
      exact ⟨c, hc, (Except.ok.inj hn).symm, hs'.symm⟩
    · simp at h

theorem Shows.incr {ttl : ℕ} (hpos : 0 < ttl) {n : ℤ} (h : Shows (ttl * 1000) s k ts)
    (hincr : run (Redis.incr k) s = (.ok n, s₁))
    (hfirst : n = 1 → s' = s₁.expireIn k (ttl * 1000)) (hlater : n ≠ 1 → s' = s₁) :
    Shows (ttl * 1000) s' k (ts ++ [s.clock]) := by
  obtain ⟨c, hc, hn, hs₁⟩ := incr_state hincr
  have hcount : c = (reading (ttl * 1000) ts s.clock : ℤ) :=
    Option.some.inj (hc.symm.trans h.counterOf)
  have hms : 0 < ttl * 1000 := by omega
  have hvalue : s₁.live k = some ⟨number (c + 1), (s.live k).bind TtlStore.Entry.deadline⟩ := by
    rw [hs₁, TtlStore.Store.live_alter, Option.map_some]
  generalize ttl * 1000 = W at *
  unfold Shows at h ⊢
  unfold reading at hcount
  cases hshown : shown W ts s.clock with
  | none =>
    rw [hshown] at h hcount
    have hone : n = 1 := by simpa [hcount] using hn
    have hclock : s₁.clock = s.clock := by rw [hs₁, TtlStore.Store.alter_clock]
    rw [hfirst hone, TtlStore.Store.live_expireIn _ _ hms, TtlStore.Store.expireIn_clock, hclock,
      shown_append hms, hshown, hvalue, hcount]
    rfl
  | some l =>
    rw [hshown] at h hcount
    have hpositive : 0 < l.2 := life_pos (Option.filter_eq_some_iff.mp hshown).1
    have hmany : n ≠ 1 := by
      have hl : c = l.2 := hcount
      omega
    have hclock : s₁.clock = s.clock := by rw [hs₁, TtlStore.Store.alter_clock]
    rw [hlater hmany, hclock, shown_append hms, hshown, hvalue, hcount, h]
    rfl

theorem incrementWithTtl_shows (hrun : run (incrementWithTtl k) s = (.ok (), s'))
    (h : Shows counterWindowMs s k ts) : Shows counterWindowMs s' k (ts ++ [s.clock]) := by
  unfold counterWindowMs at h ⊢
  obtain ⟨n, s₁, hincr, hrest⟩ := run_bind_ok hrun
  apply h.incr (by decide) hincr
  · intro hone
    rw [if_pos hone] at hrest
    obtain ⟨b, s₂, hexpire, hpure⟩ := run_bind_ok hrest
    have hrun_expire := run_expire (s := s₁) (k := k) (show 0 < protectActionCounterTtlSeconds by decide)
    rw [hexpire] at hrun_expire
    rw [← (Prod.mk.inj hpure).2, (Prod.mk.inj hrun_expire).2]
  · intro hmany
    rw [if_neg hmany] at hrest
    exact (Prod.mk.inj hrest).2.symm

end Increment

/-- A scope's timeout events are a sorted set of the given ones. -/
def EventsWithin (p : String) (s : Store) (S : Set (String × ℤ)) : Prop :=
  ∃ z, zsetOf (s.lookup (timeoutEventsKey p)) = some z ∧ ∀ e ∈ z.entries, e ∈ S

theorem EventsWithin.of_live {p : String} {s s' : Store} {S : Set (String × ℤ)}
    (h : EventsWithin p s S)
    (hlive : s'.live (timeoutEventsKey p) = s.live (timeoutEventsKey p)) :
    EventsWithin p s' S := by
  have hlookup : s'.lookup (timeoutEventsKey p) = s.lookup (timeoutEventsKey p) := by
    unfold TtlStore.Store.lookup
    rw [hlive]
  unfold EventsWithin
  rw [hlookup]
  exact h

theorem EventsWithin.mono {p : String} {s : Store} {S T : Set (String × ℤ)}
    (h : EventsWithin p s S) (hST : S ⊆ T) : EventsWithin p s T := by
  obtain ⟨z, hz, hmembers⟩ := h
  exact ⟨z, hz, fun e he => hST (hmembers e he)⟩

/-- A step that adds a unit at the present to the counters `P` of a scope, and to its timeout
events none but `E`. -/
structure Adds (p : String) (s s' : Store) (P : OutcomeField → Prop) (E : Set (String × ℤ)) :
    Prop where
  clock : s'.clock = s.clock
  ticked : ∀ f, IsCounter f → P f → ∀ ts, Shows counterWindowMs s (f.key p) ts →
    Shows counterWindowMs s' (f.key p) (ts ++ [s.clock])
  kept : ∀ f, IsCounter f → ¬P f → ∀ ts, Shows counterWindowMs s (f.key p) ts →
    Shows counterWindowMs s' (f.key p) ts
  events : ∀ S, EventsWithin p s S → EventsWithin p s' (S ∪ E)

namespace Adds

variable {p : String} {s s' s'' : Store} {P Q : OutcomeField → Prop} {E F : Set (String × ℤ)}

theorem of_live (hclock : s'.clock = s.clock)
    (hlive : ∀ f, IsCounter f ∨ f = .timeoutEvents → s'.live (f.key p) = s.live (f.key p)) :
    Adds p s s' (fun _ => False) ∅ where
  clock := hclock
  ticked _ _ h := h.elim
  kept f hf _ ts hshow := hshow.of_live hclock (hlive f (.inl hf))
  events S hevents := by
    rw [Set.union_empty]
    exact hevents.of_live (hlive .timeoutEvents (.inr rfl))

theorem trans (h : Adds p s s' P E) (h' : Adds p s' s'' Q F) (hdisjoint : ∀ f, P f → ¬Q f) :
    Adds p s s'' (fun f => P f ∨ Q f) (E ∪ F) where
  clock := h'.clock.trans h.clock
  ticked f hf hor ts hshow := by
    rcases hor with hp | hq
    · exact h'.kept f hf (hdisjoint f hp) _ (h.ticked f hf hp ts hshow)
    · have hnot : ¬P f := fun hp => hdisjoint f hp hq
      rw [← h.clock]
      exact h'.ticked f hf hq ts (h.kept f hf hnot ts hshow)
  kept f hf hnor ts hshow :=
    h'.kept f hf (fun hq => hnor (.inr hq)) ts (h.kept f hf (fun hp => hnor (.inl hp)) ts hshow)
  events S hevents := by
    rw [← Set.union_assoc]
    exact h'.events _ (h.events S hevents)

theorem congr (h : Adds p s s' P E) (hP : ∀ f, IsCounter f → (P f ↔ Q f)) (hE : E = F) :
    Adds p s s' Q F where
  clock := h.clock
  ticked f hf hq := h.ticked f hf ((hP f hf).mpr hq)
  kept f hf hq := h.kept f hf fun hp => hq ((hP f hf).mp hp)
  events := hE ▸ h.events

end Adds

section Finalize

variable {p r : String} {payload : OutcomePayload} {s s' : Store}

def OnKey (k : String) (c : Cmd) : Prop := c.key = k

theorem live_of_issues {α : Type} {program : Prog α} {k : String} {a : Except Exn α}
    (h : Program.Issues (OnKey k) program) (hrun : run program s = (a, s')) :
    s'.clock = s.clock ∧ ∀ k', k' ≠ k → s'.live k' = s.live k' := by
  have hs' : s' = (run program s).2 := by rw [hrun]
  constructor
  · rw [hs']
    refine h.run_preserves exec (fun t => t.clock = s.clock) ?_ rfl
    intro c t _ ht
    exact (exec_clock c t).trans ht
  · intro k' hk'
    obtain ⟨hentry, hclock⟩ := run_entry_ne h (fun c hc => hc ▸ hk') s
    unfold TtlStore.Store.live
    rw [hs', hentry, hclock]

theorem incrementWithTtl_onKey (k : String) :
    Program.Issues (OnKey k) (incrementWithTtl k) := by
  apply Program.Issues.bind (.perform (show OnKey k (.incrby k 1) from rfl))
  intro value
  apply Program.Issues.ite
  · intro _
    exact .bind (.perform (show OnKey k (.expire k _) from rfl)) fun _ => .pure _
  · intro _
    exact .pure _

theorem recordTimeoutEvent_onKey (ts : ℕ) : Program.Issues (OnKey (timeoutEventsKey p))
    (recordTimeoutEvent p r ts) := by
  apply Program.Issues.bind (.perform (show OnKey _ (.zadd (timeoutEventsKey p) r ts) from rfl))
  intro n
  exact .bind (.perform (show OnKey _ (.expire (timeoutEventsKey p) _) from rfl)) fun _ => .pure _

theorem incrementWithTtl_adds {f : OutcomeField} (hf : IsCounter f)
    (hrun : run (incrementWithTtl (f.key p)) s = (.ok (), s')) :
    Adds p s s' (fun g => g = f) ∅ := by
  obtain ⟨hclock, hother⟩ := live_of_issues (incrementWithTtl_onKey (f.key p)) hrun
  have hlive : ∀ g, g ≠ f → s'.live (g.key p) = s.live (g.key p) := fun g hg =>
    hother _ fun hkey => hg (field_key_inj.mp hkey)
  refine ⟨hclock, fun g _ hg ts hshow => ?_, fun g _ hg ts hshow => ?_, fun S hevents => ?_⟩
  · rw [hg] at hshow ⊢
    exact incrementWithTtl_shows hrun hshow
  · exact hshow.of_live hclock (hlive g hg)
  · rw [Set.union_empty]
    apply hevents.of_live (hlive .timeoutEvents _)
    intro he
    rw [← he] at hf
    exact not_counter_timeoutEvents hf

theorem recordTimeoutEvent_adds {ts : ℕ}
    (hrun : run (recordTimeoutEvent p r ts) s = (.ok (), s')) :
    Adds p s s' (fun _ => False) {(r, (ts : ℤ))} := by
  obtain ⟨hclock, hother⟩ := live_of_issues (recordTimeoutEvent_onKey ts) hrun
  have hlive : ∀ g, IsCounter g → s'.live (g.key p) = s.live (g.key p) := by
    intro g hg
    apply hother
    rw [timeoutEvents_key]
    intro hkey
    rw [field_key_inj.mp hkey] at hg
    exact not_counter_timeoutEvents hg
  refine ⟨hclock, fun g _ hg => hg.elim, fun g hg _ ts hshow => ?_, fun S hevents => ?_⟩
  · exact hshow.of_live hclock (hlive g hg)
  · obtain ⟨n, s₁, hzadd, hrest⟩ := run_bind_ok hrun
    obtain ⟨b, s₂, hexpire, hpure⟩ := run_bind_ok hrest
    obtain rfl := (Prod.mk.inj hpure).2
    obtain ⟨z, hz, hlookup⟩ := zadd_ok hzadd
    obtain ⟨z', hz', hmembers⟩ := hevents
    obtain rfl : z' = z := Option.some.inj (hz'.symm.trans hz)
    refine ⟨z'.add r ts, ?_, fun e he => ?_⟩
    · rw [expire_ok hexpire (by decide), hlookup, Function.update_self, zsetOf_zset]
    · rcases List.mem_cons.mp he with rfl | he
      · exact Set.mem_union_right S rfl
      · exact Set.mem_union_left _ (hmembers e (List.mem_filter.mp he).1)

theorem applyOutcomeCounters_adds (hr : r ≠ "")
    (hrun : run (applyOutcomeCounters p payload (some r)) s = (.ok (), s')) :
    Adds p s s' (fun f => CountsIn f payload)
      {e | payload.source = sourceTimeoutFallback ∧ e = (r, (payload.ts : ℤ))} := by
  obtain ⟨_, s₁, hdecision, hsource⟩ := run_bind_ok hrun
  -- a decision that is none of the three counts nowhere
  have hadds : Adds p s s₁ (fun f => decisionField payload.decision = some f) ∅ := by
    rw [incrementCounterForDecision, counterKey_map] at hdecision
    cases hd : decisionField payload.decision with
    | none =>
      rw [hd] at hdecision
      rw [← (Prod.mk.inj hdecision).2]
      apply (Adds.of_live rfl fun _ _ => rfl).congr _ rfl
      intro f _
      simp
    | some f =>
      rw [hd] at hdecision
      apply (incrementWithTtl_adds (decisionField_isCounter hd).1 hdecision).congr _ rfl
      intro g _
      simp [eq_comm]
  split at hsource
  · next hp =>
    obtain ⟨_, s₂, htimeout, hevent⟩ := run_bind_ok hsource
    rw [whenRequestId_some hr] at hevent
    have htimeout' : run (incrementWithTtl (OutcomeField.key p .timeout)) s₁ = (.ok (), s₂) :=
      htimeout
    have htimeouts := incrementWithTtl_adds (by simp [IsCounter]) htimeout'
    -- a timeout counts twice: for its decision and as a timeout
    have hboth := hadds.trans htimeouts fun f hf he =>
      (decisionField_isCounter hf).2 he
    apply (hboth.trans (recordTimeoutEvent_adds hevent) fun _ _ => id).congr
    · intro f _
      simp [CountsIn, hp]
    · ext e
      simp [hp]
  · next hp =>
    rw [← (Prod.mk.inj hsource).2]
    apply hadds.congr
    · intro f _
      simp [CountsIn, hp]
    · ext e
      simp [hp]

theorem set_onKey (k : String) (v : Text) (ttl : ℕ) : Program.Issues (OnKey k) (set k v ttl) :=
  .perform (show OnKey k (.set k v ttl) from rfl)

theorem set_adds {f : OutcomeField} {v : Text} {ttl : ℕ} (hf : ¬IsCounter f)
    (hevents : f ≠ .timeoutEvents) (hrun : run (set (f.key p) v ttl) s = (.ok (), s')) :
    Adds p s s' (fun _ => False) ∅ := by
  obtain ⟨hclock, hother⟩ := live_of_issues (set_onKey (f.key p) v ttl) hrun
  apply Adds.of_live hclock
  intro g hg
  apply hother
  intro hkey
  rw [field_key_inj.mp hkey] at hg
  exact hg.elim hf hevents

/-- The commands on the keys of a scope, those on the outcomes of other requests left out. -/
def OnRequest (p r : String) (c : Cmd) : Prop :=
  ∃ f : OutcomeField, c.key = f.key p ∧ ∀ q, f = .outcome q → q = r

theorem replaceOutcome_onRequest (payload : OutcomePayload) :
    Program.Issues (OnRequest p r) (replaceOutcome p payload r) := by
  apply Program.Issues.bind
  · apply Program.Issues.perform
    exact ⟨.outcome r, rfl, fun q hq => (OutcomeField.outcome.inj hq).symm⟩
  · intro _
    apply (publishOutcome_offOutcome payload (some r)).mono
    intro c hc
    obtain ⟨f, hf, hkey⟩ := hc
    exact ⟨f, hkey, fun q hq => absurd hq (hf q)⟩

theorem live_of_onRequest {α : Type} {program : Prog α} {a : Except Exn α}
    (h : Program.Issues (OnRequest p r) program) (hrun : run program s = (a, s')) {k : String}
    (hk : ∀ f : OutcomeField, (∀ q, f = .outcome q → q = r) → k ≠ f.key p) :
    s'.live k = s.live k := by
  have hs' : s' = (run program s).2 := by rw [hrun]
  have hoff : ∀ c, OnRequest p r c → k ≠ c.key := by
    intro c hc
    obtain ⟨f, hkey, hf⟩ := hc
    rw [hkey]
    exact hk f hf
  obtain ⟨hentry, hclock⟩ := run_entry_ne h hoff s
  unfold TtlStore.Store.live
  rw [hs', hentry, hclock]

theorem latencyKey_ne_field (f : OutcomeField) : latencyKey p ≠ f.key p := by
  have hlatency : latencyKey p = "pa:" ++ p ++ ":" ++ "latency:60m" := by
    apply String.toList_injective
    simp [latencyKey]
  rw [hlatency, OutcomeField.key_eq, Ne, append_left_inj]
  intro h
  have hl := congrArg String.toList h
  cases f <;> simp [OutcomeField.suffix] at hl

theorem finalizeOutcome_fresh {decision reason source : String} {ts : ℕ}
    {old : Option OutcomePayload} (hr : r ≠ "") (hnone : s.lookup (outcomeKey p r) = none)
    (hrun : run (finalizeOutcome p decision reason source (some r) ts) s =
      (.ok (true, old), s')) :
    run (replaceOutcome p ⟨decision, reason, source, ts⟩ r) s = (.ok (), s') := by
  rw [run, finalizeOutcome, Program.run_tryCatch] at hrun
  rcases hbody : run (finalizeBody p ⟨decision, reason, source, ts⟩ (some r)) s with
    ⟨e | answer, s₁⟩
  · rw [run] at hbody
    rw [hbody] at hrun
    have hanswer := Except.ok.inj (Prod.mk.inj hrun).1
    exact absurd (Prod.mk.inj hanswer).1 (by decide)
  · have hsettle := hbody
    rw [run] at hbody
    rw [hbody] at hrun
    rw [finalizeBody, truthy_some hr] at hsettle
    obtain ⟨raw, s₂, hget, hrest⟩ := run_bind_ok hsettle
    obtain ⟨rfl, hraw⟩ := get_ok hget
    rw [hnone] at hraw
    have hno : raw = none := Option.map_eq_none_iff.mp hraw.symm
    rw [hno] at hrest
    obtain ⟨_, s₃, hreplace, hpure⟩ := run_bind_ok hrest
    have hend : s₃ = s' := (Prod.mk.inj hpure).2.trans (Prod.mk.inj hrun).2
    rw [← hend]
    exact hreplace

end Finalize

/-- What the store holds of a scope after its finalized outcomes. -/
structure Tracks (p : String) (calls : List Finalization) (s : Store) : Prop where
  counters : ∀ f, IsCounter f → Shows counterWindowMs s (f.key p) (times f calls)
  events : EventsWithin p s {e | ∃ c ∈ calls, c.payload.source = sourceTimeoutFallback ∧
    e = (c.requestId, (c.payload.ts : ℤ))}
  unseen : ∀ r, (∀ c ∈ calls, c.requestId ≠ r) → s.live (outcomeKey p r) = none
  latency : (zsetOf (s.lookup (latencyKey p))).isSome = true
  last : ∃ t, s.lookup (lastKey p) = Option.map .text t
  past : ∀ c ∈ calls, c.payload.ts ≤ s.clock
  ordered : calls.Pairwise fun c d => c.payload.ts ≤ d.payload.ts

namespace Tracks

variable {p : String} {calls : List Finalization} {s s' : Store}

theorem start (now : ℕ) : Tracks p [] (.empty now) where
  counters _ _ := rfl
  events := ⟨.empty, rfl, by simp [SortedSet.empty]⟩
  unseen _ _ := rfl
  latency := rfl
  last := ⟨none, rfl⟩
  past := by simp
  ordered := List.Pairwise.nil

theorem times_append (f : OutcomeField) (c : Finalization) : times f (calls ++ [c]) =
    if CountsIn f c.payload then times f calls ++ [c.payload.ts] else times f calls := by
  unfold times
  by_cases hc : CountsIn f c.payload <;> simp [List.filter_append, hc]

theorem finalize (h : Tracks p calls s) {decision reason source r : String} (hr : r ≠ "")
    (hfresh : ∀ c ∈ calls, c.requestId ≠ r) {old : Option OutcomePayload}
    (hrun : run (finalizeOutcome p decision reason source (some r) s.clock) s =
      (.ok (true, old), s')) :
    Tracks p (calls ++ [⟨r, decision, reason, source, s.clock⟩]) s' := by
  -- a new request: nothing is stored of it, and the call writes everything
  have hnone : s.lookup (outcomeKey p r) = none := by
    rw [TtlStore.Store.lookup, h.unseen r hfresh, Option.map_none]
  obtain ⟨_, s₁, hset, hpublish⟩ := run_bind_ok (finalizeOutcome_fresh hr hnone hrun)
  obtain ⟨_, s₂, happly, hlast⟩ := run_bind_ok hpublish
  have hadds := ((set_adds (f := .outcome r) (by simp [IsCounter]) (by simp) hset).trans
    (applyOutcomeCounters_adds hr happly) fun _ hf => hf.elim).trans
      (set_adds (f := .last) (by simp [IsCounter]) (by simp) hlast) fun _ _ => id
  have hreplace := finalizeOutcome_fresh hr hnone hrun
  -- counters, timeouts, other requests, latencies, the last decision, and the order of the calls
  refine ⟨fun f hf => ?_, ?_, fun q hq => ?_, ?_, ?_, ?_, ?_⟩
  · rw [times_append]
    by_cases hc : CountsIn f ⟨decision, reason, source, s.clock⟩
    · rw [if_pos hc]
      exact hadds.ticked f hf (.inl (.inr hc)) _ (h.counters f hf)
    · rw [if_neg hc]
      apply hadds.kept f hf _ _ (h.counters f hf)
      simp [hc]
  · apply (hadds.events _ h.events).mono
    intro e he
    simp only [Set.empty_union, Set.union_empty, Set.mem_union, Set.mem_ofPred_eq] at he ⊢
    rcases he with ⟨c, hc, hsource, he⟩ | ⟨hsource, he⟩
    · exact ⟨c, List.mem_append_left _ hc, hsource, he⟩
    · exact ⟨_, List.mem_append_right _ (List.mem_singleton_self _), hsource, he⟩
  · have hqr : q ≠ r := by
      intro heq
      exact hq _ (List.mem_append_right _ (List.mem_singleton_self _)) heq.symm
    rw [live_of_onRequest (replaceOutcome_onRequest _) hreplace]
    · exact h.unseen q fun c hc => hq c (List.mem_append_left _ hc)
    · intro f hf hkey
      have hfq : OutcomeField.outcome q = f := field_key_inj.mp hkey
      exact hqr (hf q hfq.symm)
  · unfold TtlStore.Store.lookup
    rw [live_of_onRequest (replaceOutcome_onRequest _) hreplace fun f _ => latencyKey_ne_field f]
    exact h.latency
  · refine ⟨some (.json ⟨decision, reason, source, s.clock⟩), ?_⟩
    rw [set_ok hlast, Function.update_self]
    rfl
  · intro c hc
    rw [hadds.clock]
    rcases List.mem_append.mp hc with hc | hc
    · exact h.past c hc
    · rw [List.mem_singleton.mp hc]
  · rw [List.pairwise_append]
    refine ⟨h.ordered, List.pairwise_singleton _ _, fun c hc d hd => ?_⟩
    rw [List.mem_singleton.mp hd]
    exact h.past c hc

theorem lookup_advance_cases (s : Store) {t : ℕ} (ht : s.clock ≤ t) (k : String) :
    (s.advance t).lookup k = s.lookup k ∨ (s.advance t).lookup k = none := by
  unfold TtlStore.Store.lookup
  rw [TtlStore.Store.live_advance s ht]
  cases s.live k with
  | none => exact .inl rfl
  | some e => by_cases ha : e.alive t = true <;> simp [Option.filter_some, ha]

theorem advance (h : Tracks p calls s) {t : ℕ} (ht : s.clock ≤ t) :
    Tracks p calls (s.advance t) where
  counters f hf := (h.counters f hf).advance ht
  events := by
    rcases lookup_advance_cases s ht (timeoutEventsKey p) with hsame | hgone
    · obtain ⟨z, hz, hmembers⟩ := h.events
      exact ⟨z, by rw [hsame, hz], hmembers⟩
    · exact ⟨.empty, by rw [hgone, zsetOf_none], by simp [SortedSet.empty]⟩
  unseen r hr := by
    rw [TtlStore.Store.live_advance s ht, h.unseen r hr]
    rfl
  latency := by
    rcases lookup_advance_cases s ht (latencyKey p) with hsame | hgone
    · rw [hsame]
      exact h.latency
    · rw [hgone]
      rfl
  last := by
    rcases lookup_advance_cases s ht (lastKey p) with hsame | hgone
    · rw [hsame]
      exact h.last
    · exact ⟨none, hgone⟩
  past c hc := (h.past c hc).trans ht
  ordered := h.ordered

theorem elsewhere (h : Tracks p calls s) (hclock : s'.clock = s.clock)
    (hfields : ∀ f : OutcomeField, s'.live (f.key p) = s.live (f.key p))
    (hlatency : (zsetOf (s'.lookup (latencyKey p))).isSome = true) : Tracks p calls s' where
  counters f hf := (h.counters f hf).of_live hclock (hfields f)
  events := h.events.of_live (hfields .timeoutEvents)
  unseen r hr := (hfields (.outcome r)).trans (h.unseen r hr)
  latency := hlatency
  last := by
    obtain ⟨t, ht⟩ := h.last
    refine ⟨t, ?_⟩
    unfold TtlStore.Store.lookup at ht ⊢
    have hlast : s'.live (lastKey p) = s.live (lastKey p) := hfields .last
    rw [hlast, ht]
  past c hc := (h.past c hc).trans hclock.ge
  ordered := h.ordered

theorem alter_events (h : Tracks p calls s) {z z' : SortedSet String}
    (hz : zsetOf (s.lookup (timeoutEventsKey p)) = some z)
    (hsub : ∀ e ∈ z'.entries, e ∈ z.entries) :
    Tracks p calls (s.alter (timeoutEventsKey p) (ofZset z')) := by
  have hne : ∀ f : OutcomeField, f ≠ .timeoutEvents → f.key p ≠ timeoutEventsKey p := by
    intro f hf hkey
    rw [timeoutEvents_key] at hkey
    exact hf (field_key_inj.mp hkey)
  have hlive : ∀ f : OutcomeField, f ≠ .timeoutEvents →
      (s.alter (timeoutEventsKey p) (ofZset z')).live (f.key p) = s.live (f.key p) :=
    fun f hf => TtlStore.Store.live_setEntry_ne s _ (hne f hf)
  have hlookup : ∀ k, k ≠ timeoutEventsKey p →
      (s.alter (timeoutEventsKey p) (ofZset z')).lookup k = s.lookup k :=
    fun k hk => TtlStore.Store.lookup_setEntry_ne s _ hk
  refine ⟨fun f hf => ?_, ?_, fun r hr => ?_, ?_, ?_, h.past, h.ordered⟩
  · apply (h.counters f hf).of_live (TtlStore.Store.alter_clock s _ _) (hlive f _)
    intro he
    rw [he] at hf
    exact not_counter_timeoutEvents hf
  · obtain ⟨z₀, hz₀, hmembers⟩ := h.events
    obtain rfl : z₀ = z := Option.some.inj (hz₀.symm.trans hz)
    refine ⟨z', ?_, fun e he => hmembers e (hsub e he)⟩
    rw [TtlStore.Store.lookup_alter, if_pos rfl, zsetOf_ofZset]
  · exact (hlive (.outcome r) (by simp)).trans (h.unseen r hr)
  · rw [hlookup _ (latencyKey_ne_field .timeoutEvents)]
    exact h.latency
  · obtain ⟨t, ht⟩ := h.last
    exact ⟨t, (hlookup (lastKey p) (hne .last (by simp))).trans ht⟩

theorem alter_latency (h : Tracks p calls s) (z : SortedSet String) :
    Tracks p calls (s.alter (latencyKey p) (ofZset z)) := by
  apply h.elsewhere (TtlStore.Store.alter_clock s _ _)
  · intro f
    exact TtlStore.Store.live_setEntry_ne s _ (latencyKey_ne_field f).symm
  · rw [TtlStore.Store.lookup_alter, if_pos rfl, zsetOf_ofZset]
    rfl

theorem readInt (h : Tracks p calls s) {f : OutcomeField} (hf : IsCounter f) :
    run (readInt (f.key p)) s =
      (.ok (reading counterWindowMs (times f calls) s.clock : ℤ), s) :=
  readInt_eq (h.counters f hf).counterOf

theorem readRecentTimeoutCount (h : Tracks p calls s) (windowSeconds : ℤ) (now : ℕ) :
    ∃ (members : List String) (s' : Store), run (readRecentTimeoutCount p windowSeconds now) s =
        (.ok members.length, s') ∧ Tracks p calls s' ∧ s'.clock = s.clock ∧ members.Nodup ∧
      ∀ r ∈ members, ∃ c ∈ calls, c.payload.source = sourceTimeoutFallback ∧ r = c.requestId ∧
        (now : ℤ) - max windowSeconds 1 * 1000 ≤ c.payload.ts := by
  obtain ⟨z, hz, hmembers⟩ := h.events
  generalize hcut : ((now : ℤ) - protectActionCounterTtlSeconds * 1000) = cut
  set z' := z.removeRange 0 cut with hz'
  have hsub : ∀ e ∈ z'.entries, e ∈ z.entries := fun e he => (List.mem_filter.mp he).1
  set s' := s.alter (timeoutEventsKey p) (ofZset z') with hs'
  have hlookup : zsetOf (s'.lookup (timeoutEventsKey p)) = some z' := by
    rw [hs', TtlStore.Store.lookup_alter, if_pos rfl, zsetOf_ofZset]
  have hperm := z'.rangeFrom_perm ((now : ℤ) - max windowSeconds 1 * 1000)
  refine ⟨z'.rangeFrom ((now : ℤ) - max windowSeconds 1 * 1000), s', ?_, ?_, rfl, ?_, ?_⟩
  · rw [ProtectActionStore.readRecentTimeoutCount, hcut, run,
      Program.run_bind_eq exec (run_zremrangebyscore hz 0 cut),
      Program.run_bind_eq exec (run_zrangebyscore hlookup _), Program.run_pure]
  · exact h.alter_events hz hsub
  · rw [hperm.nodup_iff]
    exact z'.nodup.sublist (List.filter_sublist.map _)
  · intro r hr
    obtain ⟨e, he, hre⟩ := List.mem_map.mp (hperm.mem_iff.mp hr)
    obtain ⟨hin, hscore⟩ := List.mem_filter.mp he
    obtain ⟨c, hc, hsource, hce⟩ := hmembers e (hsub e hin)
    refine ⟨c, hc, hsource, ?_, ?_⟩
    · rw [← hre, hce]
    · rw [hce] at hscore
      simpa using hscore

theorem length_members_le {now : ℕ} {members : List String} {windowMs : ℤ}
    (hnodup : members.Nodup) (hwindow : windowMs < counterWindowMs)
    (hmembers : ∀ r ∈ members, ∃ c ∈ calls, c.payload.source = sourceTimeoutFallback ∧
      r = c.requestId ∧ (now : ℤ) - windowMs ≤ c.payload.ts) :
    members.length ≤ recent counterWindowMs (times .timeout calls) now := by
  have hcount : recent counterWindowMs (times .timeout calls) now =
      ((calls.filter fun c => CountsIn .timeout c.payload).filter fun c =>
        now < c.payload.ts + counterWindowMs).length := by
    unfold recent times
    rw [List.countP_map, List.countP_eq_length_filter]
    rfl
  rw [hcount, ← List.length_map (f := Finalization.requestId)]
  apply (List.subperm_of_subset hnodup _).length_le
  intro r hr
  obtain ⟨c, hc, hsource, hre, hrecent⟩ := hmembers r hr
  rw [List.mem_map]
  refine ⟨c, List.mem_filter.mpr ⟨List.mem_filter.mpr ⟨hc, ?_⟩, ?_⟩, hre.symm⟩
  · exact decide_eq_true (.inr ⟨rfl, hsource⟩)
  · apply decide_eq_true
    omega

theorem getHealth (h : Tracks p calls s) : ∃ (health : Health) (s' : Store),
    run (getHealth p s.clock) s = (.ok health, s') ∧ Tracks p calls s' ∧
      health.timeouts60m = reading counterWindowMs (times .timeout calls) s.clock ∧
      health.timeouts30m ≤ recent counterWindowMs (times .timeout calls) s.clock := by
  obtain ⟨z, hz⟩ := Option.isSome_iff_exists.mp h.latency
  generalize hcut : ((s.clock : ℤ) - protectActionCounterTtlSeconds * 1000) = cut
  set s₁ := s.alter (latencyKey p) (ofZset (z.removeRange 0 cut)) with hs₁
  have hlookup : zsetOf (s₁.lookup (latencyKey p)) = some (z.removeRange 0 cut) := by
    rw [hs₁, TtlStore.Store.lookup_alter, if_pos rfl, zsetOf_ofZset]
  have htracks : Tracks p calls s₁ := h.alter_latency _
  have hread : run (ProtectActionStore.readInt (timeoutKey p)) s₁ =
      (.ok (reading counterWindowMs (times .timeout calls) s.clock : ℤ), s₁) :=
    htracks.readInt (f := .timeout) (by simp [IsCounter])
  obtain ⟨members, s₂, hevents, htracks₂, _, hnodup, hmembers⟩ :=
    htracks.readRecentTimeoutCount 1800 s.clock
  have hwindow : max (1800 : ℤ) 1 * 1000 < counterWindowMs := by
    unfold counterWindowMs
    decide
  have hbody : run (readHealth p s.clock) s =
      (.ok ⟨percentile (parseLatencies ((z.removeRange 0 cut).rangeFrom cut)) 50,
        percentile (parseLatencies ((z.removeRange 0 cut).rangeFrom cut)) 95,
        reading counterWindowMs (times .timeout calls) s.clock, members.length⟩, s₂) := by
    unfold readHealth
    simp only [hcut]
    rw [run, Program.run_bind_eq exec (run_zremrangebyscore hz 0 cut),
      Program.run_bind_eq exec (run_zrangebyscore hlookup cut),
      Program.run_bind_eq exec hread, Program.run_bind_eq exec hevents, Program.run_pure]
  have hrun : run (ProtectActionStore.getHealth p s.clock) s = run (readHealth p s.clock) s := by
    rw [run] at hbody
    rw [run, run, ProtectActionStore.getHealth, Program.run_tryCatch, hbody]
  exact ⟨_, s₂, hrun.trans hbody, htracks₂, rfl, length_members_le hnodup hwindow hmembers⟩

theorem getMetrics (h : Tracks p calls s) : ∃ (metrics : ActionMetrics) (s' : Store),
    run (getMetrics p s.clock) s = (.ok metrics, s') ∧ Tracks p calls s' ∧
      metrics.allowed60m = reading counterWindowMs (times .allow calls) s.clock ∧
      metrics.clamped60m = reading counterWindowMs (times .clamp calls) s.clock ∧
      metrics.blocked60m = reading counterWindowMs (times .block calls) s.clock ∧
      metrics.decisionTimeouts60m = reading counterWindowMs (times .timeout calls) s.clock := by
  obtain ⟨health, s₁, hhealth, htracks, _, _⟩ := h.getHealth
  obtain ⟨lastRaw, hlast⟩ := h.last
  have hallow : run (ProtectActionStore.readInt (allowKey p)) s = _ :=
    h.readInt (f := .allow) (by simp [IsCounter])
  have hclamp : run (ProtectActionStore.readInt (clampKey p)) s = _ :=
    h.readInt (f := .clamp) (by simp [IsCounter])
  have hblock : run (ProtectActionStore.readInt (blockKey p)) s = _ :=
    h.readInt (f := .block) (by simp [IsCounter])
  have htimeout : run (ProtectActionStore.readInt (timeoutKey p)) s = _ :=
    h.readInt (f := .timeout) (by simp [IsCounter])
  have hbody : run (readMetrics p s.clock) s =
      (.ok ⟨reading counterWindowMs (times .allow calls) s.clock,
        reading counterWindowMs (times .clamp calls) s.clock,
        reading counterWindowMs (times .block calls) s.clock,
        reading counterWindowMs (times .timeout calls) s.clock,
        parseLast lastRaw, health.p50Ms, health.p95Ms⟩, s₁) := by
    unfold readMetrics
    rw [run, Program.run_bind_eq exec hallow, Program.run_bind_eq exec hclamp,
      Program.run_bind_eq exec hblock, Program.run_bind_eq exec htimeout,
      Program.run_bind_eq exec (run_get hlast), Program.run_bind_eq exec hhealth,
      Program.run_pure]
  have hrun : run (ProtectActionStore.getMetrics p s.clock) s = run (readMetrics p s.clock) s := by
    rw [run] at hbody
    rw [run, run, ProtectActionStore.getMetrics, Program.run_tryCatch, hbody]
  exact ⟨_, s₁, hrun.trans hbody, htracks, rfl, rfl, rfl, rfl⟩

end Tracks

theorem Runs.tracks {p : String} {calls : List Finalization} {s : Store} (h : Runs p calls s) :
    Tracks p calls s := by
  induction h with
  | start now => exact .start now
  | advance _ t hclock ih => exact ih.advance hclock
  | finalize _ decision reason source hr hfresh hfinalize ih =>
    exact ih.finalize hr hfresh hfinalize
  | getHealth _ ih =>
    obtain ⟨health, s', hrun, htracks, _⟩ := ih.getHealth
    rw [hrun]
    exact htracks
  | getMetrics _ ih =>
    obtain ⟨metrics, s', hrun, htracks, _⟩ := ih.getMetrics
    rw [hrun]
    exact htracks
  | elsewhere _ hclock hfields hlatency ih => exact ih.elsewhere hclock hfields hlatency

/-- The outcomes of a kind in the counter window behind `now`. -/
def recentOutcomes (f : OutcomeField) (calls : List Finalization) (now : ℕ) : ℕ :=
  calls.countP fun c => CountsIn f c.payload ∧ now < c.payload.ts + counterWindowMs

theorem recent_times_eq (W : ℕ) (f : OutcomeField) (calls : List Finalization) (now : ℕ) :
    recent W (times f calls) now =
      calls.countP fun c => CountsIn f c.payload ∧ now < c.payload.ts + W := by
  unfold recent times
  rw [List.countP_map, List.countP_filter]
  apply List.countP_congr
  intro c _
  simp [and_comm]

theorem recent_times (f : OutcomeField) (calls : List Finalization) (now : ℕ) :
    recent counterWindowMs (times f calls) now = recentOutcomes f calls now :=
  recent_times_eq counterWindowMs f calls now

/-- The readings at `now` count the finalized outcomes of the last hour. -/
structure CountsLastHour (calls : List Finalization) (now : ℕ) (metrics : ActionMetrics)
    (health : Health) : Prop where
  allowed : metrics.allowed60m = recentOutcomes .allow calls now
  clamped : metrics.clamped60m = recentOutcomes .clamp calls now
  blocked : metrics.blocked60m = recentOutcomes .block calls now
  decisionTimeouts : metrics.decisionTimeouts60m = recentOutcomes .timeout calls now
  timeouts : health.timeouts60m = recentOutcomes .timeout calls now
  shorter : health.timeouts30m ≤ health.timeouts60m

/-- The counters count the last hour just when no outcome of it lies in an earlier life of its
counter key. -/
theorem counts_last_hour_iff {p : String} {calls : List Finalization} {s : Store}
    (hrun : Runs p calls s) : ∃ (metrics : ActionMetrics) (health : Health),
      (run (getMetrics p s.clock) s).1 = .ok metrics ∧
      (run (getHealth p s.clock) s).1 = .ok health ∧
      (CountsLastHour calls s.clock metrics health ↔
        ∀ f, IsCounter f → Covered counterWindowMs (times f calls) s.clock) := by
  have htracks := hrun.tracks
  obtain ⟨metrics, s₁, hmetrics, _, hallow, hclamp, hblock, htimeout⟩ := htracks.getMetrics
  obtain ⟨health, s₂, hhealth, _, htimeouts60m, htimeouts30m⟩ := htracks.getHealth
  have horder : ∀ f, (times f calls).Pairwise (· ≤ ·) := by
    intro f
    unfold times
    rw [List.pairwise_map]
    exact htracks.ordered.sublist List.filter_sublist
  -- each counter reads right exactly if its own life covers the hour
  have hcovered : ∀ f, (reading counterWindowMs (times f calls) s.clock : ℤ) =
      recentOutcomes f calls s.clock ↔ Covered counterWindowMs (times f calls) s.clock := by
    intro f
    rw [← recent_times, Nat.cast_inj]
    exact reading_eq_recent_iff counterWindowMs_pos (horder f)
  refine ⟨metrics, health, by rw [hmetrics], by rw [hhealth], ?_⟩
  constructor
  · intro hcounts f hf
    rw [← hcovered f]
    rcases hf with rfl | rfl | rfl | rfl
    · exact hallow.symm.trans hcounts.allowed
    · exact hclamp.symm.trans hcounts.clamped
    · exact hblock.symm.trans hcounts.blocked
    · exact htimeout.symm.trans hcounts.decisionTimeouts
  · intro hall
    have htimeout_covered := (hcovered .timeout).mpr (hall .timeout (by simp [IsCounter]))
    refine ⟨?_, ?_, ?_, ?_, ?_, ?_⟩
    · exact hallow.trans ((hcovered .allow).mpr (hall .allow (by simp [IsCounter])))
    · exact hclamp.trans ((hcovered .clamp).mpr (hall .clamp (by simp [IsCounter])))
    · exact hblock.trans ((hcovered .block).mpr (hall .block (by simp [IsCounter])))
    · exact htimeout.trans htimeout_covered
    · exact htimeouts60m.trans htimeout_covered
    · rw [htimeouts60m, htimeout_covered, ← recent_times]
      exact_mod_cast htimeouts30m

section Sample

/-- A timeout fallback that lets a call through. -/
def timedOut (requestId : String) (ts : ℕ) : Finalization :=
  ⟨requestId, "allow", "decision_timeout", sourceTimeoutFallback, ts⟩

def finalizeTimedOut (requestId : String) (s : Store) :
    Except Exn (Bool × Option OutcomePayload) × Store :=
  run (finalizeOutcome "p1:openai" "allow" "decision_timeout" sourceTimeoutFallback (some requestId)
    s.clock) s

/-- The store at 3700 s, after timeout fallbacks at 0 s and at 3500 s. -/
def twoTimeouts : Store :=
  (finalizeTimedOut "r2" ((finalizeTimedOut "r1" (.empty 0)).2.advance 3500000)).2.advance 3700000

theorem twoTimeouts_runs :
    Runs "p1:openai" [timedOut "r1" 0, timedOut "r2" 3500000] twoTimeouts := by
  have hfirst : finalizeTimedOut "r1" (.empty 0) =
      (.ok (true, none), (finalizeTimedOut "r1" (.empty 0)).2) := Prod.ext (by decide +kernel) rfl
  have h₁ := (Runs.start 0).finalize "allow" "decision_timeout" sourceTimeoutFallback
    (by decide : "r1" ≠ "") (by simp) hfirst
  have h₂ := h₁.advance 3500000 (by decide +kernel)
  have hsecond : finalizeTimedOut "r2" ((finalizeTimedOut "r1" (.empty 0)).2.advance 3500000) =
      (.ok (true, none),
        (finalizeTimedOut "r2" ((finalizeTimedOut "r1" (.empty 0)).2.advance 3500000)).2) :=
    Prod.ext (by decide +kernel) rfl
  have h₃ := h₂.finalize "allow" "decision_timeout" sourceTimeoutFallback (by decide : "r2" ≠ "")
    (by simp) hsecond
  exact h₃.advance 3700000 (by decide +kernel)

/-- The counter of the timeouts has expired while its second outcome is 200 s old. -/
theorem counts_last_hour_fails : ¬∀ (p : String) (calls : List Finalization) (s : Store),
    Runs p calls s → ∀ (metrics : ActionMetrics) (health : Health),
      (run (getMetrics p s.clock) s).1 = .ok metrics →
      (run (getHealth p s.clock) s).1 = .ok health →
      CountsLastHour calls s.clock metrics health := by
  intro hall
  have hmetrics : (run (getMetrics "p1:openai" twoTimeouts.clock) twoTimeouts).1 =
      .ok ⟨0, 0, 0, 0, some (timedOut "r2" 3500000).payload, none, none⟩ := by decide +kernel
  have hhealth : (run (getHealth "p1:openai" twoTimeouts.clock) twoTimeouts).1 =
      .ok ⟨none, none, 0, 1⟩ := by decide +kernel
  have hcounts := hall _ _ _ twoTimeouts_runs _ _ hmetrics hhealth
  exact absurd hcounts.shorter (by decide)

theorem counts_last_hour_iff_sample : ∃ (metrics : ActionMetrics) (health : Health),
    (run (getMetrics "p1:openai" twoTimeouts.clock) twoTimeouts).1 = .ok metrics ∧
    (run (getHealth "p1:openai" twoTimeouts.clock) twoTimeouts).1 = .ok health ∧
    (CountsLastHour [timedOut "r1" 0, timedOut "r2" 3500000] twoTimeouts.clock metrics health ↔
      ∀ f, IsCounter f →
        Covered counterWindowMs (times f [timedOut "r1" 0, timedOut "r2" 3500000])
          twoTimeouts.clock) :=
  counts_last_hour_iff twoTimeouts_runs

end Sample

end Rheonic.CounterWindow
