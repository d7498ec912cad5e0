import Rheonic.Finalize
import Rheonic.ProtectFootprint

namespace Rheonic.ProtectActionStore
open CommandProgram Redis Keys PyText

/-- The commands on the keys of a scope that hold no outcome. -/
def OffOutcome (p : String) (c : Cmd) : Prop :=
  ∃ f : OutcomeField, (∀ r, f ≠ .outcome r) ∧ c.key = f.key p

theorem OffOutcome.ne {p : String} {c : Cmd} (h : OffOutcome p c) (r : String) :
    outcomeKey p r ≠ c.key := by
  obtain ⟨f, hf, hkey⟩ := h
  have hr : outcomeKey p r = (OutcomeField.outcome r).key p := rfl
  rw [hkey, hr]
  intro he
  rw [OutcomeField.key_eq, OutcomeField.key_eq, append_left_inj] at he
  exact hf r (OutcomeField.suffix_injective he).symm

section Issues

variable {p : String}

theorem counterKey_field {decision k : String} (h : counterKeyForDecision p decision = some k) :
    ∃ f : OutcomeField, (∀ r, f ≠ .outcome r) ∧ k = f.key p := by
  unfold counterKeyForDecision at h
  split_ifs at h <;> obtain rfl := Option.some.inj h
  · exact ⟨.allow, by simp, rfl⟩
  · exact ⟨.clamp, by simp, rfl⟩
  · exact ⟨.block, by simp, rfl⟩

theorem incrementWithTtl_offOutcome {k : String}
    (h : ∃ f : OutcomeField, (∀ r, f ≠ .outcome r) ∧ k = f.key p) :
    Program.Issues (OffOutcome p) (incrementWithTtl k) := by
  refine Program.Issues.bind (.perform h) fun value => ?_
  apply Program.Issues.ite
  · intro _
    exact .bind (.perform h) fun _ => .pure _
  · intro _
    exact .pure _

theorem offOutcome_timeout : ∃ f : OutcomeField, (∀ r, f ≠ .outcome r) ∧
    timeoutKey p = f.key p := ⟨.timeout, by simp, rfl⟩

theorem offOutcome_events : ∃ f : OutcomeField, (∀ r, f ≠ .outcome r) ∧
    timeoutEventsKey p = f.key p := ⟨.timeoutEvents, by simp, rfl⟩

theorem recordTimeoutEvent_offOutcome (r : String) (ts : ℕ) :
    Program.Issues (OffOutcome p) (recordTimeoutEvent p r ts) := by
  refine Program.Issues.bind (.perform offOutcome_events) fun _ => ?_
  exact .bind (.perform offOutcome_events) fun _ => .pure _

theorem publishOutcome_offOutcome (payload : OutcomePayload) (requestId : Option String) :
    Program.Issues (OffOutcome p) (publishOutcome p payload requestId) := by
  have hlast : OffOutcome p (.set (lastKey p) (.json payload) protectActionCounterTtlSeconds) :=
    ⟨.last, by simp, rfl⟩
  refine Program.Issues.bind (Program.Issues.bind ?_ fun _ => ?_) fun _ => .perform hlast
  · unfold incrementCounterForDecision
    cases hk : counterKeyForDecision p payload.decision with
    | none => exact .pure _
    | some k => exact incrementWithTtl_offOutcome (counterKey_field hk)
  · apply Program.Issues.ite
    · intro _
      apply Program.Issues.bind (incrementWithTtl_offOutcome offOutcome_timeout)
      intro _
      exact whenRequestId_issues requestId fun r => recordTimeoutEvent_offOutcome r _
    · intro _
      exact .pure _

theorem removeOutcomeCounters_offOutcome (payload : OutcomePayload) (requestId : Option String) :
    Program.Issues (OffOutcome p) (removeOutcomeCounters p payload requestId) := by
  apply Program.Issues.bind
  · unfold decrementCounterForDecision
    cases hk : counterKeyForDecision p payload.decision with
    | none => exact .pure _
    | some k =>
      have hkey := counterKey_field hk
      refine Program.Issues.bind (.bind (.perform hkey) fun _ => .pure _) fun current => ?_
      exact .ite (fun _ => .pure _) fun _ => .bind (.perform hkey) fun _ => .pure _
  · intro _
    apply Program.Issues.ite
    · intro _
      apply Program.Issues.bind
      · refine Program.Issues.bind (.bind (.perform offOutcome_timeout) fun _ => .pure _)
          fun current => ?_
        exact .ite (fun _ => .bind (.perform offOutcome_timeout) fun _ => .pure _)
          fun _ => .pure _
      · intro _
        refine whenRequestId_issues requestId fun r => ?_
        exact .bind (.perform offOutcome_events) fun _ => .pure _
    · intro _
      exact .pure _

end Issues

/-- What a finalize call that no failure cuts short has done to the outcome of its request. -/
structure Finalized (p r : String) (payload : OutcomePayload) (s : Store) (applied : Bool)
    (old : Option OutcomePayload) (s' : Store) : Prop where
  clock : s'.clock = s.clock
  old_eq : ∃ raw, s.lookup (outcomeKey p r) = Option.map .text raw ∧ parseLast raw = old
  applied_eq : applied = old.all (shouldReplaceOutcome · payload)
  stored : applied = true → s'.entry (outcomeKey p r) =
    some ⟨.text (.json payload), some (s.clock + protectActionCounterTtlSeconds * 1000)⟩
  refused : applied = false → s' = s

section Finalize

variable {p r : String} {payload : OutcomePayload} {s s' : Store}

theorem replaceOutcome_stored (hrun : run (replaceOutcome p payload r) s = (.ok (), s')) :
    s'.clock = s.clock ∧ s'.entry (outcomeKey p r) =
      some ⟨.text (.json payload), some (s.clock + protectActionCounterTtlSeconds * 1000)⟩ := by
  obtain ⟨_, s₁, hset, hpublish⟩ := run_bind_ok hrun
  have hpos : ¬protectActionCounterTtlSeconds = 0 := by decide
  have hexec : run (set (outcomeKey p r) (.json payload) protectActionCounterTtlSeconds) s =
      (.ok (), s.put (outcomeKey p r) (.text (.json payload))
        (protectActionCounterTtlSeconds * 1000)) := by
    rw [run, Redis.set, Program.run_perform, exec, if_neg hpos]
  obtain ⟨_, rfl⟩ := Prod.mk.inj (hexec.symm.trans hset)
  have hkeep := (publishOutcome_offOutcome payload (some r)).run_preserves exec
    (fun t => t.clock = s.clock ∧ t.entry (outcomeKey p r) =
      some ⟨.text (.json payload), some (s.clock + protectActionCounterTtlSeconds * 1000)⟩)
    (fun c t hc ht => ⟨(exec_clock c t).trans ht.1, (exec_entry_ne c t (hc.ne r)).trans ht.2⟩)
    (s := s.put (outcomeKey p r) (.text (.json payload)) (protectActionCounterTtlSeconds * 1000))
    ⟨rfl, by simp [TtlStore.Store.put]⟩
  rw [run] at hpublish
  rw [hpublish] at hkeep
  exact hkeep

theorem finalizeBody_finalized {applied : Bool} {old : Option OutcomePayload} (hr : r ≠ "")
    (hbody : run (finalizeBody p payload (some r)) s = (.ok (applied, old), s')) :
    Finalized p r payload s applied old s' := by
  rw [finalizeBody, truthy_some hr] at hbody
  obtain ⟨raw, s₁, hget, hsettle⟩ := run_bind_ok hbody
  obtain ⟨rfl, hraw⟩ := get_ok hget
  cases hparse : parseLast raw with
  | none =>
    rw [hparse] at hsettle
    obtain ⟨_, s₂, hreplace, hpure⟩ := run_bind_ok hsettle
    obtain ⟨hanswer, rfl⟩ := Prod.mk.inj hpure
    obtain ⟨rfl, rfl⟩ := Prod.mk.inj (Except.ok.inj hanswer)
    obtain ⟨hclock, hentry⟩ := replaceOutcome_stored hreplace
    exact ⟨hclock, ⟨raw, hraw, hparse⟩, rfl, fun _ => hentry, fun h => by cases h⟩
  | some existing =>
    rw [hparse, settleOutcome] at hsettle
    by_cases hreplaces : shouldReplaceOutcome existing payload = true
    · rw [if_pos hreplaces] at hsettle
      obtain ⟨_, s₂, hremove, hrest⟩ := run_bind_ok hsettle
      obtain ⟨_, s₃, hreplace, hpure⟩ := run_bind_ok hrest
      obtain ⟨hanswer, rfl⟩ := Prod.mk.inj hpure
      obtain ⟨rfl, rfl⟩ := Prod.mk.inj (Except.ok.inj hanswer)
      obtain ⟨hclock, hentry⟩ := replaceOutcome_stored hreplace
      have hsame := (removeOutcomeCounters_offOutcome (p := p) existing (some r)).run_preserves
        exec (fun t => t.clock = s₁.clock) (fun c t _ ht => (exec_clock c t).trans ht) rfl
      rw [run] at hremove
      rw [hremove] at hsame
      refine ⟨hclock.trans hsame, ⟨raw, hraw, hparse⟩, hreplaces.symm, fun _ => ?_,
        fun h => by cases h⟩
      rw [hentry, hsame]
    · rw [if_neg hreplaces] at hsettle
      obtain ⟨hanswer, rfl⟩ := Prod.mk.inj hsettle
      obtain ⟨rfl, rfl⟩ := Prod.mk.inj (Except.ok.inj hanswer)
      refine ⟨rfl, ⟨raw, hraw, hparse⟩, by simpa using hreplaces, fun h => ?_, fun _ => rfl⟩
      cases h

/-- The store answers every command of the finalize call. -/
def Answers (p r : String) (payload : OutcomePayload) (s : Store) : Prop :=
  ((run (finalizeBody p payload (some r)) s).1.toOption).isSome = true

instance (p r : String) (payload : OutcomePayload) (s : Store) : Decidable (Answers p r payload s) :=
  inferInstanceAs (Decidable (_ = true))

theorem Answers.finalized (hr : r ≠ "") (h : Answers p r payload s) :
    ∃ applied old s', run (finalizeOutcome p payload.decision payload.reason payload.source (some r)
      payload.ts) s = (.ok (applied, old), s') ∧ Finalized p r payload s applied old s' := by
  have hcaught := Program.run_tryCatch exec (finalizeBody p payload (some r))
    (fun _ => pure (false, none)) s
  unfold Answers at h
  rcases hbody : run (finalizeBody p payload (some r)) s with ⟨e | ⟨applied, old⟩, s'⟩
  · rw [hbody] at h
    cases h
  · have hfinalized := finalizeBody_finalized hr hbody
    rw [run] at hbody
    rw [hbody] at hcaught
    exact ⟨applied, old, s', hcaught, hfinalized⟩

/-- An answer other than `(false, none)` comes from a body that does not raise. -/
theorem finalizeOutcome_finalized {decision reason source : String} {ts : ℕ} {applied : Bool}
    {old : Option OutcomePayload} (hr : r ≠ "")
    (hrun : run (finalizeOutcome p decision reason source (some r) ts) s =
      (.ok (applied, old), s')) (hok : (applied, old) ≠ (false, none)) :
    Finalized p r ⟨decision, reason, source, ts⟩ s applied old s' := by
  rw [run, finalizeOutcome, Program.run_tryCatch] at hrun
  rcases hbody : run (finalizeBody p ⟨decision, reason, source, ts⟩ (some r)) s with
    ⟨e | answer, s₁⟩
  · rw [run] at hbody
    rw [hbody] at hrun
    obtain ⟨hanswer, _⟩ := Prod.mk.inj hrun
    exact absurd (Except.ok.inj hanswer).symm hok
  · have hfinalized := hbody
    rw [run] at hbody
    rw [hbody] at hrun
    obtain ⟨hanswer, rfl⟩ := Prod.mk.inj hrun
    obtain rfl := Except.ok.inj hanswer
    exact finalizeBody_finalized hr hfinalized

/-- A record that can be read back is stored under the outcome key, and `P` holds of it. -/
def Holds (p r : String) (P : OutcomePayload → Prop) (s : Store) : Prop :=
  ∃ e payload, s.entry (outcomeKey p r) = some e ∧ e.value = .text (.json payload) ∧
    parseLast (some (.json payload)) = some payload ∧ P payload

theorem parseLast_some {raw : Option Text} (h : parseLast raw = some payload) :
    raw = some (.json payload) := by
  unfold parseLast at h
  split at h
  · split at h
    · cases h
    · rw [Option.some.inj h]
  · cases h

theorem parseLast_json (hdecision : payload.decision ≠ "") (hreason : payload.reason ≠ "")
    (hsource : payload.source ≠ "") : parseLast (some (.json payload)) = some payload := by
  simp [parseLast, hdecision, hreason, hsource]

theorem Holds.of_entry {P : OutcomePayload → Prop} (h : Holds p r P s)
    (hentry : s'.entry (outcomeKey p r) = s.entry (outcomeKey p r)) : Holds p r P s' := by
  obtain ⟨e, x, he, hx⟩ := h
  exact ⟨e, x, hentry.trans he, hx⟩

namespace Finalized

variable {P : OutcomePayload → Prop} {applied : Bool} {old : Option OutcomePayload}

theorem holds (h : Finalized p r payload s true old s')
    (hparse : parseLast (some (.json payload)) = some payload) : Holds p r (· = payload) s' :=
  ⟨_, payload, h.stored rfl, rfl, hparse, rfl⟩

theorem old_of_holds (h : Finalized p r payload s applied old s') (hholds : Holds p r P s)
    (halive : ∀ e, s.entry (outcomeKey p r) = some e → e.alive s.clock = true) :
    ∃ x, old = some x ∧ P x := by
  obtain ⟨e, x, he, hvalue, hparse, hx⟩ := hholds
  obtain ⟨raw, hraw, hold⟩ := h.old_eq
  have hlookup : s.lookup (outcomeKey p r) = some (.text (.json x)) := by
    simp [TtlStore.Store.lookup, TtlStore.Store.live, he, Option.filter_some, halive e he, hvalue]
  have hjson : raw = some (.json x) := by
    rw [hlookup] at hraw
    cases raw with
    | none => cases hraw
    | some text => rw [Value.text.inj (Option.some.inj hraw)]
  rw [hjson, hparse] at hold
  exact ⟨x, hold.symm, hx⟩

theorem holds_of_refused (h : Finalized p r payload s false old s') :
    Holds p r (fun x => shouldReplaceOutcome x payload = false) s' := by
  obtain ⟨raw, hraw, hparse⟩ := h.old_eq
  have hall := h.applied_eq
  cases old with
  | none => cases hall
  | some x =>
    have hjson := parseLast_some hparse
    rw [hjson] at hraw hparse
    rw [h.refused rfl]
    obtain ⟨e, he, hvalue⟩ := Option.map_eq_some_iff.mp hraw
    exact ⟨e, x, (Option.filter_eq_some_iff.mp he).1, hvalue, hparse, hall.symm⟩

end Finalized

theorem shouldReplace_live {old payload : OutcomePayload} (hsource : payload.source = sourceLive)
    (hold : sourceRank old.source = 2) : shouldReplaceOutcome old payload = false := by
  have hone : sourceRank sourceLive = 1 := by decide
  unfold shouldReplaceOutcome
  rw [if_pos (by rw [hsource, hone, hold]; decide)]

theorem shouldReplace_fallback {old payload : OutcomePayload}
    (hold : old.source = sourceLive) (hsource : sourceRank payload.source = 2) :
    shouldReplaceOutcome old payload = true := by
  have hone : sourceRank sourceLive = 1 := by decide
  unfold shouldReplaceOutcome
  rw [if_neg (by rw [hold, hone, hsource]; decide), if_pos (by rw [hold, hone, hsource]; decide)]

theorem sourceRank_le (source : String) : sourceRank source ≤ 2 := by
  unfold sourceRank
  split_ifs <;> omega

theorem shouldReplace_self (payload : OutcomePayload) :
    shouldReplaceOutcome payload payload = false := by
  simp [shouldReplaceOutcome]

theorem Finalized.refuses {applied : Bool} {old : Option OutcomePayload}
    (h : Finalized p r payload s applied old s')
    (hparse : parseLast (some (.json payload)) = some payload) :
    Holds p r (fun x => shouldReplaceOutcome x payload = false) s' := by
  cases applied with
  | true =>
    obtain ⟨e, x, he, hvalue, hx, rfl⟩ := h.holds hparse
    exact ⟨e, _, he, hvalue, hx, shouldReplace_self _⟩
  | false => exact h.holds_of_refused

theorem run_finalizeOutcome_refused (hr : r ≠ "")
    (h : Holds p r (fun x => shouldReplaceOutcome x payload = false) s)
    (halive : ∀ e, s.entry (outcomeKey p r) = some e → e.alive s.clock = true) :
    ∃ x, run (finalizeOutcome p payload.decision payload.reason payload.source (some r) payload.ts)
      s = (.ok (false, some x), s) := by
  obtain ⟨e, x, he, hvalue, hparse, hx⟩ := h
  have hlookup : s.lookup (outcomeKey p r) = some (.text (.json x)) := by
    simp [TtlStore.Store.lookup, TtlStore.Store.live, he, Option.filter_some, halive e he, hvalue]
  have hget : run (get (outcomeKey p r)) s = (.ok (some (.json x)), s) := run_get hlookup
  refine ⟨x, ?_⟩
  have hbody : Program.run exec (finalizeBody p payload (some r)) s = (.ok (false, some x), s) := by
    rw [finalizeBody, truthy_some hr]
    dsimp only
    rw [Program.run_bind_eq exec hget, hparse, settleOutcome, if_neg (by simp [hx])]
    rfl
  rw [run, finalizeOutcome, Program.run_tryCatch, hbody]

end Finalize

end Rheonic.ProtectActionStore
