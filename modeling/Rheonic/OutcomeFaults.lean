import Rheonic.OutcomeConservation
import Rheonic.FinalizeAnswer
import Rheonic.FinalizeCounters
import Rheonic.Lib.Faults

namespace Rheonic.OutcomeFaults
open CommandProgram Redis Keys ProtectActionStore

/-- Stores that no command tells apart, now or later. -/
def Same (s x : Store) : Prop := (∀ k, x.live k = s.live k) ∧ x.clock = s.clock

section Openings

variable (p : String) (s : Store)

/-- The number that a counter is read as. -/
def readAs (key : String) : ℤ :=
  match s.lookup key with
  | some (.text t) => intOfText (some t)
  | _ => 0

/-- Removing the member changes the key; a set without members would go with it. -/
def Listed (key member : String) : Prop :=
  match s.lookup key with
  | some (.zset z) => z.entries = [] ∨ member ∈ z.members
  | _ => False

instance (key member : String) : Decidable (Listed s key member) := by
  unfold Listed
  split <;> infer_instance

/-- A counter is read, and taken down where it is above zero. -/
def takingOne (key : String) : Opening Cmd :=
  ⟨[.get key], if 0 < readAs s key then some (.incrby key (-1)) else none⟩

def removingEvent (requestId : String) : Opening Cmd :=
  let zrem := Cmd.zrem (timeoutEventsKey p) requestId
  if Listed s (timeoutEventsKey p) requestId then ⟨[], some zrem⟩ else ⟨[zrem], none⟩

def takingDecision (decision : String) : Opening Cmd :=
  match counterKeyForDecision p decision with
  | none => ⟨[], none⟩
  | some key => takingOne s key

def takingTimeout (source requestId : String) : Opening Cmd :=
  if source = sourceTimeoutFallback then
    (takingOne s (timeoutKey p)).andThen (removingEvent p s requestId)
  else ⟨[], none⟩

/-- The first commands of `_remove_outcome_counters`. -/
def givingBack (old : OutcomePayload) (requestId : String) : Opening Cmd :=
  (takingDecision p s old.decision).andThen (takingTimeout p s old.source requestId)

end Openings

/-- The commands of a call up to the first that changes something in the store. -/
def opening (c : Call) (s : Store) : Opening Cmd :=
  let key := outcomeKey c.scope.id c.requestId
  let store : Opening Cmd := ⟨[], some (.set key (.json c.payload) protectActionCounterTtlSeconds)⟩
  Opening.andThen ⟨[.get key], none⟩ <|
    match storedOutcome s c.scope c.requestId with
    | none => store
    | some old =>
      if shouldReplaceOutcome old c.payload then
        (givingBack c.scope.id s old c.requestId).andThen store
      else ⟨[], none⟩

def Refused (c : Call) (s : Store) : Prop :=
  ∃ cmd ∈ (opening c s).commands, (exec cmd s).1.toOption = none

section Calls

variable (c : Call) (e : Exn) (s : Store) (fault : Option Fault)

def attempt : Except Exn (Bool × Option OutcomePayload) × Store :=
  let served := Program.run (Program.faulty exec e) c.finalize (s, fault)
  (served.1, served.2.1)

/-- No key of an outcome has changed: outcomes, counters, timeout events and last actions. -/
def Untouched (s s' : Store) : Prop := ∀ (σ : Scope) (f : OutcomeField),
  s'.lookup (σ.key f) = s.lookup (σ.key f)

/-- The outcome of the request is counted once: its units take the place of those of the outcome
that is stored before, or that outcome stays. -/
def CountedOnce (s s' : Store) : Prop :=
  if (storedOutcome s c.scope c.requestId).all (shouldReplaceOutcome · c.payload) then
    Replaced s s' c.scope c.requestId (storedOutcome s c.scope c.requestId) c.payload
  else Untouched s s'

/-- A call that is made again later, and succeeds, counts its outcome once. -/
def RetryCounts (s s' : Store) : Prop := ∀ t ts, s.clock ≤ t →
  let again : Call := { c with ts := ts }
  Succeeded (run again.finalize (s'.advance t)).1 →
    CountedOnce again (s.advance t) (run again.finalize (s'.advance t)).2

/-- A call that fails has done nothing, and can be made again. -/
def AllOrNothing : Prop :=
  Untouched s (attempt c e s fault).2 ∧ RetryCounts c s (attempt c e s fault).2

end Calls

section Same

variable {s x : Store}

theorem Same.lookup (h : Same s x) (k : String) : x.lookup k = s.lookup k := by
  rw [TtlStore.Store.lookup, h.1 k, TtlStore.Store.lookup]

theorem Same.untouched (h : Same s x) : Untouched s x := fun _ _ => h.lookup _

theorem Same.advance (h : Same s x) {t : ℕ} (ht : s.clock ≤ t) :
    Same (s.advance t) (x.advance t) := by
  refine ⟨fun k => ?_, rfl⟩
  rw [TtlStore.Store.live_advance _ ht, TtlStore.Store.live_advance _ (h.2 ▸ ht), h.1 k]

theorem Same.alter (h : Same s x) (k : String) : Same s (x.alter k (x.lookup k)) := by
  refine ⟨fun k' => ?_, h.2⟩
  rw [← h.1 k']
  by_cases hk : k' = k
  · rw [hk, TtlStore.Store.live_alter, TtlStore.Store.lookup]
    cases x.live k <;> rfl
  · exact TtlStore.Store.live_setEntry_ne x _ hk

theorem CountedOnce.of_lookup {c : Call} {s' : Store} (h : CountedOnce c x s')
    (hx : ∀ k, x.lookup k = s.lookup k) : CountedOnce c s s' := by
  have hold : storedOutcome x c.scope c.requestId = storedOutcome s c.scope c.requestId :=
    storedOutcome_congr (hx _)
  unfold CountedOnce at h ⊢
  rw [hold] at h
  split
  · next hall =>
    rw [if_pos hall] at h
    refine ⟨fun τ f hf => ?_, fun τ => ?_, fun τ r => ?_, h.last⟩
    · rw [h.counter τ f hf, hx]
    · rw [h.events τ, hx]
    · rw [h.outcome τ r, hx]
  · next hall =>
    rw [if_neg hall] at h
    intro σ f
    rw [h σ f, hx]

theorem countedOnce (c : Call) (s : Store) (hok : Succeeded (run c.finalize s).1) :
    CountedOnce c s (run c.finalize s).2 := by
  obtain ⟨applied, old, hrun, hanswer⟩ := Call.succeeded_cases hok
  obtain ⟨raw, hraw, hparse, happlied, heffect⟩ := finalizeBody_ok c.requestId_ne
    (finalizeOutcome_ok hrun hanswer)
  have hold : storedOutcome s c.scope c.requestId = old := (storedOutcome_of_get hraw).trans hparse
  unfold CountedOnce
  rw [hold]
  have hall : old.all (shouldReplaceOutcome · c.payload) = applied := happlied.symm
  rw [hall]
  split
  · next htrue =>
    rw [if_pos htrue] at heffect
    exact heffect
  · next hfalse =>
    rw [if_neg hfalse] at heffect
    rw [heffect]
    exact fun _ _ => rfl

theorem Same.retryCounts (h : Same s x) (c : Call) : RetryCounts c s x := by
  intro t ts ht again hok
  exact (countedOnce again _ hok).of_lookup (h.advance ht).lookup

end Same

section Opens

variable {s x : Store} {p r : String} {K : Cmd → Store → Prog Unit → Prop}

/-- Behind a change of a key of the scope no command of the same part names that key again. -/
def Off (s : Store) (p : String) (c : Cmd) (s₁ : Store) {α : Type} (q : Prog α) : Prop :=
  (∃ f : OutcomeField, (∀ r, f ≠ .outcome r) ∧ c.key = f.key p) ∧
    s₁.lookup c.key ≠ s.lookup c.key ∧ Program.Issues (fun c' => c'.key ≠ c.key) q

theorem takingOne_opens {key : String} (hkey : ∃ f : OutcomeField, (∀ r, f ≠ .outcome r) ∧
    key = f.key p) (hx : Same s x) {f : ℤ → Prog Unit}
    (hf : ∀ n, f n = if 0 < n then incrby key (-1) >>= fun _ => pure () else pure ()) :
    Program.Opens exec (Same s) (fun c s₁ q => Off s p c s₁ q) (takingOne s key) x
      (readInt key >>= f) := by
  have hlookup := hx.lookup key
  have hread : ∀ t : Option Text, s.lookup key = t.map .text → readAs s key = intOfText t := by
    intro t ht
    unfold readAs
    rw [ht]
    cases t <;> rfl
  have hget : ∀ t : Option Text, s.lookup key = t.map .text → Program.Begins exec (Same s) [.get key] x
      (readInt key >>= f) x (f (intOfText t)) := by
    intro t ht
    have hexec : exec (.get key) x = (.ok t, x) := by
      rw [exec, hlookup, ht]
      cases t <;> rfl
    have hint : Program.Begins exec (Same s) [.get key] x (readInt key) x (pure (intOfText t)) :=
      .perform (c := Cmd.get key) hexec hx (.nil x _)
    exact hint.bind f
  cases hvalue : s.lookup key with
  -- no counter: there is nothing to take
  | none =>
    have hbegins := hget none hvalue
    have hzero : ¬0 < readAs s key := by
      rw [hread none hvalue]
      decide
    rw [hf, if_neg (show ¬0 < intOfText none by decide)] at hbegins
    unfold takingOne
    rw [if_neg hzero]
    exact .through rfl hbegins
  | some v =>
    cases v with
    -- a set under the key: reading it is refused
    | zset z =>
      have hexec : exec (.get key) x = (.error wrongType, x) := by
        rw [exec, hlookup, hvalue]
      exact .refused (.nil x _) (List.mem_append_left _ (List.mem_singleton_self _)) hexec
    | text t =>
      have hbegins := hget (some t) hvalue
      have hreads := hread (some t) hvalue
      rw [hf] at hbegins
      unfold takingOne
      by_cases hpos : 0 < intOfText (some t)
      · rw [if_pos hpos] at hbegins
        rw [hreads, if_pos hpos]
        cases hcount : counterOf (x.lookup key) with
        -- the text is no counter of Redis, though `int` reads it
        | none =>
          have hexec : exec (.incrby key (-1)) x = (.error notAnInteger, x) := by
            rw [exec, hcount]
          exact .refused hbegins (List.mem_append_right _ (List.mem_singleton_self _)) hexec
        | some n =>
          by_cases hrange : inRange (n + -1) = true
          · have hexec : exec (.incrby key (-1)) x =
                (.ok (n + -1), x.alter key (some (number (n + -1)))) := by
              rw [exec, hcount]
              exact if_pos hrange
            refine .changed rfl hbegins hexec ⟨hkey, ?_, .ret ()⟩
            -- a counter that goes down has changed
            intro hsame
            have hbefore : counterOf (s.lookup key) = some n := by rw [← hlookup, hcount]
            have hafter : counterOf ((x.alter key (some (number (n + -1)))).lookup key) =
                some (n + -1) := by
              rw [TtlStore.Store.lookup_alter, if_pos rfl, counterOf_number]
            rw [show (x.alter key (some (number (n + -1)))).lookup key = s.lookup key from hsame,
              hbefore] at hafter
            have heq := Option.some.inj hafter
            omega
          · have hexec : exec (.incrby key (-1)) x = (.error notAnInteger, x) := by
              rw [exec, hcount]
              exact if_neg hrange
            exact .refused hbegins (List.mem_append_right _ (List.mem_singleton_self _)) hexec
      · rw [if_neg hpos] at hbegins
        rw [hreads, if_neg hpos]
        exact .through rfl hbegins

theorem removingEvent_opens (hx : Same s x) :
    Program.Opens exec (Same s) (fun c s₁ q => Off s p c s₁ q) (removingEvent p s r) x
      (removeTimeoutEvent p r) := by
  have hlookup := hx.lookup (timeoutEventsKey p)
  have hkey : ∃ f : OutcomeField, (∀ r, f ≠ .outcome r) ∧ timeoutEventsKey p = f.key p :=
    ⟨.timeoutEvents, by simp, rfl⟩
  have hexec : ∀ z, zsetOf (x.lookup (timeoutEventsKey p)) = some z →
      exec (.zrem (timeoutEventsKey p) r) x = (.ok (if r ∈ z.members then 1 else 0 : ℕ),
        x.alter (timeoutEventsKey p) (ofZset (z.remove r))) := by
    intro z hz
    rw [exec, hz]
  have hthrough : ∀ z, zsetOf (x.lookup (timeoutEventsKey p)) = some z →
      ofZset (z.remove r) = x.lookup (timeoutEventsKey p) →
      Program.Begins exec (Same s) [.zrem (timeoutEventsKey p) r] x (removeTimeoutEvent p r)
        (x.alter (timeoutEventsKey p) (x.lookup (timeoutEventsKey p))) (pure ()) := by
    intro z hz hsame
    exact .perform (c := Cmd.zrem (timeoutEventsKey p) r) (hsame ▸ hexec z hz) (hx.alter _) (.nil _ _)
  unfold removingEvent
  dsimp only
  cases hvalue : s.lookup (timeoutEventsKey p) with
  | none =>
    have hlisted : ¬Listed s (timeoutEventsKey p) r := by
      unfold Listed
      rw [hvalue]
      exact not_false
    rw [hvalue] at hlookup
    rw [if_neg hlisted]
    exact .through rfl (hthrough .empty (by rw [hlookup]; rfl) (by rw [hlookup]; rfl))
  | some v =>
    rw [hvalue] at hlookup
    cases v with
    | text t =>
      have hlisted : ¬Listed s (timeoutEventsKey p) r := by
        unfold Listed
        rw [hvalue]
        exact not_false
      have hrefused : exec (.zrem (timeoutEventsKey p) r) x = (.error wrongType, x) := by
        rw [exec, hlookup]
        rfl
      rw [if_neg hlisted]
      exact .refused (.nil x _) (List.mem_singleton_self _) hrefused
    -- an empty set counts as changed, since removing from it deletes the key
    | zset z =>
      have hz : zsetOf (x.lookup (timeoutEventsKey p)) = some z := by
        rw [hlookup]
        rfl
      have hlistedIff : Listed s (timeoutEventsKey p) r ↔ z.entries = [] ∨ r ∈ z.members := by
        unfold Listed
        rw [hvalue]
      by_cases hlisted : Listed s (timeoutEventsKey p) r
      · rw [if_pos hlisted]
        refine .changed rfl (.nil x _) (hexec z hz) ⟨hkey, ?_, .ret ()⟩
        show (x.alter (timeoutEventsKey p) (ofZset (z.remove r))).lookup (timeoutEventsKey p) ≠
          s.lookup (timeoutEventsKey p)
        rw [TtlStore.Store.lookup_alter, if_pos rfl, hvalue]
        intro heq
        have hnone : (z.remove r).entries = [] → ofZset (z.remove r) = none := fun h => if_pos h
        by_cases hempty : (z.remove r).entries = []
        · rw [hnone hempty] at heq
          exact absurd heq (by simp)
        · have hsome : ofZset (z.remove r) = some (.zset (z.remove r)) := if_neg hempty
          rw [hsome] at heq
          have hz' : z.remove r = z := Value.zset.inj (Option.some.inj heq)
          rcases hlistedIff.mp hlisted with hentries | hmem
          · exact hempty (hz'.symm ▸ hentries)
          · have hgone : r ∉ (z.remove r).members := by simp
            exact hgone (hz'.symm ▸ hmem)
      · rw [if_neg hlisted]
        obtain ⟨hne, hmem⟩ := not_or.mp (mt hlistedIff.mpr hlisted)
        refine .through rfl (hthrough z hz ?_)
        have hkeep : z.remove r = z := SortedSet.remove_eq_self hmem
        rw [hkeep, hlookup, ofZset, if_neg hne]

theorem Off.bind {α β : Type} {c : Cmd} {s₁ : Store} {q : Prog α} {f : α → Prog β}
    (h : Off s p c s₁ q) (hf : ∀ a, Program.Issues (fun c' => c'.key ≠ c.key) (f a)) :
    Off s p c s₁ (q >>= f) := ⟨h.1, h.2.1, h.2.2.bind hf⟩

theorem key_of_takingOne {key : String} {c : Cmd} (h : (takingOne s key).change = some c) :
    c.key = key := by
  unfold takingOne at h
  by_cases hpos : 0 < readAs s key
  · rw [if_pos hpos] at h
    rw [← Option.some.inj h]
    rfl
  · rw [if_neg hpos] at h
    exact absurd h (by simp)

theorem removeTimeoutEvent_off {key : String} (h : timeoutEventsKey p ≠ key) :
    Program.Issues (fun c => c.key ≠ key) (removeTimeoutEvent p r) :=
  .bind (.perform h) fun _ => .pure _

theorem takingTimeout_opens (hr : r ≠ "") (hx : Same s x) (source : String) :
    Program.Opens exec (Same s) (fun c s₁ q => Off s p c s₁ q) (takingTimeout p s source r) x
      (if source = sourceTimeoutFallback then do
        decrementTimeoutCounter p
        whenRequestId (some r) fun r => removeTimeoutEvent p r
      else pure ()) := by
  unfold takingTimeout
  by_cases hsource : source = sourceTimeoutFallback
  · rw [if_pos hsource, if_pos hsource, whenRequestId_some hr]
    have hcounter : Program.Opens exec (Same s) (fun c s₁ q => Off s p c s₁ q)
        (takingOne s (timeoutKey p)) x (decrementTimeoutCounter p) :=
      takingOne_opens ⟨.timeout, by simp, rfl⟩ hx fun n => rfl
    apply hcounter.bind hx
    · intro _ s' hs'
      exact removingEvent_opens hs'
    · intro c s₁ q hchange hq
      apply hq.bind
      intro _
      rw [key_of_takingOne hchange]
      have hne : timeoutEventsKey p ≠ timeoutKey p := by
        intro heq
        have hfield : OutcomeField.timeoutEvents.key p = OutcomeField.timeout.key p := heq
        exact absurd (field_key_inj.mp hfield) (by simp)
      exact removeTimeoutEvent_off hne
  · rw [if_neg hsource, if_neg hsource]
    exact .through rfl (.nil x _)

theorem decision_key_ne {decision key : String} (h : counterKeyForDecision p decision = some key) :
    (∃ f : OutcomeField, (∀ r, f ≠ .outcome r) ∧ key = f.key p) ∧ timeoutKey p ≠ key ∧
      timeoutEventsKey p ≠ key := by
  rw [counterKey_map] at h
  obtain ⟨f, hf, rfl⟩ := Option.map_eq_some_iff.mp h
  obtain ⟨hcounter, htimeout⟩ := decisionField_isCounter hf
  refine ⟨⟨f, ?_, rfl⟩, ?_, ?_⟩
  · rintro r rfl
    simp [IsCounter] at hcounter
  · intro heq
    have hfield : OutcomeField.timeout.key p = f.key p := heq
    exact htimeout (field_key_inj.mp hfield).symm
  · intro heq
    have hfield : OutcomeField.timeoutEvents.key p = f.key p := heq
    rw [← field_key_inj.mp hfield] at hcounter
    exact not_counter_timeoutEvents hcounter

theorem takingDecision_opens (hx : Same s x) (decision : String) :
    Program.Opens exec (Same s) (fun c s₁ q => Off s p c s₁ q) (takingDecision p s decision) x
      (decrementCounterForDecision p decision) := by
  unfold takingDecision decrementCounterForDecision
  cases hkey : counterKeyForDecision p decision with
  | none => exact .through rfl (.nil x _)
  | some key =>
    apply takingOne_opens (decision_key_ne hkey).1 hx
    intro n
    by_cases hpos : 0 < n
    · rw [if_pos hpos, if_neg (not_le.mpr hpos)]
    · rw [if_neg hpos, if_pos (not_lt.mp hpos)]

theorem removeTimeouts_off {key : String} (hcounter : timeoutKey p ≠ key)
    (hevents : timeoutEventsKey p ≠ key) (source : String) :
    Program.Issues (fun c => c.key ≠ key) (if source = sourceTimeoutFallback then do
        decrementTimeoutCounter p
        whenRequestId (some r) fun r => removeTimeoutEvent p r
      else pure ()) := by
  have hread : Program.Issues (fun c => c.key ≠ key) (Redis.get (timeoutKey p)) :=
    .perform (c := Cmd.get (timeoutKey p)) hcounter
  have htake : Program.Issues (fun c => c.key ≠ key) (incrby (timeoutKey p) (-1)) :=
    .perform (c := Cmd.incrby (timeoutKey p) (-1)) hcounter
  apply Program.Issues.ite
  · intro _
    apply Program.Issues.bind
    · apply (hread.bind fun _ => .pure _).bind
      intro current
      exact .ite (fun _ => htake.bind fun _ => .pure _) fun _ => .pure _
    · intro _
      exact whenRequestId_issues (some r) fun r => removeTimeoutEvent_off hevents
  · intro _
    exact .pure _

theorem givingBack_opens (hr : r ≠ "") (hx : Same s x) (old : OutcomePayload) :
    Program.Opens exec (Same s) (fun c s₁ q => Off s p c s₁ q) (givingBack p s old r) x
      (removeOutcomeCounters p old (some r)) := by
  apply (takingDecision_opens hx old.decision).bind hx
  · intro _ s' hs'
    exact takingTimeout_opens hr hs' old.source
  · intro c s₁ q hchange hq
    apply hq.bind
    intro _
    unfold takingDecision at hchange
    cases hkey : counterKeyForDecision p old.decision with
    | none =>
      rw [hkey] at hchange
      exact absurd hchange (by simp)
    | some key =>
      rw [hkey] at hchange
      obtain ⟨_, hcounter, hevents⟩ := decision_key_ne hkey
      rw [key_of_takingOne hchange]
      exact removeTimeouts_off hcounter hevents old.source

end Opens

section Body

variable {s x : Store} {p r : String} {payload : OutcomePayload} {e : Exn}

def Changed (s : Store) (p : String) (x : Store) : Prop :=
  ∃ f : OutcomeField, x.lookup (f.key p) ≠ s.lookup (f.key p)

/-- A key of the scope has changed, and however what is left of a call ends, one has. -/
def Marks (e : Exn) (s : Store) (p : String) {α : Type} (_ : Cmd) (s₁ : Store) (q : Prog α) : Prop :=
  Changed s p s₁ ∧ ∀ fault, Changed s p (Program.run (Program.faulty exec e) q (s₁, fault)).2.1

theorem Marks.bind {α β : Type} {c : Cmd} {s₁ : Store} {q : Prog α} (h : Marks e s p c s₁ q)
    (f : α → β) : Marks e s p c s₁ (q >>= fun a => pure (f a)) := by
  refine ⟨h.1, fun fault => ?_⟩
  have hq := h.2 fault
  rw [Program.run_bind]
  rcases hrun : Program.run (Program.faulty exec e) q (s₁, fault) with ⟨_ | a, x⟩
  · rw [hrun] at hq
    exact hq
  · rw [hrun] at hq
    exact hq

theorem publishOutcome_marks {c : Cmd}
    (hstored : x.lookup (outcomeKey p r) = some (.text (.json payload)))
    (hnew : s.lookup (outcomeKey p r) ≠ some (.text (.json payload))) :
    Marks e s p c x (publishOutcome p payload (some r)) := by
  have hchanged : ∀ y : Store, y.lookup (outcomeKey p r) = some (.text (.json payload)) →
      Changed s p y := by
    intro y hy
    refine ⟨.outcome r, ?_⟩
    rw [show (OutcomeField.outcome r).key p = outcomeKey p r from rfl, hy]
    exact hnew.symm
  refine ⟨hchanged x hstored, fun fault => hchanged _ ?_⟩
  have hstays := (publishOutcome_offOutcome payload (some r)).run_faulty (m := exec) (e := e)
    (fun y => y.lookup (outcomeKey p r) = some (.text (.json payload)))
    (fun c y hc hy => (exec_lookup_ne c y (hc.ne r)).trans hy) hstored fault
  exact hstays

theorem exec_set (key : String) (v : Text) (x : Store) :
    exec (.set key v protectActionCounterTtlSeconds) x =
      (.ok (), x.put key (.text v) (protectActionCounterTtlSeconds * 1000)) := by
  rw [exec]
  exact if_neg (by decide)

theorem lookup_stored (p r : String) (v : Text) (x : Store) :
    (x.put (outcomeKey p r) (.text v) (protectActionCounterTtlSeconds * 1000)).lookup
      (outcomeKey p r) = some (.text v) := by
  rw [TtlStore.Store.lookup_put _ _ _ _ (by decide), if_pos rfl]

theorem store_opens (hnew : s.lookup (outcomeKey p r) ≠ some (.text (.json payload)))
    (x : Store) :
    Program.Opens exec (Same s) (Marks e s p)
      ⟨[], some (.set (outcomeKey p r) (.json payload) protectActionCounterTtlSeconds)⟩ x
      (replaceOutcome p payload r) :=
  .changed rfl (.nil x _) (exec_set _ _ x) (publishOutcome_marks (lookup_stored p r _ x) hnew)

theorem replaceOutcome_marks {c : Cmd} (hx : Changed s p x)
    (hnew : s.lookup (outcomeKey p r) ≠ some (.text (.json payload))) :
    Marks e s p c x (replaceOutcome p payload r) := by
  refine ⟨hx, fun fault => ?_⟩
  have hpublish : ∀ fault', Changed s p (Program.run (Program.faulty exec e)
      (publishOutcome p payload (some r))
      (x.put (outcomeKey p r) (.text (.json payload)) (protectActionCounterTtlSeconds * 1000),
        fault')).2.1 :=
    (publishOutcome_marks (c := c) (lookup_stored p r _ x) hnew).2
  unfold replaceOutcome Redis.set
  rw [Program.run_bind, Program.run_perform]
  match fault with
  | none =>
    rw [Program.faulty]
    dsimp only
    rw [exec_set]
    exact hpublish none
  | some ⟨0, false⟩ => exact hx
  | some ⟨0, true⟩ =>
    refine ⟨.outcome r, ?_⟩
    rw [Program.faulty]
    dsimp only
    rw [if_pos rfl, exec_set]
    rw [show (OutcomeField.outcome r).key p = outcomeKey p r from rfl, lookup_stored]
    exact hnew.symm
  | some ⟨n + 1, applied⟩ =>
    rw [Program.faulty]
    dsimp only
    rw [exec_set]
    exact hpublish (some ⟨n, applied⟩)

theorem Off.marks {c : Cmd} {s₁ : Store} {q : Prog Unit} (h : Off s p c s₁ q)
    (hnew : s.lookup (outcomeKey p r) ≠ some (.text (.json payload))) :
    Marks e s p c s₁ (q >>= fun _ => replaceOutcome p payload r) := by
  obtain ⟨⟨f, _, hf⟩, hchanged, hissues⟩ := h
  refine ⟨⟨f, hf ▸ hchanged⟩, fun fault => ?_⟩
  have hstays := hissues.run_faulty (m := exec) (e := e)
    (fun y => y.lookup c.key ≠ s.lookup c.key)
    (fun c' y hc' hy => fun heq => hy ((exec_lookup_ne c' y hc'.symm).symm.trans heq)) hchanged fault
  rw [Program.run_bind]
  rcases hrun : Program.run (Program.faulty exec e) q (s₁, fault) with ⟨_ | u, y, fault'⟩
  · rw [hrun] at hstays
    exact ⟨f, hf ▸ hstays⟩
  · rw [hrun] at hstays
    exact (replaceOutcome_marks (c := c) ⟨f, hf ▸ hstays⟩ hnew).2 fault'

theorem lookup_ne_payload {c : Call} (h : ∀ old, storedOutcome s c.scope c.requestId = some old →
    shouldReplaceOutcome old c.payload = true) :
    s.lookup (outcomeKey c.scope.id c.requestId) ≠ some (.text (.json c.payload)) := by
  intro heq
  have hget : s.lookup (c.scope.key (.outcome c.requestId)) =
      Option.map Value.text (some (.json c.payload)) := heq
  have hstored : storedOutcome s c.scope c.requestId = some c.payload :=
    (storedOutcome_of_get hget).trans c.parseLast_payload
  have hself := h c.payload hstored
  rw [shouldReplace_self] at hself
  exact absurd hself (by decide)

theorem replaced_opens {β : Type} (b : β)
    (hnew : s.lookup (outcomeKey p r) ≠ some (.text (.json payload))) (x : Store) (hx : Same s x) :
    Program.Opens exec (Same s) (Marks e s p)
      ⟨[], some (.set (outcomeKey p r) (.json payload) protectActionCounterTtlSeconds)⟩ x
      (replaceOutcome p payload r >>= fun _ => pure b) := by
  have hstore : Program.Opens exec (Same s) (Marks e s p) (Opening.andThen
      ⟨[], some (.set (outcomeKey p r) (.json payload) protectActionCounterTtlSeconds)⟩ ⟨[], none⟩) x
      (replaceOutcome p payload r >>= fun _ => pure b) :=
    (store_opens hnew x).bind hx (fun _ s' _ => .through rfl (.nil s' _))
      fun c s₁ q _ hq => hq.bind fun _ => b
  exact hstore

theorem finalizeBody_opens (c : Call) (e : Exn) (s : Store) :
    Program.Opens exec (Same s) (Marks e s c.scope.id) (opening c s) s
      (finalizeBody c.scope.id c.payload (some c.requestId)) := by
  have hs : Same s s := ⟨fun _ => rfl, rfl⟩
  have hkey : c.scope.key (.outcome c.requestId) = outcomeKey c.scope.id c.requestId := rfl
  unfold finalizeBody
  rw [truthy_some c.requestId_ne]
  dsimp only
  -- what is read as the stored outcome decides the rest
  have hread : ∀ raw : Option Text, s.lookup (outcomeKey c.scope.id c.requestId) = raw.map .text →
      Program.Opens exec (Same s) (Marks e s c.scope.id) (opening c s) s
        (Redis.get (outcomeKey c.scope.id c.requestId) >>= fun raw =>
          settleOutcome c.scope.id c.payload c.requestId (parseLast raw)) := by
    intro raw hraw
    have hexec : exec (.get (outcomeKey c.scope.id c.requestId)) s = (.ok raw, s) := by
      rw [exec, hraw]
      cases raw <;> rfl
    have hstored : storedOutcome s c.scope c.requestId = parseLast raw :=
      storedOutcome_of_get (hkey ▸ hraw)
    apply Program.Opens.perform (c := Cmd.get (outcomeKey c.scope.id c.requestId)) hexec hs
    rw [hstored]
    cases hparse : parseLast raw with
    | none =>
      have hnew := lookup_ne_payload (c := c) (s := s) fun old hold => by
        rw [hstored, hparse] at hold
        exact absurd hold (by simp)
      exact replaced_opens (true, none) hnew s hs
    | some old =>
      dsimp only
      unfold settleOutcome
      by_cases hreplace : shouldReplaceOutcome old c.payload = true
      · rw [if_pos hreplace]
        dsimp only
        rw [if_pos hreplace]
        have hnew := lookup_ne_payload (c := c) (s := s) fun old' hold => by
          rw [hstored, hparse] at hold
          rwa [← Option.some.inj hold]
        apply (givingBack_opens c.requestId_ne hs old).bind hs
        · intro _ s' hs'
          exact replaced_opens (true, some old) hnew s' hs'
        -- a counter has been given back, and the outcome is yet to be stored
        · intro cmd s₁ q _ hq
          rw [← Program.bind_assoc]
          exact (hq.marks hnew).bind fun _ => (true, some old)
      · rw [if_neg hreplace]
        dsimp only
        rw [if_neg hreplace]
        exact .through rfl (.nil s _)
  cases hvalue : s.lookup (outcomeKey c.scope.id c.requestId) with
  | none => exact hread none hvalue
  | some v =>
    cases v with
    | text t => exact hread (some t) hvalue
    | zset z =>
      have hexec : exec (.get (outcomeKey c.scope.id c.requestId)) s = (.error wrongType, s) := by
        rw [exec, hvalue]
      have hmem : Cmd.get (outcomeKey c.scope.id c.requestId) ∈ (opening c s).commands :=
        Opening.mem_andThen (List.mem_append_left _ (List.mem_singleton_self _))
      exact .refused (.nil s _) hmem hexec

end Body

section Bare

variable {p : String}

theorem readInt_bare (key : String) : Program.Bare (readInt key) :=
  (Program.Bare.perform _).bind fun _ => .pure _

theorem incrementWithTtl_bare (key : String) : Program.Bare (incrementWithTtl key) := by
  apply (Program.Bare.perform _).bind
  intro value
  exact .ite ((Program.Bare.perform _).bind fun _ => .pure _) (.pure _)

theorem whenRequestId_bare (requestId : Option String) {body : String → Prog Unit}
    (h : ∀ r, Program.Bare (body r)) : Program.Bare (whenRequestId requestId body) := by
  unfold whenRequestId
  split
  · exact .pure _
  · exact h _

theorem removeOutcomeCounters_bare (old : OutcomePayload) (requestId : Option String) :
    Program.Bare (removeOutcomeCounters p old requestId) := by
  have hdecision : Program.Bare (decrementCounterForDecision p old.decision) := by
    unfold decrementCounterForDecision
    split
    · exact .pure _
    · apply (readInt_bare _).bind
      intro current
      exact .ite (.pure _) ((Program.Bare.perform _).bind fun _ => .pure _)
  have htimeout : Program.Bare (decrementTimeoutCounter p) := by
    apply (readInt_bare _).bind
    intro current
    exact .ite ((Program.Bare.perform _).bind fun _ => .pure _) (.pure _)
  apply hdecision.bind
  intro _
  apply Program.Bare.ite _ (.pure _)
  apply htimeout.bind
  intro _
  exact whenRequestId_bare requestId fun r => (Program.Bare.perform _).bind fun _ => .pure _

theorem replaceOutcome_bare (payload : OutcomePayload) (r : String) :
    Program.Bare (replaceOutcome p payload r) := by
  have hdecision : Program.Bare (incrementCounterForDecision p payload.decision) := by
    unfold incrementCounterForDecision
    split
    · exact .pure _
    · exact incrementWithTtl_bare _
  have hcounters : Program.Bare (applyOutcomeCounters p payload (some r)) := by
    apply hdecision.bind
    intro _
    apply Program.Bare.ite _ (.pure _)
    apply (incrementWithTtl_bare _).bind
    intro _
    apply whenRequestId_bare
    intro r'
    exact (Program.Bare.perform _).bind fun _ => (Program.Bare.perform _).bind fun _ => .pure _
  exact (Program.Bare.perform _).bind fun _ => hcounters.bind fun _ => .perform _

theorem finalizeBody_bare (c : Call) :
    Program.Bare (finalizeBody c.scope.id c.payload (some c.requestId)) := by
  unfold finalizeBody
  rw [truthy_some c.requestId_ne]
  apply (Program.Bare.perform _).bind
  intro raw
  unfold settleOutcome
  split
  · exact (replaceOutcome_bare _ _).bind fun _ => .pure _
  · apply Program.Bare.ite _ (.pure _)
    apply (removeOutcomeCounters_bare _ _).bind
    intro _
    exact (replaceOutcome_bare _ _).bind fun _ => .pure _

end Bare

section Attempt

variable {c : Call} {e : Exn} {s x : Store} {fault : Option Fault}

theorem attempt_eq (c : Call) (e : Exn) (s : Store) (fault : Option Fault) :
    attempt c e s fault =
      let served := Program.run (Program.faulty exec e)
        (finalizeBody c.scope.id c.payload (some c.requestId)) (s, fault)
      (match served.1 with
        | .ok answer => .ok answer
        | .error _ => .ok (false, none), served.2.1) := by
  have hcaught := Program.run_tryCatch (Program.faulty exec e)
    (finalizeBody c.scope.id c.payload (some c.requestId)) (fun _ => pure (false, none)) (s, fault)
  have hfinalize : Program.run (Program.faulty exec e) c.finalize (s, fault) = _ := hcaught
  unfold attempt
  rw [hfinalize]
  rcases Program.run (Program.faulty exec e) (finalizeBody c.scope.id c.payload (some c.requestId))
    (s, fault) with ⟨_ | _, _⟩
  · rfl
  · rfl

theorem Same.reply (h : Same s x) (cmd : Cmd) : (exec cmd x).1 = (exec cmd s).1 :=
  (exec_congr cmd (h.lookup cmd.key)).1

theorem allOrNothing_of_same (h : Same s (attempt c e s fault).2) : AllOrNothing c e s fault :=
  ⟨h.untouched, h.retryCounts c⟩

theorem not_allOrNothing (h : Changed s c.scope.id (attempt c e s fault).2) :
    ¬AllOrNothing c e s fault := by
  intro hall
  obtain ⟨f, hf⟩ := h
  exact hf (hall.1 c.scope f)

theorem answer_ne {s' : Store} {applied : Bool} {old : Option OutcomePayload}
    (h : run (finalizeBody c.scope.id c.payload (some c.requestId)) s = (.ok (applied, old), s')) :
    (applied, old) ≠ (false, none) := by
  obtain ⟨_, _, _, happlied, _⟩ := finalizeBody_ok c.requestId_ne h
  intro heq
  obtain ⟨rfl, rfl⟩ := Prod.mk.inj heq
  exact absurd happlied (by simp)

/-- A call that answers `(false, none)` has done nothing, and a later one counts the outcome once,
exactly where the exception comes no later than the first command that changes something, or the
store itself refuses one of the commands up to that one. -/
theorem allOrNothing_iff (hfail : (attempt c e s fault).1 = .ok (false, none)) :
    AllOrNothing c e s fault ↔
      ¬Reaches fault ((opening c s).quiet.length + 1) ∨ Refused c s := by
  have hs : Same s s := ⟨fun _ => rfl, rfl⟩
  have hbare := finalizeBody_bare c
  have hattempt := attempt_eq c e s fault
  cases finalizeBody_opens c e s with
  -- a command is refused before anything has changed
  | @refused cs cmd k s' e' h hmem hc =>
    have hsame : Same s (attempt c e s fault).2 := by
      rw [hattempt]
      exact h.run_refused hbare hs hc fault
    have hrefused : Refused c s := by
      refine ⟨cmd, hmem, ?_⟩
      rw [← (h.final hs).reply cmd, hc]
      rfl
    exact iff_of_true (allOrNothing_of_same hsame) (.inr hrefused)
  -- nothing is to be changed, so the call cannot have failed without a fault
  | @through s' a hchange h =>
    have hsame : Same s (attempt c e s fault).2 := by
      rw [hattempt]
      exact h.run_ended hbare hs rfl fault
    refine iff_of_true (allOrNothing_of_same hsame) (.inl ?_)
    obtain ⟨f, x, hf, hlt, _, _⟩ | ⟨_, hrun⟩ := h.run_cases (e := e) hbare hs fault
    · intro hreach
      have hdone := hreach f hf
      have happlied := f.applied.toNat_le
      unfold Fault.done at hdone
      omega
    · have hplain : run (finalizeBody c.scope.id c.payload (some c.requestId)) s = (.ok a, s') := by
        have hnone : Program.run (Program.faulty exec e)
            (finalizeBody c.scope.id c.payload (some c.requestId)) (s, none) =
              Program.run (Program.faulty exec e) (.ret a) (s', none) := h.run_of_le (by simp)
        rw [Program.run_faulty_none, Program.run_ret] at hnone
        obtain ⟨hanswer, hstate⟩ := Prod.mk.inj hnone
        exact Prod.ext hanswer (Prod.mk.inj hstate).1
      rw [hattempt, hrun] at hfail
      exact absurd (Except.ok.inj hfail) (answer_ne hplain)
  -- a command changes something: it is too late once the fault comes behind it
  | @changed cmd k s' s₁ r hchange h hc hk =>
    have hopen : ¬Refused c s := by
      rintro ⟨cmd', hmem, hnone⟩
      have hanswered : ∃ r', (exec cmd' s).1 = .ok r' := by
        rcases List.mem_append.mp hmem with hquiet | hlast
        · obtain ⟨x, r', hx, hr'⟩ := h.answered hs hquiet
          exact ⟨r', (hx.reply cmd').symm.trans hr'⟩
        · rw [hchange] at hlast
          obtain rfl : cmd' = cmd := List.mem_singleton.mp hlast
          exact ⟨r, ((h.final hs).reply cmd').symm.trans (congrArg Prod.fst hc)⟩
      obtain ⟨r', hr'⟩ := hanswered
      rw [hr'] at hnone
      exact Option.some_ne_none _ hnone
    obtain ⟨f, x, hf, hlt, hx, hrun⟩ | ⟨hpos, hrun⟩ := h.run_cases (e := e) hbare hs fault
    · have hsame : Same s (attempt c e s fault).2 := by
        rw [hattempt, hrun]
        exact hx
      refine iff_of_true (allOrNothing_of_same hsame) (.inl ?_)
      intro hreach
      have hdone := hreach f hf
      have happlied := f.applied.toNat_le
      unfold Fault.done at hdone
      omega
    · have hlater : Reaches (later (opening c s).quiet.length fault) 1 ↔
          Reaches fault ((opening c s).quiet.length + 1) := reaches_later hpos
      have hstate : (attempt c e s fault).2 = (Program.run (Program.faulty exec e) (.call cmd k)
          (s', later (opening c s).quiet.length fault)).2.1 := by
        rw [hattempt, hrun]
      rw [← hlater, or_iff_left hopen]
      by_cases hreach : Reaches (later (opening c s).quiet.length fault) 1
      · refine iff_of_false (not_allOrNothing ?_) (not_not.mpr hreach)
        rw [hstate]
        obtain hrun' | ⟨fault', hrun'⟩ := Program.run_call_of_reaches (e := e) (h.bare hbare) hc hreach
        · rw [hrun']
          exact hk.1
        · rw [hrun']
          exact hk.2 fault'
      · refine iff_of_true (allOrNothing_of_same ?_) hreach
        rw [hstate, Program.run_call_of_not_reaches (h.bare hbare) hreach]
        exact h.final hs

end Attempt

section Sample

def sampleCall : Call where
  scope := sampleScope
  decision := "allow"
  reason := "ok"
  source := sourceLive
  requestId := "r1"
  ts := 0
  madeAt := 0
  decision_ne := timeoutAllow.decision_ne
  requestId_ne := liveBlock.requestId_ne

def refusedConnection : Exn := .response "Error while reading from socket"

/-- The exception comes between the outcome and its counter: the outcome stays without being
counted, and the call that is made again is taken for a duplicate. -/
theorem failed_call_leaves_outcome :
    let failed := attempt sampleCall refusedConnection (.empty 0) (some ⟨2, false⟩)
    let again := run sampleCall.finalize (failed.2.advance 1000)
    failed.1 = .ok (false, none) ∧ ¬AllOrNothing sampleCall refusedConnection (.empty 0) (some ⟨2, false⟩) ∧
      again.1 = .ok (false, some sampleCall.payload) ∧
      counterOf (again.2.lookup (sampleCall.scope.key .allow)) = some 0 := by
  refine ⟨by decide +kernel, ?_, by decide +kernel, by decide +kernel⟩
  intro hall
  have houtcome := congrArg Option.isSome (hall.1 sampleCall.scope (.outcome "r1"))
  exact absurd houtcome (by decide +kernel)

/-- Where the exception comes with the outcome itself, the call has done nothing. -/
theorem failed_call_undone :
    AllOrNothing sampleCall refusedConnection (.empty 0) (some ⟨1, false⟩) := by
  have hfail : (attempt sampleCall refusedConnection (.empty 0) (some ⟨1, false⟩)).1 =
      .ok (false, none) := by decide +kernel
  exact (allOrNothing_iff hfail).mpr (.inl (by decide +kernel))

end Sample

end Rheonic.OutcomeFaults
