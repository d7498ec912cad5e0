import Rheonic.FinalizeFootprint
import Rheonic.OutcomeConservation
import Rheonic.Lib.Interleave

namespace Rheonic.ProtectActionStore
open CommandProgram Redis Keys PyText PriorityRegister

namespace Call

abbrev readCmd (c : Call) : Cmd := .get (c.scope.key (.outcome c.requestId))

def writeCmd (c : Call) : Cmd :=
  .set (c.scope.key (.outcome c.requestId)) (.json c.payload) protectActionCounterTtlSeconds

/-- What a call does once it has read the stored outcome. -/
def afterRead (c : Call) : Except Exn (Option Text) → Prog (Bool × Option OutcomePayload)
  | .ok raw =>
    tryCatchThe Exn (settleOutcome c.scope.id c.payload c.requestId (parseLast raw))
      fun _ => pure (false, none)
  | .error _ => pure (false, none)

theorem afterRead_ok (c : Call) (raw : Option Text) :
    c.afterRead (.ok raw) =
      tryCatchThe Exn (settleOutcome c.scope.id c.payload c.requestId (parseLast raw))
        fun _ => pure (false, none) := rfl

theorem finalize_eq (c : Call) : c.finalize = .call c.readCmd c.afterRead := by
  have hbody : finalizeBody c.scope.id c.payload (some c.requestId) =
      get (c.scope.key (.outcome c.requestId)) >>= fun raw =>
        settleOutcome c.scope.id c.payload c.requestId (parseLast raw) := by
    unfold finalizeBody
    rw [truthy_some c.requestId_ne]
    rfl
  have hcatch : c.finalize = tryCatchThe Exn
      (finalizeBody c.scope.id c.payload (some c.requestId)) fun _ => pure (false, none) := rfl
  rw [hcatch, hbody]
  show Program.call _ _ = Program.call _ _
  congr 1
  funext reply
  cases reply <;> rfl

theorem finalize_issues (c : Call) :
    Program.Issues (Footprint c.scope c.requestId c.payload) c.finalize :=
  ((finalizeBody_within c.requestId_ne).tryCatch fun _ => .pure _).issues

end Call

/-- A live call and a fallback call for one request. -/
structure Rivals where
  live : Call
  fallback : Call
  counter : OutcomeField
  live_source : live.source = sourceLive
  fallback_source : IsFallback fallback.source
  scope_eq : fallback.scope = live.scope
  request_eq : fallback.requestId = live.requestId
  counter_eq : decisionField live.decision = some counter

/-- The stores agree on every key of the scope but the last-action record. -/
def SameBut (k₀ : String) (s t : Store) : Prop := ∀ k, k ≠ k₀ → s.lookup k = t.lookup k

theorem sameBut_equivalence (k₀ : String) : Equivalence (SameBut k₀) where
  refl _ _ _ := rfl
  symm h k hk := (h k hk).symm
  trans h h' k hk := (h k hk).trans (h' k hk)

def Tick (s s' : Store) : Prop := ∃ t, s.clock ≤ t ∧ s.Lasts t ∧ s' = s.advance t

theorem Tick.lookup_eq {s s' : Store} (h : Tick s s') (k : String) :
    s'.lookup k = s.lookup k := by
  obtain ⟨t, hclock, hlasts, rfl⟩ := h
  exact s.lookup_advance hclock hlasts k

section Footprint

variable {σ : Scope} {r : String} {p : OutcomePayload} {c : Cmd}

theorem Footprint.outcome (hc : Footprint σ r p c) (s : Store) :
    (exec c s).2.lookup (σ.key (.outcome r)) = s.lookup (σ.key (.outcome r)) ∨
      (exec c s).2.lookup (σ.key (.outcome r)) = some (.text (.json p)) := by
  by_cases hkey : σ.key (.outcome r) = c.key
  · cases c with
    | get k =>
      left
      rw [exec]
      split <;> rfl
    | set k v ttl =>
      obtain ⟨-, rfl, httl⟩ := hc
      have hkey : σ.key (.outcome r) = k := hkey
      right
      rw [exec, if_neg (by omega), TtlStore.Store.lookup_put _ _ _ _ (by omega), if_pos hkey]
    | incrby k n =>
      obtain ⟨⟨f, hf, rfl⟩, -⟩ := hc
      have hkey : σ.key (.outcome r) = σ.key f := hkey
      rw [Scope.key_inj] at hkey
      obtain ⟨-, rfl⟩ := hkey
      simp [IsCounter] at hf
    | expire k ttl =>
      left
      have hpos : 0 < ttl := hc.1
      rw [exec, if_neg (by omega), TtlStore.Store.lookup_expireIn _ _ _ (by omega)]
    | zadd k member score =>
      obtain rfl : k = _ := hc
      simp [Cmd.key] at hkey
    | zrem k member =>
      obtain rfl : k = _ := hc
      simp [Cmd.key] at hkey
    | _ => exact absurd hc id
  · exact .inl (exec_lookup_ne c s hkey)

theorem Footprint.congruent (hc : Footprint σ r p c) {I : Store → Prop}
    (hI : ∀ s, I s → I (exec c s).2) :
    Program.Congruent exec I (SameBut (σ.key .last)) c := by
  refine ⟨hI, fun s t hst => ?_⟩
  by_cases hlast : c.key = σ.key .last
  -- the last decision is written, but never read by the call
  · have hset : ∃ v ttl, c = .set (σ.key .last) v ttl ∧ 0 < ttl := by
      cases c with
      | set k v ttl => exact ⟨v, ttl, by rw [show k = _ from hlast], hc.2.2⟩
      | get k =>
        rw [show k = _ from hlast] at hc
        rcases hc with hc | ⟨f, hf, hc⟩
        · simp at hc
        · rw [Scope.key_inj] at hc
          obtain ⟨-, rfl⟩ := hc
          simp [IsCounter] at hf
      | incrby k n =>
        obtain ⟨⟨f, hf, rfl⟩, -⟩ := hc
        obtain ⟨-, rfl⟩ := Scope.key_inj.mp hlast
        simp [IsCounter] at hf
      | expire k ttl =>
        obtain ⟨-, f, hf, rfl⟩ := hc
        exact absurd (Scope.key_inj.mp hlast).2 hf
      | zadd k member score =>
        obtain rfl : k = _ := hc
        simp [Cmd.key] at hlast
      | zrem k member =>
        obtain rfl : k = _ := hc
        simp [Cmd.key] at hlast
      | _ => exact absurd hc id
    obtain ⟨v, ttl, rfl, httl⟩ := hset
    simp only [exec, if_neg (show ¬ttl = 0 by omega)]
    refine ⟨trivial, fun k hk => ?_⟩
    rw [TtlStore.Store.lookup_put _ _ _ _ (by omega), TtlStore.Store.lookup_put _ _ _ _ (by omega),
      if_neg hk, if_neg hk, hst k hk]
  -- on every other key the two stores agree
  · obtain ⟨hreply, hlookup⟩ := exec_congr c (hst c.key hlast)
    refine ⟨hreply, fun k hk => ?_⟩
    by_cases hkc : k = c.key
    · rw [hkc, hlookup]
    · rw [exec_lookup_ne c s hkc, exec_lookup_ne c t hkc, hst k hk]

end Footprint

namespace Rivals

variable (P : Rivals)

def countCmd : Cmd := .incrby (P.live.scope.key P.counter) 1

/-- The stored outcome leaves nothing to do for the live call. -/
def Refused (s : Store) : Prop :=
  ∃ p, storedOutcome s P.live.scope P.live.requestId = some p ∧
    shouldReplaceOutcome p P.live.payload = false

theorem shouldReplace_live {p : OutcomePayload} (hp : p.source = P.fallback.source) :
    shouldReplaceOutcome p P.live.payload = false := by
  apply shouldReplaceOutcome_rankedBy.refuses
  show sourceRank P.live.source < sourceRank p.source
  rw [hp, sourceRank_eq_two.mpr P.fallback_source, P.live_source]
  decide

theorem fallback_footprint : Program.Issues
    (Footprint P.live.scope P.live.requestId P.fallback.payload) P.fallback.finalize := by
  have h := P.fallback.finalize_issues
  rwa [P.scope_eq, P.request_eq] at h

theorem storedOutcome_json {s : Store} {σ : Scope} {r : String} {c : Call}
    (h : s.lookup (σ.key (.outcome r)) = some (.text (.json c.payload))) :
    storedOutcome s σ r = some c.payload := by
  rw [storedOutcome, h]
  exact c.parseLast_payload

theorem Refused.exec {s : Store} {c : Cmd}
    (hc : Footprint P.live.scope P.live.requestId P.fallback.payload c) (h : P.Refused s) :
    P.Refused (exec c s).2 := by
  rcases hc.outcome s with hkeep | hown
  · obtain ⟨p, hp, hrefuse⟩ := h
    exact ⟨p, (storedOutcome_congr hkeep).trans hp, hrefuse⟩
  · exact ⟨_, storedOutcome_json hown, P.shouldReplace_live rfl⟩

theorem refused_after_write (s : Store) : P.Refused (Redis.exec P.fallback.writeCmd s).2 := by
  refine ⟨P.fallback.payload, storedOutcome_json ?_, P.shouldReplace_live rfl⟩
  rw [Call.writeCmd, Redis.exec, if_neg (by decide),
    TtlStore.Store.lookup_put _ _ _ _ (by decide), P.scope_eq, P.request_eq, if_pos rfl]

theorem Refused.tick {s s' : Store} (ht : Tick s s') (h : P.Refused s) : P.Refused s' := by
  obtain ⟨p, hp, hrefuse⟩ := h
  exact ⟨p, (storedOutcome_congr (ht.lookup_eq _)).trans hp, hrefuse⟩

theorem live_stutters : Program.Stutters Redis.exec P.Refused
    (SameBut (P.live.scope.key .last)) P.live.finalize := by
  rw [Call.finalize_eq]
  have hread : ∀ s, P.Refused s → ∃ raw p, Redis.exec P.live.readCmd s = (.ok raw, s) ∧
      parseLast raw = some p ∧ shouldReplaceOutcome p P.live.payload = false := by
    intro s hs
    obtain ⟨p, hp, hrefuse⟩ := hs
    unfold storedOutcome at hp
    split at hp
    · next t ht => exact ⟨some t, p, by rw [Redis.exec, ht], hp, hrefuse⟩
    · simp at hp
  refine .call _ _ (fun s hs => ?_) (fun s hs => ?_) fun s hs => ?_
  · obtain ⟨raw, p, hexec, -⟩ := hread s hs
    rwa [hexec]
  · obtain ⟨raw, p, hexec, -⟩ := hread s hs
    rw [hexec]
    exact fun _ _ => rfl
  · obtain ⟨raw, p, hexec, hparse, hrefuse⟩ := hread s hs
    have hend : P.live.afterRead (.ok raw) = .ret (false, some p) := by
      rw [Call.afterRead_ok, hparse, settleOutcome, if_neg (by simp [hrefuse])]
      rfl
    rw [hexec, hend]
    exact .ret _

variable {P}

/-- After the fallback call's own write, or where the live call is refused from the start, the
pair ends as the fallback call alone. -/
theorem ends_as_fallback {s s₁ s' : Store} {q₁ : Prog (Bool × Option OutcomePayload)}
    {T : List Cmd} {tr : List (Side × Cmd)} {a b : Except Exn (Bool × Option OutcomePayload)}
    (halone : Program.Alone Redis.exec Tick P.fallback.finalize s T q₁ s₁)
    (hrefused : P.Refused s₁)
    (h : Program.Interleaved Redis.exec Tick P.live.finalize q₁ s₁ tr a b s') :
    SameBut (P.live.scope.key .last) s' (run P.fallback.finalize s).2 := by
  have hE := sameBut_equivalence (P.live.scope.key .last)
  have hcongr := P.fallback_footprint.mono fun c hc =>
    hc.congruent (I := P.Refused) fun s hs => hs.exec P hc
  have htick : ∀ t t₁, Tick t t₁ → SameBut (P.live.scope.key .last) t t₁ :=
    fun t t₁ ht k _ => (ht.lookup_eq k).symm
  obtain ⟨t₁, ht₁, hrun, hcongr₁⟩ := halone.run_eq hE hcongr htick (hE.refl s)
  have hend := h.right_as_alone hE P.live_stutters hcongr₁
    (fun t t₁ ht => ⟨htick t t₁ ht, fun hs => hs.tick P ht⟩) hrefused ht₁
  rw [hrun] at hend
  exact hend.2

/-- The commands that leave everything but the last-action record. -/
def Quiet (σ : Scope) : Cmd → Prop
  | .expire _ ttl => 0 < ttl
  | .set k _ ttl => k = σ.key .last ∧ 0 < ttl
  | _ => False

theorem Quiet.sameBut {σ : Scope} {c : Cmd} (hc : Quiet σ c) (s : Store) :
    SameBut (σ.key .last) s (Redis.exec c s).2 := by
  intro k hk
  cases c with
  | expire k' ttl =>
    have hpos : 0 < ttl := hc
    rw [Redis.exec, if_neg (by omega), TtlStore.Store.lookup_expireIn _ _ _ (by omega)]
  | set k' v ttl =>
    obtain ⟨rfl, hpos⟩ := hc
    exact (exec_lookup_ne (.set (σ.key .last) v ttl) s hk).symm
  | _ => exact absurd hc id

theorem live_after_count : Program.After P.countCmd (Quiet P.live.scope) P.live.finalize := by
  -- behind the count come its expiry and the last decision
  have hlast : Program.Issues (Quiet P.live.scope) (Redis.set (lastKey P.live.scope.id)
      (.json P.live.payload) protectActionCounterTtlSeconds) := .perform ⟨rfl, by decide⟩
  have hcount : Program.After P.countCmd (Quiet P.live.scope)
      (incrementCounterForDecision P.live.scope.id P.live.payload.decision) := by
    rw [incrementCounterForDecision, counterKey_eq]
    rw [show decisionField P.live.payload.decision = some P.counter from P.counter_eq]
    apply Program.After.bind (.perform _)
    intro value
    apply Program.Issues.ite
    · intro _
      exact .bind (.perform (by decide : 0 < protectActionCounterTtlSeconds)) fun _ => .pure _
    · intro _
      exact .pure _
  have happly : Program.After P.countCmd (Quiet P.live.scope)
      (applyOutcomeCounters P.live.scope.id P.live.payload (some P.live.requestId)) := by
    apply Program.After.bind hcount
    intro _
    rw [if_neg (by rw [show P.live.payload.source = sourceLive from P.live_source]; decide)]
    exact .pure _
  -- the stored outcome is set before the count
  have hreplace : Program.After P.countCmd (Quiet P.live.scope)
      (replaceOutcome P.live.scope.id P.live.payload P.live.requestId) := by
    apply Program.After.bind_of_ne (.perform (by simp [countCmd]))
    intro _
    exact happly.bind fun _ => hlast
  have hsettle : ∀ old, Program.After P.countCmd (Quiet P.live.scope)
      (settleOutcome P.live.scope.id P.live.payload P.live.requestId old) := by
    intro old
    cases old with
    | none => exact hreplace.bind fun _ => .pure _
    | some existing =>
      rw [settleOutcome]
      split
      -- giving back counts down, which is another command
      · have hremove := (removeOutcomeCounters_within (σ := P.live.scope) existing
          P.live.requestId_ne).issues
        apply Program.After.bind_of_ne (hremove.mono ?_)
        · intro _
          exact hreplace.bind fun _ => .pure _
        · intro c hc hcount
          subst hcount
          simp [Removal, countCmd] at hc
      · exact .of_issues (.pure _)
  have hbody : Program.After P.countCmd (Quiet P.live.scope)
      (finalizeBody P.live.scope.id P.live.payload (some P.live.requestId)) := by
    rw [finalizeBody, truthy_some P.live.requestId_ne]
    exact .bind_of_ne (.perform (by simp [countCmd])) fun raw => hsettle _
  exact hbody.tryCatch fun _ => .pure _

/-- The live call's write is what the outcome key holds. -/
def Written (P : Rivals) (s : Store) : Prop :=
  s.lookup (P.live.scope.key (.outcome P.live.requestId)) = some (.text (.json P.live.payload))

theorem Written.tick {s s' : Store} (ht : Tick s s') (h : P.Written s) : P.Written s' :=
  (ht.lookup_eq _).trans h

theorem written_of_alone {s s₁ : Store} {p₁ : Prog (Bool × Option OutcomePayload)}
    {T : List Cmd} (h : Program.Alone Redis.exec Tick P.live.finalize s T p₁ s₁)
    (hmem : P.live.writeCmd ∈ T) : P.Written s₁ := by
  refine h.establishes (I := P.Written) P.live.finalize_issues (fun c t hc ht => ?_) (fun t _ => ?_)
    (fun t t₁ ht hw => hw.tick ht) (.inl hmem)
  · rcases hc.outcome t with hkeep | hown
    · exact hkeep.trans ht
    · exact hown
  · show (Redis.exec (.set _ _ _) t).2.lookup _ = _
    rw [Redis.exec, if_neg (by decide), TtlStore.Store.lookup_put _ _ _ _ (by decide), if_pos rfl]

/-- When the live call has counted its outcome before the fallback call reads anything but that
outcome, the pair ends as the two calls in turn. -/
theorem ends_in_turn {s s₁ s' : Store} {p₁ q₁ : Prog (Bool × Option OutcomePayload)}
    {T : List Cmd} {tr : List (Side × Cmd)} {a b : Except Exn (Bool × Option OutcomePayload)}
    (halone : Program.Alone Redis.exec Tick P.live.finalize s T p₁ s₁)
    (hwrite : P.live.writeCmd ∈ T) (hcount : P.countCmd ∈ T)
    (hq : ∀ t, P.Written t → run q₁ t = run P.fallback.finalize t)
    (hissues : Program.Issues (Footprint P.live.scope P.live.requestId P.fallback.payload) q₁)
    (h : Program.Interleaved Redis.exec Tick p₁ q₁ s₁ tr a b s') :
    SameBut (P.live.scope.key .last) s'
      (run P.fallback.finalize (run P.live.finalize s).2).2 := by
  have hE := sameBut_equivalence (P.live.scope.key .last)
  have htick : ∀ t t₁, Tick t t₁ → SameBut (P.live.scope.key .last) t t₁ :=
    fun t t₁ ht k _ => (ht.lookup_eq k).symm
  have hquiet := halone.after P.live_after_count (.inl hcount)
  have hlive := P.live.finalize_issues.mono fun c hc =>
    hc.congruent (I := fun _ => True) fun _ _ => trivial
  obtain ⟨t₁, ht₁, hrun, -⟩ := halone.run_eq hE hlive htick (hE.refl s)
  have hrest : SameBut (P.live.scope.key .last) t₁ (run P.live.finalize s).2 := by
    have hpreserve := hquiet.run_preserves Redis.exec (SameBut (P.live.scope.key .last) t₁)
      (fun c t hc ht => hE.trans ht (hc.sameBut t)) (hE.refl t₁)
    rwa [hrun] at hpreserve
  have hsame := hE.trans ht₁ hrest
  have hwritten : P.Written (run P.live.finalize s).2 :=
    (hsame _ (by simp)).symm.trans (written_of_alone halone hwrite)
  have hstutters := (hquiet.mono fun c hc => fun t (_ : True) =>
    (⟨trivial, hc.sameBut t⟩ : True ∧ _)).stutters (m := Redis.exec) (I := fun _ => True)
  have hend := h.right_as_alone hE hstutters
    (hissues.mono fun c hc => hc.congruent (I := fun _ => True) fun _ _ => trivial)
    (fun t t₁ ht => ⟨htick t t₁ ht, fun _ => trivial⟩) trivial hsame
  have hfinal := hend.2
  rw [show Program.run Redis.exec q₁ _ = _ from hq _ hwritten] at hfinal
  exact hfinal

/-- What the fallback call has left to do when it has read the live call's outcome. -/
def fallbackRest (P : Rivals) : Prog (Bool × Option OutcomePayload) :=
  P.fallback.afterRead (.ok (some (.json P.live.payload)))

theorem Written.read {t : Store} (h : P.Written t) :
    Redis.exec P.fallback.readCmd t = (.ok (some (.json P.live.payload)), t) := by
  have hlookup : t.lookup (P.fallback.scope.key (.outcome P.fallback.requestId)) =
      some (.text (.json P.live.payload)) := by rw [P.scope_eq, P.request_eq, h]
  rw [Redis.exec, hlookup]

theorem run_fallbackRest {t : Store} (h : P.Written t) :
    run P.fallbackRest t = run P.fallback.finalize t := by
  rw [Call.finalize_eq, run, run, Program.run, h.read]
  rfl

theorem fallbackRest_issues : Program.Issues
    (Footprint P.live.scope P.live.requestId P.fallback.payload) P.fallbackRest := by
  have h := (settleOutcome_within (σ := P.fallback.scope) (p := P.fallback.payload)
    (parseLast (some (.json P.live.payload))) P.fallback.requestId_ne).issues
  rw [P.scope_eq, P.request_eq] at h
  rw [fallbackRest, Call.afterRead_ok, P.scope_eq, P.request_eq]
  exact h.tryCatch fun _ => .pure _

theorem fallbackRest_eq : ∃ k,
    P.fallbackRest = .call (.get (P.live.scope.key P.counter)) k := by
  have hreplaces : shouldReplaceOutcome P.live.payload P.fallback.payload = true := by
    apply shouldReplaceOutcome_rankedBy.prefers
    show sourceRank P.live.source < sourceRank P.fallback.source
    rw [sourceRank_eq_two.mpr P.fallback_source, P.live_source]
    decide
  have hdecrement : ∃ k : Except Exn (Option Text) → Prog Unit,
      decrementCounterForDecision P.live.scope.id P.live.payload.decision =
        .call (.get (P.live.scope.key P.counter)) k := by
    unfold decrementCounterForDecision
    rw [counterKey_eq, show decisionField P.live.payload.decision = some P.counter from P.counter_eq]
    exact ⟨_, rfl⟩
  obtain ⟨k, hk⟩ := hdecrement
  rw [fallbackRest, Call.afterRead_ok, P.live.parseLast_payload, settleOutcome, if_pos hreplaces,
    P.scope_eq, removeOutcomeCounters, hk]
  exact ⟨_, rfl⟩

/-- `e` occurs, and `e'` does not occur before it. -/
def Before (tr : List (Side × Cmd)) (e e' : Side × Cmd) : Prop :=
  ∃ t₁ t₂, tr = t₁ ++ e :: t₂ ∧ e' ∉ t₁

/-- The schedules in which one call finds what the other has done: the live call is refused from
the start; or the fallback call writes before the live call reads; or the live call writes before
the fallback call reads and counts before the fallback call reads the counter. -/
def Orderly (P : Rivals) (s : Store) (tr : List (Side × Cmd)) : Prop :=
  P.Refused s ∨
  Before tr (.right, P.fallback.writeCmd) (.left, P.live.readCmd) ∨
  Before tr (.left, P.live.writeCmd) (.right, P.fallback.readCmd) ∧
    Before tr (.left, P.countCmd) (.right, .get (P.live.scope.key P.counter))

theorem ends_after_live {s s' : Store} {tr : List (Side × Cmd)}
    {a b : Except Exn (Bool × Option OutcomePayload)}
    (h : Program.Interleaved Redis.exec Tick P.live.finalize P.fallback.finalize s tr a b s')
    (hwrite : Before tr (.left, P.live.writeCmd) (.right, P.fallback.readCmd))
    (hcount : Before tr (.left, P.countCmd) (.right, .get (P.live.scope.key P.counter))) :
    SameBut (P.live.scope.key .last) s'
      (run P.fallback.finalize (run P.live.finalize s).2).2 := by
  obtain ⟨t₁, t₂, htr₁, hread⟩ := hwrite
  obtain ⟨t₃, t₄, htr₃, hcounter⟩ := hcount
  have hq := P.fallback.finalize_eq
  -- A stretch without the fallback call's read is the live call's alone.
  have hstretch : ∀ T e tr', tr = T ++ (Side.left, e) :: tr' → (.right, P.fallback.readCmd) ∉ T →
      (.left, P.live.writeCmd) ∈ T ++ [(Side.left, e)] →
      (.left, P.countCmd) ∈ T ++ [(Side.left, e)] →
      SameBut (P.live.scope.key .last) s'
        (run P.fallback.finalize (run P.live.finalize s).2).2 := by
    intro T e tr' htr hnot hw hc
    have hleft : ∀ e' ∈ T ++ [(Side.left, e)], e'.1 = .left := by
      intro e' he'
      rcases List.mem_append.mp he' with he' | he'
      · exact h.left_of_not_first hq htr hnot e' he'
      · rw [List.mem_singleton.mp he']
    rw [htr, ← List.singleton_append, ← List.append_assoc] at h
    obtain ⟨p₁, s₁, halone, hrest⟩ := h.split_left hleft
    exact ends_in_turn halone (List.mem_map.mpr ⟨_, hw, rfl⟩) (List.mem_map.mpr ⟨_, hc, rfl⟩)
      (fun _ _ => rfl) P.fallback_footprint hrest
  have hne : (Side.left, P.live.writeCmd) ≠ (.left, P.countCmd) := by simp [Call.writeCmd, countCmd]
  rw [htr₁] at htr₃
  rcases List.append_eq_append_iff.mp htr₃ with ⟨mid, ht₃, hmid⟩ | ⟨mid, ht₁, hmid⟩
  · cases mid with
    | nil => exact absurd (List.cons.inj hmid).1 hne
    | cons e mid =>
      obtain ⟨rfl, ht₂⟩ := List.cons.inj hmid
      by_cases hearly : (Side.right, P.fallback.readCmd) ∈ mid
      · -- The fallback call has read the live call's outcome and waits at its counter.
        obtain ⟨u, v, rfl, hu⟩ := List.eq_append_cons_of_mem hearly
        have htr : tr = (t₁ ++ (Side.left, P.live.writeCmd) :: u) ++
            (Side.right, P.fallback.readCmd) :: (v ++ (Side.left, P.countCmd) :: t₄) := by
          rw [htr₁, htr₃, ht₃]
          simp
        have hnot : (Side.right, P.fallback.readCmd) ∉
            t₁ ++ (Side.left, P.live.writeCmd) :: u := by simp [hread, hu]
        have hleft := h.left_of_not_first hq htr hnot
        rw [htr] at h
        obtain ⟨p₁, s₁, halone, hrest⟩ := h.split_left hleft
        have hwritten := written_of_alone halone (by simp)
        obtain ⟨s₂, hticks, hrest⟩ := hrest.next_right hq rfl
        have hwritten₂ : P.Written s₂ := by
          clear hrest
          induction hticks with
          | refl => exact hwritten
          | tail _ ht ih => exact ih.tick ht
        rw [hwritten₂.read] at hrest
        obtain ⟨k, hk⟩ := P.fallbackRest_eq
        have hleft' : ∀ e ∈ v, e.1 = Side.left := by
          apply hrest.left_of_not_first hk rfl
          intro hmem
          exact hcounter (by simp [ht₃, hmem])
        have hassoc : v ++ (Side.left, P.countCmd) :: t₄ =
            (v ++ [(Side.left, P.countCmd)]) ++ t₄ := by simp
        rw [hassoc] at hrest
        obtain ⟨p₂, s₃, halone', hrest⟩ := hrest.split_left (by
          intro e he
          rcases List.mem_append.mp he with he | he
          · exact hleft' e he
          · rw [List.mem_singleton.mp he])
        have hwhole := halone.trans ((Program.Alone.of_env hticks).trans halone')
        exact ends_in_turn hwhole (by simp) (by simp) (fun t ht => run_fallbackRest ht)
          fallbackRest_issues hrest
      · apply hstretch t₃ _ t₄ (by rw [htr₁, htr₃])
        · rw [ht₃]
          simp [hread, hearly]
        · simp [ht₃]
        · simp
  · cases mid with
    | nil => exact absurd (List.cons.inj hmid).1.symm hne
    | cons e mid =>
      obtain ⟨rfl, -⟩ := List.cons.inj hmid
      apply hstretch t₁ _ t₂ htr₁ hread
      · simp
      · simp [ht₁]

theorem Orderly.ends {s s' : Store} {tr : List (Side × Cmd)}
    {a b : Except Exn (Bool × Option OutcomePayload)} (horder : P.Orderly s tr)
    (h : Program.Interleaved Redis.exec Tick P.live.finalize P.fallback.finalize s tr a b s') :
    SameBut (P.live.scope.key .last) s' (run P.fallback.finalize s).2 ∨
      SameBut (P.live.scope.key .last) s'
        (run P.fallback.finalize (run P.live.finalize s).2).2 := by
  rcases horder with hrefused | ⟨t₁, t₂, htr, hread⟩ | ⟨hwrite, hcount⟩
  · exact .inl (ends_as_fallback (.refl _ s) hrefused h)
  · left
    rw [htr] at h
    have hright := h.right_of_not_first P.live.finalize_eq hread
    have hassoc : t₁ ++ (Side.right, P.fallback.writeCmd) :: t₂ =
        (t₁ ++ [(Side.right, P.fallback.writeCmd)]) ++ t₂ := by simp
    obtain ⟨q₁, s₁, halone, hrest⟩ := h.split_right hassoc (by
      intro e he
      rcases List.mem_append.mp he with he | he
      · exact hright e he
      · rw [List.mem_singleton.mp he])
    have hrefused := halone.establishes (I := P.Refused) P.fallback_footprint
      (fun c t hc ht => ht.exec P hc) (fun t _ => P.refused_after_write t)
      (fun t t₁ ht hs => hs.tick P ht) (.inl (by simp))
    exact ends_as_fallback halone hrefused hrest
  · exact .inr (ends_after_live h hwrite hcount)

/-- No counter of the pair's scope is near the end of Redis's integers. -/
def HasRoom (P : Rivals) (s : Store) : Prop :=
  ∀ f n, IsCounter f → counterOf (s.lookup (P.live.scope.key f)) = some n → n + 8 < 2 ^ 63

/-- The request's outcome is the fallback's, it has one unit in the counters of that outcome and
none in the others, and no counter is negative. -/
def CountedOnce (P : Rivals) (s : Store) : Prop :=
  (∃ p, storedOutcome s P.live.scope P.live.requestId = some p ∧ IsFallback p.source ∧
    p.decision = P.fallback.decision ∧ p.reason = P.fallback.reason ∧
    ∀ f, IsCounter f → counterOf (s.lookup (P.live.scope.key f)) =
      some (((holders s P.live.scope (CountsIn f) \ {P.live.requestId}).ncard : ℤ) +
        if CountsIn f p then 1 else 0)) ∧
  ∀ σ f, IsCounter f → ∃ n, counterOf (s.lookup (Scope.key σ f)) = some n ∧ 0 ≤ n

end Rivals

/-- The stores that successful calls in turn and orderly pairs of calls lead to. -/
inductive Reached : Store → Prop
  | empty (now : ℕ) : Reached (.empty now)
  | call {s} (c : Call) (h : Reached s) (hclock : s.clock ≤ c.madeAt) (hlasts : s.Lasts c.madeAt)
      (hok : Succeeded (run c.finalize (s.advance c.madeAt)).1) :
      Reached (run c.finalize (s.advance c.madeAt)).2
  | pair {s s' tr a b} (P : Rivals) (h : Reached s) (hroom : P.HasRoom s)
      (hrun : Program.Interleaved exec Tick P.live.finalize P.fallback.finalize s tr a b s')
      (horder : P.Orderly s tr) : Reached s'

theorem storedOutcome_sameBut {s t : Store} {σ τ : Scope} (h : SameBut (τ.key .last) s t) :
    storedOutcome s σ = storedOutcome t σ := by
  funext r
  exact storedOutcome_congr (h _ (by simp))

theorem Consistent.of_sameBut {s t : Store} {τ : Scope} (h : SameBut (τ.key .last) s t)
    {σ : Scope} (ht : Consistent t σ) : Consistent s σ :=
  ht.of_lookup fun f hf => h _ (by simp [hf])

theorem Rivals.pair_step {P : Rivals} {s s' : Store} {tr : List (Side × Cmd)}
    {a b : Except Exn (Bool × Option OutcomePayload)} (hs : ∀ σ, Consistent s σ)
    (hroom : P.HasRoom s) (horder : P.Orderly s tr)
    (h : Program.Interleaved exec Tick P.live.finalize P.fallback.finalize s tr a b s') :
    (∀ σ, Consistent s' σ) ∧ ∃ old, storedOutcome s' P.live.scope P.live.requestId =
      offer shouldReplaceOutcome old P.fallback.payload := by
  have hroom₀ : Room P.live.scope P.live.requestId (4 + 4) s := by
    have hs := hs P.live.scope
    refine ⟨fun f hf => ?_, ?_, hs.texts _⟩
    · have hcounter := hs.counter f hf
      have hhi := hroom f _ hf hcounter
      exact ⟨_, hcounter, by omega, by omega⟩
    · obtain ⟨z, hz, -⟩ := hs.events
      exact ⟨z, hz⟩
  have hfallback : ∀ t, Room P.live.scope P.live.requestId 4 t → (∀ σ, Consistent t σ) →
      SameBut (P.live.scope.key .last) s' (run P.fallback.finalize t).2 →
      (∀ σ, Consistent s' σ) ∧ ∃ old, storedOutcome s' P.live.scope P.live.requestId =
        offer shouldReplaceOutcome old P.fallback.payload := by
    intro t ht hconsistent hsame
    rw [← P.scope_eq, ← P.request_eq] at ht
    obtain ⟨hok, -⟩ := Call.finalize_succeeds (n := 0) ht
    obtain ⟨hkeep, hstored⟩ := Call.finalize_step hok
    refine ⟨fun σ => (hkeep σ (hconsistent σ)).of_sameBut hsame, ?_⟩
    refine ⟨storedOutcome t P.live.scope P.live.requestId, ?_⟩
    rw [storedOutcome_sameBut hsame, hstored, if_pos ⟨P.scope_eq.symm, P.request_eq.symm⟩]
  rcases horder.ends h with hsame | hsame
  · exact hfallback s (hroom₀.mono (by omega)) hs hsame
  · obtain ⟨hok, hroom₁⟩ := Call.finalize_succeeds hroom₀
    obtain ⟨hkeep, -⟩ := Call.finalize_step hok
    exact hfallback _ hroom₁ (fun σ => hkeep σ (hs σ)) hsame

theorem Reached.consistent {s : Store} (h : Reached s) (σ : Scope) : Consistent s σ := by
  induction h generalizing σ with
  | empty now => exact consistent_empty now σ
  | call c _ hclock hlasts hok ih =>
    have hlookup := TtlStore.Store.lookup_advance _ hclock hlasts
    exact (Call.finalize_step hok).1 σ ((ih σ).of_lookup fun f _ => hlookup _)
  | pair P _ hroom hrun horder ih => exact (Rivals.pair_step ih hroom horder hrun).1 σ

theorem offer_fallback {p : OutcomePayload} (hp : IsFallback p.source)
    (old : Option OutcomePayload) : ∃ p', offer shouldReplaceOutcome old p = some p' ∧
      IsFallback p'.source ∧ p'.decision = p.decision ∧ p'.reason = p.reason := by
  cases old with
  | none => exact ⟨p, rfl, hp, rfl, rfl⟩
  | some q =>
    rw [offer_some]
    by_cases hreplace : shouldReplaceOutcome q p = true
    · rw [if_pos hreplace]
      exact ⟨p, rfl, hp, rfl, rfl⟩
    · rw [if_neg hreplace]
      have hrank := sourceRank_eq_two.mpr hp
      have hmax := sourceRank_le_two q.source
      have hqtwo : sourceRank q.source = 2 := by
        by_contra hlow
        exact hreplace (shouldReplaceOutcome_rankedBy.prefers q p (by omega))
      unfold shouldReplaceOutcome at hreplace
      rw [if_neg (by omega), if_neg (by omega)] at hreplace
      simp only [Bool.or_eq_true, decide_eq_true_eq, not_or, not_not] at hreplace
      exact ⟨q, rfl, sourceRank_eq_two.mp hqtwo, hreplace.1, hreplace.2⟩

/-- From any reached store, an orderly pair of calls counts its request once. -/
theorem orderly_pair_counted_once {s s' : Store} {tr : List (Side × Cmd)}
    {a b : Except Exn (Bool × Option OutcomePayload)} (P : Rivals) (hs : Reached s)
    (hroom : P.HasRoom s)
    (h : Program.Interleaved exec Tick P.live.finalize P.fallback.finalize s tr a b s')
    (horder : P.Orderly s tr) : P.CountedOnce s' := by
  obtain ⟨hconsistent, old, hold⟩ := Rivals.pair_step hs.consistent hroom horder h
  have hsource : IsFallback P.fallback.payload.source := P.fallback_source
  obtain ⟨p, hp, hfallback, hdecision, hreason⟩ := offer_fallback hsource old
  have hstored := hold.trans hp
  refine ⟨⟨p, hstored, hfallback, hdecision, hreason, fun f hf => ?_⟩, fun σ f hf => ?_⟩
  · exact (hconsistent P.live.scope).counter_share hstored hf
  · exact ⟨_, (hconsistent σ).counter f hf, by positivity⟩

def sampleRivals : Rivals where
  live := liveBlock
  fallback := timeoutAllow
  counter := .block
  live_source := rfl
  fallback_source := .inl rfl
  scope_eq := rfl
  request_eq := rfl
  counter_eq := rfl

theorem sampleRivals_hasRoom : sampleRivals.HasRoom (.empty 5) := by
  intro f n _ hn
  simp only [TtlStore.Store.lookup_empty, counterOf_none, Option.some.injEq] at hn
  omega

def schedulePair (l : List Side) := Program.schedule exec l sampleRivals.live.finalize
  sampleRivals.fallback.finalize (.empty 5)

/-- The live call writes, the fallback call reads that, the live call counts. -/
def orderlyRun :=
  schedulePair ([.left, .left, .right, .left] ++ List.replicate 10 .right ++ [.left, .left])

theorem orderlyRun_isSome : orderlyRun.isSome = true := by decide

theorem orderly_pair_counted_once_sample :
    sampleRivals.CountedOnce (orderlyRun.get orderlyRun_isSome).2.2.2 := by
  have hrun : orderlyRun = some (orderlyRun.get orderlyRun_isSome) :=
    (Option.some_get orderlyRun_isSome).symm
  apply orderly_pair_counted_once sampleRivals (.empty 5) sampleRivals_hasRoom
    (Program.schedule_interleaved hrun)
  refine .inr (.inr ⟨?_, ?_⟩)
  · exact ⟨(orderlyRun.get orderlyRun_isSome).1.take 1, (orderlyRun.get orderlyRun_isSome).1.drop 2,
      by decide, by decide⟩
  · exact ⟨(orderlyRun.get orderlyRun_isSome).1.take 3, (orderlyRun.get orderlyRun_isSome).1.drop 4,
      by decide, by decide⟩

/-- The live call reads, the fallback call runs from its first command to its last, and the live
call goes on. -/
def race := schedulePair ([.left] ++ List.replicate 9 .right ++ List.replicate 4 .left)

theorem race_isSome : race.isSome = true := by decide

/-- The store in which both calls have finished. -/
def raceStore : Store := (race.get race_isSome).2.2.2

theorem race_counted_twice :
    Reached (.empty 5) ∧ sampleRivals.HasRoom (.empty 5) ∧ ∃ tr a b s',
      Program.Interleaved exec Tick sampleRivals.live.finalize sampleRivals.fallback.finalize
        (.empty 5) tr a b s' ∧
      storedOutcome s' sampleScope "r1" = some liveBlock.payload ∧
      counterOf (s'.lookup (blockKey sampleScope.id)) = some 1 ∧
      counterOf (s'.lookup (allowKey sampleScope.id)) = some 1 ∧
      ¬sampleRivals.CountedOnce s' := by
  have hstored : storedOutcome raceStore sampleScope "r1" = some liveBlock.payload := by decide
  have hrun : race = some (race.get race_isSome) := (Option.some_get race_isSome).symm
  refine ⟨.empty 5, sampleRivals_hasRoom, _, _, _, raceStore, Program.schedule_interleaved hrun,
    hstored, by decide, by decide, ?_⟩
  intro hcounted
  obtain ⟨⟨p, hp, hfallback, -⟩, -⟩ := hcounted
  have hlive : some p = some liveBlock.payload := hp.symm.trans hstored
  obtain rfl := Option.some.inj hlive
  exact absurd hfallback (by decide)

end Rheonic.ProtectActionStore
