import Rheonic.ProtectAlerts

namespace Rheonic.ProtectAlerts
open CommandProgram Redis Keys PyText ProtectActionStore ProtectService ProtectApi ProtectBackend
open RollingWindow (Point TracksScope incrementProject60s getProject60s ofScope)
open IncidentManager (Manager)
open QuietGate (Permit Standing Spaced)

section Footprint

variable {σ : Scope} {s s' s'' : Store} {increments : List (String × Point)} {now : ℕ}

/-- A command on the counters, the outcomes and the last record of a scope. -/
def OnField (σ : Scope) (c : Cmd) : Prop := ∃ f, c.key = σ.key f

theorem onField_of_footprint {r : String} {p : OutcomePayload} {c : Cmd} (h : Footprint σ r p c) :
    OnField σ c := by
  cases c with
  | get k =>
    rcases h with h | h
    · exact ⟨_, h⟩
    · obtain ⟨f, -, hf⟩ := h
      exact ⟨f, hf⟩
  | set k v ttl =>
    rcases h.1 with h | h
    · exact ⟨_, h⟩
    · exact ⟨_, h⟩
  | incrby k n =>
    obtain ⟨f, -, hf⟩ := h.1
    exact ⟨f, hf⟩
  | expire k ttl =>
    obtain ⟨f, -, hf⟩ := h.2
    exact ⟨f, hf⟩
  | zadd k member score => exact ⟨_, h⟩
  | zrem k member => exact ⟨_, h⟩
  | _ => exact absurd h id

theorem onField_of_offOutcome {c : Cmd} (h : OffOutcome σ.id c) : OnField σ c := by
  obtain ⟨f, -, hf⟩ := h
  exact ⟨f, hf⟩

theorem finalizeOutcome_onField (decision reason source : String) (requestId : Option String)
    (ts : ℕ) : Program.Issues (OnField σ)
      (finalizeOutcome σ.id decision reason source requestId ts) := by
  refine .tryCatch ?_ fun _ => .pure _
  cases htruthy : truthy requestId with
  | none =>
    unfold finalizeBody
    rw [htruthy]
    -- Without a request id the outcome is only published.
    have hpublish := publishOutcome_offOutcome (p := σ.id) ⟨decision, reason, source, ts⟩ none
    exact .bind (hpublish.mono fun _ hc => onField_of_offOutcome hc) fun _ => .pure _
  | some r =>
    obtain ⟨hid, hr⟩ := Option.filter_eq_some_iff.mp htruthy
    rw [hid]
    have hbody := finalizeBody_within (σ := σ) (p := ⟨decision, reason, source, ts⟩)
      (of_decide_eq_true hr)
    exact hbody.issues.mono fun _ hc => onField_of_footprint hc

theorem recordTimeoutFallback_onField (requestId : Option String) (ts : ℕ) :
    Program.Issues (OnField σ) (recordTimeoutFallback σ.id requestId ts) := by
  have hbody : Program.Issues (OffOutcome σ.id) (do
      incrementWithTtl (timeoutKey σ.id)
      whenRequestId requestId fun requestId => recordTimeoutEvent σ.id requestId ts) := by
    apply Program.Issues.bind (incrementWithTtl_offOutcome offOutcome_timeout)
    intro _
    exact whenRequestId_issues requestId fun r => recordTimeoutEvent_offOutcome r ts
  exact .tryCatch (hbody.mono fun _ hc => onField_of_offOutcome hc) fun _ => .pure _

/-- The markers of all alerts are as before, and the windows show what they showed. -/
structure Kept (increments : List (String × Point)) (now : ℕ) (s s' : Store) : Prop where
  marker : ∀ e, Leaves (Occasion.key e) s s'
  windows : Tracked increments now s → Tracked increments now s'

theorem Kept.refl (s : Store) : Kept increments now s s := ⟨fun _ => ⟨rfl, rfl⟩, id⟩

theorem Kept.trans (h : Kept increments now s s') (h' : Kept increments now s' s'') :
    Kept increments now s s'' :=
  ⟨fun e => (h.marker e).trans (h'.marker e), h'.windows ∘ h.windows⟩

theorem kept_of_onField {α : Type} {program : Prog α} (h : Program.Issues (OnField σ) program)
    (s : Store) : Kept increments now s (run program s).2 where
  marker e := run_entry_ne h (fun c hc => by
    obtain ⟨f, hf⟩ := hc
    rw [hf]
    exact Occasion.key_ne_field e σ f) s
  windows := by
    refine preserves_tracked h ?_ s
    intro c hc
    obtain ⟨f, hf⟩ := hc
    have haction : OnAction c := by
      unfold OnAction
      rw [hf]
      exact actionKey_field σ.id f
    exact offWindow_of_onAction haction

theorem kept_recordHealth (latencyMs : ℤ) (memberId : String) (s : Store) :
    Kept increments now s (run (recordHealth σ.id latencyMs now memberId) s).2 where
  marker e := recordHealth_leaves (Occasion.key_ne_latencyKey e σ) latencyMs now memberId
  windows := (tracked_stable increments now σ.id).of_action (recordHealth_issues _ _ _) s

theorem kept_startCooldown (requestId : Option String) (preflight : Preflight) (s : Store) :
    Kept increments now s (run (startCooldown σ.id requestId preflight) s).2 where
  marker e := startCooldown_leaves ((Occasion.actionKey_key e).ne_cooldownKey σ.id)
    ((Occasion.actionKey_key e).ne_cooldownOwnerKey σ.id) requestId preflight
  windows := Stable.startCooldown requestId preflight
    (fun _ => tracked_cooldownStable increments now σ.id) s

theorem kept_clearBlockCooldown (requestId : Option String) (s : Store) :
    Kept increments now s (run (clearBlockCooldown σ.id requestId) s).2 where
  marker e := clearBlockCooldown_leaves ((Occasion.actionKey_key e).ne_cooldownKey σ.id)
    ((Occasion.actionKey_key e).ne_cooldownOwnerKey σ.id) requestId
  windows := (Program.Preserves.of_issues (clearBlockCooldown_issues requestId)
    (tracked_cooldownStable increments now σ.id)) s

variable (increments now) in
theorem kept_getProject60s (p : String) (s : Store) :
    Kept increments now s (run (getProject60s p now) s).2 where
  marker e := run_entry_ne (RollingWindow.getProject60s_issues p now) (fun c hc => by
    rcases hc with hc | hc
    · rw [hc]
      exact (Occasion.actionKey_key e).ne_requests60sKey p
    · rw [hc]
      exact (Occasion.actionKey_key e).ne_tokens60sKey p) s
  windows := ProtectApi.getProject60s_tracked p s

theorem kept_evaluateDecision (settings : Settings) (project : Project)
    (ctx : ProtectDecisionContext) (s : Store) :
    Kept increments now s (run (evaluateDecision settings project ctx now) s).2 where
  marker e := evaluateDecision_leaves ctx now ((Occasion.actionKey_key e).ne_requests60sKey _)
    ((Occasion.actionKey_key e).ne_tokens60sKey _)
  windows := (tracked_stable increments now _).evaluate s

end Footprint

section Gate

variable {settings : Settings} {σ : Scope} {s s' : Store} {alerts : List Alert}

/-- The markers in the store stand for the alerts raised so far, each for long enough. -/
structure Gated (settings : Settings) (alerts : List Alert) (s : Store) : Prop where
  tracks : QuietGate.Tracks s Occasion.key (permits alerts)
  spaced : Spaced (permits alerts)
  past : ∀ a ∈ alerts, a.sentAt ≤ s.clock
  covers : ∀ a ∈ alerts, a.occasion.isSome = true → a.quietUntil settings ≤ a.ends

/-- An alert tells a scope of something at a time: it is raised then, or it is one of its occasion
whose quiet time lasts. -/
def Told (alerts : List Alert) (scope : Scope) (occasion : Option Occasion) (t : ℕ) : Prop :=
  ∃ a ∈ alerts, a.scope = scope ∧ a.occasion = occasion ∧
    (a.sentAt = t ∨ occasion.isSome = true ∧ a.sentAt ≤ t ∧ t < a.ends)

theorem Gated.empty (h : ∀ e, s.entry (Occasion.key e) = none) : Gated settings [] s where
  tracks := .empty h
  spaced := QuietGate.spaced_nil
  past := by simp
  covers := by simp

theorem Gated.advance (h : Gated settings alerts s) {t : ℕ} (ht : s.clock ≤ t) :
    Gated settings alerts (s.advance t) where
  tracks := h.tracks.advance ht
  spaced := h.spaced
  past a ha := (h.past a ha).trans ht
  covers := h.covers

theorem Gated.kept (h : Gated settings alerts s) (hkept : ∀ e, Leaves (Occasion.key e) s s')
    (hclock : s'.clock = s.clock) : Gated settings alerts s' where
  tracks := h.tracks.of_entry (fun e => (hkept e).1) hclock
  spaced := h.spaced
  past := hclock ▸ h.past
  covers := h.covers

theorem Gated.plain (h : Gated settings alerts s) {a : Alert} (hoccasion : a.occasion = none)
    (hsent : a.sentAt = s.clock) : Gated settings (a :: alerts) s := by
  have hpermits : permits (a :: alerts) = permits alerts := by
    simp [permits, Alert.permit, hoccasion]
  refine ⟨hpermits ▸ h.tracks, hpermits ▸ h.spaced, ?_, ?_⟩
  · exact List.forall_mem_cons.mpr ⟨hsent.le, h.past⟩
  · refine List.forall_mem_cons.mpr ⟨?_, h.covers⟩
    simp [hoccasion]

theorem told_of_standing (h : Gated settings alerts s) {o : Occasion}
    (hstanding : Standing (permits alerts) (σ, o) s.clock) :
    Told alerts σ (some o) s.clock := by
  obtain ⟨p, hp, hkey, hlt⟩ := hstanding
  obtain ⟨a, ha, hpermit⟩ := List.mem_filterMap.mp hp
  obtain ⟨o', ho', hp'⟩ := Option.map_eq_some_iff.mp hpermit
  rw [← hp', Prod.mk.injEq] at hkey
  rw [← hp'] at hlt
  exact ⟨a, ha, hkey.1, hkey.2 ▸ ho', .inr ⟨rfl, h.past a ha, hlt⟩⟩

/-- Marking an occasion is refused while an alert stands, and begins a quiet time otherwise. -/
theorem Gated.mark (h : Gated settings alerts s) {o : Occasion} (ttlSeconds : ℤ) {a : Alert}
    (hscope : a.scope = σ) (hoccasion : a.occasion = some o) (hsent : a.sentAt = s.clock)
    (hquiet : a.quietSeconds = (max ttlSeconds 1).toNat)
    (hcovers : a.quietUntil settings ≤ a.ends) :
    (Told alerts σ (some o) s.clock ∧
      run (markReportSent σ.id o.reportType o.marker ttlSeconds) s = (.ok false, s)) ∨
    ∃ s', run (markReportSent σ.id o.reportType o.marker ttlSeconds) s = (.ok true, s') ∧
      Gated settings (a :: alerts) s' ∧ s'.clock = s.clock := by
  -- `SET NX EX` answers what the history says: the marker is there while an alert stands.
  by_cases hlookup : (s.lookup (Occasion.key (σ, o))).isSome = true
  · have hstanding := (h.tracks.lookup_iff (σ, o)).mp hlookup
    exact .inl ⟨told_of_standing h hstanding, run_markReportSent_again ttlSeconds hlookup⟩
  · have hfree : ¬Standing (permits alerts) (σ, o) s.clock := by
      rw [← h.tracks.lookup_iff (σ, o)]
      exact hlookup
    have hpermits : permits (a :: alerts) =
        ⟨(σ, o), s.clock, (max ttlSeconds 1).toNat * 1000⟩ :: permits alerts := by
      simp [permits, Alert.permit, hoccasion, hscope, hsent, hquiet]
    have hrun : run (markReportSent σ.id o.reportType o.marker ttlSeconds) s =
        (.ok true, s.put (Occasion.key (σ, o)) (.text (.str "1"))
          ((max ttlSeconds 1).toNat * 1000)) := by
      have hpos : ¬(max ttlSeconds 1).toNat = 0 := by omega
      have hset : Program.run exec (setNxEx (Occasion.key (σ, o)) (.str "1")
          (max ttlSeconds 1).toNat) s = (.ok true, s.put (Occasion.key (σ, o)) (.text (.str "1"))
            ((max ttlSeconds 1).toNat * 1000)) := by
        rw [setNxEx, Program.run_perform, exec, if_neg hpos, if_neg hlookup]
      unfold Occasion.key at hset
      rw [run, markReportSent, Program.run_tryCatch, hset]
      rfl
    refine .inr ⟨_, hrun, ⟨?_, ?_, ?_, ?_⟩, rfl⟩
    · rw [hpermits]
      exact h.tracks.put Occasion.key_injective hfree _ _
    · rw [hpermits]
      exact h.spaced.cons hfree
    · exact List.forall_mem_cons.mpr ⟨hsent.le, h.past⟩
    · exact List.forall_mem_cons.mpr ⟨fun _ => hcovers, h.covers⟩

end Gate

section Programs

variable {isoformat : ℤ → String} {settings : Settings} {m : Manager} {s : Store}
  {alerts : List Alert} {increments : List (String × Point)} {now : ℕ}

/-- What a program that may raise an alert has done: the markers still stand for the alerts,
whatever was owed has been told, and nothing else. -/
structure Raised (settings : Settings) (increments : List (String × Point)) (now : ℕ)
    (alerts : List Alert) (s : Store) (owed : Scope → Option Occasion → Prop)
    (r : Except Exn (Option Alert) × Store) : Prop where
  clock : r.2.clock = s.clock
  gated : Gated settings ((answerOf none r).toList ++ alerts) r.2
  windows : Tracked increments now s → Tracked increments now r.2
  told : ∀ scope o, owed scope o → Told ((answerOf none r).toList ++ alerts) scope o s.clock
  due : ∀ a ∈ answerOf none r, owed a.scope a.occasion ∧ a.sentAt = s.clock

theorem Raised.none (h : Gated settings alerts s) {owed : Scope → Option Occasion → Prop}
    (howed : ∀ scope o, ¬owed scope o) :
    Raised settings increments now alerts s owed (.ok none, s) where
  clock := rfl
  gated := h
  windows := id
  told scope o ho := absurd ho (howed scope o)
  due a ha := absurd ha (Option.not_mem_none a)

/-- The same is owed in other words. -/
theorem Raised.congr {owed owed' : Scope → Option Occasion → Prop}
    {r : Except Exn (Option Alert) × Store}
    (h : Raised settings increments now alerts s owed r)
    (howed : ∀ scope o, owed' scope o ↔ owed scope o) :
    Raised settings increments now alerts s owed' r where
  clock := h.clock
  gated := h.gated
  windows := h.windows
  told scope o ho := h.told scope o ((howed scope o).mp ho)
  due a ha := by
    obtain ⟨hdue, hsent⟩ := h.due a ha
    exact ⟨(howed _ _).mpr hdue, hsent⟩

theorem told_cons {a : Alert} (o : Option Occasion) (hoccasion : a.occasion = o) :
    Told (a :: alerts) a.scope o a.sentAt :=
  ⟨a, List.mem_cons_self, rfl, hoccasion, .inl rfl⟩

variable (increments now) in
theorem raised_plain (h : Gated settings alerts s) {a : Alert} (hoccasion : a.occasion = none)
    (hsent : a.sentAt = s.clock) : Raised settings increments now alerts s
      (fun scope o => scope = a.scope ∧ o = none) (.ok (some a), s) where
  clock := rfl
  gated := h.plain hoccasion hsent
  windows := id
  told scope o ho := by
    rw [ho.1, ho.2, ← hsent]
    exact told_cons none hoccasion
  due b hb := by
    obtain rfl : a = b := Option.some.inj hb
    exact ⟨⟨rfl, hoccasion⟩, hsent⟩

variable (increments now) in
theorem raised_once (h : Gated settings alerts s) (σ : Scope) (o : Occasion) (ttlSeconds : ℤ)
    {a : Alert} (hscope : a.scope = σ) (hoccasion : a.occasion = some o)
    (hsent : a.sentAt = s.clock) (hquiet : a.quietSeconds = (max ttlSeconds 1).toNat)
    (hcovers : a.quietUntil settings ≤ a.ends) :
    Raised settings increments now alerts s (fun scope o' => scope = σ ∧ o' = some o)
      (run (do
        let first ← markReportSent σ.id o.reportType o.marker ttlSeconds
        if first then pure (some a) else pure none) s) := by
  have hwindows := (tracked_stable increments now σ.id).of_action
    (markReportSent_issues (p := σ.id) o.reportType o.marker ttlSeconds) s
  rcases h.mark ttlSeconds hscope hoccasion hsent hquiet hcovers with
    ⟨htold, hrun⟩ | ⟨s', hrun, hgated, hclock⟩
  · rw [run, Program.run_bind_eq exec hrun]
    refine ⟨rfl, h, id, ?_, fun a ha => absurd ha (Option.not_mem_none a)⟩
    intro scope o' ho
    rw [ho.1, ho.2]
    exact htold
  · rw [run, Program.run_bind_eq exec hrun]
    change Tracked increments now s → Tracked increments now (run _ s).2 at hwindows
    rw [hrun] at hwindows
    refine ⟨hclock, hgated, hwindows, ?_, ?_⟩
    · intro scope o' ho
      rw [ho.1, ho.2, ← hscope, ← hsent]
      exact told_cons (some o) hoccasion
    · intro b hb
      obtain rfl : a = b := Option.some.inj hb
      exact ⟨⟨hscope, hoccasion⟩, hsent⟩

/-- A cooldown block comes with the seconds up to the end of the cooldown. -/
def Timely (d : ProtectDecision) (now : ℕ) : Prop :=
  d.decision = .block → d.reason = .cooldownActive → ∀ untilMs ∈ d.blockedUntil,
    ∀ seconds ∈ d.retryAfterSeconds, untilMs ≤ now + seconds * 1000

theorem Timely.mono {d : ProtectDecision} {t : ℕ} (h : Timely d now) (ht : now ≤ t) :
    Timely d t := by
  intro hblock hreason untilMs huntil seconds hseconds
  have hend := h hblock hreason untilMs huntil seconds hseconds
  omega

theorem le_secondsUntil (ms : ℤ) : ms ≤ secondsUntil ms * 1000 := by
  unfold secondsUntil
  omega

theorem timely_blockUntil (project : Project) (usage : Usage) (untilMs : ℤ) :
    Timely (blockUntil settings project .cooldownActive usage now untilMs) now := by
  intro _ _ untilMs' huntil seconds hseconds
  have hu : untilMs = untilMs' := Option.some.inj huntil
  have hs : secondsUntil (untilMs - now) = seconds := Option.some.inj hseconds
  have hle := le_secondsUntil (untilMs - now)
  omega

theorem timely_of_reason {d : ProtectDecision} (h : d.reason ≠ .cooldownActive) : Timely d now :=
  fun _ hreason => absurd hreason h

theorem timely_judge (project : Project) (ctx : ProtectDecisionContext) (usage : Usage)
    (cooldownUntilMs : Option ℤ) :
    Timely (judge settings project ctx now usage cooldownUntilMs) now := by
  have htok : (buildBlockDecision settings project .tokCapBreach usage now).reason ≠
      .cooldownActive := by simp [buildBlockDecision, blockUntil, decisionOf]
  have hreq : (buildBlockDecision settings project .reqCapBreach usage now).reason ≠
      .cooldownActive := by simp [buildBlockDecision, blockUntil, decisionOf]
  unfold judge
  split
  · exact timely_blockUntil project usage _
  · split
    · exact timely_of_reason htok
    · split
      · exact timely_of_reason hreq
      · exact fun hblock => absurd hblock withinCaps_ne_block

/-- What a decision that came in time is to be told of. -/
inductive LiveTask.Owes (isoformat : ℤ → String) (c : LiveTask) (d : ProtectDecision) :
    Option Occasion → Prop
  | capBreach (hblock : d.decision = .block)
    (hreason : d.reason = .reqCapBreach ∨ d.reason = .tokCapBreach) : c.Owes isoformat d none
  | cooldown (untilMs seconds : ℤ) (hblock : d.decision = .block)
    (hreason : d.reason = .cooldownActive) (huntil : d.blockedUntil = some untilMs)
    (hseconds : d.retryAfterSeconds = some seconds) :
    c.Owes isoformat d (some (.cooldownBlock (isoformat untilMs)))
  | clamp (hclamp : d.decision = .clamp) (hreason : d.reason = .tokenClamp) :
    c.Owes isoformat d (some .clampStarted)

/-- The answer has come before the SDK gave up waiting for it. -/
def LiveTask.InTime (c : LiveTask) (d : ProtectDecision) : Prop :=
  c.call.request.latencyMs ≤ max d.decisionTimeoutMs 0

section Owes

variable (c : LiveTask) {d : ProtectDecision} {o : Option Occasion}

theorem LiveTask.owes_of_breach (hblock : d.decision = .block)
    (hreason : d.reason = .reqCapBreach ∨ d.reason = .tokCapBreach) :
    c.Owes isoformat d o ↔ o = none := by
  constructor
  · intro h
    cases h with
    | capBreach => rfl
    | cooldown _ _ _ hcooldown => simp [hcooldown] at hreason
    | clamp hclamp => exact absurd (hblock.symm.trans hclamp) (by decide)
  · intro h
    rw [h]
    exact .capBreach hblock hreason

variable (isoformat o) in
theorem LiveTask.owes_of_cooldown (hblock : d.decision = .block)
    (hreason : d.reason = .cooldownActive) : c.Owes isoformat d o ↔ ∃ untilMs seconds,
      d.blockedUntil = some untilMs ∧ d.retryAfterSeconds = some seconds ∧
        o = some (.cooldownBlock (isoformat untilMs)) := by
  constructor
  · intro h
    cases h with
    | capBreach _ hbreach => simp [hreason] at hbreach
    | cooldown untilMs seconds _ _ huntil hseconds =>
      exact ⟨untilMs, seconds, huntil, hseconds, rfl⟩
    | clamp hclamp => exact absurd (hblock.symm.trans hclamp) (by decide)
  · intro h
    obtain ⟨untilMs, seconds, huntil, hseconds, ho⟩ := h
    rw [ho]
    exact .cooldown untilMs seconds hblock hreason huntil hseconds

theorem LiveTask.owes_of_clamp (hclamp : d.decision = .clamp) (hreason : d.reason = .tokenClamp) :
    c.Owes isoformat d o ↔ o = some .clampStarted := by
  constructor
  · intro h
    cases h with
    | capBreach hblock => exact absurd (hclamp.symm.trans hblock) (by decide)
    | cooldown _ _ hblock => exact absurd (hclamp.symm.trans hblock) (by decide)
    | clamp => rfl
  · intro h
    rw [h]
    exact .clamp hclamp hreason

end Owes

variable (increments settings) in
theorem raised_liveAlert (h : Gated settings alerts s) (hclock : s.clock = now) (c : LiveTask)
    {d : ProtectDecision} (htimely : Timely d now) :
    Raised settings increments now alerts s
      (fun scope o => c.InTime d ∧ scope = c.scope ∧ c.Owes isoformat d o)
      (run (liveAlert isoformat settings c d now) s) := by
  unfold liveAlert
  by_cases hintime : c.InTime d
  · rw [if_pos (show c.call.request.latencyMs ≤ _ from hintime)]
    -- In time, the decision owes its scope what its verdict and its reason call for.
    have howed : ∀ {o' : Option Occasion}, (∀ {o}, c.Owes isoformat d o ↔ o = o') →
        ∀ scope o, (c.InTime d ∧ scope = c.scope ∧ c.Owes isoformat d o) ↔
          (scope = c.scope ∧ o = o') := by
      intro o' howes scope o
      rw [howes]
      exact and_iff_right hintime
    by_cases hbreach : d.decision = .block ∧ (d.reason = .reqCapBreach ∨ d.reason = .tokCapBreach)
    · rw [if_pos hbreach]
      have hplain := raised_plain increments now h (a := blockAlert isoformat c d now) rfl
        hclock.symm
      exact hplain.congr (howed (c.owes_of_breach hbreach.1 hbreach.2))
    · rw [if_neg hbreach]
      by_cases hcooldown : d.decision = .block ∧ d.reason = .cooldownActive
      · rw [if_pos hcooldown]
        have howes := fun o => c.owes_of_cooldown isoformat o hcooldown.1 hcooldown.2
        cases huntil : d.blockedUntil with
        | none =>
          apply Raised.none h
          intro scope o ho
          simpa [huntil] using (howes o).mp ho.2.2
        | some untilMs =>
          cases hseconds : d.retryAfterSeconds with
          | none =>
            apply Raised.none h
            intro scope o ho
            simpa [hseconds] using (howes o).mp ho.2.2
          | some seconds =>
            -- The marker lives for the seconds that are left, and these are rounded up.
            have hend := htimely hcooldown.1 hcooldown.2 untilMs huntil seconds hseconds
            have hmax : (max (max seconds 1) 1).toNat = (max seconds 1).toNat := by omega
            have hcovers : untilMs ≤
                ((cooldownAlert isoformat c d untilMs seconds now).ends : ℤ) := by
              simp only [Alert.ends, cooldownAlert]
              push_cast
              omega
            have honce := raised_once increments now h c.scope
              (.cooldownBlock (isoformat untilMs)) (max seconds 1)
              (a := cooldownAlert isoformat c d untilMs seconds now) rfl rfl hclock.symm hmax.symm
              hcovers
            exact honce.congr (howed (by simp [howes, huntil, hseconds]))
      · rw [if_neg hcooldown]
        by_cases hclamp : d.decision = .clamp ∧ d.reason = .tokenClamp
        · rw [if_pos hclamp]
          have honce := raised_once increments now h c.scope .clampStarted
            settings.incidentDedupWindowSeconds (a := clampAlert isoformat settings c d now) rfl rfl
            hclock.symm rfl le_rfl
          exact honce.congr (howed (c.owes_of_clamp hclamp.1 hclamp.2))
        · rw [if_neg hclamp]
          apply Raised.none h
          intro scope o ho
          cases ho.2.2 with
          | capBreach hblock hreason => exact hbreach ⟨hblock, hreason⟩
          | cooldown _ _ hblock hreason => exact hcooldown ⟨hblock, hreason⟩
          | clamp hclamp' hreason => exact hclamp ⟨hclamp', hreason⟩
  · rw [if_neg (show ¬c.call.request.latencyMs ≤ _ from hintime)]
    exact Raised.none h fun scope o ho => hintime ho.1

variable (increments settings isoformat) in
theorem raised_reportFailClosed (h : Gated settings alerts s) (hclock : s.clock = now)
    (hwindows : Tracked increments now s) (q : ReportTask) :
    Raised settings increments now alerts s
      (fun scope o => scope = q.scope ∧ o = some (.failClosed q.marker))
      (run (reportFailClosed isoformat settings q now) s) := by
  have hmarked := (tracked_stable increments now q.scope.id).of_action
    (markReportSent_issues (p := q.scope.id) "fail_closed" q.marker
      settings.incidentDedupWindowSeconds) s hwindows
  unfold reportFailClosed
  -- Every alert of the report passes the gate alike, whatever usage it shows.
  have hgate := fun usage => h.mark (σ := q.scope) (o := .failClosed q.marker)
    settings.incidentDedupWindowSeconds (a := failClosedAlert isoformat settings q usage now)
    rfl rfl hclock.symm rfl le_rfl
  rcases hgate (0, 0) with ⟨htold, hrun⟩ | ⟨s', hrun, -, hclock'⟩
  · have hrun' : run (markReportSent q.scope.id "fail_closed" q.marker
        settings.incidentDedupWindowSeconds) s = (.ok false, s) := hrun
    rw [run, Program.run_bind_eq exec hrun']
    refine ⟨rfl, h, id, ?_, fun a ha => absurd ha (Option.not_mem_none a)⟩
    intro scope o ho
    rw [ho.1, ho.2]
    exact htold
  · have hrun' : run (markReportSent q.scope.id "fail_closed" q.marker
        settings.incidentDedupWindowSeconds) s = (.ok true, s') := hrun
    change Tracked increments now (run _ s).2 at hmarked
    rw [hrun'] at hmarked
    obtain ⟨s'', hread, -, hclock'', -⟩ := (hmarked.2 q.scope.id).getProject60s
    rw [hmarked.1] at hread
    generalize husage : ((RollingWindow.window now (ofScope q.scope.id increments)).length,
      ((RollingWindow.window now (ofScope q.scope.id increments)).map Point.tokens).sum) = usage
      at hread
    have hkept := kept_getProject60s increments now q.scope.id s'
    rw [hread] at hkept
    rw [run, Program.run_bind_eq exec hrun', if_pos rfl, Program.run_bind_eq exec hread]
    rcases hgate usage with ⟨-, hrefused⟩ | ⟨t, hpassed, hgated, -⟩
    · rw [hrun] at hrefused
      exact absurd (Except.ok.inj (Prod.mk.inj hrefused).1) (by decide)
    · rw [hrun] at hpassed
      obtain rfl := (Prod.mk.inj hpassed).2
      refine ⟨hclock''.trans hclock', hgated.kept hkept.marker hclock'',
        fun _ => hkept.windows hmarked, ?_, ?_⟩
      · intro scope o ho
        rw [ho.1, ho.2, hclock]
        exact told_cons (a := failClosedAlert isoformat settings q usage now) _ rfl
      · intro a ha
        obtain rfl : failClosedAlert isoformat settings q usage now = a := Option.some.inj ha
        exact ⟨⟨rfl, rfl⟩, hclock.symm⟩

end Programs

end Rheonic.ProtectAlerts
