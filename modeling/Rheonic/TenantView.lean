import Rheonic.UserApi

namespace Rheonic.UserApi
open Unwinding RowTable Keys KeyFamilies CommandProgram
open Redis (Cmd Store)

section Redis

variable {s t : Store}

theorem exec_live_congr (c : Cmd) (hclock : s.clock = t.clock) (h : s.live c.key = t.live c.key) :
    (Redis.exec c s).1 = (Redis.exec c t).1 ∧
      (Redis.exec c s).2.live c.key = (Redis.exec c t).2.live c.key := by
  have hlookup : s.lookup c.key = t.lookup c.key := congrArg (Option.map _) h
  refine ⟨(Redis.exec_congr c hlookup).1, ?_⟩
  cases c <;> simp only [Cmd.key] at h hlookup <;> simp only [Redis.exec, Cmd.key, hlookup]
  all_goals
    repeat' split
    all_goals simp only [TtlStore.Store.put, TtlStore.Store.alter, TtlStore.Store.expireIn,
      TtlStore.Store.live_setEntry_self, h, hclock]

/-- Stores that agree at the keys of `K` now. -/
def AgreeOn (K : String → Prop) (s t : Store) : Prop :=
  s.clock = t.clock ∧ ∀ k, K k → s.live k = t.live k

theorem AgreeOn.exec {K : String → Prop} (h : AgreeOn K s t) {c : Cmd} (hc : K c.key) :
    (Redis.exec c s).1 = (Redis.exec c t).1 ∧
      AgreeOn K (Redis.exec c s).2 (Redis.exec c t).2 := by
  obtain ⟨hanswer, hlive⟩ := exec_live_congr c h.1 (h.2 c.key hc)
  have hclock : (Redis.exec c s).2.clock = (Redis.exec c t).2.clock := by
    rw [Redis.exec_clock, Redis.exec_clock, h.1]
  refine ⟨hanswer, hclock, ?_⟩
  intro k hk
  by_cases hkey : k = c.key
  · rw [hkey, hlive]
  · have hleft : (Redis.exec c s).2.live k = s.live k := by
      simp only [TtlStore.Store.live, Redis.exec_entry_ne c s hkey, Redis.exec_clock]
    have hright : (Redis.exec c t).2.live k = t.live k := by
      simp only [TtlStore.Store.live, Redis.exec_entry_ne c t hkey, Redis.exec_clock]
    rw [hleft, hright, h.2 k hk]

theorem AgreeOn.run {α : Type} {K : String → Prop} {q : Redis.Prog α}
    (hq : Program.Issues (fun c => K c.key) q) (h : AgreeOn K s t) :
    (Redis.run q s).1 = (Redis.run q t).1 ∧ AgreeOn K (Redis.run q s).2 (Redis.run q t).2 := by
  induction hq generalizing s t with
  | ret a => exact ⟨rfl, h⟩
  | raise e => exact ⟨rfl, h⟩
  | call c f hc _ ih =>
    obtain ⟨hreply, hnext⟩ := h.exec hc
    have hrest := ih (Redis.exec c s).1 hnext
    simp only [Redis.run, Program.run] at hrest ⊢
    rw [hreply] at hrest ⊢
    exact hrest

theorem AgreeOn.advance {K : String → Prop} (h : AgreeOn K s t) {now : ℕ} (hs : s.clock ≤ now) :
    AgreeOn K (s.advance now) (t.advance now) := by
  refine ⟨rfl, fun k hk => ?_⟩
  have ht : t.clock ≤ now := h.1 ▸ hs
  rw [TtlStore.Store.live_advance s hs, TtlStore.Store.live_advance t ht, h.2 k hk]

end Redis

def OnProject (projectId : String) (c : Cmd) : Prop :=
  ∃ (id : StoreId) (family : StoreFamily), c.key = family.key (id.text projectId)

/-- A tenant: a user, the projects it ever owns, and the rate-limit keys of its webhook tests. -/
structure Tenant where
  owner : String
  projects : List String
  testKeys : List String
  limits_tests : ∀ k ∈ testKeys, ∃ projectId userId clientIp windowEpoch,
    k = webhookTestRateLimitKey projectId userId clientIp windowEpoch

namespace Tenant

variable (τ : Tenant)

def owns (projectId : String) : Bool := projectId ∈ τ.projects

/-- A key that is built for one of the projects, or that limits the tests of the tenant. -/
def Watches (k : String) : Prop :=
  (∃ projectId, τ.owns projectId = true ∧ ':' ∉ projectId.toList ∧
    ∃ (id : StoreId) (family : StoreFamily), k = family.key (id.text projectId)) ∨ k ∈ τ.testKeys

variable {τ}

theorem watches_of_owns {projectId : String} (howns : τ.owns projectId = true)
    (hcolon : ':' ∉ projectId.toList) {c : Cmd} (hc : OnProject projectId c) : τ.Watches c.key :=
  .inl ⟨projectId, howns, hcolon, hc⟩

theorem storeKey_ne_testKey (family : StoreFamily) (id projectId userId clientIp : String)
    (windowEpoch : ℕ) :
    family.key id ≠ webhookTestRateLimitKey projectId userId clientIp windowEpoch := by
  have htag : family.tag.toList.head? ≠ some 'w' := by
    cases family <;> simp only [StoreFamily.tag] <;> decide
  have hne : family.tag.toList ≠ [] := by
    cases family <;> simp only [StoreFamily.tag] <;> decide
  intro h
  have hleft : (family.key id).toList.head? = family.tag.toList.head? := by
    rw [family.key_eq, String.append_assoc, String.append_assoc, String.toList_append,
      List.head?_append_of_ne_nil _ hne]
  have hright : (webhookTestRateLimitKey projectId userId clientIp windowEpoch).toList.head? =
      some 'w' := by
    have hfirst : "webhook_test_rl:".toList.head? = some 'w' := by decide
    have hsome : "webhook_test_rl:".toList ≠ [] := by decide
    unfold webhookTestRateLimitKey
    simp only [String.toList_append, List.append_assoc]
    rw [List.head?_append_of_ne_nil _ hsome, hfirst]
  rw [h] at hleft
  exact htag (hleft.symm.trans hright)

theorem not_watches {projectId : String} (hother : τ.owns projectId = false)
    (hcolon : ':' ∉ projectId.toList) {c : Cmd} (hc : OnProject projectId c) :
    ¬τ.Watches c.key := by
  obtain ⟨id, family, hkey⟩ := hc
  rw [hkey]
  intro hwatched
  rcases hwatched with ⟨q, hq, hqcolon, id', family', heq⟩ | htest
  · have hne : projectId ≠ q := by
      rintro rfl
      rw [hother] at hq
      exact absurd hq (by decide)
    exact keys_never_collide (fun k => k) hcolon hqcolon hne (.store id family) (.store id' family') heq
  · obtain ⟨p, u, ip, n, hform⟩ := τ.limits_tests _ htest
    exact storeKey_ne_testKey family _ p u ip n hform

theorem not_watches_test {projectId userId clientIp : String} {windowEpoch : ℕ}
    (h : webhookTestRateLimitKey projectId userId clientIp windowEpoch ∉ τ.testKeys) :
    ¬τ.Watches (webhookTestRateLimitKey projectId userId clientIp windowEpoch) := by
  intro hwatched
  rcases hwatched with ⟨q, _, _, id, family, heq⟩ | htest
  · exact storeKey_ne_testKey family _ projectId userId clientIp windowEpoch heq.symm
  · exact h htest

end Tenant

section Programs

open ProtectActionStore RollingWindow MetricsService Tenant

variable (projectId : String) (provider : Option String) (nowMs : ℕ)

theorem getProject60s_onProject :
    Program.Issues (OnProject projectId)
      (getProject60s (scopedProjectProviderId projectId provider) nowMs) := by
  apply (getProject60s_issues (scopedProjectProviderId projectId provider) nowMs).mono
  intro c hc
  rcases hc with hc | hc
  · exact ⟨.ofProvider provider, .requests60s, hc⟩
  · exact ⟨.ofProvider provider, .tokens60s, hc⟩

theorem readInt_onProject (family : StoreFamily) :
    Program.Issues (OnProject projectId)
      (readInt (family.key (scopedProjectProviderId projectId provider))) :=
  .bind (.perform (show OnProject projectId (.get _) from ⟨.ofProvider provider, family, rfl⟩))
    fun _ => .pure _

theorem getHealth_onProject :
    Program.Issues (OnProject projectId)
      (getHealth (scopedProjectProviderId projectId provider) nowMs) := by
  have hlatency : ∀ c : Cmd, c.key = latencyKey (scopedProjectProviderId projectId provider) →
      OnProject projectId c := fun c hc => ⟨.ofProvider provider, .latency, hc⟩
  have hevents : ∀ c : Cmd, c.key = timeoutEventsKey (scopedProjectProviderId projectId provider) →
      OnProject projectId c := fun c hc => ⟨.ofProvider provider, .timeoutEvents, hc⟩
  refine Program.Issues.tryCatch ?_ fun _ => .pure _
  refine .bind (.perform (hlatency (.zremrangebyscore _ _ _) rfl)) fun _ => ?_
  refine .bind (.perform (hlatency (.zrangebyscore _ _) rfl)) fun _ => ?_
  refine .bind (readInt_onProject projectId provider .timeout) fun _ => .bind ?_ fun _ => .pure _
  refine .bind (.perform (hevents (.zremrangebyscore _ _ _) rfl)) fun _ => ?_
  exact .bind (.perform (hevents (.zrangebyscore _ _) rfl)) fun _ => .pure _

theorem getMetrics_onProject :
    Program.Issues (OnProject projectId)
      (getMetrics (scopedProjectProviderId projectId provider) nowMs) := by
  have hlast : OnProject projectId
      (.get (lastKey (scopedProjectProviderId projectId provider))) :=
    ⟨.ofProvider provider, .last, rfl⟩
  refine Program.Issues.tryCatch ?_ fun _ => .pure _
  refine .bind (readInt_onProject projectId provider .allow) fun _ => ?_
  refine .bind (readInt_onProject projectId provider .clamp) fun _ => ?_
  refine .bind (readInt_onProject projectId provider .block) fun _ => ?_
  refine .bind (readInt_onProject projectId provider .timeout) fun _ => ?_
  refine .bind (.perform hlast) fun _ => ?_
  exact .bind (getHealth_onProject projectId provider nowMs) fun _ => .pure _

theorem getRealtime_onProject (models : List ProjectModel) :
    Program.Issues (OnProject projectId) (getRealtime models projectId provider nowMs) := by
  have hsum : ∀ (providers : List String) (totals : ℕ × ℤ),
      Program.Issues (OnProject projectId) (sumRealtime projectId nowMs providers totals) := by
    intro providers
    induction providers with
    | nil => exact fun totals => .pure totals
    | cons q providers ih =>
      exact fun totals => .bind (getProject60s_onProject projectId (some q) nowMs) fun _ => ih _
  exact hsum _ _

theorem getProtectMetrics_onProject (models : List ProjectModel) :
    Program.Issues (OnProject projectId)
      (MetricsService.getProtectMetrics models projectId provider nowMs) := by
  have hgather : ∀ (providers : List String) (g : Gathered),
      Program.Issues (OnProject projectId) (gatherMetrics projectId nowMs providers g) := by
    intro providers
    induction providers with
    | nil => exact fun g => .pure g
    | cons q providers ih =>
      exact fun g => .bind (getMetrics_onProject projectId (some q) nowMs) fun _ => ih _
  exact .bind (hgather _ _) fun _ => .pure _

theorem getProtectHealth_onProject (models : List ProjectModel) :
    Program.Issues (OnProject projectId)
      (MetricsService.getProtectHealth models projectId provider nowMs) := by
  have hgather : ∀ (providers : List String) (g : GatheredHealth),
      Program.Issues (OnProject projectId) (gatherHealth projectId nowMs providers g) := by
    intro providers
    induction providers with
    | nil => exact fun g => .pure g
    | cons q providers ih =>
      exact fun g => .bind (getHealth_onProject projectId (some q) nowMs) fun _ => ih _
  exact .bind (hgather _ _) fun _ => .pure _

theorem releaseIncidentLock_onProject (incidentType : String) :
    Program.Issues (OnProject projectId)
      (releaseIncidentLock (scopedProjectProviderId projectId provider) incidentType) :=
  .bind (.perform (show OnProject projectId (.delete _) from
    ⟨.ofProvider provider, .incidentOpenLock incidentType, rfl⟩)) fun _ => .pure _

theorem enforceWebhookTestRateLimit_issues (ext : External) (key : String) :
    Program.Issues (fun c => c.key = key) (enforceWebhookTestRateLimit ext key) := by
  refine Program.Issues.tryCatch (.bind (.perform (show (Cmd.incrby key 1).key = key from rfl)) ?_) ?_
  · intro counter
    refine Program.Issues.bind ?_ fun _ => ?_
    · apply Program.Issues.ite
      · exact fun _ => .bind (.perform (show (Cmd.expire key _).key = key from rfl)) fun _ => .pure _
      · exact fun _ => .pure _
    · apply Program.Issues.ite
      · exact fun _ => .raise _
      · exact fun _ => .pure _
  · intro e
    cases e with
    | http status text => exact .raise _
    | response text => exact .pure _
    | value text => exact .pure _

end Programs

/-- The tenant's projects are those that belong to its user, and no id contains a colon. -/
def WellFormed (τ : Tenant) (d : Database) : Prop :=
  ∀ id project, d.projects.get id = some project →
    (τ.owns id = true ↔ project.userId = some τ.owner) ∧ ':' ∉ id.toList

/-- Two databases are the same as far as a tenant can tell. -/
structure SameFor (τ : Tenant) (d e : Database) : Prop where
  left : WellFormed τ d
  right : WellFormed τ e
  projects : Table.SameView (fun id _ => τ.owns id) d.projects e.projects
  ingestKeys : Table.SameView (fun _ key => τ.owns key.projectId) d.ingestKeys e.ingestKeys
  incidents : Table.SameView (fun _ i => τ.owns i.projectId) d.incidents e.incidents
  models : (d.projectModels.filter fun m => τ.owns m.projectId) =
    e.projectModels.filter fun m => τ.owns m.projectId
  outbox : Table.SameView (TransportJob.ShownTo τ.owns) d.transport.rows e.transport.rows
  redis : ∀ now, d.redis.clock ≤ now → e.redis.clock ≤ now →
    AgreeOn τ.Watches (d.redis.advance now) (e.redis.advance now)

/-- The same for the tenant, at one time. -/
structure Beside (τ : Tenant) (now : ℕ) (d e : Database) : Prop where
  same : SameFor τ d e
  leftClock : d.redis.clock = now
  rightClock : e.redis.clock = now

section Tables

variable {τ : Tenant} {d e : Database} {now : ℕ}

theorem SameFor.refl (h : WellFormed τ d) : SameFor τ d d :=
  ⟨h, h, rfl, rfl, rfl, rfl, rfl, fun _ _ _ => ⟨rfl, fun _ _ => rfl⟩⟩

theorem SameFor.symm (h : SameFor τ d e) : SameFor τ e d :=
  ⟨h.right, h.left, h.projects.symm, h.ingestKeys.symm, h.incidents.symm, h.models.symm,
    h.outbox.symm, fun now he hd => ⟨rfl, fun k hk => ((h.redis now hd he).2 k hk).symm⟩⟩

theorem Beside.redis (h : Beside τ now d e) : AgreeOn τ.Watches d.redis e.redis := by
  have hagree := h.same.redis now (le_of_eq h.leftClock) (le_of_eq h.rightClock)
  rw [← h.leftClock] at hagree
  have hright : e.redis.advance d.redis.clock = e.redis := by
    rw [h.leftClock, ← h.rightClock]
    rfl
  rw [hright] at hagree
  exact hagree

theorem SameFor.advance (h : SameFor τ d e) (hd : d.redis.clock ≤ now) (he : e.redis.clock ≤ now) :
    SameFor τ { d with redis := d.redis.advance now } { e with redis := e.redis.advance now } :=
  { h with redis := fun _ ht _ => h.redis _ (hd.trans ht) (he.trans ht) }

theorem SameFor.advance_left (h : SameFor τ d e) (hd : d.redis.clock ≤ now) :
    SameFor τ { d with redis := d.redis.advance now } e :=
  { h with redis := fun _ ht he => h.redis _ (hd.trans ht) he }

theorem WellFormed.owns (h : WellFormed τ d) {id : String} {project : ProjectRecord}
    (hget : d.projects.get id = some project) (howner : project.userId = some τ.owner) :
    τ.owns id = true :=
  (h id project hget).1.mpr howner

theorem SameFor.get_project (h : SameFor τ d e) {id : String} (hid : τ.owns id = true) :
    d.projects.get id = e.projects.get id :=
  h.projects.get_eq fun _ => hid

end Tables

end Rheonic.UserApi
