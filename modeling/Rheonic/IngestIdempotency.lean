import Rheonic.IngestEvent

namespace Rheonic.IngestEvent
open CommandProgram Keys PyText

/-- The idempotency mark, with the time at which it goes. -/
def Marked (k : String) (gone : ℕ) (w : World) : Prop :=
  w.redis.entry k = some ⟨.text (.str "1"), some gone⟩

/-- Commands that leave a key of Redis alone. -/
def Spares (k : String) : Cmd → Prop
  | .redis c => k ≠ c.key
  | .incrementProject60s p _ _ => k ≠ requests60sKey p ∧ k ≠ tokens60sKey p
  | .getProject60s p => k ≠ requests60sKey p ∧ k ≠ tokens60sKey p
  | _ => True

theorem Spares.exec {k : String} {c : Cmd} (hc : Spares k c) (raises : Cmd → Option String)
    (w : World) : (exec raises c w).2.redis.entry k = w.redis.entry k ∧
      (exec raises c w).2.projectOf = w.projectOf := by
  have hwindow : ∀ p, (k ≠ requests60sKey p ∧ k ≠ tokens60sKey p) → ∀ c : Redis.Cmd,
      RollingWindow.OnWindow p c → k ≠ c.key := by
    intro p hp c hc he
    rcases hc with hc | hc
    · exact hp.1 (he.trans hc)
    · exact hp.2 (he.trans hc)
  unfold IngestEvent.exec
  split
  · exact ⟨rfl, rfl⟩
  · cases c with
    | redis c => exact ⟨Redis.exec_entry_ne c w.redis hc, rfl⟩
    | incrementProject60s p n m =>
      have hkeep := (Redis.run_entry_ne
        (RollingWindow.incrementProject60s_issues p (some n) w.redis.clock m) (hwindow p hc)
        w.redis).1
      dsimp only
      split
      · next hrun =>
        rw [hrun] at hkeep
        exact ⟨hkeep, rfl⟩
      · next hrun =>
        rw [hrun] at hkeep
        exact ⟨hkeep, rfl⟩
    | getProject60s p =>
      exact ⟨(Redis.run_entry_ne (RollingWindow.getProject60s_issues p w.redis.clock)
        (hwindow p hc) w.redis).1, rfl⟩
    | _ => exact ⟨rfl, rfl⟩

theorem processEvent_issues (settings : Settings) (hashKey : String → String) (projectId : String)
    (r : Request) (p h : String) : Program.Issues (Spares (Keys.idempotencyKey p h))
      (processEvent settings hashKey r projectId) := by
  have hrate := idempotencyKey_ne_rateLimitKey p h (hashKey r.normalizedKey)
    (r.madeAt / 1000 / rateLimitWindow settings)
  have hwindow : ∀ q, Keys.idempotencyKey p h ≠ requests60sKey q ∧
      Keys.idempotencyKey p h ≠ tokens60sKey q := fun q =>
    ⟨idempotencyKey_ne_requests60sKey p h q, idempotencyKey_ne_tokens60sKey p h q⟩
  have hlimit : Program.Issues (Spares (Keys.idempotencyKey p h))
      (checkRateLimit settings (rateKeyAt settings hashKey r.normalizedKey r.madeAt)) := by
    apply Program.Issues.tryCatch
    · have hincr : Spares (Keys.idempotencyKey p h) (.redis (.incrby
          (rateKeyAt settings hashKey r.normalizedKey r.madeAt) 1)) := hrate
      apply Program.Issues.bind (.perform hincr)
      intro counter
      have hstart : Program.Issues (Spares (Keys.idempotencyKey p h)) (startRateLimitWindow settings
          (rateKeyAt settings hashKey r.normalizedKey r.madeAt) counter) := by
        apply Program.Issues.ite
        · intro _
          have hexpire : Spares (Keys.idempotencyKey p h) (.redis (.expire
              (rateKeyAt settings hashKey r.normalizedKey r.madeAt)
              (rateLimitWindow settings))) := hrate
          exact .bind (.perform hexpire) fun _ => .pure _
        · intro _
          exact .pure _
      apply hstart.bind
      intro _
      exact .ite (fun _ => .raise _) fun _ => .pure _
    · intro e
      cases e with
      | http status detail => exact .raise _
      | _ => exact .pure _
  apply hlimit.bind
  intro _
  have hingest : Program.Issues (Spares (Keys.idempotencyKey p h))
      (ingest (r.buildEvent projectId) r.memberId) := by
    apply Program.Issues.bind (.perform trivial)
    intro _
    have hincr : Spares (Keys.idempotencyKey p h) (.incrementProject60s
        (r.buildEvent projectId).scopedId (r.buildEvent projectId).totalTokens r.memberId) :=
      hwindow _
    apply Program.Issues.bind (.perform hincr)
    intro _
    have hread : Spares (Keys.idempotencyKey p h)
      (.getProject60s (r.buildEvent projectId).scopedId) := hwindow _
    apply Program.Issues.bind (.perform hread)
    intro counters
    exact .perform trivial
  exact hingest.bind fun _ => .pure _

/-- One request of a run with the states around it. -/
structure Served where
  answer : Except Exn String
  before : World
  after : World

def serveAll (settings : Settings) (hashKey : String → String) : World → List Request → List Served
  | _, [] => []
  | w, r :: rs =>
    let served := serve settings hashKey w r
    ⟨served.1, w, served.2⟩ :: serveAll settings hashKey served.2 rs

/-- Whatever is answered with 202, exactly one request of the run has been ingested. -/
def KeepsOneEvent (served : List Served) : Prop :=
  (∃ x ∈ served, x.answer = .ok "accepted") →
    (served.filter fun x => Ingested x.before x.after).length = 1

theorem keepsOneEvent_cons {x : Served} {served : List Served}
    (hrest : ∀ y ∈ served, y.answer = .ok "accepted" ∧ ¬Ingested y.before y.after)
    (hfirst : x.answer = .ok "accepted" → Ingested x.before x.after) :
    KeepsOneEvent (x :: served) ↔ served = [] ∨ Ingested x.before x.after := by
  have hnone : served.filter (fun y => Ingested y.before y.after) = [] := by
    rw [List.filter_eq_nil_iff]
    intro y hy
    simpa using (hrest y hy).2
  unfold KeepsOneEvent
  rw [List.filter_cons, hnone]
  by_cases hx : Ingested x.before x.after
  · simp [hx]
  · have hanswer : x.answer ≠ .ok "accepted" := fun h => hx (hfirst h)
    cases served with
    | nil => simp [hanswer, hx]
    | cons y l =>
      have hy := (hrest y List.mem_cons_self).1
      simp [hx, hy]

/-- A request of the project that carries the key, and whose steps up to the mark do not fail. -/
structure Carries (settings : Settings) (hashKey : String → String) (key projectId : String)
    (projectOf : String → Option String) (r : Request) : Prop where
  idempotencyKey_eq : r.idempotencyKey = some key
  key_ne : key ≠ ""
  ingestKey_ne : r.normalizedKey ≠ ""
  project_eq : projectOf (hashKey r.normalizedKey) = some projectId
  resolves : r.raises (.resolveProjectId (hashKey r.normalizedKey)) = none
  marks : r.raises (.redis (.setNxEx (Keys.idempotencyKey projectId (hashKey key)) (.str "1")
    settings.idempotencyTtlSeconds)) = none

section Serve

variable {settings : Settings} {hashKey : String → String} {key projectId : String} {w : World}
  {r : Request}

theorem run_ingestEventBody (hr : Carries settings hashKey key projectId w.projectOf r) {accepted : Bool}
    {s : Redis.Store}
    (hset : Redis.exec (.setNxEx (Keys.idempotencyKey projectId (hashKey key)) (.str "1")
      settings.idempotencyTtlSeconds) (w.redis.advance r.madeAt) = (.ok accepted, s)) :
    Program.run (exec r.raises) (ingestEventBody settings hashKey r)
        { w with redis := w.redis.advance r.madeAt } =
      Program.run (exec r.raises) (if accepted then processEvent settings hashKey r projectId
        else pure "accepted") { w with redis := s } := by
  have hresolve : exec r.raises (.resolveProjectId (hashKey r.normalizedKey))
      { w with redis := w.redis.advance r.madeAt } =
      (.ok (some projectId), { w with redis := w.redis.advance r.madeAt }) := by
    rw [exec, hr.resolves]
    dsimp only
    rw [hr.project_eq]
  have hkey : truthy r.idempotencyKey = some key := by
    rw [hr.idempotencyKey_eq, truthy, Option.filter_some, if_pos (by simp [hr.key_ne])]
  unfold ingestEventBody claimIdempotencyKey
  rw [if_neg hr.ingestKey_ne, Program.run_bind, Program.run_perform, hresolve]
  dsimp only
  rw [hkey, Program.run_bind]
  dsimp only
  rw [Program.run_tryCatch, run_redis_none hr.marks, hset]

theorem serve_marked (hr : Carries settings hashKey key projectId w.projectOf r) {gone : ℕ}
    (hmark : Marked (Keys.idempotencyKey projectId (hashKey key)) gone w)
    (hearly : r.madeAt < gone) (httl : 0 < settings.idempotencyTtlSeconds) :
    serve settings hashKey w r = (.ok "accepted", { w with redis := w.redis.advance r.madeAt }) := by
  have hsome : ((w.redis.advance r.madeAt).lookup
      (Keys.idempotencyKey projectId (hashKey key))).isSome = true := by
    unfold Marked at hmark
    simp [TtlStore.Store.lookup, TtlStore.Store.live, hmark, Option.filter_some,
      TtlStore.Entry.alive, hearly]
  have hset : Redis.exec (.setNxEx (Keys.idempotencyKey projectId (hashKey key)) (.str "1")
      settings.idempotencyTtlSeconds) (w.redis.advance r.madeAt) =
      (.ok false, w.redis.advance r.madeAt) := by
    rw [Redis.exec, if_neg (by omega), if_pos hsome]
  unfold serve ingestEvent
  rw [Program.run_tryCatch, run_ingestEventBody hr hset]
  rfl

theorem serve_body {result : Except Exn String} {w' : World}
    (hbody : Program.run (exec r.raises) (ingestEventBody settings hashKey r)
      { w with redis := w.redis.advance r.madeAt } = (result, w')) :
    ∃ answer, serve settings hashKey w r = (answer, w') ∧ ∀ u, answer = .ok u → result = .ok u := by
  unfold serve ingestEvent
  rw [Program.run_tryCatch, hbody]
  cases result with
  | error e => cases e <;> exact ⟨_, rfl, fun u hu => by simp at hu⟩
  | ok u => exact ⟨_, rfl, fun _ hu => hu⟩

/-- The first request leaves the mark, whatever becomes of its event. -/
theorem serve_first (hr : Carries settings hashKey key projectId w.projectOf r)
    (hwindows : WindowsTyped (w.redis.advance r.madeAt))
    (hfresh : (w.redis.advance r.madeAt).lookup (Keys.idempotencyKey projectId (hashKey key)) = none)
    (httl : 0 < settings.idempotencyTtlSeconds) :
    ∃ answer w', serve settings hashKey w r = (answer, w') ∧
      Marked (Keys.idempotencyKey projectId (hashKey key))
        (r.madeAt + settings.idempotencyTtlSeconds * 1000) w' ∧ w'.projectOf = w.projectOf ∧
      (Ingested w w' ↔ GetsThrough settings hashKey projectId r (w.redis.advance r.madeAt)) ∧
      ∀ u, answer = .ok u →
        GetsThrough settings hashKey projectId r (w.redis.advance r.madeAt) := by
  obtain ⟨s, hs⟩ : ∃ s, s = (w.redis.advance r.madeAt).put
    (Keys.idempotencyKey projectId (hashKey key)) (.text (.str "1"))
      (settings.idempotencyTtlSeconds * 1000) := ⟨_, rfl⟩
  have hset : Redis.exec (.setNxEx (Keys.idempotencyKey projectId (hashKey key)) (.str "1")
      settings.idempotencyTtlSeconds) (w.redis.advance r.madeAt) = (.ok true, s) := by
    rw [Redis.exec, if_neg (by omega), hfresh, if_neg (by simp), hs]
  -- the marker is set first, and is no key of the limiter or of the windows
  have hkeep : ∀ k, k ≠ Keys.idempotencyKey projectId (hashKey key) →
      s.lookup k = (w.redis.advance r.madeAt).lookup k := by
    intro k hk
    rw [hs]
    exact TtlStore.Store.lookup_setEntry_ne _ _ hk
  have hwindows' : WindowsTyped s := hwindows.of_lookup fun p =>
    ⟨hkeep _ (idempotencyKey_ne_requests60sKey _ _ _).symm,
      hkeep _ (idempotencyKey_ne_tokens60sKey _ _ _).symm⟩
  have hthrough : GetsThrough settings hashKey projectId r s ↔
      GetsThrough settings hashKey projectId r (w.redis.advance r.madeAt) := by
    unfold GetsThrough RateLimited
    rw [hkeep (rateKeyAt settings hashKey r.normalizedKey r.madeAt)
      (idempotencyKey_ne_rateLimitKey _ _ _ _).symm]
  obtain ⟨hingested, haccepted⟩ := run_processEvent settings hashKey projectId r
    (w := { w with redis := s }) hwindows'
  have hmark : s.entry (Keys.idempotencyKey projectId (hashKey key)) =
      some ⟨.text (.str "1"), some (r.madeAt + settings.idempotencyTtlSeconds * 1000)⟩ := by
    rw [hs]
    exact TtlStore.Store.setEntry_entry_self _ _ _
  -- nothing that the body does touches the marker
  have hspares := (processEvent_issues settings hashKey projectId r projectId
    (hashKey key)).run_preserves (exec r.raises)
      (fun w' => w'.redis.entry (Keys.idempotencyKey projectId (hashKey key)) =
        some ⟨.text (.str "1"), some (r.madeAt + settings.idempotencyTtlSeconds * 1000)⟩ ∧
          w'.projectOf = w.projectOf)
      (fun c w' hc hw' => ⟨(hc.exec r.raises w').1.trans hw'.1,
        (hc.exec r.raises w').2.trans hw'.2⟩) (s := { w with redis := s }) ⟨hmark, rfl⟩
  have hbody := run_ingestEventBody hr hset
  rw [if_pos rfl] at hbody
  -- so that whatever the body answers, the marker stays
  rcases hrun : Program.run (exec r.raises) (processEvent settings hashKey r projectId)
    { w with redis := s } with ⟨result, w'⟩
  rw [hrun] at hbody hspares hingested haccepted
  obtain ⟨answer, hserve, hanswer⟩ := serve_body hbody
  refine ⟨answer, w', hserve, hspares.1, hspares.2, hingested.trans hthrough, fun u hu => ?_⟩
  exact hthrough.mp (haccepted u (hanswer u hu)).2

theorem serveAll_marked {rs : List Request} {gone : ℕ}
    (hcarry : ∀ r ∈ rs, Carries settings hashKey key projectId w.projectOf r)
    (hmark : Marked (Keys.idempotencyKey projectId (hashKey key)) gone w)
    (hearly : ∀ r ∈ rs, r.madeAt < gone) (httl : 0 < settings.idempotencyTtlSeconds) :
    ∀ x ∈ serveAll settings hashKey w rs, x.answer = .ok "accepted" ∧ ¬Ingested x.before x.after := by
  induction rs generalizing w with
  | nil => simp [serveAll]
  | cons r rs ih =>
    have hserve := serve_marked (hcarry r List.mem_cons_self) hmark
      (hearly r List.mem_cons_self) httl
    intro x hx
    rw [serveAll, hserve, List.mem_cons] at hx
    rcases hx with rfl | hx
    · exact ⟨rfl, by simp [Ingested]⟩
    · exact ih (w := { w with redis := w.redis.advance r.madeAt })
        (fun r hr => hcarry r (List.mem_cons_of_mem _ hr)) hmark
        (fun r hr => hearly r (List.mem_cons_of_mem _ hr)) x hx

theorem serveAll_length (settings : Settings) (hashKey : String → String) (w : World)
    (rs : List Request) : (serveAll settings hashKey w rs).length = rs.length := by
  induction rs generalizing w with
  | nil => rfl
  | cons r rs ih => rw [serveAll, List.length_cons, ih, List.length_cons]

/-- The law holds of a run exactly if no request is repeated or the first one gets through. -/
theorem keepsOneEvent_iff {rs : List Request}
    (hcarry : ∀ r ∈ rs, Carries settings hashKey key projectId w.projectOf r)
    (hwindows : WindowsTyped w.redis)
    (hfresh : w.redis.lookup (Keys.idempotencyKey projectId (hashKey key)) = none)
    (hclock : ∀ r ∈ rs, w.redis.clock ≤ r.madeAt)
    (hwithin : ∀ f ∈ rs.head?, ∀ r ∈ rs,
      r.madeAt < f.madeAt + settings.idempotencyTtlSeconds * 1000) :
    KeepsOneEvent (serveAll settings hashKey w rs) ↔ rs.length ≤ 1 ∨
      ∀ f ∈ rs.head?, GetsThrough settings hashKey projectId f (w.redis.advance f.madeAt) := by
  cases rs with
  | nil => simp [serveAll, KeepsOneEvent]
  | cons f rs =>
    -- the first request is one of the list, so the life of the marker is not zero
    have hlate := hwithin f rfl f List.mem_cons_self
    have httl : 0 < settings.idempotencyTtlSeconds := by
      by_contra hzero
      rw [Nat.eq_zero_of_not_pos hzero] at hlate
      omega
    have hle := hclock f List.mem_cons_self
    have hnone : (w.redis.advance f.madeAt).lookup (Keys.idempotencyKey projectId (hashKey key)) =
        none := by
      rw [TtlStore.Store.lookup, Option.map_eq_none_iff] at hfresh ⊢
      rw [TtlStore.Store.live_advance _ hle, hfresh]
      rfl
    obtain ⟨answer, w', hserve, hmark, hproject, hingested, haccepted⟩ :=
      serve_first (hcarry f List.mem_cons_self) (hwindows.advance hle) hnone httl
    have hcarry' : ∀ r ∈ rs, Carries settings hashKey key projectId
        w'.projectOf r := by
      intro r hr
      rw [hproject]
      exact hcarry r (List.mem_cons_of_mem _ hr)
    -- the marker stands for all later requests, whatever came of the first
    have hrest := serveAll_marked hcarry' hmark
      (fun r hr => hwithin f rfl r (List.mem_cons_of_mem _ hr)) httl
    have hfirst : answer = .ok "accepted" → Ingested w w' :=
      fun h => hingested.mpr (haccepted _ h)
    have hempty : serveAll settings hashKey w' rs = [] ↔ (f :: rs).length ≤ 1 := by
      rw [← List.length_eq_zero_iff, serveAll_length, List.length_cons]
      omega
    have hhead : (∀ g ∈ (f :: rs).head?,
        GetsThrough settings hashKey projectId g (w.redis.advance g.madeAt)) ↔
        GetsThrough settings hashKey projectId f (w.redis.advance f.madeAt) :=
      ⟨fun h => h f rfl, fun h g hg => Option.some.inj hg ▸ h⟩
    -- so one event is kept exactly if the first one has brought it
    have hcons := keepsOneEvent_cons (x := ⟨answer, w, w'⟩) hrest hfirst
    rw [serveAll, hserve]
    exact hcons.trans (or_congr hempty (hingested.trans hhead.symm))

end Serve

instance (served : List Served) : Decidable (KeepsOneEvent served) :=
  inferInstanceAs (Decidable (_ → _))

/-- The hashes of the two keys below. -/
def sampleHash (s : String) : String :=
  if s = "rk_live" then "d2c4b33ee5efdbb7dd198415ba6ce5bb93e4951c859adcc0d22a768e37b9193c"
  else if s = "idem-1" then "d05b61bd4b70e0d9a197ac9360f8c24e4eaed5336d31aafd5e16d829c6576df3"
  else ""

def sampleWorld : World where
  redis := .empty 1000
  projectOf keyHash := if keyHash = sampleHash "rk_live" then some "p1" else none
  events := []
  increments := []

/-- A request whose event the repository refuses to store, or not. -/
def sampleRequest (refused : Bool) (madeAt : ℕ) : Request where
  payload := { ts := 1, provider := "openai", response := some { totalTokens := some 50 } }
  ingestKey := some "rk_live"
  idempotencyKey := some "idem-1"
  eventId := "e1"
  memberId := "m1"
  madeAt := madeAt
  raises
    | .addEvent _ => if refused then some "could not connect" else none
    | _ => none

/-- The first request fails with 500 after the mark, its retry is answered 202, and no event is
left. -/
theorem retry_accepted_without_event :
    ¬KeepsOneEvent (serveAll {} sampleHash sampleWorld
      [sampleRequest true 2000, sampleRequest false 3000]) := by
  decide

theorem windowsTyped_empty (now : ℕ) : WindowsTyped (.empty now) := by
  intro p
  exact ⟨⟨_, rfl⟩, ⟨_, rfl⟩⟩

theorem keepsOneEvent_iff_sample :
    KeepsOneEvent (serveAll {} sampleHash sampleWorld
        [sampleRequest false 2000, sampleRequest false 3000]) ↔
      [sampleRequest false 2000, sampleRequest false 3000].length ≤ 1 ∨
        ∀ f ∈ [sampleRequest false 2000, sampleRequest false 3000].head?,
          GetsThrough {} sampleHash "p1" f (sampleWorld.redis.advance f.madeAt) := by
  have hkey : normalizeIngestKey "rk_live" ≠ "" := by decide
  have hproject : sampleWorld.projectOf (sampleHash (normalizeIngestKey "rk_live")) = some "p1" := by
    decide
  have hcarry : ∀ r ∈ [sampleRequest false 2000, sampleRequest false 3000],
      Carries {} sampleHash "idem-1" "p1" sampleWorld.projectOf r := by
    intro r hr
    simp only [List.mem_cons, List.not_mem_nil, or_false] at hr
    rcases hr with rfl | rfl
    · exact ⟨rfl, by decide, hkey, hproject, rfl, rfl⟩
    · exact ⟨rfl, by decide, hkey, hproject, rfl, rfl⟩
  exact keepsOneEvent_iff hcarry (windowsTyped_empty 1000) rfl (by decide) (by decide)

end Rheonic.IngestEvent
