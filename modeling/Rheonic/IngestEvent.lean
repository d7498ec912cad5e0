import Rheonic.RollingWindow

namespace Rheonic.IngestEvent
open CommandProgram Keys PyText

structure EventRequestIn where
  inputTokens : Option ℤ := none
  inputTokensEstimate : Option ℤ := none
  tokenExplosionTokens : Option ℤ := none
  maxOutputTokens : Option ℤ := none
  endpoint : Option String := none
  feature : Option String := none
  requestFingerprint : Option String := none
  protectDecision : Option String := none
  protectReason : Option String := none
  deriving DecidableEq, Repr

structure EventResponseIn where
  outputTokens : Option ℤ := none
  totalTokens : Option ℤ := none
  latencyMs : Option ℤ := none
  httpStatus : Option ℤ := none
  errorType : Option String := none
  errorMessage : Option String := none
  deriving DecidableEq, Repr

/-- The validated request body. Token counts may have any sign. -/
structure EventIn where
  ts : ℕ
  provider : String
  requestedModel : Option String := none
  resolvedModel : Option String := none
  environment : Option String := none
  status : Option String := none
  request : Option EventRequestIn := none
  response : Option EventResponseIn := none
  deriving DecidableEq, Repr

structure Event where
  id : String
  ts : ℕ
  projectId : String
  provider : String
  requestedModel : Option String
  resolvedModel : Option String
  environment : Option String
  inputTokens : ℤ
  outputTokens : ℤ
  totalTokens : ℤ
  latencyMs : Option ℤ
  status : Option String
  errorType : Option String
  errorMessage : Option String
  httpStatus : Option ℤ
  createdAt : ℕ
  tokenExplosionTokens : Option ℤ
  requestEndpoint : Option String
  requestFeature : Option String
  requestFingerprint : Option String
  deriving DecidableEq, Repr

def Event.scopedId (event : Event) : String :=
  scopedProjectProviderId event.projectId (some (orElse (some (strip event.provider)) "unknown"))

structure Settings where
  idempotencyTtlSeconds : ℕ := 120
  ingestRateLimitPerMinute : ℤ := 600
  rateLimitWindowSeconds : ℤ := 60

/-- Input, output and total tokens; an explicit total takes precedence. -/
def resolveTokens (payload : EventIn) : ℤ × ℤ × ℤ :=
  let inputTokens := (payload.request.bind (·.inputTokens)).getD 0
  let outputTokens := (payload.response.bind (·.outputTokens)).getD 0
  match payload.response with
  | none => (inputTokens, outputTokens, 0)
  | some response =>
    match response.totalTokens, payload.request with
    | some totalTokens, _ => (inputTokens, outputTokens, totalTokens)
    | none, some request => (inputTokens, outputTokens,
        request.inputTokens.getD 0 + response.outputTokens.getD 0)
    | none, none => (inputTokens, outputTokens, 0)

/-- Normalize a copied ingest key: quotes, whitespace and an env-style beginning. -/
def normalizeIngestKey (plaintext : String) : String :=
  let value := stripOf '\'' (stripOf '"' (strip plaintext))
  if "RHEONIC_INGEST_KEY=".toList.isPrefixOf value.toList then
    strip (stripOf '\'' (stripOf '"' (strip (String.ofList (value.toList.drop 19)))))
  else strip value

/-- The steps of ingesting that may fail on their own. `finishIngest` is the rest of the service's
`ingest` once the window has been read: it writes neither events nor the window. -/
inductive Cmd where
  | redis (c : Redis.Cmd)
  | resolveProjectId (keyHash : String)
  | addEvent (event : Event)
  | incrementProject60s (projectId : String) (totalTokens : ℤ) (memberId : String)
  | getProject60s (projectId : String)
  | finishIngest (event : Event) (requests60s : ℕ) (tokens60s : ℤ)
  deriving DecidableEq

abbrev Cmd.Reply : Cmd → Type
  | .redis c => c.Reply
  | .resolveProjectId _ => Option String
  | .addEvent _ | .incrementProject60s _ _ _ | .finishIngest _ _ _ => Unit
  | .getProject60s _ => ℕ × ℤ

/-- The stores that ingesting uses: Redis with its clock, the projects of the active ingest keys by
hash, the event table, and the increments the rolling window has received. -/
structure World where
  redis : Redis.Store
  projectOf : String → Option String
  events : List Event
  increments : List (String × RollingWindow.Point)

/-- A step takes effect, unless `raises` makes it fail without one. -/
def exec (raises : Cmd → Option String) (c : Cmd) (w : World) : Except Exn c.Reply × World :=
  match raises c with
  | some message => (.error (.response message), w)
  | none =>
    match c with
    | .redis c => ((Redis.exec c w.redis).1, { w with redis := (Redis.exec c w.redis).2 })
    | .resolveProjectId keyHash => (.ok (w.projectOf keyHash), w)
    | .addEvent event => (.ok (), { w with events := w.events ++ [event] })
    | .incrementProject60s projectId totalTokens memberId =>
      match Redis.run (RollingWindow.incrementProject60s projectId (some totalTokens)
        w.redis.clock memberId) w.redis with
      | (.ok _, s) => (.ok (), { w with
          redis := s
          increments := w.increments ++ [(projectId, ⟨w.redis.clock, memberId, totalTokens⟩)] })
      | (.error e, s) => (.error e, { w with redis := s })
    | .getProject60s projectId =>
      let r := Redis.run (RollingWindow.getProject60s projectId w.redis.clock) w.redis
      (r.1, { w with redis := r.2 })
    | .finishIngest _ _ _ => (.ok (), w)

abbrev Prog := Program Cmd Cmd.Reply Exn

def redis (c : Redis.Cmd) : Prog c.Reply := .perform (Cmd.redis c)

/-- What `ingest` does with the window it has written. -/
def readAndFinish (event : Event) : Prog Unit := do
  let (requests60s, tokens60s) ← .perform (Cmd.getProject60s event.scopedId)
  .perform (Cmd.finishIngest event requests60s tokens60s)

/-- `IngestEventService.ingest`. -/
def ingest (event : Event) (memberId : String) : Prog Unit := do
  let _ ← .perform (Cmd.addEvent event)
  let _ ← .perform (Cmd.incrementProject60s event.scopedId event.totalTokens memberId)
  readAndFinish event

/-- One request with its headers, the ids and the time it is given, and the steps that fail. -/
structure Request where
  payload : EventIn
  ingestKey : Option String
  idempotencyKey : Option String
  eventId : String
  memberId : String
  madeAt : ℕ
  raises : Cmd → Option String

namespace Request

def normalizedKey (r : Request) : String := normalizeIngestKey (r.ingestKey.getD "")

def buildEvent (r : Request) (projectId : String) : Event where
  id := r.eventId
  ts := r.payload.ts
  projectId := projectId
  provider := r.payload.provider
  requestedModel := r.payload.requestedModel
  resolvedModel := r.payload.resolvedModel
  environment := r.payload.environment
  inputTokens := (resolveTokens r.payload).1
  outputTokens := (resolveTokens r.payload).2.1
  totalTokens := (resolveTokens r.payload).2.2
  latencyMs := r.payload.response.bind (·.latencyMs)
  status := r.payload.status
  errorType := truthy (r.payload.response.bind (·.errorType))
  errorMessage := truthy (r.payload.response.bind (·.errorMessage))
  httpStatus := r.payload.response.bind (·.httpStatus)
  createdAt := r.madeAt
  tokenExplosionTokens := r.payload.request.bind (·.tokenExplosionTokens)
  requestEndpoint := r.payload.request.bind (·.endpoint)
  requestFeature := r.payload.request.bind (·.feature)
  requestFingerprint := r.payload.request.bind (·.requestFingerprint)

end Request

section Endpoint

variable (settings : Settings) (hashKey : String → String)

def rateLimitWindow : ℕ := (max settings.rateLimitWindowSeconds 1).toNat

/-- The rate-limit key of an ingest key at a time in milliseconds. -/
def rateKeyAt (normalizedKey : String) (now : ℕ) : String :=
  rateLimitKey (hashKey normalizedKey) (now / 1000 / rateLimitWindow settings)

/-- Whether the request may go on. Where Redis fails it may. -/
def claimIdempotencyKey (projectId : String) (idempotencyKey : Option String) : Prog Bool :=
  match truthy idempotencyKey with
  | none => pure true
  | some key =>
    tryCatchThe Exn (redis (.setNxEx (Keys.idempotencyKey projectId (hashKey key)) (.str "1")
      settings.idempotencyTtlSeconds)) fun _ => pure true

def startRateLimitWindow (key : String) (counter : ℤ) : Prog Unit :=
  if counter = 1 then do
    let _ ← redis (.expire key (rateLimitWindow settings))
    pure ()
  else pure ()

def rateLimitExceeded : Exn := .http 429 "rate limit exceeded"

/-- HTTP errors are passed on and so is nothing else: without Redis there is no rate limit. -/
def checkRateLimit (key : String) : Prog Unit :=
  tryCatchThe Exn (do
    let counter ← redis (.incrby key 1)
    startRateLimitWindow settings key counter
    if settings.ingestRateLimitPerMinute < counter then throw rateLimitExceeded else pure ())
    fun
      | .http status detail => throw (.http status detail)
      | _ => pure ()

/-- What follows once the idempotency key has been claimed. -/
def processEvent (r : Request) (projectId : String) : Prog String := do
  checkRateLimit settings (rateKeyAt settings hashKey r.normalizedKey r.madeAt)
  ingest (r.buildEvent projectId) r.memberId
  pure "accepted"

def ingestEventBody (r : Request) : Prog String :=
  if r.normalizedKey = "" then throw (.http 401 "missing ingest key")
  else do
    let projectId ← .perform (Cmd.resolveProjectId (hashKey r.normalizedKey))
    match projectId with
    | none => throw (.http 401 "invalid ingest key")
    | some projectId =>
      let accepted ← claimIdempotencyKey settings hashKey projectId r.idempotencyKey
      if accepted then processEvent settings hashKey r projectId else pure "accepted"

/-- Receive an SDK event. Every failure is answered with an HTTP error. -/
def ingestEvent (r : Request) : Prog String :=
  tryCatchThe Exn (ingestEventBody settings hashKey r) fun
    | .http status detail => throw (.http status detail)
    | _ => throw (.http 500 "Failed to ingest event")

def serve (w : World) (r : Request) : Except Exn String × World :=
  Program.run (exec r.raises) (ingestEvent settings hashKey r)
    { w with redis := w.redis.advance r.madeAt }

/-- The counter of the current minute is full, and Redis is there to say so. -/
def RateLimited (raises : Cmd → Option String) (key : String) (s : Redis.Store) : Prop :=
  raises (.redis (.incrby key 1)) = none ∧
    ∃ n, Redis.counterOf (s.lookup key) = some n ∧ Redis.inRange (n + 1) = true ∧
      (n + 1 = 1 → raises (.redis (.expire key (rateLimitWindow settings))) = none) ∧
      settings.ingestRateLimitPerMinute < n + 1

variable {settings} {raises : Cmd → Option String} {w : World} {key : String}

theorem run_redis_none {c : Redis.Cmd} (h : raises (.redis c) = none) :
    Program.run (exec raises) (redis c) w =
      ((Redis.exec c w.redis).1, { w with redis := (Redis.exec c w.redis).2 }) := by
  rw [redis, Program.run_perform, exec, h]

theorem run_redis_some {c : Redis.Cmd} {message : String} (h : raises (.redis c) = some message) :
    Program.run (exec raises) (redis c) w = (.error (.response message), w) := by
  rw [redis, Program.run_perform, exec, h]

/-- Starting the window of a fresh counter changes only its time to live. -/
theorem run_startRateLimitWindow (settings : Settings) (raises : Cmd → Option String) (w : World)
    (key : String) (counter : ℤ) :
    ∃ s', (∀ k, k ≠ key → s'.entry k = w.redis.entry k) ∧ s'.clock = w.redis.clock ∧
      ((counter = 1 → raises (.redis (.expire key (rateLimitWindow settings))) = none) ∧
          Program.run (exec raises) (startRateLimitWindow settings key counter) w =
            (.ok (), { w with redis := s' }) ∨
        ¬(counter = 1 → raises (.redis (.expire key (rateLimitWindow settings))) = none) ∧
          ∃ message, Program.run (exec raises) (startRateLimitWindow settings key counter) w =
            (.error (.response message), { w with redis := s' })) := by
  unfold startRateLimitWindow
  by_cases hone : counter = 1
  · rw [if_pos hone, Program.run_bind]
    cases hexpire : raises (.redis (.expire key (rateLimitWindow settings))) with
    | some message =>
      rw [run_redis_some hexpire]
      exact ⟨w.redis, fun _ _ => rfl, rfl, .inr ⟨by simp [hone], message, rfl⟩⟩
    | none =>
      rw [run_redis_none hexpire]
      have hkeep : ∀ k, k ≠ key →
          (Redis.exec (.expire key (rateLimitWindow settings)) w.redis).2.entry k =
            w.redis.entry k := fun k hk =>
        Redis.exec_entry_ne (.expire key (rateLimitWindow settings)) w.redis hk
      exact ⟨_, hkeep, Redis.exec_clock _ _, .inl ⟨fun _ => rfl, rfl⟩⟩
  · rw [if_neg hone]
    exact ⟨w.redis, fun _ _ => rfl, rfl, .inl ⟨fun h => absurd h hone, rfl⟩⟩

/-- The rate limiter writes its own key and nothing else. -/
theorem run_checkRateLimit (settings : Settings) (raises : Cmd → Option String) (w : World)
    (key : String) :
    ∃ s', (∀ k, k ≠ key → s'.entry k = w.redis.entry k) ∧ s'.clock = w.redis.clock ∧
      (RateLimited settings raises key w.redis ∧
          Program.run (exec raises) (checkRateLimit settings key) w =
            (.error rateLimitExceeded, { w with redis := s' }) ∨
        ¬RateLimited settings raises key w.redis ∧
          Program.run (exec raises) (checkRateLimit settings key) w =
            (.ok (), { w with redis := s' })) := by
  unfold checkRateLimit
  rw [Program.run_tryCatch, Program.run_bind]
  cases hincr : raises (.redis (.incrby key 1)) with
  | some message =>
    -- a store that does not answer lets the request through
    refine ⟨w.redis, fun _ _ => rfl, rfl, .inr ⟨fun h => by simp [h.1] at hincr, ?_⟩⟩
    rw [run_redis_some hincr]
    rfl
  | none =>
    rw [run_redis_none hincr]
    by_cases hcount : ∃ n, Redis.counterOf (w.redis.lookup key) = some n ∧
        Redis.inRange (n + 1) = true
    · obtain ⟨n, hn, hrange⟩ := hcount
      have hexec : Redis.exec (.incrby key 1) w.redis =
          (.ok (n + 1), w.redis.alter key (some (Redis.number (n + 1)))) := by
        simp only [Redis.exec, hn, hrange, if_true, Redis.number]
      rw [hexec]
      obtain ⟨s', hentry, hclock, hstart⟩ := run_startRateLimitWindow settings raises
        { w with redis := w.redis.alter key (some (Redis.number (n + 1))) } key (n + 1)
      have hentry' : ∀ k, k ≠ key → s'.entry k = w.redis.entry k := by
        intro k hk
        exact (hentry k hk).trans (TtlStore.Store.setEntry_entry_ne _ _ hk)
      refine ⟨s', hentry', hclock, ?_⟩
      dsimp only
      rw [Program.run_bind]
      rcases hstart with ⟨hexpire, hrun⟩ | ⟨hexpire, message, hrun⟩
      · rw [hrun]
        dsimp only
        by_cases hlimit : settings.ingestRateLimitPerMinute < n + 1
        · rw [if_pos hlimit]
          -- only this one refuses the request
          exact .inl ⟨⟨hincr, n, hn, hrange, hexpire, hlimit⟩, rfl⟩
        · rw [if_neg hlimit]
          refine .inr ⟨fun h => ?_, rfl⟩
          obtain ⟨-, m, hm, -, -, hover⟩ := h
          rw [hn, Option.some.injEq] at hm
          omega
      -- the expiry has failed, and the error is swallowed before the limit is compared
      · rw [hrun]
        refine .inr ⟨fun h => ?_, rfl⟩
        obtain ⟨-, m, hm, -, hm', -⟩ := h
        rw [hn, Option.some.injEq] at hm
        exact hexpire (hm ▸ hm')
    -- the increment itself is refused, and that is swallowed as well
    · have hexec : Redis.exec (.incrby key 1) w.redis = (.error Redis.notAnInteger, w.redis) := by
        simp only [Redis.exec]
        cases hn : Redis.counterOf (w.redis.lookup key) with
        | none => rfl
        | some n =>
          have hrange : ¬Redis.inRange (n + 1) = true := fun h => hcount ⟨n, hn, h⟩
          simp [hrange]
      rw [hexec]
      refine ⟨w.redis, fun _ _ => rfl, rfl, .inr ⟨fun h => ?_, rfl⟩⟩
      obtain ⟨-, n, hn, hrange, -⟩ := h
      exact hcount ⟨n, hn, hrange⟩

/-- The event has been stored and the rolling window has received it. -/
def Ingested (w w' : World) : Prop :=
  w.events.length < w'.events.length ∧ w.increments.length < w'.increments.length

instance (w w' : World) : Decidable (Ingested w w') := inferInstanceAs (Decidable (_ ∧ _))

/-- The keys of every rolling window hold sorted sets. -/
def WindowsTyped (s : Redis.Store) : Prop :=
  ∀ p, (∃ z, Redis.zsetOf (s.lookup (requests60sKey p)) = some z) ∧
    ∃ z, Redis.zsetOf (s.lookup (tokens60sKey p)) = some z

/-- What the service does for an event is done once both writes have gone through. -/
def Writes (raises : Cmd → Option String) (event : Event) (memberId : String) : Prop :=
  raises (.addEvent event) = none ∧
    raises (.incrementProject60s event.scopedId event.totalTokens memberId) = none

/-- The steps that write neither events nor the window. -/
def Reads : Cmd → Prop
  | .getProject60s _ | .finishIngest _ _ _ => True
  | _ => False

theorem readAndFinish_issues (event : Event) : Program.Issues Reads (readAndFinish event) := by
  apply Program.Issues.bind (.perform trivial)
  intro counters
  exact .perform trivial

theorem readAndFinish_keeps (event : Event) (raises : Cmd → Option String) (w : World) :
    (Program.run (exec raises) (readAndFinish event) w).2.events = w.events ∧
      (Program.run (exec raises) (readAndFinish event) w).2.increments = w.increments := by
  refine (readAndFinish_issues event).run_preserves (exec raises)
    (fun w' => w'.events = w.events ∧ w'.increments = w.increments) ?_ ⟨rfl, rfl⟩
  intro c w' hc hw'
  unfold exec
  split
  · exact hw'
  · cases c with
    | getProject60s p => exact hw'
    | finishIngest event r t => exact hw'
    | _ => exact absurd hc id

theorem run_ingest (raises : Cmd → Option String) {w : World} (hwindows : WindowsTyped w.redis)
    (event : Event) (memberId : String) :
    (Ingested w (Program.run (exec raises) (ingest event memberId) w).2 ↔
        Writes raises event memberId) ∧
      ∀ u, (Program.run (exec raises) (ingest event memberId) w).1 = .ok u →
        Writes raises event memberId := by
  unfold ingest
  rw [Program.run_bind, Program.run_perform]
  cases hadd : raises (.addEvent event) with
  | some message =>
    have hexec : exec raises (.addEvent event) w = (.error (.response message), w) := by
      rw [exec, hadd]
    rw [hexec]
    simp [Ingested, Writes, hadd]
  | none =>
    have hexec : exec raises (.addEvent event) w =
        (.ok (), { w with events := w.events ++ [event] }) := by rw [exec, hadd]
    rw [hexec]
    dsimp only
    rw [Program.run_bind, Program.run_perform]
    cases hinc : raises (.incrementProject60s event.scopedId event.totalTokens memberId) with
    | some message =>
      have hexec' : exec raises
          (.incrementProject60s event.scopedId event.totalTokens memberId)
          { w with events := w.events ++ [event] } =
          (.error (.response message), { w with events := w.events ++ [event] }) := by
        rw [exec, hinc]
      rw [hexec']
      simp [Ingested, Writes, hinc]
    | none =>
      -- both windows have their type, so the increment itself succeeds
      obtain ⟨⟨z, hz⟩, z', hz'⟩ := hwindows event.scopedId
      obtain ⟨s', hs'⟩ := RollingWindow.incrementProject60s_ok hz hz' (some event.totalTokens)
        w.redis.clock memberId
      have hexec' : exec raises
          (.incrementProject60s event.scopedId event.totalTokens memberId)
          { w with events := w.events ++ [event] } =
          (.ok (), ⟨s', w.projectOf, w.events ++ [event],
            w.increments ++ [(event.scopedId, ⟨w.redis.clock, memberId, event.totalTokens⟩)]⟩) := by
        rw [exec, hinc]
        dsimp only
        rw [hs']
      rw [hexec']
      -- reading the counters back can fail, but writes nothing
      have hrest := readAndFinish_keeps event raises ⟨s', w.projectOf, w.events ++ [event],
        w.increments ++ [(event.scopedId, ⟨w.redis.clock, memberId, event.totalTokens⟩)]⟩
      have hwrites : Writes raises event memberId := ⟨hadd, hinc⟩
      refine ⟨⟨fun _ => hwrites, fun _ => ?_⟩, fun _ _ => hwrites⟩
      dsimp only
      unfold Ingested
      rw [hrest.1, hrest.2]
      simp

theorem WindowsTyped.of_lookup {s s' : Redis.Store} (h : WindowsTyped s)
    (hlookup : ∀ p, s'.lookup (requests60sKey p) = s.lookup (requests60sKey p) ∧
      s'.lookup (tokens60sKey p) = s.lookup (tokens60sKey p)) : WindowsTyped s' := by
  intro p
  rw [(hlookup p).1, (hlookup p).2]
  exact h p

theorem WindowsTyped.advance {s : Redis.Store} (h : WindowsTyped s) {t : ℕ} (ht : s.clock ≤ t) :
    WindowsTyped (s.advance t) := by
  have hkey : ∀ k, (∃ z, Redis.zsetOf (s.lookup k) = some z) →
      ∃ z, Redis.zsetOf ((s.advance t).lookup k) = some z := by
    intro k hk
    rw [TtlStore.Store.lookup, s.live_advance ht]
    rw [TtlStore.Store.lookup] at hk
    cases hlive : s.live k with
    | none => exact ⟨_, rfl⟩
    | some e =>
      rw [hlive] at hk
      by_cases halive : e.alive t = true
      · rw [Option.filter_some, if_pos halive]
        exact hk
      · rw [Option.filter_some, if_neg halive]
        exact ⟨_, rfl⟩
  exact fun p => ⟨hkey _ (h p).1, hkey _ (h p).2⟩

/-- The rate limiter lets the request through and neither write fails. -/
def GetsThrough (settings : Settings) (hashKey : String → String) (projectId : String)
    (r : Request) (s : Redis.Store) : Prop :=
  ¬RateLimited settings r.raises (rateKeyAt settings hashKey r.normalizedKey r.madeAt) s ∧
    Writes r.raises (r.buildEvent projectId) r.memberId

theorem run_processEvent (settings : Settings) (hashKey : String → String) (projectId : String)
    (r : Request) {w : World} (hwindows : WindowsTyped w.redis) :
    (Ingested w (Program.run (exec r.raises) (processEvent settings hashKey r projectId) w).2 ↔
        GetsThrough settings hashKey projectId r w.redis) ∧
      ∀ u, (Program.run (exec r.raises) (processEvent settings hashKey r projectId) w).1 = .ok u →
        u = "accepted" ∧ GetsThrough settings hashKey projectId r w.redis := by
  obtain ⟨s', hentry, hclock, hlimit⟩ := run_checkRateLimit settings r.raises w
    (rateKeyAt settings hashKey r.normalizedKey r.madeAt)
  unfold processEvent
  rw [Program.run_bind]
  rcases hlimit with ⟨hlimited, hrun⟩ | ⟨hfree, hrun⟩
  · rw [hrun]
    simp [Ingested, GetsThrough, hlimited]
  · rw [hrun]
    dsimp only
    have hwindows' : WindowsTyped s' := hwindows.of_lookup fun p =>
      ⟨Redis.lookup_eq_of_entry (hentry _ (requests60sKey_ne_rateLimitKey _ _ _)) hclock,
        Redis.lookup_eq_of_entry (hentry _ (tokens60sKey_ne_rateLimitKey _ _ _)) hclock⟩
    obtain ⟨hingested, haccepted⟩ := run_ingest r.raises (w := { w with redis := s' }) hwindows'
      (r.buildEvent projectId) r.memberId
    rw [Program.run_bind]
    rcases hingest : Program.run (exec r.raises) (ingest (r.buildEvent projectId) r.memberId)
      { w with redis := s' } with ⟨e | u, w'⟩
    · rw [hingest] at hingested
      refine ⟨⟨fun h => ⟨hfree, hingested.mp h⟩, fun h => hingested.mpr h.2⟩, fun u hu => ?_⟩
      simp at hu
    · rw [hingest] at hingested haccepted
      have hwrites := haccepted u rfl
      refine ⟨⟨fun _ => ⟨hfree, hwrites⟩, fun h => hingested.mpr h.2⟩, fun v hv => ?_⟩
      exact ⟨(Except.ok.inj hv).symm, hfree, hwrites⟩

end Endpoint

end Rheonic.IngestEvent
