import Rheonic.IngestIdempotency

namespace Rheonic.SdkClient
open CommandProgram PyText IngestEvent

inductive OverflowPolicy
  | dropOldest
  | dropNewest
  deriving DecidableEq, Repr

structure ClientConfig where
  ingestKey : String
  environment : String := "unknown"
  maxQueueSize : ℕ := 1000
  overflowPolicy : OverflowPolicy := .dropOldest

/-- A captured event, numbered by the order of capture. -/
structure Captured where
  number : ℕ
  event : EventIn
  deriving DecidableEq, Repr

structure Client where
  queue : List Captured := []
  captured : ℕ := 0
  sent : ℕ := 0
  failed : ℕ := 0
  dropped : ℕ := 0
  deriving DecidableEq, Repr

/-- `capture_event`. A full queue loses its oldest event, or the new one. -/
def captureEvent (config : ClientConfig) (event : EventIn) (c : Client) : Client :=
  let normalized : Captured :=
    ⟨c.captured, { event with environment := some (orElse event.environment config.environment) }⟩
  let c := { c with captured := c.captured + 1 }
  if config.maxQueueSize ≤ c.queue.length then
    match config.overflowPolicy with
    | .dropOldest =>
      { c with queue := c.queue.tail ++ [normalized], dropped := c.dropped + 1 }
    | .dropNewest => { c with dropped := c.dropped + 1 }
  else { c with queue := c.queue ++ [normalized] }

/-- `_send_event_once`: whether the event went through, and whether to retry. A request that
raises has no status. -/
def sendEventOnce : Option ℕ → Bool × Bool
  | none => (false, true)
  | some statusCode =>
    if 200 ≤ statusCode ∧ statusCode < 300 then (true, false)
    else if 500 ≤ statusCode then (false, true)
    else (false, false)

inductive Attempt
  | first
  | second
  deriving DecidableEq, Repr

/-- An event that a flush has taken from the queue, with the attempt that comes next. -/
structure Sending where
  captured : Captured
  attempt : Attempt
  deriving DecidableEq, Repr

/-- `_send_event` once an attempt has ended; there is one retry. -/
def afterAttempt (x : Sending) (status : Option ℕ) (c : Client) : Client × Option Sending :=
  let (ok, shouldRetry) := sendEventOnce status
  if ok then ({ c with sent := c.sent + 1 }, none)
  else if x.attempt = .first ∧ shouldRetry then (c, some { x with attempt := .second })
  else ({ c with failed := c.failed + 1 }, none)

/-- What comes back to the client: the backend's answer, a status set by a gateway in between,
or nothing in time. -/
inductive Back
  | answer
  | gateway (statusCode : ℕ)
  | nothing
  deriving DecidableEq, Repr

/-- How one attempt fares, with what the backend draws for the request if it gets there. -/
structure Passage where
  reaches : Bool
  back : Back
  eventId : String
  memberId : String
  madeAt : ℕ
  raises : Cmd → Option String

/-- The request of an attempt. It carries no idempotency key. -/
def request (config : ClientConfig) (x : Captured) (p : Passage) : Request where
  payload := x.event
  ingestKey := some config.ingestKey
  idempotencyKey := none
  eventId := p.eventId
  memberId := p.memberId
  madeAt := p.madeAt
  raises := p.raises

def statusCode : Except Exn String → ℕ
  | .ok _ => 202
  | .error (.http status _) => status
  | .error _ => 500

/-- An attempt of a captured event that the backend has received. -/
structure Delivery where
  number : ℕ
  before : World
  after : World

/-- A client with its backend. A flush may be stopped between two events, and several threads may
flush at the same time. -/
structure System where
  client : Client
  sending : List Sending
  backend : World
  deliveries : List Delivery

def System.start (w : World) : System := ⟨{}, [], w, []⟩

inductive Action
  | capture (event : EventIn)
  | take
  | attempt (number : ℕ) (p : Passage)
  | otherRequest (r : Request)

section Step

variable (settings : Settings) (hashKey : String → String) (config : ClientConfig)

/-- The status that the client sees, and the backend after the attempt. -/
def post (x : Captured) (p : Passage) (w : World) : Option ℕ × World :=
  let served := serve settings hashKey w (request config x p)
  match p.reaches, p.back with
  | true, .answer => (some (statusCode served.1), served.2)
  | true, .gateway status => (some status, served.2)
  | true, .nothing => (none, served.2)
  | false, .gateway status => (some status, w)
  | false, _ => (none, w)

def System.act (s : System) : Action → Option System
  | .capture event => some { s with client := captureEvent config event s.client }
  | .take =>
    match s.client.queue with
    | [] => none
    | x :: queue => some { s with
        client := { s.client with queue := queue }
        sending := s.sending ++ [⟨x, .first⟩] }
  | .attempt number p =>
    (s.sending.find? fun x => x.captured.number = number).map fun x =>
      let (status, backend) := post settings hashKey config x.captured p s.backend
      let (client, again) := afterAttempt x status s.client
      { client := client
        sending := (s.sending.filter fun y => y.captured.number ≠ number) ++ again.toList
        backend := backend
        deliveries := if p.reaches then ⟨number, s.backend, backend⟩ :: s.deliveries
          else s.deliveries }
  | .otherRequest r => some { s with backend := (serve settings hashKey s.backend r).2 }

def System.acts (s : System) (l : List Action) : Option System :=
  l.foldlM (System.act settings hashKey config) s

/-- By how much a quantity of the backend has grown through the attempts of one event. -/
def grown (f : World → ℕ) (number : ℕ) (deliveries : List Delivery) : ℕ :=
  ((deliveries.filter fun d => d.number = number).map fun d => f d.after - f d.before).sum

def rows (w : World) : ℕ := w.events.length

def points (w : World) : ℕ := w.increments.length

/-- Every captured event is persisted and added to the rolling window at most once. -/
def AtMostOnce (s : System) : Prop :=
  ∀ number, grown rows number s.deliveries ≤ 1 ∧ grown points number s.deliveries ≤ 1

/-- The request gets as far as storing its event. -/
def Stores (r : Request) (w : World) : Prop :=
  r.normalizedKey ≠ "" ∧ r.raises (.resolveProjectId (hashKey r.normalizedKey)) = none ∧
    ∃ projectId, w.projectOf (hashKey r.normalizedKey) = some projectId ∧
      ¬RateLimited settings r.raises (rateKeyAt settings hashKey r.normalizedKey r.madeAt)
        (w.redis.advance r.madeAt) ∧ r.raises (.addEvent (r.buildEvent projectId)) = none

/-- A first attempt whose event is stored is answered 202, and the client gets the answer. -/
def Confirmed (s : System) : Action → Prop
  | .attempt number p => ∀ x, (s.sending.find? fun x => x.captured.number = number) = some x →
      x.attempt = .first → p.reaches = true →
      Stores settings hashKey (request config x.captured p) s.backend →
      p.back = .answer ∧
        (serve settings hashKey s.backend (request config x.captured p)).1 = .ok "accepted"
  | _ => True

def RunConfirmed : System → List Action → Prop
  | _, [] => True
  | s, a :: l => Confirmed settings hashKey config s a ∧
      ∀ s', s.act settings hashKey config a = some s' → RunConfirmed s' l

variable {settings hashKey config}

/-- The backend holds at most one more event, and its window received at most one more point. -/
structure OneMore (w w' : World) : Prop where
  rows : rows w' ≤ rows w + 1
  points : points w' ≤ points w + 1

structure Unchanged (w w' : World) : Prop where
  rows : rows w' = rows w
  points : points w' = points w

theorem Unchanged.oneMore {w w' : World} (h : Unchanged w w') : OneMore w w' :=
  ⟨by rw [h.rows]; omega, by rw [h.points]; omega⟩

theorem increment_grows (raises : Cmd → Option String) (projectId : String) (totalTokens : ℤ)
    (memberId : String) (w : World) :
    rows (exec raises (.incrementProject60s projectId totalTokens memberId) w).2 = rows w ∧
      points (exec raises (.incrementProject60s projectId totalTokens memberId) w).2 ≤
        points w + 1 := by
  unfold exec
  split
  · exact ⟨rfl, Nat.le_succ _⟩
  · dsimp only
    split
    · exact ⟨rfl, by simp [points]⟩
    · exact ⟨rfl, Nat.le_succ _⟩

theorem run_ingest_grows (raises : Cmd → Option String) (event : Event) (memberId : String)
    (w : World) :
    OneMore w (Program.run (exec raises) (ingest event memberId) w).2 ∧
      (raises (.addEvent event) ≠ none →
        Unchanged w (Program.run (exec raises) (ingest event memberId) w).2) := by
  unfold ingest
  rw [Program.run_bind, Program.run_perform]
  cases hadd : raises (.addEvent event) with
  | some message =>
    have hexec : exec raises (.addEvent event) w = (.error (.response message), w) := by
      rw [exec, hadd]
    rw [hexec]
    have hsame : Unchanged w w := ⟨rfl, rfl⟩
    exact ⟨hsame.oneMore, fun _ => hsame⟩
  | none =>
    have hexec : exec raises (.addEvent event) w =
        (.ok (), { w with events := w.events ++ [event] }) := by rw [exec, hadd]
    rw [hexec]
    dsimp only
    refine ⟨?_, fun h => absurd rfl h⟩
    rw [Program.run_bind, Program.run_perform]
    obtain ⟨hrows, hpoints⟩ := increment_grows raises event.scopedId event.totalTokens memberId
      { w with events := w.events ++ [event] }
    have hstored : rows { w with events := w.events ++ [event] } = rows w + 1 := by simp [rows]
    rcases hrun : exec raises (.incrementProject60s event.scopedId event.totalTokens memberId)
      { w with events := w.events ++ [event] } with ⟨e | u, w'⟩
    · rw [hrun] at hrows hpoints
      exact ⟨by rw [hrows, hstored], hpoints⟩
    · rw [hrun] at hrows hpoints
      have hkeep := readAndFinish_keeps event raises w'
      refine ⟨?_, ?_⟩
      · rw [rows, hkeep.1, ← rows, hrows, hstored]
      · rw [points, hkeep.2, ← points]
        exact hpoints

variable (settings hashKey) in
theorem run_processEvent_grows (projectId : String) (r : Request) (w : World) :
    OneMore w (Program.run (exec r.raises) (processEvent settings hashKey r projectId) w).2 ∧
      (RateLimited settings r.raises (rateKeyAt settings hashKey r.normalizedKey r.madeAt) w.redis ∨
          r.raises (.addEvent (r.buildEvent projectId)) ≠ none →
        Unchanged w
          (Program.run (exec r.raises) (processEvent settings hashKey r projectId) w).2) := by
  obtain ⟨s', _, _, hlimit⟩ := run_checkRateLimit settings r.raises w
    (rateKeyAt settings hashKey r.normalizedKey r.madeAt)
  unfold processEvent
  rw [Program.run_bind]
  rcases hlimit with ⟨_, hrun⟩ | ⟨hfree, hrun⟩
  · rw [hrun]
    have hsame : Unchanged w { w with redis := s' } := ⟨rfl, rfl⟩
    exact ⟨hsame.oneMore, fun _ => hsame⟩
  · rw [hrun]
    dsimp only
    obtain ⟨hmore, hsame⟩ := run_ingest_grows r.raises (r.buildEvent projectId) r.memberId
      { w with redis := s' }
    rw [Program.run_bind]
    rcases hingest : Program.run (exec r.raises) (ingest (r.buildEvent projectId) r.memberId)
      { w with redis := s' } with ⟨e | u, w'⟩
    · rw [hingest] at hmore hsame
      refine ⟨⟨hmore.rows, hmore.points⟩, fun h => ?_⟩
      have hstore := hsame (h.resolve_left hfree)
      exact ⟨hstore.rows, hstore.points⟩
    · rw [hingest] at hmore hsame
      refine ⟨⟨hmore.rows, hmore.points⟩, fun h => ?_⟩
      have hstore := hsame (h.resolve_left hfree)
      exact ⟨hstore.rows, hstore.points⟩

variable (settings hashKey) in
/-- Without an idempotency key: at most one more event, and none if the request does not get as
far as storing it. -/
theorem serve_grows {r : Request} (hr : r.idempotencyKey = none) (w : World) :
    OneMore w (serve settings hashKey w r).2 ∧
      (¬Stores settings hashKey r w → Unchanged w (serve settings hashKey w r).2) := by
  obtain ⟨w₀, hw₀⟩ : ∃ w₀ : World, w₀ = { w with redis := w.redis.advance r.madeAt } := ⟨_, rfl⟩
  have hsame₀ : Unchanged w w₀ := hw₀ ▸ ⟨rfl, rfl⟩
  have hworld : ∀ {result : Except Exn String} {w' : World},
      Program.run (exec r.raises) (ingestEventBody settings hashKey r) w₀ = (result, w') →
        (serve settings hashKey w r).2 = w' := by
    intro result w' hbody
    rw [hw₀] at hbody
    obtain ⟨answer, hserve, _⟩ := serve_body hbody
    rw [hserve]
  unfold ingestEventBody at hworld
  -- only a request that gets past key, project and claim reaches the stores
  by_cases hkey : r.normalizedKey = ""
  · rw [if_pos hkey] at hworld
    rw [hworld (Program.run_throw _ _ _)]
    exact ⟨hsame₀.oneMore, fun _ => hsame₀⟩
  · rw [if_neg hkey] at hworld
    rw [Program.run_bind, Program.run_perform] at hworld
    cases hresolve : r.raises (.resolveProjectId (hashKey r.normalizedKey)) with
    | some message =>
      have hexec : exec r.raises (.resolveProjectId (hashKey r.normalizedKey)) w₀ =
          (.error (.response message), w₀) := by rw [exec, hresolve]
      rw [hexec] at hworld
      rw [hworld rfl]
      exact ⟨hsame₀.oneMore, fun _ => hsame₀⟩
    | none =>
      have hexec : exec r.raises (.resolveProjectId (hashKey r.normalizedKey)) w₀ =
          (.ok (w₀.projectOf (hashKey r.normalizedKey)), w₀) := by rw [exec, hresolve]
      rw [hexec] at hworld
      dsimp only at hworld
      have hprojects : w₀.projectOf = w.projectOf := hw₀ ▸ rfl
      cases hproject : w₀.projectOf (hashKey r.normalizedKey) with
      | none =>
        rw [hproject] at hworld
        rw [hworld rfl]
        exact ⟨hsame₀.oneMore, fun _ => hsame₀⟩
      | some projectId =>
        rw [hproject] at hworld
        -- without an idempotency key there is nothing to claim
        have hclaim : claimIdempotencyKey settings hashKey projectId r.idempotencyKey =
            pure true := by
          rw [hr]
          rfl
        dsimp only at hworld
        rw [hclaim, Program.run_bind, Program.run_pure] at hworld
        obtain ⟨hmore, hsame⟩ := run_processEvent_grows settings hashKey projectId r w₀
        rw [hworld rfl]
        refine ⟨⟨?_, ?_⟩, fun hnot => ?_⟩
        · rw [← hsame₀.rows]
          exact hmore.rows
        · rw [← hsame₀.points]
          exact hmore.points
        · have hrefused : RateLimited settings r.raises
              (rateKeyAt settings hashKey r.normalizedKey r.madeAt) w₀.redis ∨
                r.raises (.addEvent (r.buildEvent projectId)) ≠ none := by
            by_contra hboth
            rw [not_or, not_not] at hboth
            refine hnot ⟨hkey, hresolve, projectId, hprojects ▸ hproject, ?_, hboth.2⟩
            rw [hw₀] at hboth
            exact hboth.1
          have h := hsame hrefused
          exact ⟨h.rows.trans hsame₀.rows, h.points.trans hsame₀.points⟩

/-- The events that may still be sent, in the queue or taken from it. -/
def System.pending (s : System) : List ℕ :=
  s.client.queue.map (·.number) ++ s.sending.map (·.captured.number)

/-- None of the attempts of the event has left anything. -/
def Untouched (number : ℕ) (s : System) : Prop :=
  grown rows number s.deliveries = 0 ∧ grown points number s.deliveries = 0

/-- What holds along a run: nothing of a pending event has been stored yet. -/
structure Accounted (s : System) : Prop where
  once : AtMostOnce s
  pending : ∀ number ∈ s.pending, Untouched number s
  later : ∀ number, s.client.captured ≤ number → Untouched number s
  distinct : s.pending.Nodup
  below : ∀ number ∈ s.pending, number < s.client.captured

theorem grown_cons (f : World → ℕ) (number : ℕ) (d : Delivery) (l : List Delivery) :
    grown f number (d :: l) = (if d.number = number then f d.after - f d.before else 0) +
      grown f number l := by
  unfold grown
  by_cases h : d.number = number <;> simp [h]

theorem Accounted.undelivered {s s' : System} (h : Accounted s)
    (hdeliveries : s'.deliveries = s.deliveries)
    (hcaptured : s.client.captured ≤ s'.client.captured) (hdistinct : s'.pending.Nodup)
    (hpending : ∀ number ∈ s'.pending, number ∈ s.pending ∨
      s.client.captured ≤ number ∧ number < s'.client.captured) : Accounted s' := by
  have hsame : ∀ number, Untouched number s → Untouched number s' := by
    intro number hu
    unfold Untouched
    rw [hdeliveries]
    exact hu
  refine ⟨fun number => ?_, fun number hn => ?_, fun number hn => ?_, hdistinct,
    fun number hn => ?_⟩
  · rw [hdeliveries]
    exact h.once number
  · rcases hpending number hn with hold | ⟨hnew, _⟩
    · exact hsame number (h.pending number hold)
    · exact hsame number (h.later number hnew)
  · exact hsame number (h.later number (hcaptured.trans hn))
  · rcases hpending number hn with hold | ⟨_, hnew⟩
    · exact (h.below number hold).trans_le hcaptured
    · exact hnew

theorem Accounted.capture {s : System} (h : Accounted s) (event : EventIn) :
    Accounted { s with client := captureEvent config event s.client } := by
  have hnew : s.client.captured ∉ s.pending := fun hmem => absurd (h.below _ hmem) (lt_irrefl _)
  -- the queue loses events in front at most, and gains the new one at most
  have hcases : ∃ kept : List Captured, kept.Sublist s.client.queue ∧
      (captureEvent config event s.client).captured = s.client.captured + 1 ∧
      (((captureEvent config event s.client).queue.map (·.number)) = kept.map (·.number) ∨
        ((captureEvent config event s.client).queue.map (·.number)) =
          kept.map (·.number) ++ [s.client.captured]) := by
    unfold captureEvent
    dsimp only
    split
    · split
      · exact ⟨s.client.queue.tail, List.tail_sublist _, rfl, .inr (by simp)⟩
      · exact ⟨s.client.queue, .refl _, rfl, .inl rfl⟩
    · exact ⟨s.client.queue, .refl _, rfl, .inr (by simp)⟩
  obtain ⟨kept, hkept, hcaptured, hqueue⟩ := hcases
  have hsub : (kept.map (·.number) ++ s.sending.map (·.captured.number)).Sublist s.pending :=
    (hkept.map _).append (.refl _)
  refine h.undelivered rfl (by rw [hcaptured]; omega) ?_ ?_
  · rcases hqueue with hqueue | hqueue
    · rw [System.pending, hqueue]
      exact h.distinct.sublist hsub
    · have hperm : (kept.map (·.number) ++ [s.client.captured] ++
          s.sending.map (·.captured.number)).Perm
            (s.client.captured :: (kept.map (·.number) ++ s.sending.map (·.captured.number))) := by
        rw [List.append_assoc, List.singleton_append]
        exact List.perm_middle
      rw [System.pending, hqueue]
      refine hperm.nodup_iff.mpr (List.nodup_cons.mpr ⟨?_, h.distinct.sublist hsub⟩)
      exact fun hmem => hnew (hsub.subset hmem)
  · intro number hn
    rcases hqueue with hqueue | hqueue
    · rw [System.pending, hqueue] at hn
      exact .inl (hsub.subset hn)
    · rw [System.pending, hqueue, List.append_assoc, List.mem_append, List.mem_append,
        List.mem_singleton] at hn
      rcases hn with hn | rfl | hn
      · exact .inl (hsub.subset (List.mem_append_left _ hn))
      · exact .inr ⟨le_rfl, by rw [hcaptured]; omega⟩
      · exact .inl (List.mem_append_right _ hn)

variable (settings hashKey config) in
theorem post_grows (x : Captured) (p : Passage) (w : World) :
    OneMore w (post settings hashKey config x p w).2 ∧
      (p.reaches = false ∨ ¬Stores settings hashKey (request config x p) w →
        Unchanged w (post settings hashKey config x p w).2) := by
  obtain ⟨hmore, hsame⟩ := serve_grows settings hashKey
    (r := request config x p) rfl w
  have hkept : Unchanged w w := ⟨rfl, rfl⟩
  unfold post
  generalize serve settings hashKey w (request config x p) = served at hmore hsame
  dsimp only
  cases hreaches : p.reaches with
  | false => cases p.back <;> exact ⟨hkept.oneMore, fun _ => hkept⟩
  | true =>
    have hstored : true = false ∨ ¬Stores settings hashKey (request config x p) w →
        Unchanged w served.2 := by
      intro h
      exact hsame (h.resolve_left (by decide))
    cases p.back <;> exact ⟨hmore, hstored⟩

theorem afterAttempt_spec (x : Sending) (status : Option ℕ) (c : Client) :
    (afterAttempt x status c).1.queue = c.queue ∧
      (afterAttempt x status c).1.captured = c.captured ∧
      ∀ y, (afterAttempt x status c).2 = some y →
        y.captured = x.captured ∧ x.attempt = .first ∧ status ≠ some 202 := by
  unfold afterAttempt
  dsimp only
  split
  · exact ⟨rfl, rfl, by simp⟩
  next hok =>
    split
    next hretry =>
      refine ⟨rfl, rfl, fun y hy => ?_⟩
      obtain rfl := Option.some.inj hy
      refine ⟨rfl, hretry.1, ?_⟩
      rintro rfl
      exact hok rfl
    · exact ⟨rfl, rfl, by simp⟩

/-- An attempt of a pending event: nothing is stored by it if the event stays pending. -/
theorem Accounted.attempted {s s' : System} (h : Accounted s) {x : Sending} (hx : x ∈ s.sending)
    {again : Option Sending} {reaches : Bool} (hqueue : s'.client.queue = s.client.queue)
    (hcaptured : s'.client.captured = s.client.captured)
    (hsending : s'.sending = (s.sending.filter fun y => y.captured.number ≠ x.captured.number) ++
      again.toList)
    (hagain : ∀ y, again = some y → y.captured = x.captured)
    (hdeliveries : s'.deliveries = if reaches then
      ⟨x.captured.number, s.backend, s'.backend⟩ :: s.deliveries else s.deliveries)
    (hmore : OneMore s.backend s'.backend)
    (hsame : again ≠ none → Unchanged s.backend s'.backend) : Accounted s' := by
  have hpend : x.captured.number ∈ s.pending := by
    rw [System.pending, List.mem_append]
    exact .inr (List.mem_map_of_mem hx)
  -- the events that are pending apart from this one
  obtain ⟨others, hothers⟩ : ∃ others, others = s.client.queue.map (·.number) ++
      (s.sending.filter fun y => y.captured.number ≠ x.captured.number).map (·.captured.number) :=
    ⟨_, rfl⟩
  have hsub : others.Sublist s.pending := by
    rw [hothers, System.pending]
    exact (List.Sublist.refl _).append (List.filter_sublist.map _)
  have hnot : x.captured.number ∉ others := by
    intro hin
    rw [hothers, List.mem_append] at hin
    rcases hin with hin | hin
    · have hdisjoint := (List.nodup_append.mp h.distinct).2.2
      exact hdisjoint _ hin _ (List.mem_map_of_mem hx) rfl
    · obtain ⟨y, hy, hyn⟩ := List.mem_map.mp hin
      have hne := (List.mem_filter.mp hy).2
      simp [hyn] at hne
  have hpending : s'.pending = others ++ again.toList.map (·.captured.number) := by
    rw [System.pending, hqueue, hsending, List.map_append, hothers, List.append_assoc]
  have hmem : ∀ r ∈ s'.pending, r ∈ others ∨ r = x.captured.number ∧ again ≠ none := by
    intro r hr
    rw [hpending, List.mem_append] at hr
    rcases hr with hr | hr
    · exact .inl hr
    · obtain ⟨y, hy, rfl⟩ := List.mem_map.mp hr
      have hy' : again = some y := Option.mem_toList.mp hy
      exact .inr ⟨by rw [hagain y hy'], by simp [hy']⟩
  -- the deliveries of other events are the same
  have hother : ∀ (f : World → ℕ) (r : ℕ), r ≠ x.captured.number →
      grown f r s'.deliveries = grown f r s.deliveries := by
    intro f r hr
    rw [hdeliveries]
    cases reaches with
    | false => rfl
    | true => rw [if_pos rfl, grown_cons, if_neg (Ne.symm hr), Nat.zero_add]
  -- and this event has no more than what the attempt has added
  have hself : ∀ f : World → ℕ, grown f x.captured.number s.deliveries = 0 →
      grown f x.captured.number s'.deliveries ≤ f s'.backend - f s.backend := by
    intro f hzero
    rw [hdeliveries]
    cases reaches with
    | false => simp [hzero]
    | true => rw [if_pos rfl, grown_cons, if_pos rfl, hzero, Nat.add_zero]
  have huntouched := h.pending _ hpend
  -- at most once, pending untouched, later ones untouched, distinct, and numbered below
  refine ⟨fun r => ?_, fun r hr => ?_, fun r hr => ?_, ?_, fun r hr => ?_⟩
  · by_cases hr : r = x.captured.number
    · subst hr
      have hrows := hself rows huntouched.1
      have hpoints := hself points huntouched.2
      have hrows' := hmore.rows
      have hpoints' := hmore.points
      exact ⟨by omega, by omega⟩
    · rw [hother rows r hr, hother points r hr]
      exact h.once r
  · rcases hmem r hr with hin | ⟨rfl, hne⟩
    · have hr' : r ≠ x.captured.number := fun heq => hnot (heq ▸ hin)
      unfold Untouched
      rw [hother rows r hr', hother points r hr']
      exact h.pending r (hsub.subset hin)
    · have hrows := hself rows huntouched.1
      have hpoints := hself points huntouched.2
      rw [(hsame hne).rows] at hrows
      rw [(hsame hne).points] at hpoints
      exact ⟨by omega, by omega⟩
  · have hr' : r ≠ x.captured.number := by
      have hlt := h.below _ hpend
      omega
    unfold Untouched
    rw [hother rows r hr', hother points r hr']
    exact h.later r (hcaptured ▸ hr)
  · rw [hpending]
    cases again with
    | none => simpa using h.distinct.sublist hsub
    | some y =>
      rw [Option.toList_some, List.map_singleton, hagain y rfl]
      refine List.nodup_append.mpr ⟨h.distinct.sublist hsub, List.nodup_singleton _, ?_⟩
      intro a ha b hb hab
      rw [List.mem_singleton] at hb
      exact hnot (hb ▸ hab ▸ ha)
  · rw [hcaptured]
    rcases hmem r hr with hin | ⟨rfl, _⟩
    · exact h.below r (hsub.subset hin)
    · exact h.below _ hpend

theorem Accounted.attempt {s s' : System} (h : Accounted s) {number : ℕ} {p : Passage}
    (hact : s.act settings hashKey config (.attempt number p) = some s')
    (hconfirmed : Confirmed settings hashKey config s (.attempt number p)) : Accounted s' := by
  unfold System.act at hact
  obtain ⟨x, hx, hs'⟩ := Option.map_eq_some_iff.mp hact
  obtain rfl : x.captured.number = number := by simpa using List.find?_some hx
  have hmem : x ∈ s.sending := List.mem_of_find?_eq_some hx
  obtain ⟨hmore, hsame⟩ := post_grows settings hashKey config
    x.captured p s.backend
  obtain ⟨hqueue, hcaptured, hagain⟩ := afterAttempt_spec x
    (post settings hashKey config x.captured p s.backend).1 s.client
  subst hs'
  refine h.attempted hmem hqueue hcaptured rfl (fun y hy => (hagain y hy).1) rfl hmore fun hne => ?_
  -- what is confirmed is not tried again
  obtain ⟨y, hy⟩ := Option.ne_none_iff_exists'.mp hne
  obtain ⟨_, hfirst, hstatus⟩ := hagain y hy
  apply hsame
  by_contra hboth
  rw [not_or, not_not, Bool.not_eq_false] at hboth
  obtain ⟨hback, hserve⟩ := hconfirmed x hx hfirst hboth.1 hboth.2
  apply hstatus
  simp only [post, hboth.1, hback, hserve, statusCode]

theorem Accounted.act {s s' : System} (h : Accounted s) {a : Action}
    (hact : s.act settings hashKey config a = some s')
    (hconfirmed : Confirmed settings hashKey config s a) : Accounted s' := by
  cases a with
  | capture event =>
    obtain rfl := Option.some.inj hact
    exact h.capture event
  | take =>
    unfold System.act at hact
    cases hqueue : s.client.queue with
    | nil => simp [hqueue] at hact
    | cons x queue =>
      simp only [hqueue, Option.some.injEq] at hact
      have hperm : s'.pending.Perm s.pending := by
        subst hact
        rw [System.pending, System.pending, hqueue]
        simp only [List.map_append, List.map_cons, List.map_nil, List.cons_append]
        rw [← List.append_assoc]
        exact List.perm_append_singleton _ _
      subst hact
      exact h.undelivered rfl le_rfl (hperm.nodup_iff.mpr h.distinct)
        fun number hn => .inl (hperm.mem_iff.mp hn)
  | attempt number p => exact h.attempt hact hconfirmed
  | otherRequest r =>
    simp only [System.act, Option.some.injEq] at hact
    generalize (serve settings hashKey s.backend r).2 = w at hact
    subst hact
    exact h.undelivered rfl le_rfl h.distinct fun _ hn => .inl hn

theorem Accounted.acts {s s' : System} (h : Accounted s) {l : List Action}
    (hrun : s.acts settings hashKey config l = some s')
    (hconfirmed : RunConfirmed settings hashKey config s l) : Accounted s' := by
  induction l generalizing s with
  | nil =>
    obtain rfl := Option.some.inj hrun
    exact h
  | cons a l ih =>
    obtain ⟨s₁, hact, hrest⟩ := Option.bind_eq_some_iff.mp hrun
    exact ih (h.act hact hconfirmed.1) hrest (hconfirmed.2 s₁ hact)

end Step

/-- For every run of a client against any backend, with any number of other requests in between:
if every first attempt whose event is stored is answered 202 and the answer arrives, then every
captured event is persisted and added to the window at most once. -/
theorem atMostOnce_of_confirmed (settings : Settings) (hashKey : String → String)
    (config : ClientConfig) (w : World) (l : List Action) (s' : System)
    (hrun : (System.start w).acts settings hashKey config l = some s')
    (hconfirmed : RunConfirmed settings hashKey config (.start w) l) : AtMostOnce s' := by
  have hstart : Accounted (System.start w) :=
    ⟨fun _ => ⟨Nat.zero_le 1, Nat.zero_le 1⟩, by simp [System.pending, System.start],
      fun _ _ => ⟨rfl, rfl⟩, List.nodup_nil, by simp [System.pending, System.start]⟩
  exact (hstart.acts hrun hconfirmed).once

/-- One event is captured and sent; what comes back of the first attempt is given. -/
def sendOne (back : Back) (l : List Action) : List Action :=
  .capture { ts := 1, provider := "openai", response := some { totalTokens := some 50 } } :: .take ::
    .attempt 0 ⟨true, back, "e1", "m1", 2000, fun _ => none⟩ :: l

def sampleConfig : ClientConfig := { ingestKey := "rk_live" }

theorem atMostOnce_of_confirmed_sample :
    ∃ s', (System.start sampleWorld).acts {} sampleHash sampleConfig (sendOne .answer []) =
      some s' ∧ AtMostOnce s' ∧ s'.client.sent = 1 := by
  obtain ⟨s', hs'⟩ : ∃ s', (System.start sampleWorld).acts {} sampleHash sampleConfig
      (sendOne .answer []) = some s' := by
    apply Option.isSome_iff_exists.mp
    decide
  have hsent : ((System.start sampleWorld).acts {} sampleHash sampleConfig
      (sendOne .answer [])).map (·.client.sent) = some 1 := by decide
  rw [hs'] at hsent
  refine ⟨s', hs', atMostOnce_of_confirmed {} sampleHash sampleConfig sampleWorld
    (sendOne .answer []) s' hs' ⟨trivial, fun s₁ h₁ => ⟨trivial, fun s₂ h₂ => ⟨?_, ?_⟩⟩⟩,
    Option.some.inj hsent⟩
  · intro x hx _ _ _
    obtain rfl := Option.some.inj h₁
    obtain rfl := Option.some.inj h₂
    obtain rfl := Option.some.inj hx
    refine ⟨rfl, ?_⟩
    decide
  · exact fun _ _ => trivial

/-- The answer to the first attempt is lost after its event has been stored; the retry stores the
event again. -/
theorem stored_twice :
    ∃ s', (System.start sampleWorld).acts {} sampleHash sampleConfig (sendOne .nothing
      [.attempt 0 ⟨true, .answer, "e2", "m2", 3000, fun _ => none⟩]) = some s' ∧ ¬AtMostOnce s' := by
  obtain ⟨s', hs'⟩ : ∃ s', (System.start sampleWorld).acts {} sampleHash sampleConfig
      (sendOne .nothing [.attempt 0 ⟨true, .answer, "e2", "m2", 3000, fun _ => none⟩]) =
        some s' := by
    apply Option.isSome_iff_exists.mp
    decide
  have hgrown : ((System.start sampleWorld).acts {} sampleHash sampleConfig (sendOne .nothing
      [.attempt 0 ⟨true, .answer, "e2", "m2", 3000, fun _ => none⟩])).map
        (fun s => (grown rows 0 s.deliveries, grown points 0 s.deliveries)) = some (2, 2) := by
    decide
  rw [hs', Option.map_some, Option.some.injEq, Prod.mk.injEq] at hgrown
  refine ⟨s', hs', fun h => ?_⟩
  have hone := (h 0).1
  omega

end Rheonic.SdkClient
