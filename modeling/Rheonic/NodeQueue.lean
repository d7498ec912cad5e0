import Rheonic.SdkClient
import Rheonic.Lib.Line

namespace Rheonic.NodeClient
open PyText IngestEvent Line
open SdkClient (ClientConfig OverflowPolicy Captured sendEventOnce)

/-- Where a running flush stands: back at the head of its loop, or at one of the awaits of
`sendEvent` with the event that it holds. -/
inductive Loop
  | resumed
  | firstAttempt (x : Captured)
  | retryDelay (x : Captured)
  | secondAttempt (x : Captured)
  deriving DecidableEq, Repr

def Loop.held : Loop → Option Captured
  | resumed => none
  | firstAttempt x => some x
  | retryDelay x => some x
  | secondAttempt x => some x

/-- The client, with the flushes that are running and what has become of its events. -/
structure Client where
  queue : List Captured := []
  isFlushing : Bool := false
  isClosed : Bool := false
  dropped : ℕ := 0
  sent : ℕ := 0
  failed : ℕ := 0
  loops : List Loop := []
  /-- How many events have been accepted; they are numbered in the order of capture. -/
  accepted : ℕ := 0
  /-- The events handed to `sendEvent`, in order. -/
  taken : List ℕ := []
  sentEvents : List ℕ := []
  failedEvents : List ℕ := []
  droppedEvents : List ℕ := []
  deriving DecidableEq, Repr

structure Stats where
  queued : ℕ
  dropped : ℕ
  sent : ℕ
  failed : ℕ
  deriving DecidableEq, Repr

def Client.getStats (c : Client) : Stats := ⟨c.queue.length, c.dropped, c.sent, c.failed⟩

/-- `queue.shift()` for room in a full queue. -/
def Client.shifted (c : Client) : Client :=
  { c with
    queue := c.queue.tail
    dropped := c.dropped + 1
    droppedEvents := c.droppedEvents ++ (c.queue.take 1).map Captured.number }

/-- The new event is counted as dropped. -/
def Client.refused (c : Client) : Client :=
  { c with
    dropped := c.dropped + 1
    accepted := c.accepted + 1
    droppedEvents := c.droppedEvents ++ [c.accepted] }

def Client.pushed (config : ClientConfig) (event : EventIn) (c : Client) : Client :=
  { c with
    queue := c.queue ++
      [⟨c.accepted, { event with environment := some (orElse event.environment config.environment) }⟩]
    accepted := c.accepted + 1 }

section Methods

variable (config : ClientConfig)

/-- `captureEvent` of a normalized event; without one the normalization has thrown. Whether the
client is closed is only asked once there is room in the queue. -/
def captureEvent (event : Option EventIn) (c : Client) : Client :=
  match event with
  | none => c
  | some event =>
    if config.maxQueueSize ≤ c.queue.length then
      match config.overflowPolicy with
      | .dropOldest => if c.isClosed then c.shifted else c.shifted.pushed config event
      | .dropNewest => c.refused
    else if c.isClosed then c
    else c.pushed config event

/-- The head of the loop of a flush, up to the next await; without events the flush ends. -/
def Client.nextEvent (c : Client) : Client × Option Loop :=
  match c.queue with
  | [] => ({ c with isFlushing := false }, none)
  | x :: queue =>
    ({ c with queue := queue, taken := c.taken ++ [x.number] }, some (.firstAttempt x))

def flush (c : Client) : Client :=
  if c.isFlushing || c.isClosed then c
  else
    let (c, loop) := { c with isFlushing := true }.nextEvent
    { c with loops := c.loops ++ loop.toList }

def close (c : Client) : Client := { c with isClosed := true }

def Client.counted (c : Client) (x : Captured) (ok : Bool) : Client :=
  if ok then { c with sent := c.sent + 1, sentEvents := c.sentEvents ++ [x.number] }
  else { c with failed := c.failed + 1, failedEvents := c.failedEvents ++ [x.number] }

/-- What happens between two awaits. -/
inductive Act
  | captureEvent (event : Option EventIn)
  | flush
  | close
  /-- A request of the `i`-th flush has ended, without a status if it failed. -/
  | reply (i : ℕ) (status : Option ℕ)
  | delayOver (i : ℕ)
  | resume (i : ℕ)

/-- `sendEvent` goes on after the answer to an attempt. -/
def Client.afterReply (c : Client) (i : ℕ) (x : Captured) (first : Bool) (status : Option ℕ) :
    Client :=
  let (ok, shouldRetry) := sendEventOnce status
  if ok then { c.counted x true with loops := c.loops.set i .resumed }
  else if first && shouldRetry then { c with loops := c.loops.set i (.retryDelay x) }
  else { c.counted x false with loops := c.loops.set i .resumed }

def Client.act (c : Client) : Act → Option Client
  | .captureEvent event => some (NodeClient.captureEvent config event c)
  | .flush => some (NodeClient.flush c)
  | .close => some (NodeClient.close c)
  | .reply i status =>
    match c.loops[i]? with
    | some (.firstAttempt x) => some (c.afterReply i x true status)
    | some (.secondAttempt x) => some (c.afterReply i x false status)
    | _ => none
  | .delayOver i =>
    match c.loops[i]? with
    | some (.retryDelay x) => some { c with loops := c.loops.set i (.secondAttempt x) }
    | _ => none
  | .resume i =>
    match c.loops[i]? with
    | some .resumed =>
      let (c, loop) := c.nextEvent
      some { c with loops := c.loops.take i ++ loop.toList ++ c.loops.drop (i + 1) }
    | _ => none

def Client.acts (c : Client) (l : List Act) : Option Client := l.foldlM (Client.act config) c

end Methods

def Client.inFlight (c : Client) : List ℕ := (c.loops.filterMap Loop.held).map Captured.number

/-- The queue is exact: bounded, sent in order by one loop at a time, and every accepted event is in
one place, as the statistics say. -/
structure Client.Exact (config : ClientConfig) (c : Client) : Prop where
  bounded : c.queue.length ≤ config.maxQueueSize
  oneLoop : c.loops.length = if c.isFlushing then 1 else 0
  inOrder : (c.taken ++ c.queue.map Captured.number).Pairwise (· < ·)
  partition : (c.queue.map Captured.number ++ c.inFlight ++ c.sentEvents ++ c.failedEvents ++
    c.droppedEvents).Perm (List.range c.accepted)
  sent : c.sent = c.sentEvents.length
  failed : c.failed = c.failedEvents.length
  dropped : c.dropped = c.droppedEvents.length

/-- How often a number stands in the five places of an event. -/
def Client.places (c : Client) (n : ℕ) : ℕ :=
  (c.queue.map Captured.number).count n + c.inFlight.count n + c.sentEvents.count n +
    c.failedEvents.count n + c.droppedEvents.count n

structure Client.Invariant (config : ClientConfig) (c : Client) : Prop where
  bounded : c.queue.length ≤ config.maxQueueSize
  loops : (c.isFlushing = false ∧ c.loops = []) ∨ (c.isFlushing = true ∧ ∃ loop, c.loops = [loop])
  line : Orderly c.accepted c.taken (c.queue.map Captured.number)
  places : ∀ n, c.places n = (List.range c.accepted).count n
  sent : c.sent = c.sentEvents.length
  failed : c.failed = c.failedEvents.length
  dropped : c.dropped = c.droppedEvents.length

section Invariant

variable {config : ClientConfig} {c c' : Client}

theorem invariant_start : Client.Invariant config {} :=
  ⟨Nat.zero_le _, .inl ⟨rfl, rfl⟩, orderly_start, fun _ => rfl, rfl, rfl, rfl⟩

theorem Client.Invariant.exact (h : c.Invariant config) : c.Exact config where
  bounded := h.bounded
  oneLoop := by
    rcases h.loops with ⟨hidle, hloops⟩ | ⟨hbusy, loop, hloops⟩
    · rw [hidle, hloops]
      rfl
    · rw [hbusy, hloops]
      rfl
  inOrder := h.line.sorted
  partition := by
    rw [List.perm_iff_count]
    intro n
    have hplaces := h.places n
    unfold Client.places at hplaces
    simp only [List.count_append]
    exact hplaces
  sent := h.sent
  failed := h.failed
  dropped := h.dropped

theorem count_range_succ (k n : ℕ) :
    (List.range (k + 1)).count n = (List.range k).count n + [k].count n := by
  rw [List.range_succ, List.count_append]

theorem Client.Invariant.shifted (h : c.Invariant config) (hmax : 1 ≤ config.maxQueueSize)
    (hfull : config.maxQueueSize ≤ c.queue.length) :
    c.shifted.Invariant config ∧ c.shifted.queue.length < config.maxQueueSize := by
  have hbounded := h.bounded
  cases hqueue : c.queue with
  | nil =>
    rw [hqueue, List.length_nil] at hfull
    omega
  | cons x queue =>
    rw [hqueue, List.length_cons] at hbounded
    have hline := h.line
    rw [hqueue] at hline
    have hdropped := h.dropped
    refine ⟨⟨?_, h.loops, ?_, fun n => ?_, h.sent, h.failed, ?_⟩, ?_⟩
    · simp only [Client.shifted, hqueue, List.tail_cons]
      omega
    · simp only [Client.shifted, hqueue, List.tail_cons]
      exact hline.evict
    · have hplaces := h.places n
      unfold Client.places Client.inFlight at hplaces ⊢
      simp only [Client.shifted, hqueue, List.tail_cons, List.take_succ_cons, List.take_zero,
        List.map_cons, List.map_nil, List.count_append, List.count_cons, List.count_nil] at hplaces ⊢
      omega
    · simp only [Client.shifted, hqueue, List.take_succ_cons, List.take_zero, List.map_cons,
        List.map_nil, List.length_append, List.length_singleton]
      omega
    · simp only [Client.shifted, hqueue, List.tail_cons]
      omega

theorem Client.Invariant.refused (h : c.Invariant config) : c.refused.Invariant config := by
  have hdropped := h.dropped
  refine ⟨h.bounded, h.loops, h.line.refuse, fun n => ?_, h.sent, h.failed, ?_⟩
  · have hplaces := h.places n
    unfold Client.places Client.inFlight at hplaces ⊢
    simp only [Client.refused, List.count_append, count_range_succ]
    omega
  · simp only [Client.refused, List.length_append, List.length_singleton]
    omega

theorem Client.Invariant.pushed (h : c.Invariant config) (event : EventIn)
    (hroom : c.queue.length < config.maxQueueSize) :
    (c.pushed config event).Invariant config := by
  refine ⟨?_, h.loops, ?_, fun n => ?_, h.sent, h.failed, h.dropped⟩
  · simp only [Client.pushed, List.length_append, List.length_singleton]
    omega
  · simp only [Client.pushed, List.map_append, List.map_singleton]
    exact h.line.join
  · have hplaces := h.places n
    unfold Client.places Client.inFlight at hplaces ⊢
    simp only [Client.pushed, List.map_append, List.map_singleton, List.count_append,
      count_range_succ]
    omega

theorem captureEvent_invariant (h : c.Invariant config) (hmax : 1 ≤ config.maxQueueSize)
    (event : Option EventIn) : (captureEvent config event c).Invariant config := by
  cases event with
  | none => exact h
  | some event =>
    unfold captureEvent
    dsimp only
    by_cases hfull : config.maxQueueSize ≤ c.queue.length
    · rw [if_pos hfull]
      obtain ⟨hshifted, hroom⟩ := h.shifted hmax hfull
      cases config.overflowPolicy with
      | dropNewest => exact h.refused
      | dropOldest =>
        dsimp only
        split
        · exact hshifted
        · exact hshifted.pushed event hroom
    · rw [if_neg hfull]
      split
      · exact h
      · exact h.pushed event (by omega)

theorem nextEvent_nil (hqueue : c.queue = []) :
    c.nextEvent = ({ c with isFlushing := false }, none) := by
  unfold Client.nextEvent
  rw [hqueue]

theorem nextEvent_cons {x : Captured} {queue : List Captured} (hqueue : c.queue = x :: queue) :
    c.nextEvent = ({ c with queue := queue, taken := c.taken ++ [x.number] },
      some (.firstAttempt x)) := by
  unfold Client.nextEvent
  rw [hqueue]

/-- The client once the head of the loop has run in its only flush. -/
def Client.headed (c : Client) : Client :=
  { c.nextEvent.1 with isFlushing := c.nextEvent.2.isSome, loops := c.nextEvent.2.toList }

theorem headed_invariant (h : c.Invariant config) (hidle : c.inFlight = []) :
    c.headed.Invariant config := by
  have hbounded := h.bounded
  have hline := h.line
  unfold Client.headed
  cases hqueue : c.queue with
  | nil =>
    rw [nextEvent_nil hqueue]
    refine ⟨hbounded, .inl ⟨rfl, rfl⟩, hline, fun n => ?_, h.sent, h.failed, h.dropped⟩
    have hplaces := h.places n
    unfold Client.places at hplaces ⊢
    rw [hidle] at hplaces
    exact hplaces
  | cons x queue =>
    rw [hqueue, List.length_cons] at hbounded
    rw [hqueue, List.map_cons] at hline
    rw [nextEvent_cons hqueue]
    refine ⟨Nat.le_of_succ_le hbounded, .inr ⟨rfl, _, rfl⟩, hline.take.2, fun n => ?_, h.sent,
      h.failed, h.dropped⟩
    have hplaces := h.places n
    unfold Client.places at hplaces ⊢
    rw [hidle, hqueue, List.map_cons, List.count_cons, List.count_nil] at hplaces
    have hflight : (([Loop.firstAttempt x].filterMap Loop.held).map Captured.number) =
        [x.number] := rfl
    unfold Client.inFlight
    dsimp only [Option.toList_some]
    rw [hflight, List.count_singleton]
    omega

theorem flush_eq_headed (hbusy : (c.isFlushing || c.isClosed) = false) (hloops : c.loops = []) :
    flush c = c.headed := by
  unfold flush Client.headed
  rw [hbusy, if_neg (by decide)]
  by_cases hqueue : c.queue = []
  · rw [nextEvent_nil hqueue, nextEvent_nil (c := { c with isFlushing := true }) hqueue]
    dsimp only
    rw [hloops]
    rfl
  · obtain ⟨x, queue, hqueue⟩ := List.exists_cons_of_ne_nil hqueue
    rw [nextEvent_cons hqueue, nextEvent_cons (c := { c with isFlushing := true }) hqueue]
    dsimp only
    rw [hloops]
    rfl

theorem Client.Invariant.idle (h : c.Invariant config) (hidle : c.isFlushing = false) :
    c.loops = [] := by
  rcases h.loops with ⟨-, hloops⟩ | ⟨hbusy, -⟩
  · exact hloops
  · rw [hidle] at hbusy
    exact absurd hbusy (by decide)

theorem flush_invariant (h : c.Invariant config) : (flush c).Invariant config := by
  by_cases hbusy : (c.isFlushing || c.isClosed) = true
  · unfold flush
    rw [if_pos hbusy]
    exact h
  · have hfree : (c.isFlushing || c.isClosed) = false := Bool.not_eq_true _ ▸ hbusy
    have hloops := h.idle (Bool.or_eq_false_iff.mp hfree).1
    rw [flush_eq_headed hfree hloops]
    refine headed_invariant h ?_
    unfold Client.inFlight
    rw [hloops]
    rfl

theorem Client.Invariant.only (h : c.Invariant config) {i : ℕ} {loop : Loop}
    (hloop : c.loops[i]? = some loop) : i = 0 ∧ c.isFlushing = true ∧ c.loops = [loop] := by
  rcases h.loops with ⟨-, hloops⟩ | ⟨hbusy, only, hloops⟩
  · rw [hloops, List.getElem?_nil] at hloop
    exact absurd hloop (Option.some_ne_none _).symm
  · rw [hloops] at hloop
    have hi : i < 1 := by
      by_contra hi
      rw [List.getElem?_eq_none (Nat.le_of_not_lt hi)] at hloop
      exact Option.some_ne_none _ hloop.symm
    have hzero : i = 0 := by omega
    rw [hzero] at hloop
    exact ⟨hzero, hbusy, by rw [hloops, Option.some.inj hloop]⟩

theorem Client.Invariant.held (h : c.Invariant config) {loop next : Loop}
    (hloops : c.loops = [loop]) (hbusy : c.isFlushing = true) (hheld : next.held = loop.held) :
    ({ c with loops := [next] } : Client).Invariant config := by
  refine ⟨h.bounded, .inr ⟨hbusy, next, rfl⟩, h.line, fun n => ?_, h.sent, h.failed, h.dropped⟩
  have hplaces := h.places n
  have hflight : ({ c with loops := [next] } : Client).inFlight = c.inFlight := by
    unfold Client.inFlight
    dsimp only
    rw [hloops, List.filterMap_cons, List.filterMap_cons, hheld]
  unfold Client.places at hplaces ⊢
  rw [hflight]
  exact hplaces

theorem Client.Invariant.counted (h : c.Invariant config) {loop : Loop} {x : Captured}
    (hloops : c.loops = [loop]) (hbusy : c.isFlushing = true) (hheld : loop.held = some x)
    (ok : Bool) : ({ c.counted x ok with loops := [.resumed] } : Client).Invariant config := by
  have hsent := h.sent
  have hfailed := h.failed
  have hflight : c.inFlight = [x.number] := by
    unfold Client.inFlight
    rw [hloops, List.filterMap_cons, hheld]
    rfl
  have hplaces := h.places
  unfold Client.places at hplaces
  rw [hflight] at hplaces
  cases ok with
  | false =>
    refine ⟨h.bounded, .inr ⟨hbusy, _, rfl⟩, h.line, fun n => ?_, h.sent, ?_, h.dropped⟩
    · have hplace := hplaces n
      simp only [Client.places, Client.inFlight, Client.counted, List.filterMap_cons, Loop.held,
        List.filterMap_nil, List.map_nil, List.count_nil, List.count_append, Bool.false_eq_true,
        if_false] at hplace ⊢
      omega
    · simp only [Client.counted, List.length_append, List.length_singleton, Bool.false_eq_true,
        if_false]
      omega
  | true =>
    refine ⟨h.bounded, .inr ⟨hbusy, _, rfl⟩, h.line, fun n => ?_, ?_, h.failed, h.dropped⟩
    · have hplace := hplaces n
      simp only [Client.places, Client.inFlight, Client.counted, List.filterMap_cons, Loop.held,
        List.filterMap_nil, List.map_nil, List.count_nil, List.count_append, if_true] at hplace ⊢
      omega
    · simp only [Client.counted, List.length_append, List.length_singleton, if_true]
      omega

theorem afterReply_invariant (h : c.Invariant config) {i : ℕ} {loop : Loop} {x : Captured}
    (hloop : c.loops[i]? = some loop) (hheld : loop.held = some x) (first : Bool)
    (status : Option ℕ) : (c.afterReply i x first status).Invariant config := by
  obtain ⟨rfl, hbusy, hloops⟩ := h.only hloop
  unfold Client.afterReply
  rw [hloops]
  dsimp only
  split
  · exact h.counted hloops hbusy hheld true
  · split
    · exact h.held hloops hbusy hheld.symm
    · exact h.counted hloops hbusy hheld false

theorem act_invariant (h : c.Invariant config) (hmax : 1 ≤ config.maxQueueSize) {a : Act}
    (hact : c.act config a = some c') : c'.Invariant config := by
  cases a with
  | captureEvent event =>
    rw [← Option.some.inj hact]
    exact captureEvent_invariant h hmax event
  | flush =>
    rw [← Option.some.inj hact]
    exact flush_invariant h
  | close =>
    rw [← Option.some.inj hact]
    exact ⟨h.bounded, h.loops, h.line, h.places, h.sent, h.failed, h.dropped⟩
  -- the request or its retry has been answered
  | reply i status =>
    unfold Client.act at hact
    dsimp only at hact
    split at hact
    · next x hloop =>
      rw [← Option.some.inj hact]
      exact afterReply_invariant h hloop (by rfl) true status
    · next x hloop =>
      rw [← Option.some.inj hact]
      exact afterReply_invariant h hloop (by rfl) false status
    · exact absurd hact (Option.some_ne_none _).symm
  -- the delay before the retry is over
  | delayOver i =>
    unfold Client.act at hact
    dsimp only at hact
    split at hact
    · next x hloop =>
      obtain ⟨rfl, hbusy, hloops⟩ := h.only hloop
      rw [← Option.some.inj hact, hloops]
      exact h.held hloops hbusy rfl
    · exact absurd hact (Option.some_ne_none _).symm
  -- the loop goes on with the head of the queue, or ends
  | resume i =>
    unfold Client.act at hact
    dsimp only at hact
    split at hact
    · next hloop =>
      obtain ⟨rfl, hbusy, hloops⟩ := h.only hloop
      have hidle : c.inFlight = [] := by
        unfold Client.inFlight
        rw [hloops]
        rfl
      have hheaded : some c.headed = some c' := by
        rw [← hact]
        unfold Client.headed
        by_cases hqueue : c.queue = []
        · rw [nextEvent_nil hqueue]
          dsimp only
          rw [hloops]
          rfl
        · obtain ⟨x, queue, hqueue⟩ := List.exists_cons_of_ne_nil hqueue
          rw [nextEvent_cons hqueue]
          dsimp only
          rw [hloops, hbusy]
          rfl
      rw [← Option.some.inj hheaded]
      exact headed_invariant h hidle
    · exact absurd hact (Option.some_ne_none _).symm

theorem acts_invariant (hmax : 1 ≤ config.maxQueueSize) (l : List Act) (h : c.Invariant config)
    (hacts : c.acts config l = some c') : c'.Invariant config := by
  induction l generalizing c with
  | nil =>
    rw [← Option.some.inj hacts]
    exact h
  | cons a l ih =>
    unfold Client.acts at hacts
    rw [List.foldlM_cons] at hacts
    obtain ⟨d, hact, hacts⟩ := Option.bind_eq_some_iff.mp hacts
    exact ih (act_invariant h hmax hact) hacts

theorem getStats_ne_of_dropped {d : Client} (hdropped : d.dropped = c.dropped + 1) :
    d.getStats ≠ c.getStats := by
  intro hstats
  have hsame : d.dropped = c.dropped := congrArg Stats.dropped hstats
  omega

theorem closed_capture_ignored_iff (hclosed : c.isClosed = true) (event : Option EventIn) :
    ((captureEvent config event c).queue = c.queue ∧
      (captureEvent config event c).getStats = c.getStats) ↔
        event = none ∨ c.queue.length < config.maxQueueSize := by
  cases event with
  | none => exact ⟨fun _ => .inl rfl, fun _ => ⟨rfl, rfl⟩⟩
  | some event =>
    unfold captureEvent
    dsimp only
    by_cases hfull : config.maxQueueSize ≤ c.queue.length
    · -- the overflow is handled before the client is found closed
      rw [if_pos hfull]
      constructor
      · intro hsame
        have hstats := hsame.2
        cases hpolicy : config.overflowPolicy with
        | dropOldest =>
          rw [hpolicy] at hstats
          dsimp only at hstats
          rw [if_pos hclosed] at hstats
          exact absurd hstats (getStats_ne_of_dropped rfl)
        | dropNewest =>
          rw [hpolicy] at hstats
          exact absurd hstats (getStats_ne_of_dropped rfl)
      · intro hroom
        rcases hroom with hnone | hroom
        · exact absurd hnone (Option.some_ne_none _)
        · omega
    · rw [if_neg hfull, if_pos hclosed]
      exact ⟨fun _ => .inr (by omega), fun _ => ⟨rfl, rfl⟩⟩

/-- The queue is exact in every run; a closed client ignores an event exactly when the queue has
room for it. -/
theorem queue_exact_and_closed_iff (hmax : 1 ≤ config.maxQueueSize) {l : List Act}
    (hacts : ({} : Client).acts config l = some c) :
    c.Exact config ∧ (c.isClosed = true → ∀ event : Option EventIn,
      ((captureEvent config event c).queue = c.queue ∧
        (captureEvent config event c).getStats = c.getStats) ↔
          event = none ∨ c.queue.length < config.maxQueueSize) :=
  ⟨(acts_invariant hmax l invariant_start hacts).exact,
    fun hclosed event => closed_capture_ignored_iff hclosed event⟩

end Invariant

def sampleEvent : EventIn := { ts := 1, provider := "openai" }

/-- An event is sent at its second attempt while another one is captured, and the client closes. -/
def sampleActs : List Act :=
  [.captureEvent (some sampleEvent), .flush, .captureEvent (some sampleEvent), .flush,
    .reply 0 (some 503), .delayOver 0, .close, .reply 0 (some 202)]

theorem queue_exact_and_closed_iff_sample : ∃ c : Client,
    c.Exact { ingestKey := "rk_live", maxQueueSize := 2 } ∧ c.sentEvents = [0] ∧
      (captureEvent { ingestKey := "rk_live", maxQueueSize := 2 } (some sampleEvent) c).getStats =
        c.getStats := by
  have hsome : ∃ c, ({} : Client).acts { ingestKey := "rk_live", maxQueueSize := 2 } sampleActs =
      some c := Option.isSome_iff_exists.mp (by decide)
  obtain ⟨c, hc⟩ := hsome
  have hend : (({} : Client).acts { ingestKey := "rk_live", maxQueueSize := 2 } sampleActs).map
      (fun c => (c.sentEvents, c.isClosed, c.queue.length)) = some ([0], true, 1) := by decide
  rw [hc] at hend
  have hend := Option.some.inj hend
  have hrun := queue_exact_and_closed_iff (by decide) hc
  have hclosed : c.isClosed = true := congrArg (fun p => p.2.1) hend
  have hlength : c.queue.length = 1 := congrArg (fun p => p.2.2) hend
  refine ⟨c, hrun.1, congrArg Prod.fst hend, ((hrun.2 hclosed (some sampleEvent)).mpr ?_).2⟩
  right
  rw [hlength]
  decide

/-- A client that was closed with a full queue counts, or even throws out, what it should ignore. -/
theorem closed_client_drops :
    (∃ c : Client, ({} : Client).acts { ingestKey := "rk_live", maxQueueSize := 1 }
      [.captureEvent (some sampleEvent), .close] = some c ∧ c.isClosed = true ∧
        (captureEvent { ingestKey := "rk_live", maxQueueSize := 1 } (some sampleEvent) c).queue = [] ∧
          c.queue.length = 1) ∧
    ∃ c : Client, ({} : Client).acts
      { ingestKey := "rk_live", maxQueueSize := 1, overflowPolicy := .dropNewest }
      [.captureEvent (some sampleEvent), .close] = some c ∧ c.isClosed = true ∧ c.dropped = 0 ∧
        (captureEvent { ingestKey := "rk_live", maxQueueSize := 1, overflowPolicy := .dropNewest }
          (some sampleEvent) c).dropped = 1 :=
  ⟨⟨_, rfl, by decide⟩, ⟨_, rfl, by decide⟩⟩

end Rheonic.NodeClient
