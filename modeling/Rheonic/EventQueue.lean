import Rheonic.SdkClient
import Rheonic.Lib.Tally
import Rheonic.Lib.Line

namespace Rheonic.SdkClient
open IngestEvent Tally Line

/-- Where a thread stands inside `flush` or `close`; `posting` and `settling` hold an event. -/
inductive Phase
  | flushing
  | posting (x : Sending)
  | settling (x : Captured) (ok : Bool)
  | closing
  | joining
  deriving DecidableEq, Repr

def Phase.held : Phase → Option Captured
  | posting x => some x.captured
  | settling x _ => some x
  | _ => none

/-- A client whose methods are called by threads, each in a call or in none. -/
structure Threads (ι : Type) where
  client : Client := {}
  isClosed : Bool := false
  stopEvent : Bool := false
  phase : ι → Option Phase := fun _ => none
  /-- The events that have been taken from the queue, by their numbers. -/
  taken : List ℕ := []

/-- What a thread does next. Regions under the lock are one action. -/
inductive Move
  /-- An event that normalization has passed, or one that it rejects. -/
  | captureEvent (event : Option EventIn)
  | flush
  /-- The worker wakes up. -/
  | tick
  | close
  | markClosed
  | joined
  /-- The time budget of a flush is used up. -/
  | expire
  | take
  | reply (status : Option ℕ)
  | count

def Move.isValidCapture : Move → Bool
  | captureEvent (some _) => true
  | _ => false

section Step

variable {ι : Type} [DecidableEq ι] (config : ClientConfig)

def Threads.at (s : Threads ι) (i : ι) (p : Option Phase) : Threads ι :=
  { s with phase := Function.update s.phase i p }

/-- `_send_event` after an attempt: count the event, or try once more. -/
def afterReply (x : Sending) (status : Option ℕ) : Phase :=
  let (ok, shouldRetry) := sendEventOnce status
  if ok then .settling x.captured true
  else if x.attempt = .first ∧ shouldRetry then .posting { x with attempt := .second }
  else .settling x.captured false

def Client.counted (c : Client) (ok : Bool) : Client :=
  if ok then { c with sent := c.sent + 1 } else { c with failed := c.failed + 1 }

/-- An action of one thread, if it can take it where it stands. -/
def Threads.act (s : Threads ι) (i : ι) (m : Move) : Option (Threads ι) :=
  match s.phase i, m with
  | none, .captureEvent none => some s
  | none, .captureEvent (some event) =>
    some { s with client := SdkClient.captureEvent config event s.client }
  | none, .flush => some (s.at i (some .flushing))
  | none, .tick => if s.stopEvent then none else some (s.at i (some .flushing))
  | none, .close => if s.isClosed then some s else some (s.at i (some .closing))
  | some .closing, .markClosed =>
    some ({ s with isClosed := true, stopEvent := true }.at i (some .joining))
  | some .joining, .joined => some (s.at i (some .flushing))
  | some .flushing, .expire => some (s.at i none)
  | some .flushing, .take =>
    match s.client.queue with
    | [] => some (s.at i none)
    | x :: queue =>
      some ({ s with
        client := { s.client with queue := queue }
        taken := s.taken ++ [x.number] }.at i (some (.posting ⟨x, .first⟩)))
  | some (.posting x), .reply status => some (s.at i (some (afterReply x status)))
  | some (.settling _ ok), .count =>
    some ({ s with client := s.client.counted ok }.at i (some .flushing))
  | _, _ => none

/-- The actions of all threads, in the order in which they happen. -/
def Threads.acts (s : Threads ι) (l : List (ι × Move)) : Option (Threads ι) :=
  l.foldlM (fun s a => s.act config a.1 a.2) s

end Step

/-- The event that a thread has taken from the queue and not counted yet. -/
def Threads.holding {ι : Type} (s : Threads ι) (i : ι) : Option Captured := (s.phase i).bind Phase.held

noncomputable def Threads.inFlight {ι : Type} (s : Threads ι) : ℕ := tally s.holding fun _ => True

/-- Nothing is lost or doubled: every valid event is accounted for once, no event is taken twice or in
the hands of two threads, and the queue is bounded and in capture order. -/
structure Threads.Accounts {ι : Type} (config : ClientConfig) (valid : ℕ) (s : Threads ι) : Prop where
  bounded : s.client.queue.length ≤ config.maxQueueSize
  accounted : valid = s.client.queue.length + s.inFlight + s.client.sent + s.client.failed +
    s.client.dropped
  exclusive : ∀ i j x y, s.holding i = some x → s.holding j = some y → x.number = y.number → i = j
  takenOnce : s.taken.Nodup
  ordered : (s.client.queue.map Captured.number).Pairwise (· < ·)

section Effect

variable {ι : Type} [DecidableEq ι] {config : ClientConfig} {s s' : Threads ι} {i : ι} {m : Move}

/-- What an action can do to the client and to the events in flight. -/
inductive Effect (config : ClientConfig) (s s' : Threads ι) (i : ι) (m : Move) : Prop
  | quiet (hm : m.isValidCapture = false) (hclient : s'.client = s.client)
      (hholding : s'.holding = s.holding) (htaken : s'.taken = s.taken)
  | capture (event : EventIn) (hm : m = .captureEvent (some event))
      (hclient : s'.client = captureEvent config event s.client) (hholding : s'.holding = s.holding)
      (htaken : s'.taken = s.taken)
  | take (x : Captured) (queue : List Captured) (hm : m.isValidCapture = false)
      (hqueue : s.client.queue = x :: queue) (hfree : s.holding i = none)
      (hclient : s'.client = { s.client with queue := queue })
      (hholding : s'.holding = Function.update s.holding i (some x))
      (htaken : s'.taken = s.taken ++ [x.number])
  | count (x : Captured) (ok : Bool) (hm : m.isValidCapture = false)
      (hheld : s.holding i = some x) (hclient : s'.client = s.client.counted ok)
      (hholding : s'.holding = Function.update s.holding i none) (htaken : s'.taken = s.taken)

theorem holding_at (p : Option Phase) (c : Client) (isClosed stopEvent : Bool) (taken : List ℕ) :
    (Threads.at ⟨c, isClosed, stopEvent, s.phase, taken⟩ i p).holding =
      Function.update s.holding i (p.bind Phase.held) := by
  funext j
  by_cases hj : j = i
  · subst hj
    simp [Threads.at, Threads.holding]
  · simp [Threads.at, Threads.holding, Function.update_of_ne hj]

theorem holding_keep {p : Option Phase} (c : Client) (isClosed stopEvent : Bool) (taken : List ℕ)
    (h : p.bind Phase.held = s.holding i) :
    (Threads.at ⟨c, isClosed, stopEvent, s.phase, taken⟩ i p).holding = s.holding := by
  rw [holding_at, h, Function.update_eq_self]

theorem afterReply_held (x : Sending) (status : Option ℕ) :
    (afterReply x status).held = some x.captured := by
  unfold afterReply
  dsimp only
  split
  · rfl
  · split <;> rfl

theorem act_effect (h : s.act config i m = some s') : Effect config s s' i m := by
  have hholding : s.holding i = (s.phase i).bind Phase.held := rfl
  unfold Threads.act at h
  cases hphase : s.phase i with
  -- a thread between two methods
  | none =>
    rw [hphase] at h hholding
    cases m with
    | captureEvent event =>
      cases event with
      | none =>
        rw [← Option.some.inj h]
        exact .quiet rfl rfl rfl rfl
      | some event =>
        rw [← Option.some.inj h]
        exact .capture event rfl rfl rfl rfl
    | flush =>
      rw [← Option.some.inj h]
      exact .quiet rfl rfl (holding_keep _ _ _ _ hholding.symm) rfl
    | tick =>
      dsimp only at h
      split at h
      · exact absurd h (by simp)
      · rw [← Option.some.inj h]
        exact .quiet rfl rfl (holding_keep _ _ _ _ hholding.symm) rfl
    -- closing again does nothing
    | close =>
      dsimp only at h
      split at h
      · rw [← Option.some.inj h]
        exact .quiet rfl rfl rfl rfl
      · rw [← Option.some.inj h]
        exact .quiet rfl rfl (holding_keep _ _ _ _ hholding.symm) rfl
    | _ => exact absurd h (by simp)
  | some p =>
    rw [hphase] at h hholding
    cases p with
    | flushing =>
      cases m with
      | expire =>
        rw [← Option.some.inj h]
        exact .quiet rfl rfl (holding_keep _ _ _ _ hholding.symm) rfl
      -- the lock is held, so an event is taken by one thread only
      | take =>
        cases hqueue : s.client.queue with
        | nil =>
          rw [hqueue] at h
          rw [← Option.some.inj h]
          exact .quiet rfl rfl (holding_keep _ _ _ _ hholding.symm) rfl
        | cons x queue =>
          rw [hqueue] at h
          rw [← Option.some.inj h]
          exact .take x queue rfl hqueue hholding rfl (holding_at _ _ _ _ _) rfl
      | _ => exact absurd h (by simp)
    | posting x =>
      cases m with
      | reply status =>
        rw [← Option.some.inj h]
        have hkeep : (some (afterReply x status)).bind Phase.held = s.holding i :=
          (afterReply_held x status).trans hholding.symm
        exact .quiet rfl rfl (holding_keep _ _ _ _ hkeep) rfl
      | _ => exact absurd h (by simp)
    | settling x ok =>
      cases m with
      | count =>
        rw [← Option.some.inj h]
        exact .count x ok rfl hholding rfl (holding_at _ _ _ _ _) rfl
      | _ => exact absurd h (by simp)
    | closing =>
      cases m with
      | markClosed =>
        rw [← Option.some.inj h]
        exact .quiet rfl rfl (holding_keep _ _ _ _ hholding.symm) rfl
      | _ => exact absurd h (by simp)
    | joining =>
      cases m with
      | joined =>
        rw [← Option.some.inj h]
        exact .quiet rfl rfl (holding_keep _ _ _ _ hholding.symm) rfl
      | _ => exact absurd h (by simp)

end Effect

structure Threads.Invariant {ι : Type} (config : ClientConfig) (s : Threads ι) : Prop where
  bounded : s.client.queue.length ≤ config.maxQueueSize
  finite : Finite s.holding
  accounted : s.client.captured = s.client.queue.length + s.inFlight + s.client.sent +
    s.client.failed + s.client.dropped
  exclusive : ∀ i j x y, s.holding i = some x → s.holding j = some y → x.number = y.number → i = j
  known : ∀ i x, s.holding i = some x → x.number ∈ s.taken
  line : Orderly s.client.captured s.taken (s.client.queue.map Captured.number)

section Invariant

variable {ι : Type} [DecidableEq ι] {config : ClientConfig} {s s' : Threads ι} {i : ι} {m : Move}

omit [DecidableEq ι] in
theorem invariant_start : Threads.Invariant config ({} : Threads ι) where
  bounded := Nat.zero_le _
  finite := finite_none
  accounted := by
    have hnone : ({} : Threads ι).inFlight = 0 := tally_none _
    rw [hnone]
    rfl
  exclusive := fun _ _ _ _ h => absurd h (by simp [Threads.holding])
  known := fun _ _ h => absurd h (by simp [Threads.holding])
  line := orderly_start

/-- A full queue gives up one event for the new one, or the new one. -/
theorem captureEvent_cases (config : ClientConfig) (event : EventIn) (c : Client) :
    ∃ x : Captured, x.number = c.captured ∧
      (captureEvent config event c).captured = c.captured + 1 ∧
      (captureEvent config event c).sent = c.sent ∧
      (captureEvent config event c).failed = c.failed ∧
      ((c.queue.length < config.maxQueueSize ∧
          (captureEvent config event c).queue = c.queue ++ [x] ∧
          (captureEvent config event c).dropped = c.dropped) ∨
        (config.maxQueueSize ≤ c.queue.length ∧
          (captureEvent config event c).queue = c.queue.tail ++ [x] ∧
          (captureEvent config event c).dropped = c.dropped + 1) ∨
        (captureEvent config event c).queue = c.queue ∧
          (captureEvent config event c).dropped = c.dropped + 1) := by
  unfold captureEvent
  dsimp only
  by_cases hfull : config.maxQueueSize ≤ c.queue.length
  · rw [if_pos hfull]
    cases config.overflowPolicy with
    | dropOldest => exact ⟨_, rfl, rfl, rfl, rfl, .inr (.inl ⟨hfull, rfl, rfl⟩)⟩
    | dropNewest => exact ⟨⟨c.captured, event⟩, rfl, rfl, rfl, rfl, .inr (.inr ⟨rfl, rfl⟩)⟩
  · rw [if_neg hfull]
    exact ⟨_, rfl, rfl, rfl, rfl, .inl ⟨by omega, rfl, rfl⟩⟩

omit [DecidableEq ι] in
theorem Threads.Invariant.capture (h : s.Invariant config) (hmax : 1 ≤ config.maxQueueSize)
    {event : EventIn} (hclient : s'.client = captureEvent config event s.client)
    (hholding : s'.holding = s.holding) (htaken : s'.taken = s.taken) : s'.Invariant config := by
  have hflight : s'.inFlight = s.inFlight := by
    unfold Threads.inFlight
    rw [hholding]
  have haccounted := h.accounted
  have hbounded := h.bounded
  obtain ⟨x, hx, hcaptured, hsent, hfailed, hcases⟩ := captureEvent_cases config event s.client
  rw [← hclient] at hcaptured hsent hfailed hcases
  refine ⟨?_, hholding ▸ h.finite, ?_, hholding ▸ h.exclusive, hholding ▸ htaken ▸ h.known, ?_⟩
  · rcases hcases with ⟨hroom, hqueue, -⟩ | ⟨-, hqueue, -⟩ | ⟨hqueue, -⟩
    · rw [hqueue, List.length_append, List.length_singleton]
      omega
    · rw [hqueue, List.length_append, List.length_singleton, List.length_tail]
      omega
    · rw [hqueue]
      exact hbounded
  · rw [hflight, hcaptured, hsent, hfailed]
    rcases hcases with ⟨-, hqueue, hdropped⟩ | ⟨hfull, hqueue, hdropped⟩ | ⟨hqueue, hdropped⟩
    · rw [hqueue, hdropped, List.length_append, List.length_singleton]
      omega
    · rw [hqueue, hdropped, List.length_append, List.length_singleton, List.length_tail]
      omega
    · rw [hqueue, hdropped]
      omega
  · rw [htaken, hcaptured]
    rcases hcases with ⟨-, hqueue, -⟩ | ⟨-, hqueue, -⟩ | ⟨hqueue, -⟩
    · rw [hqueue, List.map_append, List.map_singleton, hx]
      exact h.line.join
    · rw [hqueue, List.map_append, List.map_singleton, hx, List.map_tail]
      exact h.line.evict.join
    · rw [hqueue]
      exact h.line.refuse

theorem Threads.Invariant.take (h : s.Invariant config) {x : Captured} {queue : List Captured}
    (hqueue : s.client.queue = x :: queue) (hfree : s.holding i = none)
    (hclient : s'.client = { s.client with queue := queue })
    (hholding : s'.holding = Function.update s.holding i (some x))
    (htaken : s'.taken = s.taken ++ [x.number]) : s'.Invariant config := by
  have hline := h.line
  rw [hqueue, List.map_cons] at hline
  obtain ⟨hnew, hline⟩ := hline.take
  have hbounded := h.bounded
  have haccounted := h.accounted
  rw [hqueue, List.length_cons] at hbounded haccounted
  have htally := tally_update h.finite i (some x) fun _ => True
  rw [hfree, unit_none, unit_some, if_pos trivial, ← hholding] at htally
  refine ⟨?_, hholding ▸ h.finite.update i _, ?_, ?_, ?_, ?_⟩
  · rw [hclient]
    dsimp only
    omega
  · rw [hclient]
    dsimp only [Threads.inFlight] at haccounted ⊢
    omega
  · -- the ticket at the head was in nobody's hands
    have hfresh : ∀ j y, s.holding j = some y → y.number ≠ x.number :=
      fun j y hy heq => hnew (heq ▸ h.known j y hy)
    intro j k y z hy hz hyz
    rw [hholding] at hy hz
    by_cases hj : j = i <;> by_cases hk : k = i
    · rw [hj, hk]
    · rw [hj, Function.update_self] at hy
      rw [Function.update_of_ne hk] at hz
      obtain rfl := Option.some.inj hy
      exact absurd hyz.symm (hfresh k z hz)
    · rw [hk, Function.update_self] at hz
      rw [Function.update_of_ne hj] at hy
      obtain rfl := Option.some.inj hz
      exact absurd hyz (hfresh j y hy)
    · rw [Function.update_of_ne hj] at hy
      rw [Function.update_of_ne hk] at hz
      exact h.exclusive j k y z hy hz hyz
  · intro j y hy
    rw [hholding] at hy
    rw [htaken, List.mem_append, List.mem_singleton]
    by_cases hj : j = i
    · rw [hj, Function.update_self] at hy
      exact .inr (congrArg Captured.number (Option.some.inj hy).symm)
    · rw [Function.update_of_ne hj] at hy
      exact .inl (h.known j y hy)
  · rw [hclient, htaken]
    exact hline

theorem Threads.Invariant.count (h : s.Invariant config) {x : Captured} {ok : Bool}
    (hheld : s.holding i = some x) (hclient : s'.client = s.client.counted ok)
    (hholding : s'.holding = Function.update s.holding i none) (htaken : s'.taken = s.taken) :
    s'.Invariant config := by
  have htally := tally_update h.finite i none fun _ => True
  rw [hheld, unit_none, unit_some, if_pos trivial, ← hholding] at htally
  have haccounted := h.accounted
  have hqueue : s'.client.queue = s.client.queue := by
    rw [hclient]
    cases ok <;> rfl
  have hcaptured : s'.client.captured = s.client.captured := by
    rw [hclient]
    cases ok <;> rfl
  have hkept : ∀ j y, s'.holding j = some y → s.holding j = some y := by
    intro j y hy
    rw [hholding] at hy
    by_cases hj : j = i
    · rw [hj, Function.update_self] at hy
      exact absurd hy (by simp)
    · rwa [Function.update_of_ne hj] at hy
  refine ⟨hqueue ▸ h.bounded, hholding ▸ h.finite.update i _, ?_, ?_, ?_, ?_⟩
  · rw [hcaptured, hqueue, hclient]
    unfold Threads.inFlight at haccounted ⊢
    cases ok
    · dsimp only [Client.counted]
      rw [if_neg (by decide)]
      dsimp only
      omega
    · dsimp only [Client.counted]
      rw [if_pos rfl]
      dsimp only
      omega
  · exact fun j k y z hy hz => h.exclusive j k y z (hkept j y hy) (hkept k z hz)
  · exact fun j y hy => htaken ▸ h.known j y (hkept j y hy)
  · rw [hcaptured, hqueue, htaken]
    exact h.line

theorem act_invariant (hmax : 1 ≤ config.maxQueueSize) (h : s.Invariant config)
    (hact : s.act config i m = some s') : s'.Invariant config := by
  cases act_effect hact with
  | quiet _ hclient hholding htaken =>
    have hflight : s'.inFlight = s.inFlight := by
      unfold Threads.inFlight
      rw [hholding]
    refine ⟨hclient ▸ h.bounded, hholding ▸ h.finite, ?_, hholding ▸ h.exclusive,
      hholding ▸ htaken ▸ h.known, ?_⟩
    · rw [hclient, hflight]
      exact h.accounted
    · rw [hclient, htaken]
      exact h.line
  | capture event _ hclient hholding htaken => exact h.capture hmax hclient hholding htaken
  | take x queue _ hqueue hfree hclient hholding htaken =>
    exact h.take hqueue hfree hclient hholding htaken
  | count x ok _ hheld hclient hholding htaken => exact h.count hheld hclient hholding htaken

theorem act_captured (hact : s.act config i m = some s') :
    s'.client.captured = s.client.captured + if m.isValidCapture then 1 else 0 := by
  cases act_effect hact with
  | quiet hm hclient _ _ =>
    rw [hm, hclient]
    rfl
  | capture event hm hclient _ _ =>
    obtain ⟨-, -, hcaptured, -⟩ := captureEvent_cases config event s.client
    rw [hclient, hcaptured, hm]
    rfl
  | take x queue hm _ _ hclient _ _ =>
    rw [hm, hclient]
    rfl
  | count x ok hm _ hclient _ _ =>
    rw [hm, hclient]
    cases ok <;> rfl

theorem acts_invariant (hmax : 1 ≤ config.maxQueueSize) {l : List (ι × Move)}
    (h : s.Invariant config) (hacts : s.acts config l = some s') :
    s'.Invariant config ∧
      s'.client.captured = s.client.captured + l.countP fun a => a.2.isValidCapture := by
  induction l generalizing s with
  | nil =>
    obtain rfl : s = s' := Option.some.inj hacts
    exact ⟨h, rfl⟩
  | cons a l ih =>
    obtain ⟨t, ht, hrest⟩ := Option.bind_eq_some_iff.mp hacts
    obtain ⟨hinvariant, hcaptured⟩ := ih (act_invariant hmax h ht) hrest
    refine ⟨hinvariant, ?_⟩
    rw [hcaptured, act_captured ht, List.countP_cons]
    omega

/-- However the threads interleave, the statistics of the client account for every valid event. -/
theorem queue_accounts (hmax : 1 ≤ config.maxQueueSize) {l : List (ι × Move)}
    (hacts : ({} : Threads ι).acts config l = some s) :
    s.Accounts config (l.countP fun a => a.2.isValidCapture) := by
  obtain ⟨h, hcaptured⟩ := acts_invariant hmax invariant_start hacts
  have hvalid : (l.countP fun a => a.2.isValidCapture) = s.client.captured := by
    rw [hcaptured]
    exact (Nat.zero_add _).symm
  exact ⟨h.bounded, hvalid.trans h.accounted, h.exclusive, h.line.taken_sorted.imp Nat.ne_of_lt,
    h.line.line_sorted⟩

end Invariant

/-- Two threads capture an event each, where there is room for one, and race to send it. -/
def sampleMoves : List (Bool × Move) :=
  let event : EventIn := { ts := 1, provider := "openai" }
  [(true, .captureEvent (some event)), (false, .captureEvent (some event)), (true, .flush),
    (false, .flush), (true, .take), (false, .take), (true, .reply (some 503)),
    (false, .captureEvent (some event)), (true, .reply (some 202)), (true, .count)]

theorem queue_accounts_sample : ∃ s : Threads Bool,
    s.Accounts { ingestKey := "rk_live", maxQueueSize := 1 } 3 ∧
      (s.client.queue.length, s.client.sent, s.client.dropped) = (1, 1, 1) := by
  have hsome : ∃ s, ({} : Threads Bool).acts { ingestKey := "rk_live", maxQueueSize := 1 }
      sampleMoves = some s := Option.isSome_iff_exists.mp (by decide)
  obtain ⟨s, hs⟩ := hsome
  have hcounts : (({} : Threads Bool).acts { ingestKey := "rk_live", maxQueueSize := 1 }
      sampleMoves).map (fun s => (s.client.queue.length, s.client.sent, s.client.dropped)) =
        some (1, 1, 1) := by decide
  rw [hs] at hcounts
  exact ⟨s, queue_accounts le_rfl hs, Option.some.inj hcounts⟩

end Rheonic.SdkClient
