import Rheonic.TransportJob

namespace Rheonic.TransportJob
open RowTable TransportOutbox TransportService

/-- The application enqueues a message, or a worker executes a job. -/
inductive Event
  | enqueue (message : Message) (newId : String) (now : ℕ) (replies : QueueReplies)
  | job (job : DeliveryJob)

section Runs

variable (config : Config) (dedupeKey : String → FailureReport → String)

def handle (w : World) : Event → World
  | .enqueue message newId now replies =>
    (enqueue config ⟨message, newId, now, replies, none⟩ w).2
  | .job job => (processOutboxDelivery config dedupeKey job w).2

def runFrom (w : World) (events : List Event) : World := events.foldl (handle config dedupeKey) w

def runEvents (events : List Event) : World :=
  runFrom config dedupeKey ⟨Table.empty, [], [], []⟩ events

def Sets (t t' : Rows) (id : String) (row : Outbox) : Prop :=
  ∀ id', t'.get id' = if id' = id then some row else t.get id'

structure Attempted (row row' : Outbox) : Prop where
  attempts : row'.attempts = row.attempts + 1
  maxAttempts : row'.maxAttempts = row.maxAttempts
  message : row'.message = row.message

/-- Everything a job can do whose retry, if any, the queue takes. -/
inductive JobEffect (job : DeliveryJob) (w : World) : World → Prop
  | skipped : JobEffect job w w
  | ended (row row' : Outbox) (rows : Rows) (hrow : w.rows.get job.outboxId = some row)
      (hc : row.claimable job.claimedAt = true) (ha : Attempted row row')
      (hrows : Sets w.rows rows job.outboxId row')
      (hstatus : row'.status = .sending ∨ row'.status = .delivered ∨ row'.status = .dead) :
      JobEffect job w { w with rows := rows, tried := job.outboxId :: w.tried }
  | retried (row row' : Outbox) (rows : Rows) (delay : ℕ)
      (hrow : w.rows.get job.outboxId = some row) (hc : row.claimable job.claimedAt = true)
      (ha : Attempted row row') (hrows : Sets w.rows rows job.outboxId row')
      (hstatus : row'.status = .failed) (hlt : row'.attempts < row'.maxAttempts) :
      JobEffect job w { w with
        rows := rows, tried := job.outboxId :: w.tried
        queue := .retry job.outboxId row'.attempts delay row'.nextAttemptAt :: w.queue }
  | reported (row row' : Outbox) (rows : Rows) (c : EnqueueCall)
      (hrow : w.rows.get job.outboxId = some row) (hc : row.claimable job.claimedAt = true)
      (ha : Attempted row row') (hrows : Sets w.rows rows job.outboxId row')
      (hkind : row.message.kind = .webhook) (hstatus : row'.status = .dead)
      (hsource : c.source = some job.outboxId) :
      JobEffect job w
        (enqueue config c { w with rows := rows, tried := job.outboxId :: w.tried }).2

variable {config dedupeKey}

theorem sets_update {t : Rows} {id : String} {row : Outbox} (claimed : Outbox)
    (f : Outbox → Outbox) (h : t.get id = some row) : Sets t ((t.update id fun _ => claimed).update id f) id
      (f claimed) := by
  intro id'
  by_cases hid : id' = id <;> simp [hid, h]

theorem recordFailure_effect {job : DeliveryJob} {w : World} {row : Outbox}
    (error : String × String) (hrow : w.rows.get job.outboxId = some row)
    (hc : row.claimable job.claimedAt = true) (hq : job.retryQueue = .ok ()) :
    JobEffect config job w (recordFailure config dedupeKey job (row.claimed job.claimedAt) error
      { w with
        rows := w.rows.update job.outboxId fun _ => row.claimed job.claimedAt
        tried := job.outboxId :: w.tried }).2 := by
  unfold recordFailure
  rcases hdelay : nextDelay config (row.claimed job.claimedAt) with _ | delay
  · have hsets := sets_update (row.claimed job.claimedAt)
      (fun row => row.failed job.markedAt error none true) hrow
    have ha : Attempted row ((row.claimed job.claimedAt).failed job.markedAt error none true) :=
      ⟨rfl, rfl, rfl⟩
    simp only [apply_ite]
    split
    next hkind =>
      unfold enqueueWebhookFailureEmail
      split
      next => exact .ended row _ _ hrow hc ha hsets (.inr (.inr rfl))
      next =>
        split
        next => exact .ended row _ _ hrow hc ha hsets (.inr (.inr rfl))
        next => exact .reported row _ _ _ hrow hc ha hsets hkind rfl rfl
    next => exact .ended row _ _ hrow hc ha hsets (.inr (.inr rfl))
  · have hsets := sets_update (row.claimed job.claimedAt)
      (fun row => row.failed job.markedAt error (some (job.failedAt + delay)) false) hrow
    have hlt : row.attempts + 1 < row.maxAttempts := by
      by_contra hle
      have hnone := (nextDelay_claimed config row job.claimedAt).mpr (.inl (not_lt.mp hle))
      simp [hdelay] at hnone
    have ha : Attempted row ((row.claimed job.claimedAt).failed job.markedAt error
        (some (job.failedAt + delay)) false) := ⟨rfl, rfl, rfl⟩
    simp only [hq]
    exact .retried row _ _ delay hrow hc ha hsets rfl hlt

theorem processOutboxDelivery_effect (job : DeliveryJob) (w : World)
    (hq : job.retryQueue = .ok ()) :
    JobEffect config job w (processOutboxDelivery config dedupeKey job w).2 := by
  rcases claimForSend_cases job.outboxId job.claimedAt w.rows with hnone | ⟨row, hrow, hc, _⟩
  · rw [processOutboxDelivery, hnone]
    exact .skipped
  · rw [processOutboxDelivery_of_claimable config dedupeKey hrow hc]
    have hsending : Sets w.rows (w.rows.update job.outboxId fun _ => row.claimed job.claimedAt)
        job.outboxId (row.claimed job.claimedAt) := by
      intro id'
      by_cases hid : id' = job.outboxId <;> simp [hid, hrow]
    have ha : Attempted row (row.claimed job.claimedAt) := ⟨rfl, rfl, rfl⟩
    have hstays : JobEffect config job w { w with
        rows := w.rows.update job.outboxId fun _ => row.claimed job.claimedAt
        tried := job.outboxId :: w.tried } :=
      .ended row _ _ hrow hc ha hsending (.inl rfl)
    unfold attempt
    split
    next =>
      have ha : Attempted row ((row.claimed job.claimedAt).delivered job.markedAt) :=
        ⟨rfl, rfl, rfl⟩
      have hsets := sets_update (row.claimed job.claimedAt)
        (fun row => row.delivered job.markedAt) hrow
      exact .ended row _ _ hrow hc ha hsets (.inr (.inl rfl))
    next e _ =>
      split
      · split
        · exact hstays
        next error _ => exact recordFailure_effect error hrow hc hq
      · exact hstays

structure RowConsistent (w : World) (id : String) (row : Outbox) : Prop where
  counted : row.attempts = w.tried.count id
  bounded : row.attempts ≤ row.maxAttempts
  pending : row.status = .pending → row.attempts < row.maxAttempts
  failed : row.status = .failed → row.attempts < row.maxAttempts ∧
    ∃ delay, QueuedJob.retry id row.attempts delay row.nextAttemptAt ∈ w.queue

/-- How many rows report the failure of the row `source`. -/
def reportsOf (w : World) (source : String) : ℕ :=
  w.created.countP fun e => e.1 = some source

structure Consistent (w : World) : Prop where
  rows : ∀ id row, w.rows.get id = some row → RowConsistent w id row
  untried : ∀ id, w.rows.get id = none → w.tried.count id = 0
  reports : ∀ source, reportsOf w source = 0 ∨ reportsOf w source = 1 ∧
    ∃ row, w.rows.get source = some row ∧ row.message.kind = .webhook ∧ row.status = .dead

theorem RowConsistent.mono {w w' : World} {id : String} {row : Outbox}
    (h : RowConsistent w id row) (ht : w'.tried.count id = w.tried.count id)
    (hq : ∀ job ∈ w.queue, job ∈ w'.queue) : RowConsistent w' id row where
  counted := by rw [ht, h.counted]
  bounded := h.bounded
  pending := h.pending
  failed := fun hf => by
    obtain ⟨hlt, delay, hmem⟩ := h.failed hf
    exact ⟨hlt, delay, hq _ hmem⟩

theorem Consistent.insert {w w' : World} {c : EnqueueCall} (h : Consistent w)
    (hins : w.rows.insert c.newId (c.row config) = some w'.rows) (ht : w'.tried = w.tried)
    (hcreated : w'.created = (c.source, c.newId) :: w.created)
    (hq : ∀ job ∈ w.queue, job ∈ w'.queue)
    (hsource : ∀ source, c.source = some source → reportsOf w source = 0 ∧
      ∃ row, w.rows.get source = some row ∧ row.message.kind = .webhook ∧ row.status = .dead) :
    Consistent w' where
  rows := fun id row hrow => by
    rw [Table.get_insert hins] at hrow
    by_cases hid : id = c.newId
    · subst hid
      rw [if_pos rfl] at hrow
      obtain rfl := Option.some.inj hrow
      have hmax := one_le_maxAttempts config c.message.kind
      -- a new id, so nothing has been tried of it
      have huntried := h.untried _ (Table.get_eq_none_of_insert hins)
      refine ⟨?_, ?_, fun _ => ?_, fun hf => by cases hf⟩
      · rw [ht, huntried]
        rfl
      · simp [EnqueueCall.row, newRow]
      · exact hmax
    · rw [if_neg hid] at hrow
      exact (h.rows id row hrow).mono (by rw [ht]) hq
  untried := fun id hnone => by
    rw [ht]
    apply h.untried
    by_contra hne
    obtain ⟨row, hrow⟩ := Option.ne_none_iff_exists'.mp hne
    simp [Table.get_insert_of_get hins hrow] at hnone
  reports := fun source => by
    have hkeep : (∃ row, w.rows.get source = some row ∧ row.message.kind = .webhook ∧
        row.status = .dead) → ∃ row, w'.rows.get source = some row ∧
        row.message.kind = .webhook ∧ row.status = .dead := by
      rintro ⟨row, hrow, hdead⟩
      exact ⟨row, Table.get_insert_of_get hins hrow, hdead⟩
    unfold reportsOf
    rw [hcreated, List.countP_cons]
    -- the failure of this row is reported for the first time
    by_cases hs : c.source = some source
    · obtain ⟨hzero, hrow⟩ := hsource source hs
      exact .inr ⟨by simpa [hs, reportsOf] using hzero, hkeep hrow⟩
    · simp only [hs, decide_false, Bool.false_eq_true, if_false, add_zero]
      exact (h.reports source).imp_right (And.imp_right hkeep)

theorem enqueue_consistent {c : EnqueueCall} {w : World} (h : Consistent w)
    (hsource : ∀ source, c.source = some source → reportsOf w source = 0 ∧
      ∃ row, w.rows.get source = some row ∧ row.message.kind = .webhook ∧ row.status = .dead) :
    Consistent (enqueue config c w).2 := by
  have heffect := enqueue_effect config c w
  generalize (enqueue config c w).1 = o at heffect
  generalize (enqueue config c w).2 = w' at heffect ⊢
  cases heffect with
  | blank e hkey => exact h
  | found id row hkey hslot => exact h
  | taken e hslot hid => exact h
  | queued rows hkey hslot hins hq =>
    exact h.insert hins rfl rfl (fun _ hmem => List.mem_cons_of_mem _ hmem) hsource
  | dropped rows e hkey hslot hins hq => exact h.insert hins rfl rfl (fun _ hmem => hmem) hsource

/-- An attempt of a claimable row: the rows and the record of tries move together. -/
theorem Consistent.attempted {w w' : World} {id : String} {now : ℕ} {row row' : Outbox}
    (h : Consistent w) (hrow : w.rows.get id = some row) (hc : row.claimable now = true)
    (ha : Attempted row row') (hrows : Sets w.rows w'.rows id row')
    (ht : w'.tried = id :: w.tried) (hcreated : w'.created = w.created)
    (hq : ∀ job ∈ w.queue, job ∈ w'.queue) (hpending : row'.status ≠ .pending)
    (hfailed : row'.status = .failed → row'.attempts < row'.maxAttempts ∧
      ∃ delay, QueuedJob.retry id row'.attempts delay row'.nextAttemptAt ∈ w'.queue) :
    Consistent w' := by
  have hopen : row.status = .pending ∨ row.status = .failed := by
    simp only [Outbox.claimable, Bool.decide_and, Bool.and_eq_true, decide_eq_true_eq] at hc
    exact hc.1
  have hold := h.rows id row hrow
  -- a row that may be claimed has attempts left
  have hlt : row.attempts < row.maxAttempts := by
    rcases hopen with hp | hf
    · exact hold.pending hp
    · exact (hold.failed hf).1
  refine ⟨fun id' row'' hrow'' => ?_, fun id' hnone => ?_, fun source => ?_⟩
  · rw [hrows] at hrow''
    by_cases hid : id' = id
    · subst hid
      rw [if_pos rfl] at hrow''
      obtain rfl := Option.some.inj hrow''
      refine ⟨?_, ?_, fun hp => absurd hp hpending, hfailed⟩
      · rw [ht, List.count_cons_self, ha.attempts, hold.counted]
      · rw [ha.attempts, ha.maxAttempts]
        exact hlt
    · rw [if_neg hid] at hrow''
      refine (h.rows id' row'' hrow'').mono ?_ hq
      rw [ht, List.count_cons_of_ne (fun heq => hid heq.symm)]
  · rw [hrows] at hnone
    by_cases hid : id' = id
    · simp [hid] at hnone
    · rw [if_neg hid] at hnone
      rw [ht, List.count_cons_of_ne (fun heq => hid heq.symm)]
      exact h.untried id' hnone
  · unfold reportsOf
    rw [hcreated]
    refine (h.reports source).imp_right fun ⟨hone, srow, hsrow, hkind, hdead⟩ => ⟨hone, srow, ?_⟩
    -- a row that has been reported is dead, and this one was not
    have hne : source ≠ id := by
      rintro rfl
      obtain rfl := Option.some.inj (hrow.symm.trans hsrow)
      rcases hopen with hp | hf <;> simp_all
    exact ⟨by rw [hrows, if_neg hne, hsrow], hkind, hdead⟩

theorem job_consistent {job : DeliveryJob} {w w' : World} (h : Consistent w)
    (heffect : JobEffect config job w w') : Consistent w' := by
  cases heffect with
  | skipped => exact h
  | ended row row' rows hrow hc ha hrows hstatus =>
    refine h.attempted hrow hc ha hrows rfl rfl (fun _ hmem => hmem) ?_ ?_
    · rcases hstatus with hs | hs | hs <;> simp [hs]
    · rcases hstatus with hs | hs | hs <;> simp [hs]
  | retried row row' rows delay hrow hc ha hrows hstatus hlt =>
    exact h.attempted hrow hc ha hrows rfl rfl (fun _ hmem => List.mem_cons_of_mem _ hmem)
      (by simp [hstatus]) fun _ => ⟨hlt, delay, List.mem_cons_self⟩
  | reported row row' rows c hrow hc ha hrows hkind hstatus hsource =>
    have hdead : Consistent { w with rows := rows, tried := job.outboxId :: w.tried } :=
      h.attempted hrow hc ha hrows rfl rfl (fun _ hmem => hmem) (by simp [hstatus])
        (by simp [hstatus])
    refine enqueue_consistent hdead fun source hs => ?_
    obtain rfl : job.outboxId = source := Option.some.inj (hsource.symm.trans hs)
    constructor
    · -- the row was not dead before this job, so nothing has reported it
      rcases h.reports job.outboxId with hzero | ⟨_, row'', hrow'', _, hdead''⟩
      · exact hzero
      · obtain rfl := Option.some.inj (hrow.symm.trans hrow'')
        simp [Outbox.claimable, hdead''] at hc
    · exact ⟨row', by simpa using hrows job.outboxId, by rw [ha.message, hkind], hstatus⟩

def Terminal (row : Outbox) : Prop := row.status = .delivered ∨ row.status = .dead

theorem job_terminal {job : DeliveryJob} {w w' : World} {id : String} {row : Outbox}
    (hrow : w.rows.get id = some row) (ht : Terminal row) (heffect : JobEffect config job w w') :
    w'.rows.get id = some row := by
  have hkeep : ∀ {row₁ row₂ : Outbox} {rows : Rows}, w.rows.get job.outboxId = some row₁ →
      row₁.claimable job.claimedAt = true → Sets w.rows rows job.outboxId row₂ →
      rows.get id = some row := by
    intro row₁ row₂ rows hrow₁ hc hrows
    have hne : id ≠ job.outboxId := by
      rintro rfl
      obtain rfl := Option.some.inj (hrow.symm.trans hrow₁)
      rcases ht with ht | ht <;> simp [Outbox.claimable, ht] at hc
    rw [hrows, if_neg hne, hrow]
  cases heffect with
  | skipped => exact hrow
  | ended row₁ row₂ rows hrow₁ hc ha hrows hstatus => exact hkeep hrow₁ hc hrows
  | retried row₁ row₂ rows delay hrow₁ hc ha hrows hstatus hlt => exact hkeep hrow₁ hc hrows
  | reported row₁ row₂ rows c hrow₁ hc ha hrows hkind hstatus hsource =>
    exact enqueue_get config (hkeep hrow₁ hc hrows)

/-- The queue takes the retries of the run's jobs. -/
def RetriesTaken (events : List Event) : Prop :=
  ∀ job, Event.job job ∈ events → job.retryQueue = .ok ()

theorem runFrom_consistent {w : World} {events : List Event} (h : Consistent w)
    (hq : RetriesTaken events) : Consistent (runFrom config dedupeKey w events) := by
  induction events generalizing w with
  | nil => exact h
  | cons event events ih =>
    refine ih ?_ fun job hmem => hq job (List.mem_cons_of_mem _ hmem)
    cases event with
    | enqueue message newId now replies =>
      exact enqueue_consistent h fun source hs => by simp at hs
    | job job =>
      exact job_consistent h (processOutboxDelivery_effect job w (hq job List.mem_cons_self))

theorem runFrom_terminal {w : World} {events : List Event} {id : String} {row : Outbox}
    (hrow : w.rows.get id = some row) (ht : Terminal row) (hq : RetriesTaken events) :
    (runFrom config dedupeKey w events).rows.get id = some row := by
  induction events generalizing w with
  | nil => exact hrow
  | cons event events ih =>
    refine ih ?_ fun job hmem => hq job (List.mem_cons_of_mem _ hmem)
    cases event with
    | enqueue message newId now replies => exact enqueue_get config hrow
    | job job =>
      exact job_terminal hrow ht
        (processOutboxDelivery_effect job w (hq job List.mem_cons_self))

theorem empty_consistent : Consistent ⟨Table.empty, [], [], []⟩ where
  rows := by simp
  untried := by simp
  reports := fun _ => .inl rfl

/-- After any events whose retries the queue takes: the attempts of a row are the deliveries
tried for it, and within its bound; a failed row has attempts left and its retry was scheduled
for its next attempt; only a dead webhook row has been reported, and once; and whatever happens
later leaves delivered and dead rows as they are. -/
theorem outbox_state_machine (config : Config) (dedupeKey : String → FailureReport → String)
    (events later : List Event) (h : RetriesTaken (events ++ later)) :
    let w := runEvents config dedupeKey events
    let w' := runFrom config dedupeKey w later
    (∀ id row, w.rows.get id = some row →
      row.attempts = w.tried.count id ∧ row.attempts ≤ row.maxAttempts ∧
      (row.status = .failed → row.attempts < row.maxAttempts ∧
        ∃ delay, QueuedJob.retry id row.attempts delay row.nextAttemptAt ∈ w.queue) ∧
      (Terminal row → w'.rows.get id = some row)) ∧
    (∀ source, reportsOf w source ≤ 1 ∧ (0 < reportsOf w source →
      ∃ row, w.rows.get source = some row ∧ row.message.kind = .webhook ∧
        row.status = .dead)) := by
  intro w w'
  have hevents : RetriesTaken events := fun job hmem => h job (List.mem_append_left _ hmem)
  have hlater : RetriesTaken later := fun job hmem => h job (List.mem_append_right _ hmem)
  have hw : Consistent w := runFrom_consistent empty_consistent hevents
  refine ⟨fun id row hrow => ?_, fun source => ?_⟩
  · have hok := hw.rows id row hrow
    exact ⟨hok.counted, hok.bounded, hok.failed, fun ht => runFrom_terminal hrow ht hlater⟩
  · rcases hw.reports source with hzero | ⟨hone, hrow⟩
    · exact ⟨by omega, fun hpos => by omega⟩
    · exact ⟨by omega, fun _ => hrow⟩

end Runs

/-- A webhook whose two attempts fail, for a project that wants mails. -/
def sampleEvents : List Event :=
  let job : DeliveryJob := { timedOut "read timed out" with
    project := some ⟨true, true, true, none⟩, emailId := "mail" }
  [.enqueue sampleRow.message "a" 0 {}, .job job,
    .job { job with claimedAt := 9, failedAt := 9, markedAt := 9 }]

theorem outbox_state_machine_sample :
    let config : Config := { webhookRetryMaxAttempts := 2 }
    let w := runEvents config (fun id _ => id) sampleEvents
    (∀ id row, w.rows.get id = some row →
      row.attempts = w.tried.count id ∧ row.attempts ≤ row.maxAttempts ∧
      (row.status = .failed → row.attempts < row.maxAttempts ∧
        ∃ delay, QueuedJob.retry id row.attempts delay row.nextAttemptAt ∈ w.queue) ∧
      (Terminal row → (runFrom config (fun id _ => id) w []).rows.get id = some row)) ∧
    (∀ source, reportsOf w source ≤ 1 ∧ (0 < reportsOf w source →
      ∃ row, w.rows.get source = some row ∧ row.message.kind = .webhook ∧
        row.status = .dead)) := by
  refine outbox_state_machine { webhookRetryMaxAttempts := 2 } (fun id _ => id) sampleEvents [] ?_
  intro job hmem
  simp [sampleEvents] at hmem
  rcases hmem with rfl | rfl <;> rfl

/-- The second failure is the last: the row is dead and has been reported once. -/
example :
    let w := runEvents { webhookRetryMaxAttempts := 2 } (fun id _ => id) sampleEvents
    (w.rows.get "a").map Outbox.status = some .dead ∧ w.tried.count "a" = 2 ∧
      reportsOf w "a" = 1 := by
  decide

end Rheonic.TransportJob
