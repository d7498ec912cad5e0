import Rheonic.TransportService

namespace Rheonic.TransportJob
open RowTable PyText TransportOutbox TransportService

/-- What a failure report reads of the project. -/
structure Project where
  protectEnabled : Bool
  webhookEnabled : Bool
  emailEnabled : Bool
  webhookUrl : Option String

/-- One execution of `process_outbox_delivery`: the row it is for, its readings of the clock, how
the delivery ends, and how the queue answers. -/
structure DeliveryJob where
  outboxId : String
  claimedAt : ℕ
  failedAt : ℕ
  markedAt : ℕ
  delivery : Except Raised Unit
  retryQueue : Except Raised Unit := .ok ()
  project : Option Project := none
  emailId : String := ""
  emailQueue : QueueReplies := {}

section Job

variable (config : Config)

def deliver (kind : Kind) (delivery : Except Raised Unit) : Except Raised Unit :=
  match kind with
  | .other name => .error ⟨.runtimeError, "unsupported transport kind: " ++ name⟩
  | _ => delivery

/-- `str(exc).splitlines()[0]`; an empty text has no line. -/
def firstLine (text : String) : Option String :=
  (splitlines text.toList).head?.map String.ofList

/-- The code and message of an error. -/
def errorDetails (e : Raised) : Except Raised (String × String) :=
  match e.cls with
  | .emailProviderNotConfigured =>
    .ok ("email_provider_not_configured", "email provider not configured")
  | .resendEmailTransport code => .ok (code, truncate config.webhookMaxErrorChars e.text)
  | .httpStatus (some statusCode) =>
    .ok ("webhook_http_error", truncate config.webhookMaxErrorChars s!"HTTP {statusCode}")
  | cls =>
    match firstLine e.text with
    | none => .error ⟨.indexError, "list index out of range"⟩
    | some line =>
      .ok (if cls = .timeout then "timeout" else "delivery_failed",
        truncate config.webhookMaxErrorChars line)

def retryIntervals : Kind → List ℕ
  | .webhook => config.webhookRetryIntervalsSeconds
  | _ => config.emailRetryIntervalsSeconds

/-- The delay after an attempt: the last interval stands for all further ones. -/
def retryDelaySeconds (kind : Kind) (attempt : ℕ) : Option ℕ :=
  (retryIntervals config kind)[min (attempt - 1) ((retryIntervals config kind).length - 1)]?

def failureReport (row : Outbox) (project : Project) : FailureReport where
  projectId := row.message.projectId
  eventType := row.message.eventType
  destination := row.message.destination.or project.webhookUrl
  status := row.status
  attempts := row.attempts
  maxAttempts := row.maxAttempts
  lastErrorCode := row.lastErrorCode
  lastErrorMessage := row.lastErrorMessage
  updatedAt := row.updatedAt

/-- `build_transport_dedupe_key` hashes the report with the id of its row. -/
def failureEmail (dedupeKey : String → FailureReport → String) (outboxId : String) (row : Outbox)
    (project : Project) : Message where
  projectId := row.message.projectId
  kind := .email
  eventType := "webhook.delivery_failed"
  payload := .failureReport (failureReport row project)
  dedupeKey := dedupeKey outboxId (failureReport row project)
  template := some "webhook_delivery_failed"

/-- A failed webhook is reported when its project wants alerts, and not if it was a test. -/
def wantsFailureEmail (row : Outbox) (project : Option Project) : Option Project :=
  if row.message.eventType = "webhook.test" then none
  else project.filter fun p => p.protectEnabled && p.webhookEnabled && p.emailEnabled

variable (dedupeKey : String → FailureReport → String)

def failureEmailCall (job : DeliveryJob) (row : Outbox) (project : Project) : EnqueueCall where
  message := failureEmail dedupeKey job.outboxId row project
  newId := job.emailId
  now := job.markedAt
  replies := job.emailQueue
  source := some job.outboxId

/-- A failure to enqueue the mail is logged and goes no further. -/
def enqueueWebhookFailureEmail (job : DeliveryJob) (w : World) : World :=
  match w.rows.get job.outboxId with
  | none => w
  | some row =>
    match wantsFailureEmail row job.project with
    | none => w
    | some project => (enqueue config (failureEmailCall dedupeKey job row project) w).2

/-- When the attempt of a claimed row fails: the delay to the next one, unless it was the last. -/
def nextDelay (row : Outbox) : Option ℕ :=
  if row.maxAttempts ≤ max row.attempts 1 then none
  else retryDelaySeconds config row.message.kind (max row.attempts 1)

/-- The end of a failed attempt of the claimed row: mark it, report a dead webhook, schedule the
retry. -/
def recordFailure (job : DeliveryJob) (row : Outbox) (error : String × String) (w : World) :
    Except Raised Unit × World :=
  match nextDelay config row with
  | none =>
    let w' := { w with
      rows := markFailed job.outboxId job.markedAt error none true w.rows }
    (.ok (), if row.message.kind = .webhook
      then enqueueWebhookFailureEmail config dedupeKey job w' else w')
  | some delay =>
    let nextAttemptAt := job.failedAt + delay
    let w' := { w with
      rows := markFailed job.outboxId job.markedAt error (some nextAttemptAt) false w.rows }
    match job.retryQueue with
    | .ok () =>
      (.ok (), { w' with
        queue := .retry job.outboxId row.attempts delay nextAttemptAt :: w.queue })
    | .error e => (.error e, w')

/-- The attempt of a claimed row. -/
def attempt (job : DeliveryJob) (row : Outbox) (w : World) : Except Raised Unit × World :=
  match deliver row.message.kind job.delivery with
  | .ok () => (.ok (), { w with rows := markDelivered job.outboxId job.markedAt w.rows })
  | .error e =>
    if e.isException then
      match errorDetails config e with
      | .error e' => (.error e', w)
      | .ok error => recordFailure config dedupeKey job row error w
    else (.error e, w)

def processOutboxDelivery (job : DeliveryJob) (w : World) : Except Raised Unit × World :=
  match claimForSend job.outboxId job.claimedAt w.rows with
  | (none, _) => (.ok (), w)
  | (some row, rows) =>
    attempt config dedupeKey job row
      { w with rows := rows, tried := job.outboxId :: w.tried }

/-- The exception is one that the error path can describe. -/
def Describable (e : Raised) : Prop :=
  match e.cls with
  | .baseException _ => False
  | .emailProviderNotConfigured => True
  | .resendEmailTransport _ => True
  | .httpStatus (some _) => True
  | _ => e.text ≠ ""

theorem firstLine_eq_none {text : String} : firstLine text = none ↔ text = "" := by
  rw [firstLine, Option.map_eq_none_iff, List.head?_eq_none_iff, splitlines_eq_nil,
    String.toList_eq_nil_iff]

theorem describable_iff (e : Raised) :
    Describable e ↔ e.isException = true ∧ ∃ error, errorDetails config e = .ok error := by
  obtain ⟨cls, text⟩ := e
  have htext : firstLine text = none ↔ text = "" := firstLine_eq_none
  rcases hline : firstLine text with _ | line
  · obtain rfl := htext.mp hline
    rcases cls with _ | _ | (_ | _) | _ | _ | _ | _ | _ | _ | _ | _ <;>
      simp [Describable, Raised.isException, errorDetails, hline]
  · have hne : text ≠ "" := fun h => by simp [htext.mpr h] at hline
    rcases cls with _ | _ | (_ | _) | _ | _ | _ | _ | _ | _ | _ | _ <;>
      simp [Describable, Raised.isException, errorDetails, hline, hne]

/-- No further attempt follows the one that a claim of the row starts. -/
def Exhausted (row : Outbox) : Prop :=
  row.maxAttempts ≤ row.attempts + 1 ∨
    retryDelaySeconds config row.message.kind (row.attempts + 1) = none

theorem nextDelay_claimed (row : Outbox) (now : ℕ) :
    nextDelay config (row.claimed now) = none ↔ Exhausted config row := by
  have hmax : max (row.attempts + 1) 1 = row.attempts + 1 := by omega
  simp only [nextDelay, Outbox.claimed, hmax, Exhausted]
  split <;> simp_all

/-- The row is not left in sending by the job: it is delivered, or dead, or failed with a retry
of this attempt just scheduled. -/
def Settled (w w' : World) (id : String) : Prop :=
  ∃ row, w'.rows.get id = some row ∧ (row.status = .delivered ∨ row.status = .dead ∨
    row.status = .failed ∧ ∃ delay,
      w'.queue = .retry id row.attempts delay row.nextAttemptAt :: w.queue)

theorem processOutboxDelivery_of_claimable {job : DeliveryJob} {w : World} {row : Outbox}
    (hrow : w.rows.get job.outboxId = some row) (hc : row.claimable job.claimedAt = true) :
    processOutboxDelivery config dedupeKey job w =
      attempt config dedupeKey job (row.claimed job.claimedAt)
        { w with
          rows := w.rows.update job.outboxId fun _ => row.claimed job.claimedAt
          tried := job.outboxId :: w.tried } := by
  rw [processOutboxDelivery, claimForSend_of_claimable hrow hc]

theorem enqueue_get {c : EnqueueCall} {w : World} {id : String} {row : Outbox}
    (h : w.rows.get id = some row) : (enqueue config c w).2.rows.get id = some row := by
  have heffect := enqueue_effect config c w
  generalize (enqueue config c w).1 = o at heffect
  generalize (enqueue config c w).2 = w' at heffect ⊢
  cases heffect with
  | blank e hkey => exact h
  | found id row hkey hslot => exact h
  | taken e hslot hid => exact h
  | queued rows hkey hslot hins hq => exact Table.get_insert_of_get hins h
  | dropped rows e hkey hslot hins hq => exact Table.get_insert_of_get hins h

theorem enqueueWebhookFailureEmail_get {job : DeliveryJob} {w : World} {id : String}
    {row : Outbox} (h : w.rows.get id = some row) :
    (enqueueWebhookFailureEmail config dedupeKey job w).rows.get id = some row := by
  unfold enqueueWebhookFailureEmail
  split
  next => exact h
  next =>
    split
    next => exact h
    next => exact enqueue_get config h

theorem recordFailure_settled_iff {job : DeliveryJob} {row : Outbox} {error : String × String}
    {w w₀ : World} (hrow : w.rows.get job.outboxId = some row) (hq : w.queue = w₀.queue) :
    Settled w₀ (recordFailure config dedupeKey job row error w).2 job.outboxId ↔
      nextDelay config row = none ∨ job.retryQueue = .ok () := by
  unfold recordFailure
  rcases hdelay : nextDelay config row with _ | delay
  · simp only [true_or, iff_true]
    have hget : (markFailed job.outboxId job.markedAt error none true w.rows).get job.outboxId =
        some (row.failed job.markedAt error none true) := by
      simp [markFailed, hrow]
    refine ⟨row.failed job.markedAt error none true, ?_, .inr (.inl rfl)⟩
    split
    · exact enqueueWebhookFailureEmail_get config dedupeKey hget
    · exact hget
  · have hget : (markFailed job.outboxId job.markedAt error (some (job.failedAt + delay)) false
        w.rows).get job.outboxId =
        some (row.failed job.markedAt error (some (job.failedAt + delay)) false) := by
      simp [markFailed, hrow]
    rcases hretry : job.retryQueue with e | ⟨⟩
    · simp only [reduceCtorEq, or_self, iff_false]
      rintro ⟨row', hrow', hstatus⟩
      obtain rfl := Option.some.inj (hget.symm.trans hrow')
      rcases hstatus with h | h | ⟨_, delay', hqueue⟩
      · cases h
      · cases h
      · -- without a retry the queue is as long as before
        have hlength := congrArg List.length (hq.symm.trans hqueue)
        simp at hlength
    · simp only [or_true, iff_true]
      exact ⟨_, hget, .inr (.inr ⟨rfl, delay, by simp [hq, Outbox.failed]⟩)⟩

/-- For every claimable row and every exception of its delivery: the job leaves the row
delivered, dead, or failed with its retry scheduled, exactly if the exception is describable
and the queue takes the retry where one is due. -/
theorem failed_delivery_settles_iff (job : DeliveryJob) (w : World) (row : Outbox) (e : Raised)
    (hrow : w.rows.get job.outboxId = some row) (hc : row.claimable job.claimedAt = true)
    (he : deliver row.message.kind job.delivery = .error e) :
    Settled w (processOutboxDelivery config dedupeKey job w).2 job.outboxId ↔
      Describable e ∧ (Exhausted config row ∨ job.retryQueue = .ok ()) := by
  rw [processOutboxDelivery_of_claimable config dedupeKey hrow hc, describable_iff config,
    ← nextDelay_claimed config row job.claimedAt]
  have hclaimed : (w.rows.update job.outboxId fun _ => row.claimed job.claimedAt).get
      job.outboxId = some (row.claimed job.claimedAt) := by
    simp [hrow]
  have hdeliver : deliver (row.claimed job.claimedAt).message.kind job.delivery = .error e := he
  have hsending : ∀ w' : World,
      w'.rows = (w.rows.update job.outboxId fun _ => row.claimed job.claimedAt) →
      ¬ Settled w w' job.outboxId := by
    rintro w' hw' ⟨row', hrow', hstatus⟩
    rw [hw', hclaimed] at hrow'
    obtain rfl := Option.some.inj hrow'
    rcases hstatus with h | h | ⟨h, _⟩ <;> cases h
  simp only [attempt, hdeliver]
  by_cases hex : e.isException = true
  · rcases hdetails : errorDetails config e with e' | error
    · simp only [hex, if_true, reduceCtorEq, exists_false, and_false, false_and, iff_false]
      exact hsending _ rfl
    · simp only [hex, if_true, Except.ok.injEq, exists_eq', and_self, true_and]
      exact recordFailure_settled_iff config dedupeKey hclaimed rfl
  · simp only [hex, if_false, false_and, iff_false, Bool.false_eq_true]
    exact hsending _ rfl

end Job

def sampleRow : Outbox :=
  newRow ⟨"p", .webhook, "protection.block", none, none, none, .json "\x7b\x7d", "k"⟩ 3 0

def sampleRows : Rows := ⟨[("a", sampleRow)], by decide⟩

/-- A delivery of the row that times out with a given text. -/
def timedOut (text : String) : DeliveryJob where
  outboxId := "a"
  claimedAt := 1
  failedAt := 2
  markedAt := 2
  delivery := .error ⟨.timeout, text⟩

theorem failed_delivery_settles_iff_sample :
    Settled ⟨sampleRows, [], [], []⟩
        (processOutboxDelivery {} (fun id _ => id) (timedOut "read timed out")
          ⟨sampleRows, [], [], []⟩).2 "a" ↔
      Describable ⟨.timeout, "read timed out"⟩ ∧
        (Exhausted {} sampleRow ∨ (timedOut "read timed out").retryQueue = .ok ()) :=
  failed_delivery_settles_iff {} (fun id _ => id) (timedOut "read timed out")
    ⟨sampleRows, [], [], []⟩ sampleRow ⟨.timeout, "read timed out"⟩ (by decide) (by decide) rfl

/-- A timeout without a text leaves the row in sending. -/
theorem empty_text_strands_row :
    ¬ Settled ⟨sampleRows, [], [], []⟩
        (processOutboxDelivery {} (fun id _ => id) (timedOut "") ⟨sampleRows, [], [], []⟩).2
        "a" := by
  rintro ⟨row, hrow, hstatus⟩
  have hsending : ((processOutboxDelivery {} (fun id _ => id) (timedOut "")
      ⟨sampleRows, [], [], []⟩).2.rows.get "a").map Outbox.status = some .sending := by
    decide
  rw [hrow, Option.map_some, Option.some.injEq] at hsending
  simp [hsending] at hstatus

end Rheonic.TransportJob
