import Rheonic.OutboxRuns
import Rheonic.EnqueueRuns
import Rheonic.Lib.Descent

namespace Rheonic.TransportJob
open RowTable TransportOutbox TransportService Descent

/-- The outbox and its workers: those that have selected the row of their job and not committed
the claim of it, with the time of the selection, and those that are sending a claimed row. -/
structure Fleet where
  world : World
  selected : List (String × Outbox × ℕ) := []
  sending : List (String × Outbox) := []

namespace Fleet

/-- A worker has taken a job off the queue and selects its row, if that is due. -/
def select (s : Fleet) (queue : List QueuedJob) (id : String) (now : ℕ) : Fleet :=
  match (s.world.rows.get id).filter fun row => row.claimable now with
  | none => { s with world := { s.world with queue := queue } }
  | some row =>
    { s with world := { s.world with queue := queue }, selected := (id, row, now) :: s.selected }

/-- A worker commits the claim, which it has computed from the row as it was selected. -/
def commit (s : Fleet) (selected : List (String × Outbox × ℕ)) (id : String) (row : Outbox)
    (now : ℕ) : Fleet where
  world := { s.world with
    rows := s.world.rows.update id fun _ => row.claimed now
    tried := id :: s.world.tried }
  selected := selected
  sending := (id, row.claimed now) :: s.sending

/-- A worker ends the attempt of a row it has claimed. -/
def finish (config : Config) (dedupeKey : String → FailureReport → String) (s : Fleet)
    (sending : List (String × Outbox)) (job : DeliveryJob) (row : Outbox) : Fleet :=
  { s with world := (attempt config dedupeKey job row s.world).2, sending := sending }

/-- The rows for which a job is queued or held by a worker. -/
def outstanding (s : Fleet) : List String :=
  s.world.queue.map QueuedJob.outboxId ++ s.selected.map Prod.fst ++ s.sending.map Prod.fst

/-- Nothing is queued and no worker holds a job. -/
def Idle (s : Fleet) : Prop := s.world.queue = [] ∧ s.selected = [] ∧ s.sending = []

end Fleet

/-- A first delivery is not run before its row was written, a retry not before its time. -/
def QueuedJob.Due (rows : Rows) (now : ℕ) : QueuedJob → Prop
  | .delivery id => ∀ row, rows.get id = some row → row.createdAt ≤ now
  | .retry _ _ _ nextAttemptAt => nextAttemptAt ≤ now

/-- The queue takes what the job enqueues, and the error path can describe its failure. -/
structure Sound (job : DeliveryJob) : Prop where
  describable : ∀ e, job.delivery = .error e → Describable e
  retryQueue : job.retryQueue = .ok ()
  emailQueue : callJobQueue job.emailQueue = .ok ()

section Fleet

variable (config : Config) (dedupeKey : String → FailureReport → String)

/-- A step of some worker. The queue hands a job to one worker only. -/
inductive Works (s : Fleet) : Fleet → Prop
  | select (before after : List QueuedJob) (q : QueuedJob) (now : ℕ)
      (hqueue : s.world.queue = before ++ q :: after) (hdue : QueuedJob.Due s.world.rows now q) :
      Works s (s.select (before ++ after) q.outboxId now)
  | commit (before after : List (String × Outbox × ℕ)) (id : String) (row : Outbox) (now : ℕ)
      (hselected : s.selected = before ++ (id, row, now) :: after) :
      Works s (s.commit (before ++ after) id row now)
  | finish (before after : List (String × Outbox)) (row : Outbox) (job : DeliveryJob)
      (hsending : s.sending = before ++ (job.outboxId, row) :: after) (hsound : Sound job) :
      Works s (s.finish config dedupeKey (before ++ after) job row)

/-- A step of a worker, or a message that the application enqueues. -/
inductive Serves (s : Fleet) : Fleet → Prop
  | enqueue (c : EnqueueCall) (hsource : c.source = none)
      (hqueue : callJobQueue c.replies = .ok ()) :
      Serves s { s with world := (enqueue config c s.world).2 }
  | works (s' : Fleet) (hworks : Works config dedupeKey s s') : Serves s s'

/-- What any number of workers and callers can bring about, from the empty outbox. -/
def Reachable (s : Fleet) : Prop :=
  Relation.ReflTransGen (Serves config dedupeKey) { world := ⟨Table.empty, [], [], []⟩ } s

theorem Fleet.select_of_claimable {s : Fleet} {queue : List QueuedJob} {id : String} {now : ℕ}
    {row : Outbox} (hrow : s.world.rows.get id = some row) (hc : row.claimable now = true) :
    s.select queue id now = { s with
      world := { s.world with queue := queue }, selected := (id, row, now) :: s.selected } := by
  rw [Fleet.select, hrow, Option.filter_some, if_pos hc]

theorem Fleet.select_of_not {s : Fleet} {queue : List QueuedJob} {id : String} {now : ℕ}
    (h : ¬ ∃ row, s.world.rows.get id = some row ∧ row.claimable now = true) :
    s.select queue id now = { s with world := { s.world with queue := queue } } := by
  have hnone : ((s.world.rows.get id).filter fun row => row.claimable now) = none := by
    by_contra hne
    obtain ⟨row, hrow⟩ := Option.ne_none_iff_exists'.mp hne
    exact h ⟨row, Option.filter_eq_some_iff.mp hrow⟩
  rw [Fleet.select, hnone]

theorem finish_commit_select (s : Fleet) (job : DeliveryJob) (row : Outbox)
    (hrow : s.world.rows.get job.outboxId = some row)
    (hc : row.claimable job.claimedAt = true) :
    (((s.select s.world.queue job.outboxId job.claimedAt).commit s.selected job.outboxId row
      job.claimedAt).finish config dedupeKey s.sending job (row.claimed job.claimedAt)).world =
      (processOutboxDelivery config dedupeKey job s.world).2 := by
  rw [processOutboxDelivery_of_claimable config dedupeKey hrow hc,
    Fleet.select_of_claimable hrow hc, Fleet.finish, Fleet.commit]

variable {config dedupeKey}

theorem mem_outstanding {s : Fleet} {id : String} : id ∈ s.outstanding ↔
    (∃ q ∈ s.world.queue, q.outboxId = id) ∨ (∃ e ∈ s.selected, e.1 = id) ∨
      ∃ e ∈ s.sending, e.1 = id := by
  simp only [Fleet.outstanding, List.mem_append, List.mem_map, or_assoc]

/-- The end of an attempt that is neither stranded nor refused by the queue. -/
inductive Finished (config : Config) (job : DeliveryJob) (row : Outbox) (w : World) : World → Prop
  | delivered :
      Finished config job row w { w with rows := markDelivered job.outboxId job.markedAt w.rows }
  | retried (error : String × String) (delay : ℕ) (hdelay : nextDelay config row = some delay) :
      Finished config job row w { w with
        rows := markFailed job.outboxId job.markedAt error (some (job.failedAt + delay)) false
          w.rows
        queue := .retry job.outboxId row.attempts delay (job.failedAt + delay) :: w.queue }
  | died (error : String × String) (hdelay : nextDelay config row = none) :
      Finished config job row w { w with
        rows := markFailed job.outboxId job.markedAt error none true w.rows }
  | reported (error : String × String) (c : EnqueueCall) (hdelay : nextDelay config row = none)
      (hwebhook : row.message.kind = .webhook) (hemail : c.message.kind = .email)
      (hqueue : callJobQueue c.replies = .ok ()) :
      Finished config job row w (enqueue config c { w with
        rows := markFailed job.outboxId job.markedAt error none true w.rows }).2

theorem recordFailure_finished {job : DeliveryJob} (row : Outbox) (error : String × String)
    (w : World) (hsound : Sound job) :
    Finished config job row w
      (recordFailure config dedupeKey job row error w).2 := by
  unfold recordFailure
  rcases hdelay : nextDelay config row with _ | delay
  · by_cases hkind : row.message.kind = .webhook
    · simp only [hkind, if_true]
      unfold enqueueWebhookFailureEmail
      split
      next => exact .died error hdelay
      next =>
        split
        next => exact .died error hdelay
        next => exact .reported error _ hdelay hkind rfl hsound.emailQueue
    · simp only [hkind, if_false]
      exact .died error hdelay
  · simp only [hsound.retryQueue]
    exact .retried error delay hdelay

theorem deliver_describable {job : DeliveryJob} {kind : Kind} {e : Raised} (hsound : Sound job)
    (he : deliver kind job.delivery = .error e) : Describable e := by
  unfold deliver at he
  split at he
  next name =>
    rw [← Except.error.inj he]
    simp [Describable]
  next => exact hsound.describable e he

theorem attempt_finished {job : DeliveryJob} (row : Outbox) (w : World) (hsound : Sound job) :
    Finished config job row w (attempt config dedupeKey job row w).2 := by
  unfold attempt
  split
  next => exact .delivered
  next e he =>
    have hdescribed := (describable_iff config e).mp (deliver_describable hsound he)
    obtain ⟨hexception, error, herror⟩ := hdescribed
    simp only [hexception, if_true, herror]
    exact recordFailure_finished row error w hsound

/-- What is owed to a row: a job or a worker that has selected it while it is open, a worker while
it is sending. -/
structure Covered (config : Config) (s : Fleet) (id : String) (row : Outbox) : Prop where
  counted : row.attempts = s.world.tried.count id
  bounded : row.attempts ≤ row.maxAttempts
  pending : row.status = .pending → row.attempts < row.maxAttempts ∧
    row.nextAttemptAt = row.createdAt ∧
    (QueuedJob.delivery id ∈ s.world.queue ∨ ∃ now, (id, row, now) ∈ s.selected)
  failed : row.status = .failed → row.attempts < row.maxAttempts ∧
    ((∃ attempt delay, QueuedJob.retry id attempt delay row.nextAttemptAt ∈ s.world.queue) ∨
      ∃ now, (id, row, now) ∈ s.selected)
  sending : row.status = .sending → (id, row) ∈ s.sending
  dead : row.status = .dead → nextDelay config row = none

/-- No row has two jobs, and what the workers know of their rows is true. -/
structure Tended (config : Config) (s : Fleet) : Prop where
  rows : ∀ id row, s.world.rows.get id = some row → Covered config s id row
  untried : ∀ id, s.world.rows.get id = none → s.world.tried.count id = 0
  apart : s.outstanding.Nodup
  present : ∀ id ∈ s.outstanding, ∃ row, s.world.rows.get id = some row
  selected : ∀ id row now, (id, row, now) ∈ s.selected →
    s.world.rows.get id = some row ∧ row.claimable now = true
  sending : ∀ id row, (id, row) ∈ s.sending →
    s.world.rows.get id = some row ∧ row.status = .sending

theorem Covered.open_lt {s : Fleet} {id : String} {row : Outbox} {now : ℕ}
    (h : Covered config s id row) (hc : row.claimable now = true) :
    row.attempts < row.maxAttempts := by
  simp only [Outbox.claimable, Bool.decide_and, Bool.and_eq_true, decide_eq_true_eq] at hc
  rcases hc.1 with hp | hf
  · exact (h.pending hp).1
  · exact (h.failed hf).1

/-- A step at one row leaves the jobs and the workers of the others. -/
structure Apart (id : String) (s s' : Fleet) : Prop where
  tried : ∀ id', id' ≠ id → s'.world.tried.count id' = s.world.tried.count id'
  queue : ∀ q, q.outboxId ≠ id → (q ∈ s'.world.queue ↔ q ∈ s.world.queue)
  selected : ∀ e, e.1 ≠ id → (e ∈ s'.selected ↔ e ∈ s.selected)
  sending : ∀ e, e.1 ≠ id → (e ∈ s'.sending ↔ e ∈ s.sending)

theorem Covered.of_apart {s s' : Fleet} {id id' : String} {row : Outbox}
    (h : Covered config s id' row) (hapart : Apart id s s') (hid : id' ≠ id) : Covered config s' id' row where
  counted := by rw [hapart.tried id' hid, h.counted]
  bounded := h.bounded
  pending := fun hp => by
    have hcover := h.pending hp
    refine ⟨hcover.1, hcover.2.1, hcover.2.2.imp (hapart.queue (.delivery id') hid).mpr ?_⟩
    exact Exists.imp fun now => (hapart.selected _ hid).mpr
  failed := fun hf => by
    have hcover := h.failed hf
    refine ⟨hcover.1, hcover.2.imp ?_ ?_⟩
    · exact Exists.imp fun attempt => Exists.imp fun delay =>
        (hapart.queue (.retry id' attempt delay row.nextAttemptAt) hid).mpr
    · exact Exists.imp fun now => (hapart.selected _ hid).mpr
  sending := fun hs => (hapart.sending _ hid).mpr (h.sending hs)
  dead := h.dead

theorem Tended.step {s s' : Fleet} {id : String} {row : Outbox} (h : Tended config s)
    (hapart : Apart id s s') (hrows : Sets s.world.rows s'.world.rows id row)
    (houtstanding : s'.outstanding.Nodup) (hcovered : Covered config s' id row)
    (hselected : ∀ row' now, (id, row', now) ∈ s'.selected →
      row' = row ∧ row.claimable now = true)
    (hsending : ∀ row', (id, row') ∈ s'.sending → row' = row ∧ row.status = .sending) :
    Tended config s' := by
  have hget : s'.world.rows.get id = some row := by rw [hrows, if_pos rfl]
  have hother : ∀ id', id' ≠ id → s'.world.rows.get id' = s.world.rows.get id' := by
    intro id' hid
    rw [hrows, if_neg hid]
  refine ⟨fun id' row' hrow' => ?_, fun id' hnone => ?_, houtstanding, fun id' hin => ?_,
    fun id' row' now hin => ?_, fun id' row' hin => ?_⟩
  -- the row of the step is as given, and every other one has kept what it had
  · by_cases hid : id' = id
    · subst hid
      obtain rfl := Option.some.inj (hget.symm.trans hrow')
      exact hcovered
    · rw [hother id' hid] at hrow'
      exact (h.rows id' row' hrow').of_apart hapart hid
  · by_cases hid : id' = id
    · simp [hid, hget] at hnone
    · rw [hother id' hid] at hnone
      rw [hapart.tried id' hid]
      exact h.untried id' hnone
  · by_cases hid : id' = id
    · exact ⟨row, hid ▸ hget⟩
    · rw [hother id' hid]
      apply h.present id'
      rw [mem_outstanding] at hin ⊢
      rcases hin with ⟨q, hq, rfl⟩ | ⟨e, he, rfl⟩ | ⟨e, he, rfl⟩
      · exact .inl ⟨q, (hapart.queue q hid).mp hq, rfl⟩
      · exact .inr (.inl ⟨e, (hapart.selected e hid).mp he, rfl⟩)
      · exact .inr (.inr ⟨e, (hapart.sending e hid).mp he, rfl⟩)
  · by_cases hid : id' = id
    · subst hid
      have hknown := hselected row' now hin
      rw [hknown.1]
      exact ⟨hget, hknown.2⟩
    · rw [hother id' hid]
      exact h.selected id' row' now ((hapart.selected _ hid).mp hin)
  · by_cases hid : id' = id
    · subst hid
      have hknown := hsending row' hin
      rw [hknown.1]
      exact ⟨hget, hknown.2⟩
    · rw [hother id' hid]
      exact h.sending id' row' ((hapart.sending _ hid).mp hin)

theorem mem_middle_of_ne {α β : Type} {f : α → β} {before after : List α} {a : α} {e : α}
    (hne : f e ≠ f a) : e ∈ before ++ after ↔ e ∈ before ++ a :: after := by
  have hea : e ≠ a := fun h => hne (congrArg f h)
  simp only [List.mem_append, List.mem_cons, hea, false_or]

theorem sets_self {t : Rows} {id : String} {row : Outbox} (h : t.get id = some row) :
    Sets t t id row := by
  intro id'
  by_cases hid : id' = id
  · rw [if_pos hid, hid, h]
  · rw [if_neg hid]

theorem not_mem_rest {α β : Type} {f : α → β} {l before after : List α} {a : α}
    (h : (l.map f).Nodup) (hl : l = before ++ a :: after) : ∀ e ∈ before ++ after, f e ≠ f a := by
  rw [hl, List.map_append, List.map_cons, List.nodup_middle, List.nodup_cons,
    ← List.map_append] at h
  intro e he heq
  exact h.1 (List.mem_map.mpr ⟨e, he, heq⟩)

theorem Tended.not_selected {s : Fleet} {id : String} {row row' : Outbox} {now : ℕ}
    (h : Tended config s) (hsending : (id, row) ∈ s.sending) :
    (id, row', now) ∉ s.selected := by
  intro hselected
  have hclaimed := h.sending id row hsending
  have hopen := h.selected id row' now hselected
  obtain rfl := Option.some.inj (hclaimed.1.symm.trans hopen.1)
  simp [Outbox.claimable, hclaimed.2] at hopen

theorem Covered.not_due {s : Fleet} {id : String} {row : Outbox} {q : QueuedJob} {now : ℕ}
    {before after : List QueuedJob} (h : Covered config s id row)
    (hrow : s.world.rows.get id = some row) (hqueue : s.world.queue = before ++ q :: after)
    (hdue : QueuedJob.Due s.world.rows now q) (hnot : row.claimable now = false) :
    Covered config { s with world := { s.world with queue := before ++ after } } id row := by
  have hmem : ∀ q' ∈ s.world.queue, q' ≠ q → q' ∈ before ++ after := by
    intro q' hq' hne
    rw [hqueue] at hq'
    exact (mem_middle_of_ne (f := fun q => q) hne).mpr hq'
  refine ⟨h.counted, h.bounded, fun hp => ?_, fun hf => ?_, h.sending, h.dead⟩
  · obtain ⟨hlt, hat, hjob⟩ := h.pending hp
    refine ⟨hlt, hat, hjob.imp_left fun hjob => hmem _ hjob ?_⟩
    rintro rfl
    have hcreated := hdue row hrow
    simp [Outbox.claimable, hp] at hnot
    omega
  · obtain ⟨hlt, hjob⟩ := h.failed hf
    refine ⟨hlt, hjob.imp_left fun hjob => ?_⟩
    obtain ⟨attempt, delay, hjob⟩ := hjob
    refine ⟨attempt, delay, hmem _ hjob ?_⟩
    rintro rfl
    have hnext : row.nextAttemptAt ≤ now := hdue
    simp [Outbox.claimable, hf] at hnot
    omega

theorem select_tended {s : Fleet} {before after : List QueuedJob} {q : QueuedJob} {now : ℕ}
    (h : Tended config s) (hqueue : s.world.queue = before ++ q :: after)
    (hdue : QueuedJob.Due s.world.rows now q) :
    Tended config (s.select (before ++ after) q.outboxId now) := by
  have hin : q.outboxId ∈ s.outstanding :=
    mem_outstanding.mpr (.inl ⟨q, by simp [hqueue], rfl⟩)
  obtain ⟨row, hrow⟩ := h.present _ hin
  have hold := h.rows _ _ hrow
  have hjobs : ∀ q', q'.outboxId ≠ q.outboxId → (q' ∈ before ++ after ↔ q' ∈ s.world.queue) := by
    intro q' hne
    rw [hqueue]
    exact mem_middle_of_ne hne
  -- whoever has selected or claimed the row has seen it as it is
  have hknown : ∀ row' now', (q.outboxId, row', now') ∈ s.selected →
      row' = row ∧ row.claimable now' = true := by
    intro row' now' hin
    have hopen := h.selected _ _ _ hin
    obtain rfl := Option.some.inj (hrow.symm.trans hopen.1)
    exact ⟨rfl, hopen.2⟩
  have hclaims : ∀ row', (q.outboxId, row') ∈ s.sending → row' = row ∧ row.status = .sending := by
    intro row' hin
    have hclaimed := h.sending _ _ hin
    obtain rfl := Option.some.inj (hrow.symm.trans hclaimed.1)
    exact ⟨rfl, hclaimed.2⟩
  by_cases hc : row.claimable now = true
  -- the job is taken from the queue by the worker that has selected the row
  · rw [Fleet.select_of_claimable hrow hc]
    refine h.step ⟨fun _ _ => rfl, hjobs, fun e he => ?_, fun _ _ => Iff.rfl⟩ (sets_self hrow) ?_
      ⟨hold.counted, hold.bounded, fun hp => ?_, fun hf => ?_, hold.sending, hold.dead⟩
      (fun row' now' hin => ?_) hclaims
    · have hne : e ≠ (q.outboxId, row, now) := fun heq => he (congrArg Prod.fst heq)
      exact List.mem_cons.trans (or_iff_right hne)
    · refine (List.Perm.nodup_iff ?_).mpr h.apart
      simp only [Fleet.outstanding, hqueue, List.map_append, List.map_cons, List.append_assoc,
        List.cons_append]
      exact List.perm_middle.append_left _
    · have hcover := hold.pending hp
      exact ⟨hcover.1, hcover.2.1, .inr ⟨now, List.mem_cons_self⟩⟩
    · exact ⟨(hold.failed hf).1, .inr ⟨now, List.mem_cons_self⟩⟩
    · rcases List.mem_cons.mp hin with heq | hin
      · obtain ⟨rfl, rfl⟩ : row' = row ∧ now' = now := by simpa using heq
        exact ⟨rfl, hc⟩
      · exact hknown row' now' hin
  -- the row is not due, and has another job that will find it so
  · have hnot : ¬ ∃ row, s.world.rows.get q.outboxId = some row ∧ row.claimable now = true := by
      rintro ⟨row', hrow', hc'⟩
      obtain rfl := Option.some.inj (hrow.symm.trans hrow')
      exact hc hc'
    rw [Fleet.select_of_not hnot]
    refine h.step ⟨fun _ _ => rfl, hjobs, fun _ _ => Iff.rfl, fun _ _ => Iff.rfl⟩ (sets_self hrow)
      ?_ (hold.not_due hrow hqueue hdue (Bool.eq_false_iff.mpr hc)) hknown hclaims
    refine List.Nodup.sublist ?_ h.apart
    simp only [Fleet.outstanding, hqueue, List.map_append, List.map_cons, List.append_assoc,
      List.cons_append]
    exact (List.sublist_cons_self _ _).append_left _

theorem commit_tended {s : Fleet} {before after : List (String × Outbox × ℕ)} {id : String}
    {row : Outbox} {now : ℕ} (h : Tended config s)
    (hselected : s.selected = before ++ (id, row, now) :: after) :
    Tended config (s.commit (before ++ after) id row now) := by
  obtain ⟨hrow, hc⟩ := h.selected id row now (by simp [hselected])
  have hold := h.rows id row hrow
  have honce : ∀ e ∈ before ++ after, e.1 ≠ id := by
    have hnodup := h.apart
    rw [Fleet.outstanding, List.append_assoc, List.nodup_append, List.nodup_append] at hnodup
    exact not_mem_rest hnodup.2.1.1 hselected
  have hcovered : Covered config (s.commit (before ++ after) id row now) id (row.claimed now) := by
    refine ⟨?_, hold.open_lt hc, (by rintro ⟨⟩), (by rintro ⟨⟩), fun _ => List.mem_cons_self,
      (by rintro ⟨⟩)⟩
    show row.attempts + 1 = List.count id (id :: s.world.tried)
    rw [List.count_cons_self, hold.counted]
  refine h.step ⟨fun id' hid => ?_, fun _ _ => Iff.rfl, fun e he => ?_, fun e he => ?_⟩
    (fun id' => ?_) ?_ hcovered (fun row' now' hin => ?_) (fun row' hin => ?_)
  · exact List.count_cons_of_ne fun heq => hid heq.symm
  · rw [hselected]
    exact mem_middle_of_ne he
  · have hne : e ≠ (id, row.claimed now) := fun heq => he (congrArg Prod.fst heq)
    simp only [Fleet.commit, List.mem_cons, hne, false_or]
  · by_cases hid : id' = id
    · simp [Fleet.commit, hid, hrow]
    · simp [Fleet.commit, hid]
  · refine (List.Perm.nodup_iff ?_).mpr h.apart
    simp only [Fleet.outstanding, Fleet.commit, hselected, List.map_append, List.map_cons,
      List.append_assoc, List.cons_append]
    exact (List.perm_middle.append_left _).append_left _
  · exact absurd rfl (honce _ hin)
  · rcases List.mem_cons.mp hin with heq | hin
    · obtain rfl : row' = row.claimed now := by simpa using heq
      exact ⟨rfl, rfl⟩
    · exact absurd (show (id, row, now) ∈ s.selected by simp [hselected]) (h.not_selected hin)

theorem enqueue_tended {s : Fleet} {c : EnqueueCall} (h : Tended config s)
    (hqueue : callJobQueue c.replies = .ok ()) :
    Tended config { s with world := (enqueue config c s.world).2 } := by
  have heffect := enqueue_effect config c s.world
  generalize (enqueue config c s.world).1 = o at heffect
  generalize (enqueue config c s.world).2 = w' at heffect ⊢
  cases heffect with
  | blank e hkey => exact h
  | found id row hkey hslot => exact h
  | taken e hslot hid => exact h
  | dropped rows e hkey hslot hins hq => simp [hqueue] at hq
  | queued rows hkey hslot hins hq =>
    have hfresh := Table.get_eq_none_of_insert hins
    have hmax := one_le_maxAttempts config c.message.kind
    refine h.step ⟨fun _ _ => rfl, fun q hq => ?_, fun _ _ => Iff.rfl, fun _ _ => Iff.rfl⟩
      (Table.get_insert hins) (List.nodup_cons.mpr ⟨fun hin => ?_, h.apart⟩)
      ⟨(h.untried _ hfresh).symm, Nat.zero_le _,
        fun _ => ⟨hmax, rfl, .inl List.mem_cons_self⟩, (by rintro ⟨⟩), (by rintro ⟨⟩),
        (by rintro ⟨⟩)⟩ (fun row' now hin => ?_) (fun row' hin => ?_)
    · have hne : q ≠ .delivery c.newId := by
        rintro rfl
        exact hq rfl
      exact List.mem_cons.trans (or_iff_right hne)
    · obtain ⟨row, hrow⟩ := h.present c.newId hin
      simp [hfresh] at hrow
    · have hopen := h.selected _ _ _ hin
      simp [hfresh] at hopen
    · have hclaimed := h.sending _ _ hin
      simp [hfresh] at hclaimed

theorem Tended.release {s : Fleet} {id : String} {row row' : Outbox} {rows : Rows}
    {before after : List (String × Outbox)} (h : Tended config s)
    (hsending : s.sending = before ++ (id, row) :: after) (hrows : Sets s.world.rows rows id row')
    (hattempts : row'.attempts = row.attempts) (hmax : row'.maxAttempts = row.maxAttempts)
    (hended : row'.status = .delivered ∨ row'.status = .dead ∧ nextDelay config row' = none) :
    Tended config { s with world := { s.world with rows := rows }, sending := before ++ after } := by
  have hin : (id, row) ∈ s.sending := by simp [hsending]
  have hold := h.rows id row (h.sending id row hin).1
  have honce : ∀ e ∈ before ++ after, e.1 ≠ id := by
    have hnodup := h.apart
    rw [Fleet.outstanding, List.nodup_append] at hnodup
    exact not_mem_rest hnodup.2.1 hsending
  refine h.step ⟨fun _ _ => rfl, fun _ _ => Iff.rfl, fun _ _ => Iff.rfl, fun e he => ?_⟩ hrows ?_
    ⟨?_, ?_, fun hp => ?_, fun hf => ?_, fun hs => ?_, fun hd => ?_⟩
    (fun row' now hin' => absurd hin' (h.not_selected hin)) fun row' hin' => ?_
  · rw [hsending]
    exact mem_middle_of_ne he
  · refine List.Nodup.sublist ?_ h.apart
    simp only [Fleet.outstanding, hsending, List.map_append, List.map_cons]
    exact ((List.sublist_cons_self _ _).append_left _).append_left _
  · rw [hattempts, hold.counted]
  · rw [hattempts, hmax]
    exact hold.bounded
  · rcases hended with hended | ⟨hended, _⟩ <;> simp [hended] at hp
  · rcases hended with hended | ⟨hended, _⟩ <;> simp [hended] at hf
  · rcases hended with hended | ⟨hended, _⟩ <;> simp [hended] at hs
  · rcases hended with hended | ⟨_, hnone⟩
    · simp [hended] at hd
    · exact hnone
  · exact absurd rfl (honce _ hin')

theorem finish_tended {s : Fleet} {before after : List (String × Outbox)} {row : Outbox}
    {job : DeliveryJob} {w : World} (h : Tended config s)
    (hsending : s.sending = before ++ (job.outboxId, row) :: after)
    (hfinished : Finished config job row s.world w) :
    Tended config { s with world := w, sending := before ++ after } := by
  have hin : (job.outboxId, row) ∈ s.sending := by simp [hsending]
  have hrow := (h.sending _ _ hin).1
  have hold := h.rows _ _ hrow
  have hsets : ∀ f : Outbox → Outbox,
      Sets s.world.rows (s.world.rows.update job.outboxId f) job.outboxId (f row) := by
    intro f id
    by_cases hid : id = job.outboxId <;> simp [hid, hrow]
  cases hfinished with
  -- the row is at its end
  | delivered => exact h.release hsending (hsets _) rfl rfl (.inl rfl)
  | died error hdelay => exact h.release hsending (hsets _) rfl rfl (.inr ⟨rfl, hdelay⟩)
  | reported error c hdelay hwebhook hemail hqueue =>
    exact enqueue_tended (h.release hsending (hsets _) rfl rfl (.inr ⟨rfl, hdelay⟩)) hqueue
  -- the row waits for the job that has just been queued
  | retried error delay hdelay =>
    -- one delivery of a row at a time
    have honce : ∀ e ∈ before ++ after, e.1 ≠ job.outboxId := by
      have hnodup := h.apart
      rw [Fleet.outstanding, List.nodup_append] at hnodup
      exact not_mem_rest hnodup.2.1 hsending
    have hlt : row.attempts < row.maxAttempts := by
      unfold nextDelay at hdelay
      split at hdelay
      · simp at hdelay
      · omega
    refine h.step ⟨fun _ _ => rfl, fun q hq => ?_, fun _ _ => Iff.rfl, fun e he => ?_⟩ (hsets _) ?_
      ⟨hold.counted, hold.bounded, (by rintro ⟨⟩),
        fun _ => ⟨hlt, .inl ⟨row.attempts, delay, List.mem_cons_self⟩⟩, (by rintro ⟨⟩),
        (by rintro ⟨⟩)⟩
      (fun row' now hin' => absurd hin' (h.not_selected hin)) fun row' hin' => ?_
    · have hne : q ≠ .retry job.outboxId row.attempts delay (job.failedAt + delay) := by
        rintro rfl
        exact hq rfl
      exact List.mem_cons.trans (or_iff_right hne)
    · rw [hsending]
      exact mem_middle_of_ne he
    · refine (List.Perm.nodup_iff ?_).mpr h.apart
      simp only [Fleet.outstanding, hsending, List.map_append, List.map_cons, List.cons_append,
        ← List.append_assoc]
      exact List.perm_middle.symm
    · exact absurd rfl (honce _ hin')

theorem reachable_tended {s : Fleet} (hs : Reachable config dedupeKey s) : Tended config s := by
  induction hs with
  | refl => exact ⟨by simp, by simp, List.nodup_nil, by simp [Fleet.outstanding], by simp, by simp⟩
  | tail _ hstep ih =>
    cases hstep with
    | enqueue c hsource hqueue => exact enqueue_tended ih hqueue
    | works s' hworks =>
      cases hworks with
      | select before after q now hqueue hdue => exact select_tended ih hqueue hdue
      | commit before after id row now hselected => exact commit_tended ih hselected
      | finish before after row job hsending hsound =>
        exact finish_tended ih hsending (attempt_finished row _ hsound)

/-- The work that a row can still cause, the job or the worker it has left out: three steps for
each attempt, and for a webhook those of its failure mail. -/
def credit (config : Config) (row : Outbox) : ℕ :=
  if row.status = .delivered ∨ row.status = .dead then 0
  else 3 * (row.maxAttempts - row.attempts) + (if row.status = .sending then 3 else 0) +
    (if row.message.kind = .webhook then 3 * maxAttempts config .email + 3 else 0)

/-- An upper bound for the steps that workers can take without a new message. -/
def Fleet.work (config : Config) (s : Fleet) : ℕ :=
  3 * s.world.queue.length + 2 * s.selected.length + s.sending.length +
    s.world.rows.total fun _ row => credit config row

variable (config) in
theorem credit_claimed {row : Outbox} {now : ℕ} (hc : row.claimable now = true)
    (hlt : row.attempts < row.maxAttempts) :
    credit config (row.claimed now) = credit config row := by
  simp only [Outbox.claimable, Bool.decide_and, Bool.and_eq_true, decide_eq_true_eq] at hc
  have hmax : 3 * (row.maxAttempts - (row.attempts + 1)) + 3 =
      3 * (row.maxAttempts - row.attempts) := by omega
  rcases hc.1 with hp | hf
  · simp [credit, Outbox.claimed, hp, hmax]
    rfl
  · simp [credit, Outbox.claimed, hf, hmax]
    rfl

theorem credit_delivered (row : Outbox) (now : ℕ) : credit config (row.delivered now) = 0 := rfl

theorem credit_dead (row : Outbox) (now : ℕ) (error : String × String) :
    credit config (row.failed now error none true) = 0 := rfl

variable (config) in
theorem credit_retried {row : Outbox} (hstatus : row.status = .sending) (now : ℕ)
    (error : String × String) (nextAttemptAt : ℕ) :
    credit config (row.failed now error (some nextAttemptAt) false) + 3 = credit config row := by
  simp [credit, Outbox.failed, hstatus]
  omega

variable (config) in
theorem credit_sending {row : Outbox} (hstatus : row.status = .sending) :
    3 + (if row.message.kind = .webhook then 3 * maxAttempts config .email + 3 else 0) ≤
      credit config row := by
  simp only [credit, hstatus]
  simp only [reduceCtorEq, or_self, if_false, if_true]
  omega

theorem enqueue_work_le {s : Fleet} {c : EnqueueCall} (hemail : c.message.kind = .email) :
    Fleet.work config { s with world := (enqueue config c s.world).2 } ≤
      s.work config + 3 * maxAttempts config .email + 3 := by
  have heffect := enqueue_effect config c s.world
  generalize (enqueue config c s.world).1 = o at heffect
  generalize (enqueue config c s.world).2 = w' at heffect ⊢
  have hnew : credit config (c.row config) = 3 * maxAttempts config .email := by
    simp [credit, EnqueueCall.row, newRow, EnqueueCall.stored, hemail]
  cases heffect with
  | blank e hkey => show s.work config ≤ _; omega
  | found id row hkey hslot => show s.work config ≤ _; omega
  | taken e hslot hid => show s.work config ≤ _; omega
  | queued rows hkey hslot hins hq =>
    have htotal := Table.total_insert hins fun _ row => credit config row
    simp only [Fleet.work, List.length_cons]
    omega
  | dropped rows e hkey hslot hins hq =>
    have htotal := Table.total_insert hins fun _ row => credit config row
    simp only [Fleet.work]
    omega

theorem select_work {s : Fleet} {before after : List QueuedJob} {q : QueuedJob} {now : ℕ}
    (hqueue : s.world.queue = before ++ q :: after) :
    (s.select (before ++ after) q.outboxId now).work config < s.work config := by
  have hlength : s.world.queue.length = (before ++ after).length + 1 := by
    rw [hqueue, List.length_append, List.length_append, List.length_cons]
    omega
  by_cases hclaim : ∃ row, s.world.rows.get q.outboxId = some row ∧ row.claimable now = true
  · obtain ⟨row, hrow, hc⟩ := hclaim
    rw [Fleet.select_of_claimable hrow hc]
    simp only [Fleet.work, List.length_cons]
    omega
  · rw [Fleet.select_of_not hclaim]
    simp only [Fleet.work]
    omega

theorem commit_work {s : Fleet} {before after : List (String × Outbox × ℕ)} {id : String}
    {row : Outbox} {now : ℕ} (h : Tended config s)
    (hselected : s.selected = before ++ (id, row, now) :: after) :
    (s.commit (before ++ after) id row now).work config < s.work config := by
  have hlength : s.selected.length = (before ++ after).length + 1 := by
    rw [hselected, List.length_append, List.length_append, List.length_cons]
    omega
  obtain ⟨hrow, hc⟩ := h.selected id row now (by simp [hselected])
  have hcredit := credit_claimed config hc ((h.rows _ _ hrow).open_lt hc)
  have htotal := Table.total_update (n := 0) (f := fun _ => row.claimed now)
    (g := fun _ row => credit config row) hrow hcredit
  simp only [Fleet.work, Fleet.commit, List.length_cons, htotal]
  omega

theorem finish_work {s : Fleet} {before after : List (String × Outbox)} {row : Outbox}
    {job : DeliveryJob} {w : World} (h : Tended config s)
    (hsending : s.sending = before ++ (job.outboxId, row) :: after)
    (hfinished : Finished config job row s.world w) :
    Fleet.work config { s with world := w, sending := before ++ after } < s.work config := by
  have hlength : s.sending.length = (before ++ after).length + 1 := by
    rw [hsending, List.length_append, List.length_append, List.length_cons]
    omega
  have hclaimed := h.sending job.outboxId row (by simp [hsending])
  have htotal := fun f => Table.total_update_add (f := f)
    (g := fun _ row => credit config row) hclaimed.1
  have hreserve := credit_sending config hclaimed.2
  cases hfinished with
  | delivered =>
    have hsum := htotal fun row => row.delivered job.markedAt
    rw [credit_delivered] at hsum
    simp only [Fleet.work, markDelivered]
    omega
  | retried error delay hdelay =>
    have hsum := htotal fun row =>
      row.failed job.markedAt error (some (job.failedAt + delay)) false
    have hcredit := credit_retried config hclaimed.2 job.markedAt error
      (job.failedAt + delay)
    simp only [Fleet.work, markFailed, List.length_cons]
    omega
  | died error hdelay =>
    have hsum := htotal fun row => row.failed job.markedAt error none true
    rw [credit_dead] at hsum
    simp only [Fleet.work, markFailed]
    omega
  | reported error c hdelay hwebhook hemail hqueue =>
    have hsum := htotal fun row => row.failed job.markedAt error none true
    rw [credit_dead] at hsum
    rw [if_pos hwebhook] at hreserve
    refine lt_of_le_of_lt (enqueue_work_le
      (s := { s with world := { s.world with rows := _ }, sending := before ++ after }) hemail) ?_
    simp only [Fleet.work, markFailed]
    omega

theorem works_descends : Descends (Works config dedupeKey) (Tended config) (Fleet.work config) where
  keeps := fun s s' h hworks => by
    cases hworks with
    | select before after q now hqueue hdue => exact select_tended h hqueue hdue
    | commit before after id row now hselected => exact commit_tended h hselected
    | finish before after row job hsending hsound =>
      exact finish_tended h hsending (attempt_finished row _ hsound)
  lowers := fun s s' h hworks => by
    cases hworks with
    | select before after q now hqueue hdue => exact select_work hqueue
    | commit before after id row now hselected => exact commit_work h hselected
    | finish before after row job hsending hsound =>
      exact finish_work h hsending (attempt_finished row _ hsound)

theorem exists_works {s : Fleet} (hidle : ¬ s.Idle) : ∃ s', Works config dedupeKey s s' := by
  cases hsending : s.sending with
  | cons e sending =>
    let job : DeliveryJob := ⟨e.1, 0, 0, 0, .ok (), .ok (), none, "", {}⟩
    have hsound : Sound job := ⟨by simp [job], rfl, rfl⟩
    exact ⟨_, .finish [] sending e.2 job hsending hsound⟩
  | nil =>
    cases hselected : s.selected with
    | cons e selected => exact ⟨_, .commit [] selected e.1 e.2.1 e.2.2 hselected⟩
    | nil =>
      cases hqueue : s.world.queue with
      | nil => exact absurd ⟨hqueue, hselected, hsending⟩ hidle
      | cons q queue =>
        have hdue : ∃ now, QueuedJob.Due s.world.rows now q := by
          cases q with
          | delivery id =>
            refine ⟨((s.world.rows.get id).map Outbox.createdAt).getD 0, fun row hrow => ?_⟩
            simp [hrow]
          | retry id attempt delay nextAttemptAt => exact ⟨nextAttemptAt, le_rfl⟩
        obtain ⟨now, hdue⟩ := hdue
        exact ⟨_, .select [] queue q now hqueue hdue⟩

/-- Any number of workers and callers, their steps in any order. No row is held by two workers,
though a claim is two statements, and none is sent more often than its bound. The workers alone
come to rest, after no more steps than there is work; and at rest every row is delivered, or
dead with no attempt due. -/
theorem workers_drain (config : Config) (dedupeKey : String → FailureReport → String) (s : Fleet)
    (hs : Reachable config dedupeKey s) :
    (s.selected.map Prod.fst ++ s.sending.map Prod.fst).Nodup ∧
    (∀ id row, s.world.rows.get id = some row → s.world.tried.count id ≤ row.maxAttempts) ∧
    (∀ n s', Steps (Works config dedupeKey) n s s' → n ≤ s.work config) ∧
    (∃ n s', Steps (Works config dedupeKey) n s s' ∧ s'.Idle) ∧
    (s.Idle → ∀ id row, s.world.rows.get id = some row →
      row.status = .delivered ∨ row.status = .dead ∧ nextDelay config row = none) := by
  have h := reachable_tended hs
  refine ⟨?_, fun id row hrow => ?_, fun n s' hsteps => ?_, ?_, fun hidle id row hrow => ?_⟩
  · have hnodup := h.apart
    rw [Fleet.outstanding, List.append_assoc] at hnodup
    exact hnodup.of_append_right
  · have hrow := h.rows id row hrow
    rw [← hrow.counted]
    exact hrow.bounded
  · exact works_descends.steps_le h hsteps
  · exact works_descends.exists_done (fun s _ hidle => exists_works hidle) h
  · have hcover := h.rows id row hrow
    have hqueue : ∀ q, q ∉ s.world.queue := by simp [hidle.1]
    have hselected : ∀ e, e ∉ s.selected := by simp [hidle.2.1]
    cases hstatus : row.status with
    | pending =>
      rcases (hcover.pending hstatus).2.2 with hmem | ⟨now, hmem⟩
      · exact absurd hmem (hqueue _)
      · exact absurd hmem (hselected _)
    | failed =>
      rcases (hcover.failed hstatus).2 with ⟨attempt, delay, hmem⟩ | ⟨now, hmem⟩
      · exact absurd hmem (hqueue _)
      · exact absurd hmem (hselected _)
    | sending =>
      have hmem := hcover.sending hstatus
      rw [hidle.2.2] at hmem
      exact absurd hmem List.not_mem_nil
    | delivered => exact .inl rfl
    | dead => exact .inr ⟨rfl, hcover.dead hstatus⟩

end Fleet

/-- A webhook that is queued, and selected by a worker. -/
def sampleFleet : Fleet where
  world := ⟨sampleRows, [], [], [(none, "a")]⟩
  selected := [("a", sampleRow, 1)]

theorem sampleFleet_reachable : Reachable {} (fun id _ => id) sampleFleet := by
  have hqueued : Reachable {} (fun id _ => id)
      { world := ⟨sampleRows, [.delivery "a"], [], [(none, "a")]⟩ } :=
    .single (.enqueue ⟨sampleRow.message, "a", 0, {}, none⟩ rfl rfl)
  refine hqueued.tail (.works _ (.select [] [] (.delivery "a") 1 rfl ?_))
  intro row hrow
  obtain rfl : sampleRow = row := by simpa [sampleRows, Table.get] using hrow
  exact Nat.zero_le 1

theorem workers_drain_sample :
    (sampleFleet.selected.map Prod.fst ++ sampleFleet.sending.map Prod.fst).Nodup ∧
    (∀ id row, sampleFleet.world.rows.get id = some row →
      sampleFleet.world.tried.count id ≤ row.maxAttempts) ∧
    (∀ n s', Steps (Works {} fun id _ => id) n sampleFleet s' → n ≤ sampleFleet.work {}) ∧
    (∃ n s', Steps (Works {} fun id _ => id) n sampleFleet s' ∧ s'.Idle) ∧
    (sampleFleet.Idle → ∀ id row, sampleFleet.world.rows.get id = some row →
      row.status = .delivered ∨ row.status = .dead ∧ nextDelay {} row = none) :=
  workers_drain {} (fun id _ => id) sampleFleet sampleFleet_reachable

/-- The commit and the end of the attempt, two further attempts, and the mail. -/
example : sampleFleet.work {} = 17 := by decide

end Rheonic.TransportJob
