import Rheonic.TransportJob
import Rheonic.Lib.TableView

namespace Rheonic.TransportJob
open RowTable TransportOutbox TransportService

/-- The rows of the projects that an observer owns. -/
def ShownTo (owned : String → Bool) (_ : String) (row : Outbox) : Bool :=
  owned row.message.projectId

section Enqueue

variable {config : Config} {owned : String → Bool} {c : EnqueueCall} {w w' : World}

theorem enqueue_hidden (hc : owned c.message.projectId = false) :
    Table.SameView (ShownTo owned) (enqueue config c w).2.rows w.rows := by
  have heffect := enqueue_effect config c w
  generalize (enqueue config c w).1 = answer at heffect
  generalize (enqueue config c w).2 = after at heffect ⊢
  cases heffect with
  | blank _ _ => exact .refl _ _
  | found _ _ _ _ => exact .refl _ _
  | taken _ _ _ => exact .refl _ _
  | queued rows _ _ hins _ => exact Table.sameView_insert hins hc
  | dropped rows _ _ _ hins _ => exact Table.sameView_insert hins hc

theorem getBySlot_sameView (h : Table.SameView (ShownTo owned) w.rows w'.rows) {slot : Slot}
    (hslot : owned slot.projectId = true) : getBySlot w.rows slot = getBySlot w'.rows slot := by
  have hshown : ∀ e : String × Outbox, decide (e.2.message.slot = slot) = true →
      ShownTo owned e.1 e.2 = true := by
    intro e he
    have hproject : e.2.message.projectId = slot.projectId :=
      congrArg Slot.projectId (of_decide_eq_true he)
    unfold ShownTo
    rw [hproject]
    exact hslot
  exact h.find (fun e _ => hshown e) fun e _ => hshown e

theorem enqueue_lockstep (h : Table.SameView (ShownTo owned) w.rows w'.rows)
    (hc : owned c.message.projectId = true) (hw : w.rows.get c.newId = none)
    (hw' : w'.rows.get c.newId = none) :
    (enqueue config c w).1 = (enqueue config c w').1 ∧
      Table.SameView (ShownTo owned) (enqueue config c w).2.rows (enqueue config c w').2.rows := by
  have hslot : getBySlot w.rows c.stored.slot = getBySlot w'.rows c.stored.slot :=
    getBySlot_sameView h hc
  obtain ⟨rows, hins⟩ := Table.exists_insert
    (newRow c.stored (maxAttempts config c.message.kind) c.now) hw
  obtain ⟨rows', hins'⟩ := Table.exists_insert
    (newRow c.stored (maxAttempts config c.message.kind) c.now) hw'
  unfold enqueue
  by_cases hkey : c.stored.dedupeKey = ""
  · rw [if_pos hkey, if_pos hkey]
    exact ⟨rfl, h⟩
  · rw [if_neg hkey, if_neg hkey]
    unfold createOrGetDeduped
    cases hfound : getBySlot w.rows c.stored.slot with
    | some found =>
      rw [← hslot, hfound]
      exact ⟨rfl, h⟩
    | none =>
      rw [← hslot, hfound]
      simp only [hins, hins']
      cases callJobQueue c.replies with
      | ok _ => exact ⟨rfl, h.insert hins hins'⟩
      | error e => exact ⟨rfl, h.insert hins hins'⟩

theorem enqueue_get_none {id : String} (h : w.rows.get id = none) (hid : id ≠ c.newId) :
    (enqueue config c w).2.rows.get id = none := by
  have heffect := enqueue_effect config c w
  generalize (enqueue config c w).1 = answer at heffect
  generalize (enqueue config c w).2 = after at heffect ⊢
  cases heffect with
  | blank _ _ => exact h
  | found _ _ _ _ => exact h
  | taken _ _ _ => exact h
  | queued rows _ _ hins _ => rw [Table.get_insert hins, if_neg hid, h]
  | dropped rows _ _ _ hins _ => rw [Table.get_insert hins, if_neg hid, h]

end Enqueue

section Process

variable {config : Config} {dedupeKey : String → FailureReport → String} {owned : String → Bool}
  {job : DeliveryJob} {w w' : World} {row : Outbox}

/-- The rows that a job works on belong to another project. -/
def Elsewhere (owned : String → Bool) (id : String) (w : World) : Prop :=
  ∀ row, w.rows.get id = some row → owned row.message.projectId = false

theorem sameView_mark (h : Elsewhere owned job.outboxId w) {f : Outbox → Outbox}
    (hf : ∀ row, (f row).message = row.message) :
    Table.SameView (ShownTo owned) (w.rows.update job.outboxId f) w.rows := by
  have hafter : ∀ row, w.rows.get job.outboxId = some row →
      ShownTo owned job.outboxId (f row) = false := by
    intro row hrow
    unfold ShownTo
    rw [hf]
    exact h row hrow
  exact Table.sameView_update (fun row hrow => h row hrow) hafter

theorem Elsewhere.update (h : Elsewhere owned job.outboxId w) {f : Outbox → Outbox}
    (hf : ∀ row, (f row).message = row.message) :
    Elsewhere owned job.outboxId { w with rows := w.rows.update job.outboxId f } := by
  intro row hrow
  rw [Table.get_update, if_pos rfl] at hrow
  obtain ⟨old, hold, hnew⟩ := Option.map_eq_some_iff.mp hrow
  rw [← hnew, hf]
  exact h old hold

theorem enqueueWebhookFailureEmail_hidden (h : Elsewhere owned job.outboxId w) :
    Table.SameView (ShownTo owned) (enqueueWebhookFailureEmail config dedupeKey job w).rows
      w.rows := by
  unfold enqueueWebhookFailureEmail
  cases hget : w.rows.get job.outboxId with
  | none => exact .refl _ _
  | some row =>
    dsimp only
    cases wantsFailureEmail row job.project with
    | none => exact .refl _ _
    | some project => exact enqueue_hidden (h row hget)

theorem recordFailure_hidden {error : String × String} (h : Elsewhere owned job.outboxId w) :
    Table.SameView (ShownTo owned) (recordFailure config dedupeKey job row error w).2.rows
      w.rows := by
  unfold recordFailure
  cases nextDelay config row with
  | none =>
    dsimp only
    split
    · have hmarked := h.update (f := fun row => row.failed job.markedAt error none true)
        fun _ => rfl
      exact (enqueueWebhookFailureEmail_hidden hmarked).trans (sameView_mark h fun _ => rfl)
    · exact sameView_mark h fun _ => rfl
  | some delay =>
    dsimp only
    cases job.retryQueue with
    | ok _ => exact sameView_mark h fun _ => rfl
    | error e => exact sameView_mark h fun _ => rfl

theorem attempt_hidden (h : Elsewhere owned job.outboxId w) :
    Table.SameView (ShownTo owned) (attempt config dedupeKey job row w).2.rows w.rows := by
  unfold attempt
  split
  · exact sameView_mark h fun _ => rfl
  · split
    · split
      · exact .refl _ _
      · exact recordFailure_hidden h
    · exact .refl _ _

theorem processOutboxDelivery_hidden (h : Elsewhere owned job.outboxId w) :
    Table.SameView (ShownTo owned) (processOutboxDelivery config dedupeKey job w).2.rows w.rows := by
  unfold processOutboxDelivery
  rcases claimForSend_cases job.outboxId job.claimedAt w.rows with
    hnone | ⟨row, hrow, _, hclaim⟩
  · rw [hnone]
    exact .refl _ _
  · rw [hclaim]
    -- the claim writes a row with the message of the row it finds
    have hclaimed : Table.SameView (ShownTo owned)
        (w.rows.update job.outboxId fun _ => row.claimed job.claimedAt) w.rows :=
      Table.sameView_update (fun row hrow => h row hrow) fun _ _ => h row hrow
    have hafter : Elsewhere owned job.outboxId { w with
        rows := w.rows.update job.outboxId fun _ => row.claimed job.claimedAt
        tried := job.outboxId :: w.tried } := by
      intro other hother
      rw [Table.get_update, if_pos rfl, hrow] at hother
      rw [← Option.some.inj hother]
      exact h row hrow
    exact (attempt_hidden hafter).trans hclaimed

/-- Two outboxes with the same view, the same row for a job, and the id of its mail free. -/
structure Alongside (owned : String → Bool) (job : DeliveryJob) (w w' : World) : Prop where
  view : Table.SameView (ShownTo owned) w.rows w'.rows
  shown : ∃ row, w.rows.get job.outboxId = some row ∧ owned row.message.projectId = true
  left : w.rows.get job.emailId = none
  right : w'.rows.get job.emailId = none

theorem Alongside.get (h : Alongside owned job w w') :
    w'.rows.get job.outboxId = w.rows.get job.outboxId := by
  obtain ⟨row, hrow, howned⟩ := h.shown
  rw [hrow]
  exact h.view.get hrow howned

theorem Alongside.update (h : Alongside owned job w w') {f : Outbox → Outbox}
    (hf : ∀ row, w.rows.get job.outboxId = some row → (f row).message = row.message) :
    Alongside owned job { w with rows := w.rows.update job.outboxId f }
      { w' with rows := w'.rows.update job.outboxId f } := by
  have hget := h.get
  obtain ⟨row, hrow, howned⟩ := h.shown
  have hfree : ∀ {u : World}, u.rows.get job.emailId = none →
      (u.rows.update job.outboxId f).get job.emailId = none := by
    intro u hu
    rw [Table.get_update, hu]
    exact ite_self _
  have hshown : ∀ row, w.rows.get job.outboxId = some row →
      ShownTo owned job.outboxId (f row) = ShownTo owned job.outboxId row := by
    intro row hrow
    unfold ShownTo
    rw [hf row hrow]
  refine ⟨?_, ⟨f row, ?_, ?_⟩, hfree h.left, hfree h.right⟩
  · apply h.view.update hshown
    intro row' hrow'
    exact hshown row' (hget.symm.trans hrow')
  · rw [Table.get_update, if_pos rfl, hrow]
    rfl
  · rw [hf row hrow]
    exact howned

theorem enqueueWebhookFailureEmail_lockstep (h : Alongside owned job w w') :
    Table.SameView (ShownTo owned) (enqueueWebhookFailureEmail config dedupeKey job w).rows
      (enqueueWebhookFailureEmail config dedupeKey job w').rows := by
  obtain ⟨row, hrow, howned⟩ := h.shown
  unfold enqueueWebhookFailureEmail
  rw [h.get, hrow]
  dsimp only
  cases wantsFailureEmail row job.project with
  | none => exact h.view
  | some project => exact (enqueue_lockstep h.view howned h.left h.right).2

theorem recordFailure_lockstep {error : String × String} (h : Alongside owned job w w') :
    Table.SameView (ShownTo owned) (recordFailure config dedupeKey job row error w).2.rows
      (recordFailure config dedupeKey job row error w').2.rows := by
  unfold recordFailure
  cases nextDelay config row with
  | none =>
    have hmarked := h.update (f := fun row => row.failed job.markedAt error none true)
      fun _ _ => rfl
    dsimp only
    split
    · exact enqueueWebhookFailureEmail_lockstep hmarked
    · exact hmarked.view
  | some delay =>
    have hmarked := h.update
      (f := fun row => row.failed job.markedAt error (some (job.failedAt + delay)) false)
      fun _ _ => rfl
    dsimp only
    cases job.retryQueue with
    | ok _ => exact hmarked.view
    | error e => exact hmarked.view

theorem attempt_lockstep (h : Alongside owned job w w') :
    Table.SameView (ShownTo owned) (attempt config dedupeKey job row w).2.rows
      (attempt config dedupeKey job row w').2.rows := by
  unfold attempt
  split
  · have hmarked := h.update (f := fun row => row.delivered job.markedAt) fun _ _ => rfl
    exact hmarked.view
  · split
    · split
      · exact h.view
      · exact recordFailure_lockstep h
    · exact h.view

theorem processOutboxDelivery_lockstep (h : Alongside owned job w w') :
    Table.SameView (ShownTo owned) (processOutboxDelivery config dedupeKey job w).2.rows
      (processOutboxDelivery config dedupeKey job w').2.rows := by
  unfold processOutboxDelivery
  rcases claimForSend_cases job.outboxId job.claimedAt w.rows with
    hnone | ⟨row, hrow, hclaimable, hclaim⟩
  · have hnone' : claimForSend job.outboxId job.claimedAt w'.rows = (none, w'.rows) := by
      unfold claimForSend at hnone ⊢
      rw [h.get]
      cases hfilter : (w.rows.get job.outboxId).filter fun row => row.claimable job.claimedAt with
      | none => rfl
      | some row =>
        rw [hfilter] at hnone
        exact absurd (congrArg Prod.fst hnone) (Option.some_ne_none _)
    rw [hnone, hnone']
    exact h.view
  · have hrow' := h.get.trans hrow
    rw [hclaim, claimForSend_of_claimable hrow' hclaimable]
    have hclaimed := h.update (f := fun _ => row.claimed job.claimedAt) (by
      intro row' hget
      rw [hrow] at hget
      rw [← Option.some.inj hget]
      rfl)
    exact attempt_lockstep ⟨hclaimed.view, hclaimed.shown, hclaimed.left, hclaimed.right⟩

end Process

end Rheonic.TransportJob
