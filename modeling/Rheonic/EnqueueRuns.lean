import Rheonic.TransportService

namespace Rheonic.TransportService
open RowTable PyText TransportOutbox

def QueuedJob.outboxId : QueuedJob → String
  | .delivery id => id
  | .retry id _ _ _ => id

/-- A delivery job has been enqueued for the row. -/
def World.HasJob (w : World) (id : String) : Prop := ∃ job ∈ w.queue, job.outboxId = id

def EnqueueCall.asksFor (c : EnqueueCall) (slot : Slot) : Bool :=
  c.stored.dedupeKey ≠ "" ∧ c.stored.slot = slot

def firstFor (slot : Slot) (calls : List EnqueueCall) : Option EnqueueCall :=
  calls.find? fun c => c.asksFor slot

section Runs

variable (config : Config)

def runCalls (calls : List EnqueueCall) : World :=
  calls.foldl (fun w c => (enqueue config c w).2) ⟨Table.empty, [], [], []⟩

/-- Whenever a call returns, the row it names has had a job at some point of the run. -/
def NothingLost (calls : List EnqueueCall) : Prop :=
  ∀ before c after id, calls = before ++ c :: after →
    (enqueue config c (runCalls config before)).1 = .ok id → (runCalls config calls).HasJob id

/-- The call that created a row got its job into the queue whenever its slot is asked for
again. -/
def RepeatsOnlyQueued (calls : List EnqueueCall) : Prop :=
  ∀ before c after first, calls = before ++ c :: after → c.stored.dedupeKey ≠ "" →
    firstFor c.stored.slot before = some first → callJobQueue first.replies = .ok ()

theorem runCalls_snoc (calls : List EnqueueCall) (c : EnqueueCall) :
    runCalls config (calls ++ [c]) = (enqueue config c (runCalls config calls)).2 := by
  simp [runCalls, List.foldl_append]

variable {config}

theorem asksFor_self {c : EnqueueCall} (h : c.stored.dedupeKey ≠ "") :
    c.asksFor c.stored.slot = true := by
  simp [EnqueueCall.asksFor, h]

theorem firstFor_snoc (slot : Slot) (calls : List EnqueueCall) (c : EnqueueCall) :
    firstFor slot (calls ++ [c]) =
      (firstFor slot calls).or (if c.asksFor slot then some c else none) := by
  rw [firstFor, List.find?_append, firstFor]
  by_cases h : c.asksFor slot = true <;> simp [h]

theorem firstFor_append {slot : Slot} {before after : List EnqueueCall} {c : EnqueueCall}
    (h : firstFor slot before = some c) : firstFor slot (before ++ after) = some c := by
  rw [firstFor, List.find?_append, ← firstFor, h]
  rfl

theorem firstFor_spec {slot : Slot} {calls : List EnqueueCall} {c : EnqueueCall}
    (h : firstFor slot calls = some c) : c ∈ calls ∧ c.stored.dedupeKey ≠ "" ∧
      c.stored.slot = slot := by
  have hasks := List.find?_some h
  simp only [EnqueueCall.asksFor, Bool.decide_and, Bool.and_eq_true, decide_eq_true_eq] at hasks
  exact ⟨List.mem_of_find?_eq_some h, hasks⟩

/-- The state of a run with fresh ids, in terms of the first call for each slot. -/
structure Mirrors (w : World) (calls : List EnqueueCall) : Prop where
  fresh : ∀ id row, w.rows.get id = some row → ∃ c ∈ calls, c.newId = id
  slots : ∀ slot, (getBySlot w.rows slot).map Prod.fst = (firstFor slot calls).map (·.newId)
  jobs : ∀ id, w.HasJob id ↔ ∃ c, firstFor c.stored.slot calls = some c ∧ c.newId = id ∧
    callJobQueue c.replies = .ok ()

theorem getBySlot_insert {t t' : Rows} {id : String} {row : Outbox}
    (h : t.insert id row = some t') (slot : Slot) :
    getBySlot t' slot =
      (getBySlot t slot).or (if row.message.slot = slot then some (id, row) else none) := by
  rw [getBySlot, Table.rows_of_insert h, List.find?_append, getBySlot]
  by_cases hs : row.message.slot = slot <;> simp [hs]

theorem mirrors_repeat {w : World} {calls : List EnqueueCall} {c : EnqueueCall}
    (h : Mirrors w calls)
    (hc : c.stored.dedupeKey = "" ∨ firstFor c.stored.slot calls ≠ none) :
    Mirrors w (calls ++ [c]) := by
  have hsame : ∀ slot, firstFor slot (calls ++ [c]) = firstFor slot calls := by
    intro slot
    rw [firstFor_snoc]
    by_cases hasks : c.asksFor slot = true
    · simp only [EnqueueCall.asksFor, Bool.decide_and, Bool.and_eq_true, decide_eq_true_eq]
        at hasks
      obtain ⟨hkey, rfl⟩ := hasks
      obtain ⟨first, hfirst⟩ := Option.ne_none_iff_exists'.mp (hc.resolve_left hkey)
      simp [hfirst]
    · simp [hasks]
  refine ⟨fun id row hrow => ?_, fun slot => by rw [hsame, h.slots], fun id => ?_⟩
  · obtain ⟨c', hc', hid⟩ := h.fresh id row hrow
    exact ⟨c', List.mem_append_left _ hc', hid⟩
  · simp only [hsame, h.jobs]

theorem mirrors_first {w : World} {calls : List EnqueueCall} {c : EnqueueCall} {rows : Rows}
    {w' : World} (h : Mirrors w calls) (hkey : c.stored.dedupeKey ≠ "")
    (hslot : getBySlot w.rows c.stored.slot = none)
    (hins : w.rows.insert c.newId (c.row config) = some rows) (hrows : w'.rows = rows)
    (hjobs : ∀ id, w'.HasJob id ↔
      (id = c.newId ∧ callJobQueue c.replies = .ok ()) ∨ w.HasJob id) :
    Mirrors w' (calls ++ [c]) := by
  have hnone : firstFor c.stored.slot calls = none := by
    simpa [hslot] using (h.slots c.stored.slot).symm
  refine ⟨fun id row hrow => ?_, fun slot => ?_, fun id => ?_⟩
  · rw [hrows, Table.get_insert hins] at hrow
    by_cases hid : id = c.newId
    · exact ⟨c, by simp, hid.symm⟩
    · rw [if_neg hid] at hrow
      obtain ⟨c', hc', hid'⟩ := h.fresh id row hrow
      exact ⟨c', List.mem_append_left _ hc', hid'⟩
  · have hold := h.slots slot
    rw [hrows, getBySlot_insert hins, firstFor_snoc]
    -- the new row is the first of its slot
    by_cases hs : c.stored.slot = slot
    · subst hs
      simp [hslot, hnone, asksFor_self hkey, EnqueueCall.row, newRow]
    · have hasks : c.asksFor slot = false := by simp [EnqueueCall.asksFor, hs]
      have hrow : ¬ (c.row config).message.slot = slot := hs
      simpa [hasks, hrow] using hold
  · rw [hjobs, h.jobs]
    constructor
    · rintro (⟨rfl, hq⟩ | ⟨c', hc', hid, hq⟩)
      · exact ⟨c, by simp [firstFor_snoc, hnone, asksFor_self hkey], rfl, hq⟩
      · exact ⟨c', firstFor_append hc', hid, hq⟩
    · rintro ⟨c', hc', hid, hq⟩
      rw [firstFor_snoc] at hc'
      -- either it is the new row, or it was there before
      rcases hold : firstFor c'.stored.slot calls with _ | c''
      · rw [hold, Option.none_or] at hc'
        obtain ⟨_, heq⟩ := Option.ite_none_right_eq_some.mp hc'
        obtain rfl := Option.some.inj heq
        exact .inl ⟨hid.symm, hq⟩
      · rw [hold, Option.some_or] at hc'
        exact .inr ⟨c', by rw [hold, hc'], hid, hq⟩

variable (config) in
theorem runCalls_mirrors {calls : List EnqueueCall}
    (hids : (calls.map EnqueueCall.newId).Nodup) : Mirrors (runCalls config calls) calls := by
  induction calls using List.reverseRecOn with
  | nil => exact ⟨by simp [runCalls], by simp [runCalls, getBySlot, firstFor, Table.empty],
      by simp [runCalls, World.HasJob, firstFor]⟩
  | append_singleton calls c ih =>
    rw [List.map_append, List.nodup_append] at hids
    have h := ih hids.1
    have heffect := enqueue_effect config c (runCalls config calls)
    rw [runCalls_snoc]
    generalize (enqueue config c (runCalls config calls)).1 = o at heffect
    generalize (enqueue config c (runCalls config calls)).2 = w' at heffect ⊢
    cases heffect with
    | blank e hkey => exact mirrors_repeat h (.inl hkey)
    | found id row hkey hslot =>
      refine mirrors_repeat h (.inr fun hnone => ?_)
      simpa [hslot, hnone] using h.slots c.stored.slot
    | taken e hslot hid =>
      -- a taken id would be that of an earlier call
      obtain ⟨row, hrow⟩ := hid
      obtain ⟨c', hc', heq⟩ := h.fresh c.newId row hrow
      exact absurd heq (hids.2.2 _ (List.mem_map_of_mem hc') _ (by simp))
    | queued rows hkey hslot hins hq =>
      refine mirrors_first h hkey hslot hins rfl fun id => ?_
      simp [World.HasJob, QueuedJob.outboxId, hq, eq_comm]
    | dropped rows e hkey hslot hins hq =>
      refine mirrors_first h hkey hslot hins rfl fun id => ?_
      simp [World.HasJob, hq]

theorem enqueue_ok {calls : List EnqueueCall} {c : EnqueueCall} {id : String}
    (hids : ((calls ++ [c]).map EnqueueCall.newId).Nodup)
    (h : (enqueue config c (runCalls config calls)).1 = .ok id) :
    c.stored.dedupeKey ≠ "" ∧ ∃ first, firstFor c.stored.slot (calls ++ [c]) = some first ∧
      first.newId = id ∧
      (firstFor c.stored.slot calls = none → callJobQueue first.replies = .ok ()) := by
  rw [List.map_append, List.nodup_append] at hids
  have hslots := (runCalls_mirrors config hids.1).slots c.stored.slot
  have heffect := enqueue_effect config c (runCalls config calls)
  generalize (enqueue config c (runCalls config calls)).2 = w' at heffect
  rw [h] at heffect
  cases heffect with
  | found _ row hkey hslot =>
    rw [hslot, Option.map_some, eq_comm, Option.map_eq_some_iff] at hslots
    obtain ⟨first, hfirst, hid⟩ := hslots
    exact ⟨hkey, first, firstFor_append hfirst, hid, by simp [hfirst]⟩
  | queued rows hkey hslot hins hq =>
    rw [hslot, Option.map_none, eq_comm, Option.map_eq_none_iff] at hslots
    exact ⟨hkey, c, by simp [firstFor_snoc, hslots, asksFor_self hkey], rfl, fun _ => hq⟩

theorem enqueue_repeat {calls : List EnqueueCall} {c first : EnqueueCall}
    (hids : (calls.map EnqueueCall.newId).Nodup) (hkey : c.stored.dedupeKey ≠ "")
    (hfirst : firstFor c.stored.slot calls = some first) :
    (enqueue config c (runCalls config calls)).1 = .ok first.newId := by
  have hslots := (runCalls_mirrors config hids).slots c.stored.slot
  rw [hfirst, Option.map_some, Option.map_eq_some_iff] at hslots
  obtain ⟨⟨id, row⟩, hslot, rfl⟩ := hslots
  have heffect := enqueue_effect config c (runCalls config calls)
  generalize (enqueue config c (runCalls config calls)).1 = o at heffect ⊢
  generalize (enqueue config c (runCalls config calls)).2 = w' at heffect
  cases heffect with
  | blank e hblank => exact absurd hblank hkey
  | found id' row' _ hslot' =>
    obtain ⟨rfl, _⟩ := Prod.mk.inj (Option.some.inj (hslot.symm.trans hslot'))
    rfl
  | taken e hslot' => simp [hslot] at hslot'
  | queued rows _ hslot' => simp [hslot] at hslot'
  | dropped rows e _ hslot' => simp [hslot] at hslot'

theorem hasJob_iff {calls : List EnqueueCall} {slot : Slot} {first : EnqueueCall}
    (hids : (calls.map EnqueueCall.newId).Nodup) (hfirst : firstFor slot calls = some first) :
    (runCalls config calls).HasJob first.newId ↔ callJobQueue first.replies = .ok () := by
  obtain ⟨hmem, _, rfl⟩ := firstFor_spec hfirst
  rw [(runCalls_mirrors config hids).jobs]
  constructor
  · rintro ⟨c, hc, hid, hq⟩
    obtain rfl := List.inj_on_of_nodup_map hids (firstFor_spec hc).1 hmem hid
    exact hq
  · exact fun hq => ⟨first, hfirst, rfl, hq⟩

/-- In a run with fresh ids every returning call names a row that has had a job, exactly when
no slot is asked for again after the queue has refused the job of its first call. -/
theorem nothing_lost_iff (calls : List EnqueueCall)
    (hids : (calls.map EnqueueCall.newId).Nodup) :
    NothingLost config calls ↔ RepeatsOnlyQueued calls := by
  have hupto : ∀ {before c after}, calls = before ++ c :: after →
      ((before ++ [c]).map EnqueueCall.newId).Nodup := by
    rintro before c after rfl
    refine hids.sublist (List.Sublist.map _ ?_)
    simp
  constructor
  · intro h before c after first hcalls hkey hfirst
    have hids' : (before.map EnqueueCall.newId).Nodup := by
      have hnodup := hupto hcalls
      rw [List.map_append, List.nodup_append] at hnodup
      exact hnodup.1
    have hjob := h before c after first.newId hcalls (enqueue_repeat hids' hkey hfirst)
    have hwhole : firstFor c.stored.slot calls = some first := by
      rw [hcalls]
      exact firstFor_append hfirst
    exact (hasJob_iff hids hwhole).mp hjob
  · intro h before c after id hcalls hok
    obtain ⟨hkey, first, hfirst, rfl, hq⟩ := enqueue_ok (hupto hcalls) hok
    have hwhole : firstFor c.stored.slot calls = some first := by
      rw [hcalls, List.append_cons]
      exact firstFor_append hfirst
    rw [hasJob_iff hids hwhole]
    rcases hbefore : firstFor c.stored.slot before with _ | earlier
    · exact hq hbefore
    · have hsame : earlier = first := by
        have hearlier : firstFor c.stored.slot (before ++ [c]) = some earlier :=
          firstFor_append hbefore
        exact Option.some.inj (hearlier.symm.trans hfirst)
      exact hsame ▸ h before c after earlier hcalls hkey hbefore

end Runs

/-- A notification about a block. -/
def sampleMessage : Message where
  projectId := "p"
  kind := .email
  eventType := "protection.block"
  payload := .json "{}"
  dedupeKey := "k"

def sampleCall (id : String) (replies : QueueReplies) : EnqueueCall :=
  ⟨sampleMessage, id, 0, replies, none⟩

theorem nothing_lost_iff_sample :
    NothingLost {} [sampleCall "a" {}, sampleCall "b" {}] ↔
      RepeatsOnlyQueued [sampleCall "a" {}, sampleCall "b" {}] :=
  nothing_lost_iff _ (by decide)

/-- The queue is down for the first call. The second returns the row, which has no job. -/
theorem repeat_reports_lost_row :
    ¬ NothingLost {} [sampleCall "a" { first := .error ⟨.other "ConnectionError", "down"⟩ },
      sampleCall "b" {}] := by
  intro h
  have hjob := h [_] _ [] "a" rfl (by decide)
  obtain ⟨job, hmem, _⟩ := hjob
  have hempty : (runCalls {} [sampleCall "a" { first := .error ⟨.other "ConnectionError", "down"⟩ },
      sampleCall "b" {}]).queue = [] := by decide
  simp [hempty] at hmem

end Rheonic.TransportService
