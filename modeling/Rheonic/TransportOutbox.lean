import Rheonic.Lib.RowTable

namespace Rheonic.TransportOutbox
open RowTable

/-- The kind column; text that is neither of the two transports is possible there. -/
inductive Kind
  | webhook
  | email
  | other (name : String)
  deriving DecidableEq, Repr

inductive Status
  | pending
  | sending
  | delivered
  | failed
  | dead
  deriving DecidableEq, Repr

/-- The body of the mail about a webhook that could not be delivered. -/
structure FailureReport where
  projectId : String
  eventType : String
  destination : Option String
  status : Status
  attempts : ℕ
  maxAttempts : ℕ
  lastErrorCode : Option String
  lastErrorMessage : Option String
  updatedAt : ℕ
  deriving DecidableEq, Repr

/-- A payload: the text of a JSON document, or a report built here. -/
inductive Payload
  | json (text : String)
  | failureReport (report : FailureReport)
  deriving DecidableEq, Repr

/-- What a caller asks to have delivered. -/
structure Message where
  projectId : String
  kind : Kind
  eventType : String
  destination : Option String := none
  subject : Option String := none
  template : Option String := none
  payload : Payload
  dedupeKey : String
  deriving DecidableEq, Repr

/-- A row of the outbox, without its id. -/
structure Outbox where
  message : Message
  maxAttempts : ℕ
  status : Status := .pending
  attempts : ℕ := 0
  nextAttemptAt : ℕ
  lastErrorCode : Option String := none
  lastErrorMessage : Option String := none
  createdAt : ℕ
  updatedAt : ℕ
  sentAt : Option ℕ := none
  deliveredAt : Option ℕ := none
  deriving DecidableEq, Repr

/-- The columns of the unique constraint. -/
structure Slot where
  projectId : String
  kind : Kind
  dedupeKey : String
  deriving DecidableEq, Repr

def Message.slot (m : Message) : Slot := ⟨m.projectId, m.kind, m.dedupeKey⟩

abbrev Rows := Table String Outbox

def getBySlot (t : Rows) (slot : Slot) : Option (String × Outbox) :=
  t.rows.find? fun e => e.2.message.slot = slot

def newRow (message : Message) (maxAttempts now : ℕ) : Outbox where
  message := message
  maxAttempts := maxAttempts
  nextAttemptAt := now
  createdAt := now
  updatedAt := now

/-- The id of the row of a message and whether it is new; `none` is an integrity error that no
row with the slot explains. -/
def createOrGetDeduped (message : Message) (maxAttempts : ℕ) (id : String) (now : ℕ) (t : Rows) :
    Option (String × Bool) × Rows :=
  match getBySlot t message.slot with
  | some (existing, _) => (some (existing, false), t)
  | none =>
    match t.insert id (newRow message maxAttempts now) with
    | some t' => (some (id, true), t')
    | none => (none, t)

def Outbox.claimable (row : Outbox) (now : ℕ) : Bool :=
  (row.status = .pending ∨ row.status = .failed) ∧ row.nextAttemptAt ≤ now

def Outbox.claimed (row : Outbox) (now : ℕ) : Outbox :=
  { row with
    status := .sending
    attempts := row.attempts + 1
    updatedAt := now
    sentAt := some now }

def claimForSend (id : String) (now : ℕ) (t : Rows) : Option Outbox × Rows :=
  match (t.get id).filter fun row => row.claimable now with
  | none => (none, t)
  | some row => (some (row.claimed now), t.update id fun _ => row.claimed now)

def Outbox.delivered (row : Outbox) (now : ℕ) : Outbox :=
  { row with
    status := .delivered
    updatedAt := now
    deliveredAt := some now
    lastErrorCode := none
    lastErrorMessage := none }

def markDelivered (id : String) (now : ℕ) (t : Rows) : Rows :=
  t.update id fun row => row.delivered now

def truncate (n : ℕ) (s : String) : String := String.ofList (s.toList.take n)

def Outbox.failed (row : Outbox) (now : ℕ) (error : String × String)
    (nextAttemptAt : Option ℕ) (dead : Bool) : Outbox :=
  { row with
    status := if dead then .dead else .failed
    updatedAt := now
    nextAttemptAt := nextAttemptAt.getD now
    lastErrorCode := some error.1
    lastErrorMessage := some (truncate 512 error.2) }

def markFailed (id : String) (now : ℕ) (error : String × String) (nextAttemptAt : Option ℕ)
    (dead : Bool) (t : Rows) : Rows :=
  t.update id fun row => row.failed now error nextAttemptAt dead

theorem claimForSend_cases (id : String) (now : ℕ) (t : Rows) :
    claimForSend id now t = (none, t) ∨
      ∃ row, t.get id = some row ∧ row.claimable now = true ∧
        claimForSend id now t = (some (row.claimed now), t.update id fun _ => row.claimed now) := by
  unfold claimForSend
  split
  next => exact .inl rfl
  next row hrow =>
    obtain ⟨hget, hclaimable⟩ := Option.filter_eq_some_iff.mp hrow
    exact .inr ⟨row, hget, hclaimable, rfl⟩

theorem claimForSend_of_claimable {id : String} {now : ℕ} {t : Rows} {row : Outbox}
    (h : t.get id = some row) (hc : row.claimable now = true) :
    claimForSend id now t = (some (row.claimed now), t.update id fun _ => row.claimed now) := by
  simp [claimForSend, h, hc, Option.filter_some]

theorem getBySlot_eq_some {t : Rows} {slot : Slot} {id : String} {row : Outbox}
    (h : getBySlot t slot = some (id, row)) : t.get id = some row ∧ row.message.slot = slot :=
  ⟨Table.mem_rows_iff.mp (List.mem_of_find?_eq_some h), by simpa using List.find?_some h⟩

/-- A message gets the row of its slot, a new row, or, where the new id is taken, an error. -/
theorem createOrGetDeduped_cases (message : Message) (maxAttempts : ℕ) (id : String) (now : ℕ)
    (t : Rows) :
    (∃ existing row, getBySlot t message.slot = some (existing, row) ∧
      createOrGetDeduped message maxAttempts id now t = (some (existing, false), t)) ∨
    (getBySlot t message.slot = none ∧
      ((∃ t', t.insert id (newRow message maxAttempts now) = some t' ∧
        createOrGetDeduped message maxAttempts id now t = (some (id, true), t')) ∨
      (∃ row, t.get id = some row) ∧
        createOrGetDeduped message maxAttempts id now t = (none, t))) := by
  unfold createOrGetDeduped
  rcases hslot : getBySlot t message.slot with _ | ⟨existing, row⟩
  · refine .inr ⟨rfl, ?_⟩
    rcases hins : t.insert id (newRow message maxAttempts now) with _ | t'
    · exact .inr ⟨Table.insert_eq_none_iff.mp hins, by simp⟩
    · exact .inl ⟨t', rfl, by simp⟩
  · exact .inl ⟨existing, row, rfl, rfl⟩

end Rheonic.TransportOutbox
