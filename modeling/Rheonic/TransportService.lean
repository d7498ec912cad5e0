import Rheonic.TransportOutbox
import Rheonic.Lib.PyText

namespace Rheonic.TransportService
open RowTable PyText TransportOutbox

/-- The classes of exceptions that the delivery code tells apart. -/
inductive ExceptionClass
  | emailProviderNotConfigured
  | resendEmailTransport (code : String)
  | httpStatus (statusCode : Option ℕ)
  | timeout
  | typeError
  | valueError
  | indexError
  | integrityError
  | runtimeError
  | other (name : String)
  /-- Outside `Exception`, such as an interrupt: an `except Exception` does not catch it. -/
  | baseException (name : String)
  deriving DecidableEq, Repr

/-- A raised exception with its text, which may be empty. -/
structure Raised where
  cls : ExceptionClass
  text : String
  deriving DecidableEq, Repr

def Raised.isException (e : Raised) : Bool :=
  match e.cls with
  | .baseException _ => false
  | _ => true

structure Config where
  webhookRetryMaxAttempts : ℤ := 3
  webhookRetryIntervalsSeconds : List ℕ := [5, 20, 60]
  webhookMaxErrorChars : ℕ := 240
  emailRetryMaxAttempts : ℤ := 1
  emailRetryIntervalsSeconds : List ℕ := []

/-- A job in the queue: a first delivery, or the retry of a failed attempt. -/
inductive QueuedJob
  | delivery (outboxId : String)
  | retry (outboxId : String) (attempt delaySeconds nextAttemptAt : ℕ)
  deriving DecidableEq, Repr

/-- The outbox and its job queue, and a record of what has been done: the deliveries tried, and
the rows created, each with the row whose failure it reports if it does. -/
structure World where
  rows : Rows
  queue : List QueuedJob := []
  tried : List String := []
  created : List (Option String × String) := []

/-- How the job queue answers the first call, and a second one without trace arguments. -/
structure QueueReplies where
  first : Except Raised Unit := .ok ()
  second : Except Raised Unit := .ok ()

/-- A call with a signature that is refused is made again without the trace. -/
def callJobQueue (replies : QueueReplies) : Except Raised Unit :=
  match replies.first with
  | .ok () => .ok ()
  | .error e => if e.cls = .typeError then replies.second else .error e

section Service

variable (config : Config)

def maxAttempts : Kind → ℕ
  | .webhook => (max config.webhookRetryMaxAttempts 1).toNat
  | _ => (max config.emailRetryMaxAttempts 1).toNat

theorem one_le_maxAttempts (kind : Kind) : 1 ≤ maxAttempts config kind := by
  unfold maxAttempts
  split <;> omega

/-- A call of `enqueue`: its message, the id and time drawn for a new row, how the queue
answers, and the row whose failure is reported, if any. -/
structure EnqueueCall where
  message : Message
  newId : String
  now : ℕ
  replies : QueueReplies := {}
  source : Option String := none

def EnqueueCall.stored (c : EnqueueCall) : Message :=
  { c.message with dedupeKey := strip c.message.dedupeKey }

/-- The row is written first and the job enqueued after it; only a new row gets a job. -/
def enqueue (c : EnqueueCall) (w : World) : Except Raised String × World :=
  if c.stored.dedupeKey = "" then (.error ⟨.valueError, "dedupe_key is required"⟩, w)
  else
    match createOrGetDeduped c.stored (maxAttempts config c.message.kind) c.newId c.now w.rows with
    | (none, _) => (.error ⟨.integrityError, "UNIQUE constraint failed"⟩, w)
    | (some (id, false), _) => (.ok id, w)
    | (some (id, true), rows) =>
      let w' := { w with rows := rows, created := (c.source, id) :: w.created }
      match callJobQueue c.replies with
      | .ok () => (.ok id, { w' with queue := .delivery id :: w.queue })
      | .error e => (.error e, w')

def EnqueueCall.row (c : EnqueueCall) : Outbox :=
  newRow c.stored (maxAttempts config c.message.kind) c.now

/-- Everything a call can do: be refused, find the row of its slot, or create one, with a job
if the queue takes it. -/
inductive EnqueueEffect (c : EnqueueCall) (w : World) : Except Raised String → World → Prop
  | blank (e : Raised) (hkey : c.stored.dedupeKey = "") : EnqueueEffect c w (.error e) w
  | found (id : String) (row : Outbox) (hkey : c.stored.dedupeKey ≠ "")
      (hslot : getBySlot w.rows c.stored.slot = some (id, row)) : EnqueueEffect c w (.ok id) w
  | taken (e : Raised) (hslot : getBySlot w.rows c.stored.slot = none)
      (hid : ∃ row, w.rows.get c.newId = some row) : EnqueueEffect c w (.error e) w
  | queued (rows : Rows) (hkey : c.stored.dedupeKey ≠ "")
      (hslot : getBySlot w.rows c.stored.slot = none)
      (hins : w.rows.insert c.newId (c.row config) = some rows)
      (hq : callJobQueue c.replies = .ok ()) :
      EnqueueEffect c w (.ok c.newId)
        { w with rows := rows, created := (c.source, c.newId) :: w.created,
                 queue := .delivery c.newId :: w.queue }
  | dropped (rows : Rows) (e : Raised) (hkey : c.stored.dedupeKey ≠ "")
      (hslot : getBySlot w.rows c.stored.slot = none)
      (hins : w.rows.insert c.newId (c.row config) = some rows)
      (hq : callJobQueue c.replies = .error e) :
      EnqueueEffect c w (.error e)
        { w with rows := rows, created := (c.source, c.newId) :: w.created }

theorem enqueue_effect (c : EnqueueCall) (w : World) :
    EnqueueEffect config c w (enqueue config c w).1 (enqueue config c w).2 := by
  by_cases hkey : c.stored.dedupeKey = ""
  · simp only [enqueue, hkey, if_true]
    exact .blank _ hkey
  · rcases createOrGetDeduped_cases c.stored (maxAttempts config c.message.kind) c.newId c.now
      w.rows with ⟨id, row, hslot, heq⟩ | ⟨hslot, ⟨rows, hins, heq⟩ | ⟨hid, heq⟩⟩
    · simp only [enqueue, hkey, if_false, heq]
      exact .found id row hkey hslot
    · rcases hq : callJobQueue c.replies with e | ⟨⟩
      · simp only [enqueue, hkey, if_false, heq, hq]
        exact .dropped rows e hkey hslot hins hq
      · simp only [enqueue, hkey, if_false, heq, hq]
        exact .queued rows hkey hslot hins hq
    · simp only [enqueue, hkey, if_false, heq]
      exact .taken _ hslot hid

end Service

end Rheonic.TransportService
