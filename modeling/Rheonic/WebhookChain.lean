import Rheonic.Lib.JsonReader
import Rheonic.TransportDedupe
import Rheonic.TransportJob
import Rheonic.WebhookDelivery

namespace Rheonic.TransportDedupe
open PyText Json

section ReadNumbers

def digitOf (c : Char) : Fin 10 := Fin.ofNat 10 (digit c)

/-- A fraction, if there is one, and what follows it. -/
def readFraction : List Char → List (Fin 10) × List Char
  | '.' :: cs => ((cs.takeWhile Char.isDigit).map digitOf, cs.dropWhile Char.isDigit)
  | cs => ([], cs)

def readExponent : List Char → Option (Option ℤ)
  | [] => some none
  | 'e' :: '-' :: cs => (digits cs).map fun n : ℕ => some (-(n : ℤ))
  | 'e' :: '+' :: cs => (digits cs).map fun n : ℕ => some (n : ℤ)
  | _ => none

def readUnsigned (negative : Bool) (cs : List Char) : Option FloatRepr :=
  let fraction := readFraction (cs.dropWhile Char.isDigit)
  (digits (cs.takeWhile Char.isDigit)).bind fun whole =>
    (readExponent fraction.2).bind fun exponent =>
      if h : fraction.1 ≠ [] ∨ exponent ≠ none then
        some ⟨negative, whole, fraction.1, exponent, h⟩
      else none

def readFloat : List Char → Option FloatRepr
  | '-' :: cs => readUnsigned true cs
  | cs => readUnsigned false cs

/-- A literal or a number; a fraction or an exponent tells a float from an integer. -/
def Scalar.read (cs : List Char) : Option Scalar :=
  if cs = "null".toList then some .null
  else if cs = "true".toList then some (.bool true)
  else if cs = "false".toList then some (.bool false)
  else if '.' ∈ cs ∨ 'e' ∈ cs then (readFloat cs).map .float
  else (parseNumber (String.ofList cs)).map .int

theorem digitOf_digitChar (d : Fin 10) : digitOf (digitChar d) = d := by
  revert d
  decide

theorem head_exponentText_not_digit (e : Option ℤ) :
    ∀ c ∈ (exponentText e).head?, c.isDigit = false := by
  intro c hc
  rw [head_exponentText c hc]
  rfl

theorem readFraction_text (fraction : List (Fin 10)) (e : Option ℤ) :
    readFraction (fractionText fraction ++ exponentText e) = (fraction, exponentText e) := by
  unfold fractionText
  by_cases hfraction : fraction = []
  · rw [if_pos hfraction, List.nil_append, hfraction]
    cases e with
    | none => rfl
    | some k => rfl
  · rw [if_neg hfraction, List.cons_append, readFraction]
    have hdigits : ∀ c ∈ fraction.map digitChar, c.isDigit = true := by
      intro c hc
      obtain ⟨d, -, rfl⟩ := List.mem_map.mp hc
      exact isDigit_digitChar d
    have hspan := span_append hdigits (head_exponentText_not_digit e)
    have hmap : (fraction.map digitChar).map digitOf = fraction := by
      rw [List.map_map]
      exact (List.map_congr_left fun d _ => digitOf_digitChar d).trans (List.map_id _)
    rw [hspan.1, hspan.2, hmap]

theorem digits_padded (n : ℕ) :
    digits (if n < 10 then '0' :: n.repr.toList else n.repr.toList) = some n := by
  have hall : ∀ c ∈ n.repr.toList, c.isDigit = true := fun c hc => isDigit_of_mem_repr hc
  have hvalue : digits n.repr.toList = some n := by
    rw [Nat.repr, String.toList_ofList, digits_toDigits]
  by_cases hn : n < 10
  · rw [if_pos hn, digits_of_digits (List.forall_mem_cons.mpr ⟨by decide, hall⟩) (by simp),
      Nat.ofDigitChars_cons]
    rw [digits_of_digits hall (repr_ne_nil _)] at hvalue
    exact hvalue
  · rw [if_neg hn]
    exact hvalue

theorem readExponent_text (e : Option ℤ) : readExponent (exponentText e) = some e := by
  cases e with
  | none => rfl
  | some k =>
    have hdigits := digits_padded k.natAbs
    unfold exponentText
    by_cases hk : k < 0
    · have habs : -(k.natAbs : ℤ) = k := by omega
      simp only [if_pos hk, readExponent, hdigits, Option.map_some, habs]
    · have habs : (k.natAbs : ℤ) = k := by omega
      simp only [if_neg hk, readExponent, hdigits, Option.map_some, habs]

theorem readUnsigned_text (x : FloatRepr) :
    readUnsigned x.negative (x.whole.repr.toList ++
      (fractionText x.fraction ++ exponentText x.exponent)) = some x := by
  have hstop : ∀ c ∈ (fractionText x.fraction ++ exponentText x.exponent).head?,
      c.isDigit = false := by
    intro c hc
    rcases head_fraction c hc with rfl | rfl <;> rfl
  have hdigits : ∀ c ∈ x.whole.repr.toList, c.isDigit = true := fun c hc => isDigit_of_mem_repr hc
  have hspan := span_append hdigits hstop
  have hwhole : digits x.whole.repr.toList = some x.whole := by
    rw [Nat.repr, String.toList_ofList, digits_toDigits]
  unfold readUnsigned
  simp only [hspan.1, hspan.2, hwhole, readFraction_text, readExponent_text, Option.bind_some]
  exact dif_pos x.marked

theorem readFloat_text (x : FloatRepr) : readFloat x.text = some x := by
  have hread := readUnsigned_text x
  unfold FloatRepr.text
  cases hneg : x.negative with
  | true =>
    rw [hneg] at hread
    rw [if_pos rfl, List.singleton_append, readFloat, hread]
  | false =>
    rw [hneg] at hread
    rw [if_neg Bool.false_ne_true, List.nil_append]
    cases hdigits : x.whole.repr.toList with
    | nil => exact absurd hdigits (repr_ne_nil _)
    | cons c cs =>
      have hc : c.isDigit = true := isDigit_of_mem_repr (hdigits ▸ List.mem_cons_self)
      rw [hdigits] at hread
      rw [List.cons_append] at hread ⊢
      rw [readFloat, hread]
      intro cs' hminus
      rw [List.head_eq_of_cons_eq hminus] at hc
      exact absurd hc (by decide)

theorem number_ne_literal {v : Scalar} (hv : v.isNumber = true) {literal : List Char}
    (hletter : 'l' ∈ literal ∨ 't' ∈ literal) : v.text ≠ literal := by
  rintro rfl
  rcases hletter with hletter | hletter
  · exact absurd (Scalar.text_chars hv hletter) (by decide)
  · exact absurd (Scalar.text_chars hv hletter) (by decide)

theorem FloatRepr.marked_text (x : FloatRepr) : '.' ∈ x.text ∨ 'e' ∈ x.text := by
  unfold FloatRepr.text
  simp only [List.mem_append]
  rcases x.marked with hfraction | hexponent
  · refine .inl (.inr (.inr (.inl ?_)))
    rw [fractionText, if_neg hfraction]
    exact List.mem_cons_self
  · obtain ⟨k, hk⟩ := Option.ne_none_iff_exists'.mp hexponent
    refine .inr (.inr (.inr (.inr ?_)))
    rw [hk, exponentText]
    exact List.mem_cons_self

theorem read_number {v : Scalar} (hv : v.isNumber = true) : Scalar.read v.text =
    if '.' ∈ v.text ∨ 'e' ∈ v.text then (readFloat v.text).map .float
    else (parseNumber (String.ofList v.text)).map .int := by
  rw [Scalar.read, if_neg (number_ne_literal hv (.inl (by decide))),
    if_neg (number_ne_literal hv (.inr (by decide))),
    if_neg (number_ne_literal hv (.inl (by decide)))]

theorem read_text (v : Scalar) : Scalar.read v.text = some v := by
  cases v with
  | null => rfl
  | bool b =>
    cases b with
    | true => rfl
    | false => rfl
  | int n =>
    have hplain : ¬ ('.' ∈ (Scalar.int n).text ∨ 'e' ∈ (Scalar.int n).text) := by
      rintro (h | h) <;> exact absurd (int_text_chars h) (by decide)
    rw [read_number rfl, if_neg hplain, Scalar.text, String.ofList_toList, parseNumber_toString]
    rfl
  | float x =>
    have hmarked : '.' ∈ (Scalar.float x).text ∨ 'e' ∈ (Scalar.float x).text := x.marked_text
    rw [read_number rfl, if_pos hmarked, Scalar.text, readFloat_text]
    rfl

theorem readable_text : Readable Scalar.text Scalar.read where
  read_text := read_text
  ne_nil := plain_text.ne_nil
  inWord v c hc := decide_eq_true (plain_text.plain v c hc)

end ReadNumbers

theorem sameNotification_of_key {sha256 : ByteArray → String}
    (hinjective : Function.Injective sha256) {a b : Notification}
    (h : buildTransportDedupeKey sha256 a = buildTransportDedupeKey sha256 b) :
    SameNotification a b := by
  have htexts : encoded a = encoded b := String.toByteArray_inj.mp (hinjective h)
  have hsame := (dumps_eq_iff plain_text (wellFormed_source a) (wellFormed_source b)).mp
    (String.ofList_injective htexts)
  exact same_source_iff.mp hsame

end Rheonic.TransportDedupe

namespace Rheonic.WebhookChain
open PyText Json RowTable TransportOutbox TransportService TransportJob WebhookDelivery
open TransportDedupe (Value Scalar Notification buildTransportDedupeKey)
open UserApi (ProjectRecord)

/-- A call of the dispatcher, with the trace id that is bound during it. -/
structure Dispatch where
  projectId : String
  payload : TransportDedupe.Payload
  eventType : String
  overrideUrl : Option String := none
  forceSend : Bool := false
  traceId : String := ""

section Enqueueing

/-- `fields.setdefault(key, value)`. -/
def setDefault (fields : Fields Value) (key : String) (value : Value) : Fields Value :=
  if (fields.get key).isSome then fields else fields.set key value

def setDefaultGiven (fields : Fields Value) (key : String) (value : Option String) : Fields Value :=
  value.elim fields fun s => setDefault fields key (.string s)

/-- The metadata of a payload; what is no object counts as none. -/
def transportMeta (payload : Fields Value) : Fields Value :=
  match payload.get "__transport_meta" with
  | some (.object members) => members
  | _ => []

/-- The payload as `TransportService.enqueue` stores it, given the trace id that is bound. -/
def normalizedPayload (payload : Fields Value) (traceId : String)
    (severity provider environment : Option String) : Fields Value :=
  let members :=
    if strip traceId = "" then transportMeta payload
    else setDefault (transportMeta payload) "trace_id" (.string (strip traceId))
  let payload :=
    if members.isEmpty then payload else payload.set "__transport_meta" (.object members)
  setDefaultGiven (setDefaultGiven (setDefaultGiven payload "severity" severity)
    "provider" provider) "environment" environment

/-- A JSON column keeps a text that reads back as its value. -/
def column (fields : Fields Value) : Payload :=
  .json (String.ofList (compact Scalar.text (.object fields)))

namespace Dispatch

variable (d : Dispatch)

def transportPayload : Fields Value :=
  [("body", .object d.payload.fields),
    ("__transport_meta", .object [("force_send", .scalar (.bool d.forceSend))])]

theorem wellFormed_transportPayload : (Json.object d.transportPayload).WellFormed := by
  refine .object (by simp [transportPayload]) ?_
  simp only [transportPayload, List.mem_cons, List.not_mem_nil, or_false, forall_eq_or_imp,
    forall_eq]
  exact ⟨d.payload.wellFormed, .object (by simp) (by simpa using WellFormed.scalar _)⟩

def notification : Notification where
  projectId := d.projectId
  kind := .webhook
  eventType := d.eventType
  payload := ⟨d.transportPayload, d.wellFormed_transportPayload⟩
  destination := d.overrideUrl

def message (sha256 : ByteArray → String) : Message where
  projectId := d.projectId
  kind := .webhook
  eventType := d.eventType
  destination := d.overrideUrl
  payload := column (normalizedPayload d.transportPayload d.traceId none none none)
  dedupeKey := buildTransportDedupeKey sha256 d.notification

/-- The call of `TransportService.enqueue` that the dispatcher makes. -/
def call (sha256 : ByteArray → String) (newId : String) (now : ℕ) (replies : QueueReplies) :
    EnqueueCall :=
  ⟨d.message sha256, newId, now, replies, none⟩

end Dispatch

end Enqueueing

section Delivering

/-- The payload of a row; only a mail has a report for one. -/
def rowPayload (row : Outbox) : Fields Value :=
  match row.message.payload with
  | .json text =>
    match parse Scalar.read text.toList with
    | some (.object fields) => fields
    | _ => []
  | .failureReport _ => []

/-- `bool(value)`. -/
def truthyValue : Value → Bool
  | .scalar .null => false
  | .scalar (.bool b) => b
  | .scalar (.int n) => n ≠ 0
  | .scalar (.float x) => x.whole ≠ 0 || x.fraction.any (· ≠ 0)
  | .string s => s ≠ ""
  | .array items => !items.isEmpty
  | .object members => !members.isEmpty

def forceSend (payload : Fields Value) : Bool :=
  ((transportMeta payload).get "force_send").any truthyValue

/-- What is sent; a payload without a body is one itself. -/
def bodyPayload (payload : Fields Value) : Fields Value :=
  match payload.get "body" with
  | some (.object body) => body
  | _ => payload

def bodyText (payload : Fields Value) : String :=
  String.ofList (compact Scalar.text (.object (bodyPayload payload)))

def storedTraceId (row : Outbox) : Option String :=
  match (transportMeta (rowPayload row)).get "trace_id" with
  | some (.string s) => truthy (some (strip s))
  | _ => none

/-- A row's own trace id, else that of its job, else a new one. -/
def resolveTransportTraceId (row : Option Outbox) (fallbackTraceId : Option String)
    (generated : String) : String :=
  ((row.bind storedTraceId).or (truthy (fallbackTraceId.map strip))).getD generated

def boundTraceId (traceId generated : String) : String := orElse (some (strip traceId)) generated

structure WebhookRequest where
  url : String
  body : String
  eventType : String
  traceId : String
  deriving DecidableEq, Repr

variable (net : Net) (resolver : Resolver)

def webhookJob (row : Outbox) (project : Option ProjectRecord) : WebhookJob where
  row := some row
  project := project
  forceSend := forceSend (rowPayload row)
  body := .ok (bodyText (rowPayload row))

/-- The request that a delivery of the row makes, if it makes one. A new trace id is drawn once at
most: it is not blank. -/
def webhookRequest (row : Outbox) (project : Option ProjectRecord)
    (fallbackTraceId : Option String) (generated : String) : Option WebhookRequest :=
  match deliverWebhook net resolver (webhookJob row project) with
  | .posted url body _ =>
    let canonical := resolveTransportTraceId (some row) fallbackTraceId generated
    some ⟨url, body, row.message.eventType,
      boundTraceId (boundTraceId canonical generated) generated⟩
  | _ => none

end Delivering

section OneRow

variable {row : Outbox} {d : Dispatch} {sha256 : ByteArray → String}

theorem normalizedPayload_dispatch (d : Dispatch) :
    normalizedPayload d.transportPayload d.traceId none none none =
      [("body", .object d.payload.fields), ("__transport_meta", .object
        (("force_send", .scalar (.bool d.forceSend)) ::
          if strip d.traceId = "" then [] else [("trace_id", .string (strip d.traceId))]))] := by
  by_cases htrace : strip d.traceId = ""
  · rw [normalizedPayload, if_pos htrace, if_pos htrace]
    rfl
  · rw [normalizedPayload, if_neg htrace, if_neg htrace]
    rfl

theorem rowPayload_of_column {fields : Fields Value} (h : row.message.payload = column fields) :
    rowPayload row = fields := by
  rw [rowPayload, h, column]
  simp only [String.toList_ofList, parse_compact TransportDedupe.readable_text]

/-- The row holds what the call has asked for. -/
structure Holds (row : Outbox) (d : Dispatch) : Prop where
  kind : row.message.kind = .webhook
  projectId : row.message.projectId = d.projectId
  eventType : row.message.eventType = d.eventType
  destination : row.message.destination = d.overrideUrl
  payload : row.message.payload =
    column (normalizedPayload d.transportPayload d.traceId none none none)

theorem Holds.rowPayload (h : Holds row d) : rowPayload row =
    [("body", .object d.payload.fields), ("__transport_meta", .object
      (("force_send", .scalar (.bool d.forceSend)) ::
        if strip d.traceId = "" then [] else [("trace_id", .string (strip d.traceId))]))] := by
  rw [rowPayload_of_column h.payload, normalizedPayload_dispatch]

theorem Holds.forceSend (h : Holds row d) :
    forceSend (WebhookChain.rowPayload row) = d.forceSend := by
  rw [h.rowPayload]
  rfl

theorem Holds.bodyText (h : Holds row d) :
    parse Scalar.read (bodyText (WebhookChain.rowPayload row)).toList =
      some (.object d.payload.fields) := by
  have hbody : bodyPayload (WebhookChain.rowPayload row) = d.payload.fields := by
    rw [h.rowPayload]
    rfl
  rw [WebhookChain.bodyText, hbody, String.toList_ofList,
    parse_compact TransportDedupe.readable_text]

theorem boundTraceId_strip {traceId generated : String} (h : strip traceId ≠ "") :
    boundTraceId (strip traceId) generated = strip traceId := by
  rw [boundTraceId, strip_strip, orElse_of_ne h]

theorem Holds.traceId (h : Holds row d) (htrace : strip d.traceId ≠ "")
    (fallbackTraceId : Option String) (generated : String) :
    boundTraceId (boundTraceId (resolveTransportTraceId (some row) fallbackTraceId generated)
      generated) generated = strip d.traceId := by
  have hstored : storedTraceId row = some (strip d.traceId) := by
    rw [storedTraceId, h.rowPayload, if_neg htrace]
    show truthy (some (strip (strip d.traceId))) = _
    rw [strip_strip, truthy, Option.filter_some, if_pos (by simpa using htrace)]
  rw [resolveTransportTraceId, Option.bind_some, hstored, Option.some_or, Option.getD_some,
    boundTraceId_strip htrace, boundTraceId_strip htrace]

theorem webhookRequest_spec {net : Net} {resolver : Resolver} {project : Option ProjectRecord}
    {fallbackTraceId : Option String} {generated : String} {request : WebhookRequest}
    (h : webhookRequest net resolver row project fallbackTraceId generated = some request) :
    request.body = bodyText (rowPayload row) ∧ request.eventType = row.message.eventType ∧
      request.traceId = boundTraceId (boundTraceId
        (resolveTransportTraceId (some row) fallbackTraceId generated) generated) generated ∧
      targetUrl (webhookJob row project) = .ok request.url := by
  have hbody : (webhookJob row project).body = .ok (bodyText (rowPayload row)) := rfl
  unfold webhookRequest deliverWebhook at h
  cases htarget : targetUrl (webhookJob row project) with
  | error reason => simp [htarget] at h
  | ok url =>
    cases hsafe : ensureWebhookUrlIsSafe net false (resolver 0) url with
    | error e => simp [htarget, hbody, hsafe] at h
    | ok checked =>
      simp only [htarget, hbody, hsafe, Option.some.injEq] at h
      subst h
      simp only [and_self]

end OneRow

/-- What happens to the outbox: webhooks and mails are enqueued, and workers execute jobs. -/
inductive Traffic
  | webhook (d : Dispatch) (newId : String) (now : ℕ) (replies : QueueReplies)
  | mail (message : Message) (newId : String) (now : ℕ) (replies : QueueReplies)
      (hemail : message.kind = .email)
  | job (job : DeliveryJob)

section Runs

variable (config : Config) (dedupeKey : String → FailureReport → String)
variable (sha256 : ByteArray → String)

def handle (w : World) : Traffic → World
  | .webhook d newId now replies => (enqueue config (d.call sha256 newId now replies) w).2
  | .mail message newId now replies _ => (enqueue config ⟨message, newId, now, replies, none⟩ w).2
  | .job job => (processOutboxDelivery config dedupeKey job w).2

def runFrom (w : World) (traffic : List Traffic) : World :=
  traffic.foldl (handle config dedupeKey sha256) w

/-- Rows keep their messages, and those of new rows are among the given ones. -/
structure Messages (w w' : World) (new : Message → Prop) : Prop where
  kept : ∀ id row, w.rows.get id = some row →
    ∃ row', w'.rows.get id = some row' ∧ row'.message = row.message
  origin : ∀ id row', w'.rows.get id = some row' →
    (∃ row, w.rows.get id = some row ∧ row'.message = row.message) ∨ new row'.message

variable {config dedupeKey sha256} {w w' w'' : World} {new : Message → Prop}

theorem Messages.refl (w : World) (new : Message → Prop) : Messages w w new :=
  ⟨fun _ row hrow => ⟨row, hrow, rfl⟩, fun _ row hrow => .inl ⟨row, hrow, rfl⟩⟩

theorem Messages.trans (h : Messages w w' new) (h' : Messages w' w'' new) :
    Messages w w'' new := by
  constructor
  · intro id row hrow
    obtain ⟨row', hrow', hmessage⟩ := h.kept id row hrow
    obtain ⟨row'', hrow'', hmessage'⟩ := h'.kept id row' hrow'
    exact ⟨row'', hrow'', hmessage'.trans hmessage⟩
  · intro id row'' hrow''
    rcases h'.origin id row'' hrow'' with ⟨row', hrow', hmessage'⟩ | hnew
    · rw [hmessage']
      exact h.origin id row' hrow'
    · exact .inr hnew

theorem Messages.of_update (id : String) (f : Outbox → Outbox)
    (hrows : w'.rows = w.rows.update id f)
    (hf : ∀ row, w.rows.get id = some row → (f row).message = row.message) :
    Messages w w' new := by
  constructor
  · intro id' row hrow
    rw [hrows, Table.get_update]
    by_cases hid : id' = id
    · subst hid
      exact ⟨f row, by simp [hrow], hf row hrow⟩
    · exact ⟨row, by simp [hid, hrow], rfl⟩
  · intro id' row' hrow'
    rw [hrows, Table.get_update] at hrow'
    by_cases hid : id' = id
    · subst hid
      rw [if_pos rfl] at hrow'
      obtain ⟨row, hrow, rfl⟩ := Option.map_eq_some_iff.mp hrow'
      exact .inl ⟨row, hrow, hf row hrow⟩
    · rw [if_neg hid] at hrow'
      exact .inl ⟨row', hrow', rfl⟩

theorem enqueue_messages {c : EnqueueCall} (hnew : new c.stored) :
    Messages w (enqueue config c w).2 new := by
  have heffect := enqueue_effect config c w
  generalize (enqueue config c w).1 = o at heffect
  generalize (enqueue config c w).2 = w' at heffect ⊢
  have hinsert : ∀ rows, w.rows.insert c.newId (c.row config) = some rows →
      ∀ w', w'.rows = rows → Messages w w' new := by
    rintro rows hins w' rfl
    refine ⟨fun id row hrow => ⟨row, Table.get_insert_of_get hins hrow, rfl⟩,
      fun id row' hrow' => ?_⟩
    rw [Table.get_insert hins] at hrow'
    by_cases hid : id = c.newId
    · rw [if_pos hid] at hrow'
      rw [← Option.some.inj hrow']
      exact .inr hnew
    · rw [if_neg hid] at hrow'
      exact .inl ⟨row', hrow', rfl⟩
  cases heffect with
  | blank e hkey => exact .refl w new
  | found id row hkey hslot => exact .refl w new
  | taken e hslot hid => exact .refl w new
  | queued rows hkey hslot hins hq => exact hinsert rows hins _ rfl
  | dropped rows e hkey hslot hins hq => exact hinsert rows hins _ rfl

theorem recordFailure_messages (job : DeliveryJob) (row : Outbox) (error : String × String)
    (w : World) (hmail : ∀ row project, new (failureEmailCall dedupeKey job row project).stored) :
    Messages w (recordFailure config dedupeKey job row error w).2 new := by
  have hmarked : ∀ nextAttemptAt dead w', w'.rows =
      markFailed job.outboxId job.markedAt error nextAttemptAt dead w.rows →
      Messages w w' new :=
    fun _ _ _ hrows => .of_update _ _ hrows fun _ _ => rfl
  unfold recordFailure
  split
  next =>
    dsimp only
    split
    next =>
      refine .trans (hmarked none true { w with rows := _ } rfl) ?_
      unfold enqueueWebhookFailureEmail
      split
      next => exact .refl _ new
      next =>
        split
        next => exact .refl _ new
        next => exact enqueue_messages (hmail _ _)
    next => exact hmarked none true _ rfl
  next delay =>
    dsimp only
    split
    next => exact hmarked _ _ _ rfl
    next => exact hmarked _ _ _ rfl

theorem processOutboxDelivery_messages (job : DeliveryJob) (w : World)
    (hmail : ∀ row project, new (failureEmailCall dedupeKey job row project).stored) :
    Messages w (processOutboxDelivery config dedupeKey job w).2 new := by
  rcases claimForSend_cases job.outboxId job.claimedAt w.rows with hnone | ⟨row, hrow, hc, _⟩
  · rw [processOutboxDelivery, hnone]
    exact .refl w new
  · rw [processOutboxDelivery_of_claimable config dedupeKey hrow hc]
    have hclaimed : Messages w { w with
        rows := w.rows.update job.outboxId fun _ => row.claimed job.claimedAt
        tried := job.outboxId :: w.tried } new := by
      refine .of_update job.outboxId (fun _ => row.claimed job.claimedAt) rfl fun row' hrow' => ?_
      rw [← Option.some.inj (hrow.symm.trans hrow')]
      rfl
    refine hclaimed.trans ?_
    unfold attempt
    split
    next =>
      exact .of_update job.outboxId (fun row => row.delivered job.markedAt) rfl fun _ _ => rfl
    next e _ =>
      split
      · split
        · exact .refl _ new
        next error _ => exact recordFailure_messages job _ error _ hmail
      · exact .refl _ new

/-- A message of a webhook is one that some call of the dispatcher has stored. -/
def Dispatched (sha256 : ByteArray → String) (message : Message) : Prop :=
  message.kind = .webhook → ∃ d : Dispatch, ∃ newId now replies,
    message = (d.call sha256 newId now replies).stored

theorem handle_messages (w : World) (traffic : Traffic) :
    Messages w (handle config dedupeKey sha256 w traffic) (Dispatched sha256) := by
  have hmail : ∀ message : Message, message.kind = .email → Dispatched sha256 message := by
    intro message hemail hwebhook
    rw [hemail] at hwebhook
    cases hwebhook
  cases traffic with
  | webhook d newId now replies =>
    exact enqueue_messages fun _ => ⟨d, newId, now, replies, rfl⟩
  | mail message newId now replies hemail => exact enqueue_messages (hmail _ hemail)
  | job job => exact processOutboxDelivery_messages job w fun _ _ => hmail _ rfl

variable (config dedupeKey sha256) in
theorem runFrom_messages (w : World) (traffic : List Traffic) :
    Messages w (runFrom config dedupeKey sha256 w traffic) (Dispatched sha256) := by
  induction traffic generalizing w with
  | nil => exact .refl w _
  | cons t traffic ih => exact (handle_messages w t).trans (ih _)

theorem identity_notification (d : Dispatch) :
    TransportDedupe.identity d.notification = .object d.transportPayload := rfl

theorem same_of_key {d d' : Dispatch} (hinjective : Function.Injective sha256)
    (h : buildTransportDedupeKey sha256 d.notification =
      buildTransportDedupeKey sha256 d'.notification) :
    d.eventType = d'.eventType ∧ d.overrideUrl = d'.overrideUrl ∧ d.forceSend = d'.forceSend ∧
      Same (.object d.payload.fields) (.object d'.payload.fields) := by
  obtain ⟨-, -, hevent, hdestination, -, hpayload⟩ :=
    TransportDedupe.sameNotification_of_key hinjective h
  rw [identity_notification, identity_notification] at hpayload
  refine ⟨hevent, hdestination, ?_⟩
  cases hpayload with
  | object hnames hvalues =>
    refine ⟨?_, hvalues "body" _ _ rfl rfl⟩
    have hmembers := hvalues "__transport_meta" _ _ rfl rfl
    cases hmembers with
    | object hnames hvalues =>
      have hforce := hvalues "force_send" _ _ rfl rfl
      generalize d.forceSend = force at hforce ⊢
      generalize d'.forceSend = force' at hforce ⊢
      cases hforce
      rfl

theorem targetUrl_ok {job : WebhookJob} {url : String} (h : targetUrl job = .ok url) :
    ∃ row project, job.row = some row ∧ job.project = some project ∧
      (job.forceSend = true ∨
        project.webhookEnabled = true ∧ truthy project.webhookUrl ≠ none) ∧
      (truthy row.message.destination).or (truthy project.webhookUrl) = some url := by
  unfold targetUrl at h
  split at h
  next => simp at h
  next row hrow =>
    split at h
    next => simp at h
    next project hproject =>
      split at h
      next => simp at h
      next hopen =>
        split at h
        next => simp at h
        next url' hurl =>
          refine ⟨row, project, hrow, hproject, ?_, hurl.trans (congrArg some (Except.ok.inj h))⟩
          by_cases hforce : job.forceSend = true
          · exact .inl hforce
          · have hforce : job.forceSend = false := Bool.eq_false_iff.mpr hforce
            rw [not_and, not_or] at hopen
            have hboth := hopen hforce
            exact .inr ⟨Bool.eq_true_of_not_eq_false hboth.1, hboth.2⟩

/-- A call finds the row of an earlier one that had its key. -/
theorem enqueue_again {w : World} {c : EnqueueCall} {id : String} {row : Outbox}
    (hkey : c.stored.dedupeKey ≠ "") (hrow : w.rows.get id = some row)
    (hslot : row.message.slot = c.stored.slot)
    (honly : ∀ id' row', w.rows.get id' = some row' → id' = id) :
    (enqueue config c w).1 = .ok id := by
  have hfound : getBySlot w.rows c.stored.slot ≠ none := by
    intro hnone
    rw [getBySlot, List.find?_eq_none] at hnone
    exact hnone (id, row) (Table.mem_rows_iff.mpr hrow) (decide_eq_true hslot)
  have heffect := enqueue_effect config c w
  generalize (enqueue config c w).1 = o at heffect ⊢
  generalize (enqueue config c w).2 = w' at heffect
  cases heffect with
  | blank e hblank => exact absurd hblank hkey
  | found id' row' _ hget => rw [honly id' row' (getBySlot_eq_some hget).1]
  | taken e hnone => exact absurd hnone hfound
  | queued rows _ hnone => exact absurd hnone hfound
  | dropped rows e _ hnone => exact absurd hnone hfound

theorem slot_call (d : Dispatch) (newId : String) (now : ℕ) (replies : QueueReplies) :
    (d.call sha256 newId now replies).stored.slot = ⟨d.projectId, .webhook,
      strip (buildTransportDedupeKey sha256 d.notification)⟩ := rfl

/-- What the outbox holds for a call of the dispatcher that returns: the call's own row, or that of
an earlier call with the same key. -/
theorem enqueue_holds {w : World} {d : Dispatch} {newId : String} {now : ℕ}
    {replies : QueueReplies} {id : String} (hinjective : Function.Injective sha256)
    (hstrip : ∀ bytes, strip (sha256 bytes) = sha256 bytes)
    (hw : ∀ id row, w.rows.get id = some row → Dispatched sha256 row.message)
    (h : (enqueue config (d.call sha256 newId now replies) w).1 = .ok id) :
    ∃ row d', (enqueue config (d.call sha256 newId now replies) w).2.rows.get id = some row ∧
      Holds row d' ∧ d'.projectId = d.projectId ∧ d'.eventType = d.eventType ∧
      d'.overrideUrl = d.overrideUrl ∧ d'.forceSend = d.forceSend ∧
      Same (.object d'.payload.fields) (.object d.payload.fields) ∧
      (w.rows.get id = none → d' = d) := by
  have heffect := enqueue_effect config (d.call sha256 newId now replies) w
  generalize (enqueue config (d.call sha256 newId now replies) w).1 = o at heffect h
  generalize (enqueue config (d.call sha256 newId now replies) w).2 = w' at heffect ⊢
  cases heffect with
  | blank e hkey => simp at h
  | taken e hslot hid => simp at h
  | dropped rows e hkey hslot hins hq => simp at h
  | queued rows hkey hslot hins hq =>
    obtain rfl := Except.ok.inj h
    refine ⟨_, d, Table.get_insert hins newId |>.trans (if_pos rfl), ⟨rfl, rfl, rfl, rfl, rfl⟩,
      rfl, rfl, rfl, rfl, Same.refl _, fun _ => rfl⟩
  | found id' row hkey hslot =>
    obtain rfl := Except.ok.inj h
    obtain ⟨hrow, hslot⟩ := getBySlot_eq_some hslot
    have hkind : row.message.kind = .webhook := congrArg Slot.kind hslot
    have hproject : row.message.projectId = d.projectId := congrArg Slot.projectId hslot
    -- the row that is found was created by an earlier dispatch
    obtain ⟨d', newId', now', replies', hmessage⟩ := hw _ row hrow hkind
    have hkeys := congrArg Slot.dedupeKey hslot
    have hkey : buildTransportDedupeKey sha256 d'.notification =
        buildTransportDedupeKey sha256 d.notification := by
      have hstored : row.message.dedupeKey = strip (d.message sha256).dedupeKey := hkeys
      rw [hmessage] at hstored
      exact (hstrip _).symm.trans (hstored.trans (hstrip _))
    -- which has the same key, and so the same content
    obtain ⟨hevent, hurl, hforce, hsame⟩ := same_of_key hinjective hkey
    have hholds : Holds row d' := by
      rw [hmessage] at hkind
      exact ⟨by rw [hmessage]; rfl, by rw [hmessage]; rfl, by rw [hmessage]; rfl,
        by rw [hmessage]; rfl, by rw [hmessage]; rfl⟩
    exact ⟨row, d', hrow, hholds, hholds.projectId.symm.trans hproject, hevent, hurl, hforce,
      hsame, fun hnone => by simp [hrow] at hnone⟩

/-- A call of the dispatcher that returns, in any traffic: its row stays, and whenever a worker
makes a request for that row, in whatever attempt, a reader of the request's body gets the payload
of the call back, the event type is that of the call, the URL is that of the call or else that of
the project, and if the call created the row, the payload is the one handed in to the letter and the
trace id that of the call. -/
theorem webhook_carried (config : Config) (dedupeKey : String → FailureReport → String)
    (sha256 : ByteArray → String) (hinjective : Function.Injective sha256)
    (hstrip : ∀ bytes, strip (sha256 bytes) = sha256 bytes) (before later : List Traffic)
    (d : Dispatch) (newId : String) (now : ℕ) (replies : QueueReplies) (id : String) :
    let w := runFrom config dedupeKey sha256 ⟨Table.empty, [], [], []⟩ before
    let w' := runFrom config dedupeKey sha256 w (.webhook d newId now replies :: later)
    (enqueue config (d.call sha256 newId now replies) w).1 = .ok id →
    ∃ row, w'.rows.get id = some row ∧ row.message.kind = .webhook ∧
      row.message.projectId = d.projectId ∧
      ∀ net resolver project fallbackTraceId generated request,
        webhookRequest net resolver row project fallbackTraceId generated = some request →
        (∃ body, parse Scalar.read request.body.toList = some body ∧
          Same body (.object d.payload.fields)) ∧
        request.eventType = d.eventType ∧
        (∃ p, project = some p ∧
          (d.forceSend = true ∨ p.webhookEnabled = true ∧ truthy p.webhookUrl ≠ none) ∧
          (truthy d.overrideUrl).or (truthy p.webhookUrl) = some request.url) ∧
        (w.rows.get id = none →
          parse Scalar.read request.body.toList = some (.object d.payload.fields) ∧
            (strip d.traceId ≠ "" → request.traceId = strip d.traceId)) := by
  intro w w' hret
  have hw : ∀ id row, w.rows.get id = some row → Dispatched sha256 row.message := by
    intro id row hrow
    rcases (runFrom_messages config dedupeKey sha256 _ before).origin id row hrow with
      ⟨row', hrow', _⟩ | hnew
    · simp at hrow'
    · exact hnew
  obtain ⟨row, d', hrow, hholds, hproject, hevent, hurl, hforce, hsame, hown⟩ :=
    enqueue_holds hinjective hstrip hw hret
  -- later traffic changes the row, but not its message
  obtain ⟨row', hrow', hmessage⟩ :=
    (runFrom_messages config dedupeKey sha256 _ later).kept id row hrow
  have hholds' : Holds row' d' := ⟨by rw [hmessage, hholds.kind], by rw [hmessage, hholds.projectId],
    by rw [hmessage, hholds.eventType], by rw [hmessage, hholds.destination],
    by rw [hmessage, hholds.payload]⟩
  refine ⟨row', hrow', hholds'.kind, hholds'.projectId.trans hproject, ?_⟩
  intro net resolver project fallbackTraceId generated request hrequest
  -- the request is made of the message alone
  obtain ⟨hbody, hevent', htrace, htarget⟩ := webhookRequest_spec hrequest
  refine ⟨⟨_, hbody ▸ hholds'.bodyText, hsame⟩, hevent'.trans (hholds'.eventType.trans hevent), ?_,
    fun hnone => ?_⟩
  · obtain ⟨row'', p, hrow'', hp, hopen, htarget⟩ := targetUrl_ok htarget
    obtain rfl : row' = row'' := Option.some.inj hrow''
    rw [hholds'.destination, hurl] at htarget
    refine ⟨p, hp, ?_, htarget⟩
    rw [← hforce, ← hholds'.forceSend]
    exact hopen
  · obtain rfl := hown hnone
    refine ⟨hbody ▸ hholds'.bodyText, fun hblank => ?_⟩
    rw [htrace]
    exact hholds'.traceId hblank fallbackTraceId generated

end Runs

/-- A digest that keeps all texts apart and has no space at its ends. -/
def framedDigest (bytes : ByteArray) : String := "[" ++ TransportDedupe.sampleDigest bytes ++ "]"

theorem framedDigest_injective : Function.Injective framedDigest := by
  intro a b h
  apply TransportDedupe.sampleDigest_injective
  have hlists := congrArg String.toList h
  simp only [framedDigest, String.toList_append, List.append_cancel_right_eq,
    List.append_cancel_left_eq] at hlists
  exact String.toList_injective hlists

theorem strip_framedDigest (bytes : ByteArray) : strip (framedDigest bytes) = framedDigest bytes := by
  have hchars : (framedDigest bytes).toList =
      '[' :: ((TransportDedupe.sampleDigest bytes).toList ++ [']']) := by
    simp [framedDigest]
  have hends : stripChars (framedDigest bytes).toList = (framedDigest bytes).toList := by
    apply stripChars_of_ends
    · intro c hc
      rw [hchars] at hc
      rw [← Option.some.inj hc]
      decide
    · intro c hc
      rw [hchars, ← List.cons_append, List.getLast?_concat] at hc
      rw [← Option.some.inj hc]
      decide
  rw [strip, hends, String.ofList_toList]

def sampleDispatch : Dispatch where
  projectId := "p1"
  payload := (TransportDedupe.opened none).payload
  eventType := "incident.opened"
  traceId := " t1 "

def sampleEarlier : Dispatch := { sampleDispatch with traceId := "t0" }

def sampleJob : DeliveryJob where
  outboxId := "a"
  claimedAt := 1
  failedAt := 1
  markedAt := 2
  delivery := .ok ()

/-- An earlier call with the key of `sampleDispatch`, and the delivery of its row. -/
def sampleTraffic : List Traffic := [.webhook sampleEarlier "a" 0 {}, .job sampleJob]

theorem sampleKey_ne (d : Dispatch) (newId : String) (now : ℕ) (replies : QueueReplies) :
    (d.call framedDigest newId now replies).stored.dedupeKey ≠ "" := by
  show strip (framedDigest _) ≠ ""
  rw [strip_framedDigest]
  intro h
  have hlength := congrArg String.length h
  simp [framedDigest] at hlength

/-- The row of the earlier call after its delivery. -/
def sampleRow : Outbox :=
  ((newRow (sampleEarlier.call framedDigest "a" 0 {}).stored (maxAttempts {} .webhook) 0).claimed
    1).delivered 2

theorem sampleTraffic_rows :
    (runFrom {} (fun id _ => id) framedDigest ⟨Table.empty, [], [], []⟩ sampleTraffic).rows.rows =
      [("a", sampleRow)] := by
  have hkey : (sampleEarlier.call framedDigest "a" 0 {}).stored.dedupeKey ≠ "" := sampleKey_ne _ _ _ _
  rw [runFrom, sampleTraffic, List.foldl_cons, List.foldl_cons, List.foldl_nil, handle, handle,
    sampleRow]
  rw [enqueue, if_neg hkey]
  have hkind : (sampleEarlier.message framedDigest).kind = .webhook := rfl
  rw [Dispatch.call]
  generalize sampleEarlier.message framedDigest = message at hkind
  obtain ⟨_, _⟩ := message
  obtain rfl := hkind
  rfl

theorem sampleDispatch_found :
    (enqueue {} (sampleDispatch.call framedDigest "b" 5 {})
      (runFrom {} (fun id _ => id) framedDigest ⟨Table.empty, [], [], []⟩ sampleTraffic)).1 =
        .ok "a" := by
  have hsame : sampleEarlier.notification = sampleDispatch.notification := rfl
  have hproject : sampleEarlier.projectId = sampleDispatch.projectId := rfl
  have hmessage : sampleRow.message = (sampleEarlier.call framedDigest "a" 0 {}).stored := rfl
  have hrow : (runFrom {} (fun id _ => id) framedDigest ⟨Table.empty, [], [], []⟩
      sampleTraffic).rows.get "a" = some sampleRow := by
    rw [← Table.mem_rows_iff, sampleTraffic_rows]
    exact List.mem_singleton_self _
  refine enqueue_again (sampleKey_ne sampleDispatch _ _ _) hrow ?_ ?_
  · rw [hmessage, slot_call, slot_call, hproject, hsame]
  · intro id row' hrow'
    rw [← Table.mem_rows_iff, sampleTraffic_rows] at hrow'
    exact congrArg Prod.fst (List.mem_singleton.mp hrow')

theorem webhook_carried_sample :
    let w := runFrom {} (fun id _ => id) framedDigest ⟨Table.empty, [], [], []⟩ sampleTraffic
    let w' := runFrom {} (fun id _ => id) framedDigest w
      [.webhook sampleDispatch "b" 5 {}, .job sampleJob]
    ∃ row, w'.rows.get "a" = some row ∧ row.message.kind = .webhook ∧
      row.message.projectId = "p1" ∧
      ∀ net resolver project fallbackTraceId generated request,
        webhookRequest net resolver row project fallbackTraceId generated = some request →
        (∃ body, parse Scalar.read request.body.toList = some body ∧
          Same body (.object sampleDispatch.payload.fields)) ∧
        request.eventType = "incident.opened" ∧
        (∃ p, project = some p ∧
          (sampleDispatch.forceSend = true ∨
            p.webhookEnabled = true ∧ truthy p.webhookUrl ≠ none) ∧
          (truthy sampleDispatch.overrideUrl).or (truthy p.webhookUrl) = some request.url) ∧
        (w.rows.get "a" = none →
          parse Scalar.read request.body.toList = some (.object sampleDispatch.payload.fields) ∧
            (strip sampleDispatch.traceId ≠ "" →
              request.traceId = strip sampleDispatch.traceId)) :=
  webhook_carried {} (fun id _ => id) framedDigest framedDigest_injective strip_framedDigest
    sampleTraffic [.job sampleJob] sampleDispatch "b" 5 {} "a" sampleDispatch_found

end Rheonic.WebhookChain
