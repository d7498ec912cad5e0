import Rheonic.EmailRegistry
import Rheonic.WebhookChain

namespace Rheonic.EmailDelivery
open PyText Json RowTable TransportOutbox TransportService TransportJob EmailTemplates
open TransportDedupe (Value Scalar Notification buildTransportDedupeKey)
open UserApi (ProjectRecord User)
open WebhookChain (column normalizedPayload truthyValue)

section Settings

/-- The settings that the delivery of mail reads. -/
structure Settings where
  emailProviderEnabled : Bool := false
  emailProvider : String := ""
  resendApiKey : String := ""
  emailFromAlerts : String := ""
  emailFromSystem : String := ""
  emailReplyTo : String := ""
  feedbackReportEmail : String := "feedback@rheonic.dev"
  resolvedPublicAppBaseUrl : String
  deriving DecidableEq

variable (unicode : UnicodeText)

def Settings.resolvedEmailProvider (settings : Settings) : String :=
  orElse (some (unicode.lower (strip settings.emailProvider)))
    (if strip settings.resendApiKey ≠ "" then "resend" else "")

def Settings.resolvedEmailProviderEnabled (settings : Settings) : Bool :=
  settings.emailProviderEnabled ||
    (settings.resolvedEmailProvider unicode = "resend" && strip settings.resendApiKey ≠ "")

/-- `_validate_email_configuration`, without which there are no settings. -/
def Settings.validateEmailConfiguration (settings : Settings) : Except Raised Settings :=
  let provider := settings.resolvedEmailProvider unicode
  if provider ≠ "" ∧ provider ≠ "resend" then
    .error ⟨.valueError, "EMAIL_PROVIDER must be 'resend' when configured"⟩
  else if settings.resolvedEmailProviderEnabled unicode = false then .ok settings
  else if provider ≠ "resend" then
    .error ⟨.valueError, "RESEND_API_KEY is required when email delivery is enabled"⟩
  else if strip settings.resendApiKey = "" then
    .error ⟨.valueError, "RESEND_API_KEY is required when email delivery is enabled"⟩
  else if strip settings.emailFromAlerts = "" then
    .error ⟨.valueError, "EMAIL_FROM_ALERTS is required when email delivery is enabled"⟩
  else if strip settings.emailFromSystem = "" then
    .error ⟨.valueError, "EMAIL_FROM_SYSTEM is required when email delivery is enabled"⟩
  else if strip settings.emailReplyTo = "" then
    .error ⟨.valueError, "EMAIL_REPLY_TO is required when email delivery is enabled"⟩
  else .ok settings

/-- What validation promises of settings that enable the delivery of mail. -/
structure Settings.Complete (settings : Settings) : Prop where
  provider : settings.resolvedEmailProvider unicode = "resend"
  apiKey : strip settings.resendApiKey ≠ ""
  fromAlerts : strip settings.emailFromAlerts ≠ ""
  fromSystem : strip settings.emailFromSystem ≠ ""

theorem Settings.complete_of_valid {settings : Settings}
    (h : settings.validateEmailConfiguration unicode = .ok settings)
    (henabled : settings.resolvedEmailProviderEnabled unicode = true) :
    settings.Complete unicode := by
  unfold validateEmailConfiguration at h
  by_cases hprovider : settings.resolvedEmailProvider unicode = "resend"
  · have hknown : ¬ (settings.resolvedEmailProvider unicode ≠ "" ∧
        settings.resolvedEmailProvider unicode ≠ "resend") := fun hne => hne.2 hprovider
    dsimp only at h
    rw [if_neg hknown, if_neg (by simp [henabled]), if_neg (not_not.mpr hprovider)] at h
    by_cases hkey : strip settings.resendApiKey = ""
    · simp [hkey] at h
    · by_cases halerts : strip settings.emailFromAlerts = ""
      · simp [hkey, halerts] at h
      · by_cases hsystem : strip settings.emailFromSystem = ""
        · simp [hkey, halerts, hsystem] at h
        · exact ⟨hprovider, hkey, halerts, hsystem⟩
  · dsimp only at h
    by_cases hblank : settings.resolvedEmailProvider unicode = ""
    · simp [hblank, henabled] at h
    · simp [hblank, hprovider] at h

end Settings

section Values

/-- `type(value).__name__`. -/
def typeName : Value → String
  | .scalar .null => "NoneType"
  | .scalar (.bool _) => "bool"
  | .scalar (.int _) => "int"
  | .scalar (.float _) => "float"
  | .string _ => "str"
  | .array _ => "list"
  | .object _ => "dict"

/-- What the templates read of JSON; the texts of floats, lists and dictionaries are left open. -/
def payloadValues (repr : Value → String) (dumps : Value → String)
    (formatIso : String → IsoTime) : PayloadValues Value where
  isNone v := v matches .scalar .null
  truthy := truthyValue
  str
    | .scalar .null => "None"
    | .scalar (.bool b) => if b then "True" else "False"
    | .scalar (.int n) => toString n
    | .string s => s
    | v => repr v
  int
    | .scalar (.bool b) => some (if b then 1 else 0)
    | .scalar (.int n) => some n
    | _ => none
  bool
    | .scalar (.bool b) => some b
    | _ => none
  dict
    | .object fields => some fields
    | _ => none
  dumps
    | .array items => some (dumps (.array items))
    | .object fields => some (dumps (.object fields))
    | _ => none
  formatIso := formatIso

end Values

section Resend

structure Attachment where
  filename : String
  content : String
  contentType : String

/-- What is posted to the provider: its key, and the members of the body, of which the optional
ones are left out. -/
structure EmailRequest where
  authorization : String
  sender : String
  recipient : String
  subject : String
  html : String
  text : Option String
  replyTo : Option String
  attachments : Option Attachment

/-- How a post to the provider ends. -/
inductive HttpReply
  | httpError (text : String)
  | response (statusCode : ℕ) (json : Except String Value) (text : String)

/-- `a or b`. -/
def valueOr (a b : Option Value) : Option Value := if a.any truthyValue then a else b

/-- What an object says of an error, under the first of its names that says something. -/
def errorDetail : Except String Value → Option Value
  | .ok (.object body) =>
    valueOr (valueOr (Fields.get body "message") (Fields.get body "name")) (Fields.get body "error")
  | _ => none

def providerErrorMessage (statusCode : ℕ) (json : Except String Value) (text : String) : String :=
  let spoken := match errorDetail json with
    | some (.string s) => strip s
    | _ => ""
  if spoken ≠ "" then s!"HTTP {statusCode}: " ++ spoken
  else if strip text ≠ "" then s!"HTTP {statusCode}: " ++ truncate 240 (strip text)
  else s!"HTTP {statusCode}"

/-- What `send` makes of the reply. A body that is no object fails after the mail was taken. -/
def afterPost : HttpReply → Except Raised Unit
  | .httpError text => .error ⟨.resendEmailTransport "email_provider_request_error", text⟩
  | .response statusCode json text =>
    if 200 ≤ statusCode ∧ statusCode < 300 then
      match json with
      | .error e => .error ⟨.resendEmailTransport "email_provider_response_error", e⟩
      | .ok (.object _) => .ok ()
      | .ok v =>
        .error ⟨.other "AttributeError", "'" ++ typeName v ++ "' object has no attribute 'get'"⟩
    else .error ⟨.resendEmailTransport "email_provider_http_error",
      providerErrorMessage statusCode json text⟩

inductive EmailTransport
  | null
  | resend (apiKey : String)

/-- `_build_email_transport`, with the constructor of the transport. -/
def buildEmailTransport (unicode : UnicodeText) (settings : Settings) :
    Except Raised EmailTransport :=
  let provider := settings.resolvedEmailProvider unicode
  if provider = "resend" then
    if strip settings.resendApiKey = "" then
      .error ⟨.resendEmailTransport "email_provider_not_configured", "Resend API key is missing"⟩
    else .ok (.resend (strip settings.resendApiKey))
  else if provider ≠ "" then
    .error ⟨.valueError, "unsupported email provider: " ++ provider⟩
  else .ok .null

/-- `send`: how it ends, and what it has posted. -/
def EmailTransport.send (reply : HttpReply) (compose : String → EmailRequest) :
    EmailTransport → Except Raised Unit × List EmailRequest
  | .null => (.error ⟨.emailProviderNotConfigured, "email provider not configured"⟩, [])
  | .resend apiKey => (afterPost reply, [compose apiKey])

end Resend

section Delivery

/-- `_SYSTEM_EMAIL_EVENTS`. -/
def systemEmailEvents : List String := ["feedback.submitted"]

/-- `_ALERT_EMAIL_EVENTS`. -/
def alertEmailEvents : List String :=
  ["protection.clamp_started", "protection.block", "incident.warn", "incident.resolved",
    "webhook.delivery_failed"]

def resolveEmailDestination (settings : Settings) (outbox : Outbox)
    (project : Option ProjectRecord) (getById : String → Option User) :
    Except Raised (Option String) :=
  if strip (orElse outbox.message.destination "") ≠ "" then
    .ok (some (strip (orElse outbox.message.destination "")))
  else if outbox.message.eventType = "feedback.submitted" then
    .ok (some (strip (orElse (some settings.feedbackReportEmail) "feedback@rheonic.dev")))
  else match project with
    | none => .ok none
    | some p =>
      if ¬ (p.protectEnabled = true ∧ p.emailEnabled = true) then .ok none
      else match truthy p.userId with
        | none => .error ⟨.valueError, "project owner is missing for alert email delivery"⟩
        | some userId =>
          match (getById userId).filter fun user => strip user.email ≠ "" with
          | none => .error ⟨.valueError, "project owner email is missing for alert email delivery"⟩
          | some user => .ok (some (strip user.email))

def resolveEmailSender (settings : Settings) (eventType : String) : Except Raised String :=
  if eventType ∈ systemEmailEvents then
    if strip settings.emailFromSystem ≠ "" then .ok (strip settings.emailFromSystem)
    else .error ⟨.valueError, "sender is missing for email event type: " ++ eventType⟩
  else if eventType ∈ alertEmailEvents then
    if strip settings.emailFromAlerts ≠ "" then .ok (strip settings.emailFromAlerts)
    else .error ⟨.valueError, "sender is missing for email event type: " ++ eventType⟩
  else .error ⟨.valueError, "unsupported email event type: " ++ eventType⟩

/-- A screenshot, if all three of its members are there. -/
def extractEmailAttachments (values : PayloadValues Value) (payload : Fields Value) :
    Option Attachment :=
  let name := strip (textOr values "" (payload.get "screenshot_name"))
  let contentType := strip (textOr values "" (payload.get "screenshot_content_type"))
  let content := strip (textOr values "" (payload.get "screenshot_base64"))
  if name = "" ∨ contentType = "" ∨ content = "" then none else some ⟨name, content, contentType⟩

/-- What a report about a webhook is as a payload. -/
def reportFields (isoformat : ℕ → String) (report : FailureReport) : Fields Value :=
  let optional (s : Option String) : Value := s.elim (.scalar .null) .string
  [("project_id", .string report.projectId), ("event_type", .string report.eventType),
    ("destination", optional report.destination),
    ("status", .string (match report.status with
      | .pending => "pending" | .sending => "sending" | .delivered => "delivered"
      | .failed => "failed" | .dead => "dead")),
    ("attempts", .scalar (.int report.attempts)),
    ("max_attempts", .scalar (.int report.maxAttempts)),
    ("last_error_code", optional report.lastErrorCode),
    ("last_error_message", optional report.lastErrorMessage),
    ("updated_at", .string (isoformat report.updatedAt))]

/-- `dict(outbox.payload or {})`. -/
def mailPayload (isoformat : ℕ → String) (outbox : Outbox) : Fields Value :=
  match outbox.message.payload with
  | .json _ => WebhookChain.rowPayload outbox
  | .failureReport report => reportFields isoformat report

inductive EmailOutcome
  | skipped (reason : String)
  | delivered (destination : String)

variable (unicode : UnicodeText) (values : PayloadValues Value) (isoformat : ℕ → String)
  (settings : Settings)

/-- The keyword arguments of `send`, and the key of the transport. -/
def composeEmail (outbox : Outbox) (message : EmailTemplates.Message)
    (sender destination subject apiKey : String) : EmailRequest where
  authorization := "Bearer " ++ apiKey
  sender := sender
  recipient := destination
  subject := subject
  html := message.html
  text := truthy (some message.text)
  replyTo := truthy (some (strip settings.emailReplyTo))
  attachments := extractEmailAttachments values (mailPayload isoformat outbox)

/-- `_deliver_email`: how it ends, and what it has posted to the provider. -/
def deliverEmail (outbox : Option Outbox) (getProject : String → Option ProjectRecord)
    (getById : String → Option User) (reply : HttpReply) :
    Except Raised EmailOutcome × List EmailRequest :=
  match outbox with
  | none => (.ok (.skipped "outbox_missing"), [])
  | some outbox =>
    match resolveEmailDestination settings outbox (getProject outbox.message.projectId) getById with
    | .error e => (.error e, [])
    | .ok none => (.ok (.skipped "email_disabled_or_missing_project"), [])
    | .ok (some destination) =>
      if destination = "" then (.error ⟨.valueError, "email destination is missing"⟩, [])
      else match truthy outbox.message.template with
        | none => (.error ⟨.valueError, "email template is required"⟩, [])
        | some template =>
          match renderTemplate unicode settings.resolvedPublicAppBaseUrl values template
              (mailPayload isoformat outbox) with
          | .error e => (.error e, [])
          | .ok message =>
            let subject := strip (orElse outbox.message.subject message.subject)
            if subject = "" then (.error ⟨.valueError, "email subject is required"⟩, [])
            else if settings.resolvedEmailProviderEnabled unicode = false then
              (.error ⟨.emailProviderNotConfigured, "email provider not configured"⟩, [])
            else match resolveEmailSender settings outbox.message.eventType with
              | .error e => (.error e, [])
              | .ok sender =>
                match buildEmailTransport unicode settings with
                | .error e => (.error e, [])
                | .ok transport =>
                  let sent := transport.send reply
                    (composeEmail values isoformat settings outbox message sender destination subject)
                  (sent.1.map fun _ => .delivered destination, sent.2)

end Delivery

section OneMail

/-- Whose address a mail may go to: that of the service for feedback, and for an alert that of the
owner of the project, which has to want both protection and mail. -/
def Recipient (settings : Settings) (outbox : Outbox) (getProject : String → Option ProjectRecord)
    (getById : String → Option User) (address : String) : Prop :=
  address ≠ "" ∧
    (outbox.message.eventType = "feedback.submitted" ∧
        address = strip (orElse (some settings.feedbackReportEmail) "feedback@rheonic.dev") ∨
      outbox.message.eventType ≠ "feedback.submitted" ∧ ∃ p userId user,
        getProject outbox.message.projectId = some p ∧ p.protectEnabled = true ∧
          p.emailEnabled = true ∧ p.userId = some userId ∧ userId ≠ "" ∧
          getById userId = some user ∧ address = strip user.email)

/-- The event types of mails with their templates. -/
def mailTemplates : List (String × String) :=
  [("feedback.submitted", "feedback_submitted"),
    ("protection.clamp_started", "protection_clamp_started"),
    ("protection.block", "protection_block"), ("incident.warn", "incident_warn"),
    ("incident.resolved", "incident_resolved"),
    ("webhook.delivery_failed", "webhook_delivery_failed")]

/-- A mail without an address or a subject of its own, on a template of its event. An alert says
which project it is about, which is that of its row. -/
structure Sendable (isoformat : ℕ → String) (outbox : Outbox) : Prop where
  destination : outbox.message.destination = none
  subject : outbox.message.subject = none
  template : ∃ template, outbox.message.template = some template ∧
    (outbox.message.eventType, template) ∈ mailTemplates
  project : outbox.message.eventType ≠ "feedback.submitted" →
    (mailPayload isoformat outbox).get "project_id" = some (.string outbox.message.projectId)

/-- The sender of its event, a subject, and a page that shows an email, which for an alert names the
project of the row. -/
structure Composed (unicode : UnicodeText) (settings : Settings) (outbox : Outbox)
    (request : EmailRequest) : Prop where
  sender : request.sender = strip (if outbox.message.eventType = "feedback.submitted" then
    settings.emailFromSystem else settings.emailFromAlerts)
  sender_ne : request.sender ≠ ""
  subject : strip request.subject ≠ ""
  page : ∃ email, Shows unicode settings.resolvedPublicAppBaseUrl email request.html ∧
    (outbox.message.eventType ≠ "feedback.submitted" →
      email.Names (orElse (some outbox.message.projectId) "-"))

variable {unicode : UnicodeText} {isoformat : ℕ → String} {settings : Settings} {outbox : Outbox}
  {getProject : String → Option ProjectRecord} {getById : String → Option User}

theorem resolveEmailDestination_of_recipient {address : String}
    (hdestination : outbox.message.destination = none)
    (h : Recipient settings outbox getProject getById address) :
    resolveEmailDestination settings outbox (getProject outbox.message.projectId) getById =
      .ok (some address) := by
  unfold resolveEmailDestination
  rw [hdestination, if_neg (by decide)]
  obtain ⟨hne, ⟨hfeedback, rfl⟩ | ⟨halert, p, userId, user, hp, hprotect, hemail, howner, hid, huser,
    rfl⟩⟩ := h
  · rw [if_pos hfeedback]
  · have howner' : truthy p.userId = some userId := by
      rw [truthy, howner]
      exact Option.filter_some_pos (by simpa using hid)
    have huser' : ((getById userId).filter fun user => strip user.email ≠ "") = some user := by
      rw [huser]
      exact Option.filter_some_pos (by simpa using hne)
    rw [if_neg halert, hp]
    simp only [hprotect, hemail, and_self, not_true, if_false, howner', huser']

theorem recipient_of_resolveEmailDestination {address : String}
    (hdestination : outbox.message.destination = none) (hne : address ≠ "")
    (h : resolveEmailDestination settings outbox (getProject outbox.message.projectId) getById =
      .ok (some address)) : Recipient settings outbox getProject getById address := by
  unfold resolveEmailDestination at h
  rw [hdestination, if_neg (by decide)] at h
  by_cases hfeedback : outbox.message.eventType = "feedback.submitted"
  · rw [if_pos hfeedback] at h
    exact ⟨hne, .inl ⟨hfeedback, (Option.some.inj (Except.ok.inj h)).symm⟩⟩
  · rw [if_neg hfeedback] at h
    refine ⟨hne, .inr ⟨hfeedback, ?_⟩⟩
    cases hp : getProject outbox.message.projectId with
    | none =>
      rw [hp] at h
      exact absurd (Except.ok.inj h) (Option.some_ne_none _).symm
    | some p =>
      rw [hp] at h
      dsimp only at h
      by_cases hwants : p.protectEnabled = true ∧ p.emailEnabled = true
      · rw [if_neg (not_not.mpr hwants)] at h
        cases howner : truthy p.userId with
        | none => simp [howner] at h
        | some userId =>
          simp only [howner] at h
          obtain ⟨huserId, hid⟩ := Option.filter_eq_some_iff.mp howner
          cases huser : (getById userId).filter fun user => strip user.email ≠ "" with
          | none =>
            simp only [huser] at h
            cases h
          | some user =>
            simp only [huser] at h
            exact ⟨p, userId, user, rfl, hwants.1, hwants.2, huserId, by simpa using hid,
              (Option.filter_eq_some_iff.mp huser).1, (Option.some.inj (Except.ok.inj h)).symm⟩
      · rw [if_pos hwants] at h
        exact absurd (Except.ok.inj h) (Option.some_ne_none _).symm

theorem mailTemplates_registered (values : PayloadValues Value) (baseUrl : String)
    {eventType template : String} (h : (eventType, template) ∈ mailTemplates) :
    template ∈ (templateRegistry unicode baseUrl values).map Prod.fst ∧ template ≠ "" ∧
      (eventType ≠ "feedback.submitted" → template ≠ "feedback_submitted") ∧
      (eventType = "feedback.submitted" ∨ eventType ∈ alertEmailEvents) := by
  simp only [mailTemplates, List.mem_cons, Prod.mk.injEq, List.not_mem_nil, or_false] at h
  rcases h with ⟨rfl, rfl⟩ | ⟨rfl, rfl⟩ | ⟨rfl, rfl⟩ | ⟨rfl, rfl⟩ | ⟨rfl, rfl⟩ | ⟨rfl, rfl⟩ <;>
    simp [templateRegistry, alertEmailEvents]

theorem resolveEmailSender_ok {eventType : String} (hcomplete : settings.Complete unicode)
    (hevent : eventType = "feedback.submitted" ∨ eventType ∈ alertEmailEvents) :
    ∃ sender, resolveEmailSender settings eventType = .ok sender ∧ sender ≠ "" ∧
      sender = strip (if eventType = "feedback.submitted" then settings.emailFromSystem
        else settings.emailFromAlerts) := by
  unfold resolveEmailSender
  by_cases hfeedback : eventType = "feedback.submitted"
  · have hmem : eventType ∈ systemEmailEvents := by rw [hfeedback]; exact List.mem_cons_self
    rw [if_pos hmem, if_pos hcomplete.fromSystem, if_pos hfeedback]
    exact ⟨_, rfl, hcomplete.fromSystem, rfl⟩
  · have hnot : eventType ∉ systemEmailEvents := fun hmem => hfeedback (List.mem_singleton.mp hmem)
    have halert := hevent.resolve_left hfeedback
    rw [if_neg hnot, if_pos halert, if_pos hcomplete.fromAlerts, if_neg hfeedback]
    exact ⟨_, rfl, hcomplete.fromAlerts, rfl⟩

theorem buildEmailTransport_ok (hcomplete : settings.Complete unicode) :
    buildEmailTransport unicode settings = .ok (.resend (strip settings.resendApiKey)) := by
  unfold buildEmailTransport
  dsimp only
  rw [if_pos hcomplete.provider, if_neg hcomplete.apiKey]

/-- The times that the mail of a row shows stay in the calendar. -/
def MailInCalendar (unicode : UnicodeText) (values : PayloadValues Value)
    (isoformat : ℕ → String) (outbox : Outbox) : Prop :=
  InCalendar unicode values (orElse outbox.message.template "") (mailPayload isoformat outbox)

/-- A mail of the given settings is posted exactly where there is someone to get it, the provider is
enabled and the times in it stay in the calendar; nothing else can hinder the post. -/
theorem deliverEmail_posts {values : PayloadValues Value}
    (hstr : ∀ s, textOr values "-" (some (.string s)) = orElse (some s) "-")
    (hvalid : settings.validateEmailConfiguration unicode = .ok settings)
    (hsend : Sendable isoformat outbox) (reply : HttpReply) :
    let posted :=
      (deliverEmail unicode values isoformat settings (some outbox) getProject getById reply).2
    (∀ address, Recipient settings outbox getProject getById address →
      settings.resolvedEmailProviderEnabled unicode = true →
      MailInCalendar unicode values isoformat outbox →
      ∃ request, posted = [request] ∧ request.recipient = address ∧
        Composed unicode settings outbox request) ∧
    ((∀ address, ¬ Recipient settings outbox getProject getById address) ∨
      settings.resolvedEmailProviderEnabled unicode = false ∨
      ¬ MailInCalendar unicode values isoformat outbox → posted = []) := by
  intro posted
  obtain ⟨template, htemplate, hmem⟩ := hsend.template
  obtain ⟨hregistered, hne, hnotFeedback, hevent⟩ := mailTemplates_registered values
    settings.resolvedPublicAppBaseUrl hmem
  obtain ⟨hrenders, hraises⟩ := renderTemplate_cases unicode settings.resolvedPublicAppBaseUrl
    values hregistered (mailPayload isoformat outbox)
  have htruthy : truthy outbox.message.template = some template := by
    rw [truthy, htemplate]
    exact Option.filter_some_pos (by simpa using hne)
  have hcalendar : MailInCalendar unicode values isoformat outbox ↔
      InCalendar unicode values template (mailPayload isoformat outbox) := by
    rw [MailInCalendar, htemplate, orElse_of_ne hne]
  -- the templates leave the subject of the row empty
  have hsubject : ∀ {message email},
      Presents unicode settings.resolvedPublicAppBaseUrl message email →
        strip (orElse outbox.message.subject message.subject) ≠ "" := by
    intro message email hpresents
    rw [hsend.subject]
    exact hpresents.subject
  constructor
  -- every step of the delivery succeeds, up to the request
  · intro address hrecipient henabled hin
    obtain ⟨message, email, hrender, hpresents, hnames⟩ := hrenders (hcalendar.mp hin)
    have hsubject := hsubject hpresents
    have hcomplete := settings.complete_of_valid unicode hvalid henabled
    obtain ⟨sender, hsender, hsender_ne, hsender_eq⟩ := resolveEmailSender_ok hcomplete hevent
    have hposted : posted = [composeEmail values isoformat settings outbox message sender address
        (strip (orElse outbox.message.subject message.subject)) (strip settings.resendApiKey)] := by
      simp only [posted, deliverEmail,
        resolveEmailDestination_of_recipient hsend.destination hrecipient, hrecipient.1, htruthy,
        hrender, hsubject, henabled, hsender, buildEmailTransport_ok hcomplete, if_false,
        EmailTransport.send, Bool.true_eq_false]
    refine ⟨_, hposted, rfl, hsender_eq, hsender_ne, ?_, email, hpresents.shows, fun halert => ?_⟩
    · show strip (strip _) ≠ ""
      rw [strip_strip]
      exact hsubject
    · have hname := hnames (hnotFeedback halert)
      rw [hsend.project halert, hstr] at hname
      exact hname
  · intro hnone
    show (deliverEmail unicode values isoformat settings (some outbox) getProject getById
      reply).2 = []
    unfold deliverEmail
    cases hdestination : resolveEmailDestination settings outbox
        (getProject outbox.message.projectId) getById with
    | error e => simp only [hdestination]
    | ok destination =>
      cases destination with
      -- the row has no destination, or the owner wants no mail
      | none => simp only [hdestination]
      | some address =>
        by_cases hblank : address = ""
        · simp only [hdestination, hblank, if_true]
        · have hrecipient := recipient_of_resolveEmailDestination hsend.destination hblank
            hdestination
          have hhindered := hnone.resolve_left fun h => h address hrecipient
          by_cases hin : InCalendar unicode values template (mailPayload isoformat outbox)
          · obtain ⟨message, email, hrender, hpresents, -⟩ := hrenders hin
            have hdisabled := hhindered.resolve_right fun hout => hout (hcalendar.mpr hin)
            simp only [hdestination, hblank, htruthy, hrender, hsubject hpresents, hdisabled,
              if_false, if_true]
          -- a time of the mail is out of the calendar
          · simp only [hdestination, hblank, htruthy, hraises hin, if_false]

end OneMail

section Producers

/-- The mails that the services enqueue; a failed webhook is reported by its worker. -/
inductive MailEvent
  | feedbackSubmitted
  | clampStarted
  | block
  | incidentWarn
  | incidentResolved

def MailEvent.eventType : MailEvent → String
  | feedbackSubmitted => "feedback.submitted"
  | clampStarted => "protection.clamp_started"
  | block => "protection.block"
  | incidentWarn => "incident.warn"
  | incidentResolved => "incident.resolved"

def MailEvent.template : MailEvent → String
  | feedbackSubmitted => "feedback_submitted"
  | clampStarted => "protection_clamp_started"
  | block => "protection_block"
  | incidentWarn => "incident_warn"
  | incidentResolved => "incident_resolved"

/-- A mail as a service enqueues it. The payload of feedback holds what the user has sent, that of
an alert the project under which it is enqueued. -/
structure MailCall where
  event : MailEvent
  projectId : String
  payload : TransportDedupe.Payload
  seed : Option String
  provider : Option String := none
  environment : Option String := none
  traceId : String := ""
  project : event.eventType ≠ "feedback.submitted" →
    Fields.get payload.fields "project_id" = some (.string projectId)

def MailCall.notification (c : MailCall) : Notification where
  projectId := c.projectId
  kind := .email
  eventType := c.event.eventType
  payload := c.payload
  seed := c.seed

def MailCall.message (sha256 : ByteArray → String) (c : MailCall) : TransportOutbox.Message where
  projectId := c.projectId
  kind := .email
  eventType := c.event.eventType
  template := some c.event.template
  payload := column
    (normalizedPayload c.payload.fields c.traceId none c.provider c.environment)
  dedupeKey := buildTransportDedupeKey sha256 c.notification

/-- What happens to the outbox: webhooks and mails are enqueued, and workers execute jobs. -/
inductive Event
  | webhook (d : WebhookChain.Dispatch) (newId : String) (now : ℕ) (replies : QueueReplies)
  | mail (c : MailCall) (newId : String) (now : ℕ) (replies : QueueReplies)
  | job (execution : DeliveryJob)

def Event.traffic (sha256 : ByteArray → String) : Event → WebhookChain.Traffic
  | .webhook d newId now replies => .webhook d newId now replies
  | .mail c newId now replies => .mail (c.message sha256) newId now replies rfl
  | .job execution => .job execution

variable {isoformat : ℕ → String}

theorem get_setDefault_of_ne {fields : Fields Value} {key other : String} (value : Value)
    (h : key ≠ other) : (WebhookChain.setDefault fields key value).get other = fields.get other := by
  unfold WebhookChain.setDefault
  split
  · rfl
  · exact Fields.get_set_of_ne fields value h

theorem get_setDefaultGiven_of_ne {fields : Fields Value} {key other : String}
    (value : Option String) (h : key ≠ other) :
    (WebhookChain.setDefaultGiven fields key value).get other = fields.get other := by
  cases value with
  | none => rfl
  | some s => exact get_setDefault_of_ne (.string s) h

theorem normalizedPayload_project (payload : Fields Value) (traceId : String)
    (severity provider environment : Option String) :
    (normalizedPayload payload traceId severity provider environment).get "project_id" =
      payload.get "project_id" := by
  unfold normalizedPayload
  rw [get_setDefaultGiven_of_ne _ (by decide), get_setDefaultGiven_of_ne _ (by decide),
    get_setDefaultGiven_of_ne _ (by decide)]
  generalize (if strip traceId = "" then WebhookChain.transportMeta payload
    else WebhookChain.setDefault (WebhookChain.transportMeta payload) "trace_id"
      (.string (strip traceId))) = members
  by_cases hempty : members.isEmpty = true
  · rw [if_pos hempty]
  · rw [if_neg hempty]
    exact Fields.get_set_of_ne payload _ (by decide)

theorem sendable_call {sha256 : ByteArray → String} {c : MailCall} {outbox : Outbox}
    {dedupeKey : String} (h : outbox.message = { c.message sha256 with dedupeKey := dedupeKey }) :
    Sendable isoformat outbox where
  destination := by rw [h]; rfl
  subject := by rw [h]; rfl
  template := by
    refine ⟨c.event.template, by rw [h]; rfl, ?_⟩
    have hevent : outbox.message.eventType = c.event.eventType := by rw [h]; rfl
    rw [hevent]
    cases c.event <;> simp [mailTemplates, MailEvent.eventType, MailEvent.template]
  project := by
    intro halert
    have hpayload : outbox.message.payload = column
        (normalizedPayload c.payload.fields c.traceId none c.provider c.environment) := by
      rw [h]; rfl
    have hproject : outbox.message.projectId = c.projectId := by rw [h]; rfl
    have hread : mailPayload isoformat outbox = WebhookChain.rowPayload outbox := by
      unfold mailPayload
      rw [hpayload]
      rfl
    rw [hread, WebhookChain.rowPayload_of_column hpayload, normalizedPayload_project, hproject]
    apply c.project
    have hevent : outbox.message.eventType = c.event.eventType := by rw [h]; rfl
    rwa [← hevent]

theorem sendable_report {outbox row : Outbox} {project : Project} {id dedupeKey : String}
    {key : String → FailureReport → String}
    (h : outbox.message = { failureEmail key id row project with dedupeKey := dedupeKey }) :
    Sendable isoformat outbox where
  destination := by rw [h]; rfl
  subject := by rw [h]; rfl
  template := by
    have hevent : outbox.message.eventType = "webhook.delivery_failed" := by rw [h]; rfl
    refine ⟨"webhook_delivery_failed", by rw [h]; rfl, ?_⟩
    rw [hevent]
    simp [mailTemplates]
  project := by
    intro _
    have hpayload : outbox.message.payload = .failureReport (failureReport row project) := by
      rw [h]; rfl
    have hproject : outbox.message.projectId = row.message.projectId := by rw [h]; rfl
    unfold mailPayload
    rw [hpayload, hproject]
    rfl

variable (isoformat) in
/-- A message that is of no mail, or of one that can be sent. -/
def MailSendable (message : TransportOutbox.Message) : Prop :=
  message.kind = .email → ∀ outbox : Outbox, outbox.message = message → Sendable isoformat outbox

variable (config : Config) (dedupeKey : String → FailureReport → String)
  (sha256 : ByteArray → String)

variable (isoformat) in
theorem event_messages (w : World) (event : Event) :
    WebhookChain.Messages w
      (WebhookChain.handle config dedupeKey sha256 w (event.traffic sha256))
      (MailSendable isoformat) := by
  cases event with
  | webhook d newId now replies =>
    apply WebhookChain.enqueue_messages
    intro hemail
    cases hemail
  | mail c newId now replies =>
    apply WebhookChain.enqueue_messages
    intro _ outbox houtbox
    exact sendable_call houtbox
  | job execution =>
    apply WebhookChain.processOutboxDelivery_messages
    intro row project _ outbox houtbox
    exact sendable_report houtbox

variable (isoformat) in
theorem run_messages (w : World) (events : List Event) :
    WebhookChain.Messages w
      (WebhookChain.runFrom config dedupeKey sha256 w (events.map (Event.traffic sha256)))
      (MailSendable isoformat) := by
  induction events generalizing w with
  | nil => exact .refl w _
  | cons event events ih =>
    exact (event_messages isoformat config dedupeKey sha256 w event).trans (ih _)

theorem textOr_string (repr dumps : Value → String) (formatIso : String → IsoTime)
    (s : String) : textOr (payloadValues repr dumps formatIso) "-" (some (.string s)) =
      orElse (some s) "-" := by
  by_cases hs : s = ""
  · rw [hs]
    rfl
  · show (if decide (s ≠ "") = true then s else "-") = if s = "" then "-" else s
    rw [if_pos (decide_eq_true hs), if_neg hs]

/-- In any traffic of the outbox, whenever a worker delivers a mail of it, under settings that have
passed their validation: if the provider is enabled, the times in the mail stay in the calendar and
there is someone whom it may go to, it is posted once, to them, from the sender of its event, with a
subject and a page that shows an email, which for an alert names the project of its row; and else
nothing is posted. The someone is the owner of that project, who wants protection and mail, or for
feedback the service itself. -/
theorem mail_reaches_owner (unicode : UnicodeText) (repr dumps : Value → String)
    (formatIso : String → IsoTime) (isoformat : ℕ → String) (settings : Settings)
    (hvalid : settings.validateEmailConfiguration unicode = .ok settings) (events : List Event) :
    let w := WebhookChain.runFrom config dedupeKey sha256 ⟨Table.empty, [], [], []⟩
      (events.map (Event.traffic sha256))
    ∀ id row, w.rows.get id = some row → row.message.kind = .email →
    ∀ now getProject getById reply,
      let posted := (deliverEmail unicode (payloadValues repr dumps formatIso) isoformat settings
        (some (row.claimed now)) getProject getById reply).2
      (∀ address, Recipient settings (row.claimed now) getProject getById address →
        settings.resolvedEmailProviderEnabled unicode = true →
        MailInCalendar unicode (payloadValues repr dumps formatIso) isoformat (row.claimed now) →
        ∃ request, posted = [request] ∧ request.recipient = address ∧
          Composed unicode settings (row.claimed now) request) ∧
      ((∀ address, ¬ Recipient settings (row.claimed now) getProject getById address) ∨
        settings.resolvedEmailProviderEnabled unicode = false ∨
        ¬ MailInCalendar unicode (payloadValues repr dumps formatIso) isoformat
          (row.claimed now) → posted = []) := by
  intro w id row hrow hemail now getProject getById reply
  apply deliverEmail_posts (textOr_string repr dumps formatIso) hvalid
  rcases (run_messages isoformat config dedupeKey sha256 _ events).origin id row hrow with
    ⟨row', hrow', _⟩ | hnew
  · simp at hrow'
  · exact hnew hemail _ rfl

/-- The methods of strings on ASCII. -/
def asciiText : UnicodeText where
  lower s := s.map Char.toLower
  capitalize s := match s.toList with
    | [] => ""
    | c :: cs => String.ofList (c.toUpper :: cs.map Char.toLower)
  title s := String.intercalate " " ((words s).map fun word => match word.toList with
    | [] => ""
    | c :: cs => String.ofList (c.toUpper :: cs.map Char.toLower))
  isUpper s := s.any Char.isUpper && !s.any Char.isLower
  isAlpha s := s ≠ "" && s.all Char.isAlpha

def sampleSettings : Settings where
  resendApiKey := "re_1"
  emailFromAlerts := "alerts@example.com"
  emailFromSystem := "system@example.com"
  emailReplyTo := "reply@example.com"
  resolvedPublicAppBaseUrl := "https://example.com"

theorem samplePayload_wellFormed :
    (Json.object [("project_id", (.string "p1" : Value))]).WellFormed :=
  .object (by simp) (by simpa using WellFormed.string _)

/-- An alert of the project `p1`. -/
def sampleMail : MailCall where
  event := .block
  projectId := "p1"
  payload := ⟨[("project_id", .string "p1")], samplePayload_wellFormed⟩
  seed := none
  project _ := rfl

theorem handle_mail (c : MailCall) (newId : String) (now : ℕ) (replies : QueueReplies) (w : World) :
    WebhookChain.handle config dedupeKey sha256 w
        ((Event.mail c newId now replies).traffic sha256) =
      (enqueue config ⟨c.message sha256, newId, now, replies, none⟩ w).2 := rfl

theorem enqueue_first {c : EnqueueCall} (hkey : c.stored.dedupeKey ≠ "") :
    (enqueue config c ⟨Table.empty, [], [], []⟩).2.rows.get c.newId = some (c.row config) := by
  have hcreated : createOrGetDeduped c.stored (maxAttempts config c.message.kind) c.newId c.now
      Table.empty = (some (c.newId, true), ⟨[(c.newId, c.row config)], by simp⟩) := rfl
  rw [enqueue, if_neg hkey]
  simp only [hcreated]
  cases callJobQueue c.replies with
  | ok => simp [Table.get]
  | error e => simp [Table.get]

theorem sampleMail_stored : (WebhookChain.runFrom {} (fun id _ => id) WebhookChain.framedDigest
    ⟨Table.empty, [], [], []⟩ ([Event.mail sampleMail "m1" 0 {}].map
      (Event.traffic WebhookChain.framedDigest))).rows.get "m1" = some (EnqueueCall.row {}
        ⟨sampleMail.message WebhookChain.framedDigest, "m1", 0, {}, none⟩) := by
  have hkey : (EnqueueCall.stored
      ⟨sampleMail.message WebhookChain.framedDigest, "m1", 0, {}, none⟩).dedupeKey ≠ "" := by
    show strip (WebhookChain.framedDigest _) ≠ ""
    rw [WebhookChain.strip_framedDigest]
    intro h
    have hlength := congrArg String.length h
    simp [WebhookChain.framedDigest] at hlength
  rw [WebhookChain.runFrom, List.map_singleton, List.foldl_cons, List.foldl_nil, handle_mail]
  exact enqueue_first {} hkey

theorem mail_reaches_owner_sample :
    ∃ request, (deliverEmail asciiText
        (payloadValues (fun _ => "") (fun _ => "") fun _ => .invalid)
        (fun _ => "") sampleSettings (some ((EnqueueCall.row {}
          ⟨sampleMail.message WebhookChain.framedDigest, "m1", 0, {}, none⟩).claimed 5))
        (fun _ => some ⟨"P", some "u1", true, "open", false, none, none, false, true, none, 0⟩)
        (fun _ => some ⟨"u1", "owner@example.com"⟩) (.response 200 (.ok (.object [])) "")).2 =
      [request] ∧ request.recipient = "owner@example.com" := by
  have hposts := (mail_reaches_owner {} (fun id _ => id) WebhookChain.framedDigest asciiText
    (fun _ => "") (fun _ => "") (fun _ => .invalid) (fun _ => "") sampleSettings (by decide +kernel)
    [Event.mail sampleMail "m1" 0 {}] "m1" _ sampleMail_stored rfl 5
    (fun _ => some ⟨"P", some "u1", true, "open", false, none, none, false, true, none, 0⟩)
    (fun _ => some ⟨"u1", "owner@example.com"⟩) (.response 200 (.ok (.object [])) "")).1
    "owner@example.com"
    ⟨by decide, .inr ⟨by decide, _, _, _, rfl, rfl, rfl, rfl, by decide, rfl, by decide +kernel⟩⟩
    (by decide +kernel) ⟨by decide +kernel, fun h => absurd h (by decide)⟩
  obtain ⟨request, hposted, hrecipient, _⟩ := hposts
  exact ⟨request, hposted, hrecipient⟩

end Producers

end Rheonic.EmailDelivery
