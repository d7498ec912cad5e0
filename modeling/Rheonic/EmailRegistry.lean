import Rheonic.EmailMarkup
import Rheonic.TransportService

namespace Rheonic.EmailTemplates
open PyText (strip orElse split stripOf)
open TransportService (Raised)

section Renderers

variable {ν : Type} (unicode : UnicodeText) (resolvedPublicAppBaseUrl : String)
  (values : PayloadValues ν)

/-- `_humanize_segment`. -/
def humanizeSegment (value : List Char) : String :=
  humanizeFieldLabel unicode (replace '-' " " (String.ofList value))

/-- The parts of a path, humanized, without the empty ones. -/
def humanizedPath (path : String) : String :=
  String.intercalate " / "
    (((split '/' path.toList).filter (· ≠ [])).map (humanizeSegment unicode))

def formatPageLocation (value : Option ν) : String :=
  let raw := strip (textOr values "" value)
  if raw = "" ∨ raw = "-" then "-"
  else
    let path := strip (String.ofList ((raw.toList.takeWhile (· ≠ '?')).takeWhile (· ≠ '#')))
    if path = "" then raw
    else if "/app/".toList.isPrefixOf path.toList then
      let part := stripOf '/' (String.ofList (path.toList.drop 5))
      if part = "" then "Dashboard" else "Dashboard / " ++ humanizedPath unicode part
    else if path = "/app" then "Dashboard"
    else if path.toList.head? = some '/' then
      orElse (some (humanizedPath unicode (stripOf '/' path))) raw
    else raw

/-- A renderer returns the subject beside what the layout renders. -/
def rendered (subject : String) (email : Email) : Message where
  subject := subject
  html := (renderBaseEmail unicode resolvedPublicAppBaseUrl email).html
  text := (renderBaseEmail unicode resolvedPublicAppBaseUrl email).text

/-- `str(v or "").strip() or default`. -/
def strippedOr (default : String) (value : Option ν) : String :=
  orElse (some (strip (textOr values "" value))) default

def reportLabel (payload : Fields ν) : String :=
  if strippedOr values "feedback" (payload.get "report_type") = "bug" then "Bug report"
  else "Product feedback"

/-- The email that `render_feedback_submitted` has rendered, unless it has raised. -/
def feedbackSubmitted (payload : Fields ν) : Option Email := do
  let timestamp ← formatTimestamp values (payload.get "timestamp")
  pure {
    eyebrow := none
    title := "Rheonic beta " ++ unicode.lower (reportLabel values payload)
    subtitle := "New product report received."
    fields :=
      [("report_type", reportLabel values payload),
        ("message", strip (textOr values "" (payload.get "message"))),
        ("email", strippedOr values "-" (payload.get "email")),
        ("user_id", strippedOr values "-" (payload.get "user_id")),
        ("user_email", strippedOr values "-" (payload.get "user_email")),
        ("project_id", strippedOr values "-" (payload.get "project_id")),
        ("page", formatPageLocation unicode values (payload.get "page")),
        ("mode", strippedOr values "-" (payload.get "mode")),
        ("timestamp", timestamp),
        ("app_version", strippedOr values "-" (payload.get "app_version")),
        ("screenshot",
          if strip (textOr values "" (payload.get "screenshot_name")) ≠ "" then "Attached"
          else "-")] }

def renderFeedbackSubmitted (payload : Fields ν) : Option Message :=
  (feedbackSubmitted unicode values payload).map
    (rendered unicode resolvedPublicAppBaseUrl
      ("Rheonic beta " ++ unicode.lower (reportLabel values payload)))

/-- The email that `render_protection_clamp_started` has rendered, unless it has raised. -/
def protectionClampStarted (payload : Fields ν) : Option Email := do
  let clamp := ((payload.get "clamp").bind values.dict).getD []
  let recommended := (clamp.get "recommended_max_output_tokens").filter
    fun v => (values.int v).isSome
  let sentAt ← formatTimestamp values (payload.get "sent_at")
  pure {
    eyebrow := none
    title := "Clamp started"
    subtitle :=
      "Protect is actively reducing output to keep traffic within the configured budget."
    fields :=
      [("Project ID", textOr values "-" (payload.get "project_id")),
        ("Provider", textOr values "-" (payload.get "provider")),
        ("Model", textOr values "-" (payload.get "requested_model")),
        ("Environment", textOr values "-" (payload.get "environment")),
        ("Action", "Clamp"),
        ("Reason", humanizeIncidentType unicode values (payload.get "reason")),
        ("Recommended max output tokens", (recommended.map values.str).getD "-"),
        ("Requests / 60s", textOr values "-" (payload.get "requests_60s")),
        ("Tokens / 60s", textOr values "-" (payload.get "tokens_60s")),
        ("Request cap", textOr values "-" (payload.get "req_cap")),
        ("Token cap", textOr values "-" (payload.get "tok_cap")),
        ("Estimated next tokens", textOr values "-" (payload.get "estimated_next_tokens")),
        ("Sent at", sentAt)] }

def renderProtectionClampStarted (payload : Fields ν) : Option Message :=
  (protectionClampStarted unicode values payload).map
    (rendered unicode resolvedPublicAppBaseUrl
      ("[Rheonic] Protect alert: Clamp started - " ++
        humanizeIncidentType unicode values (payload.get "reason") ++ " (" ++
        textOr values "-" (payload.get "project_id") ++ ")"))

/-- The email that `render_incident_resolved` has rendered, unless it has raised. -/
def incidentResolved (payload : Fields ν) : Option Email := do
  let resolvedAt ← formatTimestamp values (payload.get "resolved_at")
  let createdAt ← formatTimestamp values (payload.get "created_at")
  let lastSeenAt ← formatTimestamp values (payload.get "last_seen_at")
  let sentAt ← formatTimestamp values (payload.get "sent_at")
  pure {
    eyebrow := none
    title := "Incident resolved"
    subtitle := "A previously open protect incident has been resolved."
    fields :=
      [("Project ID", textOr values "-" (payload.get "project_id")),
        ("Incident ID", textOr values "-" (payload.get "incident_id")),
        ("Incident type", humanizeIncidentType unicode values (payload.get "incident_type")),
        ("Resolved by", textOr values "-" (payload.get "resolved_by")),
        ("Resolved at", resolvedAt),
        ("Created at", createdAt),
        ("Last seen at", lastSeenAt),
        ("Provider", textOr values "-" (payload.get "provider")),
        ("Model", textOr values "-" (payload.get "requested_model")),
        ("Environment", textOr values "-" (payload.get "environment")),
        ("Sent at", sentAt)] }

def renderIncidentResolved (payload : Fields ν) : Option Message :=
  (incidentResolved unicode values payload).map
    (rendered unicode resolvedPublicAppBaseUrl
      ("[Rheonic] Protect alert: Resolved - " ++
        humanizeIncidentType unicode values (payload.get "incident_type") ++ " (" ++
        textOr values "-" (payload.get "project_id") ++ ")"))

/-- The email that `render_webhook_delivery_failed` has rendered, unless it has raised. -/
def webhookDeliveryFailed (payload : Fields ν) : Option Email := do
  let updatedAt ← formatTimestamp values (payload.get "updated_at")
  pure {
    eyebrow := none
    title := "Webhook delivery failed"
    subtitle := "A configured webhook endpoint entered a failed or dead delivery state."
    fields :=
      [("Project ID", textOr values "-" (payload.get "project_id")),
        ("Event type", textOr values "-" (payload.get "event_type")),
        ("Destination", textOr values "-" (payload.get "destination")),
        ("Status", textOr values "failed" (payload.get "status")),
        ("Attempts", textOr values "-" (payload.get "attempts")),
        ("Max attempts", textOr values "-" (payload.get "max_attempts")),
        ("Error code", textOr values "-" (payload.get "last_error_code")),
        ("Error message", textOr values "-" (payload.get "last_error_message")),
        ("Updated at", updatedAt)] }

def renderWebhookDeliveryFailed (payload : Fields ν) : Option Message :=
  (webhookDeliveryFailed values payload).map
    (rendered unicode resolvedPublicAppBaseUrl
      ("[Rheonic] Protect alert: Webhook delivery failed (" ++
        textOr values "-" (payload.get "project_id") ++ ")"))

/-- `_TEMPLATE_REGISTRY`. -/
def templateRegistry : Fields (Fields ν → Option Message) :=
  [("feedback_submitted", renderFeedbackSubmitted unicode resolvedPublicAppBaseUrl values),
    ("incident_warn", renderIncidentWarn unicode resolvedPublicAppBaseUrl values),
    ("protection_clamp_started",
      renderProtectionClampStarted unicode resolvedPublicAppBaseUrl values),
    ("protection_block", renderProtectionBlock unicode resolvedPublicAppBaseUrl values),
    ("incident_resolved", renderIncidentResolved unicode resolvedPublicAppBaseUrl values),
    ("webhook_delivery_failed",
      renderWebhookDeliveryFailed unicode resolvedPublicAppBaseUrl values)]

def renderTemplate (template : String) (payload : Fields ν) : Except Raised Message :=
  match (templateRegistry unicode resolvedPublicAppBaseUrl values).get template with
  | none => .error ⟨.valueError, "unknown email template: " ++ template⟩
  | some renderer =>
    (renderer payload).elim (.error ⟨.other "OverflowError", "date value out of range"⟩) .ok

/-- The times that a template shows. -/
def timeKeys : Fields (List String) :=
  [("feedback_submitted", ["timestamp"]), ("incident_warn", ["created_at", "last_seen_at"]),
    ("protection_clamp_started", ["sent_at"]), ("protection_block", ["blocked_until", "sent_at"]),
    ("incident_resolved", ["resolved_at", "created_at", "last_seen_at", "sent_at"]),
    ("webhook_delivery_failed", ["updated_at"])]

/-- All times that a template shows stay in the calendar when they are converted to UTC. -/
structure InCalendar (template : String) (payload : Fields ν) : Prop where
  times : ∀ key ∈ (timeKeys.get template).getD [],
    (formatTimestamp values (payload.get key)).isSome = true
  evidence : template = "incident_warn" →
    (formatEvidence unicode values (payload.get "evidence")).isSome = true

/-- A subject that is not blank, over a page that shows an email. -/
structure Presents (message : Message) (email : Email) : Prop where
  subject : strip message.subject ≠ ""
  shows : Shows unicode resolvedPublicAppBaseUrl email message.html
  text : message.text = (renderBaseEmail unicode resolvedPublicAppBaseUrl email).text

def Email.Names (email : Email) (project : String) : Prop := ("Project ID", project) ∈ email.fields

variable {unicode resolvedPublicAppBaseUrl values}

def Visible (s : String) : Prop := ∃ c ∈ s.toList, PyText.isSpace c = false

theorem Visible.strip_ne {s : String} (h : Visible s) : strip s ≠ "" := by
  obtain ⟨c, hc, hspace⟩ := h
  exact PyText.strip_ne_empty hc hspace

theorem Visible.append {s : String} (h : Visible s) (t : String) : Visible (s ++ t) := by
  obtain ⟨c, hc, hspace⟩ := h
  refine ⟨c, ?_, hspace⟩
  rw [String.toList_append]
  exact List.mem_append_left _ hc

theorem visible_of_mem {s : String} {c : Char} (hc : c ∈ s.toList)
    (hspace : PyText.isSpace c = false) : Visible s := ⟨c, hc, hspace⟩

theorem rendered_html (subject : String) (email : Email) :
    (rendered unicode resolvedPublicAppBaseUrl subject email).html =
      (renderBaseEmail unicode resolvedPublicAppBaseUrl email).html := by
  unfold rendered
  with_reducible rfl

theorem rendered_text (subject : String) (email : Email) :
    (rendered unicode resolvedPublicAppBaseUrl subject email).text =
      (renderBaseEmail unicode resolvedPublicAppBaseUrl email).text := by
  unfold rendered
  with_reducible rfl

theorem presents_rendered {subject : String} (h : Visible subject) (email : Email) :
    Presents unicode resolvedPublicAppBaseUrl
      (rendered unicode resolvedPublicAppBaseUrl subject email) email where
  subject := h.strip_ne
  shows := by
    rw [rendered_html]
    exact shows_renderBaseEmail unicode resolvedPublicAppBaseUrl email
  text := rendered_text subject email

theorem presents_map {subject : String} (h : Visible subject) {email : Option Email}
    {message : Message}
    (hmessage : email.map (rendered unicode resolvedPublicAppBaseUrl subject) = some message) :
    ∃ e, email = some e ∧ Presents unicode resolvedPublicAppBaseUrl message e := by
  obtain ⟨e, he, rfl⟩ := Option.map_eq_some_iff.mp hmessage
  exact ⟨e, he, presents_rendered h e⟩

section Names

variable {payload : Fields ν} {email : Email}

theorem names_incidentWarn (h : incidentWarn unicode values payload = some email) :
    email.Names (textOr values "-" (payload.get "project_id")) := by
  simp only [incidentWarn, Option.bind_eq_bind, Option.bind_eq_some_iff, Option.pure_def,
    Option.some.injEq] at h
  obtain ⟨_, _, _, _, _, _, rfl⟩ := h
  exact List.mem_cons_self

theorem names_protectionBlock (h : protectionBlock unicode values payload = some email) :
    email.Names (textOr values "-" (payload.get "project_id")) := by
  simp only [protectionBlock, Option.bind_eq_bind, Option.bind_eq_some_iff, Option.pure_def,
    Option.some.injEq] at h
  obtain ⟨_, _, _, _, rfl⟩ := h
  simp [Email.Names]

theorem names_protectionClampStarted
    (h : protectionClampStarted unicode values payload = some email) :
    email.Names (textOr values "-" (payload.get "project_id")) := by
  simp only [protectionClampStarted, Option.bind_eq_bind, Option.bind_eq_some_iff,
    Option.pure_def, Option.some.injEq] at h
  obtain ⟨_, _, rfl⟩ := h
  exact List.mem_cons_self

theorem names_incidentResolved (h : incidentResolved unicode values payload = some email) :
    email.Names (textOr values "-" (payload.get "project_id")) := by
  simp only [incidentResolved, Option.bind_eq_bind, Option.bind_eq_some_iff, Option.pure_def,
    Option.some.injEq] at h
  obtain ⟨_, _, _, _, _, _, _, _, rfl⟩ := h
  exact List.mem_cons_self

theorem names_webhookDeliveryFailed (h : webhookDeliveryFailed values payload = some email) :
    email.Names (textOr values "-" (payload.get "project_id")) := by
  simp only [webhookDeliveryFailed, Option.bind_eq_bind, Option.bind_eq_some_iff,
    Option.pure_def, Option.some.injEq] at h
  obtain ⟨_, _, rfl⟩ := h
  exact List.mem_cons_self

end Names

theorem renderIncidentWarn_eq_map (payload : Fields ν) :
    renderIncidentWarn unicode resolvedPublicAppBaseUrl values payload =
      (incidentWarn unicode values payload).map (rendered unicode resolvedPublicAppBaseUrl
        ("[Rheonic] Incident opened: " ++
          humanizeIncidentType unicode values (payload.get "incident_type") ++ " (" ++
          textOr values "-" (payload.get "project_id") ++ ")")) := by
  unfold renderIncidentWarn
  cases incidentWarn unicode values payload <;> rfl

theorem renderProtectionBlock_eq_map (payload : Fields ν) :
    renderProtectionBlock unicode resolvedPublicAppBaseUrl values payload =
      (protectionBlock unicode values payload).map (rendered unicode resolvedPublicAppBaseUrl
        ("[Rheonic] Protect alert: " ++
          (reasonCopy unicode (textOr values "-" (payload.get "reason"))).1 ++ " (" ++
          textOr values "-" (payload.get "project_id") ++ ")")) := by
  unfold renderProtectionBlock
  cases protectionBlock unicode values payload <;> rfl

variable (unicode resolvedPublicAppBaseUrl values) in
theorem presents_renderer (template : String) (renderer : Fields ν → Option Message)
    (h : (template, renderer) ∈ templateRegistry unicode resolvedPublicAppBaseUrl values)
    (payload : Fields ν) {message : Message} (hmessage : renderer payload = some message) :
    ∃ email, Presents unicode resolvedPublicAppBaseUrl message email ∧
      (template ≠ "feedback_submitted" →
        email.Names (textOr values "-" (payload.get "project_id"))) := by
  have hincident : Visible "[Rheonic] Incident opened: " :=
    visible_of_mem (c := '[') (by decide) (by decide)
  have hclamp : Visible "[Rheonic] Protect alert: Clamp started - " :=
    visible_of_mem (c := '[') (by decide) (by decide)
  have hblock : Visible "[Rheonic] Protect alert: " :=
    visible_of_mem (c := '[') (by decide) (by decide)
  have hresolved : Visible "[Rheonic] Protect alert: Resolved - " :=
    visible_of_mem (c := '[') (by decide) (by decide)
  have hfailed : Visible "[Rheonic] Protect alert: Webhook delivery failed (" :=
    visible_of_mem (c := '[') (by decide) (by decide)
  have hfeedback : Visible "Rheonic beta " := visible_of_mem (c := 'R') (by decide) (by decide)
  simp only [templateRegistry, List.mem_cons, Prod.mk.injEq, List.not_mem_nil, or_false] at h
  rcases h with ⟨rfl, rfl⟩ | ⟨rfl, rfl⟩ | ⟨rfl, rfl⟩ | ⟨rfl, rfl⟩ | ⟨rfl, rfl⟩ | ⟨rfl, rfl⟩
  · obtain ⟨email, _, hpresents⟩ := presents_map (hfeedback.append _) hmessage
    exact ⟨email, hpresents, fun hne => absurd rfl hne⟩
  · rw [renderIncidentWarn_eq_map] at hmessage
    obtain ⟨email, hemail, hpresents⟩ := presents_map
      ((((hincident.append _).append _).append _).append _) hmessage
    exact ⟨email, hpresents, fun _ => names_incidentWarn hemail⟩
  · obtain ⟨email, hemail, hpresents⟩ := presents_map
      ((((hclamp.append _).append _).append _).append _) hmessage
    exact ⟨email, hpresents, fun _ => names_protectionClampStarted hemail⟩
  · rw [renderProtectionBlock_eq_map] at hmessage
    obtain ⟨email, hemail, hpresents⟩ := presents_map
      ((((hblock.append _).append _).append _).append _) hmessage
    exact ⟨email, hpresents, fun _ => names_protectionBlock hemail⟩
  · obtain ⟨email, hemail, hpresents⟩ := presents_map
      ((((hresolved.append _).append _).append _).append _) hmessage
    exact ⟨email, hpresents, fun _ => names_incidentResolved hemail⟩
  · obtain ⟨email, hemail, hpresents⟩ := presents_map ((hfailed.append _).append _) hmessage
    exact ⟨email, hpresents, fun _ => names_webhookDeliveryFailed hemail⟩

theorem inCalendar_iff {template : String} {payload : Fields ν} {κ : List String}
    (hkeys : (timeKeys.get template).getD [] = κ) :
    InCalendar unicode values template payload ↔
      (∀ key ∈ κ, (formatTimestamp values (payload.get key)).isSome = true) ∧
        (template = "incident_warn" →
          (formatEvidence unicode values (payload.get "evidence")).isSome = true) := by
  rw [← hkeys]
  exact ⟨fun h => ⟨h.times, h.evidence⟩, fun h => ⟨h.1, h.2⟩⟩

variable (unicode resolvedPublicAppBaseUrl values) in
theorem isSome_renderer (template : String) (renderer : Fields ν → Option Message)
    (h : (template, renderer) ∈ templateRegistry unicode resolvedPublicAppBaseUrl values)
    (payload : Fields ν) :
    (renderer payload).isSome = true ↔ InCalendar unicode values template payload := by
  simp only [templateRegistry, List.mem_cons, Prod.mk.injEq, List.not_mem_nil, or_false] at h
  rcases h with ⟨rfl, rfl⟩ | ⟨rfl, rfl⟩ | ⟨rfl, rfl⟩ | ⟨rfl, rfl⟩ | ⟨rfl, rfl⟩ | ⟨rfl, rfl⟩
  · rw [inCalendar_iff (κ := ["timestamp"]) rfl, renderFeedbackSubmitted, feedbackSubmitted]
    cases hsent : formatTimestamp values (payload.get "timestamp") <;> simp [hsent]
  · rw [inCalendar_iff (κ := ["created_at", "last_seen_at"]) rfl, renderIncidentWarn_eq_map,
      incidentWarn]
    cases hcreated : formatTimestamp values (payload.get "created_at") <;>
      cases hseen : formatTimestamp values (payload.get "last_seen_at") <;>
        cases formatEvidence unicode values (payload.get "evidence") <;>
          simp [hcreated, hseen]
  · rw [inCalendar_iff (κ := ["sent_at"]) rfl, renderProtectionClampStarted,
      protectionClampStarted]
    cases hsent : formatTimestamp values (payload.get "sent_at") <;> simp [hsent]
  · rw [inCalendar_iff (κ := ["blocked_until", "sent_at"]) rfl, renderProtectionBlock_eq_map,
      protectionBlock]
    cases huntil : formatTimestamp values (payload.get "blocked_until") <;>
      cases hsent : formatTimestamp values (payload.get "sent_at") <;> simp [huntil, hsent]
  · rw [inCalendar_iff (κ := ["resolved_at", "created_at", "last_seen_at", "sent_at"]) rfl,
      renderIncidentResolved, incidentResolved]
    cases hresolved : formatTimestamp values (payload.get "resolved_at") <;>
      cases hcreated : formatTimestamp values (payload.get "created_at") <;>
        cases hseen : formatTimestamp values (payload.get "last_seen_at") <;>
          cases hsent : formatTimestamp values (payload.get "sent_at") <;>
            simp [hresolved, hcreated, hseen, hsent]
  · rw [inCalendar_iff (κ := ["updated_at"]) rfl, renderWebhookDeliveryFailed,
      webhookDeliveryFailed]
    cases hupdated : formatTimestamp values (payload.get "updated_at") <;> simp [hupdated]

variable (unicode resolvedPublicAppBaseUrl values) in
/-- A template of the registry renders a payload exactly where its times stay in the calendar. -/
theorem renderTemplate_cases {template : String} (h : template ∈
    (templateRegistry unicode resolvedPublicAppBaseUrl values).map Prod.fst) (payload : Fields ν) :
    (InCalendar unicode values template payload → ∃ message email,
      renderTemplate unicode resolvedPublicAppBaseUrl values template payload = .ok message ∧
      Presents unicode resolvedPublicAppBaseUrl message email ∧
      (template ≠ "feedback_submitted" →
        email.Names (textOr values "-" (payload.get "project_id")))) ∧
    (¬InCalendar unicode values template payload →
      renderTemplate unicode resolvedPublicAppBaseUrl values template payload =
        .error ⟨.other "OverflowError", "date value out of range"⟩) := by
  cases hget : (templateRegistry unicode resolvedPublicAppBaseUrl values).get template with
  | none => exact absurd h (Fields.get_eq_none_iff.mp hget)
  | some renderer =>
    have hmem := Fields.mem_of_get hget
    rw [← isSome_renderer unicode resolvedPublicAppBaseUrl values template renderer hmem payload,
      renderTemplate, hget]
    dsimp only
    cases hmessage : renderer payload with
    | none => exact ⟨fun hsome => absurd hsome (by simp), fun _ => rfl⟩
    | some message =>
      obtain ⟨email, hpresents, hnames⟩ := presents_renderer unicode resolvedPublicAppBaseUrl values
        template renderer hmem payload hmessage
      exact ⟨fun _ => ⟨message, email, rfl, hpresents, hnames⟩, fun hnot => absurd rfl hnot⟩

end Renderers

end Rheonic.EmailTemplates
