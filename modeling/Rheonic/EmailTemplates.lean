import Rheonic.Lib.FirstSeen
import Rheonic.Lib.Markup
import Rheonic.Lib.Objects
import Rheonic.Lib.PyText

namespace Rheonic.EmailTemplates
open PyText (strip orElse isSpace)

/-- The methods of strings that go by the properties of all characters. -/
structure UnicodeText where
  lower : String → String
  capitalize : String → String
  title : String → String
  isUpper : String → Bool
  isAlpha : String → Bool

def replace (c : Char) (new : String) (s : String) : String :=
  String.ofList (s.toList.flatMap fun d => if d = c then new.toList else [d])

/-- `str.split()`. -/
def words (s : String) : List String :=
  ((s.toList.splitOnP isSpace).filter (· ≠ [])).map String.ofList

def escape (s : String) : String := String.ofList (Markup.escape s.toList)

section Layout

variable (unicode : UnicodeText) (resolvedPublicAppBaseUrl : String)

def replacements : Fields String :=
  [("id", "ID"), ("ids", "IDs"), ("url", "URL"), ("urls", "URLs"), ("api", "API"), ("sdk", "SDK")]

/-- `_humanize_field_label`. The replacement at its end puts back what it takes away. -/
def humanizeFieldLabel (label : String) : String :=
  let normalized := strip label
  if normalized = "" then "-"
  else if '_' ∉ normalized.toList ∧ unicode.isAlpha (replace ' ' "" normalized) then
    String.intercalate " " ((words normalized).map fun word =>
      (replacements.get (unicode.lower word)).getD
        (if unicode.isUpper word then word else unicode.capitalize word))
  else
    String.intercalate " " ((words (replace '_' " " (replace '/' " / " normalized))).map fun word =>
      (replacements.get (unicode.lower word)).getD (unicode.capitalize word))

/-- `_public_logo_url`. -/
def publicLogoUrl : String := resolvedPublicAppBaseUrl ++ "/assets/logo/logo-48.png"

/-- The arguments of `render_base_email`. -/
structure Email where
  eyebrow : Option String
  title : String
  subtitle : String
  fields : List (String × String)
  footer : Option String := none

structure Rendered where
  html : String
  text : String

def labelStart : String :=
  "<tr><td style=\"padding:10px 14px;vertical-align:top;font:600 12px/1.4 -apple-system," ++
    "BlinkMacSystemFont,'Segoe UI',sans-serif;color:#667085;text-transform:uppercase;" ++
    "letter-spacing:0.04em;border-top:1px solid #eaecf0;white-space:nowrap;\">"

def valueStart : String :=
  "</td><td style=\"padding:10px 14px;vertical-align:top;font:400 14px/1.6 -apple-system," ++
    "BlinkMacSystemFont,'Segoe UI',sans-serif;color:#101828;border-top:1px solid #eaecf0;" ++
    "white-space:pre-wrap;\">"

def rowEnd : String := "</td></tr>"

/-- A row of the table; a value is escaped before its newlines are replaced. -/
def rowHtml (label value : String) : String :=
  labelStart ++ escape label ++ valueStart ++ replace '\n' "<br/>" (escape value) ++ rowEnd

def eyebrowStart : String :=
  "<div style=\"margin-top:10px;font:600 12px/1.2 -apple-system,BlinkMacSystemFont,'Segoe UI'," ++
    "sans-serif;letter-spacing:0.06em;text-transform:uppercase;color:#f59e0b;\">"

def eyebrowEnd : String := "</div>"

def footerStart : String :=
  "<p style=\"margin:20px 0 0;font:400 13px/1.6 -apple-system,BlinkMacSystemFont,'Segoe UI'," ++
    "sans-serif;color:#667085;\">"

def footerEnd : String := "</p>"

def logoStart : String :=
  "<!doctype html><html><body style=\"margin:0;padding:0;background:#f4f4f5;\">" ++
    "<div style=\"margin:0;padding:32px 16px;\"><div style=\"max-width:680px;margin:0 auto;" ++
    "background:#ffffff;border:1px solid #e4e7ec;border-radius:18px;overflow:hidden;" ++
    "box-shadow:0 8px 30px rgba(16,24,40,0.08);\"><div style=\"padding:24px 28px 18px;" ++
    "background:linear-gradient(135deg,#101828 0%,#1d2939 100%);\"><table role=\"presentation\" " ++
    "cellpadding=\"0\" cellspacing=\"0\" border=\"0\" style=\"border-collapse:collapse;\"><tr>" ++
    "<td style=\"width:28px;height:28px;vertical-align:middle;\"><img src=\""

def logoEnd : String :=
  "\" width=\"28\" height=\"28\" alt=\"Rheonic\" style=\"display:block;width:28px;height:28px;" ++
    "border:0;outline:none;text-decoration:none;\" />"

def brand : String :=
  "</td><td style=\"width:10px;font-size:0;line-height:0;\">&nbsp;</td><td style=\"font:700 " ++
    "12px/1.2 -apple-system,BlinkMacSystemFont,'Segoe UI',sans-serif;letter-spacing:0.08em;" ++
    "text-transform:uppercase;color:#7a7dff;\">RHEONIC</td></tr></table>"

def titleStart : String :=
  "<h1 style=\"margin:10px 0 0;font:700 28px/1.15 -apple-system,BlinkMacSystemFont,'Segoe UI'," ++
    "sans-serif;color:#ffffff;\">"

def subtitleStart : String :=
  "</h1><p style=\"margin:14px 0 0;font:400 15px/1.7 -apple-system,BlinkMacSystemFont,'Segoe UI'," ++
    "sans-serif;color:#d0d5dd;\">"

def tableStart : String :=
  "</p></div><div style=\"padding:20px 28px 28px;\"><table style=\"width:100%;" ++
    "border-collapse:collapse;border-spacing:0;background:#fcfcfd;border:1px solid #eaecf0;" ++
    "border-radius:14px;overflow:hidden;\">"

def tableEnd : String := "</table>"

def pageEnd : String := "</div></div></div></body></html>"

def renderBaseEmail (email : Email) : Rendered :=
  let safeTitle := escape email.title
  let safeSubtitle := escape email.subtitle
  let safeEyebrow := escape (strip (email.eyebrow.getD ""))
  let normalizedFields := email.fields.map fun field =>
    (humanizeFieldLabel unicode field.1, field.2)
  let footerCopy := strip (email.footer.getD "")
  let rowsHtml := String.join (normalizedFields.map fun field => rowHtml field.1 field.2)
  let eyebrowHtml := if safeEyebrow ≠ "" then eyebrowStart ++ safeEyebrow ++ eyebrowEnd else ""
  let footerHtml := if footerCopy ≠ "" then footerStart ++ escape footerCopy ++ footerEnd else ""
  { html :=
      logoStart ++ escape (publicLogoUrl resolvedPublicAppBaseUrl) ++ logoEnd ++ brand ++
        eyebrowHtml ++ titleStart ++ safeTitle ++ subtitleStart ++ safeSubtitle ++ tableStart ++
        rowsHtml ++ tableEnd ++ footerHtml ++ pageEnd
    text := String.intercalate "\n"
      (["Rheonic"] ++ (if safeEyebrow ≠ "" then [email.eyebrow.getD ""] else []) ++
        [email.title, email.subtitle, ""] ++
        (normalizedFields.map fun field => field.1 ++ ": " ++ field.2) ++
        (if footerCopy ≠ "" then ["", footerCopy] else [])) }

end Layout

/-- What becomes of a text as a time: it is none, its conversion to UTC leaves the calendar, or it is
shown in the emails' format. -/
inductive IsoTime
  | invalid
  | outOfRange
  | utc (text : String)

/-- What the templates ask of the values of a payload. -/
structure PayloadValues (ν : Type) where
  isNone : ν → Bool
  /-- `bool(v)`. -/
  truthy : ν → Bool
  /-- `str(v)`. -/
  str : ν → String
  /-- The number of an `int`, which a `bool` is too. -/
  int : ν → Option ℤ
  bool : ν → Option Bool
  /-- The entries of a `dict`, keys as texts. -/
  dict : ν → Option (Fields ν)
  /-- `json.dumps(v, sort_keys=True)` of a `dict` or a `list`. -/
  dumps : ν → Option String
  /-- `datetime.fromisoformat`, and `astimezone` with the format of the emails. -/
  formatIso : String → IsoTime

section Templates

variable {ν : Type} (unicode : UnicodeText) (resolvedPublicAppBaseUrl : String)
  (values : PayloadValues ν)

/-- `str(v or default)`. -/
def textOr (default : String) : Option ν → String
  | some v => if values.truthy v then values.str v else default
  | none => default

/-- `none` is the `OverflowError` of `astimezone`, which nothing catches here. -/
def formatTimestamp (value : Option ν) : Option String :=
  let raw := strip (textOr values "" value)
  if raw = "" then some "-"
  else match values.formatIso (replace 'Z' "+00:00" raw) with
    | .invalid => some raw
    | .outOfRange => none
    | .utc text => some text

/-- A text by its name in a mapping, or else as a title. -/
def humanize (mapping : Fields String) (text : String) : String :=
  let normalized := unicode.lower (strip text)
  if normalized = "" then "-"
  else (mapping.get normalized).getD
    (unicode.title (replace '-' " " (replace '_' " " normalized)))

def humanizeIncidentType (value : Option ν) : String :=
  humanize unicode
    [("block", "Block"), ("retry_storm", "Retry storm"), ("loop_suspect", "Loop suspect"),
      ("token_explosion", "Token explosion")]
    (textOr values "" value)

/-- `_humanize_value`. -/
def humanizeValue (value : String) : String :=
  humanize unicode
    [("decision_timeout", "Decision timeout"), ("decision_unavailable", "Decision unavailable"),
      ("timeout_fallback", "Timeout fallback"), ("unavailable_fallback", "Unavailable fallback"),
      ("live", "Live")]
    value

def preferredOrder : List String :=
  ["reason", "count", "failure_count", "sequence_count", "threshold_count", "window_seconds",
    "max_gap_seconds", "requests_60s", "tokens_60s", "estimated_next_tokens",
    "token_explosion_tokens", "previous_estimated_tokens", "previous_token_explosion_tokens",
    "req_cap", "tok_cap", "growth_ratio", "growth_threshold", "growth_hit", "provider",
    "requested_model", "resolved_model", "environment", "last_seen_at"]

def renderedEvidence (key : String) (raw : ν) : Option String :=
  if "_at".toList.isSuffixOf key.toList then formatTimestamp values (some raw)
  else match values.bool raw with
    | some b => some (if b then "Yes" else "No")
    | none => some ((values.dumps raw).getD (values.str raw))

/-- The line of an entry; an entry that is none has no line. -/
def evidenceLine (entries : Fields ν) (key : String) : Option (Option String) :=
  match entries.get key with
  | none => some none
  | some raw =>
    if values.isNone raw then some none
    else (renderedEvidence values key raw).map fun text =>
      some (unicode.title (replace '_' " " key) ++ ": " ++ text)

def formatEvidence (value : Option ν) : Option String :=
  match value.bind values.dict with
  | none => some "-"
  | some entries => do
    let keys := preferredOrder ++ (entries.map Prod.fst).mergeSort (· ≤ ·)
    let lines ← (FirstSeen.firsts [] keys).mapM (evidenceLine unicode values entries)
    pure (if lines.reduceOption = [] then "-" else String.intercalate "\n" lines.reduceOption)

/-- The email that `render_incident_warn` has rendered, unless it has raised. -/
def incidentWarn (payload : Fields ν) : Option Email := do
  let createdAt ← formatTimestamp values (payload.get "created_at")
  let lastSeenAt ← formatTimestamp values (payload.get "last_seen_at")
  let evidence ← formatEvidence unicode values (payload.get "evidence")
  pure {
    eyebrow := none
    title := "Incident opened"
    subtitle := "Rheonic observed a behavioral anomaly and opened a new incident episode."
    fields :=
      [("Project ID", textOr values "-" (payload.get "project_id")),
        ("Incident ID", textOr values "-" (payload.get "incident_id")),
        ("Incident type", humanizeIncidentType unicode values (payload.get "incident_type")),
        ("Provider", textOr values "-" (payload.get "provider")),
        ("Model", textOr values "-" (payload.get "requested_model")),
        ("Environment", textOr values "-" (payload.get "environment")),
        ("Created at", createdAt),
        ("Last seen at", lastSeenAt),
        ("Evidence", evidence)] }

structure Message where
  subject : String
  html : String
  text : String

def renderIncidentWarn (payload : Fields ν) : Option Message := do
  let email ← incidentWarn unicode values payload
  let rendered := renderBaseEmail unicode resolvedPublicAppBaseUrl email
  pure {
    subject := "[Rheonic] Incident opened: " ++
      humanizeIncidentType unicode values (payload.get "incident_type") ++ " (" ++
      textOr values "-" (payload.get "project_id") ++ ")"
    html := rendered.html
    text := rendered.text }

/-- `_reason_copy`, which does not use the detail. -/
def reasonCopy (reason : String) : String × String :=
  let normalized := unicode.lower (strip reason)
  if normalized = "tok_cap_breach" then
    ("Token cap exceeded",
      "Protect blocked traffic because the project crossed its configured token cap.")
  else if normalized = "req_cap_breach" then
    ("Request cap exceeded",
      "Protect blocked traffic because the project crossed its configured request cap.")
  else if normalized = "cooldown_active" then
    ("Cooldown active",
      "Protect blocked traffic because the project is still inside a cooldown window.")
  else if normalized = "fail_closed" then
    ("Fail-closed fallback",
      "Protect blocked traffic because fail-closed fallback was exercised.")
  else (orElse (some normalized) "-", "Protect blocked traffic.")

def fieldIf (label text : String) : List (String × String) :=
  if text ≠ "" then [(label, text)] else []

/-- The field of a number, if it is one. -/
def intField (label : String) (value : Option ν) : List (String × String) :=
  match value with
  | some v => if (values.int v).isSome then [(label, values.str v)] else []
  | none => []

def retryAfterCopy (value : Option ν) : String :=
  match value with
  | some v => if (values.int v).any (0 < ·) then values.str v ++ " seconds" else ""
  | none => ""

/-- The email that `render_protection_block` has rendered, unless it has raised. -/
def protectionBlock (payload : Fields ν) : Option Email := do
  let blockedUntil ← formatTimestamp values (payload.get "blocked_until")
  let source := strip (textOr values "" (payload.get "source"))
  let sentAt ← formatTimestamp values (payload.get "sent_at")
  let reason := reasonCopy unicode (textOr values "-" (payload.get "reason"))
  pure {
    eyebrow := none
    title := "Blocked traffic"
    subtitle := reason.2
    fields :=
      [("Project ID", textOr values "-" (payload.get "project_id")), ("Action", "Blocked"),
        ("Reason", reason.1),
        ("Detail reason",
          humanizeValue unicode (textOr values "-" (payload.get "detail_reason")))] ++
      fieldIf "Provider" (strip (textOr values "" (payload.get "provider"))) ++
      fieldIf "Model" (strip (textOr values "" (payload.get "requested_model"))) ++
      fieldIf "Environment" (strip (textOr values "" (payload.get "environment"))) ++
      intField values "Requests / 60s" (payload.get "requests_60s") ++
      intField values "Tokens / 60s" (payload.get "tokens_60s") ++
      intField values "Request cap" (payload.get "req_cap") ++
      intField values "Token cap" (payload.get "tok_cap") ++
      (if blockedUntil ≠ "-" then [("Blocked until", blockedUntil)] else []) ++
      fieldIf "Retry after" (retryAfterCopy values (payload.get "retry_after_seconds")) ++
      (if source ≠ "" then [("Source", humanizeValue unicode source)] else []) ++
      (if sentAt ≠ "-" then [("Sent at", sentAt)] else []) }

def renderProtectionBlock (payload : Fields ν) : Option Message := do
  let email ← protectionBlock unicode values payload
  let rendered := renderBaseEmail unicode resolvedPublicAppBaseUrl email
  pure {
    subject := "[Rheonic] Protect alert: " ++
      (reasonCopy unicode (textOr values "-" (payload.get "reason"))).1 ++ " (" ++
      textOr values "-" (payload.get "project_id") ++ ")"
    html := rendered.html
    text := rendered.text }

end Templates

end Rheonic.EmailTemplates
