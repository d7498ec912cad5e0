import Rheonic.UserApi

namespace Rheonic.WebhookDelivery
open PyText TransportOutbox
open UserApi (ProjectRecord)

/-- What `ipaddress` says of an address. -/
structure Address where
  isPrivate : Bool := false
  isLoopback : Bool := false
  isLinkLocal : Bool := false
  isMulticast : Bool := false
  isReserved : Bool := false
  isUnspecified : Bool := false
  deriving DecidableEq, Repr

def Address.disallowed (a : Address) : Bool :=
  a.isPrivate || a.isLoopback || a.isLinkLocal || a.isMulticast || a.isReserved || a.isUnspecified

/-- How `getaddrinfo` ends: with the texts of addresses, with a `gaierror`, or with another error. -/
inductive Resolution
  | addresses (l : List String)
  | gaierror
  | raised (text : String)

/-- A resolver, asked for a host and a port. Its answer depends on how often it was asked before. -/
abbrev Resolver := ℕ → String → ℕ → Resolution

/-- The tables of the standard library, and the HTTP client: the host and the port that it reads
from a URL, if it accepts the URL. -/
structure Net where
  ipAddress : String → Option Address
  lower : String → String
  bracketAccepted : String → Bool
  nfkcAccepted : String → Bool
  clientHost : String → Option (String × ℕ)

section Url

variable (net : Net)

/-- `s.partition(c)`. -/
def partition (c : Char) (s : List Char) : List Char × Option (List Char) :=
  match s.dropWhile (· ≠ c) with
  | [] => (s, none)
  | _ :: after => (s.takeWhile (· ≠ c), some after)

/-- `s.rpartition(c)`; without the separator everything is the second part. -/
def rpartition (c : Char) (s : List Char) : Option (List Char) × List Char :=
  let back := partition c s.reverse
  (back.2.map List.reverse, back.1.reverse)

def isSchemeChar (c : Char) : Bool := c.isAlphanum || c = '+' || c = '-' || c = '.'

/-- The scheme of a URL and what follows it. -/
def splitScheme (url : List Char) : String × List Char :=
  match partition ':' url with
  | (front, some rest) =>
    if (front.head?.any Char.isAlpha) && front.all isSchemeChar then
      (net.lower (String.ofList front), rest)
    else ("", url)
  | (_, none) => ("", url)

/-- Control characters and spaces are skipped at the start, tabs and line breaks everywhere. -/
def cleaned (url : String) : List Char :=
  (url.toList.dropWhile fun c => c.toNat ≤ 32).filter fun c => c ∉ ['\t', '\r', '\n']

def netlocOf (rest : List Char) : List Char :=
  match rest with
  | '/' :: '/' :: rest => rest.takeWhile fun c => c ∉ ['/', '?', '#']
  | _ => []

structure ParsedUrl where
  scheme : String
  netloc : List Char
  deriving DecidableEq, Repr

def urlparse (url : String) : Except Exn ParsedUrl :=
  let parts := splitScheme net (cleaned url)
  let netloc := netlocOf parts.2
  if ('[' ∈ netloc) ≠ (']' ∈ netloc) then .error (.value "Invalid IPv6 URL")
  else if '[' ∈ netloc ∧ net.bracketAccepted (String.ofList netloc) = false then
    .error (.value "Invalid IPv6 URL")
  else if net.nfkcAccepted (String.ofList netloc) = false then
    .error (.value "netloc contains invalid characters under NFKC normalization")
  else .ok ⟨parts.1, netloc⟩

namespace ParsedUrl

variable (u : ParsedUrl)

/-- The texts of host and port. -/
def hostinfo : List Char × List Char :=
  let hostinfo := (rpartition '@' u.netloc).2
  match partition '[' hostinfo with
  | (_, some bracketed) =>
    let host := partition ']' bracketed
    (host.1, ((partition ':' (host.2.getD [])).2).getD [])
  | (_, none) =>
    let host := partition ':' hostinfo
    (host.1, host.2.getD [])

/-- The host in lower case; the zone of an address stays as it is. -/
def hostname : Option String :=
  match u.hostinfo.1 with
  | [] => none
  | host => match partition '%' host with
    | (front, some zone) => some (net.lower (String.ofList front) ++ "%" ++ String.ofList zone)
    | (front, none) => some (net.lower (String.ofList front))

def username : Option String :=
  (rpartition '@' u.netloc).1.map fun userinfo => String.ofList (partition ':' userinfo).1

def password : Option String :=
  (rpartition '@' u.netloc).1.bind fun userinfo => (partition ':' userinfo).2.map String.ofList

def port : Except Exn (Option ℕ) :=
  match u.hostinfo.2 with
  | [] => .ok none
  | cs =>
    if cs.all Char.isDigit then
      let n := (String.ofList cs).toNat?.getD 0
      if n ≤ 65535 then .ok (some n) else .error (.value "Port out of range 0-65535")
    else .error (.value "Port could not be cast to integer value")

end ParsedUrl

end Url

section Validation

variable (net : Net) (webhookAllowPrivateHosts : Bool) (resolve : String → ℕ → Resolution)

def unprocessable (detail : String) : Exn := .http 422 detail

def raiseIfDisallowedIp (value : String) : Except Exn Unit :=
  match net.ipAddress value with
  | none => .error (.value "does not appear to be an IPv4 or IPv6 address")
  | some address =>
    if address.disallowed then .error (unprocessable "Webhook URL host is not allowed") else .ok ()

def isLocalName (host : String) : Bool :=
  host = "localhost" || host = "ip6-localhost" || ".local".toList.isSuffixOf host.toList

def checkAddresses : List String → Except Exn Unit
  | [] => .ok ()
  | text :: rest => match raiseIfDisallowedIp net text with
    | .error e => .error e
    | .ok () => checkAddresses rest

/-- The check of the addresses that a name resolves to; a name that does not resolve passes. -/
def checkResolved (host : String) (port : ℕ) : Except Exn Unit :=
  match resolve host port with
  | .gaierror => .ok ()
  | .raised text => .error (.value text)
  | .addresses l => checkAddresses net l

def ensureWebhookUrlIsSafe (url : String) : Except Exn Unit :=
  match urlparse net url with
  | .error e => .error e
  | .ok parsed =>
    if parsed.scheme ≠ "http" ∧ parsed.scheme ≠ "https" then
      .error (unprocessable "Webhook URL must use http or https")
    else match parsed.hostname net with
      | none => .error (unprocessable "Webhook URL must include a hostname")
      | some host =>
        if truthy parsed.username ≠ none ∨ truthy parsed.password ≠ none then
          .error (unprocessable "Webhook URL must not include credentials")
        else if webhookAllowPrivateHosts then .ok ()
        else if isLocalName (net.lower host) then
          .error (unprocessable "Webhook URL host is not allowed")
        else match net.ipAddress (net.lower host) with
          | some _ => raiseIfDisallowedIp net (net.lower host)
          | none =>
            match parsed.port with
            | .error e => .error e
            | .ok port => checkResolved net resolve host (if port.getD 0 = 0 then 443 else port.getD 0)

end Validation

section Delivery

/-- What a delivery reads: its row, the project of the row, whether the payload forces it, and the
encoded body. -/
structure WebhookJob where
  row : Option Outbox
  project : Option ProjectRecord
  forceSend : Bool := false
  body : Except Exn String

/-- How a delivery ends: without a request, or with one to the addresses that the client gets. -/
inductive Delivery
  | skipped (reason : String)
  | raised (e : Exn)
  | posted (url body : String) (targets : List String)
  deriving DecidableEq, Repr

def Delivery.opened : Delivery → List String
  | .posted _ _ targets => targets
  | _ => []

variable (net : Net) (resolver : Resolver) (job : WebhookJob)

/-- The client connects to a host that is an address, and resolves a name itself, after the
validation has. -/
def connectTargets (url : String) : List String :=
  match net.clientHost url with
  | none => []
  | some (host, port) =>
    if (net.ipAddress host).isSome then [host]
    else match resolver 1 host port with
      | .addresses l => l
      | _ => []

/-- The URL that a delivery is for, or why there is none. -/
def targetUrl : Except String String :=
  match job.row with
  | none => .error "outbox_missing"
  | some row =>
    match job.project with
    | none => .error "project_missing"
    | some project =>
      if job.forceSend = false ∧ (project.webhookEnabled = false ∨ truthy project.webhookUrl = none) then
        .error "webhook_disabled_or_missing_url"
      else match (truthy row.message.destination).or (truthy project.webhookUrl) with
        | none => .error "webhook_destination_missing"
        | some url => .ok url

def deliverWebhook : Delivery :=
  match targetUrl job with
  | .error reason => .skipped reason
  | .ok url =>
    match job.body with
    | .error e => .raised e
    | .ok body =>
      match ensureWebhookUrlIsSafe net false (resolver 0) url with
      | .error e => .raised e
      | .ok () => .posted url body (connectTargets net resolver url)

/-- The addresses that the processing of a row may connect to. -/
def opened (id : String) (now : ℕ) (rows : Rows) : List String :=
  match claimForSend id now rows with
  | (none, _) => []
  | (some row, _) =>
    if row.message.kind = .webhook then (deliverWebhook net resolver job).opened else []

/-- The text of an address that may not be connected to. -/
def Forbidden (text : String) : Prop := ∃ a, net.ipAddress text = some a ∧ a.disallowed = true

/-- The processing of a row connects to no forbidden address. -/
def NeverForbidden (id : String) (now : ℕ) (rows : Rows) : Prop :=
  ∀ text ∈ opened net resolver job id now rows, ¬Forbidden net text

def Targets (id : String) (now : ℕ) (rows : Rows) (url : String) : Prop :=
  (∃ row, (claimForSend id now rows).1 = some row ∧ row.message.kind = .webhook) ∧
    targetUrl job = .ok url ∧ job.body.toOption.isSome

def Allowed (text : String) : Prop := ∃ a, net.ipAddress text = some a ∧ a.disallowed = false

/-- The checks that a URL has to pass; what its port and its host, if it is a name, have to satisfy
is left open. -/
def PassesWith (url : String) (P : String → Except Exn (Option ℕ) → Prop) : Prop :=
  ∃ parsed host, urlparse net url = .ok parsed ∧ (parsed.scheme = "http" ∨ parsed.scheme = "https") ∧
    parsed.hostname net = some host ∧ truthy parsed.username = none ∧ truthy parsed.password = none ∧
      isLocalName (net.lower host) = false ∧
        (Allowed net (net.lower host) ∨ net.ipAddress (net.lower host) = none ∧ P host parsed.port)

/-- A resolution that the validation accepts. -/
def Acceptable : Resolution → Prop
  | .gaierror => True
  | .raised _ => False
  | .addresses l => ∀ text ∈ l, Allowed net text

/-- The validation accepts the URL with these answers. -/
def Passes (resolve : String → ℕ → Resolution) (url : String) : Prop :=
  PassesWith net url fun host port =>
    ∃ n, port = .ok n ∧ Acceptable net (resolve host (if n.getD 0 = 0 then 443 else n.getD 0))

/-- The validation accepts the URL with some answers. -/
def MayPass (url : String) : Prop := PassesWith net url fun _ port => ∃ n, port = .ok n

/-- The client takes the host for an allowed address, or refuses the URL. -/
def AllowedLiteral (url : String) : Prop :=
  ∀ host port, net.clientHost url = some (host, port) → Allowed net host

end Delivery

section Proofs

variable {net : Net} {resolver : Resolver} {job : WebhookJob} {url : String}

theorem raiseIfDisallowedIp_ok_iff {text : String} :
    raiseIfDisallowedIp net text = .ok () ↔ Allowed net text := by
  unfold raiseIfDisallowedIp Allowed
  cases net.ipAddress text with
  | none => simp
  | some a =>
    by_cases h : a.disallowed = true
    · simp [h]
    · simp [h]

theorem checkAddresses_ok_iff {l : List String} :
    checkAddresses net l = .ok () ↔ ∀ text ∈ l, Allowed net text := by
  induction l with
  | nil => simp [checkAddresses]
  | cons text rest ih =>
    rw [List.forall_mem_cons, ← raiseIfDisallowedIp_ok_iff, ← ih, checkAddresses]
    cases raiseIfDisallowedIp net text with
    | error e => simp
    | ok u => simp

theorem checkResolved_ok_iff {resolve : String → ℕ → Resolution} {host : String} {port : ℕ} :
    checkResolved net resolve host port = .ok () ↔ Acceptable net (resolve host port) := by
  unfold checkResolved Acceptable
  cases resolve host port with
  | addresses l => exact checkAddresses_ok_iff
  | gaierror => simp
  | raised text => simp

section Passing

variable {P : String → Except Exn (Option ℕ) → Prop} {parsed : ParsedUrl} {host : String}

theorem PassesWith.parts (h : PassesWith net url P) (hparse : urlparse net url = .ok parsed) :
    (parsed.scheme = "http" ∨ parsed.scheme = "https") ∧ ∃ host, parsed.hostname net = some host ∧
      truthy parsed.username = none ∧ truthy parsed.password = none ∧
        isLocalName (net.lower host) = false ∧
          (Allowed net (net.lower host) ∨
            net.ipAddress (net.lower host) = none ∧ P host parsed.port) := by
  obtain ⟨parsed', host, hparse', hscheme, hrest⟩ := h
  rw [hparse] at hparse'
  rw [Except.ok.inj hparse']
  exact ⟨hscheme, host, hrest⟩

theorem passesWith_iff (hparse : urlparse net url = .ok parsed)
    (hscheme : parsed.scheme = "http" ∨ parsed.scheme = "https")
    (hhost : parsed.hostname net = some host) (huser : truthy parsed.username = none)
    (hpass : truthy parsed.password = none) (hlocal : isLocalName (net.lower host) = false) :
    PassesWith net url P ↔ Allowed net (net.lower host) ∨
      net.ipAddress (net.lower host) = none ∧ P host parsed.port := by
  constructor
  · intro h
    obtain ⟨_, host', hhost', _, _, _, hrest⟩ := h.parts hparse
    rw [hhost] at hhost'
    rwa [Option.some.inj hhost']
  · intro h
    exact ⟨parsed, host, hparse, hscheme, hhost, huser, hpass, hlocal, h⟩

end Passing

theorem ensureWebhookUrlIsSafe_ok_iff {resolve : String → ℕ → Resolution} :
    ensureWebhookUrlIsSafe net false resolve url = .ok () ↔ Passes net resolve url := by
  unfold ensureWebhookUrlIsSafe
  cases hparse : urlparse net url with
  | error e =>
    refine iff_of_false (by simp) ?_
    rintro ⟨parsed, host, hparse', _⟩
    rw [hparse] at hparse'
    exact absurd hparse' (by simp)
  | ok parsed =>
    dsimp only
    by_cases hscheme : parsed.scheme ≠ "http" ∧ parsed.scheme ≠ "https"
    · rw [if_pos hscheme]
      exact iff_of_false (by simp) fun h => (h.parts hparse).1.elim hscheme.1 hscheme.2
    · rw [if_neg hscheme]
      cases hhost : parsed.hostname net with
      | none =>
        refine iff_of_false (by simp) fun h => ?_
        obtain ⟨_, host, hhost', _⟩ := h.parts hparse
        rw [hhost] at hhost'
        exact absurd hhost' (by simp)
      | some host =>
        have hparts := fun h : Passes net resolve url => (h.parts hparse).2
        simp only [hhost, Option.some.injEq, exists_eq_left'] at hparts
        dsimp only
        by_cases hcred : truthy parsed.username ≠ none ∨ truthy parsed.password ≠ none
        · rw [if_pos hcred]
          exact iff_of_false (by simp) fun h =>
            hcred.elim (absurd (hparts h).1) (absurd (hparts h).2.1)
        -- from here on only the host decides
        · obtain ⟨huser, hpass⟩ := not_or.mp hcred
          rw [if_neg hcred, if_neg Bool.false_ne_true]
          by_cases hlocal : isLocalName (net.lower host) = true
          · rw [if_pos hlocal]
            refine iff_of_false (by simp) fun h => ?_
            exact Bool.eq_false_iff.mp (hparts h).2.2.1 hlocal
          · rw [if_neg hlocal, Passes, passesWith_iff hparse (by tauto) hhost (not_not.mp huser)
              (not_not.mp hpass) (Bool.eq_false_iff.mpr hlocal)]
            cases hip : net.ipAddress (net.lower host) with
            -- a literal address is judged without asking the resolver
            | some address =>
              dsimp only
              rw [raiseIfDisallowedIp_ok_iff]
              simp
            | none =>
              -- no literal address, so the resolver has to be asked
              have hliteral : ¬Allowed net (net.lower host) := by
                rintro ⟨a, ha, _⟩
                rw [hip] at ha
                exact absurd ha (by simp)
              rw [or_iff_right hliteral]
              cases parsed.port with
              | error e => simp
              | ok port => simp [checkResolved_ok_iff]

theorem Passes.mayPass {resolve : String → ℕ → Resolution} (h : Passes net resolve url) :
    MayPass net url := by
  obtain ⟨parsed, host, hparse, hscheme, hhost, huser, hpass, hlocal, hrest⟩ := h
  refine ⟨parsed, host, hparse, hscheme, hhost, huser, hpass, hlocal, ?_⟩
  exact hrest.imp_right fun hname => ⟨hname.1, hname.2.choose, hname.2.choose_spec.1⟩

theorem MayPass.passes (h : MayPass net url) : Passes net (fun _ _ => .gaierror) url := by
  obtain ⟨parsed, host, hparse, hscheme, hhost, huser, hpass, hlocal, hrest⟩ := h
  refine ⟨parsed, host, hparse, hscheme, hhost, huser, hpass, hlocal, ?_⟩
  exact hrest.imp_right fun hname => ⟨hname.1, hname.2.choose, hname.2.choose_spec, trivial⟩

section Opened

variable {id : String} {now : ℕ} {rows : Rows}

theorem mem_opened_iff {text : String} : text ∈ opened net resolver job id now rows ↔
    ∃ url, Targets job id now rows url ∧ Passes net (resolver 0) url ∧
      text ∈ connectTargets net resolver url := by
  have hdelivery : text ∈ (deliverWebhook net resolver job).opened ↔ ∃ url, (targetUrl job = .ok url ∧ job.body.toOption.isSome) ∧
        Passes net (resolver 0) url ∧ text ∈ connectTargets net resolver url := by
    unfold deliverWebhook
    cases targetUrl job with
    | error reason => simp [Delivery.opened]
    | ok url =>
      cases job.body with
      | error e => simp [Delivery.opened, Except.toOption]
      | ok body =>
        have hsafe : ensureWebhookUrlIsSafe net false (resolver 0) url = .ok () ↔
            Passes net (resolver 0) url := ensureWebhookUrlIsSafe_ok_iff
        cases hensure : ensureWebhookUrlIsSafe net false (resolver 0) url with
        | error e =>
          rw [hensure] at hsafe
          have hno : ¬Passes net (resolver 0) url := fun h => absurd (hsafe.mpr h) (by simp)
          simp [hensure, Delivery.opened, hno]
        | ok u =>
          have hyes : Passes net (resolver 0) url := hsafe.mp hensure
          simp [hensure, Delivery.opened, hyes, Except.toOption]
  unfold opened Targets
  rcases claimForSend id now rows with ⟨_ | row, rows'⟩
  · simp
  · by_cases hkind : row.message.kind = .webhook
    · simp only [hkind, if_true, hdelivery, Option.some.injEq, exists_eq_left', true_and]
    · simp [hkind]

/-- The processing of a row keeps off forbidden addresses exactly where the validation rejects the
URL with the answers it gets, or the client gets none of them. It does so for every resolver exactly
where no name is resolved: the URL is rejected, or its host is an allowed address. -/
theorem never_forbidden_iff (hforbidden : ∃ text, Forbidden net text) :
    (∀ resolver, NeverForbidden net resolver job id now rows ↔ ∀ url, Targets job id now rows url →
      Passes net (resolver 0) url → ∀ text ∈ connectTargets net resolver url, ¬Forbidden net text) ∧
    ((∀ resolver, NeverForbidden net resolver job id now rows) ↔ ∀ url, Targets job id now rows url →
      MayPass net url → AllowedLiteral net url) := by
  constructor
  · intro resolver
    constructor
    · intro hnever url htarget hpass text htext
      exact hnever text (mem_opened_iff.mpr ⟨url, htarget, hpass, htext⟩)
    · intro hcond text htext
      obtain ⟨url, htarget, hpass, hmem⟩ := mem_opened_iff.mp htext
      exact hcond url htarget hpass text hmem
  · constructor
    · intro hnever url htarget hmay host port hclient
      obtain ⟨bad, hbad⟩ := hforbidden
      -- the name does not resolve for the validation, and resolves to `bad` for the client
      have hrebound := hnever fun n _ _ => if n = 0 then .gaierror else .addresses [bad]
      have hopened : ∀ text ∈ connectTargets net
          (fun n _ _ => if n = 0 then .gaierror else .addresses [bad]) url, ¬Forbidden net text :=
        fun text htext => hrebound text (mem_opened_iff.mpr ⟨url, htarget, hmay.passes, htext⟩)
      unfold connectTargets at hopened
      rw [hclient] at hopened
      dsimp only at hopened
      cases hip : net.ipAddress host with
      | none =>
        rw [hip] at hopened
        exact absurd hbad (hopened bad (by simp))
      | some a =>
        rw [hip] at hopened
        have hallowed : ¬Forbidden net host := hopened host (by simp)
        refine ⟨a, hip, Bool.eq_false_iff.mpr fun ha => hallowed ⟨a, hip, ha⟩⟩
    · intro hcond resolver text htext hbad
      obtain ⟨url, htarget, hpass, hmem⟩ := mem_opened_iff.mp htext
      unfold connectTargets at hmem
      cases hclient : net.clientHost url with
      | none =>
        rw [hclient] at hmem
        exact absurd hmem (by simp)
      | some target =>
        obtain ⟨host, port⟩ := target
        obtain ⟨a, hip, hallowed⟩ := hcond url htarget hpass.mayPass host port hclient
        rw [hclient] at hmem
        dsimp only at hmem
        rw [hip, if_pos Option.isSome_some] at hmem
        obtain ⟨a', hip', hbad'⟩ := hbad
        rw [List.mem_singleton.mp hmem, hip] at hip'
        rw [← Option.some.inj hip', hallowed] at hbad'
        exact Bool.false_ne_true hbad'

end Opened

section Sample

/-- Two addresses, and a client that reads two URLs. -/
def sampleNet : Net where
  ipAddress text :=
    if text = "127.0.0.1" then some { isPrivate := true, isLoopback := true }
    else if text = "93.184.216.34" then some {} else none
  lower s := String.ofList (s.toList.map Char.toLower)
  bracketAccepted _ := true
  nfkcAccepted _ := true
  clientHost url :=
    if url = "https://hooks.example/in" then some ("hooks.example", 443)
    else if url = "https://93.184.216.34/in" then some ("93.184.216.34", 443) else none

def sampleRow (destination : String) : Outbox where
  message :=
    { projectId := "p1", kind := .webhook, eventType := "protect.block",
      destination := some destination, payload := .json "\x7b\x7d", dedupeKey := "k" }
  maxAttempts := 5
  nextAttemptAt := 0
  createdAt := 0
  updatedAt := 0

def sampleRows (destination : String) : Rows := ⟨[("a", sampleRow destination)], List.nodup_singleton _⟩

def sampleJob (destination : String) : WebhookJob where
  row := some (sampleRow destination)
  project := some
    { name := "web", userId := some "u1", webhookEnabled := true,
      webhookUrl := some destination, createdAt := 0 }
  body := .ok "\x7b\x7d"

/-- A name that resolves to a public address first and to the own host then. -/
def rebinding : Resolver := fun n _ _ =>
  .addresses [if n = 0 then "93.184.216.34" else "127.0.0.1"]

/-- The own host is connected to, if the name is bound again, and if it does not resolve at first. -/
theorem forbidden_address_opened :
    ¬NeverForbidden sampleNet rebinding (sampleJob "https://hooks.example/in") "a" 10
        (sampleRows "https://hooks.example/in") ∧
      ¬NeverForbidden sampleNet (fun n _ _ => if n = 0 then .gaierror else .addresses ["127.0.0.1"])
        (sampleJob "https://hooks.example/in") "a" 10 (sampleRows "https://hooks.example/in") := by
  have hloop : Forbidden sampleNet "127.0.0.1" :=
    ⟨{ isPrivate := true, isLoopback := true }, rfl, rfl⟩
  constructor
  · intro hnever
    exact hnever "127.0.0.1" (by decide +kernel) hloop
  · intro hnever
    exact hnever "127.0.0.1" (by decide +kernel) hloop

/-- An address in the place of the name is connected to, whatever the resolver does. -/
theorem literal_never_forbidden :
    (∃ text, Forbidden sampleNet text) ∧
    ∀ resolver, NeverForbidden sampleNet resolver (sampleJob "https://93.184.216.34/in") "a" 10
      (sampleRows "https://93.184.216.34/in") := by
  have hforbidden : ∃ text, Forbidden sampleNet text :=
    ⟨"127.0.0.1", { isPrivate := true, isLoopback := true }, rfl, rfl⟩
  refine ⟨hforbidden, (never_forbidden_iff hforbidden).2.mpr ?_⟩
  intro url htarget _ host port hclient
  have hurl : targetUrl (sampleJob "https://93.184.216.34/in") = .ok "https://93.184.216.34/in" := by
    decide +kernel
  rw [htarget.2.1] at hurl
  rw [Except.ok.inj hurl] at hclient
  have hhost : sampleNet.clientHost "https://93.184.216.34/in" = some ("93.184.216.34", 443) := by
    decide +kernel
  rw [hhost] at hclient
  obtain ⟨rfl, _⟩ := Prod.mk.inj (Option.some.inj hclient)
  exact ⟨{}, rfl, rfl⟩

end Sample

end Proofs

end Rheonic.WebhookDelivery
