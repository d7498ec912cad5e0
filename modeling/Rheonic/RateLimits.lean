import Rheonic.IngestEvent
import Rheonic.UserApi

namespace Rheonic.RateLimits
open CommandProgram PyText

section Enforce

variable (key : String) (windowSeconds : ℕ) (limit : ℤ)

def rateLimitExceeded : Exn := .http 429 "rate limit exceeded"

/-- The window of a counter starts with its first request. -/
def startWindow (counter : ℤ) : Redis.Prog Unit :=
  if counter = 1 then do
    let _ ← Redis.expire key windowSeconds
    pure ()
  else pure ()

/-- What all the limiters do with their key, their window and their limit: HTTP errors are passed on
and nothing else is. -/
def enforce : Redis.Prog Unit :=
  tryCatchThe Exn (do
    let counter ← Redis.incr key
    startWindow key windowSeconds counter
    if limit < counter then throw rateLimitExceeded else pure ()) fun
    | .http status detail => throw (.http status detail)
    | _ => pure ()

/-- The answer to the request that was counted as number `n`. -/
def verdict (n : ℤ) : Redis.Prog Unit :=
  if limit < n then .raise rateLimitExceeded else .ret ()

def afterRaise : Exn → Redis.Prog Unit
  | .http status detail => .raise (.http status detail)
  | _ => .ret ()

def afterExpire (n : ℤ) : Except Exn Bool → Redis.Prog Unit
  | .ok _ => verdict limit n
  | .error e => afterRaise e

def afterIncr : Except Exn ℤ → Redis.Prog Unit
  | .ok n =>
    if n = 1 then .call (.expire key windowSeconds) (afterExpire limit n) else verdict limit n
  | .error e => afterRaise e

variable {key windowSeconds limit}

theorem tryCatch_verdict (n : ℤ) :
    Program.tryCatch (if limit < n then throw rateLimitExceeded else pure () : Redis.Prog Unit)
      (fun
        | .http status detail => throw (.http status detail)
        | _ => pure ()) = verdict limit n := by
  unfold verdict
  by_cases hlimit : limit < n
  · rw [if_pos hlimit, if_pos hlimit]
    rfl
  · rw [if_neg hlimit, if_neg hlimit]
    rfl

theorem afterIncr_first {n : ℤ} (h : n = 1) :
    afterIncr key windowSeconds limit (.ok n) =
      .call (.expire key windowSeconds) (afterExpire limit n) := if_pos h

theorem afterIncr_later {n : ℤ} (h : n ≠ 1) :
    afterIncr key windowSeconds limit (.ok n) = verdict limit n := if_neg h

theorem enforce_eq :
    enforce key windowSeconds limit =
      .call (.incrby key 1) (afterIncr key windowSeconds limit) := by
  refine congrArg (Program.call (Redis.Cmd.incrby key 1)) (funext fun reply => ?_)
  cases reply with
  | error e => cases e <;> rfl
  | ok n =>
    by_cases hone : n = 1
    · have hstart : startWindow key windowSeconds n = (do
          let _ ← Redis.expire key windowSeconds
          pure ()) := if_pos hone
      show Program.tryCatch ((startWindow key windowSeconds n).bind fun _ => _) _ = afterIncr _ _ _ _
      rw [hstart, afterIncr_first hone]
      refine congrArg (Program.call (Redis.Cmd.expire key windowSeconds))
        (funext fun reply => ?_)
      cases reply with
      | error e => cases e <;> rfl
      | ok b => exact tryCatch_verdict n
    · have hstart : startWindow key windowSeconds n = pure () := if_neg hone
      show Program.tryCatch ((startWindow key windowSeconds n).bind fun _ => _) _ = afterIncr _ _ _ _
      rw [hstart, afterIncr_later hone]
      exact tryCatch_verdict n

end Enforce

section Auth

structure AuthSettings where
  authRateLimitWindowSeconds : ℤ := 60
  authRegisterRateLimitPerWindow : ℤ := 10
  authLoginRateLimitPerWindow : ℤ := 10
  authRefreshRateLimitPerWindow : ℤ := 10
  trustProxyHeaders : Bool := false

/-- What a request tells about its client. -/
structure Origin where
  forwardedFor : Option String
  clientHost : Option String

/-- A call of an endpoint that authenticates. -/
inductive AuthCall
  | register (request : Origin)
  | login (request : Origin) (email : String)
  | refresh (request : Origin)

/-- SHA-256 in hexadecimal digits and `str.lower()`. -/
structure Texts where
  sha256Hex : String → String
  lower : String → String

variable (settings : AuthSettings) (texts : Texts)

def clientIp (request : Origin) : String :=
  let forwardedFor := strip (orElse request.forwardedFor "")
  if settings.trustProxyHeaders ∧ forwardedFor ≠ "" then
    strip (String.ofList ((split ',' forwardedFor.toList).headD []))
  else orElse request.clientHost "unknown"

def hashRateLimitFragment (value : String) : String :=
  String.ofList ((texts.sha256Hex value).toList.take 16)

def authRateLimitKey (scope discriminator : String) (windowEpoch : ℕ) : String :=
  "auth_rl:" ++ scope ++ ":" ++ hashRateLimitFragment texts discriminator ++ ":" ++
    toString windowEpoch

def authWindow : ℕ := (max settings.authRateLimitWindowSeconds 1).toNat

def authDiscriminator (request : Origin) (scope : String) (email : Option String) : String :=
  "|".intercalate ([scope, clientIp settings request] ++
    ((truthy email).map fun email => texts.lower (strip email)).toList)

/-- `_enforce_auth_rate_limit` at a time in milliseconds. -/
def enforceAuthRateLimit (request : Origin) (scope : String) (limit : ℤ) (email : Option String)
    (now : ℕ) : Redis.Prog Unit :=
  let windowEpoch := now / 1000 / authWindow settings
  let key := authRateLimitKey texts scope (authDiscriminator settings texts request scope email)
    windowEpoch
  tryCatchThe Exn (do
    let counter ← Redis.incr key
    startWindow key (authWindow settings) counter
    if limit < counter then throw rateLimitExceeded else pure ()) fun
    | .http status detail => throw (.http status detail)
    | _ => pure ()

namespace AuthCall

def scope : AuthCall → String
  | register _ => "register"
  | login _ _ => "login"
  | refresh _ => "refresh"

def limit : AuthCall → ℤ
  | register _ => settings.authRegisterRateLimitPerWindow
  | login _ _ => settings.authLoginRateLimitPerWindow
  | refresh _ => settings.authRefreshRateLimitPerWindow

def request : AuthCall → Origin
  | register request | login request _ | refresh request => request

def email : AuthCall → Option String
  | login _ email => some email
  | _ => none

def enforce (call : AuthCall) (now : ℕ) : Redis.Prog Unit :=
  enforceAuthRateLimit settings texts call.request call.scope (call.limit settings) call.email now

def key (call : AuthCall) (windowEpoch : ℕ) : String :=
  authRateLimitKey texts call.scope
    (authDiscriminator settings texts call.request call.scope call.email) windowEpoch

end AuthCall

end Auth

namespace AuthCall

variable (settings : AuthSettings) (texts : Texts)

theorem scope_of_key {c c' : AuthCall} {n n' : ℕ}
    (h : c.key settings texts n = c'.key settings texts n') : c.scope = c'.scope := by
  have hfree (c : AuthCall) : ':' ∉ c.scope.toList := by
    cases c <;> simp [AuthCall.scope]
  have hcut (c : AuthCall) (n : ℕ) : ∃ rest, (c.key settings texts n).toList =
      "auth_rl:".toList ++ (c.scope.toList ++ ':' :: rest) := by
    refine ⟨(hashRateLimitFragment texts
      (authDiscriminator settings texts c.request c.scope c.email) ++ ":" ++ toString n).toList, ?_⟩
    simp [AuthCall.key, authRateLimitKey]
  obtain ⟨rest, hrest⟩ := hcut c n
  obtain ⟨rest', hrest'⟩ := hcut c' n'
  rw [h, hrest'] at hrest
  have htail := List.append_cancel_left hrest
  exact String.toList_injective (Keys.append_cons_inj (hfree c') (hfree c) htail).1.symm

theorem limit_of_scope {c c' : AuthCall} (h : c.scope = c'.scope) :
    c.limit settings = c'.limit settings := by
  cases c <;> cases c' <;> first | rfl | simp [AuthCall.scope] at h

end AuthCall

section Keys

theorem epoch_of_key {a a' : String} {n n' : ℕ}
    (h : a ++ ":" ++ toString n = a' ++ ":" ++ toString n') : n = n' := by
  have hfree (n : ℕ) : ':' ∉ (toString n).toList := by
    intro hmem
    have hdigit : ':'.isDigit = true := by
      rw [Nat.toString_eq_repr, Nat.toList_repr] at hmem
      exact Nat.isDigit_of_mem_toDigits (by decide) (by decide) hmem
    exact absurd hdigit (by decide)
  have hlast (a : String) (n : ℕ) :
      (split ':' (a ++ ":" ++ toString n).toList).getLast? = some (toString n).toList := by
    rw [String.toList_append, String.toList_append, List.append_assoc]
    exact getLast_split_append (hfree n)
  have htexts : (toString n).toList = (toString n').toList := by
    rw [← Option.some_inj, ← hlast a n, ← hlast a' n', h]
  exact Nat.repr_inj.mp (String.toList_injective htexts)

end Keys

/-- A limiter: the keys of its clients in each epoch, its window and the limits. -/
structure Limiter where
  Client : Type
  key : Client → ℕ → String
  windowSeconds : ℕ
  limit : Client → ℤ
  window_pos : 0 < windowSeconds
  /-- No two epochs share a key. -/
  key_epoch : ∀ c c' e e', key c e = key c' e' → e = e'
  /-- Clients that are counted together have one limit. -/
  key_limit : ∀ c c' e e', key c e = key c' e' → limit c = limit c'

namespace Limiter

/-- The window that a time in milliseconds lies in. -/
def epoch (L : Limiter) (now : ℕ) : ℕ := now / 1000 / L.windowSeconds

/-- What is done for a request whose clock has been read. -/
def program (L : Limiter) (c : L.Client) (now : ℕ) : Redis.Prog Unit :=
  enforce (L.key c (L.epoch now)) L.windowSeconds (L.limit c)

/-- Ingest keys, normalized. -/
def ingest (settings : IngestEvent.Settings) (hashKey : String → String) : Limiter where
  Client := String
  key normalizedKey windowEpoch := Keys.rateLimitKey (hashKey normalizedKey) windowEpoch
  windowSeconds := IngestEvent.rateLimitWindow settings
  limit _ := settings.ingestRateLimitPerMinute
  window_pos := by
    unfold IngestEvent.rateLimitWindow
    omega
  key_epoch _ _ _ _ h := epoch_of_key h
  key_limit _ _ _ _ _ := rfl

/-- Projects, users and addresses of webhook tests. -/
def webhookTest (ext : UserApi.External) : Limiter where
  Client := String × String × String
  key c windowEpoch := UserApi.webhookTestRateLimitKey c.1 c.2.1 c.2.2 windowEpoch
  windowSeconds := UserApi.webhookTestWindow ext
  limit _ := ext.webhookTestRateLimitPerWindow
  window_pos := by
    unfold UserApi.webhookTestWindow
    omega
  key_epoch _ _ _ _ h := epoch_of_key h
  key_limit _ _ _ _ _ := rfl

/-- Calls that authenticate, with their scope, address and email. -/
def auth (settings : AuthSettings) (texts : Texts) : Limiter where
  Client := AuthCall
  key := AuthCall.key settings texts
  windowSeconds := authWindow settings
  limit := AuthCall.limit settings
  window_pos := by
    unfold authWindow
    omega
  key_epoch _ _ _ _ h := epoch_of_key h
  key_limit c c' e e' h := AuthCall.limit_of_scope settings (AuthCall.scope_of_key settings texts h)

end Limiter

section Programs

/-- A program on Redis within the one of an ingest. -/
def onRedis {α : Type} : Redis.Prog α → IngestEvent.Prog α
  | .ret a => .ret a
  | .raise e => .raise e
  | .call c k => .call (.redis c) fun reply => onRedis (k reply)

theorem webhookTest_program (ext : UserApi.External) (userId projectId clientIp : String) (now : ℕ) :
    UserApi.enforceWebhookTestRateLimit ext
        (UserApi.webhookTestKeyAt ext userId now projectId clientIp) =
      (Limiter.webhookTest ext).program (projectId, userId, clientIp) now := rfl

theorem auth_program (settings : AuthSettings) (texts : Texts) (call : AuthCall) (now : ℕ) :
    call.enforce settings texts now = (Limiter.auth settings texts).program call now := rfl

theorem onRedis_bind {α β : Type} (p : Redis.Prog α) (f : α → Redis.Prog β) :
    onRedis (p >>= f) = onRedis p >>= fun a => onRedis (f a) := by
  induction p with
  | ret a => rfl
  | raise e => rfl
  | call c k ih => exact congrArg (Program.call (IngestEvent.Cmd.redis c)) (funext ih)

theorem onRedis_tryCatch {α : Type} (p : Redis.Prog α) (h : Exn → Redis.Prog α) :
    onRedis (tryCatchThe Exn p h) = tryCatchThe Exn (onRedis p) fun e => onRedis (h e) := by
  induction p with
  | ret a => rfl
  | raise e => rfl
  | call c k ih => exact congrArg (Program.call (IngestEvent.Cmd.redis c)) (funext ih)

theorem onRedis_perform (c : Redis.Cmd) :
    onRedis (Program.perform c : Redis.Prog c.Reply) = IngestEvent.redis c := by
  refine congrArg (Program.call (IngestEvent.Cmd.redis c)) (funext fun reply => ?_)
  cases reply <;> rfl

theorem onRedis_startWindow (settings : IngestEvent.Settings) (key : String) (counter : ℤ) :
    onRedis (startWindow key (IngestEvent.rateLimitWindow settings) counter) =
      IngestEvent.startRateLimitWindow settings key counter := by
  unfold startWindow IngestEvent.startRateLimitWindow
  by_cases hone : counter = 1
  · rw [if_pos hone, if_pos hone, onRedis_bind]
    exact congrArg (· >>= fun _ => pure ()) (onRedis_perform _)
  · rw [if_neg hone, if_neg hone]
    rfl

theorem ingest_program (settings : IngestEvent.Settings) (hashKey : String → String)
    (normalizedKey : String) (now : ℕ) :
    IngestEvent.checkRateLimit settings
        (IngestEvent.rateKeyAt settings hashKey normalizedKey now) =
      onRedis ((Limiter.ingest settings hashKey).program normalizedKey now) := by
  have hrefuse (counter : ℤ) :
      onRedis (if settings.ingestRateLimitPerMinute < counter then throw rateLimitExceeded
        else pure () : Redis.Prog Unit) =
        if settings.ingestRateLimitPerMinute < counter then throw IngestEvent.rateLimitExceeded
        else pure () := by
    split <;> rfl
  have hhandler (e : Exn) :
      onRedis (match e with
        | .http status detail => throw (.http status detail)
        | _ => pure () : Redis.Prog Unit) =
        match e with
        | .http status detail => throw (.http status detail)
        | _ => pure () := by
    cases e <;> rfl
  have hincr (key : String) : onRedis (Redis.incr key) = IngestEvent.redis (.incrby key 1) :=
    onRedis_perform _
  show _ = onRedis (enforce _ (IngestEvent.rateLimitWindow settings)
    settings.ingestRateLimitPerMinute)
  unfold IngestEvent.checkRateLimit enforce
  rw [onRedis_tryCatch, onRedis_bind]
  simp only [onRedis_bind, onRedis_startWindow, hrefuse, hhandler, hincr]
  rfl

end Programs

end Rheonic.RateLimits
