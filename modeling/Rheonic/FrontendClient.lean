import Mathlib

namespace Rheonic.FrontendClient

def recentRefreshRetryWindowMs : ℤ := 1500

/-- The sends of a request: the first, one behind a refresh that succeeded lately, and one behind
its own refresh. -/
inductive Attempt
  | first
  | recent
  | retry
  deriving DecidableEq, Repr

/-- What a call waits for. Calls and refreshes are named by their numbers. -/
inductive Phase
  /-- The end of the protected call before it. -/
  | queued (prior : Option ℕ)
  /-- The refresh that was in flight when it was to send. -/
  | barrier (attempt : Attempt) (refresh : ℕ)
  | awaiting (attempt : Attempt)
  | refreshing (refresh : ℕ)
  /-- The body of the response, which is returned or raised. -/
  | closing (ok : Bool)
  | ended (ok : Bool)
  deriving DecidableEq, Repr

/-- A call of `request`, with its sends and its calls of the unauthorized handler. An attempt that
fails before its `fetch` is counted as a send too. -/
structure Call where
  path : String
  phase : Phase
  sent : ℕ := 0
  handled : ℕ := 0
  deriving DecidableEq, Repr

/-- A refresh, with what its promise has been settled with. -/
inductive Refresh
  | pending
  | settled (refreshed : Bool)
  deriving DecidableEq, Repr

/-- What a `fetch` comes back with. -/
inductive Reply
  | response (status : ℕ)
  | rejected
  deriving DecidableEq, Repr

/-- The module's variables, its calls and refreshes in the order in which they were made, the clock,
and the protected calls whose tasks have been started. -/
structure Client where
  unauthorizedHandler : Bool := false
  refreshInFlight : Option ℕ := none
  protectedRequestChain : Option ℕ := none
  lastRefreshSucceededAtMs : ℤ := 0
  now : ℤ := 0
  calls : List Call := []
  refreshes : List Refresh := []
  started : List ℕ := []
  deriving DecidableEq, Repr

def isAuthRoute (path : String) : Bool := "/api/v1/auth/".toList.isPrefixOf path.toList

def allowsRefreshRetry (path : String) : Bool := !isAuthRoute path || path = "/api/v1/auth/me"

def isOk (status : ℕ) : Bool := 200 ≤ status && status < 300

namespace Client

variable (c : Client)

/-- A refresh that is in flight holds back what is not an auth route. -/
def executeRequestWithRefreshBarrier (call : Call) (attempt : Attempt) : Call :=
  match c.refreshInFlight with
  | some refresh =>
    if isAuthRoute call.path then { call with phase := .awaiting attempt, sent := call.sent + 1 }
    else { call with phase := .barrier attempt refresh }
  | none => { call with phase := .awaiting attempt, sent := call.sent + 1 }

/-- The refresh in flight, or a new one. One that fails at once has ended before it is noted as in
flight. -/
def refreshSession (sends : Bool) : Client × ℕ :=
  match c.refreshInFlight with
  | some refresh => (c, refresh)
  | none =>
    ({ c with
      refreshes := c.refreshes ++ [if sends then .pending else .settled false]
      refreshInFlight := some c.refreshes.length }, c.refreshes.length)

def put (i : ℕ) (call : Call) : Client := { c with calls := c.calls.set i call }

def closing (i : ℕ) (call : Call) (ok : Bool) : Client := c.put i { call with phase := .closing ok }

/-- The unauthorized handler, if there is one, before the error is raised. -/
def unauthorized (i : ℕ) (call : Call) : Client :=
  c.put i { call with
    phase := .closing false
    handled := if c.unauthorizedHandler then call.handled + 1 else call.handled }

def awaitRefresh (i : ℕ) (call : Call) (sends : Bool) : Client :=
  let refreshed := c.refreshSession sends
  refreshed.1.put i { call with phase := .refreshing refreshed.2 }

/-- `request`, up to its first wait. -/
def request (path : String) : Client :=
  if isAuthRoute path then
    { c with calls := c.calls ++
      [c.executeRequestWithRefreshBarrier { path := path, phase := .awaiting .first } .first] }
  else
    { c with
      calls := c.calls ++ [{ path := path, phase := .queued c.protectedRequestChain }]
      protectedRequestChain := some c.calls.length }

/-- The promise of a protected call has been released; `none` is the promise that always was. -/
def released : Option ℕ → Bool
  | none => true
  | some i =>
    match c.calls[i]? with
    | some call => match call.phase with
      | .ended _ => true
      | _ => false
    | none => false

def settled (refresh : ℕ) : Option Bool :=
  match c.refreshes[refresh]? with
  | some (.settled refreshed) => some refreshed
  | _ => none

/-- A call goes on behind what it has waited for. -/
def resume (i : ℕ) (call : Call) : Client :=
  match call.phase with
  | .queued prior =>
    if c.released prior then
      { c.put i (c.executeRequestWithRefreshBarrier call .first) with started := c.started ++ [i] }
    else c
  | .barrier attempt refresh =>
    match c.settled refresh with
    | some _ => c.put i { call with phase := .awaiting attempt, sent := call.sent + 1 }
    | none => c
  | .refreshing refresh =>
    match c.settled refresh with
    | some true => c.put i (c.executeRequestWithRefreshBarrier call .retry)
    | some false => c.unauthorized i call
    | none => c
  | _ => c

/-- What `requestInternal` does with a response or a rejection. -/
def onReply (i : ℕ) (call : Call) (attempt : Attempt) (reply : Reply) (sends : Bool) : Client :=
  match reply with
  | .rejected => c.closing i call false
  | .response status =>
    if isOk status then c.closing i call true
    else if status ≠ 401 then c.closing i call false
    else
      match attempt with
      | .first =>
        if allowsRefreshRetry call.path then
          if c.now - c.lastRefreshSucceededAtMs ≤ recentRefreshRetryWindowMs then
            c.put i (c.executeRequestWithRefreshBarrier call .recent)
          else c.awaitRefresh i call sends
        else c.unauthorized i call
      | .recent => c.awaitRefresh i call sends
      | .retry => c.unauthorized i call

/-- The response of the refresh, and the end of its task. -/
def onRefreshReply (refresh : ℕ) (reply : Reply) : Client :=
  match c.refreshes[refresh]? with
  | some .pending =>
    let refreshed := match reply with
      | .response status => isOk status
      | .rejected => false
    { c with
      lastRefreshSucceededAtMs := if refreshed then c.now else c.lastRefreshSucceededAtMs
      refreshes := c.refreshes.set refresh (.settled refreshed)
      refreshInFlight := none }
  | _ => c

/-- The body has been read or not, the call ends and its promise is released. -/
def finish (i : ℕ) (call : Call) (read : Bool) : Client :=
  match call.phase with
  | .closing ok => c.put i { call with phase := .ended (ok && read) }
  | _ => c

end Client

/-- The asynchronous steps. Where a step may begin a refresh, `sends` tells whether that gets as far
as its `fetch`. -/
inductive Action
  | clock (now : ℤ)
  | setUnauthorizedHandler (present : Bool)
  | request (path : String)
  | refresh (sends : Bool)
  | resume (i : ℕ)
  | reply (i : ℕ) (reply : Reply) (sends : Bool)
  | refreshReply (refresh : ℕ) (reply : Reply)
  | finish (i : ℕ) (read : Bool)
  deriving DecidableEq, Repr

/-- A step that cannot be taken changes nothing. -/
def act (c : Client) : Action → Client
  | .clock now => { c with now := now }
  | .setUnauthorizedHandler present => { c with unauthorizedHandler := present }
  | .request path => c.request path
  | .refresh sends => (c.refreshSession sends).1
  | .resume i =>
    match c.calls[i]? with
    | some call => c.resume i call
    | none => c
  | .reply i reply sends =>
    match c.calls[i]? with
    | some call => match call.phase with
      | .awaiting attempt => c.onReply i call attempt reply sends
      | _ => c
    | none => c
  | .refreshReply refresh reply => c.onRefreshReply refresh reply
  | .finish i read =>
    match c.calls[i]? with
    | some call => c.finish i call read
    | none => c

def after (c : Client) (actions : List Action) : Client := actions.foldl act c

end Rheonic.FrontendClient
