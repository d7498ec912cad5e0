import Rheonic.FrontendClient

namespace Rheonic.FrontendClient

/-- The attempts before one. -/
def Attempt.before : Attempt → ℕ
  | first => 0
  | recent => 1
  | retry => 2

theorem Attempt.before_lt (attempt : Attempt) : attempt.before < 3 := by
  cases attempt with
  | first => exact Nat.zero_lt_succ 2
  | recent => exact Nat.one_lt_succ_succ 1
  | retry => exact Nat.lt_succ_self 2

namespace Phase

def isQueued : Phase → Bool
  | queued _ => true
  | _ => false

def isEnded : Phase → Bool
  | ended _ => true
  | _ => false

/-- How often a call may have been sent. -/
def maxSent : Phase → ℕ
  | queued _ => 0
  | barrier attempt _ => attempt.before
  | awaiting attempt => attempt.before + 1
  | refreshing _ => 2
  | closing _ | ended _ => 3

/-- How often a call may have reached the unauthorized handler. -/
def maxHandled : Phase → ℕ
  | closing _ | ended _ => 1
  | _ => 0

end Phase

/-- A call keeps to what its phase allows. -/
structure Call.Within (call : Call) : Prop where
  sent : call.sent ≤ call.phase.maxSent
  handled : call.handled ≤ call.phase.maxHandled

/-- A call goes on that has been started and has not ended. -/
structure Moves (call call' : Call) : Prop where
  path : call'.path = call.path
  started : call.phase.isQueued = false
  unended : call.phase.isEnded = false
  unqueued : call'.phase.isQueued = false
  within : call.Within → call'.Within

/-- All that a step can do to the calls. -/
inductive CallStep (c c' : Client) : Prop
  | same (hcalls : c'.calls = c.calls)
    (hchain : c'.protectedRequestChain = c.protectedRequestChain)
    (hstarted : c'.started = c.started)
  | sent (call : Call) (hauth : isAuthRoute call.path = true)
    (hunqueued : call.phase.isQueued = false) (hwithin : call.Within)
    (hcalls : c'.calls = c.calls ++ [call])
    (hchain : c'.protectedRequestChain = c.protectedRequestChain)
    (hstarted : c'.started = c.started)
  | queued (path : String) (hprotected : isAuthRoute path = false)
    (hcalls : c'.calls = c.calls ++ [⟨path, .queued c.protectedRequestChain, 0, 0⟩])
    (hchain : c'.protectedRequestChain = some c.calls.length)
    (hstarted : c'.started = c.started)
  | started (i : ℕ) (call call' : Call) (prior : Option ℕ) (hcall : c.calls[i]? = some call)
    (hphase : call.phase = .queued prior) (hreleased : c.released prior = true)
    (hpath : call'.path = call.path) (hunqueued : call'.phase.isQueued = false)
    (hunended : call'.phase.isEnded = false) (hwithin : call.Within → call'.Within)
    (hcalls : c'.calls = c.calls.set i call')
    (hchain : c'.protectedRequestChain = c.protectedRequestChain)
    (hstarted : c'.started = c.started ++ [i])
  | moved (i : ℕ) (call call' : Call) (hcall : c.calls[i]? = some call) (hmoves : Moves call call')
    (hcalls : c'.calls = c.calls.set i call')
    (hchain : c'.protectedRequestChain = c.protectedRequestChain)
    (hstarted : c'.started = c.started)

section Barrier

variable {c : Client} {call : Call} {attempt : Attempt}

@[simp] theorem barrier_path :
    (c.executeRequestWithRefreshBarrier call attempt).path = call.path := by
  unfold Client.executeRequestWithRefreshBarrier
  split
  · split <;> rfl
  · rfl

@[simp] theorem barrier_unqueued :
    (c.executeRequestWithRefreshBarrier call attempt).phase.isQueued = false := by
  unfold Client.executeRequestWithRefreshBarrier
  split
  · split <;> rfl
  · rfl

theorem barrier_unended :
    (c.executeRequestWithRefreshBarrier call attempt).phase.isEnded = false := by
  unfold Client.executeRequestWithRefreshBarrier
  split
  · split <;> rfl
  · rfl

theorem barrier_within (hsent : call.sent ≤ attempt.before) (hhandled : call.handled = 0) :
    (c.executeRequestWithRefreshBarrier call attempt).Within := by
  unfold Client.executeRequestWithRefreshBarrier
  split
  · split
    · exact ⟨Nat.succ_le_succ hsent, hhandled.le⟩
    · exact ⟨hsent, hhandled.le⟩
  · exact ⟨Nat.succ_le_succ hsent, hhandled.le⟩

end Barrier

section Moving

variable {c : Client} {i : ℕ} {call call' : Call} {attempt : Attempt} {sends : Bool}

theorem step_put (hcall : c.calls[i]? = some call) (hmoves : Moves call call') :
    CallStep c (c.put i call') :=
  .moved i call call' hcall hmoves rfl rfl rfl

theorem step_closing (hcall : c.calls[i]? = some call) (hphase : call.phase = .awaiting attempt)
    (ok : Bool) : CallStep c (c.closing i call ok) := by
  apply step_put hcall
  refine ⟨rfl, by rw [hphase]; rfl, by rw [hphase]; rfl, rfl, fun h => ?_⟩
  have hsent := h.sent
  have hhandled := h.handled
  rw [hphase] at hsent hhandled
  exact ⟨hsent.trans attempt.before_lt, hhandled.trans (Nat.zero_le 1)⟩

theorem step_unauthorized (hcall : c.calls[i]? = some call) (hstarted : call.phase.isQueued = false)
    (hunended : call.phase.isEnded = false) (hsent : call.phase.maxSent ≤ 3)
    (hhandled : call.phase.maxHandled = 0) : CallStep c (c.unauthorized i call) := by
  apply step_put hcall
  refine ⟨rfl, hstarted, hunended, rfl, fun h => ⟨h.sent.trans hsent, ?_⟩⟩
  have hzero := h.handled
  rw [hhandled] at hzero
  show (if c.unauthorizedHandler then call.handled + 1 else call.handled) ≤ 1
  split <;> omega

theorem step_barrier (hcall : c.calls[i]? = some call) (hstarted : call.phase.isQueued = false)
    (hunended : call.phase.isEnded = false) (hsent : call.phase.maxSent ≤ attempt.before)
    (hhandled : call.phase.maxHandled = 0) :
    CallStep c (c.put i (c.executeRequestWithRefreshBarrier call attempt)) := by
  apply step_put hcall
  refine ⟨barrier_path, hstarted, hunended, barrier_unqueued, fun h => ?_⟩
  have hzero := h.handled
  rw [hhandled] at hzero
  exact barrier_within (h.sent.trans hsent) (Nat.le_zero.mp hzero)

theorem step_awaitRefresh (hcall : c.calls[i]? = some call)
    (hphase : call.phase = .awaiting attempt) (hattempt : attempt.before + 1 ≤ 2) :
    CallStep c (c.awaitRefresh i call sends) := by
  have hmoves : Moves call { call with phase := .refreshing (c.refreshSession sends).2 } := by
    refine ⟨rfl, by rw [hphase]; rfl, by rw [hphase]; rfl, rfl, fun h => ?_⟩
    have hsent := h.sent
    have hhandled := h.handled
    rw [hphase] at hsent hhandled
    exact ⟨hsent.trans hattempt, hhandled⟩
  unfold Client.awaitRefresh Client.refreshSession at *
  split at hmoves
  · exact .moved i call _ hcall hmoves rfl rfl rfl
  · exact .moved i call _ hcall hmoves rfl rfl rfl

theorem step_onReply (hcall : c.calls[i]? = some call) (hphase : call.phase = .awaiting attempt)
    (reply : Reply) : CallStep c (c.onReply i call attempt reply sends) := by
  have hstarted : call.phase.isQueued = false := by rw [hphase]; rfl
  have hunended : call.phase.isEnded = false := by rw [hphase]; rfl
  have hhandled : call.phase.maxHandled = 0 := by rw [hphase]; rfl
  have hsent : call.phase.maxSent = attempt.before + 1 := by rw [hphase]; rfl
  have hrefused : CallStep c (c.unauthorized i call) :=
    step_unauthorized hcall hstarted hunended (hsent.le.trans attempt.before_lt) hhandled
  cases reply with
  | rejected => exact step_closing hcall hphase false
  | response status =>
    unfold Client.onReply
    dsimp only
    by_cases hok : isOk status = true
    · rw [if_pos hok]
      exact step_closing hcall hphase true
    rw [if_neg hok]
    by_cases hstatus : status ≠ 401
    · rw [if_pos hstatus]
      exact step_closing hcall hphase false
    rw [if_neg hstatus]
    cases attempt with
    | first =>
      dsimp only
      by_cases hallowed : allowsRefreshRetry call.path = true
      · rw [if_pos hallowed]
        by_cases hrecent : c.now - c.lastRefreshSucceededAtMs ≤ recentRefreshRetryWindowMs
        · rw [if_pos hrecent]
          exact step_barrier hcall hstarted hunended hsent.le hhandled
        · rw [if_neg hrecent]
          exact step_awaitRefresh hcall hphase (Nat.le_succ 1)
      · rw [if_neg hallowed]
        exact hrefused
    | recent => exact step_awaitRefresh hcall hphase (Nat.le_refl 2)
    | retry => exact hrefused

theorem step_resume (hcall : c.calls[i]? = some call) : CallStep c (c.resume i call) := by
  unfold Client.resume
  split
  · next prior hphase =>
    split
    · next hreleased =>
      refine .started i call _ prior hcall hphase hreleased barrier_path barrier_unqueued
        barrier_unended ?_ rfl rfl rfl
      intro h
      have hsent := h.sent
      have hhandled := h.handled
      rw [hphase] at hsent hhandled
      exact barrier_within hsent (Nat.le_zero.mp hhandled)
    · exact .same rfl rfl rfl
  · next attempt refresh hphase =>
    split
    · refine step_put hcall ⟨rfl, by rw [hphase]; rfl, by rw [hphase]; rfl, rfl, fun h => ?_⟩
      have hsent := h.sent
      have hhandled := h.handled
      rw [hphase] at hsent hhandled
      exact ⟨Nat.succ_le_succ hsent, hhandled⟩
    · exact .same rfl rfl rfl
  · next refresh hphase =>
    have hstarted : call.phase.isQueued = false := by rw [hphase]; rfl
    have hunended : call.phase.isEnded = false := by rw [hphase]; rfl
    split
    · exact step_barrier hcall hstarted hunended (by rw [hphase]; exact Nat.le_refl 2)
        (by rw [hphase]; rfl)
    · exact step_unauthorized hcall hstarted hunended (by rw [hphase]; exact Nat.le_succ 2)
        (by rw [hphase]; rfl)
    · exact .same rfl rfl rfl
  · exact .same rfl rfl rfl

theorem step_finish (hcall : c.calls[i]? = some call) (read : Bool) :
    CallStep c (c.finish i call read) := by
  unfold Client.finish
  split
  · next ok hphase =>
    refine step_put hcall ⟨rfl, by rw [hphase]; rfl, by rw [hphase]; rfl, rfl, fun h => ?_⟩
    have hsent := h.sent
    have hhandled := h.handled
    rw [hphase] at hsent hhandled
    exact ⟨hsent, hhandled⟩
  · exact .same rfl rfl rfl

theorem step_request (path : String) : CallStep c (c.request path) := by
  unfold Client.request
  by_cases hauth : isAuthRoute path = true
  · rw [if_pos hauth]
    refine .sent _ ?_ barrier_unqueued (barrier_within (Nat.le_refl 0) rfl) rfl rfl rfl
    rw [barrier_path]
    exact hauth
  · rw [if_neg hauth]
    exact .queued path (Bool.not_eq_true _ ▸ hauth) rfl rfl rfl

theorem act_calls (c : Client) (a : Action) : CallStep c (act c a) := by
  cases a with
  | clock now => exact .same rfl rfl rfl
  | setUnauthorizedHandler present => exact .same rfl rfl rfl
  | request path => exact step_request path
  | refresh sends =>
    unfold act Client.refreshSession
    dsimp only
    split <;> exact .same rfl rfl rfl
  | resume i =>
    unfold act
    dsimp only
    split
    · next call hcall => exact step_resume hcall
    · exact .same rfl rfl rfl
  | reply i reply sends =>
    unfold act
    dsimp only
    split
    · next call hcall =>
      split
      · next attempt hphase => exact step_onReply hcall hphase reply
      · exact .same rfl rfl rfl
    · exact .same rfl rfl rfl
  | refreshReply refresh reply =>
    unfold act Client.onRefreshReply
    dsimp only
    split <;> exact .same rfl rfl rfl
  | finish i read =>
    unfold act
    dsimp only
    split
    · next call hcall => exact step_finish hcall read
    · exact .same rfl rfl rfl

end Moving

section Refreshes

variable {c c' : Client}

/-- All that a step can do to the refreshes. -/
inductive RefreshStep (c c' : Client) : Prop
  | same (hrefreshes : c'.refreshes = c.refreshes)
    (hinFlight : c'.refreshInFlight = c.refreshInFlight)
  | begun (refresh : Refresh) (hnone : c.refreshInFlight = none)
    (hrefreshes : c'.refreshes = c.refreshes ++ [refresh])
    (hinFlight : c'.refreshInFlight = some c.refreshes.length)
  | settled (r : ℕ) (refreshed : Bool) (hpending : c.refreshes[r]? = some .pending)
    (hrefreshes : c'.refreshes = c.refreshes.set r (.settled refreshed))

theorem refreshes_refreshSession (sends : Bool) : RefreshStep c (c.refreshSession sends).1 := by
  unfold Client.refreshSession
  split
  · exact .same rfl rfl
  · next hnone => exact .begun _ hnone rfl rfl

theorem refreshes_put {i : ℕ} {call : Call} (h : RefreshStep c c') :
    RefreshStep c (c'.put i call) := by
  cases h with
  | same hrefreshes hinFlight => exact .same hrefreshes hinFlight
  | begun refresh hnone hrefreshes hinFlight => exact .begun refresh hnone hrefreshes hinFlight
  | settled r refreshed hpending hrefreshes => exact .settled r refreshed hpending hrefreshes

theorem refreshes_onReply {i : ℕ} {call : Call} {attempt : Attempt} {sends : Bool} (reply : Reply) :
    RefreshStep c (c.onReply i call attempt reply sends) := by
  have hput (call : Call) : RefreshStep c (c.put i call) := refreshes_put (.same rfl rfl)
  have hawait : RefreshStep c (c.awaitRefresh i call sends) :=
    refreshes_put (refreshes_refreshSession sends)
  cases reply with
  | rejected => exact hput _
  | response status =>
    unfold Client.onReply
    dsimp only
    by_cases hok : isOk status = true
    · rw [if_pos hok]
      exact hput _
    rw [if_neg hok]
    by_cases hstatus : status ≠ 401
    · rw [if_pos hstatus]
      exact hput _
    rw [if_neg hstatus]
    cases attempt with
    | first =>
      dsimp only
      split
      · split
        · exact hput _
        · exact hawait
      · exact hput _
    | recent => exact hawait
    | retry => exact hput _

theorem refreshes_resume {i : ℕ} {call : Call} : RefreshStep c (c.resume i call) := by
  unfold Client.resume
  split
  · split
    · exact .same rfl rfl
    · exact .same rfl rfl
  · split
    · exact .same rfl rfl
    · exact .same rfl rfl
  · split
    · exact .same rfl rfl
    · exact .same rfl rfl
    · exact .same rfl rfl
  · exact .same rfl rfl

theorem act_refreshes (c : Client) (a : Action) : RefreshStep c (act c a) := by
  cases a with
  | clock now => exact .same rfl rfl
  | setUnauthorizedHandler present => exact .same rfl rfl
  | request path =>
    unfold act Client.request
    dsimp only
    split <;> exact .same rfl rfl
  | refresh sends => exact refreshes_refreshSession sends
  | resume i =>
    unfold act
    dsimp only
    split
    · exact refreshes_resume
    · exact .same rfl rfl
  | reply i reply sends =>
    unfold act
    dsimp only
    split
    · split
      · exact refreshes_onReply reply
      · exact .same rfl rfl
    · exact .same rfl rfl
  | refreshReply refresh reply =>
    unfold act Client.onRefreshReply
    dsimp only
    split
    · next hpending => exact .settled refresh _ hpending rfl
    · exact .same rfl rfl
  | finish i read =>
    unfold act Client.finish
    dsimp only
    split
    · split <;> exact .same rfl rfl
    · exact .same rfl rfl

end Refreshes

end Rheonic.FrontendClient
