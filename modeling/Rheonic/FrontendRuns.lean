import Rheonic.FrontendSteps
import Rheonic.Lib.TicketChain

namespace Rheonic.FrontendClient

open TicketChain (Chain Ticket)

section Serialization

variable {c c' : Client}

def Kept (c : Client) : Prop :=
  ∀ call ∈ c.calls, call.Within ∧ (call.phase.isQueued = true → isAuthRoute call.path = false)

theorem Kept.set (h : Kept c) {i : ℕ} {call call' : Call} (hcall : c.calls[i]? = some call)
    (hunqueued : call'.phase.isQueued = false) (hwithin : call.Within → call'.Within)
    (hcalls : c'.calls = c.calls.set i call') : Kept c' := by
  intro d hd
  rw [hcalls] at hd
  rcases List.mem_or_eq_of_mem_set hd with hold | rfl
  · exact h d hold
  · refine ⟨hwithin (h call (List.mem_of_getElem? hcall)).1, fun hqueued => ?_⟩
    exact absurd (hunqueued.symm.trans hqueued) Bool.false_ne_true

theorem Kept.step (h : Kept c) (hstep : CallStep c c') : Kept c' := by
  cases hstep with
  | same hcalls _ _ =>
    rw [Kept, hcalls]
    exact h
  | sent call _ hunqueued hwithin hcalls _ _ =>
    intro d hd
    rw [hcalls] at hd
    rcases List.mem_append.mp hd with hold | hnew
    · exact h d hold
    · rw [List.mem_singleton.mp hnew]
      refine ⟨hwithin, fun hqueued => ?_⟩
      exact absurd (hunqueued.symm.trans hqueued) Bool.false_ne_true
  | queued path hprotected hcalls _ _ =>
    intro d hd
    rw [hcalls] at hd
    rcases List.mem_append.mp hd with hold | hnew
    · exact h d hold
    · rw [List.mem_singleton.mp hnew]
      exact ⟨⟨Nat.le_refl 0, Nat.le_refl 0⟩, fun _ => hprotected⟩
  | started i call call' prior hcall _ _ _ hunqueued _ hwithin hcalls _ _ =>
    exact h.set hcall hunqueued hwithin hcalls
  | moved i call call' hcall hmoves hcalls _ _ =>
    exact h.set hcall hmoves.unqueued hmoves.within hcalls

/-- The ticket of a call in the chain of the protected calls. -/
def Call.ticket (call : Call) : Ticket :=
  if isAuthRoute call.path then .outside
  else match call.phase with
    | .queued prior => .waiting prior
    | .ended _ => .done
    | _ => .running

def Client.chain (c : Client) : Chain :=
  ⟨c.calls.map Call.ticket, c.protectedRequestChain, c.started⟩

theorem ticket_of_auth {call : Call} (h : isAuthRoute call.path = true) : call.ticket = .outside :=
  if_pos h

theorem ticket_of_queued {call : Call} {prior : Option ℕ} (h : isAuthRoute call.path = false)
    (hphase : call.phase = .queued prior) : call.ticket = .waiting prior := by
  rw [Call.ticket, h, hphase]
  rfl

theorem ticket_of_ended {call : Call} {ok : Bool} (h : isAuthRoute call.path = false)
    (hphase : call.phase = .ended ok) : call.ticket = .done := by
  rw [Call.ticket, h, hphase]
  rfl

theorem ticket_of_running {call : Call} (h : isAuthRoute call.path = false)
    (hqueued : call.phase.isQueued = false) (hended : call.phase.isEnded = false) :
    call.ticket = .running := by
  rw [Call.ticket, h]
  cases hphase : call.phase with
  | queued prior =>
    rw [hphase] at hqueued
    exact absurd hqueued.symm Bool.false_ne_true
  | ended ok =>
    rw [hphase] at hended
    exact absurd hended.symm Bool.false_ne_true
  | barrier attempt refresh => rfl
  | awaiting attempt => rfl
  | refreshing refresh => rfl
  | closing ok => rfl

theorem ticket_of_started {call : Call} (h : isAuthRoute call.path = false)
    (hqueued : call.phase.isQueued = false) : call.ticket = .running ∨ call.ticket = .done := by
  by_cases hended : call.phase.isEnded = true
  · right
    cases hphase : call.phase with
    | ended ok => exact ticket_of_ended h hphase
    | queued prior => rw [hphase] at hended; exact absurd hended Bool.false_ne_true
    | barrier attempt refresh => rw [hphase] at hended; exact absurd hended Bool.false_ne_true
    | awaiting attempt => rw [hphase] at hended; exact absurd hended Bool.false_ne_true
    | refreshing refresh => rw [hphase] at hended; exact absurd hended Bool.false_ne_true
    | closing ok => rw [hphase] at hended; exact absurd hended Bool.false_ne_true
  · exact .inl (ticket_of_running h hqueued (Bool.not_eq_true _ ▸ hended))

theorem chain_getElem? {i : ℕ} {call : Call} (h : c.calls[i]? = some call) :
    c.chain.tickets[i]? = some call.ticket := by
  show (c.calls.map Call.ticket)[i]? = some call.ticket
  rw [List.getElem?_map, h]
  rfl

theorem call_of_ticket {i : ℕ} {a : Ticket} (h : c.chain.tickets[i]? = some a) :
    ∃ call, c.calls[i]? = some call ∧ call.ticket = a := by
  have hmap : (c.calls.map Call.ticket)[i]? = some a := h
  rw [List.getElem?_map, Option.map_eq_some_iff] at hmap
  exact hmap

theorem chain_eq {calls : List Call} {last : Option ℕ} {started : List ℕ} (hcalls : c.calls = calls)
    (hchain : c.protectedRequestChain = last) (hstarted : c.started = started) :
    c.chain = ⟨calls.map Call.ticket, last, started⟩ := by
  rw [Client.chain, hcalls, hchain, hstarted]

theorem call_member {i : ℕ} {call : Call} (hcall : c.calls[i]? = some call) :
    TicketChain.Member c.chain.tickets i ↔ isAuthRoute call.path = false := by
  constructor
  · rintro ⟨a, ha, hne⟩
    have hticket : a = call.ticket := Option.some.inj (ha.symm.trans (chain_getElem? hcall))
    by_contra hauth
    rw [Bool.not_eq_false] at hauth
    exact hne (hticket.trans (ticket_of_auth hauth))
  · intro hauth
    refine ⟨_, chain_getElem? hcall, ?_⟩
    by_cases hqueued : call.phase.isQueued = true
    · cases hphase : call.phase with
      | queued prior => rw [ticket_of_queued hauth hphase]; exact Ticket.noConfusion
      | _ => rw [hphase] at hqueued; exact absurd hqueued Bool.false_ne_true
    · rcases ticket_of_started hauth (Bool.not_eq_true _ ▸ hqueued) with h | h
      · rw [h]; exact Ticket.noConfusion
      · rw [h]; exact Ticket.noConfusion

theorem released_iff {prior : Option ℕ}
    (hmember : ∀ p, prior = some p → TicketChain.Member c.chain.tickets p) :
    c.released prior = true ↔ TicketChain.Released c.chain.tickets prior := by
  cases prior with
  | none => exact ⟨fun _ p hp => absurd hp.symm (Option.some_ne_none p), fun _ => rfl⟩
  | some p =>
    have hp := hmember p rfl
    obtain ⟨a, ha, -⟩ := hp
    obtain ⟨call, hcall, rfl⟩ := call_of_ticket ha
    have hauth := (call_member hcall).mp (hmember p rfl)
    have hreleased : c.released (some p) = call.phase.isEnded := by
      rw [Client.released, hcall]
      dsimp only
      cases call.phase <;> rfl
    rw [hreleased]
    constructor
    · intro hended q hq
      rw [← Option.some.inj hq, ha]
      cases hphase : call.phase with
      | ended ok => rw [ticket_of_ended hauth hphase]
      | _ => rw [hphase] at hended; exact absurd hended Bool.false_ne_true
    · intro hdone
      have hticket : call.ticket = .done := Option.some.inj (ha.symm.trans (hdone p rfl))
      by_contra hended
      rw [Bool.not_eq_true] at hended
      by_cases hqueued : call.phase.isQueued = true
      · cases hphase : call.phase with
        | queued prior =>
          rw [ticket_of_queued hauth hphase] at hticket
          exact Ticket.noConfusion hticket
        | _ => rw [hphase] at hqueued; exact absurd hqueued Bool.false_ne_true
      · rw [ticket_of_running hauth (Bool.not_eq_true _ ▸ hqueued) hended] at hticket
        exact Ticket.noConfusion hticket

theorem prior_member (h : TicketChain.Ordered c.chain) {i : ℕ} {prior : Option ℕ}
    (hwaiting : c.chain.tickets[i]? = some (.waiting prior)) (p : ℕ) (hp : prior = some p) :
    TicketChain.Member c.chain.tickets p := by
  subst hp
  exact (h.prior i _ hwaiting).2.1

theorem chain_step (hkept : Kept c) (h : TicketChain.Ordered c.chain) (hstep : CallStep c c') :
    TicketChain.Step c.chain c'.chain := by
  cases hstep with
  | same hcalls hchain hstarted =>
    rw [chain_eq hcalls hchain hstarted]
    exact .stay
  | sent call hauth _ _ hcalls hchain hstarted =>
    -- a call of an auth route only passes
    rw [chain_eq hcalls hchain hstarted, List.map_append, List.map_singleton, ticket_of_auth hauth]
    exact .pass
  | queued path hprotected hcalls hchain hstarted =>
    have hlength : c.calls.length = c.chain.tickets.length := (List.length_map Call.ticket).symm
    rw [chain_eq hcalls hchain hstarted, List.map_append, List.map_singleton,
      ticket_of_queued hprotected rfl, hlength]
    exact .queue
  | started i call call' prior hcall hphase hreleased hpath hunqueued hunended _ hcalls hchain
      hstarted =>
    have hqueued : call.phase.isQueued = true := by rw [hphase]; rfl
    have hauth := (hkept call (List.mem_of_getElem? hcall)).2 hqueued
    have hwaiting : c.chain.tickets[i]? = some (.waiting prior) := by
      rw [chain_getElem? hcall, ticket_of_queued hauth hphase]
    rw [chain_eq hcalls hchain hstarted, List.map_set,
      ticket_of_running (hpath ▸ hauth) hunqueued hunended]
    exact .start i prior hwaiting ((released_iff (prior_member h hwaiting)).mp hreleased)
  | moved i call call' hcall hmoves hcalls hchain hstarted =>
    rw [chain_eq hcalls hchain hstarted, List.map_set]
    have hticket := chain_getElem? hcall
    -- a ticket that is the same is no step of the chain
    have hstay (heq : call'.ticket = call.ticket) :
        TicketChain.Step c.chain
          ⟨(c.calls.map Call.ticket).set i call'.ticket, c.protectedRequestChain, c.started⟩ := by
      obtain ⟨hi, hget⟩ := List.getElem?_eq_some_iff.mp hticket
      have hset : c.chain.tickets.set i call'.ticket = c.chain.tickets := by
        rw [heq, ← hget]
        exact List.set_getElem_self hi
      show TicketChain.Step c.chain ⟨c.chain.tickets.set i call'.ticket, _, _⟩
      rw [hset]
      exact .stay
    by_cases hauth : isAuthRoute call.path = true
    · apply hstay
      rw [ticket_of_auth hauth, ticket_of_auth (hmoves.path ▸ hauth)]
    · rw [Bool.not_eq_true] at hauth
      have hrunning := ticket_of_running hauth hmoves.started hmoves.unended
      -- a call that was running still runs, or has ended
      rcases ticket_of_started (hmoves.path ▸ hauth) hmoves.unqueued with hnew | hnew
      · exact hstay (hnew.trans hrunning.symm)
      · rw [hnew]
        exact .finish i (hticket.trans (congrArg some hrunning))

/-- A refresh that has not come back is the one noted as in flight. -/
def Single (c : Client) : Prop := ∀ r, c.refreshes[r]? = some .pending → c.refreshInFlight = some r

theorem Single.step (h : Single c) (hstep : RefreshStep c c') : Single c' := by
  cases hstep with
  | same hrefreshes hinFlight =>
    rw [Single, hrefreshes, hinFlight]
    exact h
  | begun refresh hnone hrefreshes hinFlight =>
    intro r hr
    rw [hrefreshes] at hr
    rcases Nat.lt_trichotomy r c.refreshes.length with hlt | rfl | hlt
    · rw [List.getElem?_append_left hlt] at hr
      have hsome := h r hr
      exact absurd (hnone.symm.trans hsome).symm (Option.some_ne_none r)
    · exact hinFlight
    · rw [List.getElem?_eq_none] at hr
      · exact absurd hr.symm (Option.some_ne_none _)
      · rw [List.length_append, List.length_singleton]
        exact hlt
  | settled r refreshed hpending hrefreshes =>
    -- the one in flight is settled, and there was no other
    intro q hq
    rw [hrefreshes] at hq
    by_cases hrq : r = q
    · subst hrq
      rw [List.getElem?_set_self (List.getElem?_eq_some_iff.mp hpending).1] at hq
      exact Refresh.noConfusion (Option.some.inj hq)
    · rw [List.getElem?_set_ne hrq] at hq
      exact absurd (Option.some.inj ((h r hpending).symm.trans (h q hq))) hrq

end Serialization

section Runs

variable {c : Client} {i j : ℕ}

structure Held (c : Client) : Prop where
  kept : Kept c
  ordered : TicketChain.Ordered c.chain
  single : Single c

theorem Held.act (h : Held c) (a : Action) : Held (act c a) where
  kept := h.kept.step (act_calls c a)
  ordered := h.ordered.step (chain_step h.kept h.ordered (act_calls c a))
  single := h.single.step (act_refreshes c a)

end Runs

end Rheonic.FrontendClient
