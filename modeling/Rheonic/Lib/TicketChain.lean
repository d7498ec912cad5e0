import Mathlib.Data.List.Basic
import Mathlib.Data.Nat.Find
import Mathlib.Order.Basic
import Mathlib.Tactic.Common

namespace TicketChain

/-- The tickets of a chain: one that does not stand in it, one that waits for the one before it in
the chain, one whose task runs and one whose task has ended. -/
inductive Ticket
  | outside
  | waiting (prior : Option ℕ)
  | running
  | done
  deriving DecidableEq, Repr

/-- The tickets in the order in which they were drawn, the last of the chain, and the tickets whose
tasks have been started, in that order. -/
structure Chain where
  tickets : List Ticket
  last : Option ℕ
  started : List ℕ

def Released (t : List Ticket) (prior : Option ℕ) : Prop := ∀ p, prior = some p → t[p]? = some .done

/-- A task ends in one way only: whether it has failed does not count. -/
inductive Step (c : Chain) : Chain → Prop
  | stay : Step c c
  | pass : Step c { c with tickets := c.tickets ++ [.outside] }
  | queue : Step c
      { c with tickets := c.tickets ++ [.waiting c.last], last := some c.tickets.length }
  | start (i : ℕ) (prior : Option ℕ) (hwaiting : c.tickets[i]? = some (.waiting prior))
    (hreleased : Released c.tickets prior) :
    Step c { c with tickets := c.tickets.set i .running, started := c.started ++ [i] }
  | finish (i : ℕ) (hrunning : c.tickets[i]? = some .running) :
    Step c { c with tickets := c.tickets.set i .done }

/-- A ticket stands in the chain. -/
def Member (t : List Ticket) (i : ℕ) : Prop := ∃ a, t[i]? = some a ∧ a ≠ .outside

def Begun (t : List Ticket) (i : ℕ) : Prop := t[i]? = some .running ∨ t[i]? = some .done

/-- The last of the chain among the first `n` tickets. -/
def LastBefore (t : List Ticket) (n : ℕ) : Option ℕ → Prop
  | none => ∀ i < n, ¬Member t i
  | some p => p < n ∧ Member t p ∧ ∀ i, p < i → i < n → ¬Member t i

/-- Each ticket waits for the one before it, and of those that have begun only the last may still
run. -/
structure Ordered (c : Chain) : Prop where
  last : LastBefore c.tickets c.tickets.length c.last
  prior : ∀ i prior, c.tickets[i]? = some (.waiting prior) → LastBefore c.tickets i prior
  done : ∀ i j, i < j → Member c.tickets i → Begun c.tickets j → c.tickets[i]? = some .done
  started : ∀ i, i ∈ c.started ↔ Begun c.tickets i
  sorted : c.started.Pairwise (· < ·)

section Tickets

variable {t t' : List Ticket} {a b : Ticket} {i j n : ℕ} {prior : Option ℕ}

theorem Begun.member (h : Begun t i) : Member t i := by
  rcases h with h | h
  · exact ⟨_, h, Ticket.noConfusion⟩
  · exact ⟨_, h, Ticket.noConfusion⟩

theorem Member.lt (h : Member t i) : i < t.length := by
  obtain ⟨a, ha, -⟩ := h
  exact (List.getElem?_eq_some_iff.mp ha).1

theorem getElem?_set_of_ne (h : i ≠ j) : (t.set i b)[j]? = t[j]? := List.getElem?_set_ne h

theorem getElem?_set_of_some (h : t[i]? = some a) : (t.set i b)[i]? = some b :=
  List.getElem?_set_self (List.getElem?_eq_some_iff.mp h).1

theorem member_set (h : t[i]? = some a) (ha : a ≠ .outside) (hb : b ≠ .outside) :
    Member (t.set i b) j ↔ Member t j := by
  by_cases hij : i = j
  · subst hij
    have hset : (t.set i b)[i]? = some b := getElem?_set_of_some h
    exact ⟨fun _ => ⟨a, h, ha⟩, fun _ => ⟨b, hset, hb⟩⟩
  · rw [Member, Member, getElem?_set_of_ne hij]

theorem getElem?_append_of_lt (h : j < t.length) : (t ++ [a])[j]? = t[j]? :=
  List.getElem?_append_left h

theorem getElem?_append_eq_some (h : (t ++ [a])[j]? = some b) :
    t[j]? = some b ∨ (j = t.length ∧ b = a) := by
  rcases Nat.lt_trichotomy j t.length with hj | hj | hj
  · exact .inl (getElem?_append_of_lt hj ▸ h)
  · subst hj
    rw [List.getElem?_concat_length] at h
    exact .inr ⟨rfl, (Option.some.inj h).symm⟩
  · rw [List.getElem?_eq_none] at h
    · exact absurd h.symm (Option.some_ne_none b)
    · rw [List.length_append, List.length_singleton]
      exact hj

theorem member_append (h : j < t.length) : Member (t ++ [a]) j ↔ Member t j := by
  rw [Member, Member, getElem?_append_of_lt h]

theorem begun_append (ha : ¬Begun [a] 0) : Begun (t ++ [a]) j ↔ Begun t j := by
  constructor
  · rintro (h | h)
    · rcases getElem?_append_eq_some h with h | ⟨-, rfl⟩
      · exact .inl h
      · exact absurd (.inl rfl) ha
    · rcases getElem?_append_eq_some h with h | ⟨-, rfl⟩
      · exact .inr h
      · exact absurd (.inr rfl) ha
  · intro h
    rw [Begun, getElem?_append_of_lt h.member.lt]
    exact h

theorem LastBefore.congr (h : LastBefore t n prior) (hmember : ∀ i < n, Member t' i ↔ Member t i) :
    LastBefore t' n prior := by
  cases prior with
  | none => exact fun i hi hm => h i hi ((hmember i hi).mp hm)
  | some p =>
    obtain ⟨hp, hm, hlast⟩ := h
    exact ⟨hp, (hmember p hp).mpr hm, fun i hpi hi hm' => hlast i hpi hi ((hmember i hi).mp hm')⟩

theorem LastBefore.released (h : LastBefore t n prior)
    (hdone : ∀ i < n, Member t i → t[i]? = some .done) : Released t prior := by
  intro p hp
  subst hp
  exact hdone p h.1 h.2.1

end Tickets

variable {c c' : Chain}

theorem Ordered.done_of_released (h : Ordered c) {i j : ℕ} {prior : Option ℕ}
    (hwaiting : c.tickets[j]? = some (.waiting prior)) (hreleased : Released c.tickets prior)
    (hij : i < j) (hi : Member c.tickets i) : c.tickets[i]? = some .done := by
  have hlast := h.prior j prior hwaiting
  cases prior with
  | none => exact absurd hi (hlast i hij)
  | some p =>
    have hp : c.tickets[p]? = some .done := hreleased p rfl
    rcases Nat.lt_trichotomy i p with hip | hip | hip
    · exact h.done i p hip hi (.inr hp)
    · exact hip ▸ hp
    · exact absurd hi (hlast.2.2 i hip hij)

theorem Ordered.append (h : Ordered c) {a : Ticket} {last : Option ℕ} (hbegun : ¬Begun [a] 0)
    (hlast : LastBefore (c.tickets ++ [a]) (c.tickets.length + 1) last)
    (hprior : ∀ prior, a = .waiting prior → prior = c.last) :
    Ordered ⟨c.tickets ++ [a], last, c.started⟩ where
  last := by
    rw [List.length_append, List.length_singleton]
    exact hlast
  prior := by
    intro i prior hi
    rcases getElem?_append_eq_some hi with hold | ⟨rfl, ha⟩
    · have hlt : i < c.tickets.length := (List.getElem?_eq_some_iff.mp hold).1
      exact (h.prior i prior hold).congr fun k hk => member_append (hk.trans hlt)
    · rw [hprior prior ha.symm]
      exact h.last.congr fun k hk => member_append hk
  done := by
    intro i j hij hi hj
    have hj' := (begun_append hbegun).mp hj
    have hlt : i < c.tickets.length := hij.trans hj'.member.lt
    rw [getElem?_append_of_lt hlt]
    exact h.done i j hij ((member_append hlt).mp hi) hj'
  started := fun i => (h.started i).trans (begun_append hbegun).symm
  sorted := h.sorted

theorem Ordered.pass (h : Ordered c) :
    Ordered ⟨c.tickets ++ [.outside], c.last, c.started⟩ := by
  have hnew : ¬Member (c.tickets ++ [.outside]) c.tickets.length := by
    rintro ⟨a, ha, hne⟩
    rw [List.getElem?_concat_length] at ha
    exact hne (Option.some.inj ha).symm
  apply h.append
  · rintro (hbegun | hbegun)
    · exact Ticket.noConfusion (Option.some.inj hbegun)
    · exact Ticket.noConfusion (Option.some.inj hbegun)
  · have hold : LastBefore (c.tickets ++ [.outside]) c.tickets.length c.last :=
      h.last.congr fun k hk => member_append hk
    cases hlast : c.last with
    | none =>
      rw [hlast] at hold
      intro i hi
      rcases Nat.lt_succ_iff_lt_or_eq.mp hi with hi | rfl
      · exact hold i hi
      · exact hnew
    | some p =>
      rw [hlast] at hold
      refine ⟨hold.1.trans (Nat.lt_succ_self _), hold.2.1, fun i hpi hi => ?_⟩
      rcases Nat.lt_succ_iff_lt_or_eq.mp hi with hi | rfl
      · exact hold.2.2 i hpi hi
      · exact hnew
  · exact fun prior hprior => Ticket.noConfusion hprior

theorem Ordered.queue (h : Ordered c) :
    Ordered ⟨c.tickets ++ [.waiting c.last], some c.tickets.length, c.started⟩ := by
  apply h.append
  · rintro (hbegun | hbegun)
    · exact Ticket.noConfusion (Option.some.inj hbegun)
    · exact Ticket.noConfusion (Option.some.inj hbegun)
  · refine ⟨Nat.lt_succ_self _, ⟨_, List.getElem?_concat_length, Ticket.noConfusion⟩, ?_⟩
    intro i hlt hi
    omega
  · exact fun prior hprior => (Ticket.waiting.inj hprior).symm

theorem Ordered.start (h : Ordered c) {i : ℕ} {prior : Option ℕ}
    (hwaiting : c.tickets[i]? = some (.waiting prior)) (hreleased : Released c.tickets prior) :
    Ordered ⟨c.tickets.set i .running, c.last, c.started ++ [i]⟩ := by
  have hmember (j : ℕ) : Member (c.tickets.set i .running) j ↔ Member c.tickets j :=
    member_set hwaiting Ticket.noConfusion Ticket.noConfusion
  have hnew : (c.tickets.set i .running)[i]? = some .running := getElem?_set_of_some hwaiting
  -- it is waiting, so it has neither begun nor ended
  have hnotbegun : ¬Begun c.tickets i := by
    rintro (hi | hi)
    · exact Ticket.noConfusion (Option.some.inj (hwaiting.symm.trans hi))
    · exact Ticket.noConfusion (Option.some.inj (hwaiting.symm.trans hi))
  have hbegun (j : ℕ) (hij : i ≠ j) : Begun (c.tickets.set i .running) j ↔ Begun c.tickets j := by
    rw [Begun, Begun, getElem?_set_of_ne hij]
  have hbelow (j : ℕ) (hj : Begun c.tickets j) : j < i := by
    rcases Nat.lt_trichotomy j i with hji | rfl | hij
    · exact hji
    · exact absurd hj hnotbegun
    · -- a later ticket begins only behind the end of this one
      have hdone := h.done i j hij ⟨_, hwaiting, Ticket.noConfusion⟩ hj
      exact absurd (.inr hdone) hnotbegun
  refine ⟨?_, ?_, ?_, ?_, ?_⟩
  · rw [List.length_set]
    exact h.last.congr fun j _ => hmember j
  · intro j p hj
    have hij : i ≠ j := by
      rintro rfl
      exact Ticket.noConfusion (Option.some.inj (hnew.symm.trans hj))
    rw [getElem?_set_of_ne hij] at hj
    exact (h.prior j p hj).congr fun k _ => hmember k
  · intro k j hkj hk hj
    have hk' := (hmember k).mp hk
    by_cases hij : i = j
    · subst hij
      rw [getElem?_set_of_ne hkj.ne']
      -- the one before has been released, and with it all before
      exact h.done_of_released hwaiting hreleased hkj hk'
    · have hj' := (hbegun j hij).mp hj
      have hki : i ≠ k := (hkj.trans (hbelow j hj')).ne'
      rw [getElem?_set_of_ne hki]
      exact h.done k j hkj hk' hj'
  · intro j
    rw [List.mem_append, List.mem_singleton, h.started j]
    by_cases hij : i = j
    · subst hij
      exact ⟨fun _ => .inl hnew, fun _ => .inr rfl⟩
    · rw [hbegun j hij, or_iff_left (Ne.symm hij)]
  · rw [List.pairwise_append]
    refine ⟨h.sorted, List.pairwise_singleton _ _, fun j hj k hk => ?_⟩
    rw [List.mem_singleton.mp hk]
    exact hbelow j ((h.started j).mp hj)

theorem Ordered.finish (h : Ordered c) {i : ℕ} (hrunning : c.tickets[i]? = some .running) :
    Ordered ⟨c.tickets.set i .done, c.last, c.started⟩ := by
  have hmember (j : ℕ) : Member (c.tickets.set i .done) j ↔ Member c.tickets j :=
    member_set hrunning Ticket.noConfusion Ticket.noConfusion
  have hnew : (c.tickets.set i .done)[i]? = some .done := getElem?_set_of_some hrunning
  have hbegun (j : ℕ) : Begun (c.tickets.set i .done) j ↔ Begun c.tickets j := by
    by_cases hij : i = j
    · subst hij
      exact ⟨fun _ => .inl hrunning, fun _ => .inr hnew⟩
    · rw [Begun, Begun, getElem?_set_of_ne hij]
  refine ⟨?_, ?_, ?_, fun j => (h.started j).trans (hbegun j).symm, h.sorted⟩
  · rw [List.length_set]
    exact h.last.congr fun j _ => hmember j
  · intro j p hj
    have hij : i ≠ j := by
      rintro rfl
      exact Ticket.noConfusion (Option.some.inj (hnew.symm.trans hj))
    rw [getElem?_set_of_ne hij] at hj
    exact (h.prior j p hj).congr fun k _ => hmember k
  · intro k j hkj hk hj
    have hdone := h.done k j hkj ((hmember k).mp hk) ((hbegun j).mp hj)
    by_cases hik : i = k
    · exact hik ▸ hnew
    · rw [getElem?_set_of_ne hik]
      exact hdone

theorem Ordered.step (h : Ordered c) (hstep : Step c c') : Ordered c' := by
  cases hstep with
  | stay => exact h
  | pass => exact h.pass
  | queue => exact h.queue
  | start i prior hwaiting hreleased => exact h.start hwaiting hreleased
  | finish i hrunning => exact h.finish hrunning

namespace Ordered

variable {i j : ℕ}

theorem released_of_done (h : Ordered c) {prior : Option ℕ}
    (hwaiting : c.tickets[j]? = some (.waiting prior))
    (hdone : ∀ i < j, Member c.tickets i → c.tickets[i]? = some .done) : Released c.tickets prior :=
  (h.prior j prior hwaiting).released hdone

open Classical in
/-- As long as a ticket waits a task runs, or one of those that wait may start. -/
theorem progress (h : Ordered c) {prior : Option ℕ} (hj : c.tickets[j]? = some (.waiting prior)) :
    (∃ i : ℕ, c.tickets[i]? = some .running) ∨
      ∃ (i : ℕ) (prior : Option ℕ),
        c.tickets[i]? = some (.waiting prior) ∧ Released c.tickets prior := by
  -- the first ticket of the chain that has not ended
  have hex : ∃ i : ℕ, Member c.tickets i ∧ c.tickets[i]? ≠ some .done := by
    refine ⟨j, ⟨_, hj, Ticket.noConfusion⟩, fun hdone => ?_⟩
    exact Ticket.noConfusion (Option.some.inj (hj.symm.trans hdone))
  have hspec := Nat.find_spec hex
  have hfirst (i : ℕ) (hi : i < Nat.find hex) (hm : Member c.tickets i) :
      c.tickets[i]? = some .done := by
    by_contra hdone
    exact Nat.find_min hex hi ⟨hm, hdone⟩
  obtain ⟨⟨a, ha, hne⟩, hnotdone⟩ := hspec
  cases a with
  | outside => exact absurd rfl hne
  | waiting p => exact .inr ⟨_, p, ha, h.released_of_done ha hfirst⟩
  | running => exact .inl ⟨_, ha⟩
  | done => exact absurd ha hnotdone

end Ordered

end TicketChain
