import Rheonic.Lib.Program

namespace CommandProgram
open Program (Machine)

/-- Calls that run side by side over one state: what is left of each, and how the ended ones
ended. -/
structure Pool (Call C : Type) (R : C → Type) (ε α S : Type) where
  state : S
  running : List (Call × Program C R ε α)
  answered : List (Call × Except ε α)

/-- A new call arrives, or a running one issues its next command. -/
inductive PoolAction (Call : Type)
  | start (call : Call)
  | issue (i : ℕ)

namespace Pool

variable {Call C : Type} {R : C → Type} {ε α S : Type}

def idle (s : S) : Pool Call C R ε α S := ⟨s, [], []⟩

/-- A program that has ended is answered at once; another goes on running. -/
def settle (p : Pool Call C R ε α S) (call : Call) (q : Program C R ε α) : Pool Call C R ε α S :=
  match q.outcome with
  | some o => { p with answered := (call, o) :: p.answered }
  | none => { p with running := (call, q) :: p.running }

variable (m : Machine C R ε S) (body : Call → Program C R ε α)

def act (p : Pool Call C R ε α S) : PoolAction Call → Pool Call C R ε α S
  | .start call => p.settle call (body call)
  | .issue i =>
    match p.running[i]? with
    | some (call, .call c k) =>
      { p with state := (m c p.state).2, running := p.running.eraseIdx i }.settle call
        (k (m c p.state).1)
    | _ => p

/-- Any order of arrivals and commands. -/
def after (p : Pool Call C R ε α S) (actions : List (PoolAction Call)) : Pool Call C R ε α S :=
  actions.foldl (act m body) p

end Pool

namespace Program

variable {C : Type} {R : C → Type} {ε α : Type}

/-- The program issues only commands in `P`, and ends only straight after a command whose reply
is in the relation `Q` to the outcome. -/
inductive EndsAfter (P : C → Prop) (Q : (c : C) → Except ε (R c) → Except ε α → Prop) :
    Program C R ε α → Prop
  | call (c : C) (k : Except ε (R c) → Program C R ε α) (hc : P c)
      (hend : ∀ r o, (k r).outcome = some o → Q c r o)
      (hgo : ∀ r, (k r).outcome = none → EndsAfter P Q (k r)) : EndsAfter P Q (call c k)

/-- A command whose failure is passed on, and what follows its reply. -/
theorem EndsAfter.perform_bind {P : C → Prop} {Q : (c : C) → Except ε (R c) → Except ε α → Prop}
    {c : C} {f : R c → Program C R ε α} (hc : P c) (herror : ∀ e, Q c (.error e) (.error e))
    (hend : ∀ a o, (f a).outcome = some o → Q c (.ok a) o)
    (hgo : ∀ a, (f a).outcome = none → EndsAfter P Q (f a)) :
    EndsAfter P Q (perform c >>= f) := by
  refine .call c _ hc ?_ ?_
  · rintro (e | a) o ho
    · obtain rfl : Except.error e = o := Option.some.inj ho
      exact herror e
    · exact hend a o ho
  · rintro (e | a) hr
    · cases hr
    · exact hgo a hr

end Program

namespace Pool

variable {Call C : Type} {R : C → Type} {ε α S : Type}
variable {m : Machine C R ε S} {body : Call → Program C R ε α}

/-- The calls that end without a command, and those that end after one, as `Q₀` and `Q` say. -/
def Obeys (P : C → Prop) (Q₀ : Call → Except ε α → Prop)
    (Q : Call → (c : C) → Except ε (R c) → Except ε α → Prop) (call : Call)
    (q : Program C R ε α) : Prop :=
  (∀ o, q.outcome = some o → Q₀ call o) ∧ (q.outcome = none → q.EndsAfter P (Q call))

def Pending (P : C → Prop) (Q : Call → (c : C) → Except ε (R c) → Except ε α → Prop)
    (p : Pool Call C R ε α S) : Prop :=
  ∀ e ∈ p.running, e.2.EndsAfter P (Q e.1)

variable {P : C → Prop} {Q₀ : Call → Except ε α → Prop}
variable {Q : Call → (c : C) → Except ε (R c) → Except ε α → Prop}

@[simp] theorem settle_state (p : Pool Call C R ε α S) (call : Call) (q : Program C R ε α) :
    (p.settle call q).state = p.state := by
  unfold settle
  cases q.outcome <;> rfl

theorem settle_pending {p : Pool Call C R ε α S} {call : Call} {q : Program C R ε α}
    (hp : p.Pending P Q) (hq : q.outcome = none → q.EndsAfter P (Q call)) :
    (p.settle call q).Pending P Q := by
  unfold settle
  cases h : q.outcome with
  | some o => exact hp
  | none =>
    intro e he
    rcases List.mem_cons.mp he with rfl | he
    · exact hq h
    · exact hp e he

theorem settle_answered (p : Pool Call C R ε α S) (call : Call) (q : Program C R ε α) :
    ((p.settle call q).answered = p.answered) ∨
      ∃ o, q.outcome = some o ∧ (p.settle call q).answered = (call, o) :: p.answered := by
  unfold settle
  cases h : q.outcome with
  | some o => exact .inr ⟨o, rfl, rfl⟩
  | none => exact .inl rfl

/-- Everything that one action can do. -/
inductive Effect (m : Machine C R ε S) (P : C → Prop) (Q₀ : Call → Except ε α → Prop)
    (Q : Call → (c : C) → Except ε (R c) → Except ε α → Prop)
    (p p' : Pool Call C R ε α S) : Prop
  | quiet (hs : p'.state = p.state) (ha : p'.answered = p.answered)
  | ended (call : Call) (o : Except ε α) (hq : Q₀ call o) (hs : p'.state = p.state)
      (ha : p'.answered = (call, o) :: p.answered)
  | command (c : C) (hc : P c) (hs : p'.state = (m c p.state).2) (ha : p'.answered = p.answered)
  | last (call : Call) (c : C) (o : Except ε α) (hc : P c) (hq : Q call c (m c p.state).1 o)
      (hs : p'.state = (m c p.state).2) (ha : p'.answered = (call, o) :: p.answered)

theorem act_effect {p : Pool Call C R ε α S} (hbody : ∀ call, Obeys P Q₀ Q call (body call))
    (hp : p.Pending P Q) (action : PoolAction Call) :
    (p.act m body action).Pending P Q ∧ Effect m P Q₀ Q p (p.act m body action) := by
  cases action with
  | start call =>
    refine ⟨settle_pending hp (hbody call).2, ?_⟩
    rcases settle_answered p call (body call) with ha | ⟨o, ho, ha⟩
    · exact .quiet (settle_state ..) ha
    · exact .ended call o ((hbody call).1 o ho) (settle_state ..) ha
  | issue i =>
    rcases hi : p.running[i]? with _ | ⟨call, q⟩
    · simp only [act, hi]
      exact ⟨hp, .quiet rfl rfl⟩
    · cases hp _ (List.mem_of_getElem? hi) with
      | call c k hc hend hgo =>
        simp only [act, hi]
        constructor
        · refine settle_pending (fun e he => hp e ?_) (hgo _)
          exact List.mem_of_mem_eraseIdx he
        · rcases settle_answered ⟨(m c p.state).2, p.running.eraseIdx i, p.answered⟩ call
            (k (m c p.state).1) with ha | ⟨o, ho, ha⟩
          · exact .command c hc (settle_state ..) ha
          · exact .last call c o hc (hend _ o ho) (settle_state ..) ha

/-- What every effect keeps holds after any order of actions. -/
theorem after_induct {I : Pool Call C R ε α S → Prop}
    (hbody : ∀ call, Obeys P Q₀ Q call (body call))
    (hstep : ∀ p p' : Pool Call C R ε α S, I p → Effect m P Q₀ Q p p' → I p')
    {p : Pool Call C R ε α S} (hp : p.Pending P Q) (hI : I p) (actions : List (PoolAction Call)) :
    (p.after m body actions).Pending P Q ∧ I (p.after m body actions) := by
  induction actions generalizing p with
  | nil => exact ⟨hp, hI⟩
  | cons action actions ih =>
    obtain ⟨hp', heffect⟩ := act_effect (m := m) hbody hp action
    exact ih hp' (hstep _ _ hI heffect)

theorem after_append (p : Pool Call C R ε α S) (actions actions' : List (PoolAction Call)) :
    p.after m body (actions ++ actions') = (p.after m body actions).after m body actions' := by
  simp [after, List.foldl_append]

theorem idle_pending (s : S) : (idle s : Pool Call C R ε α S).Pending P Q := by
  simp [Pending, idle]

end Pool

end CommandProgram
