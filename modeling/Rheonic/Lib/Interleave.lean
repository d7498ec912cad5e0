import Rheonic.Lib.Program

namespace CommandProgram

inductive Side
  | left
  | right
  deriving DecidableEq, Repr

def Side.swap : Side → Side
  | .left => .right
  | .right => .left

namespace Program

variable {C : Type} {R : C → Type} {ε α β S : Type}

/-- Two programs share one state. At each point one of them issues its next command, or the
environment moves; the trace records who issued what. The run ends when both have ended. -/
inductive Interleaved (m : Machine C R ε S) (env : S → S → Prop) :
    Program C R ε α → Program C R ε β → S → List (Side × C) →
      Except ε α → Except ε β → S → Prop
  | done {p q s a b} (hp : p.outcome = some a) (hq : q.outcome = some b) :
      Interleaved m env p q s [] a b s
  | left {c k q s tr a b s'} (h : Interleaved m env (k (m c s).1) q (m c s).2 tr a b s') :
      Interleaved m env (call c k) q s ((.left, c) :: tr) a b s'
  | right {p c k s tr a b s'} (h : Interleaved m env p (k (m c s).1) (m c s).2 tr a b s') :
      Interleaved m env p (call c k) s ((.right, c) :: tr) a b s'
  | env {p q s s₁ tr a b s'} (he : env s s₁) (h : Interleaved m env p q s₁ tr a b s') :
      Interleaved m env p q s tr a b s'

/-- The run in which the commands are issued in a given order and nothing else happens. -/
def schedule (m : Machine C R ε S) : List Side → Program C R ε α → Program C R ε β → S →
    Option (List (Side × C) × Except ε α × Except ε β × S)
  | .left :: l, call c k, q, s =>
    (schedule m l (k (m c s).1) q (m c s).2).map fun e => ((.left, c) :: e.1, e.2)
  | .right :: l, p, call c k, s =>
    (schedule m l p (k (m c s).1) (m c s).2).map fun e => ((.right, c) :: e.1, e.2)
  | [], p, q, s =>
    match p.outcome, q.outcome with
    | some a, some b => some ([], a, b, s)
    | _, _ => none
  | _, _, _, _ => none

/-- Issue the next command, if there is one. -/
def advance (m : Machine C R ε S) : Program C R ε α → S → Option (Program C R ε α × S)
  | call c k, s => some (k (m c s).1, (m c s).2)
  | _, _ => none

/-- While one program alone issues the commands `tr`, with environment moves between them. -/
inductive Alone (m : Machine C R ε S) (env : S → S → Prop) :
    Program C R ε α → S → List C → Program C R ε α → S → Prop
  | refl (p s) : Alone m env p s [] p s
  | step {c k s tr p' s'} (h : Alone m env (k (m c s).1) (m c s).2 tr p' s') :
      Alone m env (call c k) s (c :: tr) p' s'
  | env {p s s₁ tr p' s'} (he : env s s₁) (h : Alone m env p s₁ tr p' s') :
      Alone m env p s tr p' s'

variable {m : Machine C R ε S} {env : S → S → Prop} {I : S → Prop} {E : S → S → Prop}

/-- In states where `I` holds the program keeps `I`, and no command of it leaves the `E`-class
of the state. -/
inductive Stutters (m : Machine C R ε S) (I : S → Prop) (E : S → S → Prop) :
    Program C R ε α → Prop
  | ret (a : α) : Stutters m I E (ret a)
  | raise (e : ε) : Stutters m I E (raise e)
  | call (c : C) (k : Except ε (R c) → Program C R ε α)
      (hI : ∀ s, I s → I (m c s).2) (hE : ∀ s, I s → E s (m c s).2)
      (hk : ∀ s, I s → Stutters m I E (k (m c s).1)) : Stutters m I E (call c k)

/-- A command keeps `I`, and answers and acts alike on `E`-related states. -/
def Congruent (m : Machine C R ε S) (I : S → Prop) (E : S → S → Prop) (c : C) : Prop :=
  (∀ s, I s → I (m c s).2) ∧ ∀ s t, E s t → (m c s).1 = (m c t).1 ∧ E (m c s).2 (m c t).2

theorem schedule_interleaved {l : List Side} {p : Program C R ε α} {q : Program C R ε β}
    {s s' : S} {tr : List (Side × C)} {a : Except ε α} {b : Except ε β}
    (h : schedule m l p q s = some (tr, a, b, s')) : Interleaved m env p q s tr a b s' := by
  fun_induction schedule m l p q s generalizing tr a b s' with
  | case1 l c k q s ih =>
    obtain ⟨⟨tr', a', b', t⟩, ht, he⟩ := Option.map_eq_some_iff.mp h
    obtain ⟨rfl, rfl, rfl, rfl⟩ : (Side.left, c) :: tr' = tr ∧ a' = a ∧ b' = b ∧ t = s' := by
      simpa using he
    exact .left (ih ht)
  | case2 l p c k s ih =>
    obtain ⟨⟨tr', a', b', t⟩, ht, he⟩ := Option.map_eq_some_iff.mp h
    obtain ⟨rfl, rfl, rfl, rfl⟩ : (Side.right, c) :: tr' = tr ∧ a' = a ∧ b' = b ∧ t = s' := by
      simpa using he
    exact .right (ih ht)
  | case3 p q s a' b' hq hp =>
    obtain ⟨rfl, rfl, rfl, rfl⟩ : [] = tr ∧ a' = a ∧ b' = b ∧ s = s' := by simpa using h
    exact .done hp hq
  | case4 => simp at h
  | case5 => simp at h

/-- A program whose commands stay in the `E`-class cannot be noticed by one whose commands
respect `E`: the other ends as if it had run alone. -/
theorem Interleaved.right_as_alone {p : Program C R ε α} {q : Program C R ε β}
    {s s' t : S} {tr : List (Side × C)} {a : Except ε α} {b : Except ε β}
    (h : Interleaved m env p q s tr a b s') (hE : Equivalence E)
    (hp : Stutters m I E p) (hq : Issues (Congruent m I E) q)
    (henv : ∀ s s₁, env s s₁ → E s s₁ ∧ (I s → I s₁)) (hI : I s) (hst : E s t) :
    (run m q t).1 = b ∧ E s' (run m q t).2 := by
  induction h generalizing t with
  | @done p q s a b hp' hq' =>
    cases q with
    | ret x => exact ⟨by simpa [outcome] using hq', hst⟩
    | raise x => exact ⟨by simpa [outcome] using hq', hst⟩
    | call c k => simp [outcome] at hq'
  | @left c k q s tr a b s' _ ih =>
    cases hp with
    | call _ _ hcI hcE hk =>
      exact ih (hk s hI) hq (hcI s hI) (hE.trans (hE.symm (hcE s hI)) hst)
  | @right p c k s tr a b s' _ ih =>
    cases hq with
    | call _ _ hc hk =>
      obtain ⟨hr, hs⟩ := hc.2 s t hst
      simpa only [run, ← hr] using ih hp (hk _) (hc.1 s hI) hs
  | @env p q s s₁ tr a b s' he _ ih =>
    exact ih hp hq ((henv s s₁ he).2 hI) (hE.trans (hE.symm (henv s s₁ he).1) hst)

theorem Interleaved.symm {p : Program C R ε α} {q : Program C R ε β}
    {s s' : S} {tr : List (Side × C)} {a : Except ε α} {b : Except ε β}
    (h : Interleaved m env p q s tr a b s') :
    Interleaved m env q p s (tr.map fun e => (e.1.swap, e.2)) b a s' := by
  induction h with
  | done hp hq => exact .done hq hp
  | left _ ih => exact .right ih
  | right _ ih => exact .left ih
  | env he _ ih => exact .env he ih

/-- A trace that starts with commands of the right program alone splits there. -/
theorem Interleaved.split_right {p : Program C R ε α} {q : Program C R ε β}
    {s s' : S} {tr tr₁ tr₂ : List (Side × C)} {a : Except ε α} {b : Except ε β}
    (h : Interleaved m env p q s tr a b s') (htr : tr = tr₁ ++ tr₂)
    (hr : ∀ e ∈ tr₁, e.1 = .right) :
    ∃ q₁ s₁, Alone m env q s (tr₁.map Prod.snd) q₁ s₁ ∧
      Interleaved m env p q₁ s₁ tr₂ a b s' := by
  induction h generalizing tr₁ with
  | @done p q s a b hp hq =>
    obtain ⟨rfl, rfl⟩ := List.append_eq_nil_iff.mp htr.symm
    exact ⟨q, s, .refl q s, .done hp hq⟩
  | @left c k q s tr a b s' h ih =>
    cases tr₁ with
    | nil =>
      rw [List.nil_append] at htr
      exact ⟨q, s, .refl q s, htr ▸ h.left⟩
    | cons e tr₁ =>
      rw [List.cons_append, List.cons.injEq] at htr
      have hside := hr e List.mem_cons_self
      simp [← htr.1] at hside
  | @right p c k s tr a b s' h ih =>
    cases tr₁ with
    | nil =>
      rw [List.nil_append] at htr
      exact ⟨_, s, .refl _ s, htr ▸ h.right⟩
    | cons e tr₁ =>
      rw [List.cons_append, List.cons.injEq] at htr
      obtain ⟨rfl, htr⟩ := htr
      obtain ⟨q₁, s₁, halone, hrest⟩ := ih htr fun e he => hr e (List.mem_cons_of_mem _ he)
      exact ⟨q₁, s₁, .step halone, hrest⟩
  | @env p q s s₁ tr a b s' he h ih =>
    obtain ⟨q₁, s₂, halone, hrest⟩ := ih htr hr
    exact ⟨q₁, s₂, .env he halone, hrest⟩

theorem Interleaved.split_left {p : Program C R ε α} {q : Program C R ε β}
    {s s' : S} {tr₁ tr₂ : List (Side × C)} {a : Except ε α} {b : Except ε β}
    (h : Interleaved m env p q s (tr₁ ++ tr₂) a b s') (hl : ∀ e ∈ tr₁, e.1 = .left) :
    ∃ p₁ s₁, Alone m env p s (tr₁.map Prod.snd) p₁ s₁ ∧
      Interleaved m env p₁ q s₁ tr₂ a b s' := by
  have hright : ∀ e ∈ tr₁.map fun e => (e.1.swap, e.2), e.1 = Side.right := by
    intro e he
    obtain ⟨e', he', rfl⟩ := List.mem_map.mp he
    rw [hl e' he', Side.swap]
  obtain ⟨p₁, s₁, halone, hrest⟩ := h.symm.split_right (by rw [List.map_append]) hright
  refine ⟨p₁, s₁, by simpa [Function.comp_def] using halone, ?_⟩
  have hback := hrest.symm
  rw [List.map_map] at hback
  have hswap : (fun e : Side × C => (e.1.swap, e.2)) ∘ (fun e => (e.1.swap, e.2)) = id := by
    funext e
    obtain ⟨side, c⟩ := e
    cases side <;> rfl
  simpa [hswap] using hback

/-- A stretch without the right program's first command is the left program's alone. -/
theorem Interleaved.left_of_not_first {p : Program C R ε α} {c : C}
    {k : Except ε (R c) → Program C R ε β} {q : Program C R ε β} {s s' : S}
    {tr tr₁ tr₂ : List (Side × C)} {a : Except ε α} {b : Except ε β}
    (h : Interleaved m env p q s tr a b s') (hq : q = call c k) (htr : tr = tr₁ ++ tr₂)
    (hnot : (Side.right, c) ∉ tr₁) : ∀ e ∈ tr₁, e.1 = .left := by
  induction h generalizing tr₁ with
  | done hp hq' =>
    obtain ⟨rfl, rfl⟩ := List.append_eq_nil_iff.mp htr.symm
    simp
  | @left c' k' q s tr a b s' _ ih =>
    cases tr₁ with
    | nil => simp
    | cons e tr₁ =>
      rw [List.cons_append, List.cons.injEq] at htr
      intro e' he'
      rcases List.mem_cons.mp he' with rfl | he'
      · rw [← htr.1]
      · exact ih hq htr.2 (fun hmem => hnot (List.mem_cons_of_mem e hmem)) e' he'
  | @right p c' k' s tr a b s' _ ih =>
    cases tr₁ with
    | nil => simp
    | cons e tr₁ =>
      rw [List.cons_append, List.cons.injEq] at htr
      injection hq with hc
      exact absurd (by rw [← htr.1, hc]; exact List.mem_cons_self) hnot
  | env he _ ih => exact ih hq htr hnot

theorem Interleaved.right_of_not_first {p : Program C R ε α} {c : C}
    {k : Except ε (R c) → Program C R ε α} {q : Program C R ε β} {s s' : S}
    {tr₁ tr₂ : List (Side × C)} {a : Except ε α} {b : Except ε β}
    (h : Interleaved m env p q s (tr₁ ++ tr₂) a b s') (hp : p = call c k)
    (hnot : (Side.left, c) ∉ tr₁) : ∀ e ∈ tr₁, e.1 = .right := by
  have hswap : (Side.right, c) ∉ tr₁.map fun e => (e.1.swap, e.2) := by
    intro hmem
    obtain ⟨⟨side, c'⟩, he, heq⟩ := List.mem_map.mp hmem
    cases side <;> simp_all [Side.swap]
  intro e he
  have hleft := h.symm.left_of_not_first hp (by rw [List.map_append]) hswap
    (e.1.swap, e.2) (List.mem_map.mpr ⟨e, he, rfl⟩)
  obtain ⟨side, c'⟩ := e
  cases side <;> simp_all [Side.swap]

/-- The right program's command at the head of a trace is issued after some environment moves. -/
theorem Interleaved.next_right {p : Program C R ε α} {c : C}
    {k : Except ε (R c) → Program C R ε β} {q : Program C R ε β} {s s' : S}
    {tr tr' : List (Side × C)} {a : Except ε α} {b : Except ε β}
    (h : Interleaved m env p q s tr a b s') (hq : q = call c k)
    (htr : tr = (Side.right, c) :: tr') :
    ∃ s₁, Relation.ReflTransGen env s s₁ ∧
      Interleaved m env p (k (m c s₁).1) (m c s₁).2 tr' a b s' := by
  induction h with
  | done hp hq' => simp at htr
  | left h ih => simp at htr
  | @right p c' k' s tr a b s' h ih =>
    injection hq with hc hk
    subst hc
    rw [List.cons.injEq] at htr
    obtain rfl := eq_of_heq hk
    exact ⟨s, .refl, htr.2 ▸ h⟩
  | env he h ih =>
    obtain ⟨s₁, hs₁, hrest⟩ := ih hq htr
    exact ⟨s₁, hs₁.head he, hrest⟩

theorem Alone.trans {p p₁ p₂ : Program C R ε α} {s s₁ s₂ : S} {tr tr' : List C}
    (h : Alone m env p s tr p₁ s₁) (h' : Alone m env p₁ s₁ tr' p₂ s₂) :
    Alone m env p s (tr ++ tr') p₂ s₂ := by
  induction h with
  | refl p s => exact h'
  | step _ ih => exact .step (ih h')
  | env he _ ih => exact .env he (ih h')

theorem Alone.of_env {p : Program C R ε α} {s s₁ : S} (h : Relation.ReflTransGen env s s₁) :
    Alone m env p s [] p s₁ := by
  induction h using Relation.ReflTransGen.head_induction_on with
  | refl => exact .refl p s₁
  | head he _ ih => exact .env he ih

/-- A stretch alone in which `c₀` was issued leaves a program that issues only `Q`. -/
theorem Alone.after {p p₁ : Program C R ε α} {s s₁ : S} {tr : List C} {c₀ : C} {Q : C → Prop}
    (h : Alone m env p s tr p₁ s₁) (hp : After c₀ Q p) (hmem : c₀ ∈ tr ∨ Issues Q p) :
    Issues Q p₁ := by
  induction h with
  | refl p s => simpa using hmem
  | @step c k s tr p' s' _ ih =>
    cases hp with
    | call _ _ h₀ hk =>
      apply ih (hk _)
      rcases hmem with hmem | hQ
      · rcases List.mem_cons.mp hmem with hc | hmem
        · exact .inr (h₀ hc.symm _)
        · exact .inl hmem
      · cases hQ with
        | call _ _ _ hQk => exact .inr (hQk _)
  | env he _ ih => exact ih hp hmem

theorem Issues.stutters {p : Program C R ε α}
    (h : Issues (fun c => ∀ s, I s → I (m c s).2 ∧ E s (m c s).2) p) : Stutters m I E p := by
  induction h with
  | ret a => exact .ret a
  | raise e => exact .raise e
  | call c k hc _ ih =>
    exact .call c k (fun s hs => (hc s hs).1) (fun s hs => (hc s hs).2) fun s _ => ih _

/-- Running the rest after a stretch alone ends as running the whole program. -/
theorem Alone.run_eq {q q₁ : Program C R ε α} {s s₁ t : S} {tr : List C}
    (h : Alone m env q s tr q₁ s₁) (hE : Equivalence E)
    (hq : Issues (Congruent m I E) q) (henv : ∀ s s₁, env s s₁ → E s s₁) (hst : E s t) :
    ∃ t₁, E s₁ t₁ ∧ run m q₁ t₁ = run m q t ∧ Issues (Congruent m I E) q₁ := by
  induction h generalizing t with
  | refl q s => exact ⟨t, hst, rfl, hq⟩
  | @step c k s tr q' s' _ ih =>
    cases hq with
    | call _ _ hc hk =>
      obtain ⟨hr, hs⟩ := hc.2 s t hst
      simpa only [run, ← hr] using ih (hk _) hs
  | @env q s s₁ tr q' s' he _ ih => exact ih hq (hE.trans (hE.symm (henv s s₁ he)) hst)

/-- A stretch alone that issues `c₀` establishes `I` when `c₀` does and everything else the
program may issue keeps it. -/
theorem Alone.establishes {q q₁ : Program C R ε α} {s s₁ : S} {tr : List C} {c₀ : C}
    {P : C → Prop} (h : Alone m env q s tr q₁ s₁) (hq : Issues P q)
    (hP : ∀ c s, P c → I s → I (m c s).2) (hc₀ : ∀ s, P c₀ → I (m c₀ s).2)
    (henv : ∀ s s₁, env s s₁ → I s → I s₁) (hmem : c₀ ∈ tr ∨ I s) : I s₁ := by
  induction h with
  | refl q s => simpa using hmem
  | @step c k s tr q' s' _ ih =>
    cases hq with
    | call _ _ hc hk =>
      refine ih (hk _) ?_
      rcases hmem with hmem | hI
      · rcases List.mem_cons.mp hmem with rfl | hmem
        · exact .inr (hc₀ s hc)
        · exact .inl hmem
      · exact .inr (hP c s hc hI)
  | @env q s s₁ tr q' s' he _ ih => exact ih hq (hmem.imp_right (henv s s₁ he))

end Program

end CommandProgram
