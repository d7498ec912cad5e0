import Mathlib

namespace CommandProgram

/-- A program that issues commands of type `C` one at a time. A command `c` answers
with a reply of type `R c` or raises, and the program goes on from either. -/
inductive Program (C : Type) (R : C → Type) (ε α : Type) where
  | ret (a : α)
  | raise (e : ε)
  | call (c : C) (k : Except ε (R c) → Program C R ε α)

namespace Program

variable {C : Type} {R : C → Type} {ε α β γ : Type}

def bind : Program C R ε α → (α → Program C R ε β) → Program C R ε β
  | ret a, f => f a
  | raise e, _ => raise e
  | call c k, f => call c fun r => (k r).bind f

instance : Monad (Program C R ε) where
  pure := ret
  bind := bind

/-- Runs the handler where the program raises; what was done before stays done. -/
def tryCatch : Program C R ε α → (ε → Program C R ε α) → Program C R ε α
  | ret a, _ => ret a
  | raise e, h => h e
  | call c k, h => call c fun r => (k r).tryCatch h

instance : MonadExceptOf ε (Program C R ε) where
  throw := raise
  tryCatch := tryCatch

/-- A single command; its failure is raised. -/
def perform (c : C) : Program C R ε (R c) :=
  call c fun
    | .ok r => ret r
    | .error e => raise e

/-- How a program has ended, if it has. -/
def outcome : Program C R ε α → Option (Except ε α)
  | ret a => some (.ok a)
  | raise e => some (.error e)
  | call _ _ => none

/-- The commands' meaning on a state. -/
abbrev Machine (C : Type) (R : C → Type) (ε S : Type) := (c : C) → S → Except ε (R c) × S

variable {S : Type} (m : Machine C R ε S)

def run : Program C R ε α → S → Except ε α × S
  | ret a, s => (.ok a, s)
  | raise e, s => (.error e, s)
  | call c k, s => run (k (m c s).1) (m c s).2

@[simp] theorem run_ret (a : α) (s : S) : run m (ret a) s = (.ok a, s) := rfl

@[simp] theorem run_pure (a : α) (s : S) : run m (pure a) s = (.ok a, s) := rfl

@[simp] theorem run_raise (e : ε) (s : S) :
    run m (raise e : Program C R ε α) s = (.error e, s) := rfl

@[simp] theorem run_throw (e : ε) (s : S) :
    run m (throw e : Program C R ε α) s = (.error e, s) := rfl

@[simp] theorem run_perform (c : C) (s : S) : run m (perform c) s = m c s := by
  rcases h : m c s with ⟨_ | _, _⟩ <;> simp [perform, run, h]

theorem run_bind (p : Program C R ε α) (f : α → Program C R ε β) (s : S) :
    run m (p >>= f) s =
      match run m p s with
      | (.ok a, s') => run m (f a) s'
      | (.error e, s') => (.error e, s') := by
  change run m (p.bind f) s = _
  induction p generalizing s with
  | ret a => rfl
  | raise e => rfl
  | call c k ih => exact ih _ _

theorem bind_assoc (p : Program C R ε α) (f : α → Program C R ε β) (g : β → Program C R ε γ) :
    p >>= f >>= g = p >>= fun a => f a >>= g := by
  change (p.bind f).bind g = p.bind fun a => (f a).bind g
  induction p with
  | ret a => rfl
  | raise e => rfl
  | call c k ih => exact congrArg (call c) (funext ih)

theorem run_tryCatch (p : Program C R ε α) (h : ε → Program C R ε α) (s : S) :
    run m (tryCatchThe ε p h) s =
      match run m p s with
      | (.ok a, s') => (.ok a, s')
      | (.error e, s') => run m (h e) s' := by
  change run m (p.tryCatch h) s = _
  induction p generalizing s with
  | ret a => rfl
  | raise e => rfl
  | call c k ih => exact ih _ _

theorem run_tryCatch_pure (p : Program C R ε α) (h : ε → α) (s : S) :
    ∃ a s', run m (tryCatchThe ε p fun e => pure (h e)) s = (.ok a, s') := by
  rw [run_tryCatch]
  rcases run m p s with ⟨e | a, s'⟩
  · exact ⟨h e, s', rfl⟩
  · exact ⟨a, s', rfl⟩

theorem run_bind_ok {p : Program C R ε α} {f : α → Program C R ε β} {s s'' : S} {b : β}
    (h : run m (p >>= f) s = (.ok b, s'')) :
    ∃ a s', run m p s = (.ok a, s') ∧ run m (f a) s' = (.ok b, s'') := by
  rw [run_bind] at h
  rcases hp : run m p s with ⟨_ | a, s'⟩
  · simp [hp] at h
  · exact ⟨a, s', rfl, by simpa [hp] using h⟩

theorem run_bind_eq {p : Program C R ε α} {f : α → Program C R ε β} {s s' : S} {a : α}
    (h : run m p s = (.ok a, s')) : run m (p >>= f) s = run m (f a) s' := by
  rw [run_bind, h]

/-- Every command the program may issue, whatever the replies, satisfies `P`. -/
inductive Issues (P : C → Prop) : Program C R ε α → Prop
  | ret (a : α) : Issues P (ret a)
  | raise (e : ε) : Issues P (raise e)
  | call (c : C) (k : Except ε (R c) → Program C R ε α) :
      P c → (∀ r, Issues P (k r)) → Issues P (call c k)

namespace Issues

variable {P Q : C → Prop}

theorem pure (a : α) : Issues P (Pure.pure a : Program C R ε α) := .ret a

theorem perform {c : C} (h : P c) : Issues P (perform c : Program C R ε (R c)) := by
  refine .call c _ h fun r => ?_
  cases r with
  | ok r => exact .ret r
  | error e => exact .raise e

theorem bind {p : Program C R ε α} {f : α → Program C R ε β}
    (hp : Issues P p) (hf : ∀ a, Issues P (f a)) : Issues P (p >>= f) := by
  induction hp with
  | ret a => exact hf a
  | raise e => exact .raise e
  | call c k h _ ih => exact .call c _ h ih

theorem tryCatch {p : Program C R ε α} {h : ε → Program C R ε α}
    (hp : Issues P p) (hh : ∀ e, Issues P (h e)) : Issues P (tryCatchThe ε p h) := by
  induction hp with
  | ret a => exact .ret a
  | raise e => exact hh e
  | call c k hc _ ih => exact .call c _ hc ih

theorem ite {b : Prop} [Decidable b] {p q : Program C R ε α}
    (hp : b → Issues P p) (hq : ¬b → Issues P q) : Issues P (if b then p else q) := by
  split
  · exact hp ‹_›
  · exact hq ‹_›

theorem mono {p : Program C R ε α} (h : Issues P p) (hPQ : ∀ c, P c → Q c) : Issues Q p := by
  induction h with
  | ret a => exact .ret a
  | raise e => exact .raise e
  | call c k hc _ ih => exact .call c k (hPQ c hc) ih

theorem run_preserves {p : Program C R ε α} (h : Issues P p) (I : S → Prop)
    (hI : ∀ c s, P c → I s → I (m c s).2) {s : S} (hs : I s) : I (run m p s).2 := by
  induction h generalizing s with
  | ret a => exact hs
  | raise e => exact hs
  | call c k hc _ ih => exact ih _ (hI c s hc hs)

end Issues

/-- Whatever the program answers, it leaves a state in which `I` still holds. -/
def Preserves (I : S → Prop) (p : Program C R ε α) : Prop := ∀ s, I s → I (run m p s).2

namespace Preserves

variable {m} {I : S → Prop}

theorem pure (a : α) : Preserves m I (Pure.pure a : Program C R ε α) := fun _ hs => hs

theorem raise (e : ε) : Preserves m I (Program.raise e : Program C R ε α) := fun _ hs => hs

theorem bind {p : Program C R ε α} {f : α → Program C R ε β} (hp : Preserves m I p)
    (hf : ∀ a, Preserves m I (f a)) : Preserves m I (p >>= f) := by
  intro s hs
  have hmid := hp s hs
  rw [run_bind]
  rcases hrun : run m p s with ⟨e | a, s'⟩
  · rw [hrun] at hmid
    exact hmid
  · rw [hrun] at hmid
    exact hf a s' hmid

theorem tryCatch {p : Program C R ε α} {h : ε → Program C R ε α} (hp : Preserves m I p)
    (hh : ∀ e, Preserves m I (h e)) : Preserves m I (tryCatchThe ε p h) := by
  intro s hs
  have hmid := hp s hs
  rw [run_tryCatch]
  rcases hrun : run m p s with ⟨e | a, s'⟩
  · rw [hrun] at hmid
    exact hh e s' hmid
  · rw [hrun] at hmid
    exact hmid

theorem ite {b : Prop} [Decidable b] {p q : Program C R ε α} (hp : b → Preserves m I p)
    (hq : ¬b → Preserves m I q) : Preserves m I (if b then p else q) := by
  split
  · exact hp ‹_›
  · exact hq ‹_›

theorem bind_of {p : Program C R ε α} {f : α → Program C R ε β} (hp : Preserves m I p)
    (hf : ∀ s a s', I s → run m p s = (.ok a, s') → I s' → I (run m (f a) s').2) :
    Preserves m I (p >>= f) := by
  intro s hs
  have hmid := hp s hs
  rw [run_bind]
  rcases hrun : run m p s with ⟨e | a, s'⟩
  · rw [hrun] at hmid
    exact hmid
  · rw [hrun] at hmid
    exact hf s a s' hs hrun hmid

theorem of_issues {P : C → Prop} {p : Program C R ε α} (h : Issues P p)
    (hI : ∀ c s, P c → I s → I (m c s).2) : Preserves m I p :=
  fun _ hs => h.run_preserves m I hI hs

end Preserves

/-- As long as no command fails the program does not raise, and the costs of the commands it
issues stay within `n`. -/
inductive Within (P : C → Prop) (w : C → ℕ) : ℕ → Program C R ε α → Prop
  | ret (n : ℕ) (a : α) : Within P w n (ret a)
  | call (n : ℕ) (c : C) (k : Except ε (R c) → Program C R ε α) : P c → w c ≤ n →
      (∀ r, Within P w (n - w c) (k (.ok r))) → (∀ e, Issues P (k (.error e))) →
      Within P w n (call c k)

namespace Within

variable {P : C → Prop} {w : C → ℕ} {n n' : ℕ}

theorem issues {p : Program C R ε α} (h : Within P w n p) : Issues P p := by
  induction h with
  | ret n a => exact .ret a
  | call n c k hc _ _ he ih =>
    refine .call c k hc fun r => ?_
    cases r with
    | ok r => exact ih r
    | error e => exact he e

theorem mono {p : Program C R ε α} (h : Within P w n p) (hn : n ≤ n') : Within P w n' p := by
  induction h generalizing n' with
  | ret n a => exact .ret n' a
  | call n c k hc hw _ he ih =>
    exact .call n' c k hc (hw.trans hn) (fun r => ih r (by omega)) he

theorem pure (a : α) : Within P w n (Pure.pure a : Program C R ε α) := .ret n a

theorem perform {c : C} (hc : P c) (hw : w c ≤ n) :
    Within P w n (perform c : Program C R ε (R c)) :=
  .call n c _ hc hw (fun r => .ret _ r) fun e => .raise e

theorem bind (n n' : ℕ) {p : Program C R ε α} {f : α → Program C R ε β} (hp : Within P w n p)
    (hf : ∀ a, Within P w n' (f a)) : Within P w (n + n') (p >>= f) := by
  induction hp with
  | ret n a => exact (hf a).mono (by omega)
  | call n c k hc hw _ he ih =>
    refine .call _ c _ hc (by omega) (fun r => ?_) fun e => (he e).bind fun a => (hf a).issues
    have hcost : n - w c + n' = n + n' - w c := by omega
    exact hcost ▸ ih r

theorem tryCatch {p : Program C R ε α} {h : ε → Program C R ε α} (hp : Within P w n p)
    (hh : ∀ e, Issues P (h e)) : Within P w n (tryCatchThe ε p h) := by
  induction hp with
  | ret n a => exact .ret n a
  | call n c k hc hw _ he ih => exact .call n c _ hc hw ih fun e => (he e).tryCatch hh

theorem ite {b : Prop} [Decidable b] {p q : Program C R ε α} (hp : b → Within P w n p)
    (hq : ¬b → Within P w n q) : Within P w n (if b then p else q) := by
  split
  · exact hp ‹_›
  · exact hq ‹_›

theorem imp {Q : C → Prop} {p : Program C R ε α} (h : Within P w n p) (hPQ : ∀ c, P c → Q c) :
    Within Q w n p := by
  induction h with
  | ret n a => exact .ret n a
  | call n c k hc hw _ he ih =>
    exact .call n c k (hPQ c hc) hw ih fun e => (he e).mono hPQ

/-- Where every command that can be paid for succeeds, the whole program does. -/
theorem run_ok {p : Program C R ε α} {I : ℕ → S → Prop} (h : Within P w n p)
    (hI : ∀ n c s, P c → w c ≤ n → I n s → (∃ r, (m c s).1 = .ok r) ∧ I (n - w c) (m c s).2)
    (hmono : ∀ i j s, i ≤ j → I j s → I i s) {l : ℕ} {s : S} (hs : I (n + l) s) :
    ∃ a s', run m p s = (.ok a, s') ∧ I l s' := by
  induction h generalizing s with
  | ret n a => exact ⟨a, s, rfl, hmono l _ s (by omega) hs⟩
  | call n c k hc hw _ _ ih =>
    obtain ⟨⟨r, hr⟩, hnext⟩ := hI (n + l) c s hc (by omega) hs
    have hcost : n + l - w c = n - w c + l := by omega
    have hrun : run m (.call c k) s = run m (k (.ok r)) (m c s).2 := by rw [run, hr]
    rw [hrun]
    exact ih r (hcost ▸ hnext)

end Within

/-- Once the program has issued `c₀` it issues only commands that satisfy `Q`. -/
inductive After (c₀ : C) (Q : C → Prop) : Program C R ε α → Prop
  | ret (a : α) : After c₀ Q (ret a)
  | raise (e : ε) : After c₀ Q (raise e)
  | call (c : C) (k : Except ε (R c) → Program C R ε α) (h₀ : c = c₀ → ∀ r, Issues Q (k r))
      (hk : ∀ r, After c₀ Q (k r)) : After c₀ Q (call c k)

namespace After

variable {c₀ : C} {Q : C → Prop}

theorem perform (c : C) : After c₀ Q (perform c : Program C R ε (R c)) := by
  refine .call c _ (fun _ r => ?_) fun r => ?_
  · cases r with
    | ok r => exact .ret r
    | error e => exact .raise e
  · cases r with
    | ok r => exact .ret r
    | error e => exact .raise e

theorem of_issues {p : Program C R ε α} (h : Issues Q p) : After c₀ Q p := by
  induction h with
  | ret a => exact .ret a
  | raise e => exact .raise e
  | call c k _ hk ih => exact .call c k (fun _ => hk) ih

theorem bind {p : Program C R ε α} {f : α → Program C R ε β} (hp : After c₀ Q p)
    (hf : ∀ a, Issues Q (f a)) : After c₀ Q (p >>= f) := by
  induction hp with
  | ret a => exact of_issues (hf a)
  | raise e => exact .raise e
  | call c k h₀ _ ih => exact .call c _ (fun hc r => (h₀ hc r).bind hf) ih

theorem bind_of_ne {p : Program C R ε α} {f : α → Program C R ε β}
    (hp : Issues (· ≠ c₀) p) (hf : ∀ a, After c₀ Q (f a)) : After c₀ Q (p >>= f) := by
  induction hp with
  | ret a => exact hf a
  | raise e => exact .raise e
  | call c k hc _ ih => exact .call c _ (fun h => absurd h hc) ih

theorem tryCatch {p : Program C R ε α} {h : ε → Program C R ε α} (hp : After c₀ Q p)
    (hh : ∀ e, Issues Q (h e)) : After c₀ Q (tryCatchThe ε p h) := by
  induction hp with
  | ret a => exact .ret a
  | raise e => exact of_issues (hh e)
  | call c k h₀ _ ih => exact .call c _ (fun hc r => (h₀ hc r).tryCatch hh) ih

end After

end Program

end CommandProgram
