import Mathlib

namespace Unwinding

/-- A computation on a state that may fail; what it did before it failed stays done. -/
abbrev Action (S ε α : Type) := ExceptT ε (StateM S) α

section Actions

variable {S ε α β : Type}

def exec (m : Action S ε α) (s : S) : Except ε α × S := Id.run (StateT.run (ExceptT.run m) s)

@[simp] theorem exec_pure (a : α) (s : S) : exec (pure a : Action S ε α) s = (.ok a, s) := rfl

@[simp] theorem exec_throw (e : ε) (s : S) :
    exec (throw e : Action S ε α) s = (.error e, s) := rfl

@[simp] theorem exec_modify (f : S → S) (s : S) :
    exec (modify f : Action S ε Unit) s = (.ok (), f s) := rfl

/-- Read something of the state. -/
def query (f : S → α) : Action S ε α := do return f (← get)

@[simp] theorem exec_query (f : S → α) (s : S) :
    exec (query f : Action S ε α) s = (.ok (f s), s) := rfl

/-- A step of the state with its answer. -/
def transaction (f : S → Except ε α × S) : Action S ε α := ExceptT.mk (StateT.mk fun s => pure (f s))

@[simp] theorem exec_transaction (f : S → Except ε α × S) (s : S) : exec (transaction f) s = f s :=
  rfl

def ofResult : Except ε α → Action S ε α
  | .ok a => pure a
  | .error e => throw e

theorem exec_bind (m : Action S ε α) (f : α → Action S ε β) (s : S) :
    exec (m >>= f) s =
      match exec m s with
      | (.ok a, s') => exec (f a) s'
      | (.error e, s') => (.error e, s') := by
  have hbind : exec (m >>= f) s = Id.run (StateT.run (ExceptT.bindCont f (exec m s).1)
    (exec m s).2) := rfl
  rw [hbind]
  rcases exec m s with ⟨e | a, s'⟩
  · rfl
  · rfl

theorem exec_tryCatch (m : Action S ε α) (h : ε → Action S ε α) (s : S) :
    exec (tryCatchThe ε m h) s =
      match exec m s with
      | (.ok a, s') => (.ok a, s')
      | (.error e, s') => exec (h e) s' := by
  have hcatch : exec (tryCatchThe ε m h) s = Id.run (StateT.run (match (exec m s).1 with
    | .ok a => pure (.ok a)
    | .error e => h e) (exec m s).2) := rfl
  rw [hcatch]
  rcases exec m s with ⟨e | a, s'⟩
  · rfl
  · rfl

/-- On states that are `P`-related the computation answers alike, and leaves them `Q`-related. -/
def Lockstep (P Q : S → S → Prop) (m : Action S ε α) : Prop :=
  ∀ s t, P s t → (exec m s).1 = (exec m t).1 ∧ Q (exec m s).2 (exec m t).2

/-- The computation can be left out on one side. -/
def Hidden (P Q : S → S → Prop) (m : Action S ε α) : Prop :=
  ∀ s t, P s t → Q (exec m s).2 t

variable {P P' Q R : S → S → Prop} {m : Action S ε α} {f : α → Action S ε β}

namespace Lockstep

theorem mono (h : Lockstep P Q m) (hQR : ∀ s t, Q s t → R s t) : Lockstep P R m :=
  fun s t hst => ⟨(h s t hst).1, hQR _ _ (h s t hst).2⟩

theorem pre (h : Lockstep P Q m) (hP : ∀ s t, P' s t → P s t) : Lockstep P' Q m :=
  fun s t hst => h s t (hP s t hst)

theorem of_and {T : S → S → Prop} (h : Lockstep P Q m) : Lockstep (fun s t => P s t ∧ T s t) Q m :=
  h.pre fun _ _ hst => hst.1

theorem pure (a : α) : Lockstep P P (Pure.pure a : Action S ε α) := fun _ _ h => ⟨rfl, h⟩

theorem throw (e : ε) : Lockstep P P (throw e : Action S ε α) := fun _ _ h => ⟨rfl, h⟩

theorem ofResult (r : Except ε α) : Lockstep P P (ofResult r : Action S ε α) := by
  cases r with
  | ok a => exact pure a
  | error e => exact throw e

theorem query {g : S → α} (h : ∀ s t, P s t → g s = g t) :
    Lockstep P P (query g : Action S ε α) :=
  fun s t hst => ⟨congrArg Except.ok (h s t hst), hst⟩

theorem transaction {g : S → Except ε α × S}
    (h : ∀ s t, P s t → (g s).1 = (g t).1 ∧ Q (g s).2 (g t).2) :
    Lockstep P Q (transaction g) := h

theorem bind (hm : Lockstep P Q m) (hQR : ∀ s t, Q s t → R s t)
    (hf : ∀ a s t, P s t → (exec m s).1 = .ok a → Lockstep Q R (f a)) :
    Lockstep P R (m >>= f) := by
  intro s t hst
  obtain ⟨hanswer, hafter⟩ := hm s t hst
  have hnext := fun a => hf a s t hst
  rw [exec_bind, exec_bind]
  rcases hs : exec m s with ⟨e | a, s'⟩
  · rcases ht : exec m t with ⟨e' | a', t'⟩
    · rw [hs, ht] at hanswer hafter
      exact ⟨congrArg Except.error (Except.error.inj hanswer), hQR _ _ hafter⟩
    · rw [hs, ht] at hanswer
      exact absurd hanswer (by simp)
  · rcases ht : exec m t with ⟨e' | a', t'⟩
    · rw [hs, ht] at hanswer
      exact absurd hanswer (by simp)
    · rw [hs, ht] at hanswer hafter
      rw [hs] at hnext
      rw [← Except.ok.inj hanswer]
      exact hnext a rfl s' t' hafter

theorem query_bind {g : S → α} (hg : ∀ s t, P s t → g s = g t)
    (hf : ∀ a, Lockstep (fun s t => P s t ∧ g s = a ∧ g t = a) R (f a)) :
    Lockstep P R (Unwinding.query g >>= f) := by
  intro s t hst
  have heq := hg s t hst
  rw [exec_bind, exec_bind, exec_query, exec_query]
  dsimp only
  rw [heq]
  exact hf (g t) s t ⟨hst, heq, rfl⟩

theorem tryCatch {h : ε → Action S ε α} (hm : Lockstep P Q m) (hh : ∀ e, Lockstep Q Q (h e)) :
    Lockstep P Q (tryCatchThe ε m h) := by
  intro s t hst
  obtain ⟨hanswer, hafter⟩ := hm s t hst
  rw [exec_tryCatch, exec_tryCatch]
  rcases hs : exec m s with ⟨e | a, s'⟩
  · rcases ht : exec m t with ⟨e' | a', t'⟩
    · rw [hs, ht] at hanswer hafter
      rw [← Except.error.inj hanswer]
      exact hh e s' t' hafter
    · rw [hs, ht] at hanswer
      exact absurd hanswer (by simp)
  · rcases ht : exec m t with ⟨e' | a', t'⟩
    · rw [hs, ht] at hanswer
      exact absurd hanswer (by simp)
    · rw [hs, ht] at hanswer hafter
      exact ⟨hanswer, hafter⟩

end Lockstep

namespace Hidden

theorem pre (h : Hidden P Q m) (hP : ∀ s t, P' s t → P s t) : Hidden P' Q m :=
  fun s t hst => h s t (hP s t hst)

theorem of_and {T : S → S → Prop} (h : Hidden P Q m) : Hidden (fun s t => P s t ∧ T s t) Q m :=
  h.pre fun _ _ hst => hst.1

theorem mono (h : Hidden P Q m) (hQR : ∀ s t, Q s t → R s t) : Hidden P R m :=
  fun s t hst => hQR _ _ (h s t hst)

theorem pure (a : α) : Hidden P P (Pure.pure a : Action S ε α) := fun _ _ h => h

theorem throw (e : ε) : Hidden P P (throw e : Action S ε α) := fun _ _ h => h

theorem ofResult (r : Except ε α) : Hidden P P (ofResult r : Action S ε α) := by
  cases r with
  | ok a => exact pure a
  | error e => exact throw e

theorem transaction {g : S → Except ε α × S} (h : ∀ s t, P s t → Q (g s).2 t) :
    Hidden P Q (transaction g) := h

theorem bind (hm : Hidden P Q m) (hQR : ∀ s t, Q s t → R s t)
    (hf : ∀ a s t, P s t → (exec m s).1 = .ok a → Hidden Q R (f a)) : Hidden P R (m >>= f) := by
  intro s t hst
  have hafter := hm s t hst
  have hnext := fun a => hf a s t hst
  rw [exec_bind]
  rcases hs : exec m s with ⟨e | a, s'⟩
  · rw [hs] at hafter
    exact hQR _ _ hafter
  · rw [hs] at hafter hnext
    exact hnext a rfl s' t hafter

theorem query_bind {g : S → α} (hf : ∀ a, Hidden (fun s t => P s t ∧ g s = a) R (f a)) :
    Hidden P R (Unwinding.query g >>= f) := by
  intro s t hst
  rw [exec_bind, exec_query]
  exact hf (g s) s t ⟨hst, rfl⟩

theorem tryCatch {h : ε → Action S ε α} (hm : Hidden P Q m) (hh : ∀ e, Hidden Q Q (h e)) :
    Hidden P Q (tryCatchThe ε m h) := by
  intro s t hst
  have hafter := hm s t hst
  rw [exec_tryCatch]
  rcases hs : exec m s with ⟨e | a, s'⟩
  · rw [hs] at hafter
    exact hh e s' t hafter
  · rw [hs] at hafter
    exact hafter

end Hidden

end Actions

section Runs

variable {S A O : Type}

/-- One step of a run: the state before it, the action and the answer. -/
structure Entry (S A O : Type) where
  before : S
  action : A
  answer : O

/-- The runs of a system whose steps happen under a guard. -/
inductive Runs (step : S → A → O × S) (guard : S → A → Prop) :
    S → List A → List (Entry S A O) → S → Prop
  | nil (s : S) : Runs step guard s [] [] s
  | cons {s s' : S} {a : A} {as : List A} {log : List (Entry S A O)} (hguard : guard s a)
      (hrest : Runs step guard (step s a).2 as log s') :
      Runs step guard s (a :: as) (⟨s, a, (step s a).1⟩ :: log) s'

variable {step : S → A → O × S} {guard : S → A → Prop}

theorem Runs.of_forall {P : A → Prop} {s s' : S} {as : List A} {log : List (Entry S A O)}
    (h : Runs step guard s as log s') (hP : ∀ a ∈ as, P a) :
    Runs step (fun s a => guard s a ∧ P a) s as log s' := by
  induction h with
  | nil s => exact .nil s
  | @cons s s' a as log hguard _ ih =>
    exact .cons ⟨hguard, hP a List.mem_cons_self⟩ (ih fun a' ha' => hP a' (List.mem_cons_of_mem a ha'))

/-- The actions that the observer cannot see can be left out of a run: those that remain are
answered alike wherever the observer looks. -/
theorem answers_alike {visible : A → Bool} {observed : S → A → Prop} {R : S → S → Prop}
    (hhidden : ∀ s t a, visible a = false → guard s a → R s t → R (step s a).2 t)
    (hvisible : ∀ s t a, visible a = true → guard s a → guard t a → R s t →
      R (step s a).2 (step t a).2 ∧ (observed s a → (step s a).1 = (step t a).1))
    {s t s' t' : S} {as : List A} {log log' : List (Entry S A O)}
    (hrun : Runs step guard s as log s')
    (hrun' : Runs step guard t (as.filter visible) log' t') (hR : R s t) :
    List.Forall₂ (fun e e' => e.action = e'.action ∧
        (observed e.before e.action → e.answer = e'.answer))
      (log.filter fun e => visible e.action) log' := by
  induction hrun generalizing t log' with
  | nil s =>
    cases hrun'
    exact .nil
  | @cons s s' a as log hguard hrest ih =>
    by_cases ha : visible a = true
    · rw [List.filter_cons_of_pos ha] at hrun'
      cases hrun' with
      | cons hguard' hrest' =>
        obtain ⟨hnext, hanswer⟩ := hvisible s t a ha hguard hguard' hR
        rw [List.filter_cons_of_pos (by exact ha)]
        exact .cons ⟨rfl, hanswer⟩ (ih hrest' hnext)
    · rw [List.filter_cons_of_neg ha] at hrun'
      rw [List.filter_cons_of_neg (by exact ha)]
      rw [Bool.not_eq_true] at ha
      exact ih hrun' (hhidden s t a ha hguard hR)

end Runs

end Unwinding
