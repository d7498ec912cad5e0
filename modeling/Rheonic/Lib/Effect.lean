import Mathlib

/-- A program that may raise something and that leaves a trace. -/
abbrev Effect (ε σ α : Type) := ExceptT ε (StateM σ) α

namespace Effect

variable {ε σ α β γ : Type} {body : Effect ε σ α} {s t : σ} {a : α} {e : ε}

def exec (body : Effect ε σ α) (s : σ) : Except ε α × σ := (ExceptT.run body).run s

/-- `try` with handlers for what they catch; anything else goes on. -/
def handle (catches : ε → Bool) (body : Effect ε σ α) (handler : ε → Effect ε σ α) : Effect ε σ α :=
  tryCatch body fun e => if catches e then handler e else throw e

/-- What the outside answers, or raises. -/
def answer (raised : β → ε) : Except β α → Effect ε σ α
  | .ok a => pure a
  | .error e => throw (raised e)

@[simp]
theorem exec_pure (a : α) (s : σ) : exec (pure a : Effect ε σ α) s = (.ok a, s) := rfl

@[simp]
theorem exec_throw (e : ε) (s : σ) : exec (throw e : Effect ε σ α) s = (.error e, s) := rfl

@[simp]
theorem exec_modify (f : σ → σ) (s : σ) : exec (modify f : Effect ε σ Unit) s = (.ok (), f s) := rfl

theorem exec_bind_ok (f : α → Effect ε σ β) (h : exec body s = (.ok a, t)) :
    exec (body >>= f) s = exec (f a) t := by
  unfold exec at h ⊢
  simp only [ExceptT.run_bind, StateT.run_bind]
  rw [h]
  rfl

theorem exec_bind_error (f : α → Effect ε σ β) (h : exec body s = (.error e, t)) :
    exec (body >>= f) s = (.error e, t) := by
  unfold exec at h ⊢
  simp only [ExceptT.run_bind, StateT.run_bind]
  rw [h]
  rfl

theorem exec_answer_ok (raised : β → ε) (a : α) (f : α → Effect ε σ γ) (s : σ) :
    exec (answer raised (.ok a) >>= f) s = exec (f a) s :=
  exec_bind_ok f rfl

theorem exec_answer_error (raised : β → ε) (e : β) (f : α → Effect ε σ γ) (s : σ) :
    exec (answer raised (.error e) >>= f) s = (.error (raised e), s) :=
  exec_bind_error f rfl

theorem exec_tryCatch (body : Effect ε σ α) (handler : ε → Effect ε σ α) (s : σ) :
    exec (tryCatch body handler) s =
      match exec body s with
      | (.ok a, t) => (.ok a, t)
      | (.error e, t) => exec (handler e) t := by
  unfold exec
  simp only [ExceptT.run_tryCatch, StateT.run_bind]
  generalize (ExceptT.run body).run s = result
  obtain ⟨result, t⟩ := result
  cases result <;> rfl

variable {catches : ε → Bool} {handler : ε → Effect ε σ α}

theorem exec_handle_ok (h : exec body s = (.ok a, t)) :
    exec (handle catches body handler) s = (.ok a, t) := by
  unfold handle
  rw [exec_tryCatch, h]

theorem exec_handle_caught (h : exec body s = (.error e, t)) (hcatch : catches e = true) :
    exec (handle catches body handler) s = exec (handler e) t := by
  unfold handle
  rw [exec_tryCatch, h]
  dsimp only
  rw [if_pos hcatch]

theorem exec_handle_escaped (h : exec body s = (.error e, t)) (hcatch : catches e = false) :
    exec (handle catches body handler) s = (.error e, t) := by
  unfold handle
  rw [exec_tryCatch, h]
  dsimp only
  rw [hcatch, if_neg (by decide)]
  rfl

theorem exec_handle_rethrow (catches : ε → Bool) (body : Effect ε σ α) (s : σ) :
    exec (handle catches body fun e => throw e) s = exec body s := by
  unfold handle
  rw [exec_tryCatch]
  cases hbody : exec body s with
  | mk result t =>
    cases result with
    | ok a => rfl
    | error e =>
      dsimp only
      split <;> rfl

end Effect
