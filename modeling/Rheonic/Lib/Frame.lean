import Rheonic.Lib.Effect

namespace Effect

variable {ε σ τ α β : Type} {part : σ → τ}

/-- The program leaves a part of the trace as it is. -/
def Keeps (part : σ → τ) (body : Effect ε σ α) : Prop := ∀ s, part (exec body s).2 = part s

theorem keeps_pure (a : α) : Keeps part (pure a : Effect ε σ α) := fun _ => rfl

theorem keeps_throw (e : ε) : Keeps part (throw e : Effect ε σ α) := fun _ => rfl

theorem keeps_answer (raised : β → ε) (reply : Except β α) :
    Keeps part (answer raised reply : Effect ε σ α) := by
  cases reply with
  | ok a => exact keeps_pure a
  | error e => exact keeps_throw _

theorem keeps_modify {f : σ → σ} (hf : ∀ s, part (f s) = part s) :
    Keeps part (modify f : Effect ε σ Unit) := hf

theorem Keeps.bind {body : Effect ε σ α} {f : α → Effect ε σ β} (hbody : Keeps part body)
    (hf : ∀ a, Keeps part (f a)) : Keeps part (body >>= f) := by
  intro s
  have hfirst := hbody s
  cases hexec : exec body s with
  | mk result t =>
    rw [hexec] at hfirst
    cases result with
    | ok a => rw [exec_bind_ok f hexec, hf a t, hfirst]
    | error e => rw [exec_bind_error f hexec, hfirst]

theorem Keeps.handle {catches : ε → Bool} {body : Effect ε σ α} {handler : ε → Effect ε σ α}
    (hbody : Keeps part body) (hhandler : ∀ e, Keeps part (handler e)) :
    Keeps part (Effect.handle catches body handler) := by
  intro s
  have hfirst := hbody s
  cases hexec : exec body s with
  | mk result t =>
    rw [hexec] at hfirst
    cases result with
    | ok a => rw [exec_handle_ok hexec, hfirst]
    | error e =>
      cases hcatch : catches e with
      | true => rw [exec_handle_caught hexec hcatch, hhandler e t, hfirst]
      | false => rw [exec_handle_escaped hexec hcatch, hfirst]

end Effect
