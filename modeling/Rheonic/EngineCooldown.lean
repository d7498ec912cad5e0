import Rheonic.EngineBisimulation

namespace Rheonic.ProtectEngine
open PyText

def Implementation.after (m : Implementation) (s : Engine) (calls : List Call) : Engine :=
  calls.foldl (fun s call => (m.evaluate s call).engine) s

/-- The calls of a run that reached the backend, with what it answered. -/
def Implementation.answered (m : Implementation) : Engine → List Call → List Call
  | _, [] => []
  | s, call :: rest =>
    let outcome := m.evaluate s call
    if outcome.asked then call :: m.answered outcome.engine rest
    else m.answered outcome.engine rest

section Answers

variable (τ : Timestamps)

/-- The answer to the call is a decision whose `blocked_until` is the instant. -/
def Announces (u : ℤ) (call : Call) : Prop :=
  ∃ status body, call.result = .response status (.json body) ∧ isSuccess status = true ∧
    (truthy body.blockedUntil).bind τ.parse = some u

def AnswersBlock (call : Call) : Prop :=
  ∃ status body, call.result = .response status (.json body) ∧ isSuccess status = true ∧
    body.decision = some "block"

/-- While an announced `blocked_until` lies ahead, calls are made for no other provider than the
one whose block announced it. -/
def KeepsToProvider (m : Implementation) (s : Engine) (calls : List Call) : Prop :=
  ∀ pre call post, calls = pre ++ call :: post →
    ∀ c ∈ m.answered s pre, ∀ u : ℤ, Announces τ u c → (call.startedAt : ℤ) < u →
      c.provider = call.provider ∧ AnswersBlock c

/-- What both engines do with their cooldown: one in force answers a call without asking, and one
that is new has been announced by the answer to the call. -/
structure CachesCooldown (m : Implementation) : Prop where
  cooling : ∀ s call, (m.evaluate s call).asked = false →
    ∃ u : ℤ, s.cooldownUntilMs = some u ∧ (call.startedAt : ℤ) < u
  learned : ∀ s call u, (m.evaluate s call).engine.cooldownUntilMs = some u →
    s.cooldownUntilMs = some u ∨ (m.evaluate s call).asked = true ∧ Announces τ u call

end Answers

variable {τ : Timestamps} {m : Implementation}

theorem Engine.of_cooling {s : Engine} {now : ℕ} {u : ℤ} (h : s.cooling now = some u) :
    s.cooldownUntilMs = some u ∧ (now : ℤ) < u := by
  simpa [Engine.cooling, Option.filter_eq_some_iff] using h

theorem Engine.of_updateCooldown {s : Engine} {blockedUntilMs : Option ℤ} {comparedAt expiredAt : ℕ}
    {u : ℤ} (h : (s.updateCooldown blockedUntilMs comparedAt expiredAt).cooldownUntilMs = some u) :
    s.cooldownUntilMs = some u ∨ blockedUntilMs = some u := by
  unfold Engine.updateCooldown at h
  split at h
  · exact .inr h
  · split at h
    · exact absurd h (Option.some_ne_none u).symm
    · exact .inl h

@[simp] theorem Python.updateFailMode_cooldown (s : Engine) (failMode : Option String) :
    (updateFailMode s failMode).cooldownUntilMs = s.cooldownUntilMs := by
  unfold updateFailMode
  split <;> rfl

@[simp] theorem Python.updateTimeout_cooldown (s : Engine) (decisionTimeout : Option ℤ) :
    (updateTimeout s decisionTimeout).cooldownUntilMs = s.cooldownUntilMs := by
  unfold updateTimeout
  split
  · split <;> rfl
  · rfl

@[simp] theorem Node.updateFailMode_cooldown (s : Engine) (failMode : Option String) :
    (updateFailMode s failMode).cooldownUntilMs = s.cooldownUntilMs := by
  unfold updateFailMode
  split <;> rfl

@[simp] theorem Node.updateTimeout_cooldown (s : Engine) (decisionTimeout : Option ℤ) :
    (updateTimeout s decisionTimeout).cooldownUntilMs = s.cooldownUntilMs := by
  unfold updateTimeout
  split
  · split <;> rfl
  · rfl

theorem Python.of_learn {s : Engine} {body : DecisionBody} {comparedAt expiredAt : ℕ} {u : ℤ}
    (h : (learn τ s body comparedAt expiredAt).cooldownUntilMs = some u) :
    s.cooldownUntilMs = some u ∨ (truthy body.blockedUntil).bind τ.parse = some u := by
  rcases Engine.of_updateCooldown h with h | h
  · left
    simpa using h
  · exact .inr h

theorem Node.of_learn {s : Engine} {body : DecisionBody} {comparedAt expiredAt : ℕ} {u : ℤ}
    (h : (learn τ s body comparedAt expiredAt).cooldownUntilMs = some u) :
    s.cooldownUntilMs = some u ∨ (truthy body.blockedUntil).bind τ.parse = some u := by
  rcases Engine.of_updateCooldown h with h | h
  · left
    simpa using h
  · exact .inr (Option.filter_eq_some_iff.mp h).1

theorem python_cachesCooldown (τ : Timestamps) : CachesCooldown τ (python τ) where
  cooling := by
    intro s call hasked
    cases hcooling : s.cooling call.startedAt with
    | some u => exact ⟨u, Engine.of_cooling hcooling⟩
    | none =>
      simp only [python, Python.evaluate, hcooling] at hasked
      split at hasked
      · split at hasked <;> cases hasked
      · cases hasked
  learned := by
    intro s call u hu
    simp only [python, Python.evaluate] at hu ⊢
    split at hu
    · exact .inl hu
    · split at hu
      · next status body hresult =>
        split at hu
        · next hsuccess =>
          rcases Python.of_learn hu with h | h
          · exact .inl h
          · refine .inr ⟨?_, status, body, hresult, hsuccess, h⟩
            simp [hsuccess]
        · exact .inl hu
      · exact .inl hu

theorem node_cachesCooldown (τ : Timestamps) : CachesCooldown τ (node τ) where
  cooling := by
    intro s call hasked
    cases hcooling : s.cooling call.startedAt with
    | some u => exact ⟨u, Engine.of_cooling hcooling⟩
    | none =>
      simp only [node, Node.evaluate, hcooling] at hasked
      split at hasked
      · split at hasked
        · split at hasked <;> cases hasked
        · cases hasked
      · cases hasked
  learned := by
    intro s call u hu
    simp only [node, Node.evaluate] at hu ⊢
    split at hu
    · exact .inl hu
    · split at hu
      · next status content hresult =>
        split at hu
        · next hsuccess =>
          split at hu
          · rcases Node.of_learn hu with h | h
            · exact .inl h
            · exact absurd h (by simp [truthy])
          · exact .inl hu
          · next body =>
            rcases Node.of_learn hu with h | h
            · exact .inl h
            · refine .inr ⟨?_, status, body, hresult, hsuccess, h⟩
              simp [hsuccess]
        · exact .inl hu
      · exact .inl hu

theorem mem_of_mem_answered {s : Engine} {calls : List Call} {c : Call}
    (h : c ∈ m.answered s calls) : c ∈ calls := by
  induction calls generalizing s with
  | nil => exact h
  | cons call rest ih =>
    simp only [Implementation.answered] at h
    split at h
    · rcases List.mem_cons.mp h with rfl | h
      · exact List.mem_cons_self
      · exact List.mem_cons_of_mem _ (ih h)
    · exact List.mem_cons_of_mem _ (ih h)

/-- A cooldown that an engine holds after a run has been announced by an answer of the run, or it
was there before. -/
theorem CachesCooldown.announced (hm : CachesCooldown τ m) {s : Engine} {calls : List Call} {u : ℤ}
    (h : (m.after s calls).cooldownUntilMs = some u) :
    s.cooldownUntilMs = some u ∨ ∃ c ∈ m.answered s calls, Announces τ u c := by
  induction calls generalizing s with
  | nil => exact .inl h
  | cons call rest ih =>
    rcases ih h with hfirst | ⟨c, hc, hannounces⟩
    · rcases hm.learned s call u hfirst with hold | ⟨hasked, hannounces⟩
      · exact .inl hold
      · refine .inr ⟨call, ?_, hannounces⟩
        simp [Implementation.answered, hasked]
    · refine .inr ⟨c, ?_, hannounces⟩
      simp only [Implementation.answered]
      split
      · exact List.mem_cons_of_mem _ hc
      · exact hc

/-- In either language: where calls keep to the provider of an announced cooldown, a call is
blocked locally only under a block that the backend has answered for its own provider. -/
theorem local_block_of_own_answer (τ : Timestamps) {m : Implementation}
    (hm : m ∈ [python τ, node τ]) {s : Engine} (hs : s.cooldownUntilMs = none) {calls : List Call}
    (hkeeps : KeepsToProvider τ m s calls) {pre post : List Call} {call : Call}
    (hcalls : calls = pre ++ call :: post)
    (hlocal : (m.evaluate (m.after s pre) call).asked = false) :
    ∃ c ∈ m.answered s pre, c.provider = call.provider ∧ AnswersBlock c ∧
      ∃ u : ℤ, Announces τ u c ∧ (call.startedAt : ℤ) < u := by
  have hcaches : CachesCooldown τ m := by
    rcases List.mem_pair.mp hm with rfl | rfl
    · exact python_cachesCooldown τ
    · exact node_cachesCooldown τ
  obtain ⟨u, hcooldown, hlater⟩ := hcaches.cooling _ call hlocal
  rcases hcaches.announced hcooldown with hold | ⟨c, hc, hannounces⟩
  · rw [hs] at hold
    exact absurd hold (Option.some_ne_none u).symm
  · obtain ⟨hprovider, hblock⟩ := hkeeps pre call post hcalls c hc u hannounces hlater
    exact ⟨c, hc, hprovider, hblock, u, hannounces, hlater⟩

/-- A call at two seconds, after a block of openai until thirty-one seconds. -/
def blockThenCall (provider : String) : List Call :=
  [⟨"openai", 1000, 1100, 1101, .response 200 (.json
      { decision := some "block", reason := some "req_cap_breach", blockedUntil := some "31000" })⟩,
    ⟨provider, 2000, 2000, 2000, .networkError⟩]

theorem local_block_of_own_answer_sample :
    ∃ c ∈ (python plainTimestamps).answered ⟨.open, 300, none, none⟩
        ((blockThenCall "openai").take 1), c.provider = "openai" ∧ AnswersBlock c ∧
      ∃ u : ℤ, Announces plainTimestamps u c ∧ ((2000 : ℕ) : ℤ) < u := by
  have hkeeps : KeepsToProvider plainTimestamps (python plainTimestamps) ⟨.open, 300, none, none⟩
      (blockThenCall "openai") := by
    intro pre call post hcalls c hc u hannounces _
    have hprovider : ∀ c ∈ blockThenCall "openai", c.provider = "openai" := by decide
    have hcall : call ∈ blockThenCall "openai" := by simp [hcalls]
    have hmem : c ∈ blockThenCall "openai" := by
      rw [hcalls]
      exact List.mem_append_left _ (mem_of_mem_answered hc)
    refine ⟨(hprovider c hmem).trans (hprovider call hcall).symm, ?_⟩
    obtain ⟨status, body, hresult, hsuccess, _⟩ := hannounces
    rcases List.mem_pair.mp hmem with rfl | rfl
    · cases hresult
      exact ⟨200, _, rfl, rfl, rfl⟩
    · exact absurd hresult nofun
  have hsplit : blockThenCall "openai" = (blockThenCall "openai").take 1 ++
      ⟨"openai", 2000, 2000, 2000, .networkError⟩ :: [] := rfl
  exact local_block_of_own_answer plainTimestamps (List.mem_cons_self ..) rfl hkeeps hsplit
    (by decide)

/-- A call without the backend is owed to a block that answered its own provider. -/
def BlocksByProvider (m : Implementation) : Prop :=
  ∀ (s : Engine) (pre : List Call) (call : Call), s.cooldownUntilMs = none →
    (m.evaluate (m.after s pre) call).asked = false →
    ∃ c ∈ m.answered s pre, c.provider = call.provider ∧ AnswersBlock c ∧
      ∃ u : ℤ, Announces plainTimestamps u c ∧ (call.startedAt : ℤ) < u

theorem not_blocksByProvider {m : Implementation}
    (hlocal : (m.evaluate (m.after ⟨.open, 300, none, none⟩ ((blockThenCall "anthropic").take 1))
      ⟨"anthropic", 2000, 2000, 2000, .networkError⟩).asked = false) : ¬BlocksByProvider m := by
  intro h
  obtain ⟨c, hc, hprovider, _⟩ := h _ _ _ rfl hlocal
  have hothers : ∀ c ∈ (blockThenCall "anthropic").take 1, c.provider ≠ "anthropic" := by decide
  exact hothers c (mem_of_mem_answered hc) hprovider

/-- A block of openai blocks anthropic, in both engines and without an answer for anthropic. -/
theorem block_of_another_provider :
    ¬BlocksByProvider (python plainTimestamps) ∧ ¬BlocksByProvider (node plainTimestamps) :=
  ⟨not_blocksByProvider (by decide), not_blocksByProvider (by decide)⟩

end Rheonic.ProtectEngine
