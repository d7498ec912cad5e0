import Rheonic.EngineCooldown
import Rheonic.PythonWrappers
import Rheonic.NodeWrappers
import Rheonic.Lib.Frame

namespace Rheonic.FailModePolicy
open PyText Effect ProtectEngine

/-- What a client has been told last: the fail mode, and the end of a cooldown. -/
structure Known where
  failMode : FailMode
  cooldownUntil : Option ℤ := none

/-- A decision of the backend that has been heard. -/
structure Heard where
  decision : Decision
  failMode : Option FailMode
  blockedUntil : Option ℤ

/-- What a call is blocked by: a cooldown that was announced, the answer to the call itself, or
without an answer a fail mode that is closed. -/
def Known.Blocks (k : Known) (startedAt : ℕ) (heard : Option Heard) : Prop :=
  (∃ u, k.cooldownUntil = some u ∧ (startedAt : ℤ) < u) ∨
    (∃ h, heard = some h ∧ h.decision = .block) ∨ heard = none ∧ k.failMode = .closed

/-- A cooldown is known from its announcement on, whether or not it is over. -/
def Known.learn (k : Known) (heard : Heard) (comparedAt : ℕ) : Known where
  failMode := heard.failMode.getD k.failMode
  cooldownUntil := (heard.blockedUntil.filter ((comparedAt : ℤ) < ·)).or k.cooldownUntil

/-- The fail mode of a runtime configuration that has been heard. -/
def announcedMode : TransportResult ConfigBody → Option FailMode
  | .response status (.json body) =>
    if isSuccess status then body.protectFailMode.bind parseFailMode else none
  | _ => none

def heardIn (τ : Timestamps) (body : DecisionBody) : Heard where
  decision := (body.decision.map parseDecision).getD .allow
  failMode := body.failMode.bind parseFailMode
  blockedUntil := (truthy body.blockedUntil).bind τ.parse

/-- Python hears a body, Node an empty text as well. -/
def Python.hear (τ : Timestamps) : TransportResult DecisionBody → Option Heard
  | .response status (.json body) => if isSuccess status then some (heardIn τ body) else none
  | _ => none

def Node.hear (τ : Timestamps) : TransportResult DecisionBody → Option Heard
  | .response status (.json body) => if isSuccess status then some (heardIn τ body) else none
  | .response status .empty => if isSuccess status then some (heardIn τ {}) else none
  | _ => none

/-- What an engine does with a call and with what is heard of it. -/
structure Follows (m : Implementation) (hear : TransportResult DecisionBody → Option Heard) :
    Prop where
  cooled : ∀ s call u, s.cooling call.startedAt = some u →
    (m.evaluate s call).evaluation.decision = .block ∧ (m.evaluate s call).engine = s
  heard : ∀ s call h, s.cooling call.startedAt = none → hear call.result = some h →
    (m.evaluate s call).evaluation.decision = h.decision ∧
      (m.evaluate s call).engine.failMode = h.failMode.getD s.failMode ∧
      (m.evaluate s call).engine.cooldownUntilMs =
        (s.updateCooldown h.blockedUntil call.comparedAt call.expiredAt).cooldownUntilMs
  unheard : ∀ s call, s.cooling call.startedAt = none → hear call.result = none →
    (m.evaluate s call).evaluation = fallbackDecision s ∧ (m.evaluate s call).engine = s
  configured : ∀ s result, (m.bootstrap s result).failMode = (announcedMode result).getD s.failMode ∧
    (m.bootstrap s result).cooldownUntilMs = s.cooldownUntilMs

section Engines

variable (τ : Timestamps)

theorem updateFailMode_failMode (s : Engine) (failMode : Option String) :
    (Node.updateFailMode s failMode).failMode = (failMode.bind parseFailMode).getD s.failMode := by
  unfold Node.updateFailMode
  cases failMode.bind parseFailMode <;> rfl

theorem node_updateTimeout_failMode (s : Engine) (timeout : Option ℤ) :
    (Node.updateTimeout s timeout).failMode = s.failMode := by
  unfold Node.updateTimeout
  split
  · split <;> rfl
  · rfl

theorem python_updateTimeout_failMode (s : Engine) (timeout : Option ℤ) :
    (Python.updateTimeout s timeout).failMode = s.failMode := by
  unfold Python.updateTimeout
  split
  · split <;> rfl
  · rfl

theorem updateCooldown_failMode (s : Engine) (blockedUntilMs : Option ℤ) (comparedAt expiredAt : ℕ) :
    (s.updateCooldown blockedUntilMs comparedAt expiredAt).failMode = s.failMode := by
  unfold Engine.updateCooldown
  split
  · rfl
  · split <;> rfl

theorem updateCooldown_congr {s s' : Engine} (h : s.cooldownUntilMs = s'.cooldownUntilMs)
    (blockedUntilMs : Option ℤ) (comparedAt expiredAt : ℕ) :
    (s.updateCooldown blockedUntilMs comparedAt expiredAt).cooldownUntilMs =
      (s'.updateCooldown blockedUntilMs comparedAt expiredAt).cooldownUntilMs := by
  unfold Engine.updateCooldown
  rw [h]
  split
  · rfl
  · split
    · rfl
    · exact h

theorem python_learn (s : Engine) (body : DecisionBody) (comparedAt expiredAt : ℕ) :
    (Python.learn τ s body comparedAt expiredAt).failMode =
        (heardIn τ body).failMode.getD s.failMode ∧
      (Python.learn τ s body comparedAt expiredAt).cooldownUntilMs =
        (s.updateCooldown (heardIn τ body).blockedUntil comparedAt expiredAt).cooldownUntilMs := by
  constructor
  · rw [Python.learn, updateCooldown_failMode, python_updateTimeout_failMode, updateFailMode_eq,
      updateFailMode_failMode]
    rfl
  · apply updateCooldown_congr
    rw [Python.updateTimeout_cooldown, Python.updateFailMode_cooldown]

theorem node_learn (s : Engine) (body : DecisionBody) (comparedAt expiredAt : ℕ) :
    (Node.learn τ s body comparedAt expiredAt).failMode =
        (heardIn τ body).failMode.getD s.failMode ∧
      (Node.learn τ s body comparedAt expiredAt).cooldownUntilMs =
        (s.updateCooldown (heardIn τ body).blockedUntil comparedAt expiredAt).cooldownUntilMs := by
  constructor
  · rw [Node.learn, updateCooldown_failMode, node_updateTimeout_failMode, updateFailMode_failMode]
    rfl
  · rw [updateCooldown_filter s (heardIn τ body).blockedUntil]
    apply updateCooldown_congr
    rw [Node.updateTimeout_cooldown, Node.updateFailMode_cooldown]

variable {τ}

theorem Python.hear_eq_some {result : TransportResult DecisionBody} {h : Heard}
    (hheard : Python.hear τ result = some h) : ∃ status body,
      result = .response status (.json body) ∧ isSuccess status = true ∧ h = heardIn τ body := by
  unfold Python.hear at hheard
  split at hheard
  next status body =>
    split at hheard
    next hsuccess => exact ⟨status, body, rfl, hsuccess, (Option.some.inj hheard).symm⟩
    next => exact absurd hheard (Option.some_ne_none h).symm
  next => exact absurd hheard (Option.some_ne_none h).symm

theorem Python.hear_json (status : ℤ) (body : DecisionBody) :
    Python.hear τ (.response status (.json body)) =
      if isSuccess status then some (heardIn τ body) else none := rfl

theorem Node.hear_eq_some {result : TransportResult DecisionBody} {h : Heard}
    (hheard : Node.hear τ result = some h) : ∃ status content body,
      result = .response status content ∧ (content = .json body ∨ content = .empty ∧ body = {}) ∧
        isSuccess status = true ∧ h = heardIn τ body := by
  unfold Node.hear at hheard
  split at hheard
  next status body =>
    split at hheard
    next hsuccess =>
      exact ⟨status, _, body, rfl, .inl rfl, hsuccess, (Option.some.inj hheard).symm⟩
    next => exact absurd hheard (Option.some_ne_none h).symm
  next status =>
    split at hheard
    next hsuccess =>
      exact ⟨status, _, {}, rfl, .inr ⟨rfl, rfl⟩, hsuccess, (Option.some.inj hheard).symm⟩
    next => exact absurd hheard (Option.some_ne_none h).symm
  next => exact absurd hheard (Option.some_ne_none h).symm

theorem Node.hear_json (status : ℤ) (body : DecisionBody) :
    Node.hear τ (.response status (.json body)) =
      if isSuccess status then some (heardIn τ body) else none := rfl

theorem Node.hear_empty (status : ℤ) : Node.hear τ (.response status .empty) =
    if isSuccess status then some (heardIn τ {}) else none := rfl

theorem announcedMode_json (status : ℤ) (body : ConfigBody) :
    announcedMode (.response status (.json body)) =
      if isSuccess status then body.protectFailMode.bind parseFailMode else none := rfl

variable (τ)

theorem python_follows : Follows (python τ) (Python.hear τ) where
  cooled s call u hu := by
    simp [python, Python.evaluate, hu]
  heard s call h hcooling hheard := by
    obtain ⟨status, body, hresult, hsuccess, rfl⟩ := Python.hear_eq_some hheard
    simp only [python, Python.evaluate, hcooling, hresult, hsuccess, if_true]
    exact ⟨parseDecision_eq body.decision, python_learn τ s body _ _⟩
  unheard s call hcooling hunheard := by
    simp only [python, Python.evaluate, hcooling]
    split
    next status body hresult =>
      rw [hresult, Python.hear_json] at hunheard
      by_cases hsuccess : isSuccess status = true
      · simp [hsuccess] at hunheard
      · rw [if_neg hsuccess]
        exact ⟨rfl, rfl⟩
    next => exact ⟨rfl, rfl⟩
  configured s result := by
    simp only [python, Python.bootstrap]
    cases result with
    | response status content =>
      cases content with
      | json body =>
        rw [announcedMode_json]
        dsimp only
        split
        next =>
          rw [python_updateTimeout_failMode, updateFailMode_eq, updateFailMode_failMode,
            Python.updateTimeout_cooldown, Node.updateFailMode_cooldown]
          exact ⟨rfl, rfl⟩
        next => exact ⟨rfl, rfl⟩
      | empty => exact ⟨rfl, rfl⟩
      | invalid => exact ⟨rfl, rfl⟩
    | timeout => exact ⟨rfl, rfl⟩
    | networkError => exact ⟨rfl, rfl⟩

theorem node_follows : Follows (node τ) (Node.hear τ) where
  cooled s call u hu := by
    simp [node, Node.evaluate, hu]
  heard s call h hcooling hheard := by
    obtain ⟨status, content, body, hresult, hcontent, hsuccess, rfl⟩ := Node.hear_eq_some hheard
    simp only [node, Node.evaluate, hcooling, hresult, hsuccess, if_true]
    -- an empty body is read as an empty object
    rcases hcontent with hjson | ⟨hempty, hbody⟩
    · rw [hjson]
      exact ⟨rfl, node_learn τ s body _ _⟩
    · rw [hempty, hbody]
      exact ⟨rfl, node_learn τ s {} _ _⟩
  unheard s call hcooling hunheard := by
    simp only [node, Node.evaluate, hcooling]
    split
    next status content hresult =>
      rw [hresult] at hunheard
      -- no verdict: the answer falls to the fail mode
      by_cases hsuccess : isSuccess status = true
      · rw [if_pos hsuccess]
        cases content with
        | empty => simp [Node.hear_empty, hsuccess] at hunheard
        | invalid => exact ⟨rfl, rfl⟩
        | json body => simp [Node.hear_json, hsuccess] at hunheard
      · rw [if_neg hsuccess]
        exact ⟨rfl, rfl⟩
    next => exact ⟨rfl, rfl⟩
  configured s result := by
    simp only [node, Node.bootstrap]
    cases result with
    | response status content =>
      cases content with
      | json body =>
        rw [announcedMode_json]
        dsimp only
        split
        next =>
          rw [node_updateTimeout_failMode, updateFailMode_failMode, Node.updateTimeout_cooldown,
            Node.updateFailMode_cooldown]
          exact ⟨rfl, rfl⟩
        next => exact ⟨rfl, rfl⟩
      | empty =>
        dsimp only
        split <;> exact ⟨rfl, rfl⟩
      | invalid =>
        dsimp only
        split <;> exact ⟨rfl, rfl⟩
    | timeout => exact ⟨rfl, rfl⟩
    | networkError => exact ⟨rfl, rfl⟩

end Engines

section Runs

variable {m : Implementation} {hear : TransportResult DecisionBody → Option Heard}

/-- What is known after a step. A call that a known cooldown blocks is not heard of. -/
def Known.after (hear : TransportResult DecisionBody → Option Heard) (k : Known) :
    Step → Known
  | .bootstrap result => { k with failMode := (announcedMode result).getD k.failMode }
  | .evaluate call =>
    if k.cooldownUntil.any ((call.startedAt : ℤ) < ·) then k
    else ((hear call.result).map fun heard => k.learn heard call.comparedAt).getD k

/-- The clock does not go back within a call or between calls. -/
def Orderly : ℕ → List Step → Prop
  | _, [] => True
  | now, .bootstrap _ :: rest => Orderly now rest
  | now, .evaluate call :: rest =>
    now ≤ call.startedAt ∧ call.startedAt ≤ call.comparedAt ∧ call.comparedAt ≤ call.expiredAt ∧
      Orderly call.expiredAt rest

/-- From a time on the engine behaves by what is known, though it forgets a cooldown that is over. -/
structure Reflects (s : Engine) (k : Known) (now : ℕ) : Prop where
  failMode : s.failMode = k.failMode
  cooling : ∀ t, now ≤ t → s.cooling t = k.cooldownUntil.filter ((t : ℤ) < ·)

theorem exists_of_any {value : Option ℤ} {p : ℤ → Bool} (h : value.any p = true) :
    ∃ u, value = some u ∧ p u = true := by
  cases value with
  | none => exact absurd h Bool.false_ne_true
  | some u => exact ⟨u, rfl, h⟩

theorem Reflects.mono {s : Engine} {k : Known} {now later : ℕ} (h : Reflects s k now)
    (hle : now ≤ later) : Reflects s k later :=
  ⟨h.failMode, fun t ht => h.cooling t (hle.trans ht)⟩

theorem Reflects.evaluate {s : Engine} {k : Known} {now : ℕ} {call : Call}
    (hm : Follows m hear) (h : Reflects s k now) (hstarted : now ≤ call.startedAt)
    (hcompared : call.startedAt ≤ call.comparedAt) (hexpired : call.comparedAt ≤ call.expiredAt) :
    Reflects (m.evaluate s call).engine (k.after hear (.evaluate call)) call.expiredAt ∧
      ((m.evaluate s call).evaluation.decision = .block ↔
        k.Blocks call.startedAt (hear call.result)) := by
  have hnow := h.cooling call.startedAt hstarted
  have hlater : now ≤ call.expiredAt := hstarted.trans (hcompared.trans hexpired)
  cases hcooling : s.cooling call.startedAt with
  -- the engine answers by itself, and learns nothing
  | some u =>
    rw [hcooling] at hnow
    obtain ⟨hu, hlt⟩ := Option.filter_eq_some_iff.mp hnow.symm
    have hlt : (call.startedAt : ℤ) < u := by simpa using hlt
    obtain ⟨hblock, hengine⟩ := hm.cooled s call u hcooling
    have hany : k.cooldownUntil.any ((call.startedAt : ℤ) < ·) = true := by simp [hu, hlt]
    rw [hengine, Known.after, if_pos hany]
    exact ⟨h.mono hlater, iff_of_true hblock (.inl ⟨u, hu, hlt⟩)⟩
  -- no answer counts: the fail mode decides
  | none =>
    rw [hcooling] at hnow
    have hnot : ∀ u, k.cooldownUntil = some u → ¬ (call.startedAt : ℤ) < u := by
      intro u hu hlt
      rw [hu, Option.filter_some, if_pos (by simpa using hlt)] at hnow
      exact absurd hnow.symm (Option.some_ne_none u)
    have hany : ¬ k.cooldownUntil.any ((call.startedAt : ℤ) < ·) = true := by
      intro hany
      obtain ⟨u, hu, hlt⟩ := exists_of_any hany
      exact hnot u hu (by simpa using hlt)
    rw [Known.after, if_neg hany]
    cases hheard : hear call.result with
    | none =>
      obtain ⟨hfallback, hengine⟩ := hm.unheard s call hcooling hheard
      rw [hengine, hfallback, fallbackDecision_block_iff, h.failMode]
      refine ⟨h.mono hlater, fun hclosed => .inr (.inr ⟨rfl, hclosed⟩), ?_⟩
      rintro (⟨u, hu, hlt⟩ | ⟨heard, hsome, _⟩ | ⟨_, hclosed⟩)
      · exact absurd hlt (hnot u hu)
      · exact absurd hsome (Option.some_ne_none heard).symm
      · exact hclosed
    -- the answer decides, and tells the fail mode and the cooldown
    | some heard =>
      obtain ⟨hdecision, hmode, hcooldown⟩ := hm.heard s call heard hcooling hheard
      refine ⟨⟨?_, fun t ht => ?_⟩, ?_⟩
      · rw [hmode, h.failMode]
        rfl
      · have hkept := h.cooling t (hlater.trans ht)
        unfold Engine.cooling at hkept ⊢
        rw [hcooldown, Option.map_some, Option.getD_some]
        unfold Engine.updateCooldown Known.learn
        by_cases hnew : heard.blockedUntil.any ((call.comparedAt : ℤ) < ·) = true
        · obtain ⟨u, hu, hlt⟩ := exists_of_any hnew
          have hfilter : heard.blockedUntil.filter ((call.comparedAt : ℤ) < ·) = some u := by
            rw [hu, Option.filter_some, if_pos hlt]
          rw [if_pos hnew, hfilter, hu]
          rfl
        · have hfilter : heard.blockedUntil.filter ((call.comparedAt : ℤ) < ·) = none := by
            cases hblocked : heard.blockedUntil with
            | none => rfl
            | some u => simpa [hblocked] using hnew
          rw [if_neg hnew, hfilter, Option.none_or]
          split
          next hover =>
            -- the engine drops a cooldown that no later call would find in force
            obtain ⟨u, hu, hle⟩ := exists_of_any hover
            have hle : u ≤ (call.expiredAt : ℤ) := by simpa using hle
            have hpast : ¬ (t : ℤ) < u := by omega
            rw [← hkept, hu, Option.filter_some, if_neg (by simpa using hpast)]
            rfl
          next => exact hkept
      · rw [hdecision]
        constructor
        · exact fun hblock => .inr (.inl ⟨heard, rfl, hblock⟩)
        · rintro (⟨u, hu, hlt⟩ | ⟨heard', hsome, hblock⟩ | ⟨hnone, _⟩)
          · exact absurd hlt (hnot u hu)
          · rw [Option.some.inj hsome]
            exact hblock
          · exact absurd hnone (Option.some_ne_none heard)

end Runs

section Wrapped

variable {ε ρ : Type}

/-- A use of a wrapped Python method with a model. -/
structure PythonUse (ε ρ : Type) where
  modelName : Option String
  adapter : Providers.Python.Adapter
  adapter_mem : adapter ∈
    [Providers.Python.openai, Providers.Python.anthropic, Providers.Python.google modelName]
  options : Providers.Python.Options
  world : Providers.Python.World ε ρ
  call : Providers.Python.Call
  named : strip ((adapter.extractRequestedModel call).getD "") ≠ ""

/-- The calls that the provider gets, where the preflight ends with the evaluation. -/
@[irreducible]
def PythonUse.providerCalls (evaluation : Evaluation) (use : PythonUse ε ρ) :
    List Providers.Python.Call :=
  (exec (Providers.Python.wrapped use.adapter use.options
    { use.world with transport := fun _ => .ok evaluation } use.call) {}).2.calls

theorem PythonUse.provider_mem (use : PythonUse ε ρ) :
    Providers.Python.normalizedProvider use.adapter.provider ∈
      Providers.Python.supportedProviders := by
  have hnames : ∀ provider ∈ Providers.Python.supportedProviders,
      Providers.Python.normalizedProvider provider ∈ Providers.Python.supportedProviders := by
    decide
  apply hnames
  have hmem := use.adapter_mem
  simp only [List.mem_cons, List.not_mem_nil, or_false] at hmem
  rcases hmem with h | h | h
  · rw [h]
    exact List.mem_cons_self
  · rw [h]
    exact List.mem_cons_of_mem _ List.mem_cons_self
  · rw [h]
    exact List.mem_cons_of_mem _ (List.mem_cons_of_mem _ List.mem_cons_self)

theorem PythonUse.providerCalls_length (evaluation : Evaluation) (use : PythonUse ε ρ) :
    (use.providerCalls evaluation).length = if evaluation.decision = .block then 0 else 1 := by
  have htransparent := Providers.Python.wrapped_transparent use.adapter use.options
    { use.world with transport := fun _ => .ok evaluation } use.call use.provider_mem use.named
  unfold providerCalls
  by_cases hblock : evaluation.decision = .block
  · rw [if_pos hblock, htransparent.blocked hblock]
    rfl
  · rw [if_neg hblock, htransparent.called hblock]
    rfl

/-- A use of a wrapped Node method with a model. -/
structure NodeUse (ε ρ : Type) where
  adapter : Providers.Node.Adapter
  adapter_mem : adapter ∈ [Providers.Node.openai, Providers.Node.anthropic]
  options : Providers.Node.Options
  world : Providers.Node.World ε ρ
  call : Providers.Node.Call
  named : Providers.Node.isBlank ((Providers.Node.extractRequestedModel call).getD "") = false

@[irreducible]
def NodeUse.providerCalls (evaluation : Evaluation) (use : NodeUse ε ρ) :
    List Providers.Node.Call :=
  (exec (Providers.Node.wrappedCreate use.adapter use.options
    { use.world with decision := evaluation } use.call) {}).2.calls

theorem NodeUse.provider_mem (use : NodeUse ε ρ) :
    use.adapter.provider ∈ Providers.Node.supportedProviders := by
  have hmem := use.adapter_mem
  simp only [List.mem_cons, List.not_mem_nil, or_false] at hmem
  rcases hmem with h | h <;> rw [h] <;> decide

section Captures

variable {a : Providers.Node.Adapter} {options : Providers.Node.Options}
  {w : Providers.Node.World ε ρ}

theorem keeps_captureEventAndFlush (event : Providers.Node.EventPayload) :
    Keeps Providers.Node.Trace.calls
      (Providers.Node.captureEventAndFlush (ε := ε) event) :=
  (keeps_answer _ _).bind fun _ => keeps_modify fun _ => rfl

theorem keeps_captureSuccess (model : Option String) (decision : Evaluation) (response : ρ) :
    Keeps Providers.Node.Trace.calls
      (Providers.Node.captureSuccess a options w model decision response) :=
  (keeps_answer _ _).bind fun _ => (keeps_answer _ _).bind fun _ =>
    (keeps_answer _ _).bind fun _ => keeps_captureEventAndFlush _

theorem keeps_captureFailure (model : Option String) (decision : Evaluation)
    (error : Providers.Node.Thrown ε) :
    Keeps Providers.Node.Trace.calls
      (Providers.Node.captureFailure a options w model decision error) :=
  (keeps_answer _ _).bind fun _ => (keeps_answer _ _).bind fun _ => keeps_captureEventAndFlush _

theorem attempted_calls (c : Providers.Node.Call) :
    (Providers.Node.attempted a options w c).2.calls =
      [(Providers.Node.applyClamp a.limitKeys c w.decision).1] := by
  unfold Providers.Node.attempted
  dsimp only
  generalize (Providers.Node.applyClamp a.limitKeys c w.decision).1 = callArgs
  generalize (Providers.Node.applyClamp a.limitKeys c w.decision).2 = decision
  -- capturing adds no call of the provider
  have hfailure : ∀ error, Keeps Providers.Node.Trace.calls (do
      Providers.Node.captureFailure a options w (Providers.Node.extractRequestedModel c) decision
        error
      throw error : Effect (Providers.Node.Thrown ε) Providers.Node.Trace ρ) :=
    fun error => (keeps_captureFailure _ _ error).bind fun _ => keeps_throw error
  cases hprovider : w.provider with
  | error e =>
    have hcall : exec (Providers.Node.originalCreate w callArgs) {} =
        (.error (.foreign e), { calls := [callArgs] }) := by
      unfold Providers.Node.originalCreate
      rw [hprovider]
      rfl
    rw [exec_handle_caught (exec_bind_error _ hcall) rfl, hfailure]
  | ok response =>
    have hcall : exec (Providers.Node.originalCreate w callArgs) {} =
        (.ok response, { calls := [callArgs] }) := by
      unfold Providers.Node.originalCreate
      rw [hprovider]
      rfl
    have hsuccess : Keeps Providers.Node.Trace.calls (do
        Providers.Node.captureSuccess a options w (Providers.Node.extractRequestedModel c) decision
          response
        pure response : Effect (Providers.Node.Thrown ε) Providers.Node.Trace ρ) :=
      (keeps_captureSuccess _ _ response).bind fun _ => keeps_pure response
    -- so the one call is all there is, whether the capture ends well or not
    have hkept := hsuccess { calls := [callArgs] }
    cases hexec : exec (do
        Providers.Node.captureSuccess a options w (Providers.Node.extractRequestedModel c) decision
          response
        pure response : Effect (Providers.Node.Thrown ε) Providers.Node.Trace ρ)
        { calls := [callArgs] } with
    | mk result t =>
      rw [hexec] at hkept
      cases result with
      | ok value => rw [exec_handle_ok ((exec_bind_ok _ hcall).trans hexec), hkept]
      | error e =>
        rw [exec_handle_caught ((exec_bind_ok _ hcall).trans hexec) rfl, hfailure, hkept]

end Captures

theorem NodeUse.providerCalls_length (evaluation : Evaluation) (use : NodeUse ε ρ) :
    (use.providerCalls evaluation).length = if evaluation.decision = .block then 0 else 1 := by
  unfold providerCalls
  by_cases hblock : evaluation.decision = .block
  · have hvalid : exec (Providers.Node.validateProviderModel (ε := ε) use.adapter.provider
        (Providers.Node.extractRequestedModel use.call)) {} = (.ok (), {}) := by
      unfold Providers.Node.validateProviderModel
      rw [if_neg (not_not.mpr use.provider_mem), if_neg (by simp [use.named])]
      rfl
    unfold Providers.Node.wrappedCreate
    rw [if_pos hblock, exec_bind_ok _ hvalid, if_pos hblock]
    rfl
  · rw [if_neg hblock, Providers.Node.exec_wrappedCreate use.provider_mem hblock, if_neg (by
      simp [use.named]), attempted_calls]
    rfl

end Wrapped

/-- An SDK: its engine, what that hears, and the wrapped calls made through it. -/
structure Client where
  engine : Implementation
  hear : TransportResult DecisionBody → Option Heard
  Use : Type
  providerCalls : Evaluation → Use → ℕ

def pythonClient (τ : Timestamps) (ε ρ : Type) : Client where
  engine := python τ
  hear := Python.hear τ
  Use := PythonUse ε ρ
  providerCalls evaluation use := (use.providerCalls evaluation).length

def nodeClient (τ : Timestamps) (ε ρ : Type) : Client where
  engine := node τ
  hear := Node.hear τ
  Use := NodeUse ε ρ
  providerCalls evaluation use := (use.providerCalls evaluation).length

/-- The engine follows what is heard, and a call is made unless the decision is a block. -/
structure Client.Sound (c : Client) : Prop where
  follows : Follows c.engine c.hear
  called : ∀ (evaluation : Evaluation) (use : c.Use),
    c.providerCalls evaluation use = if evaluation.decision = .block then 0 else 1

theorem pythonClient_sound (τ : Timestamps) (ε ρ : Type) : (pythonClient τ ε ρ).Sound where
  follows := python_follows τ
  called := fun evaluation (use : PythonUse ε ρ) => use.providerCalls_length evaluation

theorem nodeClient_sound (τ : Timestamps) (ε ρ : Type) : (nodeClient τ ε ρ).Sound where
  follows := node_follows τ
  called := fun evaluation (use : NodeUse ε ρ) => use.providerCalls_length evaluation

/-- The engine is configured, or a wrapped method is used with this preflight. -/
inductive Client.Move (c : Client)
  | bootstrap (result : TransportResult ConfigBody)
  | use (call : Call) (use : c.Use)

def Client.Move.step {c : Client} : c.Move → Step
  | .bootstrap result => .bootstrap result
  | .use call _ => .evaluate call

def engineAfter (m : Implementation) (s : Engine) : Step → Engine
  | .bootstrap result => m.bootstrap s result
  | .evaluate call => (m.evaluate s call).engine

theorem reflects_run {m : Implementation} {hear : TransportResult DecisionBody → Option Heard}
    (hm : Follows m hear) {s : Engine} {k : Known} {now : ℕ} {steps : List Step} {call : Call}
    {after : List Step} (h : Reflects s k now)
    (horderly : Orderly now (steps ++ .evaluate call :: after)) :
    Reflects (steps.foldl (engineAfter m) s) (steps.foldl (Known.after hear) k) call.startedAt ∧
      call.startedAt ≤ call.comparedAt ∧ call.comparedAt ≤ call.expiredAt := by
  induction steps generalizing s k now with
  | nil => exact ⟨h.mono horderly.1, horderly.2.1, horderly.2.2.1⟩
  | cons step steps ih =>
    cases step with
    | bootstrap result =>
      obtain ⟨hmode, hcooldown⟩ := hm.configured s result
      refine ih ⟨?_, fun t ht => ?_⟩ horderly
      · show (m.bootstrap s result).failMode = (announcedMode result).getD k.failMode
        rw [hmode, h.failMode]
      · have hcooling : (m.bootstrap s result).cooling t = s.cooling t := by
          rw [Engine.cooling, Engine.cooling, hcooldown]
        exact hcooling.trans (h.cooling t ht)
    | evaluate first =>
      obtain ⟨hstarted, hcompared, hexpired, hrest⟩ := horderly
      exact ih (h.evaluate hm hstarted hcompared hexpired).1 hrest

/-- Over whole sessions, in either language: a wrapped call reaches its provider exactly once
unless a cooldown that was announced and not over, the backend's answer to this very call, or
without an answer the last fail mode that was told blocks it, and then it does not. -/
theorem provider_called_unless_blocked (τ : Timestamps) (ε ρ : Type) (c : Client)
    (hc : c ∈ [pythonClient τ ε ρ, nodeClient τ ε ρ]) (failMode : FailMode)
    (decisionTimeoutMs : ℤ) (before after : List c.Move) (call : Call) (use : c.Use)
    (horderly : Orderly 0 ((before ++ .use call use :: after).map Client.Move.step)) :
    let engine := (before.map Client.Move.step).foldl (engineAfter c.engine)
      { failMode := failMode, decisionTimeoutMs := decisionTimeoutMs }
    let known := (before.map Client.Move.step).foldl (Known.after c.hear) { failMode := failMode }
    (known.Blocks call.startedAt (c.hear call.result) →
      c.providerCalls (c.engine.evaluate engine call).evaluation use = 0) ∧
    (¬ known.Blocks call.startedAt (c.hear call.result) →
      c.providerCalls (c.engine.evaluate engine call).evaluation use = 1) := by
  intro engine known
  have hsound : c.Sound := by
    rcases List.mem_pair.mp hc with h | h
    · exact h ▸ pythonClient_sound τ ε ρ
    · exact h ▸ nodeClient_sound τ ε ρ
  have hstart : Reflects { failMode := failMode, decisionTimeoutMs := decisionTimeoutMs }
      { failMode := failMode } 0 := ⟨rfl, fun _ _ => rfl⟩
  rw [List.map_append, List.map_cons] at horderly
  obtain ⟨hreflects, hcompared, hexpired⟩ := reflects_run hsound.follows hstart horderly
  have hblocked := (hreflects.evaluate hsound.follows le_rfl hcompared hexpired).2
  constructor
  · intro hblocks
    rw [hsound.called, if_pos (hblocked.mpr hblocks)]
  · intro hnot
    rw [hsound.called, if_neg (fun hblock => hnot (hblocked.mp hblock))]

theorem sampleUse_named :
    strip ((Providers.Python.anthropic.extractRequestedModel
      { kwargs := [("model", .str "claude")] }).getD "") ≠ "" := by
  decide +kernel

theorem sampleUse_adapter : Providers.Python.anthropic ∈
    [Providers.Python.openai, Providers.Python.anthropic, Providers.Python.google none] :=
  List.mem_cons_of_mem _ List.mem_cons_self

/-- A use in a world where the telemetry fails. -/
def sampleUse : PythonUse String String where
  modelName := none
  adapter := Providers.Python.anthropic
  adapter_mem := sampleUse_adapter
  options := {}
  world := Providers.Python.brokenWorld
  call := { kwargs := [("model", .str "claude")] }
  named := sampleUse_named

def lostCall : Call := ⟨"anthropic", 10, 400, 400, .timeout⟩

def closing : TransportResult ConfigBody := .response 200 (.json { protectFailMode := some "closed" })

theorem provider_called_unless_blocked_sample :
    (pythonClient plainTimestamps String String).providerCalls
      ((python plainTimestamps).evaluate ((python plainTimestamps).bootstrap
        { failMode := .open, decisionTimeoutMs := 300 } closing) lostCall).evaluation
      sampleUse = 0 := by
  apply (provider_called_unless_blocked plainTimestamps String String
    (pythonClient plainTimestamps String String) List.mem_cons_self .open 300
    [.bootstrap closing] [] lostCall sampleUse ⟨by decide, by decide, by decide, trivial⟩).1
  exact .inr (.inr ⟨rfl, by decide⟩)

end Rheonic.FailModePolicy
