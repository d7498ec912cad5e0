import Rheonic.AdapterClamps
import Rheonic.PythonGoogle
import Rheonic.NodeGoogle

namespace Rheonic.Providers
open ProtectEngine

variable {decision : Evaluation}

/-- The two Google adapters enforce a clamp exactly on the calls in which no other configuration
contests the one that they write to. -/
theorem google_clamp_enforced_iff :
    (∀ (c : Python.Google.ClosedCall) (r : ℤ), Python.ClampsTo decision r →
      Python.Google.Assignable c.heap →
        (Python.Google.Enforces c.toCall (Python.Google.applyGoogleClamp c.toCall decision).1 r ↔
          Python.Google.Uncontested c.toCall r)) ∧
    ∀ (c : Node.Google.ClosedCall) (r : JsNumber), Node.ClampsTo decision r →
      (Node.Google.Enforces c.toCall (Node.Google.maybeApplyGoogleClamp c.toCall decision) r ↔
        Node.Google.Uncontested c.toCall r) := by
  refine ⟨fun c r hr hassignable => ?_, fun c r hr => ?_⟩
  · unfold Python.Google.applyGoogleClamp
    rw [Python.applyBy_of_clampsTo hr]
    exact Python.Google.enforces_iff hassignable r
  · unfold Node.Google.maybeApplyGoogleClamp
    rw [Node.maybeApplyBy_of_clampsTo hr]
    exact Node.Google.enforces_iff c r

/-- A payload with a configuration under its modern name. -/
def modernPythonCall : Python.Google.ClosedCall where
  heap := [⟨.dict, [("model", .str "gemini"), ("config", .ref 1)]⟩,
    ⟨.dict, [("temperature", .int 0), ("max_output_tokens", .int 9999)]⟩]
  args := [.ref 0]
  args_named := by decide
  kwargs_named := by decide
  heap_named := by decide

theorem google_clamp_enforced_iff_sample :
    Python.Google.Enforces modernPythonCall.toCall
      (Python.Google.applyGoogleClamp modernPythonCall.toCall sampleClamp).1 100 := by
  have hr : Python.ClampsTo sampleClamp 100 := ⟨rfl, rfl, rfl, by decide⟩
  have hassignable : Python.Google.Assignable modernPythonCall.heap := by decide
  refine (google_clamp_enforced_iff.1 modernPythonCall 100 hr hassignable).mpr ⟨?_, by decide, ?_⟩
  · intro place hplace hne l hl
    have hall : ∀ place ∈ Python.Google.places,
        place ≠ Python.Google.target modernPythonCall.toCall →
          Python.Google.limitAt modernPythonCall.toCall place = none := by decide
    rw [hall place hplace hne] at hl
    exact absurd hl (Option.some_ne_none _).symm
  · exact .inr ⟨_, rfl, .inl rfl⟩

/-- A modern call whose limit stands under the older name escapes the clamp in both languages. -/
theorem google_clamp_contested :
    (Python.ClampsTo sampleClamp 100 ∧ Python.Google.extractMaxOutputTokens
      (Python.Google.applyGoogleClamp
        { heap := [⟨.dict, [("model", .str "gemini"), ("generation_config", .ref 1)]⟩,
            ⟨.dict, [("max_output_tokens", .int 9999)]⟩],
          args := [.ref 0] } sampleClamp).1 = some 9999) ∧
    Node.ClampsTo sampleClamp (.finite 100) ∧ Node.Google.extractMaxOutputTokens
      (Node.Google.maybeApplyGoogleClamp
        { heap := [⟨.object, [("model", .string "gemini"), ("generationConfig", .ref 1)]⟩,
            ⟨.object, [("maxOutputTokens", .number (.finite 9999))]⟩],
          args := [.ref 0] } sampleClamp) = some (.finite 9999) :=
  ⟨⟨⟨rfl, rfl, rfl, by decide⟩, by decide⟩, ⟨rfl, rfl, rfl, by decide +kernel⟩, by decide +kernel⟩

end Rheonic.Providers
