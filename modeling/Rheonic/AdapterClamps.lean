import Rheonic.PythonAdapters
import Rheonic.NodeAdapters

namespace Rheonic.Providers
open ProtectEngine

variable {decision : Evaluation}

/-- The four adapters of OpenAI and Anthropic enforce a clamp that has not yet been applied, and
change nothing else. -/
theorem adapters_enforce_clamp
    (hfresh : ∀ clamp, decision.clamp = some clamp → clamp.applied = false) :
    (∀ c : Python.Call,
      Enforced (Python.extractMaxOutputTokens Python.openaiLimitKeys)
        (Python.Call.Alike Python.openaiLimitKeys) Python.Call.heap (Python.ClampsTo decision) c
        (Python.applyOpenaiClamp c decision) ∧
      Enforced (Python.extractMaxOutputTokens Python.anthropicLimitKeys)
        (Python.Call.Alike Python.anthropicLimitKeys) Python.Call.heap (Python.ClampsTo decision) c
        (Python.applyAnthropicClamp c decision)) ∧
    ∀ c : Node.Call, (∀ object ∈ c.heap, object.kind = .object) →
      (Node.extractRequestedModel c).isSome →
        Enforced (Node.extractMaxOutputTokens Node.openaiLimitKeys)
          (Node.Call.Alike Node.openaiLimitKeys) Node.Call.heap (Node.ClampsTo decision) c
          (Node.applyClamp Node.openaiLimitKeys c decision) ∧
        Enforced (Node.extractMaxOutputTokens Node.anthropicLimitKeys)
          (Node.Call.Alike Node.anthropicLimitKeys) Node.Call.heap (Node.ClampsTo decision) c
          (Node.applyClamp Node.anthropicLimitKeys c decision) := by
  refine ⟨fun c => ⟨?_, ?_⟩, fun c hplain hmodel => ⟨?_, ?_⟩⟩
  · exact Python.applyClamp_enforced (by decide) c hfresh
  · exact Python.applyClamp_enforced (by decide) c hfresh
  · exact Node.applyClamp_enforced (by decide) (by decide) hplain hmodel hfresh
  · exact Node.applyClamp_enforced (by decide) (by decide) hplain hmodel hfresh

def sampleClamp : Evaluation where
  decision := .clamp
  reason := "cap"
  applyClampEnabled := some true
  clamp := some ⟨.finite 100, false⟩

/-- A payload with a limit that is no integer, and one that is above the recommended. -/
def samplePythonCall : Python.Call where
  heap := [⟨.dict, [("model", .str "gpt-4o"), ("max_tokens", .str "many"),
    ("max_output_tokens", .int 500)]⟩]
  args := [.ref 0]

def sampleNodeCall : Node.Call where
  heap := [⟨.object, [("model", .string "claude"), ("max_tokens", .number (.finite 50))]⟩]
  args := [.ref 0]

theorem adapters_enforce_clamp_sample :
    Python.extractMaxOutputTokens Python.openaiLimitKeys
      (Python.applyOpenaiClamp samplePythonCall sampleClamp).1 = some 100 ∧
    reportsApplied (Python.applyOpenaiClamp samplePythonCall sampleClamp).2 = true ∧
    Node.extractMaxOutputTokens Node.anthropicLimitKeys
      (Node.applyClamp Node.anthropicLimitKeys sampleNodeCall sampleClamp).1 =
        some (.finite 50) := by
  have hfresh : ∀ clamp, sampleClamp.clamp = some clamp → clamp.applied = false := by
    intro clamp hclamp
    rw [← Option.some.inj hclamp]
  have hclamps := adapters_enforce_clamp hfresh
  have hopenai := (hclamps.1 samplePythonCall).1
  have hanthropic := (hclamps.2 sampleNodeCall (by decide) (by decide)).2
  have hpython : Python.ClampsTo sampleClamp 100 := ⟨rfl, rfl, rfl, by decide⟩
  have hnode : Node.ClampsTo sampleClamp (.finite 100) := ⟨rfl, rfl, rfl, by decide +kernel⟩
  have hread : Python.extractMaxOutputTokens Python.openaiLimitKeys samplePythonCall = some 500 := by
    decide
  have hlimit := hopenai.limited 100 hpython
  rw [hread] at hlimit
  refine ⟨hlimit, hopenai.applied.mpr ⟨100, hlimit, fun o ho => ?_⟩, ?_⟩
  · rw [← Option.some.inj (hread.symm.trans ho)]
    decide
  · rw [hanthropic.limited _ hnode]
    decide +kernel

end Rheonic.Providers
