import Rheonic.ClampContract
import Rheonic.Lib.JsNumber

namespace Rheonic.Providers.Node
open ProtectEngine

/-- A JavaScript value; what the adapters do not look into is told apart by a number. -/
inductive JsValue
  | undefined
  | null
  | bool (b : Bool)
  | number (x : JsNumber)
  | string (s : String)
  | other (n : ℕ)
  | ref (n : ℕ)
  deriving DecidableEq, Repr

def asNumber : JsValue → Option JsNumber
  | .number x => some x
  | _ => none

inductive Kind
  | object
  | array
  deriving DecidableEq, Repr

/-- The arguments of a call, with the objects that they refer to. -/
structure Call where
  heap : Heap Kind JsValue := []
  args : List JsValue := []
  deriving DecidableEq, Repr

/-- A value of type `object` that is not null. -/
def readObject (heap : Heap Kind JsValue) : JsValue → Option (Object Kind JsValue)
  | .ref n => heap[n]?
  | _ => none

def Call.firstArg (c : Call) : Option (Object Kind JsValue) := c.args.head?.bind (readObject c.heap)

def extractRequestedModel (c : Call) : Option String :=
  match c.firstArg.bind fun object => object.fields.get "model" with
  | some (.string model) => some model
  | _ => none

/-- The guards of a clamp, and its effect on the arguments. -/
def maybeApplyBy (clamped : Call → JsNumber → Call) (c : Call) (decision : Evaluation) : Call :=
  if decision.decision ≠ .clamp then c
  else if decision.applyClampEnabled ≠ some true then c
  else
    match decision.clamp.map Clamp.recommendedMaxOutputTokens with
    | none => c
    | some recommended =>
      if JsNumber.ofDouble recommended < .finite 1 then c
      else clamped c (.ofDouble recommended)

section LimitKeys

variable (limitKeys : List String)

def extractMaxOutputTokens (c : Call) : Option JsNumber :=
  c.firstArg.bind fun object => object.fields.firstRead asNumber limitKeys

/-- Every limit that is a number is lowered. -/
def lowerLimits (fields : Fields JsValue) (recommended : JsNumber) : Fields JsValue :=
  limitKeys.foldl (fun payload key =>
    match (payload.get key).bind asNumber with
    | some limit => payload.set key (.number (min limit recommended))
    | none => payload) fields

/-- The payload with its limits lowered, or with a new one. -/
def clampPayload (fields : Fields JsValue) (recommended : JsNumber) : Fields JsValue :=
  let updated := (fields.firstKey asNumber limitKeys).isSome
  let payload := lowerLimits limitKeys fields recommended
  if updated then payload else payload.set "max_tokens" (.number recommended)

/-- The arguments with a changed copy of the payload. -/
def Call.clamped (c : Call) (recommended : JsNumber) : Call :=
  match c.firstArg with
  | none => c
  | some object =>
    let (heap, payload) := c.heap.alloc ⟨.object, clampPayload limitKeys object.fields recommended⟩
    { c with heap := heap, args := .ref payload :: c.args.tail }

def maybeApplyClamp : Call → Evaluation → Call := maybeApplyBy (Call.clamped limitKeys)

/-- The clamp as the wrapped call applies it and marks it. -/
def applyClamp (c : Call) (decision : Evaluation) : Call × Evaluation :=
  let callArgs := maybeApplyClamp limitKeys c decision
  (callArgs, markClampAppliedIfChanged decision (extractMaxOutputTokens limitKeys c)
    (extractMaxOutputTokens limitKeys callArgs))

end LimitKeys

def openaiLimitKeys : List String := ["max_tokens", "max_output_tokens"]

def anthropicLimitKeys : List String := ["max_tokens"]

def maybeApplyOpenAIClamp : Call → Evaluation → Call := maybeApplyClamp openaiLimitKeys

def maybeApplyAnthropicClamp : Call → Evaluation → Call := maybeApplyClamp anthropicLimitKeys

/-- The decision is a clamp to be applied. -/
structure ClampsTo (decision : Evaluation) (r : JsNumber) : Prop where
  isClamp : decision.decision = .clamp
  enabled : decision.applyClampEnabled = some true
  recommended : (decision.clamp.map Clamp.recommendedMaxOutputTokens).map JsNumber.ofDouble = some r
  positive : ¬ r < .finite 1

/-- The calls differ in limits only, in a copy of the payload. -/
structure Call.Alike (limitKeys : List String) (c c' : Call) : Prop where
  rest : c'.args.tail = c.args.tail
  first : c'.args.head? = c.args.head? ∨ ∃ object object', c.firstArg = some object ∧
    c'.firstArg = some object' ∧ object'.kind = object.kind ∧
      ∀ key ∉ limitKeys, object'.fields.get key = object.fields.get key

section Clamped

variable {limitKeys : List String} {c : Call} {decision : Evaluation} {fields : Fields JsValue}
  {r : JsNumber}

theorem lowerLimits_get_of_not_mem (fields : Fields JsValue) {key : String}
    (hkey : key ∉ limitKeys) : (lowerLimits limitKeys fields r).get key = fields.get key := by
  unfold lowerLimits
  induction limitKeys generalizing fields with
  | nil => rfl
  | cons first limitKeys ih =>
    rw [List.mem_cons, not_or] at hkey
    rw [List.foldl_cons, ih _ hkey.2]
    split
    · exact Fields.get_set_of_ne _ _ (Ne.symm hkey.1)
    · rfl

theorem lowerLimits_get (hnodup : limitKeys.Nodup) (fields : Fields JsValue) {key : String}
    (hkey : key ∈ limitKeys) : ((lowerLimits limitKeys fields r).get key).bind asNumber =
      ((fields.get key).bind asNumber).map (min · r) := by
  induction limitKeys generalizing fields with
  | nil => exact absurd hkey List.not_mem_nil
  | cons first limitKeys ih =>
    have hfirst := List.nodup_cons.mp hnodup
    have hstep : lowerLimits (first :: limitKeys) fields r = lowerLimits limitKeys
        (match (fields.get first).bind asNumber with
          | some limit => fields.set first (.number (min limit r))
          | none => fields) r := rfl
    rw [hstep]
    by_cases hhere : key = first
    · rw [hhere, lowerLimits_get_of_not_mem _ hfirst.1]
      cases hlimit : (fields.get first).bind asNumber with
      | none => exact hlimit
      | some limit =>
        dsimp only
        rw [Fields.get_set_self]
        rfl
    · have hlater := (List.mem_cons.mp hkey).resolve_left hhere
      rw [ih hfirst.2 _ hlater]
      cases (fields.get first).bind asNumber with
      | none => rfl
      | some limit =>
        dsimp only
        rw [Fields.get_set_of_ne _ _ (Ne.symm hhere)]

theorem clampPayload_get_of_not_mem (hmax : "max_tokens" ∈ limitKeys) {key : String}
    (hkey : key ∉ limitKeys) : (clampPayload limitKeys fields r).get key = fields.get key := by
  unfold clampPayload
  dsimp only
  split
  · exact lowerLimits_get_of_not_mem fields hkey
  · have hne : "max_tokens" ≠ key := fun heq => hkey (heq ▸ hmax)
    rw [Fields.get_set_of_ne _ _ hne]
    exact lowerLimits_get_of_not_mem fields hkey

theorem firstRead_lowerLimits (hnodup : limitKeys.Nodup) (fields : Fields JsValue) (r : JsNumber) :
    (lowerLimits limitKeys fields r).firstRead asNumber limitKeys =
      (fields.firstRead asNumber limitKeys).map (min · r) := by
  unfold Fields.firstRead
  rw [List.map_findSome?]
  have hlower : ∀ key ∈ limitKeys, ((lowerLimits limitKeys fields r).get key).bind asNumber =
      ((fields.get key).bind asNumber).map (min · r) :=
    fun key hkey => lowerLimits_get hnodup fields hkey
  generalize lowerLimits limitKeys fields r = lower at hlower
  clear hnodup
  induction limitKeys with
  | nil => rfl
  | cons first limitKeys ih =>
    rw [List.findSome?_cons, List.findSome?_cons, hlower first List.mem_cons_self,
      ih fun key hkey => hlower key (List.mem_cons_of_mem _ hkey)]
    rfl

theorem firstRead_clampPayload (hmax : "max_tokens" ∈ limitKeys) (hnodup : limitKeys.Nodup) :
    (clampPayload limitKeys fields r).firstRead asNumber limitKeys =
      some (capped (fields.firstRead asNumber limitKeys) r) := by
  unfold clampPayload
  dsimp only
  cases hkey : fields.firstKey asNumber limitKeys with
  | some key =>
    rw [Option.isSome_some, if_pos rfl, firstRead_lowerLimits hnodup, Fields.firstRead_eq hkey]
    have hreadable := List.find?_some hkey
    obtain ⟨limit, hlimit⟩ := Option.isSome_iff_exists.mp hreadable
    rw [hlimit]
    rfl
  | none =>
    have hlower : (lowerLimits limitKeys fields r).firstKey asNumber limitKeys = none := by
      unfold Fields.firstKey
      rw [List.find?_eq_none]
      intro key hmem
      rw [lowerLimits_get hnodup fields hmem, Option.isSome_map]
      exact List.find?_eq_none.mp hkey key hmem
    rw [Option.isSome_none, if_neg (by decide),
      Fields.firstRead_set_of_none (b := r) hlower hmax rfl, Fields.firstRead_eq_none hkey]
    rfl

theorem clamped_of_object {object : Object Kind JsValue} (hobject : c.firstArg = some object) :
    c.clamped limitKeys r =
      { c with
        heap := (c.heap.alloc ⟨.object, clampPayload limitKeys object.fields r⟩).1
        args := .ref c.heap.length :: c.args.tail } := by
  unfold Call.clamped
  rw [hobject]
  rfl

theorem firstArg_alloc (c : Call) (object : Object Kind JsValue) (rest : List JsValue) :
    Call.firstArg { c with heap := (c.heap.alloc object).1, args := .ref c.heap.length :: rest } =
      some object :=
  Heap.alloc_read c.heap object

theorem extract_clamped (hmax : "max_tokens" ∈ limitKeys) (hnodup : limitKeys.Nodup)
    {object : Object Kind JsValue} (hobject : c.firstArg = some object) :
    extractMaxOutputTokens limitKeys (c.clamped limitKeys r) =
      some (capped (extractMaxOutputTokens limitKeys c) r) := by
  unfold extractMaxOutputTokens
  rw [clamped_of_object hobject, firstArg_alloc, hobject]
  exact firstRead_clampPayload hmax hnodup

theorem clamped_alike (hmax : "max_tokens" ∈ limitKeys) {object : Object Kind JsValue}
    (hobject : c.firstArg = some object) (hplain : object.kind = .object) :
    c.Alike limitKeys (c.clamped limitKeys r) := by
  rw [clamped_of_object hobject]
  exact ⟨rfl, .inr ⟨object, _, hobject, firstArg_alloc _ _ _, hplain.symm,
    fun key hkey => clampPayload_get_of_not_mem hmax hkey⟩⟩

theorem clamped_unmutated (c : Call) (r : JsNumber) : c.heap <+: (c.clamped limitKeys r).heap := by
  unfold Call.clamped
  split
  · exact List.prefix_rfl
  · exact Heap.extends_alloc _ _

theorem maybeApplyBy_cases (clamped : Call → JsNumber → Call) (c : Call) (decision : Evaluation) :
    (∃ r, ClampsTo decision r ∧ maybeApplyBy clamped c decision = clamped c r) ∨
    ((∀ r, ¬ ClampsTo decision r) ∧ maybeApplyBy clamped c decision = c) := by
  unfold maybeApplyBy
  by_cases hdecision : decision.decision ≠ .clamp
  · rw [if_pos hdecision]
    exact .inr ⟨fun r h => hdecision h.isClamp, rfl⟩
  · rw [if_neg hdecision]
    by_cases henabled : decision.applyClampEnabled ≠ some true
    · rw [if_pos henabled]
      exact .inr ⟨fun r h => henabled h.enabled, rfl⟩
    · rw [if_neg henabled]
      cases hclamp : decision.clamp.map Clamp.recommendedMaxOutputTokens with
      | none =>
        refine .inr ⟨fun r h => ?_, rfl⟩
        have hrecommended := h.recommended
        rw [hclamp] at hrecommended
        exact Option.some_ne_none _ hrecommended.symm
      | some recommended =>
        have hmap : (decision.clamp.map Clamp.recommendedMaxOutputTokens).map JsNumber.ofDouble =
            some (.ofDouble recommended) := by
          rw [hclamp]
          rfl
        dsimp only
        by_cases hlow : JsNumber.ofDouble recommended < .finite 1
        · rw [if_pos hlow]
          refine .inr ⟨fun r h => h.positive ?_, rfl⟩
          rw [← Option.some.inj (hmap.symm.trans h.recommended)]
          exact hlow
        · rw [if_neg hlow]
          exact .inl ⟨_, ⟨not_not.mp hdecision, not_not.mp henabled, hmap, hlow⟩, rfl⟩

theorem maybeApplyBy_of_clampsTo {clamped : Call → JsNumber → Call} (hr : ClampsTo decision r) :
    maybeApplyBy clamped c decision = clamped c r := by
  rcases maybeApplyBy_cases clamped c decision with ⟨r', hr', happly⟩ | ⟨hnone, -⟩
  · have heq : r' = r := Option.some.inj (hr'.recommended.symm.trans hr.recommended)
    rw [happly, heq]
  · exact absurd hr (hnone r)

theorem applyClamp_enforced (hmax : "max_tokens" ∈ limitKeys) (hnodup : limitKeys.Nodup)
    (hplain : ∀ object ∈ c.heap, object.kind = .object) (hmodel : (extractRequestedModel c).isSome)
    (hfresh : ∀ clamp, decision.clamp = some clamp → clamp.applied = false) :
    Enforced (extractMaxOutputTokens limitKeys) (Call.Alike limitKeys) Call.heap
      (ClampsTo decision) c (applyClamp limitKeys c decision) := by
  unfold applyClamp maybeApplyClamp
  dsimp only
  rcases maybeApplyBy_cases (Call.clamped limitKeys) c decision with ⟨r, hr, happly⟩ | ⟨hnone, happly⟩
  · rw [happly]
    -- a limit is enforced, so the decision has one
    have hsome : ∃ clamp, decision.clamp = some clamp := by
      cases hclamp : decision.clamp with
      | some clamp => exact ⟨clamp, rfl⟩
      | none =>
        have hrecommended := hr.recommended
        rw [hclamp] at hrecommended
        exact absurd hrecommended (Option.some_ne_none _).symm
    obtain ⟨clamp, hclamp⟩ := hsome
    have hfirst : ∃ object, c.firstArg = some object := by
      cases hobject : c.firstArg with
      | some object => exact ⟨object, rfl⟩
      | none =>
        unfold extractRequestedModel at hmodel
        rw [hobject] at hmodel
        exact absurd hmodel (by decide)
    obtain ⟨object, hobject⟩ := hfirst
    -- and the call has an object that it can be written to
    have hkind : object.kind = .object := by
      obtain ⟨value, -, hread⟩ := Option.bind_eq_some_iff.mp hobject
      cases value with
      | ref n => exact hplain object (List.mem_of_getElem? hread)
      | _ => exact absurd hread (Option.some_ne_none _).symm
    refine ⟨fun r' hr' => ?_, clamped_alike hmax hobject hkind, clamped_unmutated c r,
      reportsApplied_mark_iff hclamp (hfresh clamp hclamp), fun hnone => absurd hr (hnone r)⟩
    have heq : r' = r := Option.some.inj (hr'.recommended.symm.trans hr.recommended)
    rw [heq]
    exact extract_clamped hmax hnodup hobject
  -- nothing is enforced, and nothing is reported
  · rw [happly, mark_self JsNumber.not_lt_self]
    refine ⟨fun r hr => absurd hr (hnone r), ⟨rfl, .inl rfl⟩, List.prefix_rfl,
      iff_of_false ?_ (not_tightened_self JsNumber.not_lt_self), fun _ => rfl⟩
    rw [Bool.not_eq_true]
    exact reportsApplied_of_fresh hfresh

end Clamped

end Rheonic.Providers.Node
