import Rheonic.ClampContract

namespace Rheonic.Providers.Python
open ProtectEngine

/-- A Python value; what the adapters do not look into is told apart by a number. -/
inductive PyValue
  | none
  | bool (b : Bool)
  | int (n : ℤ)
  | str (s : String)
  | other (n : ℕ)
  | ref (n : ℕ)
  deriving DecidableEq, Repr

/-- An `int`, of which `bool` is a subclass. -/
def asInt : PyValue → Option ℤ
  | .int n => some n
  | .bool b => some (if b then 1 else 0)
  | _ => Option.none

inductive Kind
  | dict
  /-- Any other object with attributes, and whether they can be assigned to on a copy. -/
  | object (assignable : Bool)
  deriving DecidableEq, Repr

/-- The arguments of a call, with the objects that they refer to. -/
structure Call where
  heap : Heap Kind PyValue := []
  args : List PyValue := []
  kwargs : Fields PyValue := []
  deriving DecidableEq, Repr

def readObject (heap : Heap Kind PyValue) : PyValue → Option (Object Kind PyValue)
  | .ref n => heap[n]?
  | _ => Option.none

/-- The fields of a dictionary. -/
def readDict (heap : Heap Kind PyValue) (value : PyValue) : Option (Fields PyValue) :=
  match readObject heap value with
  | some ⟨.dict, fields⟩ => some fields
  | _ => Option.none

/-- The first positional argument, if it is a dictionary. -/
def Call.payload (c : Call) : Option (Fields PyValue) := c.args.head?.bind (readDict c.heap)

/-- `min(int(existing), recommended) if isinstance(existing, int) else recommended`. -/
def lowered (existing : Option PyValue) (recommended : ℤ) : PyValue :=
  .int (capped (existing.bind asInt) recommended)

/-- The guards of a clamp, and its effect on the arguments. -/
def applyBy (extract : Call → Option ℤ) (clamped : Call → ℤ → Call) (c : Call)
    (decision : Evaluation) : Call × Evaluation :=
  if decision.decision ≠ .clamp then (c, decision)
  else if decision.applyClampEnabled ≠ some true then (c, decision)
  else
    match decision.clamp.map Clamp.recommendedMaxOutputTokens with
    | some (.finite recommended) =>
      if recommended < 1 then (c, decision)
      else
        let next := clamped c recommended
        (next, markClampAppliedIfChanged decision (extract c) (extract next))
    | _ => (c, decision)

section LimitKeys

variable (limitKeys : List String)

def extractMaxOutputTokens (c : Call) : Option ℤ :=
  match c.kwargs.firstRead asInt limitKeys with
  | some limit => some limit
  | Option.none => c.payload.bind fun payload => payload.firstRead asInt limitKeys

/-- The arguments with the limit lowered in the place where it was found. -/
def Call.clamped (c : Call) (recommended : ℤ) : Call :=
  match c.kwargs.firstKey asInt limitKeys with
  | some key => { c with kwargs := c.kwargs.set key (lowered (c.kwargs.get key) recommended) }
  | Option.none =>
    match c.payload with
    | some fields =>
      let (heap, payload) := c.heap.alloc ⟨.dict, fields⟩
      let key := (fields.firstKey asInt limitKeys).getD "max_tokens"
      { c with
        heap := heap.assign payload key (lowered (fields.get key) recommended)
        args := .ref payload :: c.args.tail }
    | Option.none => { c with kwargs := c.kwargs.set "max_tokens" (.int recommended) }

def applyClamp : Call → Evaluation → Call × Evaluation :=
  applyBy (extractMaxOutputTokens limitKeys) (Call.clamped limitKeys)

end LimitKeys

def openaiLimitKeys : List String := ["max_tokens", "max_output_tokens"]

def anthropicLimitKeys : List String := ["max_tokens"]

def applyOpenaiClamp : Call → Evaluation → Call × Evaluation := applyClamp openaiLimitKeys

def applyAnthropicClamp : Call → Evaluation → Call × Evaluation := applyClamp anthropicLimitKeys

/-- The decision is a clamp to be applied. -/
structure ClampsTo (decision : Evaluation) (r : ℤ) : Prop where
  isClamp : decision.decision = .clamp
  enabled : decision.applyClampEnabled = some true
  recommended : decision.clamp.map Clamp.recommendedMaxOutputTokens = some (.finite r)
  positive : 1 ≤ r

/-- The calls differ in limits only: in the keywords, or in a copy of the payload. -/
structure Call.Alike (limitKeys : List String) (c c' : Call) : Prop where
  kwargs : ∀ key ∉ limitKeys, c'.kwargs.get key = c.kwargs.get key
  rest : c'.args.tail = c.args.tail
  first : c'.args.head? = c.args.head? ∨ ∃ fields fields', c.payload = some fields ∧
    c'.payload = some fields' ∧ ∀ key ∉ limitKeys, fields'.get key = fields.get key

section Clamped

variable {limitKeys : List String} {c : Call} {decision : Evaluation} {r : ℤ}

theorem asInt_lowered (existing : Option PyValue) (r : ℤ) :
    asInt (lowered existing r) = some (capped (existing.bind asInt) r) := rfl

theorem Call.Alike.refl (limitKeys : List String) (c : Call) : c.Alike limitKeys c :=
  ⟨fun _ _ => rfl, rfl, .inl rfl⟩

theorem clamped_kwarg {key : String} (hkey : c.kwargs.firstKey asInt limitKeys = some key) :
    c.clamped limitKeys r =
      { c with kwargs := c.kwargs.set key (lowered (c.kwargs.get key) r) } := by
  unfold Call.clamped
  rw [hkey]

theorem clamped_payload {fields : Fields PyValue}
    (hkey : c.kwargs.firstKey asInt limitKeys = Option.none) (hpayload : c.payload = some fields)
    {key : String} (hfield : (fields.firstKey asInt limitKeys).getD "max_tokens" = key) :
    c.clamped limitKeys r =
      { c with
        heap := (c.heap.alloc ⟨.dict, fields.set key (lowered (fields.get key) r)⟩).1
        args := .ref c.heap.length :: c.args.tail } := by
  unfold Call.clamped
  rw [hkey, hpayload]
  dsimp only
  rw [Heap.alloc_assign, hfield]
  rfl

theorem clamped_introduced (hkey : c.kwargs.firstKey asInt limitKeys = Option.none)
    (hpayload : c.payload = Option.none) :
    c.clamped limitKeys r = { c with kwargs := c.kwargs.set "max_tokens" (.int r) } := by
  unfold Call.clamped
  rw [hkey, hpayload]

theorem payload_alloc (c : Call) (fields : Fields PyValue) (rest : List PyValue) :
    Call.payload { c with
      heap := (c.heap.alloc ⟨.dict, fields⟩).1, args := .ref c.heap.length :: rest } =
        some fields := by
  unfold Call.payload readDict readObject
  have hread := Heap.alloc_read c.heap ⟨Kind.dict, fields⟩
  simp only [List.head?_cons, Option.bind_some]
  rw [show c.heap.length = (c.heap.alloc ⟨.dict, fields⟩).2 from rfl, hread]

theorem firstRead_clampField {fields : Fields PyValue} (hmax : "max_tokens" ∈ limitKeys)
    {key : String} (hfield : (fields.firstKey asInt limitKeys).getD "max_tokens" = key) :
    (fields.set key (lowered (fields.get key) r)).firstRead asInt limitKeys =
      some (capped (fields.firstRead asInt limitKeys) r) := by
  cases hfirst : fields.firstKey asInt limitKeys with
  | some first =>
    rw [hfirst, Option.getD_some] at hfield
    rw [← hfield, Fields.firstRead_set hfirst (asInt_lowered _ r), Fields.firstRead_eq hfirst]
  | none =>
    rw [hfirst, Option.getD_none] at hfield
    rw [← hfield, Fields.firstRead_set_of_none hfirst hmax (asInt_lowered _ r),
      Fields.firstRead_eq_none hfirst]
    have hnone := List.find?_eq_none.mp hfirst "max_tokens" hmax
    rw [Bool.not_eq_true, Option.isSome_eq_false_iff, Option.isNone_iff_eq_none] at hnone
    rw [hnone]

theorem extract_kwarg {limit : ℤ} (h : c.kwargs.firstRead asInt limitKeys = some limit) :
    extractMaxOutputTokens limitKeys c = some limit := by
  unfold extractMaxOutputTokens
  rw [h]

theorem extract_payload (h : c.kwargs.firstRead asInt limitKeys = Option.none) :
    extractMaxOutputTokens limitKeys c =
      c.payload.bind fun payload => payload.firstRead asInt limitKeys := by
  unfold extractMaxOutputTokens
  rw [h]

theorem extract_clamped (hmax : "max_tokens" ∈ limitKeys) (c : Call) (r : ℤ) :
    extractMaxOutputTokens limitKeys (c.clamped limitKeys r) =
      some (capped (extractMaxOutputTokens limitKeys c) r) := by
  cases hkey : c.kwargs.firstKey asInt limitKeys with
  | some key =>
    have hread := Fields.firstRead_eq hkey
    have hset := Fields.firstRead_set hkey (asInt_lowered (c.kwargs.get key) r)
    rw [clamped_kwarg hkey, extract_kwarg hset]
    have hsome := List.find?_some hkey
    obtain ⟨limit, hlimit⟩ := Option.isSome_iff_exists.mp hsome
    rw [hlimit] at hread
    rw [extract_kwarg hread, hlimit]
  | none =>
    have hread := Fields.firstRead_eq_none hkey
    rw [extract_payload hread]
    cases hpayload : c.payload with
    | some fields =>
      rw [clamped_payload hkey hpayload rfl, Option.bind_some]
      refine (extract_payload ?_).trans ?_
      · exact hread
      · rw [payload_alloc]
        exact firstRead_clampField hmax rfl
    | none =>
      rw [clamped_introduced hkey hpayload]
      exact extract_kwarg (Fields.firstRead_set_of_none hkey hmax rfl)

theorem clamped_alike (hmax : "max_tokens" ∈ limitKeys) (c : Call) (r : ℤ) :
    c.Alike limitKeys (c.clamped limitKeys r) := by
  cases hkey : c.kwargs.firstKey asInt limitKeys with
  | some key =>
    rw [clamped_kwarg hkey]
    refine ⟨fun other hother => ?_, rfl, .inl rfl⟩
    have hne : key ≠ other := fun heq => hother (heq ▸ Fields.firstKey_mem hkey)
    exact Fields.get_set_of_ne _ _ hne
  | none =>
    cases hpayload : c.payload with
    | some fields =>
      rw [clamped_payload hkey hpayload rfl]
      refine ⟨fun _ _ => rfl, rfl, .inr ⟨fields, _, hpayload, payload_alloc _ _ _, ?_⟩⟩
      intro other hother
      have hmem : (fields.firstKey asInt limitKeys).getD "max_tokens" ∈ limitKeys := by
        cases hfirst : fields.firstKey asInt limitKeys with
        | some first => exact Fields.firstKey_mem hfirst
        | none => exact hmax
      exact Fields.get_set_of_ne _ _ fun heq => hother (heq ▸ hmem)
    | none =>
      rw [clamped_introduced hkey hpayload]
      refine ⟨fun other hother => ?_, rfl, .inl rfl⟩
      exact Fields.get_set_of_ne _ _ fun heq => hother (heq ▸ hmax)

theorem clamped_unmutated (c : Call) (r : ℤ) : c.heap <+: (c.clamped limitKeys r).heap := by
  unfold Call.clamped
  split
  · exact List.prefix_rfl
  · split
    · dsimp only
      rw [Heap.alloc_assign]
      exact Heap.extends_alloc _ _
    · exact List.prefix_rfl

theorem applyBy_cases (extract : Call → Option ℤ) (clamped : Call → ℤ → Call) (c : Call)
    (decision : Evaluation) :
    (∃ r, ClampsTo decision r ∧ applyBy extract clamped c decision =
      (clamped c r, markClampAppliedIfChanged decision (extract c) (extract (clamped c r)))) ∨
    ((∀ r, ¬ ClampsTo decision r) ∧ applyBy extract clamped c decision = (c, decision)) := by
  unfold applyBy
  by_cases hdecision : decision.decision ≠ .clamp
  · rw [if_pos hdecision]
    exact .inr ⟨fun r h => hdecision h.isClamp, rfl⟩
  · rw [if_neg hdecision]
    by_cases henabled : decision.applyClampEnabled ≠ some true
    · rw [if_pos henabled]
      exact .inr ⟨fun r h => henabled h.enabled, rfl⟩
    · rw [if_neg henabled]
      cases hclamp : decision.clamp.map Clamp.recommendedMaxOutputTokens with
      | none =>
        refine .inr ⟨fun r h => ?_, rfl⟩
        have hrecommended := hclamp.symm.trans h.recommended
        exact Option.some_ne_none _ hrecommended.symm
      | some recommended =>
        cases recommended with
        | infinite negative =>
          refine .inr ⟨fun r h => ?_, rfl⟩
          have hrecommended := hclamp.symm.trans h.recommended
          exact Double.noConfusion (Option.some.inj hrecommended)
        | finite recommended =>
          dsimp only
          by_cases hlow : recommended < 1
          · rw [if_pos hlow]
            refine .inr ⟨fun r h => ?_, rfl⟩
            have hr := Double.finite.inj (Option.some.inj (hclamp.symm.trans h.recommended))
            have hpos := h.positive
            omega
          · rw [if_neg hlow]
            have hpos : 1 ≤ recommended := by omega
            exact .inl ⟨recommended, ⟨not_not.mp hdecision, not_not.mp henabled, hclamp, hpos⟩, rfl⟩

theorem applyBy_of_clampsTo {extract : Call → Option ℤ} {clamped : Call → ℤ → Call}
    (hr : ClampsTo decision r) : applyBy extract clamped c decision =
      (clamped c r, markClampAppliedIfChanged decision (extract c) (extract (clamped c r))) := by
  rcases applyBy_cases extract clamped c decision with ⟨r', hr', happly⟩ | ⟨hnone, -⟩
  · have heq : r' = r := Double.finite.inj (Option.some.inj (hr'.recommended.symm.trans hr.recommended))
    rw [happly, heq]
  · exact absurd hr (hnone r)

theorem applyClamp_enforced (hmax : "max_tokens" ∈ limitKeys) (c : Call)
    (hfresh : ∀ clamp, decision.clamp = some clamp → clamp.applied = false) :
    Enforced (extractMaxOutputTokens limitKeys) (Call.Alike limitKeys) Call.heap
      (ClampsTo decision) c (applyClamp limitKeys c decision) := by
  unfold applyClamp
  rcases applyBy_cases (extractMaxOutputTokens limitKeys) (Call.clamped limitKeys) c decision with
    ⟨r, hr, happly⟩ | ⟨hnone, happly⟩
  · rw [happly]
    have hsome : ∃ clamp, decision.clamp = some clamp := by
      cases hclamp : decision.clamp with
      | some clamp => exact ⟨clamp, rfl⟩
      | none =>
        have hrecommended := hr.recommended
        rw [hclamp] at hrecommended
        exact absurd hrecommended (Option.some_ne_none _).symm
    obtain ⟨clamp, hclamp⟩ := hsome
    refine ⟨fun r' hr' => ?_, clamped_alike hmax c r, clamped_unmutated c r,
      reportsApplied_mark_iff hclamp (hfresh clamp hclamp), fun hnone => absurd hr (hnone r)⟩
    have heq : r' = r := Double.finite.inj (Option.some.inj (hr'.recommended.symm.trans hr.recommended))
    rw [heq]
    exact extract_clamped hmax c r
  · rw [happly]
    refine ⟨fun r hr => absurd hr (hnone r), Call.Alike.refl limitKeys c, List.prefix_rfl,
      iff_of_false ?_ (not_tightened_self lt_irrefl), fun _ => rfl⟩
    rw [Bool.not_eq_true]
    exact reportsApplied_of_fresh hfresh

end Clamped

end Rheonic.Providers.Python
