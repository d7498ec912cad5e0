import Rheonic.PythonAdapters

namespace Rheonic.Providers.Python.Google
open ProtectEngine

/-- Where a call may carry a configuration. -/
inductive Place
  | kwarg (key : String)
  | payload (key : String)
  deriving DecidableEq, Repr

/-- The places in the order in which a limit is looked for. -/
def places : List Place :=
  [.kwarg "generation_config", .kwarg "config", .payload "generation_config", .payload "config"]

def config (c : Call) : Place → Option PyValue
  | .kwarg key => c.kwargs.get key
  | .payload key => c.payload.bind fun payload => payload.get key

/-- A configuration with the object that it is. -/
def configAt (c : Call) (place : Place) : Option PyValue × Option (Object Kind PyValue) :=
  (config c place, (config c place).bind (readObject c.heap))

/-- The limit of a dictionary or of another object. -/
def extractConfigMaxOutputTokens (object : Option (Object Kind PyValue)) : Option ℤ :=
  object.bind fun object => (object.fields.get "max_output_tokens").bind asInt

def limitAt (c : Call) (place : Place) : Option ℤ :=
  extractConfigMaxOutputTokens (configAt c place).2

def extractMaxOutputTokens (c : Call) : Option ℤ := places.findSome? (limitAt c)

/-- `_apply_recommended_max_output_tokens` gives a lowered copy, or a new dictionary. -/
def applyRecommendedMaxOutputTokens (heap : Heap Kind PyValue) (config : PyValue)
    (recommended : ℤ) : Heap Kind PyValue × PyValue :=
  match readObject heap config with
  | some ⟨.dict, fields⟩ =>
    let (heap, next) := heap.alloc ⟨.dict, fields⟩
    (heap.assign next "max_output_tokens" (lowered (fields.get "max_output_tokens") recommended),
      .ref next)
  | some ⟨.object assignable, fields⟩ =>
    if (fields.get "max_output_tokens").isSome then
      if assignable then
        let (heap, next) := heap.alloc ⟨.object assignable, fields⟩
        (heap.assign next "max_output_tokens" (lowered (fields.get "max_output_tokens") recommended),
          .ref next)
      else (heap, config)
    else
      let (heap, next) := heap.alloc ⟨.dict, [("max_output_tokens", .int recommended)]⟩
      (heap, .ref next)
  | none =>
    let (heap, next) := heap.alloc ⟨.dict, [("max_output_tokens", .int recommended)]⟩
    (heap, .ref next)

def configKey (payload : Fields PyValue) : String :=
  if (payload.get "config").isSome || (payload.get "model").isSome || (payload.get "contents").isSome
  then "config" else "generation_config"

/-- The place that the clamp writes to. -/
def target (c : Call) : Place :=
  if (c.kwargs.get "generation_config").isSome then .kwarg "generation_config"
  else if (c.kwargs.get "config").isSome then .kwarg "config"
  else
    match c.payload with
    | some payload => .payload (configKey payload)
    | none => .kwarg "config"

/-- The arguments with the configuration of one place replaced, and the payload copied for that. -/
def clamped (c : Call) (recommended : ℤ) : Call :=
  let (heap, next) :=
    applyRecommendedMaxOutputTokens c.heap ((config c (target c)).getD .none) recommended
  match target c with
  | .kwarg key => { c with heap := heap, kwargs := c.kwargs.set key next }
  | .payload key =>
    let (heap, payload) := heap.alloc ⟨.dict, (c.payload.getD []).set key next⟩
    { c with heap := heap, args := .ref payload :: c.args.tail }

def applyGoogleClamp : Call → Evaluation → Call × Evaluation := applyBy extractMaxOutputTokens clamped

def Names (heap : Heap Kind PyValue) : PyValue → Prop
  | .ref n => n < heap.length
  | _ => True

instance (heap : Heap Kind PyValue) : DecidablePred (Names heap)
  | .ref n => Nat.decLt n heap.length
  | .none | .bool _ | .int _ | .str _ | .other _ => isTrue trivial

/-- A call without dangling references. -/
structure ClosedCall extends Call where
  args_named : ∀ value ∈ args, Names heap value
  kwargs_named : ∀ field ∈ kwargs, Names heap field.2
  heap_named : ∀ object ∈ heap, ∀ field ∈ object.fields, Names heap field.2

/-- The objects other than dictionaries can be copied and changed. -/
def Assignable (heap : Heap Kind PyValue) : Prop :=
  ∀ object ∈ heap, object.kind ≠ .object false

instance (heap : Heap Kind PyValue) : Decidable (Assignable heap) :=
  inferInstanceAs (Decidable (∀ object ∈ heap, object.kind ≠ .object false))

def IsAbsent (value : Option PyValue) : Prop := value = Option.none ∨ value = some .none

structure Kept (c c' : Call) : Prop where
  kwargs : ∀ key ∉ ["generation_config", "config"], c'.kwargs.get key = c.kwargs.get key
  rest : c'.args.tail = c.args.tail
  first : c'.args.head? = c.args.head? ∨ ∃ fields fields', c.payload = some fields ∧
    c'.payload = some fields' ∧
      ∀ key ∉ ["generation_config", "config"], fields'.get key = fields.get key
  configs : ∀ place ∈ places,
    RecordKept ["max_output_tokens"] IsAbsent (configAt c place) (configAt c' place)

/-- The clamp is enforced: the limit that is read, and every other one, is at most the original
limit and the recommended one, and nothing else differs. -/
structure Enforces (c c' : Call) (r : ℤ) : Prop where
  read : ∃ e, extractMaxOutputTokens c' = some e ∧ e ≤ capped (extractMaxOutputTokens c) r
  limits : ∀ place ∈ places, ∀ l, limitAt c' place = some l →
    l ≤ capped (extractMaxOutputTokens c) r
  kept : Kept c c'

/-- No other place than the one that the clamp writes to holds a limit above the bound, that one's
own limit (the recommended one if it has none) is within the original, and what it holds is
absent, a dictionary or an object with a limit. -/
structure Uncontested (c : Call) (r : ℤ) : Prop where
  others : ∀ place ∈ places, place ≠ target c → ∀ l, limitAt c place = some l →
    l ≤ capped (extractMaxOutputTokens c) r
  own : capped (limitAt c (target c)) r ≤ capped (extractMaxOutputTokens c) r
  replaceable : IsAbsent (config c (target c)) ∨
    ∃ object, (configAt c (target c)).2 = some object ∧
      (object.kind = .dict ∨ (object.fields.get "max_output_tokens").isSome)

section Clamped

variable {heap heap' : Heap Kind PyValue} {value : PyValue} {r : ℤ}

/-- The object that takes the place of a configuration. -/
def lowerConfig (object : Option (Object Kind PyValue)) (r : ℤ) : Object Kind PyValue :=
  match object with
  | some ⟨.dict, fields⟩ =>
    ⟨.dict, fields.set "max_output_tokens" (lowered (fields.get "max_output_tokens") r)⟩
  | some ⟨.object assignable, fields⟩ =>
    if (fields.get "max_output_tokens").isSome then
      ⟨.object assignable,
        fields.set "max_output_tokens" (lowered (fields.get "max_output_tokens") r)⟩
    else ⟨.dict, [("max_output_tokens", .int r)]⟩
  | Option.none => ⟨.dict, [("max_output_tokens", .int r)]⟩

theorem applyRecommended_eq (hassignable : Assignable heap) (config : PyValue) (r : ℤ) :
    applyRecommendedMaxOutputTokens heap config r =
      ((heap.alloc (lowerConfig (readObject heap config) r)).1, .ref heap.length) := by
  unfold applyRecommendedMaxOutputTokens
  cases hread : readObject heap config with
  | none => rfl
  | some object =>
    obtain ⟨kind, fields⟩ := object
    cases kind with
    | dict =>
      dsimp only [lowerConfig]
      rw [Heap.alloc_assign]
      rfl
    | object assignable =>
      have hwritable : assignable = true := by
        cases config with
        | ref n =>
          have hkind := hassignable _ (List.mem_of_getElem? hread)
          cases assignable with
          | true => rfl
          | false => exact absurd rfl hkind
        | _ => exact absurd hread (Option.some_ne_none _).symm
      dsimp only [lowerConfig]
      by_cases hlimit : (fields.get "max_output_tokens").isSome = true
      · rw [if_pos hlimit, if_pos hlimit, if_pos hwritable, Heap.alloc_assign]
        rfl
      · rw [if_neg hlimit, if_neg hlimit]
        rfl

theorem limit_lowerConfig (object : Option (Object Kind PyValue)) (r : ℤ) :
    extractConfigMaxOutputTokens (some (lowerConfig object r)) =
      some (capped (extractConfigMaxOutputTokens object) r) := by
  unfold extractConfigMaxOutputTokens
  rw [Option.bind_some]
  cases object with
  | none => rfl
  | some object =>
    obtain ⟨kind, fields⟩ := object
    rw [Option.bind_some]
    cases kind with
    | dict =>
      dsimp only [lowerConfig]
      rw [Fields.get_set_self]
      rfl
    | object assignable =>
      dsimp only [lowerConfig]
      cases hlimit : fields.get "max_output_tokens" with
      | some limit =>
        rw [Option.isSome_some, if_pos rfl]
        dsimp only
        rw [Fields.get_set_self]
        rfl
      | none =>
        rw [Option.isSome_none, if_neg (by decide)]
        rfl

theorem readObject_of_extends (hextends : heap <+: heap') (hnames : Names heap value) :
    readObject heap' value = readObject heap value := by
  cases value with
  | ref n =>
    obtain ⟨newer, rfl⟩ := hextends
    exact List.getElem?_append_left hnames
  | _ => rfl

theorem target_mem (c : Call) : target c ∈ places := by
  unfold target configKey
  split
  · decide
  · split
    · decide
    · split
      · split <;> decide
      · decide

theorem read_getD (heap : Heap Kind PyValue) (value : Option PyValue) :
    readObject heap (value.getD .none) = value.bind (readObject heap) := by
  cases value <;> rfl

variable {c : ClosedCall} {c' : Call}

theorem mem_of_payload {c : Call} {fields : Fields PyValue} (h : c.payload = some fields) :
    ⟨.dict, fields⟩ ∈ c.heap := by
  obtain ⟨value, -, hdict⟩ := Option.bind_eq_some_iff.mp h
  unfold readDict at hdict
  split at hdict
  · next fields' hread =>
    rw [← Option.some.inj hdict]
    cases value with
    | ref n => exact List.mem_of_getElem? hread
    | _ => exact absurd hread (Option.some_ne_none _).symm
  · exact absurd hdict (Option.some_ne_none _).symm

theorem config_named {place : Place} (h : config c.toCall place = some value) :
    Names c.heap value := by
  cases place with
  | kwarg key => exact c.kwargs_named _ (Fields.mem_of_get h)
  | payload key =>
    obtain ⟨fields, hpayload, hget⟩ := Option.bind_eq_some_iff.mp h
    exact c.heap_named _ (mem_of_payload hpayload) _ (Fields.mem_of_get hget)

theorem payload_of_extends (hextends : c.heap <+: c'.heap) (hargs : c'.args = c.args) :
    c'.payload = c.payload := by
  unfold Call.payload
  rw [hargs]
  cases hfirst : c.args.head? with
  | none => rfl
  | some value =>
    have hnamed := c.args_named value (List.mem_of_mem_head? hfirst)
    unfold readDict
    rw [Option.bind_some, Option.bind_some, readObject_of_extends hextends hnamed]

theorem configAt_of_extends {place : Place} (hextends : c.heap <+: c'.heap)
    (hconfig : config c' place = config c.toCall place) :
    configAt c' place = configAt c.toCall place := by
  unfold configAt
  rw [hconfig]
  cases hvalue : config c.toCall place with
  | none => rfl
  | some value =>
    rw [Option.bind_some, Option.bind_some, readObject_of_extends hextends (config_named hvalue)]

theorem clamped_kwarg {key : String} (hassignable : Assignable c.heap)
    (htarget : target c.toCall = .kwarg key) :
    clamped c.toCall r =
      { c.toCall with
        heap := (c.heap.alloc (lowerConfig (configAt c.toCall (.kwarg key)).2 r)).1
        kwargs := c.kwargs.set key (.ref c.heap.length) } := by
  unfold clamped
  rw [htarget, applyRecommended_eq hassignable, read_getD]
  rfl

theorem clamped_payload {key : String} (hassignable : Assignable c.heap)
    (htarget : target c.toCall = .payload key) :
    clamped c.toCall r =
      { c.toCall with
        heap := ((c.heap.alloc (lowerConfig (configAt c.toCall (.payload key)).2 r)).1.alloc
          ⟨.dict, (c.payload.getD []).set key (.ref c.heap.length)⟩).1
        args := .ref (c.heap.length + 1) :: c.args.tail } := by
  unfold clamped
  rw [htarget, applyRecommended_eq hassignable, read_getD]
  unfold Heap.alloc
  dsimp only
  rw [List.length_append, List.length_singleton]
  rfl

theorem payload_of_target {key : String} (htarget : target c.toCall = .payload key) :
    ∃ fields, c.payload = some fields := by
  unfold target at htarget
  split at htarget
  · exact Place.noConfusion htarget
  · split at htarget
    · exact Place.noConfusion htarget
    · split at htarget
      · next fields hpayload => exact ⟨fields, hpayload⟩
      · exact Place.noConfusion htarget

theorem clamped_newPayload {key : String} {fields : Fields PyValue}
    (hassignable : Assignable c.heap) (htarget : target c.toCall = .payload key)
    (hpayload : c.payload = some fields) :
    (clamped c.toCall r).payload = some (fields.set key (.ref c.heap.length)) := by
  rw [clamped_payload hassignable htarget, hpayload, Option.getD_some]
  generalize lowerConfig (configAt c.toCall (.payload key)).2 r = lower
  have hlength : (c.heap.alloc lower).1.length = c.heap.length + 1 := by
    simp [Heap.alloc]
  have hnew := payload_alloc { c.toCall with heap := (c.heap.alloc lower).1 }
    (fields.set key (.ref c.heap.length)) c.args.tail
  dsimp only at hnew
  rw [hlength] at hnew
  exact hnew

theorem clamped_configAt (hassignable : Assignable c.heap) (r : ℤ) :
    configAt (clamped c.toCall r) (target c.toCall) = (some (.ref c.heap.length),
        some (lowerConfig (configAt c.toCall (target c.toCall)).2 r)) ∧
      ∀ place ≠ target c.toCall, configAt (clamped c.toCall r) place = configAt c.toCall place := by
  cases htarget : target c.toCall with
  | kwarg key =>
    rw [clamped_kwarg hassignable htarget]
    -- the new object is allocated behind the heap, so what is there is read as before
    have hextends := Heap.extends_alloc c.heap (lowerConfig (configAt c.toCall (.kwarg key)).2 r)
    refine ⟨?_, fun place hplace => configAt_of_extends hextends ?_⟩
    · unfold configAt config
      dsimp only
      rw [Fields.get_set_self, Option.bind_some]
      exact congrArg _ (Heap.alloc_read _ _)
    · cases place with
      | kwarg other =>
        have hne : key ≠ other := fun heq => hplace (heq ▸ rfl)
        exact Fields.get_set_of_ne _ _ hne
      | payload other =>
        have hsame : Call.payload { c.toCall with
            heap := (c.heap.alloc (lowerConfig (configAt c.toCall (.kwarg key)).2 r)).1
            kwargs := c.kwargs.set key (.ref c.heap.length) } = c.payload :=
          payload_of_extends hextends rfl
        exact congrArg (fun payload => payload.bind fun fields => fields.get other) hsame
  | payload key =>
    obtain ⟨fields, hpayload⟩ := payload_of_target htarget
    have hnew := clamped_newPayload hassignable htarget hpayload (r := r)
    generalize hlower : lowerConfig (configAt c.toCall (.payload key)).2 r = lower
    have hclamped := clamped_payload hassignable htarget (r := r)
    rw [hlower] at hclamped
    -- the payload is copied behind the new config
    have hlater : (c.heap.alloc lower).1 <+: (clamped c.toCall r).heap := by
      rw [hclamped]
      exact Heap.extends_alloc _ _
    have hextends := (Heap.extends_alloc c.heap lower).trans hlater
    refine ⟨?_, fun place hplace => configAt_of_extends hextends ?_⟩
    · unfold configAt config
      dsimp only
      rw [hnew, Option.bind_some, Fields.get_set_self, Option.bind_some]
      exact congrArg _ (Heap.read_of_extends hlater (Heap.alloc_read _ _))
    · cases place with
      | kwarg other =>
        rw [hclamped]
        rfl
      | payload other =>
        have hne : key ≠ other := fun heq => hplace (heq ▸ rfl)
        unfold config
        dsimp only
        rw [hnew, hpayload, Option.bind_some, Option.bind_some, Fields.get_set_of_ne _ _ hne]

theorem clamped_limitAt (hassignable : Assignable c.heap) (r : ℤ) :
    limitAt (clamped c.toCall r) (target c.toCall) =
        some (capped (limitAt c.toCall (target c.toCall)) r) ∧
      ∀ place ∈ places, place ≠ target c.toCall →
        limitAt (clamped c.toCall r) place = limitAt c.toCall place := by
  have hconfig := clamped_configAt hassignable r
  unfold limitAt
  refine ⟨?_, fun place _ hplace => ?_⟩
  · rw [hconfig.1]
    exact limit_lowerConfig _ r
  · rw [hconfig.2 place hplace]

/-- A replaced configuration keeps its fields exactly when there was none, or it was a dictionary or
an object with a limit. -/
theorem recordKept_lowerConfig_iff (place : Place) (r : ℤ) :
    RecordKept ["max_output_tokens"] IsAbsent (configAt c.toCall place)
        (some (.ref c.heap.length), some (lowerConfig (configAt c.toCall place).2 r)) ↔
      IsAbsent (config c.toCall place) ∨ ∃ object, (configAt c.toCall place).2 = some object ∧
        (object.kind = .dict ∨ (object.fields.get "max_output_tokens").isSome) := by
  constructor
  · intro h
    rcases h with hsame | ⟨habsent, -⟩ | ⟨object, object', hold, hnew, hkind, -⟩
    · -- the new object is none of the caller's
      have hvalue : config c.toCall place = some (.ref c.heap.length) :=
        (congrArg Prod.fst hsame).symm
      exact absurd (config_named hvalue) (Nat.lt_irrefl _)
    · exact .inl habsent
    · refine .inr ⟨object, hold, ?_⟩
      rw [hold] at hnew
      obtain ⟨kind, fields⟩ := object
      cases kind with
      | dict => exact .inl rfl
      | object assignable =>
        right
        by_contra hlimit
        -- an object without the limit is replaced by a dict, which is of another kind
        dsimp only [lowerConfig] at hnew
        rw [if_neg hlimit] at hnew
        rw [← Option.some.inj hnew] at hkind
        exact Kind.noConfusion hkind
  · intro h
    rcases h with habsent | ⟨object, hold, hreplace⟩
    -- without a config the new one has the limit only
    · refine .inr (.inl ⟨habsent, _, rfl, fun key hkey => ?_⟩)
      have hnone : (configAt c.toCall place).2 = Option.none := by
        unfold configAt
        rcases habsent with hconfig | hconfig
        · rw [hconfig]
          rfl
        · rw [hconfig]
          rfl
      rw [hnone]
      have hne : "max_output_tokens" ≠ key := fun heq => hkey (heq ▸ List.mem_singleton_self _)
      exact if_neg hne
    · refine .inr (.inr ⟨object, _, hold, rfl, ?_⟩)
      rw [hold]
      obtain ⟨kind, fields⟩ := object
      cases kind with
      | dict =>
        exact ⟨rfl, fun key hkey => Fields.get_set_of_ne _ _ fun heq =>
          hkey (heq ▸ List.mem_singleton_self _)⟩
      | object assignable =>
        have hlimit := hreplace.resolve_left fun hkind => Kind.noConfusion hkind
        dsimp only [lowerConfig]
        rw [if_pos hlimit]
        exact ⟨rfl, fun key hkey => Fields.get_set_of_ne _ _ fun heq =>
          hkey (heq ▸ List.mem_singleton_self _)⟩

theorem clamped_kept_iff (hassignable : Assignable c.heap) (r : ℤ) :
    Kept c.toCall (clamped c.toCall r) ↔
      IsAbsent (config c.toCall (target c.toCall)) ∨
        ∃ object, (configAt c.toCall (target c.toCall)).2 = some object ∧
          (object.kind = .dict ∨ (object.fields.get "max_output_tokens").isSome) := by
  rw [← recordKept_lowerConfig_iff _ r]
  have hconfig := clamped_configAt hassignable r
  constructor
  · intro h
    have hkept := h.configs _ (target_mem c.toCall)
    rw [hconfig.1] at hkept
    exact hkept
  · intro h
    have hconfigs : ∀ place ∈ places, RecordKept ["max_output_tokens"] IsAbsent
        (configAt c.toCall place) (configAt (clamped c.toCall r) place) := by
      intro place _
      -- only the target is given another config
      by_cases hplace : place = target c.toCall
      · rw [hplace, hconfig.1]
        exact h
      · exact .inl (hconfig.2 place hplace)
    have hmem := target_mem c.toCall
    cases htarget : target c.toCall with
    | kwarg key =>
      -- what is none of the two config names is the same
      have hne : ∀ other ∉ ["generation_config", "config"], key ≠ other := by
        rintro other hother rfl
        rw [htarget] at hmem
        apply hother
        simpa [places] using hmem
      rw [clamped_kwarg hassignable htarget] at hconfigs ⊢
      exact ⟨fun other hother => Fields.get_set_of_ne _ _ (hne other hother), rfl, .inl rfl,
        hconfigs⟩
    | payload key =>
      have hne : ∀ other ∉ ["generation_config", "config"], key ≠ other := by
        rintro other hother rfl
        rw [htarget] at hmem
        apply hother
        simpa [places] using hmem
      obtain ⟨fields, hpayload⟩ := payload_of_target htarget
      have hnew := clamped_newPayload hassignable htarget hpayload (r := r)
      refine ⟨fun other _ => ?_, ?_, .inr ⟨fields, _, hpayload, hnew, fun other hother =>
        Fields.get_set_of_ne _ _ (hne other hother)⟩, hconfigs⟩
      · rw [clamped_payload hassignable htarget]
      · rw [clamped_payload hassignable htarget]
        rfl

theorem enforces_iff (hassignable : Assignable c.heap) (r : ℤ) :
    Enforces c.toCall (clamped c.toCall r) r ↔ Uncontested c.toCall r := by
  have hlimits := limits_bounded_iff r (capped (extractMaxOutputTokens c.toCall) r)
    (target_mem c.toCall) (clamped_limitAt hassignable r).2 (clamped_limitAt hassignable r).1
  have hkept := clamped_kept_iff hassignable r
  constructor
  · intro h
    have hbounded := hlimits.mp ⟨h.read, h.limits⟩
    exact ⟨hbounded.1, hbounded.2, hkept.mp h.kept⟩
  · intro h
    have hbounded := hlimits.mpr ⟨h.others, h.own⟩
    exact ⟨hbounded.1, hbounded.2, hkept.mpr h.replaceable⟩

end Clamped

end Rheonic.Providers.Python.Google
