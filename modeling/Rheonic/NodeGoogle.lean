import Rheonic.NodeAdapters

namespace Rheonic.Providers.Node.Google
open ProtectEngine

/-- The configurations in the order in which a limit is looked for. -/
def places : List String := ["generationConfig", "config"]

/-- An argument, or nothing beyond the last one. -/
def arg (c : Call) (i : ℕ) : JsValue := c.args.getD i .undefined

def valueAt (heap : Heap Kind JsValue) (value : JsValue) : JsValue × Option (Object Kind JsValue) :=
  (value, readObject heap value)

/-- The argument that carries the configurations: the first, unless it is no object. -/
def containerIndex (c : Call) : ℕ := if (readObject c.heap (arg c 0)).isSome then 0 else 1

def containerAt (c : Call) : JsValue × Option (Object Kind JsValue) :=
  valueAt c.heap (arg c (containerIndex c))

/-- The fields of what is copied, none if it is no object. -/
def ownFields (object : Option (Object Kind JsValue)) : Fields JsValue :=
  (object.map Object.fields).getD []

def configAt (c : Call) (key : String) : JsValue × Option (Object Kind JsValue) :=
  valueAt c.heap (((ownFields (containerAt c).2).get key).getD .undefined)

def limitOf (object : Option (Object Kind JsValue)) : Option JsNumber :=
  ((ownFields object).get "maxOutputTokens").bind asNumber

def limitAt (c : Call) (key : String) : Option JsNumber := limitOf (configAt c key).2

def extractMaxOutputTokens (c : Call) : Option JsNumber := places.findSome? (limitAt c)

/-- The configuration that the clamp writes to. -/
def configKey (c : Call) : String :=
  if containerIndex c = 0 then
    let payload := ownFields (containerAt c).2
    if (payload.get "config").isSome || (payload.get "contents").isSome || (payload.get "model").isSome
    then "config" else "generationConfig"
  else if (configAt c "config").2.isSome then "config" else "generationConfig"

/-- A copy of a configuration with a lowered or a new limit. -/
def lowerConfig (object : Option (Object Kind JsValue)) (recommended : JsNumber) :
    Object Kind JsValue :=
  ⟨.object, (ownFields object).set "maxOutputTokens" (.number (capped (limitOf object) recommended))⟩

/-- `args[i] = value`. -/
def setArg (args : List JsValue) (i : ℕ) (value : JsValue) : List JsValue :=
  if i < args.length then args.set i value
  else args ++ List.replicate (i - args.length) .undefined ++ [value]

def clamped (c : Call) (recommended : JsNumber) : Call :=
  let (heap, config) := c.heap.alloc (lowerConfig (configAt c (configKey c)).2 recommended)
  let (heap, container) :=
    heap.alloc ⟨.object, (ownFields (containerAt c).2).set (configKey c) (.ref config)⟩
  { heap := heap, args := setArg c.args (containerIndex c) (.ref container) }

def maybeApplyGoogleClamp : Call → Evaluation → Call := maybeApplyBy clamped

def Names (heap : Heap Kind JsValue) : JsValue → Prop
  | .ref n => n < heap.length
  | _ => True

/-- A call without dangling references. -/
structure ClosedCall extends Call where
  args_named : ∀ value ∈ args, Names heap value
  heap_named : ∀ object ∈ heap, ∀ field ∈ object.fields, Names heap field.2

def IsAbsent (value : JsValue) : Prop := value = .undefined ∨ value = .null

structure Kept (c c' : Call) : Prop where
  rest : ∀ i ≠ containerIndex c, arg c' i = arg c i
  container : RecordKept places IsAbsent (containerAt c) (valueAt c'.heap (arg c' (containerIndex c)))
  configs : ∀ key ∈ places, RecordKept ["maxOutputTokens"] IsAbsent (configAt c key) (configAt c' key)

/-- The clamp is enforced: the limit that is read, and every other one, is at most the original
limit and the recommended one, and nothing else differs. -/
structure Enforces (c c' : Call) (r : JsNumber) : Prop where
  read : ∃ e, extractMaxOutputTokens c' = some e ∧ e ≤ capped (extractMaxOutputTokens c) r
  limits : ∀ key ∈ places, ∀ l, limitAt c' key = some l → l ≤ capped (extractMaxOutputTokens c) r
  kept : Kept c c'

/-- Absent, or an object that a copy can stand for. -/
def Replaceable (value : JsValue × Option (Object Kind JsValue)) : Prop :=
  IsAbsent value.1 ∨ ∃ object, value.2 = some object ∧ object.kind = .object

/-- The other configuration holds no limit above the bound, the one that the clamp writes to has its
own limit (the recommended one if it has none) within the original, and what is copied is absent or
no array. -/
structure Uncontested (c : Call) (r : JsNumber) : Prop where
  others : ∀ key ∈ places, key ≠ configKey c → ∀ l, limitAt c key = some l →
    l ≤ capped (extractMaxOutputTokens c) r
  own : capped (limitAt c (configKey c)) r ≤ capped (extractMaxOutputTokens c) r
  container : Replaceable (containerAt c)
  config : Replaceable (configAt c (configKey c))

section Clamped

variable {heap heap' : Heap Kind JsValue} {value : JsValue} {r : JsNumber} {c : ClosedCall}
  {c' : Call}

theorem configKey_mem (c : Call) : configKey c ∈ places := by
  unfold configKey
  split
  · dsimp only
    split <;> decide
  · split <;> decide

theorem limit_lowerConfig (object : Option (Object Kind JsValue)) (r : JsNumber) :
    limitOf (some (lowerConfig object r)) = some (capped (limitOf object) r) := by
  have hfields : ownFields (some (lowerConfig object r)) = (ownFields object).set "maxOutputTokens"
      (.number (capped (limitOf object) r)) := rfl
  unfold limitOf at hfields ⊢
  rw [hfields, Fields.get_set_self]
  rfl

theorem setArg_self (args : List JsValue) (i : ℕ) (value : JsValue) :
    (setArg args i value).getD i .undefined = value := by
  unfold setArg
  by_cases hi : i < args.length
  · rw [if_pos hi, List.getD_eq_getElem?_getD, List.getElem?_set_self hi, Option.getD_some]
  · rw [if_neg hi, List.getD_eq_getElem?_getD]
    have hlength : (args ++ List.replicate (i - args.length) JsValue.undefined).length = i := by
      rw [List.length_append, List.length_replicate]
      omega
    rw [List.getElem?_append_right hlength.le, hlength, Nat.sub_self]
    rfl

theorem setArg_of_ne (args : List JsValue) {i j : ℕ} (value : JsValue) (h : j ≠ i) :
    (setArg args i value).getD j .undefined = args.getD j .undefined := by
  unfold setArg
  rw [List.getD_eq_getElem?_getD, List.getD_eq_getElem?_getD]
  by_cases hi : i < args.length
  · rw [if_pos hi, List.getElem?_set_ne (Ne.symm h)]
  · rw [if_neg hi, List.append_assoc]
    by_cases hj : j < args.length
    · rw [List.getElem?_append_left hj]
    · have hlate : args.length ≤ j := Nat.le_of_not_lt hj
      rw [List.getElem?_append_right hlate, List.getElem?_eq_none hlate]
      -- the gap is filled with nothing
      by_cases hgap : j - args.length < i - args.length
      · rw [List.getElem?_append_left (by rw [List.length_replicate]; exact hgap),
          List.getElem?_replicate_of_lt hgap]
        rfl
      · rw [List.getElem?_eq_none]
        simp only [List.length_append, List.length_replicate, List.length_singleton]
        omega

theorem readObject_of_extends (hextends : heap <+: heap') (hnames : Names heap value) :
    readObject heap' value = readObject heap value := by
  cases value with
  | ref n =>
    obtain ⟨newer, rfl⟩ := hextends
    exact List.getElem?_append_left hnames
  | _ => rfl

theorem valueAt_of_extends (hextends : heap <+: heap') (hnames : Names heap value) :
    valueAt heap' value = valueAt heap value := by
  unfold valueAt
  rw [readObject_of_extends hextends hnames]

theorem arg_named (c : ClosedCall) (i : ℕ) : Names c.heap (arg c.toCall i) := by
  unfold arg
  rw [List.getD_eq_getElem?_getD]
  cases harg : c.args[i]? with
  | none => exact trivial
  | some value => exact c.args_named value (List.mem_of_getElem? harg)

theorem mem_of_readObject {object : Object Kind JsValue} (h : readObject heap value = some object) :
    object ∈ heap := by
  cases value with
  | ref n => exact List.mem_of_getElem? h
  | _ => exact absurd h (Option.some_ne_none _).symm

theorem field_named {key : String} {object : Option (Object Kind JsValue)}
    (h : ∀ o, object = some o → o ∈ c.heap) :
    Names c.heap (((ownFields object).get key).getD .undefined) := by
  cases hget : (ownFields object).get key with
  | none => exact trivial
  | some value =>
    cases object with
    | none => exact absurd hget (Option.some_ne_none _).symm
    | some object => exact c.heap_named object (h object rfl) _ (Fields.mem_of_get hget)

theorem config_named (c : ClosedCall) (key : String) :
    Names c.heap (((ownFields (containerAt c.toCall).2).get key).getD .undefined) :=
  field_named fun _ ho => mem_of_readObject ho

theorem clamped_eq (c : Call) (r : JsNumber) :
    clamped c r =
      { heap := ((c.heap.alloc (lowerConfig (configAt c (configKey c)).2 r)).1.alloc
          ⟨.object, (ownFields (containerAt c).2).set (configKey c) (.ref c.heap.length)⟩).1
        args := setArg c.args (containerIndex c) (.ref (c.heap.length + 1)) } := by
  unfold clamped Heap.alloc
  dsimp only
  rw [List.length_append, List.length_singleton]

theorem clamped_extends (c : Call) (r : JsNumber) : c.heap <+: (clamped c r).heap := by
  rw [clamped_eq]
  exact (Heap.extends_alloc _ _).trans (Heap.extends_alloc _ _)

theorem clamped_arg_of_ne (c : Call) (r : JsNumber) {i : ℕ} (h : i ≠ containerIndex c) :
    arg (clamped c r) i = arg c i := by
  rw [clamped_eq]
  exact setArg_of_ne _ _ h

theorem clamped_valueAt (c : Call) (r : JsNumber) :
    valueAt (clamped c r).heap (arg (clamped c r) (containerIndex c)) =
      (.ref (c.heap.length + 1),
        some ⟨.object, (ownFields (containerAt c).2).set (configKey c) (.ref c.heap.length)⟩) := by
  have harg : arg (clamped c r) (containerIndex c) = .ref (c.heap.length + 1) := by
    rw [clamped_eq]
    exact setArg_self _ _ _
  rw [harg, clamped_eq]
  unfold valueAt readObject Heap.alloc
  simp

theorem clamped_containerIndex (c : ClosedCall) (r : JsNumber) :
    containerIndex (clamped c.toCall r) = containerIndex c.toCall := by
  by_cases hfirst : (readObject c.heap (arg c.toCall 0)).isSome = true
  · have hindex : containerIndex c.toCall = 0 := if_pos hfirst
    have hvalue := clamped_valueAt c.toCall r
    rw [hindex] at hvalue ⊢
    apply if_pos
    exact congrArg (fun value => value.2.isSome) hvalue
  · have hindex : containerIndex c.toCall = 1 := if_neg hfirst
    rw [hindex]
    apply if_neg
    have hne : 0 ≠ containerIndex c.toCall := by omega
    rw [clamped_arg_of_ne c.toCall r hne,
      readObject_of_extends (clamped_extends c.toCall r) (arg_named c 0)]
    exact hfirst

theorem clamped_configAt (c : ClosedCall) (r : JsNumber) :
    configAt (clamped c.toCall r) (configKey c.toCall) = (.ref c.heap.length,
        some (lowerConfig (configAt c.toCall (configKey c.toCall)).2 r)) ∧
      ∀ key ≠ configKey c.toCall, configAt (clamped c.toCall r) key = configAt c.toCall key := by
  have hcontainer : (containerAt (clamped c.toCall r)).2 = some ⟨.object,
      (ownFields (containerAt c.toCall).2).set (configKey c.toCall) (.ref c.heap.length)⟩ := by
    unfold containerAt
    rw [clamped_containerIndex, clamped_valueAt]
    rfl
  have hfields : ownFields (containerAt (clamped c.toCall r)).2 =
      (ownFields (containerAt c.toCall).2).set (configKey c.toCall) (.ref c.heap.length) := by
    rw [hcontainer]
    rfl
  unfold configAt
  rw [hfields]
  refine ⟨?_, fun key hkey => ?_⟩
  · rw [Fields.get_set_self, Option.getD_some, clamped_eq]
    unfold valueAt readObject Heap.alloc
    simp [configAt, valueAt, readObject]
  · rw [Fields.get_set_of_ne _ _ (Ne.symm hkey)]
    exact valueAt_of_extends (clamped_extends c.toCall r) (config_named c key)

theorem clamped_limitAt (c : ClosedCall) (r : JsNumber) :
    limitAt (clamped c.toCall r) (configKey c.toCall) =
        some (capped (limitAt c.toCall (configKey c.toCall)) r) ∧
      ∀ key ∈ places, key ≠ configKey c.toCall →
        limitAt (clamped c.toCall r) key = limitAt c.toCall key := by
  have hconfig := clamped_configAt c r
  unfold limitAt
  refine ⟨?_, fun key _ hkey => ?_⟩
  · rw [hconfig.1]
    exact limit_lowerConfig _ r
  · rw [hconfig.2 key hkey]

/-- A changed copy keeps the other fields exactly when what it stands for was absent, or an object
and no array. -/
theorem recordKept_copy_iff {changed : List String} {n : ℕ} {new : Object Kind JsValue}
    (hnames : Names heap value) (hfresh : heap.length ≤ n) (hkind : new.kind = .object)
    (hfields : ∀ key ∉ changed, new.fields.get key = (ownFields (readObject heap value)).get key) :
    RecordKept changed IsAbsent (valueAt heap value) (.ref n, some new) ↔
      Replaceable (valueAt heap value) := by
  constructor
  · intro h
    rcases h with hsame | ⟨habsent, -⟩ | ⟨object, object', hold, hnew, hkinds, -⟩
    · -- the copy is no object of the caller
      have hvalue : JsValue.ref n = value := congrArg Prod.fst hsame
      rw [← hvalue] at hnames
      have hlt : n < heap.length := hnames
      omega
    · exact .inl habsent
    · refine .inr ⟨object, hold, ?_⟩
      rw [← hkinds, ← Option.some.inj hnew]
      exact hkind
  · intro h
    rcases h with habsent | ⟨object, hold, hobject⟩
    · refine .inr (.inl ⟨habsent, new, rfl, fun key hkey => ?_⟩)
      have hnone : readObject heap value = none := by
        rcases habsent with hvalue | hvalue
        · rw [show value = .undefined from hvalue]
          rfl
        · rw [show value = .null from hvalue]
          rfl
      rw [hfields key hkey, hnone]
      rfl
    · have hread : readObject heap value = some object := hold
      refine .inr (.inr ⟨object, new, hold, rfl, hkind.trans hobject.symm, fun key hkey => ?_⟩)
      rw [hfields key hkey, hread]
      rfl

theorem clamped_kept_iff (c : ClosedCall) (r : JsNumber) :
    Kept c.toCall (clamped c.toCall r) ↔ Replaceable (containerAt c.toCall) ∧
      Replaceable (configAt c.toCall (configKey c.toCall)) := by
  have hconfig := clamped_configAt c r
  have hcontainer := clamped_valueAt c.toCall r
  have hcontainerKept : RecordKept places IsAbsent (containerAt c.toCall) (valueAt
      (clamped c.toCall r).heap (arg (clamped c.toCall r) (containerIndex c.toCall))) ↔
        Replaceable (containerAt c.toCall) := by
    rw [hcontainer]
    refine recordKept_copy_iff (arg_named c _) (Nat.le_succ _) rfl fun key hkey => ?_
    exact Fields.get_set_of_ne _ _ fun heq => hkey (heq ▸ configKey_mem c.toCall)
  have hconfigKept : RecordKept ["maxOutputTokens"] IsAbsent
      (configAt c.toCall (configKey c.toCall))
      (configAt (clamped c.toCall r) (configKey c.toCall)) ↔
        Replaceable (configAt c.toCall (configKey c.toCall)) := by
    rw [hconfig.1]
    refine recordKept_copy_iff (config_named c _) le_rfl rfl fun key hkey => ?_
    exact Fields.get_set_of_ne _ _ fun heq => hkey (heq ▸ List.mem_singleton_self _)
  constructor
  · intro h
    exact ⟨hcontainerKept.mp h.container, hconfigKept.mp (h.configs _ (configKey_mem c.toCall))⟩
  · intro h
    refine ⟨fun i hi => clamped_arg_of_ne c.toCall r hi, hcontainerKept.mpr h.1, fun key _ => ?_⟩
    by_cases hkey : key = configKey c.toCall
    · rw [hkey]
      exact hconfigKept.mpr h.2
    · exact .inl (hconfig.2 key hkey)

theorem enforces_iff (c : ClosedCall) (r : JsNumber) :
    Enforces c.toCall (clamped c.toCall r) r ↔ Uncontested c.toCall r := by
  have hlimits := limits_bounded_iff r (capped (extractMaxOutputTokens c.toCall) r)
    (configKey_mem c.toCall) (clamped_limitAt c r).2 (clamped_limitAt c r).1
  have hkept := clamped_kept_iff c r
  constructor
  · intro h
    have hbounded := hlimits.mp ⟨h.read, h.limits⟩
    have hreplaceable := hkept.mp h.kept
    exact ⟨hbounded.1, hbounded.2, hreplaceable.1, hreplaceable.2⟩
  · intro h
    have hbounded := hlimits.mpr ⟨h.others, h.own⟩
    exact ⟨hbounded.1, hbounded.2, hkept.mpr ⟨h.container, h.config⟩⟩

end Clamped

end Rheonic.Providers.Node.Google
