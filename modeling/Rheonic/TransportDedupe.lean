import Rheonic.Lib.Json
import Rheonic.Lib.PyText

namespace Rheonic.TransportDedupe
open PyText Json

/-- A finite float by the digits of its `repr`, the shortest that read back as it. They have a
fraction or an exponent, unlike those of an integer. -/
structure FloatRepr where
  negative : Bool
  whole : ℕ
  fraction : List (Fin 10)
  exponent : Option ℤ
  marked : fraction ≠ [] ∨ exponent ≠ none

def digitChar (d : Fin 10) : Char := Nat.digitChar d

def fractionText (fraction : List (Fin 10)) : List Char :=
  if fraction = [] then [] else '.' :: fraction.map digitChar

/-- An exponent has its sign and two digits at least. -/
def exponentText : Option ℤ → List Char
  | none => []
  | some k =>
    let digits := k.natAbs.repr.toList
    'e' :: (if k < 0 then '-' else '+') :: (if k.natAbs < 10 then '0' :: digits else digits)

def FloatRepr.text (x : FloatRepr) : List Char :=
  (if x.negative then ['-'] else []) ++
    (x.whole.repr.toList ++ (fractionText x.fraction ++ exponentText x.exponent))

/-- The literals and numbers of JSON; an integer and a float are different values. -/
inductive Scalar
  | null
  | bool (b : Bool)
  | int (n : ℤ)
  | float (x : FloatRepr)

def Scalar.text : Scalar → List Char
  | .null => "null".toList
  | .bool b => (if b then "true" else "false").toList
  | .int n => (toString n).toList
  | .float x => x.text

section Numbers

theorem repr_inj {m n : ℕ} (h : m.repr.toList = n.repr.toList) : m = n := by
  have hdigits := congrArg digits h
  rw [Nat.repr, Nat.repr, String.toList_ofList, String.toList_ofList, digits_toDigits,
    digits_toDigits] at hdigits
  exact Option.some.inj hdigits

theorem repr_ne_nil (n : ℕ) : n.repr.toList ≠ [] := by
  rw [Nat.repr, String.toList_ofList]
  exact Nat.toDigits_ne_nil

theorem int_text_inj {m n : ℤ} (h : (toString m).toList = (toString n).toList) : m = n := by
  have hparsed := congrArg parseNumber (String.toList_injective h)
  rw [parseNumber_toString, parseNumber_toString] at hparsed
  exact Option.some.inj hparsed

theorem isDigit_digitChar (d : Fin 10) : (digitChar d).isDigit = true := by
  revert d
  decide

theorem digitChar_inj {d e : Fin 10} (h : digitChar d = digitChar e) : d = e := by
  revert d e
  decide

theorem int_text_chars {n : ℤ} {c : Char} (h : c ∈ (toString n).toList) :
    c = '-' ∨ c.isDigit = true := by
  have hrepr : toString n = n.repr := rfl
  rw [hrepr, Int.repr_eq_if] at h
  by_cases hn : 0 ≤ n
  · rw [if_pos hn] at h
    exact .inr (isDigit_of_mem_repr h)
  · rw [if_neg hn, String.toList_append, List.mem_append] at h
    rcases h with h | h
    · exact .inl (List.mem_singleton.mp h)
    · exact .inr (isDigit_of_mem_repr h)

theorem exponentText_inj {e e' : Option ℤ} (h : exponentText e = exponentText e') : e = e' := by
  -- the digits read back as the absolute value, padded or not
  have hread (k : ℤ) : digits (if k.natAbs < 10 then '0' :: k.natAbs.repr.toList
      else k.natAbs.repr.toList) = some k.natAbs := by
    have hall : ∀ c ∈ k.natAbs.repr.toList, c.isDigit = true := fun c hc => isDigit_of_mem_repr hc
    have hvalue : digits k.natAbs.repr.toList = some k.natAbs := by
      rw [Nat.repr, String.toList_ofList, digits_toDigits]
    by_cases hk : k.natAbs < 10
    · rw [if_pos hk, digits_of_digits ?_ (by simp), Nat.ofDigitChars_cons]
      · rw [digits_of_digits hall (repr_ne_nil _)] at hvalue
        exact hvalue
      · intro c hc
        rcases List.mem_cons.mp hc with rfl | hc
        · decide
        · exact hall c hc
    · rw [if_neg hk]
      exact hvalue
  cases e with
  | none =>
    cases e' with
    | none => rfl
    | some k' => exact absurd h (List.cons_ne_nil _ _).symm
  | some k =>
    cases e' with
    | none => exact absurd h (List.cons_ne_nil _ _)
    | some k' =>
      unfold exponentText at h
      dsimp only at h
      rw [List.cons.injEq, List.cons.injEq] at h
      obtain ⟨-, hsign, hdigits⟩ := h
      have habs : k.natAbs = k'.natAbs := by
        have hboth := congrArg digits hdigits
        rw [hread, hread] at hboth
        exact Option.some.inj hboth
      -- and the sign is written apart
      have hneg : k < 0 ↔ k' < 0 := by
        by_cases hk : k < 0
        · by_cases hk' : k' < 0
          · exact iff_of_true hk hk'
          · rw [if_pos hk, if_neg hk'] at hsign
            exact absurd hsign (by decide)
        · by_cases hk' : k' < 0
          · rw [if_neg hk, if_pos hk'] at hsign
            exact absurd hsign (by decide)
          · exact iff_of_false hk hk'
      congr 1
      omega

theorem head_exponentText {e : Option ℤ} : ∀ c ∈ (exponentText e).head?, c = 'e' := by
  intro c hc
  cases e with
  | none => exact absurd hc.symm (Option.some_ne_none c)
  | some k => exact (Option.some.inj hc).symm

theorem head_fraction {fraction : List (Fin 10)} {e : Option ℤ} :
    ∀ c ∈ (fractionText fraction ++ exponentText e).head?, c = '.' ∨ c = 'e' := by
  intro c hc
  unfold fractionText at hc
  by_cases hfraction : fraction = []
  · rw [if_pos hfraction, List.nil_append] at hc
    exact .inr (head_exponentText c hc)
  · rw [if_neg hfraction] at hc
    exact .inl (Option.some.inj hc).symm

theorem fraction_inj {f f' : List (Fin 10)} {e e' : Option ℤ}
    (h : fractionText f ++ exponentText e = fractionText f' ++ exponentText e') :
    f = f' ∧ e = e' := by
  have hmixed {g : List (Fin 10)} {k k' : Option ℤ} :
      exponentText k ≠ ('.' :: g.map digitChar) ++ exponentText k' := by
    intro hk
    have hhead := head_exponentText (e := k) '.' (by rw [hk]; rfl)
    exact absurd hhead (by decide)
  unfold fractionText at h
  by_cases hf : f = []
  · by_cases hf' : f' = []
    · rw [if_pos hf, if_pos hf', List.nil_append, List.nil_append] at h
      exact ⟨hf.trans hf'.symm, exponentText_inj h⟩
    · rw [if_pos hf, if_neg hf', List.nil_append] at h
      exact absurd h hmixed
  · by_cases hf' : f' = []
    · rw [if_neg hf, if_pos hf', List.nil_append] at h
      exact absurd h.symm hmixed
    · rw [if_neg hf, if_neg hf', List.cons_append, List.cons_append, List.cons.injEq] at h
      have hdigit (g : List (Fin 10)) :
          ∀ c ∈ g.map digitChar, c.isDigit = true := by
        intro c hc
        obtain ⟨d, -, rfl⟩ := List.mem_map.mp hc
        exact isDigit_digitChar d
      have hstop (k : Option ℤ) : ∀ c ∈ (exponentText k).head?, ¬c.isDigit = true := by
        intro c hc
        rw [head_exponentText c hc]
        decide
      obtain ⟨hdigits, hexponents⟩ :=
        append_inj_of_stop (hdigit f) (hdigit f') (hstop e) (hstop e') h.2
      exact ⟨List.map_injective_iff.mpr (fun _ _ => digitChar_inj) hdigits,
        exponentText_inj hexponents⟩

theorem FloatRepr.text_inj {x y : FloatRepr} (h : x.text = y.text) : x = y := by
  have hunsigned {m n : ℕ} {f f' : List (Fin 10)} {e e' : Option ℤ}
      (h : m.repr.toList ++ (fractionText f ++ exponentText e) =
        n.repr.toList ++ (fractionText f' ++ exponentText e')) : m = n ∧ f = f' ∧ e = e' := by
    -- the digits of the whole part end at a point, an exponent or the end
    have hstop (g : List (Fin 10)) (k : Option ℤ) :
        ∀ c ∈ (fractionText g ++ exponentText k).head?, ¬c.isDigit = true := by
      intro c hc
      rcases head_fraction c hc with rfl | rfl
      · decide
      · decide
    obtain ⟨hwhole, hrest⟩ := append_inj_of_stop (fun c hc => isDigit_of_mem_repr hc)
      (fun c hc => isDigit_of_mem_repr hc) (hstop f e) (hstop f' e') h
    exact ⟨repr_inj hwhole, fraction_inj hrest⟩
  -- no digits begin with a sign
  have hsigned {n : ℕ} {u v : List Char} : n.repr.toList ++ u ≠ '-' :: v := by
    intro h
    cases hn : n.repr.toList with
    | nil => exact repr_ne_nil n hn
    | cons c cs =>
      rw [hn] at h
      have hc : c.isDigit = true := isDigit_of_mem_repr (hn ▸ List.mem_cons_self)
      rw [List.head_eq_of_cons_eq h] at hc
      exact absurd hc (by decide)
  obtain ⟨negative, whole, fraction, exponent, marked⟩ := x
  obtain ⟨negative', whole', fraction', exponent', marked'⟩ := y
  unfold FloatRepr.text at h
  dsimp only at h
  cases negative with
  | true =>
    cases negative' with
    | true =>
      obtain ⟨rfl, rfl, rfl⟩ := hunsigned (List.tail_eq_of_cons_eq h)
      rfl
    | false => exact absurd h.symm hsigned
  | false =>
    cases negative' with
    | true => exact absurd h hsigned
    | false =>
      obtain ⟨rfl, rfl, rfl⟩ := hunsigned h
      rfl

theorem FloatRepr.text_chars {x : FloatRepr} {c : Char} (h : c ∈ x.text) :
    c ∈ ['-', '+', '.', 'e'] ∨ c.isDigit = true := by
  have hexponent (e : Option ℤ) (hc : c ∈ exponentText e) :
      c ∈ ['-', '+', '.', 'e'] ∨ c.isDigit = true := by
    cases e with
    | none => exact absurd hc List.not_mem_nil
    | some k =>
      unfold exponentText at hc
      dsimp only at hc
      rcases List.mem_cons.mp hc with rfl | hc
      · exact .inl (by decide)
      rcases List.mem_cons.mp hc with rfl | hc
      · by_cases hk : k < 0
        · rw [if_pos hk]
          exact .inl (by decide)
        · rw [if_neg hk]
          exact .inl (by decide)
      by_cases hk : k.natAbs < 10
      · rw [if_pos hk] at hc
        rcases List.mem_cons.mp hc with rfl | hc
        · exact .inr (by decide)
        · exact .inr (isDigit_of_mem_repr hc)
      · rw [if_neg hk] at hc
        exact .inr (isDigit_of_mem_repr hc)
  unfold FloatRepr.text fractionText at h
  rw [List.mem_append, List.mem_append, List.mem_append] at h
  rcases h with h | h | h | h
  · by_cases hnegative : x.negative = true
    · rw [if_pos hnegative] at h
      have hc : c = '-' := List.mem_singleton.mp h
      rw [hc]
      exact .inl (by decide)
    · rw [if_neg hnegative] at h
      exact absurd h List.not_mem_nil
  · exact .inr (isDigit_of_mem_repr h)
  · by_cases hfraction : x.fraction = []
    · rw [if_pos hfraction] at h
      exact absurd h List.not_mem_nil
    · rw [if_neg hfraction] at h
      rcases List.mem_cons.mp h with rfl | h
      · exact .inl (by decide)
      · obtain ⟨d, -, rfl⟩ := List.mem_map.mp h
        exact .inr (isDigit_digitChar d)
  · exact hexponent x.exponent h

theorem FloatRepr.text_ne_int (x : FloatRepr) (n : ℤ) : x.text ≠ (toString n).toList := by
  intro h
  have hmark : '.' ∈ x.text ∨ 'e' ∈ x.text := by
    unfold FloatRepr.text fractionText
    rcases x.marked with hfraction | hexponent
    · rw [if_neg hfraction]
      exact .inl (by simp)
    · cases hk : x.exponent with
      | none => exact absurd hk hexponent
      | some k => exact .inr (by simp [exponentText])
  rw [h] at hmark
  rcases hmark with hmark | hmark
  · rcases int_text_chars hmark with hc | hc
    · exact absurd hc (by decide)
    · exact absurd hc (by decide)
  · rcases int_text_chars hmark with hc | hc
    · exact absurd hc (by decide)
    · exact absurd hc (by decide)

/-- A number, which has none of the letters that begin the literals. -/
def Scalar.isNumber : Scalar → Bool
  | .int _ | .float _ => true
  | _ => false

theorem Scalar.text_chars {v : Scalar} {c : Char} (hv : v.isNumber = true) (h : c ∈ v.text) :
    c ∈ ['-', '+', '.', 'e'] ∨ c.isDigit = true := by
  cases v with
  | null => exact absurd hv Bool.false_ne_true
  | bool b => exact absurd hv Bool.false_ne_true
  | int n =>
    rcases int_text_chars h with rfl | hdigit
    · exact .inl (by decide)
    · exact .inr hdigit
  | float x => exact FloatRepr.text_chars h

theorem Scalar.isNumber_eq {v w : Scalar} (h : v.text = w.text) : v.isNumber = w.isNumber := by
  have hliteral (z : Scalar) (hz : z.isNumber = false) :
      'n' ∈ z.text ∨ 't' ∈ z.text ∨ 'f' ∈ z.text := by
    cases z with
    | null => exact .inl (by decide)
    | bool b =>
      cases b with
      | true => exact .inr (.inl (by decide))
      | false => exact .inr (.inr (by decide))
    | int n => exact absurd hz.symm Bool.false_ne_true
    | float x => exact absurd hz.symm Bool.false_ne_true
  have hnot (z z' : Scalar) (hz : z.isNumber = true) (hz' : z'.isNumber = false)
      (h : z.text = z'.text) : False := by
    have hletters := hliteral z' hz'
    rw [← h] at hletters
    rcases hletters with hc | hc | hc
    · exact absurd (Scalar.text_chars hz hc) (by decide)
    · exact absurd (Scalar.text_chars hz hc) (by decide)
    · exact absurd (Scalar.text_chars hz hc) (by decide)
  cases hv : v.isNumber with
  | true =>
    cases hw : w.isNumber with
    | true => rfl
    | false => exact (hnot v w hv hw h).elim
  | false =>
    cases hw : w.isNumber with
    | true => exact (hnot w v hw hv h.symm).elim
    | false => rfl

theorem Scalar.text_inj {v w : Scalar} (h : v.text = w.text) : v = w := by
  have hnumber := Scalar.isNumber_eq h
  cases v with
  | null =>
    cases w with
    | null => rfl
    | bool b => cases b <;> exact absurd h (by decide)
    | int n => exact absurd hnumber Bool.false_ne_true
    | float x => exact absurd hnumber Bool.false_ne_true
  | bool b =>
    cases w with
    | null => cases b <;> exact absurd h (by decide)
    | bool b' =>
      have hbools : ∀ b b' : Bool, (Scalar.bool b).text = (Scalar.bool b').text → b = b' := by decide
      rw [hbools b b' h]
    | int n => exact absurd hnumber Bool.false_ne_true
    | float x => exact absurd hnumber Bool.false_ne_true
  | int m =>
    cases w with
    | null => exact absurd hnumber.symm Bool.false_ne_true
    | bool b => exact absurd hnumber.symm Bool.false_ne_true
    | int n => rw [int_text_inj h]
    | float x => exact absurd h.symm (FloatRepr.text_ne_int x m)
  | float x =>
    cases w with
    | null => exact absurd hnumber.symm Bool.false_ne_true
    | bool b => exact absurd hnumber.symm Bool.false_ne_true
    | int n => exact absurd h (FloatRepr.text_ne_int x n)
    | float y => rw [FloatRepr.text_inj h]

theorem plain_text : Plain Scalar.text where
  injective _ _ := Scalar.text_inj
  ne_nil v := by
    cases v with
    | null => decide
    | bool b => cases b <;> decide
    | int n =>
      intro h
      have hempty : toString n = "" := String.toList_injective h
      exact absurd (parseNumber_toString n) (by rw [hempty]; exact (Option.some_ne_none _).symm)
    | float x => simp [Scalar.text, FloatRepr.text]
  plain v c hc := by
    cases hv : v.isNumber with
    | true =>
      intro hdelimiter
      have hchars := Scalar.text_chars hv hc
      simp only [List.mem_cons, List.not_mem_nil, or_false] at hdelimiter
      rcases hdelimiter with rfl | rfl | rfl | rfl | rfl | rfl <;> exact absurd hchars (by decide)
    | false =>
      have hletters (w : Scalar) (hall : w.text.all (· ∉ ['"', '[', '{', ',', ']', '}']) = true)
          (hw : c ∈ w.text) : c ∉ ['"', '[', '{', ',', ']', '}'] :=
        of_decide_eq_true (List.all_eq_true.mp hall c hw)
      cases v with
      | null => exact hletters .null (by decide) hc
      | bool b =>
        cases b with
        | true => exact hletters (.bool true) (by decide) hc
        | false => exact hletters (.bool false) (by decide) hc
      | int n => exact absurd hv.symm Bool.false_ne_true
      | float x => exact absurd hv.symm Bool.false_ne_true

end Numbers

abbrev Value := Json Scalar

/-- A dictionary with string keys, whose values are JSON. -/
structure Payload where
  fields : Fields Value
  wellFormed : (Json.object fields).WellFormed

inductive Kind
  | webhook
  | email
  deriving DecidableEq, Repr

def Kind.value : Kind → String
  | .webhook => "webhook"
  | .email => "email"

/-- The arguments of `build_transport_dedupe_key`. -/
structure Notification where
  projectId : String
  kind : Kind
  eventType : String
  payload : Payload
  destination : Option String := none
  seed : Option String := none

/-- `dict.pop(key, None)`. -/
def pop (fields : Fields Value) (key : String) : Fields Value := fields.filter (·.1 ≠ key)

/-- A payload without its trace id, and without the metadata if nothing else is in them. -/
def dedupeSafePayload (payload : Fields Value) : Fields Value :=
  match payload.get "__transport_meta" with
  | some (.object transportMeta) =>
    let transportMeta := pop transportMeta "trace_id"
    if transportMeta.isEmpty then pop payload "__transport_meta"
    else payload.set "__transport_meta" (.object transportMeta)
  | _ => payload

def optional : Option String → Value
  | none => .scalar .null
  | some s => .string s

def source (n : Notification) : Value :=
  .object [("project_id", .string n.projectId), ("kind", .string n.kind.value),
    ("event_type", .string n.eventType), ("destination", optional n.destination),
    ("payload", .object (dedupeSafePayload n.payload.fields)), ("seed", optional n.seed)]

/-- `json.dumps(source, sort_keys=True, separators=(",", ":"), ensure_ascii=False)`. Only a lone
surrogate, which no `String` has, could not be encoded in UTF-8. -/
def encoded (n : Notification) : String := String.ofList (dumps Scalar.text (source n))

/-- The key of a notification, for a function that gives the hexadecimal digest of some bytes. -/
def buildTransportDedupeKey (sha256 : ByteArray → String) (n : Notification) : String :=
  sha256 (encoded n).toUTF8

/-- A value without the member `trace_id`, if it is an object. -/
def withoutMember (key : String) : Value → Value
  | .object members => .object (members.filter (·.1 ≠ key))
  | value => value

/-- The abstract reading of the payload: first the trace id is taken out of the metadata. -/
def withoutTraceId (fields : Fields Value) : Fields Value :=
  fields.map fun field =>
    if field.1 = "__transport_meta" then (field.1, withoutMember "trace_id" field.2) else field

def isEmptyObject : Value → Bool
  | .object [] => true
  | _ => false

/-- Then metadata that are an empty object are left out. -/
def withoutEmptyMeta (fields : Fields Value) : Fields Value :=
  fields.filter fun field => ¬(field.1 = "__transport_meta" ∧ isEmptyObject field.2 = true)

/-- What identifies the payload of a notification. -/
def identity (n : Notification) : Value := .object (withoutEmptyMeta (withoutTraceId n.payload.fields))

section Metadata

variable {fields : Fields Value} {key : String} {value : Value}

theorem set_eq_map (hnames : (fields.map Prod.fst).Nodup) (hkey : fields.get key ≠ none) :
    fields.set key value = fields.map fun field => if field.1 = key then (key, value) else field := by
  induction fields with
  | nil => exact absurd rfl hkey
  | cons field fields ih =>
    rw [List.map_cons, List.nodup_cons] at hnames
    rw [Fields.set, List.map_cons]
    by_cases hfirst : field.1 = key
    · have hothers : fields.map (fun field => if field.1 = key then (key, value) else field) =
          fields := by
        refine (List.map_congr_left fun other hother => ?_).trans (List.map_id fields)
        have hother : other.1 ≠ key := by
          intro heq
          have hused : other.1 ∈ fields.map Prod.fst := List.mem_map_of_mem (f := Prod.fst) hother
          exact hnames.1 (hfirst ▸ heq ▸ hused)
        exact if_neg hother
      rw [if_pos hfirst, if_pos hfirst, hothers, hfirst]
    · rw [Fields.get, if_neg hfirst] at hkey
      rw [if_neg hfirst, if_neg hfirst, ih hnames.2 hkey]

theorem withoutTraceId_eq_self (h : ∀ field ∈ fields, field.1 = "__transport_meta" →
    withoutMember "trace_id" field.2 = field.2) : withoutTraceId fields = fields := by
  refine (List.map_congr_left fun field hfield => ?_).trans (List.map_id fields)
  by_cases hkey : field.1 = "__transport_meta"
  · rw [if_pos hkey, h field hfield hkey]
    rfl
  · rw [if_neg hkey]
    rfl

theorem withoutEmptyMeta_eq_self (h : ∀ field ∈ fields, field.1 = "__transport_meta" →
    isEmptyObject field.2 = false) : withoutEmptyMeta fields = fields := by
  refine List.filter_eq_self.mpr fun field hfield => decide_eq_true ?_
  rintro ⟨hkey, hempty⟩
  rw [h field hfield hkey] at hempty
  exact absurd hempty Bool.false_ne_true

theorem withoutEmptyMeta_replaced :
    withoutEmptyMeta (fields.map fun field =>
      if field.1 = "__transport_meta" then ("__transport_meta", .object []) else field) =
      pop fields "__transport_meta" := by
  unfold withoutEmptyMeta pop
  induction fields with
  | nil => rfl
  | cons field fields ih =>
    rw [List.map_cons, List.filter_cons, List.filter_cons, ih]
    by_cases hkey : field.1 = "__transport_meta"
    · simp [hkey, isEmptyObject]
    · simp [hkey]

theorem dedupeSafePayload_eq (hnames : (fields.map Prod.fst).Nodup) :
    dedupeSafePayload fields = withoutEmptyMeta (withoutTraceId fields) := by
  have hvalue {v : Value} (hget : fields.get "__transport_meta" = some v) :
      ∀ field ∈ fields, field.1 = "__transport_meta" → field.2 = v := by
    intro field hfield hkey
    have hread : fields.get field.1 = some field.2 := (Fields.get_eq_some_iff hnames).mpr hfield
    rw [hkey, hget] at hread
    exact (Option.some.inj hread).symm
  -- Metadata that are no object are left alone on both sides.
  have hkept (hmeta : ∀ field ∈ fields, field.1 = "__transport_meta" →
      withoutMember "trace_id" field.2 = field.2 ∧ isEmptyObject field.2 = false) :
      withoutEmptyMeta (withoutTraceId fields) = fields := by
    rw [withoutTraceId_eq_self fun field hfield hkey => (hmeta field hfield hkey).1,
      withoutEmptyMeta_eq_self fun field hfield hkey => (hmeta field hfield hkey).2]
  unfold dedupeSafePayload
  cases hget : fields.get "__transport_meta" with
  | none =>
    refine (hkept fun field hfield hkey => ?_).symm
    have hused : field.1 ∈ fields.map Prod.fst := List.mem_map_of_mem (f := Prod.fst) hfield
    exact absurd (hkey ▸ hused) (Fields.get_eq_none_iff.mp hget)
  | some v =>
    cases v with
    | scalar a =>
      refine (hkept fun field hfield hkey => ?_).symm
      rw [hvalue hget field hfield hkey]
      exact ⟨rfl, rfl⟩
    | string s =>
      refine (hkept fun field hfield hkey => ?_).symm
      rw [hvalue hget field hfield hkey]
      exact ⟨rfl, rfl⟩
    | array items =>
      refine (hkept fun field hfield hkey => ?_).symm
      rw [hvalue hget field hfield hkey]
      exact ⟨rfl, rfl⟩
    | object members =>
      have hpresent : fields.get "__transport_meta" ≠ none := hget ▸ Option.some_ne_none _
      have htrace : withoutTraceId fields =
          fields.set "__transport_meta" (.object (pop members "trace_id")) := by
        rw [set_eq_map hnames hpresent]
        refine List.map_congr_left fun field hfield => ?_
        by_cases hkey : field.1 = "__transport_meta"
        · rw [if_pos hkey, if_pos hkey, hvalue hget field hfield hkey, hkey]
          rfl
        · rw [if_neg hkey, if_neg hkey]
      dsimp only
      by_cases hempty : (pop members "trace_id").isEmpty = true
      · rw [if_pos hempty, htrace, set_eq_map hnames hpresent, List.isEmpty_iff.mp hempty,
          withoutEmptyMeta_replaced]
      · rw [if_neg hempty, htrace, withoutEmptyMeta_eq_self]
        intro field hfield hkey
        rw [set_eq_map hnames hpresent] at hfield
        obtain ⟨old, -, rfl⟩ := List.mem_map.mp hfield
        by_cases hold : old.1 = "__transport_meta"
        · rw [if_pos hold]
          cases hmembers : pop members "trace_id" with
          | nil => exact absurd (by rw [hmembers]; rfl) hempty
          | cons member rest => rfl
        · rw [if_neg hold] at hkey
          exact absurd hkey hold

theorem wellFormed_identity (n : Notification) : (identity n).WellFormed := by
  cases n.payload.wellFormed with
  | object hnames hmembers =>
    have hrenamed : (withoutTraceId n.payload.fields).map Prod.fst =
        n.payload.fields.map Prod.fst := by
      unfold withoutTraceId
      rw [List.map_map]
      refine List.map_congr_left fun field _ => ?_
      rw [Function.comp_apply]
      by_cases hkey : field.1 = "__transport_meta"
      · rw [if_pos hkey]
      · rw [if_neg hkey]
    apply WellFormed.object
    · have hsub : ((withoutEmptyMeta (withoutTraceId n.payload.fields)).map Prod.fst).Sublist
          ((withoutTraceId n.payload.fields).map Prod.fst) := List.filter_sublist.map _
      exact hsub.nodup (hrenamed ▸ hnames)
    · intro field hfield
      obtain ⟨old, hold, rfl⟩ := List.mem_map.mp (List.mem_of_mem_filter hfield)
      have hvalue := hmembers old hold
      by_cases hkey : old.1 = "__transport_meta"
      · rw [if_pos hkey]
        dsimp only
        cases hmeta : old.2 with
        | scalar a => exact WellFormed.scalar a
        | string s => exact WellFormed.string s
        | array items => rwa [hmeta] at hvalue
        | object members =>
          rw [hmeta] at hvalue
          cases hvalue with
          | object hnames hmembers =>
            exact WellFormed.object ((List.filter_sublist.map _).nodup hnames)
              fun member hmember => hmembers member (List.mem_of_mem_filter hmember)
      · rw [if_neg hkey]
        exact hvalue

theorem source_eq (n : Notification) :
    source n = .object [("project_id", .string n.projectId), ("kind", .string n.kind.value),
      ("event_type", .string n.eventType), ("destination", optional n.destination),
      ("payload", identity n), ("seed", optional n.seed)] := by
  cases n.payload.wellFormed with
  | object hnames _ => rw [source, dedupeSafePayload_eq hnames, identity]

theorem wellFormed_optional (value : Option String) : (optional value).WellFormed := by
  cases value with
  | none => exact WellFormed.scalar _
  | some s => exact WellFormed.string s

theorem wellFormed_source (n : Notification) : (source n).WellFormed := by
  rw [source_eq]
  apply WellFormed.object
  · have hnames : ["project_id", "kind", "event_type", "destination", "payload", "seed"].Nodup := by
      decide
    exact hnames
  · simp only [List.mem_cons, List.not_mem_nil, or_false, forall_eq_or_imp, forall_eq]
    exact ⟨.string _, .string _, .string _, wellFormed_optional _, wellFormed_identity n,
      wellFormed_optional _⟩

theorem same_string_iff {s t : String} : Same (.string s : Value) (.string t) ↔ s = t := by
  constructor
  · intro h
    cases h
    rfl
  · intro h
    rw [h]
    exact Same.string t

theorem same_optional_iff {value value' : Option String} :
    Same (optional value) (optional value') ↔ value = value' := by
  constructor
  · intro h
    cases value with
    | none =>
      cases value' with
      | none => rfl
      | some s' => cases h
    | some s =>
      cases value' with
      | none => cases h
      | some s' => rw [same_string_iff.mp h]
  · intro h
    rw [h]
    cases value' with
    | none => exact Same.scalar _
    | some s => exact Same.string s

theorem Kind.value_inj {kind kind' : Kind} : kind.value = kind'.value ↔ kind = kind' := by
  cases kind <;> cases kind' <;> decide

def SameNotification (a b : Notification) : Prop :=
  a.projectId = b.projectId ∧ a.kind = b.kind ∧ a.eventType = b.eventType ∧
    a.destination = b.destination ∧ a.seed = b.seed ∧ Same (identity a) (identity b)

theorem same_source_iff {a b : Notification} :
    Same (source a) (source b) ↔ SameNotification a b := by
  rw [source_eq, source_eq]
  constructor
  · intro h
    cases h with
    | object hnames hvalues =>
      have hproject := hvalues "project_id" _ _ rfl rfl
      have hkind := hvalues "kind" _ _ rfl rfl
      have heventType := hvalues "event_type" _ _ rfl rfl
      have hdestination := hvalues "destination" _ _ rfl rfl
      have hpayload := hvalues "payload" _ _ rfl rfl
      have hseed := hvalues "seed" _ _ rfl rfl
      exact ⟨same_string_iff.mp hproject, Kind.value_inj.mp (same_string_iff.mp hkind),
        same_string_iff.mp heventType, same_optional_iff.mp hdestination,
        same_optional_iff.mp hseed, hpayload⟩
  · rintro ⟨hproject, hkind, heventType, hdestination, hseed, hpayload⟩
    refine same_object_of_forall₂ (by simp) (List.Perm.refl _) (List.Perm.refl _) ?_
    refine .cons ⟨rfl, same_string_iff.mpr hproject⟩ <|
      .cons ⟨rfl, same_string_iff.mpr (Kind.value_inj.mpr hkind)⟩ <|
      .cons ⟨rfl, same_string_iff.mpr heventType⟩ <|
      .cons ⟨rfl, same_optional_iff.mpr hdestination⟩ <|
      .cons ⟨rfl, hpayload⟩ <| .cons ⟨rfl, same_optional_iff.mpr hseed⟩ .nil

/-- The key of a notification is that of its identity, if no two texts have one digest. -/
theorem buildTransportDedupeKey_eq_iff {sha256 : ByteArray → String}
    (hinjective : Function.Injective sha256) (a b : Notification) :
    buildTransportDedupeKey sha256 a = buildTransportDedupeKey sha256 b ↔
      a.projectId = b.projectId ∧ a.kind = b.kind ∧ a.eventType = b.eventType ∧
        a.destination = b.destination ∧ a.seed = b.seed ∧
        Same (.object (withoutEmptyMeta (withoutTraceId a.payload.fields)))
          (.object (withoutEmptyMeta (withoutTraceId b.payload.fields))) := by
  have htexts : encoded a = encoded b ↔ Same (source a) (source b) := by
    rw [← dumps_eq_iff plain_text (wellFormed_source a) (wellFormed_source b)]
    exact ⟨fun h => String.ofList_injective h, fun h => congrArg String.ofList h⟩
  calc buildTransportDedupeKey sha256 a = buildTransportDedupeKey sha256 b
      ↔ (encoded a).toUTF8 = (encoded b).toUTF8 := hinjective.eq_iff
    _ ↔ encoded a = encoded b := String.toByteArray_inj
    _ ↔ Same (source a) (source b) := htexts
    _ ↔ _ := same_source_iff

end Metadata

/-- A notification of an opened incident, with a trace id or without one. -/
def opened (traceId : Option String) : Notification where
  projectId := "p1"
  kind := .webhook
  eventType := "incident.opened"
  payload :=
    { fields := ("id", .string "i1") ::
        traceId.toList.map fun t => ("__transport_meta", .object [("trace_id", .string t)])
      wellFormed := by
        cases traceId with
        | none => exact .object (by simp) (by simpa using WellFormed.string "i1")
        | some t =>
          refine .object (by simp) ?_
          simp only [Option.toList_some, List.map_cons, List.map_nil, List.mem_cons,
            List.not_mem_nil, or_false, forall_eq_or_imp, forall_eq]
          exact ⟨.string "i1", .object (by simp) (by simpa using WellFormed.string t)⟩ }

example : encoded (opened (some "t1")) =
    "\x7b\"destination\":null,\"event_type\":\"incident.opened\",\"kind\":\"webhook\",\"payload\":" ++
      "\x7b\"id\":\"i1\"\x7d,\"project_id\":\"p1\",\"seed\":null\x7d" := by
  decide +kernel

/-- A function that gives the text of this notification its digest and keeps all others apart. -/
def sampleDigest (bytes : ByteArray) : String :=
  if bytes = (encoded (opened none)).toUTF8 then
    "1404b3085f3a4700595c0145a6f016292c0c310c48a097e5bbc315193d040e9c"
  else "other " ++ String.ofList (bytes.data.toList.map fun b => Char.ofNat b.toNat)

theorem sampleDigest_injective : Function.Injective sampleDigest := by
  have hother (digest rest : String) (h : digest.toList.head? ≠ some 'o') :
      digest ≠ "other " ++ rest := by
    rintro rfl
    exact h (by rw [String.toList_append]; rfl)
  have hbyte : Function.Injective fun b : UInt8 => Char.ofNat b.toNat := by
    intro b c hbc
    have hvalid (d : UInt8) : (Char.ofNat d.toNat).toNat = d.toNat := by
      have hd : d.toNat < 256 := d.toNat_lt
      rw [Char.toNat_ofNat, if_pos (.inl (by omega))]
    have hnat := congrArg Char.toNat hbc
    dsimp only at hnat
    rw [hvalid, hvalid] at hnat
    exact UInt8.toNat_inj.mp hnat
  intro bytes bytes' h
  unfold sampleDigest at h
  by_cases hb : bytes = (encoded (opened none)).toUTF8
  · by_cases hb' : bytes' = (encoded (opened none)).toUTF8
    · rw [hb, hb']
    · rw [if_pos hb, if_neg hb'] at h
      exact absurd h (hother _ _ (by decide))
  · by_cases hb' : bytes' = (encoded (opened none)).toUTF8
    · rw [if_neg hb, if_pos hb'] at h
      exact absurd h.symm (hother _ _ (by decide))
    · rw [if_neg hb, if_neg hb'] at h
      have hlists := String.ofList_injective (String.append_right_inj _ |>.mp h)
      exact ByteArray.ext (Array.toList_inj.mp (List.map_injective_iff.mpr hbyte hlists))

theorem trace_id_does_not_split :
    buildTransportDedupeKey sampleDigest (opened none) =
      "1404b3085f3a4700595c0145a6f016292c0c310c48a097e5bbc315193d040e9c" ∧
    buildTransportDedupeKey sampleDigest (opened (some "t1")) =
      buildTransportDedupeKey sampleDigest (opened none) :=
  ⟨by rw [buildTransportDedupeKey, sampleDigest, if_pos rfl], (buildTransportDedupeKey_eq_iff sampleDigest_injective _ _).mpr
    ⟨rfl, rfl, rfl, rfl, rfl, same_object_of_forall₂ (by decide) (.refl _) (.refl _)
      (.cons ⟨rfl, .string "i1"⟩ .nil)⟩⟩

end Rheonic.TransportDedupe
