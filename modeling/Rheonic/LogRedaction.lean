import Rheonic.Lib.Objects
import Rheonic.Lib.PyText

namespace Rheonic.LogRedaction
open PyText

def sensitiveFieldMarkers : List String :=
  ["api_key", "apikey", "authorization", "cookie", "password", "secret", "token"]

def reservedExtraFields : List String :=
  ["args", "created", "exc_info", "exc_text", "filename", "funcName", "levelname", "levelno",
    "lineno", "module", "msecs", "message", "msg", "name", "pathname", "process", "processName",
    "relativeCreated", "stack_info", "thread", "threadName"]

/-- The fields of a record that are logged elsewhere than in its metadata. -/
def ownFields : List String := ["event", "metadata", "trace_id", "span_id", "service", "env"]

/-- A value that is logged: a text, another scalar, a datetime, a container or any other object.
Keys of dictionaries are of any type. -/
inductive Value (σ δ ω κ : Type)
  | str (s : String)
  | scalar (v : σ)
  | datetime (t : δ)
  | other (v : ω)
  | list (items : List (Value σ δ ω κ))
  | tuple (items : List (Value σ δ ω κ))
  | set (items : List (Value σ δ ω κ))
  | dict (entries : List (κ × Value σ δ ω κ))

/-- What is written in place of a value. -/
inductive SafeValue (σ : Type)
  | str (s : String)
  | scalar (v : σ)
  | list (items : List (SafeValue σ))
  | dict (entries : List (String × SafeValue σ))

/-- What Python gives for case, for texts of values and for the order of the elements of a set, which
there is none of where they do not compare. -/
structure Conversions (σ δ ω κ : Type) where
  lower : String → String
  isoformat : δ → String
  str : ω → String
  keyStr : κ → String
  sorted : List (SafeValue σ) → Option (List (SafeValue σ))

variable {σ δ ω κ : Type} (c : Conversions σ δ ω κ)

def isSensitiveKey (key : String) : Bool :=
  let lowered := c.lower (strip key)
  sensitiveFieldMarkers.any fun marker => marker.toList <:+: lowered.toList

/-- The first two lines of `_sanitize_value`: a value under a sensitive key is not looked at. -/
def underKey (key : Option String) (content : Option (SafeValue σ)) : Option (SafeValue σ) :=
  if key.any (isSensitiveKey c) then some (.str "[REDACTED]") else content

mutual

/-- `_sanitize_value`, where nothing is returned if the elements of a set do not compare. -/
def sanitizeValue (key : Option String) : Value σ δ ω κ → Option (SafeValue σ)
  | .dict entries => underKey c key ((sanitizeEntries entries []).map .dict)
  | .list items => underKey c key ((sanitizeItems items).map .list)
  | .tuple items => underKey c key ((sanitizeItems items).map .list)
  | .set items => underKey c key (((sanitizeItems items).bind c.sorted).map .list)
  | .datetime t => underKey c key (some (.str (c.isoformat t)))
  | .str s => underKey c key (some (.str s))
  | .scalar v => underKey c key (some (.scalar v))
  | .other v => underKey c key (some (.str (c.str v)))

/-- The items of a container have no key. -/
def sanitizeItems : List (Value σ δ ω κ) → Option (List (SafeValue σ))
  | [] => some []
  | item :: items =>
    match sanitizeValue none item with
    | none => none
    | some safe => (sanitizeItems items).map (safe :: ·)

/-- The dictionary grows entry by entry; keys of one text are one key. -/
def sanitizeEntries : List (κ × Value σ δ ω κ) → Fields (SafeValue σ) →
    Option (Fields (SafeValue σ))
  | [], safe => some safe
  | (key, v) :: entries, safe =>
    match sanitizeValue (some (c.keyStr key)) v with
    | none => none
    | some value => sanitizeEntries entries (safe.set (c.keyStr key) value)

end

/-- The loop of `_build_metadata` over the fields of a record. -/
def addFields : Fields (Value σ δ ω κ) → Fields (SafeValue σ) → Option (Fields (SafeValue σ))
  | [], metadata => some metadata
  | (key, v) :: fields, metadata =>
    if key ∈ reservedExtraFields ∨ key ∈ ownFields then addFields fields metadata
    else match sanitizeValue c (some key) v with
      | none => none
      | some safe => addFields fields (metadata.set key safe)

/-- `_build_metadata`: the metadata of a record if they are a dictionary, then its other fields. -/
def buildMetadata (record : Fields (Value σ δ ω κ)) : Option (Fields (SafeValue σ)) :=
  match record.get "metadata" with
  | some (.dict entries) => (sanitizeEntries c entries []).bind (addFields c record)
  | _ => addFields c record []

/-- Two values of one shape, with the same keys, that differ under sensitive keys only. -/
inductive SameOutside : Value σ δ ω κ → Value σ δ ω κ → Prop
  | str (s : String) : SameOutside (.str s) (.str s)
  | scalar (v : σ) : SameOutside (.scalar v) (.scalar v)
  | datetime (t : δ) : SameOutside (.datetime t) (.datetime t)
  | other (v : ω) : SameOutside (.other v) (.other v)
  | list {items items' : List (Value σ δ ω κ)} (hlength : items.length = items'.length)
    (hitems : ∀ (i : ℕ) v v', items[i]? = some v → items'[i]? = some v' → SameOutside v v') :
    SameOutside (.list items) (.list items')
  | tuple {items items' : List (Value σ δ ω κ)} (hlength : items.length = items'.length)
    (hitems : ∀ (i : ℕ) v v', items[i]? = some v → items'[i]? = some v' → SameOutside v v') :
    SameOutside (.tuple items) (.tuple items')
  | set {items items' : List (Value σ δ ω κ)} (hlength : items.length = items'.length)
    (hitems : ∀ (i : ℕ) v v', items[i]? = some v → items'[i]? = some v' → SameOutside v v') :
    SameOutside (.set items) (.set items')
  | dict {entries entries' : List (κ × Value σ δ ω κ)}
    (hkeys : entries.map Prod.fst = entries'.map Prod.fst)
    (hvalues : ∀ (i : ℕ) entry entry', entries[i]? = some entry → entries'[i]? = some entry' →
      isSensitiveKey c (c.keyStr entry.1) = false → SameOutside entry.2 entry'.2) :
    SameOutside (.dict entries) (.dict entries')

/-- Two records with the same fields, which differ under sensitive keys only. -/
structure SameRecord (record record' : Fields (Value σ δ ω κ)) : Prop where
  names : record.map Prod.fst = record'.map Prod.fst
  values : ∀ (i : ℕ) field field', record[i]? = some field → record'[i]? = some field' →
    isSensitiveKey c field.1 = false ∨ field.1 = "metadata" → SameOutside c field.2 field'.2

section Sanitize

variable {c} {key : Option String} {name : String} {v w : Value σ δ ω κ}

theorem sanitizeValue_of_sensitive (h : isSensitiveKey c name = true) :
    sanitizeValue c (some name) v = some (.str "[REDACTED]") := by
  have hany : (some name).any (isSensitiveKey c) = true := h
  cases v <;> rw [sanitizeValue, underKey, if_pos hany]

theorem sanitizeItems_congr {items items' : List (Value σ δ ω κ)}
    (hlength : items.length = items'.length)
    (hitems : ∀ (i : ℕ) v v', items[i]? = some v → items'[i]? = some v' →
      ∀ key, sanitizeValue c key v = sanitizeValue c key v') :
    sanitizeItems c items = sanitizeItems c items' := by
  induction items generalizing items' with
  | nil => rw [List.eq_nil_of_length_eq_zero hlength.symm]
  | cons item items ih =>
    cases items' with
    | nil => exact absurd hlength (Nat.succ_ne_zero _)
    | cons item' items' =>
      have hrest : sanitizeItems c items = sanitizeItems c items' := by
        apply ih (Nat.succ.inj hlength)
        intro i v v' hv hv'
        exact hitems (i + 1) v v' hv hv'
      rw [sanitizeItems, sanitizeItems, hitems 0 item item' rfl rfl none, hrest]

theorem sanitizeEntries_congr {entries entries' : List (κ × Value σ δ ω κ)}
    {safe : Fields (SafeValue σ)} (hkeys : entries.map Prod.fst = entries'.map Prod.fst)
    (hvalues : ∀ (i : ℕ) entry entry', entries[i]? = some entry → entries'[i]? = some entry' →
      isSensitiveKey c (c.keyStr entry.1) = false →
        ∀ key, sanitizeValue c key entry.2 = sanitizeValue c key entry'.2) :
    sanitizeEntries c entries safe = sanitizeEntries c entries' safe := by
  induction entries generalizing entries' safe with
  | nil => rw [List.map_eq_nil_iff.mp hkeys.symm]
  | cons entry entries ih =>
    cases entries' with
    | nil => exact absurd hkeys (List.cons_ne_nil _ _)
    | cons entry' entries' =>
      obtain ⟨key, v⟩ := entry
      obtain ⟨key', v'⟩ := entry'
      obtain ⟨hkey, hrestKeys⟩ := List.cons.inj hkeys
      have hkey : key = key' := hkey
      subst hkey
      have hrest (safe) : sanitizeEntries c entries safe = sanitizeEntries c entries' safe := by
        apply ih hrestKeys
        intro i e e' he he'
        exact hvalues (i + 1) e e' he he'
      have hvalue : sanitizeValue c (some (c.keyStr key)) v =
          sanitizeValue c (some (c.keyStr key)) v' := by
        by_cases hsensitive : isSensitiveKey c (c.keyStr key) = true
        · rw [sanitizeValue_of_sensitive hsensitive, sanitizeValue_of_sensitive hsensitive]
        · exact hvalues 0 _ _ rfl rfl (Bool.not_eq_true _ ▸ hsensitive) _
      rw [sanitizeEntries, sanitizeEntries, hvalue]
      simp only [hrest]

theorem sanitizeValue_eq (h : SameOutside c v w) (key : Option String) :
    sanitizeValue c key v = sanitizeValue c key w := by
  induction h generalizing key with
  | str s => rfl
  | scalar v => rfl
  | datetime t => rfl
  | other v => rfl
  | list hlength _ ih =>
    rw [sanitizeValue, sanitizeValue, sanitizeItems_congr hlength ih]
  | tuple hlength _ ih =>
    rw [sanitizeValue, sanitizeValue, sanitizeItems_congr hlength ih]
  | set hlength _ ih =>
    rw [sanitizeValue, sanitizeValue, sanitizeItems_congr hlength ih]
  | dict hkeys _ ih =>
    rw [sanitizeValue, sanitizeValue, sanitizeEntries_congr hkeys ih]

end Sanitize

section Record

variable {c} {record record' : Fields (Value σ δ ω κ)} {metadata : Fields (SafeValue σ)}
  {name : String}

theorem get_sameOutside (hnames : record.map Prod.fst = record'.map Prod.fst)
    (hvalues : ∀ (i : ℕ) field field', record[i]? = some field → record'[i]? = some field' →
      field.1 = name → SameOutside c field.2 field'.2) :
    (record.get name = none ∧ record'.get name = none) ∨
      ∃ v w, record.get name = some v ∧ record'.get name = some w ∧ SameOutside c v w := by
  induction record generalizing record' with
  | nil =>
    rw [List.map_eq_nil_iff.mp hnames.symm]
    exact .inl ⟨rfl, rfl⟩
  | cons field record ih =>
    cases record' with
    | nil => exact absurd hnames (List.cons_ne_nil _ _)
    | cons field' record' =>
      obtain ⟨hname, hnames⟩ := List.cons.inj hnames
      by_cases hfield : field.1 = name
      · have hfield' : field'.1 = name := hname.symm.trans hfield
        exact .inr ⟨field.2, field'.2, if_pos hfield, if_pos hfield',
          hvalues 0 field field' rfl rfl hfield⟩
      · have hfield' : field'.1 ≠ name := hname ▸ hfield
        have hget : Fields.get (field :: record) name = Fields.get record name := if_neg hfield
        have hget' : Fields.get (field' :: record') name = Fields.get record' name := if_neg hfield'
        rw [hget, hget']
        exact ih hnames fun i v v' hv hv' => hvalues (i + 1) v v' hv hv'

theorem addFields_congr (h : SameRecord c record record') :
    addFields c record metadata = addFields c record' metadata := by
  obtain ⟨hnames, hvalues⟩ := h
  induction record generalizing record' metadata with
  | nil => rw [List.map_eq_nil_iff.mp hnames.symm]
  | cons field record ih =>
    cases record' with
    | nil => exact absurd hnames (List.cons_ne_nil _ _)
    | cons field' record' =>
      obtain ⟨key, v⟩ := field
      obtain ⟨key', v'⟩ := field'
      obtain ⟨hkey, hrestNames⟩ := List.cons.inj hnames
      have hkey : key = key' := hkey
      subst hkey
      have hrest (metadata) : addFields c record metadata = addFields c record' metadata := by
        apply ih hrestNames
        intro i field field' hfield hfield'
        exact hvalues (i + 1) field field' hfield hfield'
      have hvalue : sanitizeValue c (some key) v = sanitizeValue c (some key) v' := by
        by_cases hsensitive : isSensitiveKey c key = true
        · rw [sanitizeValue_of_sensitive hsensitive, sanitizeValue_of_sensitive hsensitive]
        · exact sanitizeValue_eq (hvalues 0 _ _ rfl rfl (.inl (Bool.not_eq_true _ ▸ hsensitive))) _
      rw [addFields, addFields, hvalue]
      simp only [hrest]

theorem buildMetadata_congr (h : SameRecord c record record') :
    buildMetadata c record = buildMetadata c record' := by
  have hadd : addFields c record = addFields c record' := funext fun _ => addFields_congr h
  unfold buildMetadata
  rw [hadd]
  rcases get_sameOutside h.names fun i field field' hfield hfield' hname =>
    h.values i field field' hfield hfield' (.inr hname) with ⟨hget, hget'⟩ | ⟨v, w, hget, hget', hvw⟩
  · rw [hget, hget']
  · rw [hget, hget']
    cases hvw with
    | dict hkeys hvalues =>
      have hentries : sanitizeEntries c _ [] = sanitizeEntries c _ [] := sanitizeEntries_congr hkeys
        fun i entry entry' he he' hname => sanitizeValue_eq (hvalues i entry entry' he he' hname)
      dsimp only
      rw [hentries]
    | _ => rfl

end Record

/-- What differs under sensitive keys only is logged alike: a value under any key, and the metadata
of a record. -/
theorem redaction_noninterference (c : Conversions σ δ ω κ) :
    (∀ v w, SameOutside c v w → ∀ key, sanitizeValue c key v = sanitizeValue c key w) ∧
      ∀ record record', SameRecord c record record' →
        buildMetadata c record = buildMetadata c record' :=
  ⟨fun _ _ h key => sanitizeValue_eq h key, fun _ _ h => buildMetadata_congr h⟩

/-- Conversions for dictionaries with textual keys, without other objects or datetimes. -/
def plain : Conversions ℤ Empty Empty String where
  lower s := String.ofList (s.toList.map Char.toLower)
  isoformat := Empty.elim
  str := Empty.elim
  keyStr := id
  sorted items := some items

/-- A request whose login holds a password, in a list. -/
def sampleRequest (passwords : List (Value ℤ Empty Empty String)) : Value ℤ Empty Empty String :=
  .list [.dict [("Password", .list passwords), ("port", .scalar 443)]]

theorem redaction_noninterference_sample :
    SameOutside plain (sampleRequest [.str "hunter2"]) (sampleRequest []) ∧
      sanitizeValue plain none (sampleRequest [.str "hunter2"]) =
        sanitizeValue plain none (sampleRequest []) := by
  have hsensitive : isSensitiveKey plain "Password" = true := by decide +kernel
  have hdict : SameOutside plain
      (.dict [("Password", .list [.str "hunter2"]), ("port", .scalar 443)])
      (.dict [("Password", .list []), ("port", .scalar 443)]) := by
    refine .dict rfl fun i entry entry' he he' hname => ?_
    match i with
    | 0 =>
      rw [← Option.some.inj he] at hname
      exact absurd (hsensitive.symm.trans hname) (by decide)
    | 1 =>
      rw [← Option.some.inj he, ← Option.some.inj he']
      exact .scalar 443
    | i + 2 => exact absurd he (Option.some_ne_none entry).symm
  have hsame : SameOutside plain (sampleRequest [.str "hunter2"]) (sampleRequest []) := by
    refine .list rfl fun i v v' hv hv' => ?_
    match i with
    | 0 =>
      rw [← Option.some.inj hv, ← Option.some.inj hv']
      exact hdict
    | i + 1 => exact absurd hv (Option.some_ne_none v).symm
  exact ⟨hsame, (redaction_noninterference plain).1 _ _ hsame none⟩

end Rheonic.LogRedaction
