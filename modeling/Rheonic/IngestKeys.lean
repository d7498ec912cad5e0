import Rheonic.UserApi
import Rheonic.Lib.Trim

namespace Rheonic.IngestKeys
open RowTable PyText UserApi Trim

def envPrefix : String := "RHEONIC_INGEST_KEY="

/-- `strip().strip('"').strip("'")`. -/
def unquoted (value : String) : String := stripOf '\'' (stripOf '"' (strip value))

/-- `value.split("=", 1)[1]`. -/
def afterEquals (value : String) : String :=
  String.ofList ((value.toList.dropWhile (· ≠ '=')).drop 1)

def normalizeIngestKey (plaintext : String) : String :=
  let value := unquoted plaintext
  strip (if envPrefix.toList <+: value.toList then unquoted (afterEquals value) else value)

/-- The stored keys and the projects that they belong to. -/
structure Stored where
  ingestKeys : Table String IngestKeyRecord
  projects : Table String ProjectRecord

section Resolve

variable (hashKey : String → String) (d : Stored)

def getActiveByHash (keyHash : String) : Option IngestKeyRecord :=
  (d.ingestKeys.rows.find? fun e => e.2.keyHash = keyHash ∧ e.2.status = .active).map Prod.snd

/-- The project of an active key, with its id; a project without a user has none. -/
def resolveProject (plaintextKey : String) : Option (String × ProjectRecord) :=
  (getActiveByHash d (hashKey plaintextKey)).bind fun key =>
    (d.projects.get key.projectId).bind fun project =>
      project.userId.map fun _ => (key.projectId, project)

def resolveProjectId (plaintextKey : String) : Option String :=
  (resolveProject hashKey d plaintextKey).map Prod.fst

end Resolve

def missingIngestKey : Exn := .http 401 "missing ingest key"

def invalidIngestKey : Exn := .http 401 "invalid ingest key"

/-- The calls that carry an ingest key. -/
inductive Endpoint
  | ingestEvent
  | protectDecision
  | protectDecisionTimeout
  | protectDecisionUnavailable
  | getProtectRuntimeConfig
  deriving DecidableEq, Repr

section Endpoints

variable (hashKey : String → String) (d : Stored)

/-- The key of an event is brought to its normal form first. -/
def ingestEventProject (ingestKey : String) : Except Exn String :=
  let normalizedIngestKey := normalizeIngestKey ingestKey
  if normalizedIngestKey = "" then .error missingIngestKey
  else match resolveProjectId hashKey d normalizedIngestKey with
    | none => .error invalidIngestKey
    | some projectId => .ok projectId

/-- The protect endpoints take the key as it is sent. -/
def protectProject (ingestKey : String) : Except Exn String :=
  if ingestKey = "" then .error missingIngestKey
  else match resolveProject hashKey d ingestKey with
    | none => .error invalidIngestKey
    | some project => .ok project.1

/-- The project that an endpoint finds for the key it is sent. -/
def Endpoint.project : Endpoint → String → Except Exn String
  | ingestEvent => ingestEventProject hashKey d
  | protectDecision => protectProject hashKey d
  | protectDecisionTimeout => protectProject hashKey d
  | protectDecisionUnavailable => protectProject hashKey d
  | getProtectRuntimeConfig => protectProject hashKey d

/-- All endpoints find the same project, or all reject the key. -/
def ReadAlike (ingestKey : String) : Prop :=
  ∀ e e' : Endpoint, (e.project hashKey d ingestKey).toOption = (e'.project hashKey d ingestKey).toOption

end Endpoints

/-- The characters that may not stand at an end of a key. -/
def isPeeled (c : Char) : Bool := isSpace c || c = '"' || c = '\''

/-- No end of the key is whitespace or a quote, and the key does not start like a line of an
environment file. -/
structure Bare (s : String) : Prop where
  first : ∀ c ∈ s.toList.head?, isPeeled c = false
  last : ∀ c ∈ s.toList.getLast?, isPeeled c = false
  plain : ¬envPrefix.toList <+: s.toList

section Normalize

theorem strip_toList (s : String) : (strip s).toList = trim isSpace s.toList :=
  String.toList_ofList ..

theorem stripOf_toList (c : Char) (s : String) :
    (stripOf c s).toList = trim (fun c' => c' = c) s.toList :=
  String.toList_ofList ..

theorem length_unquoted_le (s : String) : (unquoted s).toList.length ≤ s.toList.length := by
  unfold unquoted
  rw [stripOf_toList, stripOf_toList, strip_toList]
  exact length_trim_le.trans (length_trim_le.trans length_trim_le)

theorem length_afterEquals_lt {s : String} (h : envPrefix.toList <+: s.toList) :
    (afterEquals s).toList.length < s.toList.length := by
  have hpos : 0 < s.toList.length := by
    have hbegins : envPrefix.toList.length ≤ s.toList.length := h.length_le
    have henv : 0 < envPrefix.toList.length := by decide
    omega
  have hdrop : (s.toList.dropWhile (· ≠ '=')).length ≤ s.toList.length :=
    (List.dropWhile_suffix _).length_le
  rw [afterEquals, String.toList_ofList, List.length_drop]
  omega

theorem trims_of_length {s : String} (h : s.toList.length ≤ (unquoted s).toList.length) :
    trim isSpace s.toList = s.toList ∧ trim (fun c => c = '"') s.toList = s.toList ∧
      trim (fun c => c = '\'') s.toList = s.toList := by
  unfold unquoted at h
  rw [stripOf_toList, stripOf_toList, strip_toList] at h
  have hspace : trim isSpace s.toList = s.toList :=
    trim_eq_of_length (h.trans (length_trim_le.trans length_trim_le))
  rw [hspace] at h
  have hdouble : trim (fun c => decide (c = '"')) s.toList = s.toList :=
    trim_eq_of_length (h.trans length_trim_le)
  rw [hdouble] at h
  exact ⟨hspace, hdouble, trim_eq_of_length h⟩

theorem unquoted_of_trims {s : String} (h : trim isSpace s.toList = s.toList ∧
    trim (fun c => c = '"') s.toList = s.toList ∧ trim (fun c => c = '\'') s.toList = s.toList) :
    unquoted s = s := by
  apply String.toList_injective
  unfold unquoted
  rw [stripOf_toList, stripOf_toList, strip_toList, h.1, h.2.1, h.2.2]

theorem trims_iff (s : String) : (trim isSpace s.toList = s.toList ∧
    trim (fun c => c = '"') s.toList = s.toList ∧ trim (fun c => c = '\'') s.toList = s.toList) ↔
      (∀ c ∈ s.toList.head?, isPeeled c = false) ∧ ∀ c ∈ s.toList.getLast?, isPeeled c = false := by
  rw [trim_eq_self, trim_eq_self, trim_eq_self]
  have hpeeled : ∀ c, isPeeled c = false ↔
      isSpace c = false ∧ decide (c = '"') = false ∧ decide (c = '\'') = false := by
    intro c
    unfold isPeeled
    rw [Bool.or_eq_false_iff, Bool.or_eq_false_iff, and_assoc]
  constructor
  · intro h
    exact ⟨fun c hc => (hpeeled c).mpr ⟨h.1.1 c hc, h.2.1.1 c hc, h.2.2.1 c hc⟩,
      fun c hc => (hpeeled c).mpr ⟨h.1.2 c hc, h.2.1.2 c hc, h.2.2.2 c hc⟩⟩
  · intro h
    have hfirst := fun c hc => (hpeeled c).mp (h.1 c hc)
    have hlast := fun c hc => (hpeeled c).mp (h.2 c hc)
    exact ⟨⟨fun c hc => (hfirst c hc).1, fun c hc => (hlast c hc).1⟩,
      ⟨fun c hc => (hfirst c hc).2.1, fun c hc => (hlast c hc).2.1⟩,
      fun c hc => (hfirst c hc).2.2, fun c hc => (hlast c hc).2.2⟩

theorem normalize_eq_self_iff (s : String) : normalizeIngestKey s = s ↔ Bare s := by
  constructor
  · intro h
    have hlength : s.toList.length = (normalizeIngestKey s).toList.length := by rw [h]
    unfold normalizeIngestKey at hlength
    dsimp only at hlength
    by_cases hbegins : envPrefix.toList <+: (unquoted s).toList
    · -- what follows the prefix is shorter than the key
      rw [if_pos hbegins, strip_toList] at hlength
      have hrest := length_afterEquals_lt hbegins
      have hunquoted := length_unquoted_le (afterEquals (unquoted s))
      have hwhole := length_unquoted_le s
      have htrim : (trim isSpace (unquoted (afterEquals (unquoted s))).toList).length ≤
          (unquoted (afterEquals (unquoted s))).toList.length := length_trim_le
      omega
    · rw [if_neg hbegins, strip_toList] at hlength
      have htrims := trims_of_length (hlength.le.trans length_trim_le)
      have hends := (trims_iff s).mp htrims
      rw [unquoted_of_trims htrims] at hbegins
      exact ⟨hends.1, hends.2, hbegins⟩
  · intro h
    have htrims := (trims_iff s).mpr ⟨h.first, h.last⟩
    have hplain : ¬envPrefix.toList <+: (unquoted s).toList := by
      rw [unquoted_of_trims htrims]
      exact h.plain
    apply String.toList_injective
    unfold normalizeIngestKey
    dsimp only
    rw [if_neg hplain, strip_toList, unquoted_of_trims htrims, htrims.1]

end Normalize

section ReadAlike

variable {hashKey : String → String} {d : Stored} {s : String}

theorem ingestEvent_toOption : (ingestEventProject hashKey d s).toOption =
    if normalizeIngestKey s = "" then none else resolveProjectId hashKey d (normalizeIngestKey s) := by
  unfold ingestEventProject
  dsimp only
  split
  · rfl
  · cases resolveProjectId hashKey d (normalizeIngestKey s) <;> rfl

theorem protect_toOption : (protectProject hashKey d s).toOption =
    if s = "" then none else resolveProjectId hashKey d s := by
  unfold protectProject resolveProjectId
  split
  · rfl
  · cases resolveProject hashKey d s <;> rfl

theorem readAlike_iff : ReadAlike hashKey d s ↔
    (ingestEventProject hashKey d s).toOption = (protectProject hashKey d s).toOption := by
  constructor
  · intro h
    exact h .ingestEvent .protectDecision
  · intro h e e'
    cases e <;> cases e' <;> simp only [Endpoint.project, h]

theorem readAlike_of_bare (h : Bare s) : ReadAlike hashKey d s := by
  rw [readAlike_iff, ingestEvent_toOption, protect_toOption, (normalize_eq_self_iff s).mpr h]

/-- One active key, stored by its hash. -/
def storedWith (keyHash : String) : Stored where
  ingestKeys := ⟨[("k", ⟨"p", "key", keyHash, none, .active, 0, none⟩)], List.nodup_singleton _⟩
  projects := ⟨[("p", { name := "shop", userId := some "u", createdAt := 0 })],
    List.nodup_singleton _⟩

theorem resolve_storedWith (plaintextKey keyHash : String) :
    resolveProjectId hashKey (storedWith keyHash) plaintextKey =
      if keyHash = hashKey plaintextKey then some "p" else none := by
  unfold resolveProjectId resolveProject getActiveByHash storedWith
  by_cases h : keyHash = hashKey plaintextKey
  · rw [if_pos h]
    simp [h, Table.get]
  · rw [if_neg h]
    simp [h]

theorem exists_not_readAlike (h : normalizeIngestKey s ≠ s)
    (hhash : hashKey (normalizeIngestKey s) ≠ hashKey s) : ∃ d, ¬ReadAlike hashKey d s := by
  by_cases hblank : normalizeIngestKey s = ""
  · -- nothing is left of the key, and a key may be stored as it is sent
    have hsent : s ≠ "" := fun hs => h (hblank.trans hs.symm)
    refine ⟨storedWith (hashKey s), fun halike => ?_⟩
    rw [readAlike_iff, ingestEvent_toOption, protect_toOption, if_pos hblank, if_neg hsent,
      resolve_storedWith, if_pos rfl] at halike
    exact absurd halike (by simp)
  · refine ⟨storedWith (hashKey (normalizeIngestKey s)), fun halike => ?_⟩
    rw [readAlike_iff, ingestEvent_toOption, protect_toOption, if_neg hblank, resolve_storedWith,
      resolve_storedWith, if_pos rfl, if_neg hhash, ite_self] at halike
    exact absurd halike (by simp)

/-- The endpoints read a key alike for every set of stored keys, and normalization has nothing
more to do on its own result, exactly for the bare keys. -/
theorem ingest_key_read_alike_iff
    (hhash : hashKey (normalizeIngestKey s) = hashKey s → normalizeIngestKey s = s) :
    (∀ d, ReadAlike hashKey d s) ∧
        normalizeIngestKey (normalizeIngestKey s) = normalizeIngestKey s ↔ Bare s := by
  rw [← normalize_eq_self_iff]
  constructor
  · intro h
    by_contra hne
    obtain ⟨d, hd⟩ := exists_not_readAlike hne fun heq => hne (hhash heq)
    exact hd (h.1 d)
  · intro h
    refine ⟨fun d => readAlike_of_bare ((normalize_eq_self_iff s).mp h), ?_⟩
    rw [h, h]

theorem generated_key_read_alike :
    ((∀ d, ReadAlike (fun key => key) d "kQ3-x_9") ∧
        normalizeIngestKey (normalizeIngestKey "kQ3-x_9") = normalizeIngestKey "kQ3-x_9") ↔
      Bare "kQ3-x_9" :=
  ingest_key_read_alike_iff fun h => h

/-- A copied key in quotes is accepted with an event and refused everywhere else, and a second
normalization peels what the first one has left. -/
theorem quoted_key_read_apart :
    ¬ReadAlike (fun key => key) (storedWith "key") "\"key\"" ∧
      normalizeIngestKey (normalizeIngestKey "'\"key\"'") ≠ normalizeIngestKey "'\"key\"'" := by
  constructor
  · rw [readAlike_iff]
    decide +kernel
  · decide +kernel

end ReadAlike

end Rheonic.IngestKeys
