import Rheonic.Keys

namespace Rheonic.KeyFamilies
open Keys PyText

def incidentOpenLockKey (projectId incidentType : String) : String :=
  "inc:" ++ projectId ++ ":" ++ incidentType ++ ":open"

/-- The id that a caller hands to a Redis store: the project's own, or its composite id with a
provider as the client sent it. -/
inductive StoreId
  | ofProject
  | ofProvider (provider : Option String)

def StoreId.text (projectId : String) : StoreId → String
  | ofProject => projectId
  | ofProvider provider => scopedProjectProviderId projectId provider

/-- The families of keys that the stores build for an id. -/
inductive StoreFamily
  | requests60s
  | tokens60s
  | incidentOpenLock (incidentType : String)
  | allow
  | clamp
  | block
  | timeout
  | last
  | latency
  | timeoutEvents
  | outcome (requestId : String)
  | report (reportType marker : String)
  | cooldown
  | cooldownOwner

def StoreFamily.key (id : String) : StoreFamily → String
  | requests60s => requests60sKey id
  | tokens60s => tokens60sKey id
  | incidentOpenLock incidentType => incidentOpenLockKey id incidentType
  | allow => allowKey id
  | clamp => clampKey id
  | block => blockKey id
  | timeout => timeoutKey id
  | last => lastKey id
  | latency => latencyKey id
  | timeoutEvents => timeoutEventsKey id
  | outcome requestId => outcomeKey id requestId
  | report reportType marker => reportKey id reportType marker
  | cooldown => cooldownKey id
  | cooldownOwner => cooldownOwnerKey id

/-- A key that the backend builds for a project. -/
inductive ProjectKey
  | store (id : StoreId) (family : StoreFamily)
  | ingestIdempotency (idempotencyKey : String)

/-- The text of a key; `hashKey` is the digest taken of the client's idempotency key. -/
def ProjectKey.key (hashKey : String → String) (projectId : String) : ProjectKey → String
  | store id family => family.key (id.text projectId)
  | ingestIdempotency idempotencyKey => Keys.idempotencyKey projectId (hashKey idempotencyKey)

/-- The field that names the project: the second, and the third in a cooldown's key. -/
def projectField : List (List Char) → Option (List Char)
  | tag :: field :: rest => if tag = ['p', 'r', 'o', 't', 'e', 'c', 't'] then rest.head? else some field
  | _ => none

def projectOf (key : String) : Option (List Char) := projectField (split ':' key.toList)

/-- What stands before the id in a key, up to the separator. -/
def StoreFamily.tag : StoreFamily → String
  | requests60s | tokens60s => "rt"
  | incidentOpenLock _ => "inc"
  | cooldown => "protect:cooldown"
  | cooldownOwner => "protect:cooldown-owner"
  | _ => "pa"

/-- What follows the id in a key. -/
def StoreFamily.suffix : StoreFamily → String
  | requests60s => ":req:z"
  | tokens60s => ":tok:z"
  | incidentOpenLock incidentType => ":" ++ incidentType ++ ":open"
  | allow => ":allow:60m"
  | clamp => ":clamp:60m"
  | block => ":block:60m"
  | timeout => ":timeout:60m"
  | last => ":last"
  | latency => ":latency:60m"
  | timeoutEvents => ":timeout-events:60m"
  | outcome requestId => ":outcome:" ++ requestId
  | report reportType marker => ":report:" ++ reportType ++ ":" ++ marker
  | cooldown | cooldownOwner => ""

theorem StoreFamily.key_eq (id : String) (family : StoreFamily) :
    family.key id = family.tag ++ ":" ++ id ++ family.suffix := by
  cases family with
  | cooldown => rw [suffix, String.append_empty]; rfl
  | cooldownOwner =>
    have htag : "protect:cooldown-owner:" = "protect:cooldown-owner" ++ ":" := by decide
    rw [suffix, String.append_empty, tag, ← htag]
    rfl
  | _ =>
    apply String.toList_injective
    simp [key, tag, suffix, requests60sKey, tokens60sKey, incidentOpenLockKey, allowKey, clampKey,
      blockKey, timeoutKey, lastKey, latencyKey, timeoutEventsKey, outcomeKey, reportKey]

/-- `rest` begins where a field ends: it is empty or goes on with a separator. -/
def EndsField (rest : List Char) : Prop := rest = [] ∨ ∃ r, rest = ':' :: r

theorem EndsField.append {rest more : List Char} (h : EndsField rest) (hmore : EndsField more) :
    EndsField (rest ++ more) := by
  rcases h with rfl | ⟨r, rfl⟩
  · exact hmore
  · exact .inr ⟨r ++ more, rfl⟩

theorem split_field {a rest : List Char} (ha : ':' ∉ a) (hrest : EndsField rest) :
    ∃ fields, split ':' (a ++ rest) = a :: fields := by
  rcases hrest with rfl | ⟨r, rfl⟩
  · refine ⟨[], ?_⟩
    rw [List.append_nil, split_of_not_mem ha]
  · refine ⟨split ':' r, ?_⟩
    rw [split_append, split_of_not_mem ha, List.singleton_append]

theorem StoreId.text_toList (projectId : String) (id : StoreId) :
    ∃ rest, EndsField rest ∧ (id.text projectId).toList = projectId.toList ++ rest := by
  cases id with
  | ofProject =>
    refine ⟨[], .inl rfl, ?_⟩
    rw [List.append_nil, text]
  | ofProvider provider =>
    generalize hn : orElse (some (strip (orElse provider ""))) "unknown" = normalized
    refine ⟨':' :: normalized.toList, .inr ⟨_, rfl⟩, ?_⟩
    rw [text, scopedProjectProviderId, hn]
    simp

theorem StoreFamily.suffix_endsField (family : StoreFamily) : EndsField family.suffix.toList := by
  have hcolon : ∀ x y : String, x.toList.head? = some ':' → EndsField (x ++ y).toList := by
    intro x y hx
    obtain ⟨r, hr⟩ := List.head?_eq_some_iff.mp hx
    refine .inr ⟨r ++ y.toList, ?_⟩
    rw [String.toList_append, hr, List.cons_append]
  cases family with
  | incidentOpenLock incidentType =>
    simp only [suffix, String.append_assoc]
    exact hcolon _ _ (by decide)
  | outcome requestId => exact hcolon _ _ (by decide)
  | report reportType marker =>
    simp only [suffix, String.append_assoc]
    exact hcolon _ _ (by decide)
  | cooldown => exact .inl rfl
  | cooldownOwner => exact .inl rfl
  | _ => exact .inr ⟨_, rfl⟩

theorem StoreFamily.split_key {projectId : String} (h : ':' ∉ projectId.toList) (id : StoreId)
    (family : StoreFamily) : ∃ fields, split ':' (family.key (id.text projectId)).toList =
      split ':' family.tag.toList ++ projectId.toList :: fields := by
  obtain ⟨rest, hrest, hid⟩ := id.text_toList projectId
  obtain ⟨fields, hfields⟩ := split_field h (hrest.append family.suffix_endsField)
  refine ⟨fields, ?_⟩
  have hkey : (family.key (id.text projectId)).toList =
      family.tag.toList ++ ':' :: (projectId.toList ++ (rest ++ family.suffix.toList)) := by
    rw [key_eq, String.toList_append, String.toList_append, String.toList_append, hid]
    simp
  rw [hkey, split_append, hfields]

theorem StoreFamily.projectField_tag (family : StoreFamily) (project : List Char)
    (fields : List (List Char)) :
    projectField (split ':' family.tag.toList ++ project :: fields) = some project := by
  have hrt : split ':' "rt".toList = [['r', 't']] := by decide
  have hinc : split ':' "inc".toList = [['i', 'n', 'c']] := by decide
  have hpa : split ':' "pa".toList = [['p', 'a']] := by decide
  have hcooldown : split ':' "protect:cooldown".toList =
      [['p', 'r', 'o', 't', 'e', 'c', 't'], "cooldown".toList] := by decide
  have howner : split ':' "protect:cooldown-owner".toList =
      [['p', 'r', 'o', 't', 'e', 'c', 't'], "cooldown-owner".toList] := by decide
  cases family <;> simp only [tag, hrt, hinc, hpa, hcooldown, howner] <;> rfl

theorem projectOf_tagged {tag projectId rest : String} (htag : ':' ∉ tag.toList)
    (h : ':' ∉ projectId.toList)
    (hne : tag.toList ≠ ['p', 'r', 'o', 't', 'e', 'c', 't']) :
    projectOf (tag ++ (":" ++ (projectId ++ (":" ++ rest)))) = some projectId.toList := by
  have hkey : (tag ++ (":" ++ (projectId ++ (":" ++ rest)))).toList =
      tag.toList ++ ':' :: (projectId.toList ++ ':' :: rest.toList) := by simp
  rw [projectOf, hkey, split_append, split_append, split_of_not_mem htag, split_of_not_mem h]
  exact if_neg hne

theorem projectOf_key (hashKey : String → String) {projectId : String}
    (h : ':' ∉ projectId.toList) (k : ProjectKey) :
    projectOf (k.key hashKey projectId) = some projectId.toList := by
  cases k with
  | store id family =>
    obtain ⟨fields, hfields⟩ := family.split_key h id
    have hsplit : split ':' ((ProjectKey.store id family).key hashKey projectId).toList =
        split ':' family.tag.toList ++ projectId.toList :: fields := hfields
    rw [projectOf, hsplit, family.projectField_tag]
  | ingestIdempotency idempotencyKey =>
    have htag : "idem:" = "idem" ++ ":" := by decide
    simp only [ProjectKey.key, Keys.idempotencyKey, htag, String.append_assoc]
    exact projectOf_tagged (by decide) h (by decide)

/-- No key built for one project is built for another, whatever text its clients send. -/
theorem keys_never_collide (hashKey : String → String) {p q : String} (hp : ':' ∉ p.toList)
    (hq : ':' ∉ q.toList) (hne : p ≠ q) (k l : ProjectKey) :
    k.key hashKey p ≠ l.key hashKey q := by
  intro heq
  have hproject : some p.toList = some q.toList := by
    rw [← projectOf_key hashKey hp k, ← projectOf_key hashKey hq l, heq]
  exact hne (String.toList_injective (Option.some.inj hproject))

/-- A request id that spells out another project's key. -/
theorem keys_never_collide_sample :
    outcomeKey (scopedProjectProviderId "a" (some "b:outcome")) "r" ≠
      outcomeKey (scopedProjectProviderId "b" (some "openai")) "outcome:r" :=
  keys_never_collide id (p := "a") (q := "b") (by decide) (by decide) (by decide)
    (.store (.ofProvider (some "b:outcome")) (.outcome "r"))
    (.store (.ofProvider (some "openai")) (.outcome "outcome:r"))

end Rheonic.KeyFamilies
