import Rheonic.Lib.PyText

namespace Rheonic.Keys
open PyText

/-- The composite id under which the Redis stores keep a project's provider. -/
def scopedProjectProviderId (projectId : String) (provider : Option String) : String :=
  projectId ++ ":" ++ orElse (some (strip (orElse provider ""))) "unknown"

def clampKey (projectId : String) : String := "pa:" ++ projectId ++ ":clamp:60m"

def blockKey (projectId : String) : String := "pa:" ++ projectId ++ ":block:60m"

def allowKey (projectId : String) : String := "pa:" ++ projectId ++ ":allow:60m"

def lastKey (projectId : String) : String := "pa:" ++ projectId ++ ":last"

def latencyKey (projectId : String) : String := "pa:" ++ projectId ++ ":latency:60m"

def timeoutKey (projectId : String) : String := "pa:" ++ projectId ++ ":timeout:60m"

def timeoutEventsKey (projectId : String) : String := "pa:" ++ projectId ++ ":timeout-events:60m"

def outcomeKey (projectId requestId : String) : String :=
  "pa:" ++ projectId ++ ":outcome:" ++ requestId

def reportKey (projectId reportType marker : String) : String :=
  "pa:" ++ projectId ++ ":report:" ++ reportType ++ ":" ++ marker

def cooldownKey (projectId : String) : String := "protect:cooldown:" ++ projectId

def cooldownOwnerKey (projectId : String) : String := "protect:cooldown-owner:" ++ projectId

def requests60sKey (projectId : String) : String := "rt:" ++ projectId ++ ":req:z"

def tokens60sKey (projectId : String) : String := "rt:" ++ projectId ++ ":tok:z"

/-- The key of an idempotency mark; `keyHash` is the hash of the client's key. -/
def idempotencyKey (projectId keyHash : String) : String := "idem:" ++ projectId ++ ":" ++ keyHash

def rateLimitKey (keyHash : String) (windowEpochMinute : ℕ) : String :=
  "rl:" ++ keyHash ++ ":" ++ toString windowEpochMinute

/-- The keys that finalizing outcomes reads and writes in one scope. -/
inductive OutcomeField
  | clamp
  | block
  | allow
  | last
  | timeout
  | timeoutEvents
  | outcome (requestId : String)
  deriving DecidableEq

def OutcomeField.key (projectId : String) : OutcomeField → String
  | clamp => clampKey projectId
  | block => blockKey projectId
  | allow => allowKey projectId
  | last => lastKey projectId
  | timeout => timeoutKey projectId
  | timeoutEvents => timeoutEventsKey projectId
  | outcome requestId => outcomeKey projectId requestId

/-- What follows the scope in a key. -/
def OutcomeField.suffix : OutcomeField → String
  | clamp => "clamp:60m"
  | block => "block:60m"
  | allow => "allow:60m"
  | last => "last"
  | timeout => "timeout:60m"
  | timeoutEvents => "timeout-events:60m"
  | outcome requestId => "outcome:" ++ requestId

theorem OutcomeField.key_eq (projectId : String) (f : OutcomeField) :
    f.key projectId = "pa:" ++ projectId ++ ":" ++ f.suffix := by
  apply String.toList_injective
  cases f <;> simp [key, suffix, clampKey, blockKey, allowKey, lastKey, timeoutKey,
    timeoutEventsKey, outcomeKey]

theorem OutcomeField.suffix_injective : Function.Injective suffix := by
  intro f g h
  have h' := congrArg String.toList h
  cases f <;> cases g <;> simp [suffix] at h' ⊢
  exact String.toList_injective h'

theorem append_cons_inj {α : Type} {sep : α} {a a' b b' : List α} (ha : sep ∉ a) (ha' : sep ∉ a')
    (h : a ++ sep :: b = a' ++ sep :: b') : a = a' ∧ b = b' := by
  induction a generalizing a' with
  | nil =>
    cases a' with
    | nil => exact ⟨rfl, (List.cons.inj h).2⟩
    | cons c a' => exact absurd (List.cons.inj h).1 fun hc => ha' (hc ▸ List.mem_cons_self)
  | cons c a ih =>
    rw [List.mem_cons, not_or] at ha
    cases a' with
    | nil => exact absurd (List.cons.inj h).1 fun hc => ha.1 hc.symm
    | cons c' a' =>
      rw [List.mem_cons, not_or] at ha'
      obtain ⟨rfl, htail⟩ := List.cons.inj h
      obtain ⟨rfl, hb⟩ := ih ha.2 ha'.2 htail
      exact ⟨rfl, hb⟩

/-- A project and a provider without colons, so that their composite id can be read back. -/
structure Scope where
  project : String
  provider : String
  project_colon_free : ':' ∉ project.toList
  provider_colon_free : ':' ∉ provider.toList
  deriving DecidableEq

namespace Scope

def id (σ : Scope) : String := σ.project ++ ":" ++ σ.provider

def key (σ : Scope) (f : OutcomeField) : String := f.key σ.id

theorem ext_of_parts {σ τ : Scope} (hproject : σ.project = τ.project)
    (hprovider : σ.provider = τ.provider) : σ = τ := by
  cases σ; cases τ; simp_all

theorem key_toList (σ : Scope) (f : OutcomeField) :
    (σ.key f).toList = "pa:".toList ++ (σ.project.toList ++ ':' ::
      (σ.provider.toList ++ ':' :: f.suffix.toList)) := by
  simp [key, id, OutcomeField.key_eq]

@[simp] theorem key_inj {σ τ : Scope} {f g : OutcomeField} :
    σ.key f = τ.key g ↔ σ = τ ∧ f = g := by
  constructor
  · intro h
    have hl := congrArg String.toList h
    rw [key_toList, key_toList] at hl
    obtain ⟨hproject, hrest⟩ := append_cons_inj σ.project_colon_free τ.project_colon_free
      (List.append_cancel_left hl)
    obtain ⟨hprovider, hsuffix⟩ :=
      append_cons_inj σ.provider_colon_free τ.provider_colon_free hrest
    exact ⟨ext_of_parts (String.toList_injective hproject) (String.toList_injective hprovider),
      OutcomeField.suffix_injective (String.toList_injective hsuffix)⟩
  · rintro ⟨rfl, rfl⟩
    rfl

end Scope

theorem ofList_append_ne {a b : List Char} (n : ℕ) (ha : n ≤ a.length) (hb : n ≤ b.length)
    (h : a.take n ≠ b.take n) (x y : String) : String.ofList a ++ x ≠ String.ofList b ++ y := by
  intro hxy
  have hl := congrArg (fun t : String => t.toList.take n) hxy
  simp only [String.toList_append, String.toList_ofList, List.take_append_of_le_length, ha, hb]
    at hl
  exact h hl

theorem append_ofList_ne {a b : List Char} (n : ℕ) (ha : n ≤ a.length) (hb : n ≤ b.length)
    (h : a.reverse.take n ≠ b.reverse.take n) (x y : String) :
    x ++ String.ofList a ≠ y ++ String.ofList b := by
  intro hxy
  have hl := congrArg (fun t : String => t.toList.reverse.take n) hxy
  simp only [String.toList_append, String.toList_ofList, List.reverse_append] at hl
  rw [List.take_append_of_le_length (by rw [List.length_reverse]; exact ha),
    List.take_append_of_le_length (by rw [List.length_reverse]; exact hb)] at hl
  exact h hl

theorem append_left_inj {a x y : String} : a ++ x = a ++ y ↔ x = y := by
  constructor
  · intro h
    have hl := congrArg String.toList h
    rw [String.toList_append, String.toList_append] at hl
    exact String.toList_injective (List.append_cancel_left hl)
  · rintro rfl
    rfl

theorem append_append_inj {a b x y : String} : a ++ x ++ b = a ++ y ++ b ↔ x = y := by
  constructor
  · intro h
    have hl := congrArg String.toList h
    rw [String.toList_append, String.toList_append, String.toList_append,
      String.toList_append] at hl
    exact String.toList_injective (List.append_cancel_left (List.append_cancel_right hl))
  · rintro rfl
    rfl

@[simp] theorem requests60sKey_inj {p q : String} : requests60sKey p = requests60sKey q ↔ p = q :=
  append_append_inj

@[simp] theorem tokens60sKey_inj {p q : String} : tokens60sKey p = tokens60sKey q ↔ p = q :=
  append_append_inj

theorem requests60sKey_ne_tokens60sKey (p q : String) : requests60sKey p ≠ tokens60sKey q := by
  intro h
  have hl : ("rt:" ++ p).toList ++ ":req:z".toList = ("rt:" ++ q).toList ++ ":tok:z".toList := by
    rw [← String.toList_append, ← String.toList_append]
    exact congrArg String.toList h
  have hreq : ":req:z".toList = [':', 'r', 'e', 'q', ':', 'z'] := String.toList_ofList
  have htok : ":tok:z".toList = [':', 't', 'o', 'k', ':', 'z'] := String.toList_ofList
  rw [hreq, htok] at hl
  exact absurd (List.append_inj_right' hl rfl) (by decide)

theorem idempotencyKey_ne_rateLimitKey (p h h' : String) (n : ℕ) :
    idempotencyKey p h ≠ rateLimitKey h' n := by
  simp only [idempotencyKey, rateLimitKey, String.append_assoc]
  exact ofList_append_ne 1 (by decide) (by decide) (by decide) _ _

theorem idempotencyKey_ne_requests60sKey (p h q : String) :
    idempotencyKey p h ≠ requests60sKey q := by
  simp only [idempotencyKey, requests60sKey, String.append_assoc]
  exact ofList_append_ne 1 (by decide) (by decide) (by decide) _ _

theorem idempotencyKey_ne_tokens60sKey (p h q : String) : idempotencyKey p h ≠ tokens60sKey q := by
  simp only [idempotencyKey, tokens60sKey, String.append_assoc]
  exact ofList_append_ne 1 (by decide) (by decide) (by decide) _ _

theorem requests60sKey_ne_rateLimitKey (p h : String) (n : ℕ) :
    requests60sKey p ≠ rateLimitKey h n := by
  simp only [requests60sKey, rateLimitKey, String.append_assoc]
  exact ofList_append_ne 2 (by decide) (by decide) (by decide) _ _

theorem tokens60sKey_ne_rateLimitKey (p h : String) (n : ℕ) :
    tokens60sKey p ≠ rateLimitKey h n := by
  simp only [tokens60sKey, rateLimitKey, String.append_assoc]
  exact ofList_append_ne 2 (by decide) (by decide) (by decide) _ _

theorem requests60sKey_ne_cooldownKey (p q : String) : requests60sKey p ≠ cooldownKey q := by
  simp only [requests60sKey, String.append_assoc]
  exact ofList_append_ne 1 (by decide) (by decide) (by decide) _ _

theorem tokens60sKey_ne_cooldownKey (p q : String) : tokens60sKey p ≠ cooldownKey q := by
  simp only [tokens60sKey, String.append_assoc]
  exact ofList_append_ne 1 (by decide) (by decide) (by decide) _ _

theorem requests60sKey_ne_cooldownOwnerKey (p q : String) :
    requests60sKey p ≠ cooldownOwnerKey q := by
  simp only [requests60sKey, String.append_assoc]
  exact ofList_append_ne 1 (by decide) (by decide) (by decide) _ _

theorem tokens60sKey_ne_cooldownOwnerKey (p q : String) : tokens60sKey p ≠ cooldownOwnerKey q := by
  simp only [tokens60sKey, String.append_assoc]
  exact ofList_append_ne 1 (by decide) (by decide) (by decide) _ _

@[simp] theorem cooldownKey_inj {p q : String} : cooldownKey p = cooldownKey q ↔ p = q :=
  append_left_inj

@[simp] theorem cooldownOwnerKey_inj {p q : String} :
    cooldownOwnerKey p = cooldownOwnerKey q ↔ p = q :=
  append_left_inj

theorem cooldownKey_ne_ownerKey (p q : String) : cooldownKey p ≠ cooldownOwnerKey q :=
  ofList_append_ne 17 (by decide) (by decide) (by decide) p q

end Rheonic.Keys
