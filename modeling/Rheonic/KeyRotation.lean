import Rheonic.UserApi
import Rheonic.Lib.Faults

namespace Rheonic.KeyRotation
open CommandProgram RowTable UserApi

/-- The steps of the repositories that the key service takes. -/
inductive Cmd
  | getById (keyId : String)
  | getProject (projectId : String)
  | revokeKey (keyId : String) (revokedAt : ℕ)
  | createKey (keyId : String) (key : IngestKeyRecord)

abbrev Cmd.Reply : Cmd → Type
  | getById _ => Option IngestKeyRecord
  | getProject _ => Option ProjectRecord
  | revokeKey _ _ => Option IngestKeyRecord
  | createKey _ _ => Unit

abbrev Prog (α : Type) := Program Cmd Cmd.Reply Exn α

/-- Each step is a transaction of its own. -/
def exec : (c : Cmd) → Database → Except Exn c.Reply × Database
  | .getById keyId, d => (.ok (d.ingestKeys.get keyId), d)
  | .getProject projectId, d => (.ok (d.projects.get projectId), d)
  | .revokeKey keyId revokedAt, d => Unwinding.exec (markRevoked keyId revokedAt) d
  | .createKey keyId key, d => Unwinding.exec (insertKey keyId key) d

namespace Repository

def getById (keyId : String) : Prog (Option IngestKeyRecord) := Program.perform (Cmd.getById keyId)

def getProject (projectId : String) : Prog (Option ProjectRecord) :=
  Program.perform (Cmd.getProject projectId)

def revokeKey (keyId : String) (revokedAt : ℕ) : Prog (Option IngestKeyRecord) :=
  Program.perform (Cmd.revokeKey keyId revokedAt)

def createKey (keyId : String) (key : IngestKeyRecord) : Prog Unit :=
  Program.perform (Cmd.createKey keyId key)

end Repository

section Service

variable (hashKey : String → String) (userId : String) (now : ℕ)

def ensureProjectOwnedByUser (projectId : String) : Prog Unit := do
  let project ← Repository.getProject projectId
  if project.bind (·.userId) = some userId then pure () else throw projectNotFound

def createKey (projectId name newId plaintext : String) : Prog (String × IngestKeyRecord) := do
  ensureProjectOwnedByUser userId projectId
  match sanitizeName name "key label" with
  | .error e => throw e
  | .ok normalizedName =>
    let key : IngestKeyRecord :=
      { projectId := projectId, name := normalizedName, keyHash := hashKey plaintext,
        last4 := some (truncateLast 4 plaintext), createdAt := now }
    Repository.createKey newId key
    pure (newId, key)

def revokeKey (keyId : String) : Prog (String × IngestKeyRecord) := do
  match ← Repository.getById keyId with
  | none => throw keyNotFound
  | some existing =>
    ensureProjectOwnedByUser userId existing.projectId
    if existing.status = .revoked then pure (keyId, existing)
    else match ← Repository.revokeKey keyId now with
      | none => throw keyNotFound
      | some revoked => pure (keyId, revoked)

/-- Rotate a key by revoking it and creating another of its project and name. -/
def rotateKey (keyId newId plaintext : String) : Prog (String × IngestKeyRecord) := do
  match ← Repository.getById keyId with
  | none => throw keyNotFound
  | some existing =>
    ensureProjectOwnedByUser userId existing.projectId
    let _ ← revokeKey userId now keyId
    createKey hashKey userId now existing.projectId existing.name newId plaintext

end Service

/-- A call of the API and a program of repository steps do the same, and answer related values. -/
def Matches {α β : Type} (R : α → β → Prop) (m : Api α) (p : Prog β) : Prop :=
  ∀ d, (Unwinding.exec m d).2 = (Program.run exec p d).2 ∧
    match (Unwinding.exec m d).1, (Program.run exec p d).1 with
    | .ok a, .ok b => R a b
    | .error e, .error e' => e = e'
    | _, _ => False

namespace Matches

variable {α β γ δ : Type} {R : α → β → Prop} {Q : γ → δ → Prop}

theorem pure {a : α} {b : β} (h : R a b) : Matches R (Pure.pure a) (Pure.pure b) :=
  fun _ => ⟨rfl, h⟩

theorem throw (e : Exn) :
    Matches R (MonadExcept.throw e : Api α) (MonadExcept.throw e : Prog β) :=
  fun _ => ⟨rfl, rfl⟩

theorem bind {m : Api α} {p : Prog β} {f : α → Api γ} {g : β → Prog δ} (h : Matches R m p)
    (hf : ∀ a b, R a b → Matches Q (f a) (g b)) : Matches Q (m >>= f) (p >>= g) := by
  intro d
  obtain ⟨hstate, hanswer⟩ := h d
  rw [Unwinding.exec_bind, Program.run_bind]
  rcases hm : Unwinding.exec m d with ⟨e | a, d₁⟩
  · rcases hp : Program.run exec p d with ⟨e' | b, d₂⟩
    · rw [hm, hp] at hstate hanswer
      exact ⟨hstate, hanswer⟩
    · rw [hm, hp] at hanswer
      exact hanswer.elim
  · rcases hp : Program.run exec p d with ⟨e' | b, d₂⟩
    · rw [hm, hp] at hanswer
      exact hanswer.elim
    · rw [hm, hp] at hstate hanswer
      obtain rfl : d₁ = d₂ := hstate
      exact hf a b hanswer d₁

theorem perform {c : Cmd} {m : Api c.Reply} (h : ∀ d, Unwinding.exec m d = exec c d) :
    Matches Eq m (Program.perform c) := by
  intro d
  rw [h, Program.run_perform]
  refine ⟨rfl, ?_⟩
  cases (exec c d).1 <;> rfl

end Matches

theorem ensureProjectOwnedByUser_matches (projectId userId : String) :
    Matches (fun _ _ => True) (UserApi.ensureProjectOwnedByUser projectId userId)
      (ensureProjectOwnedByUser userId projectId) := by
  unfold UserApi.ensureProjectOwnedByUser ensureProjectOwnedByUser
  apply Matches.bind (.perform (c := .getProject projectId) fun _ => rfl)
  rintro project _ rfl
  cases project with
  | none => exact .throw _
  | some project =>
    by_cases h : project.userId = some userId
    · have hbind : (some project).bind (·.userId) = some userId := h
      dsimp only
      rw [if_pos h, if_pos hbind]
      exact .pure trivial
    · have hbind : ¬(some project).bind (·.userId) = some userId := h
      dsimp only
      rw [if_neg h, if_neg hbind]
      exact .throw _

section Matching

variable (ext : External) (user : User) (now : ℕ)

def createdOut (plaintext : String) (key : String × IngestKeyRecord) : Body :=
  .createdKey ⟨plaintext, key.1, key.2.name, key.2.last4, key.2.createdAt⟩

theorem createKey_matches (projectId name newId plaintext : String) :
    Matches (fun body key => body = createdOut plaintext key)
      (UserApi.createKey ext user now projectId name newId plaintext)
      (createKey ext.hashKey user.id now projectId name newId plaintext) := by
  apply (ensureProjectOwnedByUser_matches projectId user.id).bind
  intro _ _ _
  cases sanitizeName name "key label" with
  | error e => exact .throw e
  | ok label =>
    apply Matches.bind (.perform (c := .createKey newId _) fun _ => rfl)
    intro _ _ _
    exact .pure rfl

theorem revokeKey_matches (keyId : String) :
    Matches (fun body key => body = .key (keySummary key)) (UserApi.revokeKey user now keyId)
      (revokeKey user.id now keyId) := by
  apply Matches.bind (.perform (c := .getById keyId) fun _ => rfl)
  rintro found _ rfl
  cases found with
  | none => exact .throw _
  | some existing =>
    apply (ensureProjectOwnedByUser_matches existing.projectId user.id).bind
    intro _ _ _
    by_cases hstatus : existing.status = .revoked
    · rw [if_pos hstatus, if_pos hstatus]
      exact .pure rfl
    · rw [if_neg hstatus, if_neg hstatus]
      apply Matches.bind (.perform (c := .revokeKey keyId now) fun _ => rfl)
      rintro key _ rfl
      cases key with
      | none => exact .throw _
      | some revoked => exact .pure rfl

theorem rotateKey_matches (keyId newId plaintext : String) :
    Matches (fun body key => body = createdOut plaintext key)
      (UserApi.rotateKey ext user now keyId newId plaintext)
      (rotateKey ext.hashKey user.id now keyId newId plaintext) := by
  apply Matches.bind (.perform (c := .getById keyId) fun _ => rfl)
  rintro found _ rfl
  cases found with
  | none => exact .throw _
  | some existing =>
    apply (ensureProjectOwnedByUser_matches existing.projectId user.id).bind
    intro _ _ _
    apply (revokeKey_matches user now keyId).bind
    intro _ _ _
    exact createKey_matches ext user now existing.projectId existing.name newId plaintext

end Matching

/-- The number of keys of a project that are active. -/
def activeKeys (d : Database) (projectId : String) : ℕ :=
  d.ingestKeys.total fun _ key => if key.projectId = projectId ∧ key.status = .active then 1 else 0

def Owns (d : Database) (userId projectId : String) : Prop :=
  (d.projects.get projectId).bind (·.userId) = some userId

instance (d : Database) (userId projectId : String) : Decidable (Owns d userId projectId) :=
  inferInstanceAs (Decidable (_ = _))

/-- The key can be written: its label passes, and no row has its id or its hash. -/
def Creatable (d : Database) (name newId keyHash : String) : Prop :=
  (sanitizeName name "key label").toOption.isSome ∧ d.ingestKeys.get newId = none ∧
    (d.ingestKeys.rows.any fun e => e.2.keyHash = keyHash) = false

instance (d : Database) (name newId keyHash : String) : Decidable (Creatable d name newId keyHash) :=
  inferInstanceAs (Decidable (_ ∧ _ ∧ _))

def revoked (d : Database) (keyId : String) (now : ℕ) : Database :=
  { d with ingestKeys := d.ingestKeys.update keyId fun key =>
      { key with status := .revoked, revokedAt := some now } }

section Run

variable {hashKey : String → String} {userId : String} {now : ℕ} {e : Exn} {d : Database}
  {keyId newId plaintext projectId name : String} {existing : IngestKeyRecord}
  {fault : Option Fault}

theorem ensureProjectOwnedByUser_begins (d : Database) (userId projectId : String) :
    Program.Begins exec (· = d) [.getProject projectId] d
      (ensureProjectOwnedByUser userId projectId) d
      (if Owns d userId projectId then pure () else throw projectNotFound) :=
  .perform (r := d.projects.get projectId) rfl rfl (.nil d _)

theorem ensureProjectOwnedByUser_bare : Program.Bare (ensureProjectOwnedByUser userId projectId) :=
  (Program.Bare.perform _).bind fun _ => .ite (.pure _) (.throw _)

theorem createKey_bare : Program.Bare (createKey hashKey userId now projectId name newId plaintext) := by
  apply ensureProjectOwnedByUser_bare.bind
  intro _
  split
  · exact .throw _
  · exact (Program.Bare.perform _).bind fun _ => .pure _

theorem revokeKey_bare : Program.Bare (revokeKey userId now keyId) := by
  apply (Program.Bare.perform _).bind
  intro found
  split
  · exact .throw _
  · apply ensureProjectOwnedByUser_bare.bind
    intro _
    apply Program.Bare.ite (.pure _)
    apply (Program.Bare.perform _).bind
    intro key
    split
    · exact .throw _
    · exact .pure _

theorem rotateKey_bare : Program.Bare (rotateKey hashKey userId now keyId newId plaintext) := by
  apply (Program.Bare.perform _).bind
  intro found
  split
  · exact .throw _
  · exact ensureProjectOwnedByUser_bare.bind fun _ => revokeKey_bare.bind fun _ => createKey_bare

theorem run_rotateKey_of_not_found
    (h : ∀ existing, d.ingestKeys.get keyId = some existing → ¬Owns d userId existing.projectId) :
    (Program.run (Program.faulty exec e) (rotateKey hashKey userId now keyId newId plaintext)
      (d, fault)).2.1 = d := by
  cases hkey : d.ingestKeys.get keyId with
  | none =>
    have hread : Program.Begins exec (· = d) [.getById keyId] d
        (rotateKey hashKey userId now keyId newId plaintext) d (throw keyNotFound) :=
      .perform (r := none) (congrArg (fun r => (Except.ok r, d)) hkey) rfl (.nil d _)
    exact hread.run_ended rotateKey_bare rfl rfl fault
  | some existing =>
    have howns := ensureProjectOwnedByUser_begins d userId existing.projectId
    rw [if_neg (h existing hkey)] at howns
    have hread : Program.Begins exec (· = d) [.getById keyId, .getProject existing.projectId] d
        (rotateKey hashKey userId now keyId newId plaintext) d (throw projectNotFound) :=
      .perform (r := some existing) (congrArg (fun r => (Except.ok r, d)) hkey) rfl (howns.bind _)
    exact hread.run_ended rotateKey_bare rfl rfl fault

/-- What `revoke_key` does behind its checks. -/
def revocation (now : ℕ) (keyId : String) (existing : IngestKeyRecord) :
    Prog (String × IngestKeyRecord) :=
  if existing.status = .revoked then pure (keyId, existing)
  else do
    match ← Repository.revokeKey keyId now with
    | none => throw keyNotFound
    | some revoked => pure (keyId, revoked)

/-- What a rotation does behind its checks. -/
def replacement (hashKey : String → String) (userId : String) (now : ℕ)
    (keyId newId plaintext : String) (existing : IngestKeyRecord) : Prog (String × IngestKeyRecord) :=
  revocation now keyId existing >>= fun _ =>
    createKey hashKey userId now existing.projectId existing.name newId plaintext

theorem revokeKey_begins (hkey : d.ingestKeys.get keyId = some existing)
    (howns : Owns d userId existing.projectId) :
    Program.Begins exec (· = d) [.getById keyId, .getProject existing.projectId] d
      (revokeKey userId now keyId) d (revocation now keyId existing) := by
  have hcheck := ensureProjectOwnedByUser_begins d userId existing.projectId
  rw [if_pos howns] at hcheck
  exact .perform (r := some existing) (congrArg (fun r => (Except.ok r, d)) hkey) rfl (hcheck.bind _)

theorem rotateKey_begins (hkey : d.ingestKeys.get keyId = some existing)
    (howns : Owns d userId existing.projectId) :
    Program.Begins exec (· = d)
      [.getById keyId, .getProject existing.projectId, .getById keyId, .getProject existing.projectId]
      d (rotateKey hashKey userId now keyId newId plaintext) d
      (replacement hashKey userId now keyId newId plaintext existing) := by
  have hcheck := ensureProjectOwnedByUser_begins d userId existing.projectId
  rw [if_pos howns] at hcheck
  exact .perform (r := some existing) (congrArg (fun r => (Except.ok r, d)) hkey) rfl
    ((hcheck.bind _).trans ((revokeKey_begins hkey howns).bind _))

theorem activeKeys_insertKey (d : Database) (newId : String) (key : IngestKeyRecord)
    (hactive : key.status = .active) (p : String) :
    activeKeys (exec (.createKey newId key) d).2 p = activeKeys d p +
      if p = key.projectId ∧ d.ingestKeys.get newId = none ∧
        (d.ingestKeys.rows.any fun e => e.2.keyHash = key.keyHash) = false then 1 else 0 := by
  rw [exec, insertKey, Unwinding.exec_transaction]
  by_cases hhash : (d.ingestKeys.rows.any fun e => e.2.keyHash = key.keyHash) = true
  · rw [if_pos hhash, if_neg (by simp [hhash])]
    rfl
  · rw [if_neg hhash]
    cases hinsert : d.ingestKeys.insert newId key with
    | none =>
      have htaken := Table.insert_eq_none_iff.mp hinsert
      rw [if_neg (by
        rintro ⟨_, hnone, _⟩
        obtain ⟨v, hv⟩ := htaken
        simp [hnone] at hv)]
      rfl
    | some keys =>
      have hfree := Table.get_eq_none_of_insert hinsert
      dsimp only
      unfold activeKeys
      rw [Table.total_insert hinsert]
      congr 1
      by_cases hp : p = key.projectId
      · rw [if_pos ⟨hp.symm, hactive⟩, if_pos ⟨hp, hfree, Bool.eq_false_iff.mpr hhash⟩]
      · rw [if_neg fun h => hp h.1.symm, if_neg fun h => hp h.1]

/-- The step of `create_key` that comes behind its check. -/
def insertion (hashKey : String → String) (now : ℕ) (projectId name newId plaintext : String) :
    Prog (String × IngestKeyRecord) :=
  match sanitizeName name "key label" with
  | .error e => throw e
  | .ok normalizedName =>
    let key : IngestKeyRecord :=
      { projectId := projectId, name := normalizedName, keyHash := hashKey plaintext,
        last4 := some (truncateLast 4 plaintext), createdAt := now }
    Repository.createKey newId key >>= fun _ => pure (newId, key)

theorem createKey_begins (howns : Owns d userId projectId) :
    Program.Begins exec (· = d) [.getProject projectId] d
      (createKey hashKey userId now projectId name newId plaintext) d
      (insertion hashKey now projectId name newId plaintext) := by
  have hcheck := ensureProjectOwnedByUser_begins d userId projectId
  rw [if_pos howns] at hcheck
  exact hcheck.bind _

theorem activeKeys_insertion (p : String) :
    activeKeys (Program.run (Program.faulty exec e)
      (insertion hashKey now projectId name newId plaintext) (d, fault)).2.1 p =
    activeKeys d p + if p = projectId ∧ Reaches fault 1 ∧
      Creatable d name newId (hashKey plaintext) then 1 else 0 := by
  unfold insertion
  cases hlabel : sanitizeName name "key label" with
  | error err =>
    have hno : ¬(p = projectId ∧ Reaches fault 1 ∧ Creatable d name newId (hashKey plaintext)) := by
      intro hall
      have hsome := hall.2.2.1
      rw [hlabel] at hsome
      exact absurd hsome Bool.false_ne_true
    rw [if_neg hno]
    rfl
  | ok label =>
    dsimp only
    rw [Repository.createKey, Program.run_last]
    by_cases hreach : Reaches fault 1
    · rw [if_pos hreach, activeKeys_insertKey d newId _ rfl]
      congr 1
      refine if_congr ⟨fun h => ⟨h.1, hreach, ?_, h.2⟩, fun h => ⟨h.1, h.2.2.2⟩⟩ rfl rfl
      rw [hlabel]
      rfl
    · rw [if_neg hreach, if_neg fun h => hreach h.2.1]
      rfl

theorem activeKeys_createKey (howns : Owns d userId projectId) (p : String) :
    activeKeys (Program.run (Program.faulty exec e)
      (createKey hashKey userId now projectId name newId plaintext) (d, fault)).2.1 p =
    activeKeys d p + if p = projectId ∧ Reaches fault 2 ∧
      Creatable d name newId (hashKey plaintext) then 1 else 0 := by
  have hbegins : Program.Begins exec (· = d) [.getProject projectId] d
      (createKey hashKey userId now projectId name newId plaintext) d
      (insertion hashKey now projectId name newId plaintext) := createKey_begins howns
  obtain ⟨f, x, hf, hlt, hx, hrun⟩ | ⟨hpos, hrun⟩ := hbegins.run_cases (e := e) createKey_bare rfl fault
  · have hearly : ¬Reaches fault 2 := by
      intro hreach
      have hdone := hreach f hf
      have happlied := f.applied.toNat_le
      simp only [List.length_cons, List.length_nil] at hlt
      unfold Fault.done at hdone
      omega
    rw [hrun, hx, if_neg fun h => hearly h.2.1]
    rfl
  · rw [hrun, activeKeys_insertion]
    congr 1
    refine if_congr (and_congr_right fun _ => and_congr_left fun _ => ?_) rfl rfl
    exact reaches_later hpos

theorem activeKeys_revoked (hkey : d.ingestKeys.get keyId = some existing)
    (hactive : existing.status = .active) (p : String) :
    activeKeys (revoked d keyId now) p + (if p = existing.projectId then 1 else 0) =
      activeKeys d p := by
  unfold activeKeys revoked
  have hsum := Table.total_update_add (f := fun key : IngestKeyRecord =>
    { key with status := .revoked, revokedAt := some now })
    (g := fun _ key => if key.projectId = p ∧ key.status = .active then 1 else 0) hkey
  have hbefore : (if existing.projectId = p ∧ existing.status = .active then 1 else 0) =
      if p = existing.projectId then 1 else 0 :=
    if_congr ⟨fun h => h.1.symm, fun h => ⟨h.symm, hactive⟩⟩ rfl rfl
  simp only [hbefore, reduceCtorEq, and_false, if_false, Nat.add_zero] at hsum
  exact hsum

theorem owns_revoked : Owns (revoked d keyId now) userId projectId ↔ Owns d userId projectId :=
  Iff.rfl

theorem creatable_revoked {keyHash : String} :
    Creatable (revoked d keyId now) name newId keyHash ↔ Creatable d name newId keyHash := by
  have hid : (revoked d keyId now).ingestKeys.get newId = none ↔ d.ingestKeys.get newId = none := by
    unfold revoked
    rw [Table.get_update]
    split
    · rw [Option.map_eq_none_iff]
    · rfl
  have hhash : ((revoked d keyId now).ingestKeys.rows.any fun e => e.2.keyHash = keyHash) =
      d.ingestKeys.rows.any fun e => e.2.keyHash = keyHash := by
    unfold revoked Table.update Table.updateWhere
    rw [List.any_map]
    congr 1
    funext row
    show decide ((if decide (row.1 = keyId) = true then _ else row.2).keyHash = keyHash) = _
    split <;> rfl
  unfold Creatable
  rw [hid, hhash]

/-- The number of keys survives where the key is active and the fault comes before its revocation
or behind the creation of its successor, and where it is revoked and nothing is created. -/
def Survives (d : Database) (userId keyId newId keyHash : String) (fault : Option Fault) : Prop :=
  ∀ existing, d.ingestKeys.get keyId = some existing → Owns d userId existing.projectId →
    match existing.status with
    | .active => Reaches fault 5 → Reaches fault 7 ∧ Creatable d existing.name newId keyHash
    | .revoked => Reaches fault 6 → ¬Creatable d existing.name newId keyHash

theorem activeKeys_replacement (hkey : d.ingestKeys.get keyId = some existing)
    (howns : Owns d userId existing.projectId) (hactive : existing.status = .active) (p : String) :
    activeKeys (Program.run (Program.faulty exec e)
      (replacement hashKey userId now keyId newId plaintext existing) (d, fault)).2.1 p +
      (if p = existing.projectId ∧ Reaches fault 1 then 1 else 0) =
    activeKeys d p + if p = existing.projectId ∧ Reaches fault 3 ∧
      Creatable d existing.name newId (hashKey plaintext) then 1 else 0 := by
  have hcount : activeKeys (revoked d keyId now) p + (if p = existing.projectId then 1 else 0) =
      activeKeys d p := activeKeys_revoked hkey hactive p
  have hne : ¬existing.status = .revoked := by
    rw [hactive]
    decide
  have hrevoke : exec (.revokeKey keyId now) d =
      (.ok (some { existing with status := .revoked, revokedAt := some now }),
        revoked d keyId now) := by
    have hrow : (revoked d keyId now).ingestKeys.get keyId =
        some { existing with status := .revoked, revokedAt := some now } := by
      unfold revoked
      rw [Table.get_update, if_pos rfl, hkey]
      rfl
    exact congrArg (fun r => (Except.ok r, revoked d keyId now)) hrow
  have hbegins : Program.Begins exec (fun _ => True) [.revokeKey keyId now] d
      (replacement hashKey userId now keyId newId plaintext existing) (revoked d keyId now)
      (createKey hashKey userId now existing.projectId existing.name newId plaintext) := by
    unfold replacement revocation
    rw [if_neg hne]
    exact (Program.Begins.perform hrevoke trivial (.nil _ _)).bind _
  by_cases hpos : ∀ f ∈ fault, 1 ≤ f.position
  -- the revocation is done, and the rest is the creation with what remains of the fault
  · have hreach : Reaches fault 1 := fun f hf => (hpos f hf).trans (Nat.le_add_right _ _)
    have hlater : Reaches (later 1 fault) 2 ↔ Reaches fault 3 := reaches_later hpos
    rw [hbegins.run_of_le hpos, List.length_singleton, activeKeys_createKey (owns_revoked.mpr howns),
      ← hcount]
    simp only [hlater, creatable_revoked, hreach, and_true]
    omega
  · -- the fault comes with the revocation itself
    push Not at hpos
    obtain ⟨⟨n, applied⟩, hmem, hlt⟩ := hpos
    obtain rfl : n = 0 := Nat.lt_one_iff.mp hlt
    have hno : ¬Reaches fault 3 := by
      intro hreach
      have hdone : 3 ≤ 0 + applied.toNat := hreach _ hmem
      have happlied := applied.toNat_le
      omega
    have hnone : ¬(p = existing.projectId ∧ Reaches fault 3 ∧
        Creatable d existing.name newId (hashKey plaintext)) := fun h => hno h.2.1
    rw [if_neg hnone, Option.mem_def.mp hmem]
    unfold replacement revocation
    rw [if_neg hne]
    cases applied with
    | false =>
      have hearly : ¬(p = existing.projectId ∧ Reaches (some ⟨0, false⟩) 1) :=
        fun h => absurd h.2 (by decide)
      rw [if_neg hearly]
      rfl
    | true =>
      have hlate : Reaches (some ⟨0, true⟩) 1 := by decide
      have hif : (if p = existing.projectId ∧ Reaches (some ⟨0, true⟩) 1 then 1 else 0) =
          if p = existing.projectId then 1 else 0 := if_congr (and_iff_left hlate) rfl rfl
      rw [hif]
      exact hcount

theorem not_reaches_of_lt {f : Fault} (hf : fault = some f) (hlt : f.position < 4) {n : ℕ}
    (hn : 5 ≤ n) : ¬Reaches fault n := by
  intro hreach
  have hdone := hreach f hf
  have happlied := f.applied.toNat_le
  unfold Fault.done at hdone
  omega

section Rotate

variable (hashKey userId now e d keyId newId plaintext fault)

def rotated : Database :=
  (Program.run (Program.faulty exec e) (rotateKey hashKey userId now keyId newId plaintext)
    (d, fault)).2.1

/-- A rotation leaves every project with as many active keys. -/
def KeepsKeys : Prop := ∀ projectId,
  activeKeys (rotated hashKey userId now e d keyId newId plaintext fault) projectId =
    activeKeys d projectId

variable {hashKey userId now e d keyId newId plaintext fault}

theorem rotated_cases (e : Exn) (fault : Option Fault)
    (hkey : d.ingestKeys.get keyId = some existing) (howns : Owns d userId existing.projectId) :
    (∃ f, fault = some f ∧ f.position < 4 ∧
      rotated hashKey userId now e d keyId newId plaintext fault = d) ∨
    (∀ f ∈ fault, 4 ≤ f.position) ∧ rotated hashKey userId now e d keyId newId plaintext fault =
      (Program.run (Program.faulty exec e)
        (replacement hashKey userId now keyId newId plaintext existing) (d, later 4 fault)).2.1 := by
  have hbegins : Program.Begins exec (· = d)
      [.getById keyId, .getProject existing.projectId, .getById keyId, .getProject existing.projectId]
      d (rotateKey hashKey userId now keyId newId plaintext) d
      (replacement hashKey userId now keyId newId plaintext existing) := rotateKey_begins hkey howns
  unfold rotated
  obtain ⟨f, x, hf, hlt, hx, hrun⟩ | ⟨hpos, hrun⟩ := hbegins.run_cases (e := e) rotateKey_bare rfl fault
  · rw [hrun]
    exact .inl ⟨f, hf, hlt, hx⟩
  · rw [hrun]
    exact .inr ⟨hpos, rfl⟩

theorem activeKeys_rotated_active (hkey : d.ingestKeys.get keyId = some existing)
    (howns : Owns d userId existing.projectId) (hactive : existing.status = .active) (p : String) :
    activeKeys (rotated hashKey userId now e d keyId newId plaintext fault) p +
      (if p = existing.projectId ∧ Reaches fault 5 then 1 else 0) =
    activeKeys d p + if p = existing.projectId ∧ Reaches fault 7 ∧
      Creatable d existing.name newId (hashKey plaintext) then 1 else 0 := by
  obtain ⟨f, hf, hlt, hrun⟩ | ⟨hpos, hrun⟩ := rotated_cases e fault hkey howns
  · have hrevoke : ¬Reaches fault 5 := not_reaches_of_lt hf hlt (by decide)
    have hcreate : ¬Reaches fault 7 := not_reaches_of_lt hf hlt (by decide)
    rw [hrun]
    simp only [hrevoke, hcreate, false_and, and_false, if_false]
  · have hrevoke : Reaches (later 4 fault) 1 ↔ Reaches fault 5 := reaches_later hpos
    have hcreate : Reaches (later 4 fault) 3 ↔ Reaches fault 7 := reaches_later hpos
    rw [hrun]
    simp only [← hrevoke, ← hcreate]
    exact activeKeys_replacement hkey howns hactive p

theorem activeKeys_rotated_revoked (hkey : d.ingestKeys.get keyId = some existing)
    (howns : Owns d userId existing.projectId) (hrevoked : existing.status = .revoked) (p : String) :
    activeKeys (rotated hashKey userId now e d keyId newId plaintext fault) p =
    activeKeys d p + if p = existing.projectId ∧ Reaches fault 6 ∧
      Creatable d existing.name newId (hashKey plaintext) then 1 else 0 := by
  obtain ⟨f, hf, hlt, hrun⟩ | ⟨hpos, hrun⟩ := rotated_cases e fault hkey howns
  · have hcreate : ¬Reaches fault 6 := not_reaches_of_lt hf hlt (by decide)
    rw [hrun, if_neg fun h => hcreate h.2.1]
    rfl
  · have hcreate : Reaches (later 4 fault) 2 ↔ Reaches fault 6 := reaches_later hpos
    have hskip : replacement hashKey userId now keyId newId plaintext existing =
        createKey hashKey userId now existing.projectId existing.name newId plaintext := by
      unfold replacement revocation
      rw [if_pos hrevoked]
      rfl
    rw [hrun, hskip]
    simp only [← hcreate]
    exact activeKeys_createKey howns p

/-- A rotation keeps the number of active keys of every project exactly where the key is active
and the fault, if there is one, comes before its revocation or behind the creation of its successor,
or where nothing is created for a key that is revoked already. -/
theorem keepsKeys_iff : KeepsKeys hashKey userId now e d keyId newId plaintext fault ↔
    Survives d userId keyId newId (hashKey plaintext) fault := by
  unfold KeepsKeys Survives
  by_cases hfound : ∃ existing, d.ingestKeys.get keyId = some existing ∧
      Owns d userId existing.projectId
  · obtain ⟨existing, hkey, howns⟩ := hfound
    have honly : ∀ P : IngestKeyRecord → Prop, (∀ other, d.ingestKeys.get keyId = some other →
        Owns d userId other.projectId → P other) ↔ P existing := by
      intro P
      refine ⟨fun h => h existing hkey howns, fun h other hother _ => ?_⟩
      rw [hkey] at hother
      rwa [← Option.some.inj hother]
    rw [honly]
    cases hstatus : existing.status with
    -- the revocation takes one away, which the creation has to give back
    | active =>
      have hcount : ∀ p, activeKeys (rotated hashKey userId now e d keyId newId plaintext fault) p +
          (if p = existing.projectId ∧ Reaches fault 5 then 1 else 0) =
          activeKeys d p + if p = existing.projectId ∧ Reaches fault 7 ∧
            Creatable d existing.name newId (hashKey plaintext) then 1 else 0 :=
        activeKeys_rotated_active hkey howns hstatus
      have hmono : Reaches fault 7 → Reaches fault 5 :=
        fun h f hf => (show 5 ≤ 7 by decide).trans (h f hf)
      dsimp only
      constructor
      · intro hkeeps hreach
        have hproject := hcount existing.projectId
        have hlost : existing.projectId = existing.projectId ∧ Reaches fault 5 := ⟨rfl, hreach⟩
        rw [hkeeps, if_pos hlost] at hproject
        by_contra hno
        rw [if_neg fun h => hno h.2] at hproject
        omega
      · intro hcond p
        have hproject := hcount p
        by_cases hreach : p = existing.projectId ∧ Reaches fault 5
        · rw [if_pos hreach, if_pos ⟨hreach.1, hcond hreach.2⟩] at hproject
          omega
        · rw [if_neg hreach, if_neg fun h => hreach ⟨h.1, hmono h.2.1⟩] at hproject
          exact hproject
    -- nothing to take away, so any creation is one too many
    | revoked =>
      dsimp only
      constructor
      · intro hkeeps hreach hcreatable
        have hproject := hkeeps existing.projectId
        rw [activeKeys_rotated_revoked hkey howns hstatus,
          if_pos ⟨rfl, hreach, hcreatable⟩] at hproject
        omega
      · intro hcond p
        rw [activeKeys_rotated_revoked hkey howns hstatus,
          if_neg fun h => hcond h.2.1 h.2.2]
        rfl
  -- an unknown or foreign key is refused before anything is written
  · have hstays : rotated hashKey userId now e d keyId newId plaintext fault = d :=
      run_rotateKey_of_not_found fun existing hkey howns => hfound ⟨existing, hkey, howns⟩
    exact iff_of_true (fun p => congrArg (fun x => activeKeys x p) hstays)
      fun existing hkey howns => absurd ⟨existing, hkey, howns⟩ hfound

end Rotate

end Run

section Sample

def sampleProject : ProjectRecord := { name := "web", userId := some "u1", createdAt := 1 }

def sampleKey (status : KeyStatus) : IngestKeyRecord :=
  { projectId := "p1", name := "main", keyHash := "h1", last4 := some "aaaa", status := status,
    createdAt := 1 }

/-- One project with one key. -/
def sample (status : KeyStatus) : Database where
  projects := ⟨[("p1", sampleProject)], List.nodup_singleton _⟩
  ingestKeys := ⟨[("k1", sampleKey status)], List.nodup_singleton _⟩
  incidents := .empty
  events := []
  projectModels := []
  transport := { rows := .empty, queue := [] }
  redis := .empty 0

/-- An exception where the new key is written leaves the project without a key, and rotating a
revoked key adds one. -/
theorem rotation_changes_count :
    ¬KeepsKeys id "u1" 5 integrityError (sample .active) "k1" "k2" "secret" (some ⟨6, false⟩) ∧
      ¬KeepsKeys id "u1" 5 integrityError (sample .revoked) "k1" "k2" "secret" none := by
  constructor
  · intro hkeeps
    exact absurd (hkeeps "p1") (by decide +kernel)
  · intro hkeeps
    exact absurd (hkeeps "p1") (by decide +kernel)

end Sample

end Rheonic.KeyRotation
