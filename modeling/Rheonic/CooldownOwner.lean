import Rheonic.BackendSteps

namespace Rheonic.CooldownOwner
open CommandProgram Redis Keys PyText ProtectActionStore

inductive Step
  | set (blockedUntilMs cooldownSeconds : ℤ) (requestId : Option String)
  | clear (requestId : Option String)

/-- The store, and the request id of the most recent call that set the cooldown. -/
structure History where
  store : Store
  established : Option (Option String) := none

section Calls

variable (p : String)

/-- A call at a time. -/
def History.after (x : History) (t : ℕ) : Step → History
  | .set blockedUntilMs cooldownSeconds requestId =>
    { store := (run (setBlockCooldown p blockedUntilMs cooldownSeconds requestId)
        (x.store.advance t)).2
      established := some requestId }
  | .clear requestId =>
    { x with store := (run (clearBlockCooldown p requestId) (x.store.advance t)).2 }

/-- The histories of a scope that begin without a cooldown. -/
inductive Reachable : History → Prop
  | start (s : Store) (hmark : s.live (cooldownKey p) = none)
      (howner : s.live (cooldownOwnerKey p) = none) : Reachable { store := s }
  | call {x : History} (hreach : Reachable x) (t : ℕ) (hclock : x.store.clock ≤ t) (step : Step) :
      Reachable (x.after p t step)

def Active (s : Store) : Prop := (s.lookup (cooldownKey p)).isSome

instance (s : Store) : Decidable (Active p s) := inferInstanceAs (Decidable (_ = true))

/-- Where the call of a request removes a running cooldown, the request has set it. -/
def ClearsOwn (x : History) (t : ℕ) (r : String) : Prop :=
  Active p (x.store.advance t) →
    ¬Active p (run (clearBlockCooldown p (some r)) (x.store.advance t)).2 →
      x.established = some (some r)

/-- No cooldown is running, or the call that set it named a request; the empty name counts as one
where no earlier owner is left. -/
def Named (x : History) (t : ℕ) : Prop :=
  Active p (x.store.advance t) → ∃ r, x.established = some (some r) ∧
    (r = "" → (x.store.advance t).lookup (cooldownOwnerKey p) = none)

/-- What the keys of the cooldown and of its owner have to do with the last call that set them. -/
structure Linked (x : History) : Prop where
  marked : (x.store.live (cooldownKey p)).isSome → x.established.isSome
  owner : ∀ v, x.store.lookup (cooldownOwnerKey p) = some v → ∃ r, r ≠ "" ∧ v = .text (.str r)
  named : ∀ r, r ≠ "" → x.established = some (some r) → ∀ e, x.store.live (cooldownKey p) = some e →
    x.store.live (cooldownOwnerKey p) = some ⟨.text (.str r), e.deadline⟩

end Calls

section Invariant

variable {p : String} {x : History} {s : Store} {t : ℕ}

theorem Linked.advance (h : Linked p x) (ht : x.store.clock ≤ t) :
    Linked p { x with store := x.store.advance t } where
  marked hsome := by
    rw [TtlStore.Store.live_advance _ ht] at hsome
    exact h.marked (Option.isSome_of_isSome_filter _ _ hsome)
  owner v hv := by
    rw [TtlStore.Store.lookup, TtlStore.Store.live_advance _ ht, Option.map_eq_some_iff] at hv
    obtain ⟨e, he, rfl⟩ := hv
    apply h.owner
    rw [TtlStore.Store.lookup, (Option.filter_eq_some_iff.mp he).1]
    rfl
  named r hr hlast e he := by
    rw [TtlStore.Store.live_advance _ ht, Option.filter_eq_some_iff] at he
    rw [TtlStore.Store.live_advance _ ht, h.named r hr hlast e he.1, Option.filter_some]
    exact if_pos he.2

theorem live_put (s : Store) (k : String) (v : Value) {ms : ℕ} (hms : 0 < ms) :
    (s.put k v ms).live k = some ⟨v, some (s.clock + ms)⟩ := by
  rw [TtlStore.Store.put, TtlStore.Store.live_setEntry_self, Option.filter_some, if_pos]
  simpa [TtlStore.Entry.alive] using hms

theorem run_setBlockCooldown_eq (p : String) (blockedUntilMs cooldownSeconds : ℤ)
    (requestId : Option String) (s : Store) : ∃ ms, 0 < ms ∧
      (run (setBlockCooldown p blockedUntilMs cooldownSeconds requestId) s).2 =
        match truthy requestId with
        | none => s.put (cooldownKey p) (.text (.str (toString blockedUntilMs))) ms
        | some r => (s.put (cooldownKey p) (.text (.str (toString blockedUntilMs))) ms).put
            (cooldownOwnerKey p) (.text (.str r)) ms := by
  have hpos : ¬(max cooldownSeconds 1).toNat = 0 := by omega
  have hset : ∀ (k : String) (v : Text) (t : Store), run (set k v (max cooldownSeconds 1).toNat) t =
      (.ok (), t.put k (.text v) ((max cooldownSeconds 1).toNat * 1000)) := by
    intro k v t
    rw [run, Redis.set, Program.run_perform, exec, if_neg hpos]
  refine ⟨(max cooldownSeconds 1).toNat * 1000, by omega, ?_⟩
  unfold setBlockCooldown whenRequestId
  rw [run, Program.run_tryCatch, Program.run_bind_eq exec (hset _ _ s)]
  cases truthy requestId with
  | none => rfl
  | some r =>
    have howner := hset (cooldownOwnerKey p) (.str r) (s.put (cooldownKey p)
      (.text (.str (toString blockedUntilMs))) ((max cooldownSeconds 1).toNat * 1000))
    rw [run] at howner
    dsimp only
    rw [howner]

theorem truthy_eq_some_iff {requestId : Option String} {r : String} :
    truthy requestId = some r ↔ requestId = some r ∧ r ≠ "" := by
  unfold truthy
  rw [Option.filter_eq_some_iff, decide_eq_true_eq]

theorem Linked.set (h : Linked p x) (blockedUntilMs cooldownSeconds : ℤ)
    (requestId : Option String) :
    Linked p ⟨(run (setBlockCooldown p blockedUntilMs cooldownSeconds requestId) x.store).2,
      some requestId⟩ := by
  have hkeys := cooldownKey_ne_ownerKey p p
  obtain ⟨ms, hms, hstore⟩ := run_setBlockCooldown_eq p blockedUntilMs cooldownSeconds requestId
    x.store
  rw [hstore]
  cases htruthy : truthy requestId with
  | none =>
    refine ⟨fun _ => rfl, ?_, ?_⟩
    · intro v hv
      rw [TtlStore.Store.lookup_put _ _ _ _ hms, if_neg hkeys.symm] at hv
      exact h.owner v hv
    · intro r hr hlast
      have hsome := truthy_eq_some_iff.mpr ⟨Option.some.inj hlast, hr⟩
      rw [htruthy] at hsome
      exact absurd hsome (by simp)
  | some owner =>
    refine ⟨fun _ => rfl, ?_, ?_⟩
    · intro v hv
      rw [TtlStore.Store.lookup_put _ _ _ _ hms, if_pos rfl] at hv
      exact ⟨owner, (truthy_eq_some_iff.mp htruthy).2, (Option.some.inj hv).symm⟩
    · intro r hr hlast e he
      have hsome := truthy_eq_some_iff.mpr ⟨Option.some.inj hlast, hr⟩
      have howner : owner = r := Option.some.inj (htruthy.symm.trans hsome)
      have hother : ∀ (t : Store) (v : Value),
          (t.put (cooldownOwnerKey p) v ms).live (cooldownKey p) = t.live (cooldownKey p) :=
        fun t v => TtlStore.Store.live_setEntry_ne t _ hkeys
      dsimp only at he ⊢
      rw [hother, live_put _ _ _ hms] at he
      rw [live_put _ _ _ hms, ← Option.some.inj he, howner]
      rfl

/-- The owner as a call that clears the cooldown reads it. -/
def ownerOf (p : String) (s : Store) : String :=
  match s.lookup (cooldownOwnerKey p) with
  | some (.text (.str r)) => r
  | _ => ""

def cleared (p : String) (s : Store) : Store :=
  (s.alter (cooldownKey p) none).alter (cooldownOwnerKey p) none

theorem run_clearBlockCooldown_eq
    (howner : ∀ v, s.lookup (cooldownOwnerKey p) = some v → ∃ r, r ≠ "" ∧ v = .text (.str r))
    (r : String) : (run (clearBlockCooldown p (some r)) s).2 =
      if ownerOf p s = r then cleared p s else s := by
  have hread : run (get (cooldownOwnerKey p)) s =
      (.ok (if ownerOf p s = "" then none else some (.str (ownerOf p s))), s) := by
    apply run_get
    unfold ownerOf
    cases hlookup : s.lookup (cooldownOwnerKey p) with
    | none => rfl
    | some v =>
      obtain ⟨owner, hne, rfl⟩ := howner v hlookup
      dsimp only
      rw [if_neg hne]
      rfl
  have hname : ((if ownerOf p s = "" then none else some (Text.str (ownerOf p s))).bind
      plainText).getD "" = ownerOf p s := by
    by_cases hempty : ownerOf p s = ""
    · rw [if_pos hempty, hempty]
      rfl
    · rw [if_neg hempty]
      rfl
  have hdelete : ∀ (k : String) (t : Store), run (delete k) t =
      (.ok (if (t.lookup k).isSome then 1 else 0 : ℕ), t.alter k none) := fun _ _ => rfl
  unfold clearBlockCooldown
  rw [run, Program.run_tryCatch, Program.run_bind_eq exec hread, hname]
  by_cases hr : ownerOf p s = r
  · rw [if_neg (not_not.mpr hr), if_pos hr, Program.run_bind_eq exec (hdelete _ _),
      Program.run_bind_eq exec (hdelete _ _)]
    rfl
  · rw [if_pos hr, if_neg hr]
    rfl

theorem lookup_cleared (p : String) (s : Store) : (cleared p s).live (cooldownKey p) = none ∧
    (cleared p s).lookup (cooldownOwnerKey p) = none := by
  constructor
  · rw [cleared, TtlStore.Store.alter, TtlStore.Store.live_setEntry_ne _ _ (cooldownKey_ne_ownerKey p p),
      TtlStore.Store.live_alter]
    rfl
  · rw [cleared, TtlStore.Store.lookup_alter, if_pos rfl]

theorem Linked.clear (h : Linked p x) (requestId : Option String) :
    Linked p { x with store := (run (clearBlockCooldown p requestId) x.store).2 } := by
  have hcleared : Linked p { x with store := cleared p x.store } := by
    obtain ⟨hmark, howner⟩ := lookup_cleared p x.store
    refine ⟨?_, ?_, ?_⟩
    · intro hsome
      rw [hmark] at hsome
      exact absurd hsome (by decide)
    · intro v hv
      rw [howner] at hv
      exact absurd hv (by simp)
    · intro r _ _ e he
      rw [hmark] at he
      exact absurd he (by simp)
  cases requestId with
  | none => exact hcleared
  | some r =>
    rw [run_clearBlockCooldown_eq h.owner]
    by_cases hr : ownerOf p x.store = r
    · rw [if_pos hr]
      exact hcleared
    · rw [if_neg hr]
      exact h

theorem Reachable.linked (h : Reachable p x) : Linked p x := by
  induction h with
  | start s hmark howner =>
    refine ⟨?_, ?_, ?_⟩
    · intro hsome
      rw [hmark] at hsome
      exact absurd hsome (by decide)
    · intro v hv
      rw [TtlStore.Store.lookup, howner] at hv
      exact absurd hv (by simp)
    · intro r _ hlast
      exact absurd hlast (by simp)
  | call hreach t hclock step ih =>
    cases step with
    | set blockedUntilMs cooldownSeconds requestId =>
      exact (ih.advance hclock).set blockedUntilMs cooldownSeconds requestId
    | clear requestId => exact (ih.advance hclock).clear requestId

/-- In every history of a scope, no request clears a cooldown that it has not set exactly where the
running cooldown was set by a call that named its request. -/
theorem clears_own_iff (hreach : Reachable p x) (ht : x.store.clock ≤ t) :
    (∀ r, ClearsOwn p x t r) ↔ Named p x t := by
  have hlinked := hreach.linked.advance ht
  constructor
  · intro hown hactive
    have hremoved : ¬Active p (run (clearBlockCooldown p (some (ownerOf p (x.store.advance t))))
        (x.store.advance t)).2 := by
      rw [run_clearBlockCooldown_eq hlinked.owner, if_pos rfl, Active, TtlStore.Store.lookup,
        (lookup_cleared p _).1]
      exact Bool.false_ne_true
    refine ⟨_, hown _ hactive hremoved, ?_⟩
    intro hempty
    cases hlookup : (x.store.advance t).lookup (cooldownOwnerKey p) with
    | none => rfl
    | some v =>
      obtain ⟨owner, hne, rfl⟩ := hlinked.owner v hlookup
      rw [ownerOf, hlookup] at hempty
      exact absurd hempty hne
  · intro hnamed r hactive hremoved
    have howner : ownerOf p (x.store.advance t) = r := by
      by_contra hother
      rw [run_clearBlockCooldown_eq hlinked.owner, if_neg hother] at hremoved
      exact hremoved hactive
    obtain ⟨named, hlast, hempty⟩ := hnamed hactive
    have hname : ownerOf p (x.store.advance t) = named := by
      by_cases hne : named = ""
      · rw [ownerOf, hempty hne, hne]
      · obtain ⟨e, he, _⟩ := Option.map_eq_some_iff.mp (Option.isSome_iff_exists.mp hactive).choose_spec
        have hlive := hlinked.named named hne hlast e he
        dsimp only at hlive
        rw [ownerOf, TtlStore.Store.lookup, hlive]
        rfl
    rw [hlast, ← hname, howner]

def History.afterAll (p : String) : History → List (ℕ × Step) → History
  | x, [] => x
  | x, (t, step) :: rest => afterAll p (x.after p t step) rest

/-- A cooldown of "r1", and one that no request has set. -/
def sampleCalls : List (ℕ × Step) :=
  [(1000, .set 61000 60 (some "r1")), (2000, .set 62000 60 none)]

/-- The request "r1" clears the cooldown that was set without a request. -/
theorem stale_owner_clears :
    ¬ClearsOwn "p1:openai" (History.afterAll "p1:openai" { store := .empty 0 } sampleCalls) 3000 "r1" := by
  intro hown
  have hlast := hown rfl (by decide)
  exact absurd hlast (by decide)

/-- A cooldown of "r1" is cleared by "r1" only. -/
theorem clears_own_sample :
    Reachable "p1:openai"
      (History.after "p1:openai" { store := .empty 0 } 1000 (.set 61000 60 (some "r1"))) ∧
    ∀ r, ClearsOwn "p1:openai"
      (History.after "p1:openai" { store := .empty 0 } 1000 (.set 61000 60 (some "r1"))) 3000 r := by
  have hreach : Reachable "p1:openai"
      (History.after "p1:openai" { store := .empty 0 } 1000 (.set 61000 60 (some "r1"))) :=
    .call (.start _ rfl rfl) 1000 (by decide) _
  have hclock : (History.after "p1:openai" { store := .empty 0 } 1000
      (.set 61000 60 (some "r1"))).store.clock ≤ 3000 := by decide
  exact ⟨hreach, (clears_own_iff hreach hclock).mpr fun _ => ⟨"r1", rfl, by decide⟩⟩

end Invariant

end Rheonic.CooldownOwner
