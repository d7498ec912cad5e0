import Rheonic.Lib.Program
import Rheonic.Lib.TtlStore
import Rheonic.Lib.SortedSet
import Rheonic.Lib.PyText

namespace Rheonic
open CommandProgram

/-- What a backend function may raise. -/
inductive Exn where
  | http (status : ℕ) (detail : String)
  | response (message : String)
  | value (message : String)
  deriving DecidableEq, Repr

/-- One finalized outcome, as written with `json.dumps`. The time is in milliseconds. -/
structure OutcomePayload where
  decision : String
  reason : String
  source : String
  ts : ℕ
  deriving DecidableEq, Repr

namespace Redis

/-- A stored string. A JSON document is kept as the payload it encodes. -/
inductive Text where
  | str (s : String)
  | json (p : OutcomePayload)
  deriving DecidableEq, Repr

inductive Value where
  | text (t : Text)
  | zset (z : SortedSet String)

abbrev Store := TtlStore.Store String Value

/-- The commands of the client wrapper; times to live are in seconds. -/
inductive Cmd where
  | get (key : String)
  | set (key : String) (value : Text) (ttl : ℕ)
  | setNxEx (key : String) (value : Text) (ttl : ℕ)
  | incrby (key : String) (amount : ℤ)
  | expire (key : String) (ttl : ℕ)
  | delete (key : String)
  | zadd (key member : String) (score : ℤ)
  | zrem (key member : String)
  | zremrangebyscore (key : String) (min max : ℤ)
  | zcard (key : String)
  | zrangebyscore (key : String) (min : ℤ)
  deriving DecidableEq

namespace Cmd

def key : Cmd → String
  | get k | set k _ _ | setNxEx k _ _ | incrby k _ | expire k _ | delete k | zadd k _ _
  | zrem k _ | zremrangebyscore k _ _ | zcard k | zrangebyscore k _ => k

abbrev Reply : Cmd → Type
  | get _ => Option Text
  | set _ _ _ => Unit
  | setNxEx _ _ _ | expire _ _ => Bool
  | incrby _ _ => ℤ
  | delete _ | zadd _ _ _ | zrem _ _ | zremrangebyscore _ _ _ | zcard _ => ℕ
  | zrangebyscore _ _ => List String

end Cmd

def wrongType : Exn :=
  .response "WRONGTYPE Operation against a key holding the wrong kind of value"

def notAnInteger : Exn := .response "ERR value is not an integer or out of range"

def invalidExpire : Exn := .response "ERR invalid expire time in 'set' command"

/-- The number a string holds if it is written as Redis writes numbers. -/
def canonicalInt (s : String) : Option ℤ :=
  (PyText.parseNumber s).filter fun n => toString n = s

def counterOf : Option Value → Option ℤ
  | none => some 0
  | some (.text (.str s)) => canonicalInt s
  | some _ => none

def zsetOf : Option Value → Option (SortedSet String)
  | none => some .empty
  | some (.zset z) => some z
  | some _ => none

/-- A sorted set that has become empty is removed with its key. -/
def ofZset (z : SortedSet String) : Option Value :=
  if z.entries = [] then none else some (.zset z)

def inRange (n : ℤ) : Bool := -2 ^ 63 ≤ n && n < 2 ^ 63

/-- The documented effect of one command. -/
def exec : (c : Cmd) → Store → Except Exn c.Reply × Store
  | .get k, s =>
    match s.lookup k with
    | none => (.ok none, s)
    | some (.text t) => (.ok (some t), s)
    | some (.zset _) => (.error wrongType, s)
  | .set k v ttl, s =>
    if ttl = 0 then (.error invalidExpire, s) else (.ok (), s.put k (.text v) (ttl * 1000))
  | .setNxEx k v ttl, s =>
    if ttl = 0 then (.error invalidExpire, s)
    else if (s.lookup k).isSome then (.ok false, s)
    else (.ok true, s.put k (.text v) (ttl * 1000))
  | .incrby k amount, s =>
    match counterOf (s.lookup k) with
    | none => (.error notAnInteger, s)
    | some n =>
      if inRange (n + amount) then
        (.ok (n + amount), s.alter k (some (.text (.str (toString (n + amount))))))
      else (.error notAnInteger, s)
  | .expire k ttl, s =>
    (.ok (s.lookup k).isSome, if ttl = 0 then s.alter k none else s.expireIn k (ttl * 1000))
  | .delete k, s => (.ok (if (s.lookup k).isSome then 1 else 0 : ℕ), s.alter k none)
  | .zadd k member score, s =>
    match zsetOf (s.lookup k) with
    | none => (.error wrongType, s)
    | some z =>
      (.ok (if member ∈ z.members then 0 else 1 : ℕ), s.alter k (some (.zset (z.add member score))))
  | .zrem k member, s =>
    match zsetOf (s.lookup k) with
    | none => (.error wrongType, s)
    | some z => (.ok (if member ∈ z.members then 1 else 0 : ℕ), s.alter k (ofZset (z.remove member)))
  | .zremrangebyscore k min max, s =>
    match zsetOf (s.lookup k) with
    | none => (.error wrongType, s)
    | some z =>
      (.ok (z.card - (z.removeRange min max).card), s.alter k (ofZset (z.removeRange min max)))
  | .zcard k, s =>
    match zsetOf (s.lookup k) with
    | none => (.error wrongType, s)
    | some z => (.ok z.card, s)
  | .zrangebyscore k min, s =>
    match zsetOf (s.lookup k) with
    | none => (.error wrongType, s)
    | some z => (.ok (z.rangeFrom min), s)

abbrev Prog := Program Cmd Cmd.Reply Exn

def get (key : String) : Prog (Option Text) := .perform (Cmd.get key)

def set (key : String) (value : Text) (ttl : ℕ) : Prog Unit := .perform (Cmd.set key value ttl)

def setNxEx (key : String) (value : Text) (ttl : ℕ) : Prog Bool :=
  .perform (Cmd.setNxEx key value ttl)

def incrby (key : String) (amount : ℤ) : Prog ℤ := .perform (Cmd.incrby key amount)

def incr (key : String) : Prog ℤ := .perform (Cmd.incrby key 1)

def expire (key : String) (ttl : ℕ) : Prog Bool := .perform (Cmd.expire key ttl)

def delete (key : String) : Prog ℕ := .perform (Cmd.delete key)

def zadd (key member : String) (score : ℤ) : Prog ℕ := .perform (Cmd.zadd key member score)

def zrem (key member : String) : Prog ℕ := .perform (Cmd.zrem key member)

def zremrangebyscore (key : String) (min max : ℤ) : Prog ℕ :=
  .perform (Cmd.zremrangebyscore key min max)

def zcard (key : String) : Prog ℕ := .perform (Cmd.zcard key)

def zrangebyscore (key : String) (min : ℤ) : Prog (List String) :=
  .perform (Cmd.zrangebyscore key min)

/-- Runs a program against the store, at the store's clock. -/
def run {α : Type} (p : Prog α) (s : Store) : Except Exn α × Store := Program.run exec p s

theorem exec_clock (c : Cmd) (s : Store) : (exec c s).2.clock = s.clock := by
  cases c <;> simp only [exec] <;> repeat' split
  all_goals simp

theorem exec_entry_ne (c : Cmd) (s : Store) {k : String} (h : k ≠ c.key) :
    (exec c s).2.entry k = s.entry k := by
  cases c <;> simp only [exec] <;> repeat' split
  all_goals first | rfl | exact s.setEntry_entry_ne _ h

theorem lookup_eq_of_entry {s t : Store} {k : String} (hentry : s.entry k = t.entry k)
    (hclock : s.clock = t.clock) : s.lookup k = t.lookup k := by
  simp only [TtlStore.Store.lookup, TtlStore.Store.live, hentry, hclock]

theorem exec_lookup_ne (c : Cmd) (s : Store) {k : String} (h : k ≠ c.key) :
    (exec c s).2.lookup k = s.lookup k :=
  lookup_eq_of_entry (exec_entry_ne c s h) (exec_clock c s)

theorem run_entry_ne {α : Type} {p : Prog α} {P : Cmd → Prop} (h : Program.Issues P p)
    {k : String} (hk : ∀ c, P c → k ≠ c.key) (s : Store) :
    (run p s).2.entry k = s.entry k ∧ (run p s).2.clock = s.clock := by
  refine h.run_preserves exec (fun t => t.entry k = s.entry k ∧ t.clock = s.clock) ?_ ⟨rfl, rfl⟩
  intro c t hc ht
  exact ⟨(exec_entry_ne c t (hk c hc)).trans ht.1, (exec_clock c t).trans ht.2⟩

theorem exec_congr (c : Cmd) {s t : Store} (h : s.lookup c.key = t.lookup c.key) :
    (exec c s).1 = (exec c t).1 ∧
      (exec c s).2.lookup c.key = (exec c t).2.lookup c.key := by
  cases c <;> simp only [Cmd.key] at h <;> simp only [exec, Cmd.key, h]
  all_goals
    constructor
    · repeat' split
      all_goals trivial
    · repeat' split
      all_goals simp_all [TtlStore.Store.lookup_put, TtlStore.Store.lookup_alter,
        TtlStore.Store.lookup_expireIn, Nat.pos_iff_ne_zero]

theorem run_clock {α : Type} (q : Prog α) (s : Store) : (run q s).2.clock = s.clock := by
  induction q generalizing s with
  | ret a => rfl
  | raise e => rfl
  | call c f ih => exact (ih _ _).trans (exec_clock c s)

/-- Where two stores agree on every key that a program names, it answers alike on them and leaves
them in agreement. -/
theorem run_congr {α : Type} {q : Prog α} {K : String → Prop}
    (h : Program.Issues (fun c => K c.key) q) {s t : Store}
    (hst : ∀ k, K k → s.lookup k = t.lookup k) : (run q s).1 = (run q t).1 ∧
      ∀ k, K k → (run q s).2.lookup k = (run q t).2.lookup k := by
  induction h generalizing s t with
  | ret a => exact ⟨rfl, hst⟩
  | raise e => exact ⟨rfl, hst⟩
  | call c f hc _ ih =>
    obtain ⟨hreply, hlookup⟩ := exec_congr c (hst c.key hc)
    have hnext : ∀ k, K k → (exec c s).2.lookup k = (exec c t).2.lookup k := by
      intro k hk
      by_cases hkey : k = c.key
      · rw [hkey, hlookup]
      · rw [exec_lookup_ne c s hkey, exec_lookup_ne c t hkey, hst k hk]
    have hrest := ih (exec c s).1 hnext
    simp only [run, Program.run] at hrest ⊢
    rw [hreply] at hrest ⊢
    exact hrest

theorem canonicalInt_toString (n : ℤ) : canonicalInt (toString n) = some n := by
  rw [canonicalInt, PyText.parseNumber_toString]
  simp

/-- The value a counter key holds at `n`. -/
def number (n : ℤ) : Value := .text (.str (toString n))

@[simp] theorem counterOf_none : counterOf none = some 0 := rfl

@[simp] theorem counterOf_number (n : ℤ) : counterOf (some (number n)) = some n :=
  canonicalInt_toString n

@[simp] theorem zsetOf_none : zsetOf none = some .empty := rfl

@[simp] theorem zsetOf_zset (z : SortedSet String) : zsetOf (some (.zset z)) = some z := rfl

@[simp] theorem zsetOf_ofZset (z : SortedSet String) : zsetOf (ofZset z) = some z := by
  unfold ofZset
  split
  · obtain ⟨entries, nodup⟩ := z
    subst ‹entries = []›
    rfl
  · rfl

section Run

variable {α β : Type} {s s' s'' : Store} {k : String}

@[simp] theorem run_pure (a : α) : run (pure a) s = (.ok a, s) := rfl

theorem run_bind_ok {p : Prog α} {f : α → Prog β} {b : β}
    (h : run (p >>= f) s = (.ok b, s'')) :
    ∃ a s', run p s = (.ok a, s') ∧ run (f a) s' = (.ok b, s'') :=
  Program.run_bind_ok exec h

section Zset

variable {z : SortedSet String} (hz : zsetOf (s.lookup k) = some z)
include hz

theorem run_zadd (member : String) (score : ℤ) : run (zadd k member score) s =
    (.ok (if member ∈ z.members then 0 else 1 : ℕ), s.alter k (some (.zset (z.add member score)))) := by
  simp only [run, zadd, Program.run_perform, exec, hz]

theorem run_zremrangebyscore (min max : ℤ) : run (zremrangebyscore k min max) s =
    (.ok (z.card - (z.removeRange min max).card), s.alter k (ofZset (z.removeRange min max))) := by
  simp only [run, zremrangebyscore, Program.run_perform, exec, hz]

theorem run_zcard : run (zcard k) s = (.ok z.card, s) := by
  simp only [run, zcard, Program.run_perform, exec, hz]

theorem run_zrangebyscore (min : ℤ) :
    run (zrangebyscore k min) s = (.ok (z.rangeFrom min), s) := by
  simp only [run, zrangebyscore, Program.run_perform, exec, hz]

end Zset

theorem run_expire {ttl : ℕ} (h : 0 < ttl) :
    run (expire k ttl) s = (.ok (s.lookup k).isSome, s.expireIn k (ttl * 1000)) := by
  simp only [run, expire, Program.run_perform, exec, if_neg (show ¬ttl = 0 by omega)]

theorem run_get {t : Option Text} (h : s.lookup k = t.map .text) : run (get k) s = (.ok t, s) := by
  rw [run, Redis.get, Program.run_perform, exec, h]
  cases t <;> rfl

theorem get_ok {t : Option Text} (h : run (get k) s = (.ok t, s')) :
    s' = s ∧ s.lookup k = t.map .text := by
  rw [run, get, Program.run_perform, exec] at h
  split at h <;> simp_all

theorem set_ok {v : Text} {ttl : ℕ} {u : Unit} (h : run (set k v ttl) s = (.ok u, s')) :
    s'.lookup = Function.update s.lookup k (some (.text v)) := by
  rw [run, set, Program.run_perform, exec] at h
  split at h
  · simp at h
  · obtain rfl := (Prod.mk.inj h).2
    funext k'
    rw [TtlStore.Store.lookup_put _ _ _ _ (by omega), Function.update_apply]

theorem incrby_ok {amount n : ℤ} (h : run (incrby k amount) s = (.ok n, s')) :
    ∃ c, counterOf (s.lookup k) = some c ∧ n = c + amount ∧
      s'.lookup = Function.update s.lookup k (some (number (c + amount))) := by
  rw [run, incrby, Program.run_perform, exec] at h
  split at h
  · simp at h
  · next c hc =>
    split at h
    · obtain ⟨hn, rfl⟩ := Prod.mk.inj h
      refine ⟨c, hc, (Except.ok.inj hn).symm, ?_⟩
      funext k'
      rw [TtlStore.Store.lookup_alter, Function.update_apply, number]
    · simp at h

theorem expire_ok {ttl : ℕ} {b : Bool} (h : run (expire k ttl) s = (.ok b, s')) (hpos : 0 < ttl) :
    s'.lookup = s.lookup := by
  rw [run, expire, Program.run_perform, exec, if_neg (by omega)] at h
  obtain rfl := (Prod.mk.inj h).2
  funext k'
  exact TtlStore.Store.lookup_expireIn _ _ _ (by omega)

theorem zadd_ok {member : String} {score : ℤ} {n : ℕ}
    (h : run (zadd k member score) s = (.ok n, s')) :
    ∃ z, zsetOf (s.lookup k) = some z ∧
      s'.lookup = Function.update s.lookup k (some (.zset (z.add member score))) := by
  rw [run, zadd, Program.run_perform, exec] at h
  split at h
  · simp at h
  · next z hz =>
    obtain rfl := (Prod.mk.inj h).2
    refine ⟨z, hz, ?_⟩
    funext k'
    rw [TtlStore.Store.lookup_alter, Function.update_apply]

theorem zrem_ok {member : String} {n : ℕ} (h : run (zrem k member) s = (.ok n, s')) :
    ∃ z, zsetOf (s.lookup k) = some z ∧
      s'.lookup = Function.update s.lookup k (ofZset (z.remove member)) := by
  rw [run, zrem, Program.run_perform, exec] at h
  split at h
  · simp at h
  · next z hz =>
    obtain rfl := (Prod.mk.inj h).2
    refine ⟨z, hz, ?_⟩
    funext k'
    rw [TtlStore.Store.lookup_alter, Function.update_apply]

end Run

end Redis

end Rheonic
