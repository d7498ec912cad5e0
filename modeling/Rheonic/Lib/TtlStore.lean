import Mathlib

namespace TtlStore

variable {K V : Type}

/-- A stored value and the time from which it is gone, if it expires at all. -/
structure Entry (V : Type) where
  value : V
  deadline : Option ℕ

def Entry.alive (e : Entry V) (now : ℕ) : Bool := e.deadline.all (now < ·)

/-- A keyed store with its clock. Expired entries may still lie in `entry`; no read sees them. -/
structure Store (K V : Type) where
  clock : ℕ
  entry : K → Option (Entry V)

namespace Store

def empty (now : ℕ) : Store K V := ⟨now, fun _ => none⟩

def live (s : Store K V) (k : K) : Option (Entry V) := (s.entry k).filter (·.alive s.clock)

def lookup (s : Store K V) (k : K) : Option V := (s.live k).map Entry.value

def advance (s : Store K V) (t : ℕ) : Store K V := { s with clock := t }

/-- No key that is live now expires by `t`. -/
def Lasts (s : Store K V) (t : ℕ) : Prop :=
  ∀ k e, s.live k = some e → e.alive t = true

@[simp] theorem lookup_empty (now : ℕ) (k : K) : (empty now : Store K V).lookup k = none := rfl

@[simp] theorem advance_clock (s : Store K V) (t : ℕ) : (s.advance t).clock = t := rfl

@[simp] theorem advance_entry (s : Store K V) (t : ℕ) (k : K) :
    (s.advance t).entry k = s.entry k := rfl

theorem alive_of_live {s : Store K V} {k : K} {e : Entry V} (h : s.live k = some e) :
    e.alive s.clock = true := by
  simp only [live, Option.filter_eq_some_iff] at h
  exact h.2

theorem alive_of_le {e : Entry V} {t t' : ℕ} (h : t ≤ t') (ha : e.alive t' = true) :
    e.alive t = true := by
  simp only [Entry.alive, Option.all_eq_true, decide_eq_true_eq] at ha ⊢
  exact fun d hd => h.trans_lt (ha d hd)

theorem live_advance (s : Store K V) {t : ℕ} (ht : s.clock ≤ t) (k : K) :
    (s.advance t).live k = (s.live k).filter (·.alive t) := by
  cases he : s.entry k with
  | none => simp [live, he]
  | some e =>
    by_cases ha : e.alive t = true
    · simp [live, he, Option.filter_some, ha, alive_of_le ht ha]
    · by_cases hs : e.alive s.clock = true <;> simp [live, he, Option.filter_some, ha, hs]

theorem lookup_advance (s : Store K V) {t : ℕ} (ht : s.clock ≤ t) (h : s.Lasts t) (k : K) :
    (s.advance t).lookup k = s.lookup k := by
  rw [lookup, live_advance s ht, lookup]
  cases hk : s.live k with
  | none => rfl
  | some e => rw [Option.filter_some, if_pos (h k e hk)]

section Write

variable [DecidableEq K]

def setEntry (s : Store K V) (k : K) (e : Option (Entry V)) : Store K V :=
  { s with entry := Function.update s.entry k e }

/-- Write a value that lasts `ms`. -/
def put (s : Store K V) (k : K) (v : V) (ms : ℕ) : Store K V :=
  s.setEntry k (some ⟨v, some (s.clock + ms)⟩)

/-- Change or remove the value of a key; a live key keeps its deadline, a new one has none. -/
def alter (s : Store K V) (k : K) (v : Option V) : Store K V :=
  s.setEntry k (v.map fun v => ⟨v, (s.live k).bind Entry.deadline⟩)

/-- Give a live key `ms` from now. -/
def expireIn (s : Store K V) (k : K) (ms : ℕ) : Store K V :=
  s.setEntry k ((s.live k).map fun e => ⟨e.value, some (s.clock + ms)⟩)

@[simp] theorem setEntry_clock (s : Store K V) (k : K) (e : Option (Entry V)) :
    (s.setEntry k e).clock = s.clock := rfl

@[simp] theorem put_clock (s : Store K V) (k : K) (v : V) (ms : ℕ) :
    (s.put k v ms).clock = s.clock := rfl

@[simp] theorem alter_clock (s : Store K V) (k : K) (v : Option V) :
    (s.alter k v).clock = s.clock := rfl

@[simp] theorem expireIn_clock (s : Store K V) (k : K) (ms : ℕ) :
    (s.expireIn k ms).clock = s.clock := rfl

@[simp] theorem setEntry_entry_self (s : Store K V) (k : K) (e : Option (Entry V)) :
    (s.setEntry k e).entry k = e := by simp [setEntry]

theorem setEntry_entry_ne (s : Store K V) {k k' : K} (e : Option (Entry V)) (h : k' ≠ k) :
    (s.setEntry k e).entry k' = s.entry k' := by simp [setEntry, h]

theorem live_setEntry_self (s : Store K V) (k : K) (e : Option (Entry V)) :
    (s.setEntry k e).live k = e.filter (·.alive s.clock) := by simp [live]

theorem lookup_setEntry_ne (s : Store K V) {k k' : K} (e : Option (Entry V)) (h : k' ≠ k) :
    (s.setEntry k e).lookup k' = s.lookup k' := by
  simp [lookup, live, setEntry_entry_ne s e h]

theorem lookup_put (s : Store K V) (k k' : K) (v : V) {ms : ℕ} (h : 0 < ms) :
    (s.put k v ms).lookup k' = if k' = k then some v else s.lookup k' := by
  split
  · subst k'
    simp [lookup, put, live_setEntry_self, Entry.alive, h]
  · exact lookup_setEntry_ne s _ ‹_›

theorem live_setEntry_ne (s : Store K V) {k k' : K} (e : Option (Entry V)) (h : k' ≠ k) :
    (s.setEntry k e).live k' = s.live k' := by
  simp [live, setEntry_entry_ne s e h]

theorem live_alter (s : Store K V) (k : K) (v : Option V) :
    (s.alter k v).live k = v.map fun v => ⟨v, (s.live k).bind Entry.deadline⟩ := by
  have hkeep : ((s.live k).bind Entry.deadline).all (s.clock < ·) = true := by
    cases h : s.live k with
    | none => rfl
    | some e => exact alive_of_live h
  cases v with
  | none => simp [alter, live_setEntry_self]
  | some v => simp [alter, live_setEntry_self, Option.filter_some, Entry.alive, hkeep]

theorem live_expireIn (s : Store K V) (k : K) {ms : ℕ} (h : 0 < ms) :
    (s.expireIn k ms).live k = (s.live k).map fun e => ⟨e.value, some (s.clock + ms)⟩ := by
  rw [expireIn, live_setEntry_self]
  cases s.live k with
  | none => rfl
  | some e => simp [Option.filter_some, Entry.alive, h]

theorem lookup_alter (s : Store K V) (k k' : K) (v : Option V) :
    (s.alter k v).lookup k' = if k' = k then v else s.lookup k' := by
  split
  · subst k'
    rw [lookup, live_alter]
    cases v <;> rfl
  · exact lookup_setEntry_ne s _ ‹_›

theorem lookup_expireIn (s : Store K V) (k k' : K) {ms : ℕ} (h : 0 < ms) :
    (s.expireIn k ms).lookup k' = s.lookup k' := by
  by_cases hk : k' = k
  · subst k'
    rw [lookup, live_expireIn s k h, lookup, Option.map_map]
    rfl
  · exact lookup_setEntry_ne s _ hk

/-- A value written for `ms` is read until `ms` later and not after. -/
theorem lookup_advance_put (s : Store K V) (k : K) (v : V) (ms t : ℕ) :
    ((s.put k v ms).advance t).lookup k = if t < s.clock + ms then some v else none := by
  split <;> simp [lookup, live, put, Entry.alive, *]

end Write

end Store

end TtlStore
