import Rheonic.Lib.TtlStore

namespace QuietGate

/-- What has been let through for a key, and for how long the key is quiet afterwards. -/
structure Permit (K : Type) where
  key : K
  time : ℕ
  quiet : ℕ
  deriving DecidableEq, Repr

variable {K : Type}

namespace Permit

/-- When the quiet time is over. -/
def ends (p : Permit K) : ℕ := p.time + p.quiet

end Permit

/-- The key is quiet at a time. -/
def Standing (h : List (Permit K)) (k : K) (t : ℕ) : Prop := ∃ p ∈ h, p.key = k ∧ t < p.ends

/-- The newest permit comes first, and none is given in the quiet time of another of its key. -/
def Spaced (h : List (Permit K)) : Prop :=
  h.Pairwise fun later earlier => later.key = earlier.key → earlier.ends ≤ later.time

section History

variable {h : List (Permit K)} {p : Permit K} {k : K} {t t' : ℕ}

theorem standing_cons : Standing (p :: h) k t ↔ p.key = k ∧ t < p.ends ∨ Standing h k t := by
  unfold Standing
  constructor
  · intro hstanding
    obtain ⟨q, hq, hkey⟩ := hstanding
    rcases List.mem_cons.mp hq with hqp | hq
    · exact .inl (hqp ▸ hkey)
    · exact .inr ⟨q, hq, hkey⟩
  · intro hstanding
    rcases hstanding with hp | hrest
    · exact ⟨p, List.mem_cons_self, hp⟩
    · obtain ⟨q, hq, hkey⟩ := hrest
      exact ⟨q, List.mem_cons_of_mem p hq, hkey⟩

theorem Standing.of_le (ht : t ≤ t') (hstanding : Standing h k t') : Standing h k t := by
  obtain ⟨p, hp, hkey, hlt⟩ := hstanding
  exact ⟨p, hp, hkey, ht.trans_lt hlt⟩

theorem spaced_nil : Spaced ([] : List (Permit K)) := List.Pairwise.nil

theorem Spaced.cons (hspaced : Spaced h) (hfree : ¬Standing h p.key p.time) : Spaced (p :: h) := by
  refine List.Pairwise.cons ?_ hspaced
  intro q hq hkey
  by_contra hlt
  exact hfree ⟨q, hq, hkey.symm, not_le.mp hlt⟩

theorem Spaced.length_mul_lt [DecidableEq K] (hspaced : Spaced h) {q : ℕ} (hq : 0 < q)
    (hquiet : ∀ p ∈ h, p.key = k → q ≤ p.quiet) (a : ℕ) (b : ℕ) :
    (h.filter fun p => p.key = k ∧ a ≤ p.time ∧ p.time < b).length * q < (b - a) + q := by
  induction h generalizing b with
  | nil => simpa using hq.trans_le (Nat.le_add_left q (b - a))
  | cons p h ih =>
    have hrest := ih (List.Pairwise.of_cons hspaced)
      fun p' hp' => hquiet p' (List.mem_cons_of_mem p hp')
    rw [List.filter_cons]
    by_cases hp : p.key = k ∧ a ≤ p.time ∧ p.time < b
    · obtain ⟨hkey, ha, hb⟩ := hp
      have hlong := hquiet p List.mem_cons_self hkey
      -- The permits before `p` lie so far back that their own quiet times have ended.
      have hbefore : (h.filter fun p' => p'.key = k ∧ a ≤ p'.time ∧ p'.time < b) =
          h.filter fun p' => p'.key = k ∧ a ≤ p'.time ∧ p'.time < p.time + 1 - q := by
        apply List.filter_congr
        intro p' hp'
        have hquiet' := hquiet p' (List.mem_cons_of_mem p hp')
        have hends := List.rel_of_pairwise_cons hspaced hp'
        unfold Permit.ends at hends
        apply decide_eq_decide.mpr
        constructor
        · intro hin
          have hlater := hends (hkey.trans hin.1.symm)
          have hle := hquiet' hin.1
          exact ⟨hin.1, hin.2.1, by omega⟩
        · intro hin
          exact ⟨hin.1, hin.2.1, by omega⟩
      have hcount := hrest (p.time + 1 - q)
      rw [if_pos (by simpa using ⟨hkey, ha, hb⟩), List.length_cons, hbefore, Nat.succ_mul]
      by_cases hempty : p.time + 1 - q ≤ a
      · have hnone : (h.filter fun p' => p'.key = k ∧ a ≤ p'.time ∧ p'.time < p.time + 1 - q) =
            [] := by
          apply List.filter_eq_nil_iff.mpr
          intro p' _ hin
          have hin' := of_decide_eq_true hin
          omega
        rw [hnone, List.length_nil]
        omega
      · omega
    · rw [if_neg (by simpa using hp)]
      exact hrest b

end History

/-- A store tells by a marker for each key, at the present time and later, whether it is quiet. -/
def Tracks {S V : Type} (s : TtlStore.Store S V) (name : K → S) (h : List (Permit K)) : Prop :=
  ∀ k t, s.clock ≤ t → (((s.advance t).lookup (name k)).isSome = true ↔ Standing h k t)

namespace Tracks

variable {S V : Type} {s s' : TtlStore.Store S V} {name : K → S} {h : List (Permit K)}

theorem empty (hentry : ∀ k, s.entry (name k) = none) : Tracks s name [] := by
  intro k t _
  have hnone : (s.advance t).lookup (name k) = none := by
    simp [TtlStore.Store.lookup, TtlStore.Store.live, hentry k]
  rw [hnone]
  constructor
  · intro hsome
    exact absurd hsome (by simp)
  · intro hstanding
    obtain ⟨p, hp, -⟩ := hstanding
    exact absurd hp List.not_mem_nil

theorem lookup_iff (htracks : Tracks s name h) (k : K) :
    (s.lookup (name k)).isSome = true ↔ Standing h k s.clock :=
  htracks k s.clock le_rfl

theorem advance (htracks : Tracks s name h) {t : ℕ} (ht : s.clock ≤ t) :
    Tracks (s.advance t) name h :=
  fun k t' ht' => htracks k t' (ht.trans ht')

theorem of_entry (htracks : Tracks s name h) (hentry : ∀ k, s'.entry (name k) = s.entry (name k))
    (hclock : s'.clock = s.clock) : Tracks s' name h := by
  intro k t ht
  have hsame : (s'.advance t).lookup (name k) = (s.advance t).lookup (name k) := by
    simp only [TtlStore.Store.lookup, TtlStore.Store.live, TtlStore.Store.advance_entry,
      TtlStore.Store.advance_clock, hentry k]
  rw [hsame]
  exact htracks k t (hclock ▸ ht)

theorem put [DecidableEq S] (htracks : Tracks s name h) (hname : Function.Injective name) {k : K}
    (hfree : ¬Standing h k s.clock) (v : V) (ms : ℕ) :
    Tracks (s.put (name k) v ms) name (⟨k, s.clock, ms⟩ :: h) := by
  intro k' t ht
  have hnow : s.clock ≤ t := ht
  rw [standing_cons]
  by_cases hk : k' = k
  · have hold : ¬Standing h k' t := fun hlater => hfree (hk ▸ hlater.of_le hnow)
    rw [hk, TtlStore.Store.lookup_advance_put]
    by_cases hlt : t < s.clock + ms
    · rw [if_pos hlt]
      exact iff_of_true rfl (.inl ⟨rfl, hlt⟩)
    · rw [if_neg hlt]
      refine iff_of_false (by simp) ?_
      intro hor
      rcases hor with hnew | hbefore
      · exact hlt hnew.2
      · exact hold (hk ▸ hbefore)
  · have hne : name k' ≠ name k := fun he => hk (hname he)
    have hentry : (s.put (name k) v ms).entry (name k') = s.entry (name k') :=
      s.setEntry_entry_ne _ hne
    have hsame : ((s.put (name k) v ms).advance t).lookup (name k') =
        (s.advance t).lookup (name k') := by
      simp only [TtlStore.Store.lookup, TtlStore.Store.live, TtlStore.Store.advance_entry,
        TtlStore.Store.advance_clock, hentry]
    rw [hsame, htracks k' t hnow]
    constructor
    · exact .inr
    · intro hor
      rcases hor with hnew | hbefore
      · exact absurd hnew.1.symm hk
      · exact hbefore

end Tracks

end QuietGate
