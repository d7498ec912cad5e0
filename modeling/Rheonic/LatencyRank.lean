import Rheonic.Lib.NearestRank
import Rheonic.ProtectMetrics

namespace Rheonic.ProtectActionStore
open PyText NearestRank

/-- `_percentile` in exact arithmetic. -/
def exactPercentile (values : List ℤ) (percentile : ℕ) : Option ℤ :=
  if values = [] then none
  else
    let rank : ℤ := ⌈(percentile : ℚ) / 100 * values.length⌉ - 1
    let index : ℤ := min (max rank 0) (values.length - 1)
    values[index.toNat]?

/-- A member that ends in a colon and a text of the number. -/
def Records (member : String) (n : ℤ) : Prop :=
  ∃ before part : List Char, member.toList = before ++ ':' :: part ∧ ':' ∉ part ∧
    parseInt (String.ofList part) = some n

section Members

theorem exists_last_part {cs : List Char} (h : ':' ∈ cs) :
    ∃ before part : List Char, cs = before ++ ':' :: part ∧ ':' ∉ part := by
  obtain ⟨part, before, hsplit, hpart⟩ := List.eq_append_cons_of_mem (List.mem_reverse.mpr h)
  refine ⟨before.reverse, part.reverse, ?_, fun hmem => hpart (List.mem_reverse.mp hmem)⟩
  rw [← List.reverse_reverse cs, hsplit, List.reverse_append, List.reverse_cons, List.append_assoc]
  rfl

theorem parseLatency_eq_some_iff {member : String} {v : ℤ} :
    parseLatency member = some v ↔ ∃ n, Records member n ∧ v = max n 0 := by
  unfold parseLatency
  constructor
  · intro h
    by_cases hcolon : ':' ∈ member.toList
    · obtain ⟨before, part, hsplit, hpart⟩ := exists_last_part hcolon
      rw [if_pos hcolon, hsplit, getLast_split_append hpart, Option.bind_some,
        Option.map_eq_some_iff] at h
      obtain ⟨n, hn, hv⟩ := h
      exact ⟨n, ⟨before, part, hsplit, hpart, hn⟩, hv.symm⟩
    · rw [if_neg hcolon] at h
      exact absurd h (Option.some_ne_none v).symm
  · rintro ⟨n, ⟨before, part, hsplit, hpart, hn⟩, rfl⟩
    have hcolon : ':' ∈ member.toList := by
      rw [hsplit]
      exact List.mem_append_right _ List.mem_cons_self
    rw [if_pos hcolon, hsplit, getLast_split_append hpart, Option.bind_some, hn, Option.map_some]

end Members

section Rank

variable {p n : ℕ}

theorem ceil_share_le_iff (p n c : ℕ) : ⌈(p : ℚ) / 100 * n⌉ ≤ (c : ℤ) ↔ p * n ≤ 100 * c := by
  rw [Int.ceil_le, div_mul_eq_mul_div, div_le_iff₀ (by norm_num)]
  rw [show ((c : ℤ) : ℚ) * 100 = ((100 * c : ℕ) : ℚ) by push_cast; ring, ← Nat.cast_mul,
    Nat.cast_le]

theorem exactPercentile_eq {values : List ℤ} (hne : values ≠ []) (hp : 0 < p) (hp' : p ≤ 100) :
    ∃ k : ℕ, ∃ hk : k < values.length, exactPercentile values p = some values[k] ∧
      ∀ c, k + 1 ≤ c ↔ p * values.length ≤ 100 * c := by
  have hlength : 0 < values.length := List.length_pos_of_ne_nil hne
  have hshare := ceil_share_le_iff p values.length
  have hupper : ⌈(p : ℚ) / 100 * values.length⌉ ≤ (values.length : ℤ) :=
    (hshare _).mpr (Nat.mul_le_mul_right _ hp')
  have hlower : 1 ≤ ⌈(p : ℚ) / 100 * values.length⌉ := by
    by_contra hlt
    have hzero := (hshare 0).mp (by push_cast; omega)
    have hpos : 0 < p * values.length := Nat.mul_pos hp hlength
    omega
  unfold exactPercentile
  rw [if_neg hne]
  dsimp only
  generalize ⌈(p : ℚ) / 100 * values.length⌉ = r at hshare hupper hlower ⊢
  have hindex : min (max (r - 1) 0) ((values.length : ℤ) - 1) = r - 1 := by omega
  have hk : (r - 1).toNat < values.length := by omega
  refine ⟨(r - 1).toNat, hk, ?_, fun c => ?_⟩
  · rw [hindex, List.getElem?_eq_getElem hk]
  · rw [← hshare c]
    omega

/-- What the percentile of the sorted entries is: the least entry that its share of them does not
exceed. -/
theorem exactPercentile_isLeast {l : List ℤ} (hne : l ≠ []) (hp : 0 < p) (hp' : p ≤ 100) :
    ∃ v, exactPercentile (l.insertionSort (· ≤ ·)) p = some v ∧
      IsLeast {v | v ∈ l ∧ p * l.length ≤ 100 * l.countP (· ≤ v)} v := by
  have hsorted : l.insertionSort (· ≤ ·) ≠ [] := by
    rwa [← List.length_pos_iff, List.length_insertionSort, List.length_pos_iff]
  obtain ⟨k, hk, hvalue, hreach⟩ := exactPercentile_eq hsorted hp hp'
  refine ⟨_, hvalue, ?_⟩
  have hset : {v | v ∈ l ∧ p * l.length ≤ 100 * l.countP (· ≤ v)} = reached l (k + 1) := by
    ext v
    show v ∈ l ∧ p * l.length ≤ 100 * l.countP (· ≤ v) ↔ v ∈ l ∧ k + 1 ≤ l.countP (· ≤ v)
    rw [hreach, List.length_insertionSort]
  rw [hset]
  exact isLeast_insertionSort hk

end Rank

section Binary64

variable {p n : ℕ}

/-- A product in binary64 that is well above an integer, and at most the next one, is rounded up to
that. -/
theorem ceil_roundNat {x m : ℕ} (hx : x < 2 ^ 98) (hlow : m * 2 ^ 53 + 2 ^ 45 ≤ x)
    (hup : x ≤ (m + 1) * 2 ^ 53) : (Double.roundNat x + (2 ^ 53 - 1)) / 2 ^ 53 = m + 1 := by
  have hpos : x ≠ 0 := by omega
  have hlog : Nat.log2 x < 98 := (Nat.log2_lt hpos).mpr hx
  have hbelow := Double.lt_roundNat_add x
  have hunit : 2 ^ (Nat.log2 x - 52) ≤ 2 ^ 45 := Nat.pow_le_pow_right (by decide) (by omega)
  have habove : Double.roundNat x ≤ (m + 1) * 2 ^ 53 := Double.roundNat_le hup (by omega)
  omega

theorem ceilShare_le_iff (hp : p = 50 ∨ p = 95) (hn : 0 < n) (hbound : n < 2 ^ 45) (c : ℕ) :
    ceilShare p n ≤ c ↔ p * n ≤ 100 * c := by
  have hfifty : roundQuotient (50 * 2 ^ 53) 100 = 2 ^ 52 := by decide
  have hninetyFive : 20 * roundQuotient (95 * 2 ^ 53) 100 = 19 * 2 ^ 53 - 8 := by decide
  unfold ceilShare
  rcases hp with rfl | rfl
  · obtain ⟨m, hm⟩ : ∃ m, (n + 1) / 2 = m + 1 := ⟨(n + 1) / 2 - 1, by omega⟩
    rw [hfifty, ceil_roundNat (m := m) (by omega) (by omega) (by omega)]
    omega
  · obtain ⟨m, hm⟩ : ∃ m, (19 * n + 19) / 20 = m + 1 := ⟨(19 * n + 19) / 20 - 1, by omega⟩
    have hproduct : 20 * (roundQuotient (95 * 2 ^ 53) 100 * n) = 19 * n * 2 ^ 53 - 8 * n := by
      rw [← mul_assoc, hninetyFive, Nat.sub_mul]
      ring_nf
    rw [ceil_roundNat (m := m) (by omega) (by omega) (by omega)]
    omega

theorem percentile_eq_exact {values : List ℤ} (hp : p = 50 ∨ p = 95)
    (hbound : values.length < 2 ^ 45) : percentile values p = exactPercentile values p := by
  by_cases hempty : values = []
  · rw [percentile, exactPercentile, if_pos hempty, if_pos hempty]
  · obtain ⟨k, hk, hvalue, hreach⟩ :=
      exactPercentile_eq (p := p) hempty (by omega) (by omega)
    have hshare : ceilShare p values.length = k + 1 := by
      have hiff := ceilShare_le_iff hp (List.length_pos_of_ne_nil hempty) hbound
      have hle : ceilShare p values.length ≤ k + 1 := (hiff _).mpr ((hreach _).mp le_rfl)
      have hge : k + 1 ≤ ceilShare p values.length := (hreach _).mpr ((hiff _).mp le_rfl)
      omega
    have hindex : min (ceilShare p values.length - 1) (values.length - 1) = k := by omega
    rw [hvalue, percentile, if_neg hempty, hindex, List.getElem?_eq_getElem hk]

end Binary64

/-- The latencies that a list of members records, in its order. -/
def recorded (members : List String) : List ℤ := members.filterMap parseLatency

section Recorded

variable {members : List String} {p : ℕ} {v w : ℤ}

theorem recorded_eq_nil_iff :
    recorded members = [] ↔ ∀ member ∈ members, ∀ n, ¬Records member n := by
  rw [recorded, List.filterMap_eq_nil_iff]
  refine forall₂_congr fun member _ => ?_
  rw [Option.eq_none_iff_forall_ne_some]
  constructor
  · intro h n hn
    exact h _ (parseLatency_eq_some_iff.mpr ⟨n, hn, rfl⟩)
  · intro h v hv
    obtain ⟨n, hn, -⟩ := parseLatency_eq_some_iff.mp hv
    exact h n hn

/-- The recorded latencies that `p` percent of all of them do not exceed. -/
def shared (members : List String) (p : ℕ) : Set ℤ :=
  {v | v ∈ recorded members ∧
    p * (recorded members).length ≤ 100 * (recorded members).countP (· ≤ v)}

theorem exactPercentile_of_nil (h : recorded members = []) :
    exactPercentile (parseLatencies members) p = none := by
  rw [exactPercentile, parseLatencies, show members.filterMap parseLatency = [] from h]
  rfl

theorem exactPercentile_eq_none_iff (hp : 0 < p) (hp' : p ≤ 100) :
    exactPercentile (parseLatencies members) p = none ↔ recorded members = [] := by
  constructor
  · intro habsent
    by_contra hne
    obtain ⟨v, hv, -⟩ := exactPercentile_isLeast hne hp hp'
    exact Option.some_ne_none v (hv.symm.trans habsent)
  · exact exactPercentile_of_nil

theorem isLeast_of_exactPercentile (hp : 0 < p) (hp' : p ≤ 100)
    (h : exactPercentile (parseLatencies members) p = some v) : IsLeast (shared members p) v := by
  have hne : recorded members ≠ [] := by
    intro hempty
    exact Option.some_ne_none v (h.symm.trans (exactPercentile_of_nil hempty))
  obtain ⟨w, hw, hmin⟩ := exactPercentile_isLeast hne hp hp'
  rwa [Option.some.inj (h.symm.trans hw)]

theorem exactPercentile_perm {members' : List String} (h : members.Perm members') :
    exactPercentile (parseLatencies members') p = exactPercentile (parseLatencies members) p := by
  rw [parseLatencies, parseLatencies, insertionSort_eq_of_perm (h.symm.filterMap _)]

theorem shared_anti {p' : ℕ} (h : p ≤ p') : shared members p' ⊆ shared members p := by
  intro v hv
  have hless : p * (recorded members).length ≤ p' * (recorded members).length :=
    Nat.mul_le_mul_right _ h
  exact ⟨hv.1, hless.trans hv.2⟩

end Recorded

/-- Both percentiles are absent where no member is well formed, and else the least recorded latency
that the share of them does not exceed. -/
theorem latency_percentiles_nearest_rank (members : List String) :
    (∀ member v, parseLatency member = some v ↔ ∃ n, Records member n ∧ v = max n 0) ∧
      (∀ p, p = 50 ∨ p = 95 →
        (exactPercentile (parseLatencies members) p = none ↔
          ∀ member ∈ members, ∀ n, ¬Records member n) ∧
        (∀ v, exactPercentile (parseLatencies members) p = some v →
          IsLeast {v | v ∈ recorded members ∧
            p * (recorded members).length ≤ 100 * (recorded members).countP (· ≤ v)} v) ∧
        ∀ members', members.Perm members' →
          exactPercentile (parseLatencies members') p =
            exactPercentile (parseLatencies members) p) ∧
      ∀ v ∈ exactPercentile (parseLatencies members) 50,
        ∀ w ∈ exactPercentile (parseLatencies members) 95, v ≤ w := by
  refine ⟨fun _ _ => parseLatency_eq_some_iff, fun p hp => ?_, fun v hv w hw => ?_⟩
  · have hpos : 0 < p := by omega
    have hle : p ≤ 100 := by omega
    refine ⟨?_, fun v hv => isLeast_of_exactPercentile hpos hle hv, fun _ => exactPercentile_perm⟩
    rw [← recorded_eq_nil_iff]
    exact exactPercentile_eq_none_iff hpos hle
  · have hfifty := isLeast_of_exactPercentile (by decide) (by decide) (Option.mem_def.mp hv)
    have hninetyFive := isLeast_of_exactPercentile (by decide) (by decide) (Option.mem_def.mp hw)
    exact hfifty.2 (shared_anti (by decide) hninetyFive.1)

end Rheonic.ProtectActionStore
