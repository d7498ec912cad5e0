import Mathlib

namespace FixedWindow

variable (W : ℕ)

/-- One more unit of a count whose time to live is set by its first unit and not renewed by the
later ones: in the life that has not ended, else as the first of a new one. -/
def tick : Option (ℕ × ℕ) → ℕ → Option (ℕ × ℕ)
  | none, t => some (t, 1)
  | some (a, n), t => if t < a + W then some (a, n + 1) else some (t, 1)

/-- The start of the last life and the units counted in it. -/
def life (ts : List ℕ) : Option (ℕ × ℕ) := ts.foldl (tick W) none

/-- What is still shown at `t`. -/
def shown (ts : List ℕ) (t : ℕ) : Option (ℕ × ℕ) := (life W ts).filter fun l => t < l.1 + W

def reading (ts : List ℕ) (t : ℕ) : ℕ := ((shown W ts t).map Prod.snd).getD 0

/-- The units of the window behind `t`. -/
def recent (ts : List ℕ) (t : ℕ) : ℕ := ts.countP fun x => t < x + W

/-- Every unit of the window behind `t` lies in a life that has not ended. -/
def Covered (ts : List ℕ) (t : ℕ) : Prop :=
  ∀ x ∈ ts, t < x + W → ∃ a n, shown W ts t = some (a, n) ∧ a ≤ x

variable {W}

@[simp] theorem life_nil : life W [] = none := rfl

theorem life_append (ts : List ℕ) (t : ℕ) : life W (ts ++ [t]) = tick W (life W ts) t := by
  simp [life, List.foldl_append]

theorem countP_append_one (p : ℕ → Bool) (ts : List ℕ) (t : ℕ) :
    (ts ++ [t]).countP p = ts.countP p + if p t then 1 else 0 := by
  rw [List.countP_append, List.countP_singleton]

/-- The last life starts at a unit, ends after all of them, and counts those from its start on. -/
theorem life_spec (hW : 0 < W) {ts : List ℕ} (horder : ts.Pairwise (· ≤ ·)) {a n : ℕ}
    (hlife : life W ts = some (a, n)) :
    a ∈ ts ∧ (∀ x ∈ ts, x < a + W) ∧ n = ts.countP fun x => a ≤ x := by
  induction ts using List.reverseRecOn generalizing a n with
  | nil => simp at hlife
  | append_singleton ts t ih =>
    rw [List.pairwise_append] at horder
    rw [life_append] at hlife
    have hlast : ∀ x ∈ ts, x ≤ t := fun x hx => horder.2.2 x hx t (by simp)
    -- a life that begins with the last unit
    have hfresh : (∀ x ∈ ts, x < t) → a = t → n = 1 →
        a ∈ ts ++ [t] ∧ (∀ x ∈ ts ++ [t], x < a + W) ∧
          n = (ts ++ [t]).countP fun x => a ≤ x := by
      intro hbefore ha hn
      subst ha hn
      refine ⟨by simp, fun x hx => ?_, ?_⟩
      · rcases List.mem_append.mp hx with hx | hx
        · have hlt := hbefore x hx
          omega
        · rw [List.mem_singleton.mp hx]
          omega
      · have hnone : ts.countP (fun x => a ≤ x) = 0 := by
          rw [List.countP_eq_zero]
          intro x hx
          have hlt := hbefore x hx
          simp only [decide_eq_true_eq]
          omega
        rw [countP_append_one, hnone]
        simp
    cases hold : life W ts with
    -- only an empty list has no life
    | none =>
      rw [hold] at hlife
      have hnil : ts = [] := by
        cases ts using List.reverseRecOn with
        | nil => rfl
        | append_singleton ts x =>
          rw [life_append] at hold
          unfold tick at hold
          split at hold
          · simp at hold
          · split at hold <;> simp at hold
      have hpair : (t, 1) = (a, n) := Option.some.inj hlife
      apply hfresh _ (Prod.mk.inj hpair).1.symm (Prod.mk.inj hpair).2.symm
      simp [hnil]
    | some l =>
      obtain ⟨b, m⟩ := l
      obtain ⟨hmem, hend, hcount⟩ := ih horder.1 hold
      rw [hold] at hlife
      simp only [tick] at hlife
      split at hlife
      -- the unit falls into the running life
      · next hlive =>
        have hpair : (b, m + 1) = (a, n) := Option.some.inj hlife
        obtain ⟨rfl, rfl⟩ := Prod.mk.inj hpair
        refine ⟨by simp [hmem], fun x hx => ?_, ?_⟩
        · rcases List.mem_append.mp hx with hx | hx
          · exact hend x hx
          · rw [List.mem_singleton.mp hx]
            exact hlive
        · rw [countP_append_one, hcount, if_pos (by simpa using hlast b hmem)]
      -- the running life has ended, so none of its units is in the new one
      · next hover =>
        have hpair : (t, 1) = (a, n) := Option.some.inj hlife
        apply hfresh _ (Prod.mk.inj hpair).1.symm (Prod.mk.inj hpair).2.symm
        intro x hx
        have hlt := hend x hx
        omega

theorem life_pos {ts : List ℕ} {a n : ℕ} (hlife : life W ts = some (a, n)) : 0 < n := by
  cases ts using List.reverseRecOn with
  | nil => simp at hlife
  | append_singleton ts t =>
    rw [life_append] at hlife
    unfold tick at hlife
    split at hlife
    · rw [← (Prod.mk.inj (Option.some.inj hlife)).2]
      exact Nat.one_pos
    · split at hlife
      · rw [← (Prod.mk.inj (Option.some.inj hlife)).2]
        exact Nat.succ_pos _
      · rw [← (Prod.mk.inj (Option.some.inj hlife)).2]
        exact Nat.one_pos

theorem shown_append (hW : 0 < W) (ts : List ℕ) (t : ℕ) : shown W (ts ++ [t]) t =
    some (((shown W ts t).map fun l => (l.1, l.2 + 1)).getD (t, 1)) := by
  have hnew : t < t + W := by omega
  unfold shown
  rw [life_append]
  cases hlife : life W ts with
  | none => simp [tick, hnew, Option.filter_some]
  | some l =>
    by_cases hlive : t < l.1 + W <;> simp [tick, hnew, hlive, Option.filter_some]

theorem shown_later (ts : List ℕ) {t t' : ℕ} (h : t ≤ t') :
    shown W ts t' = (shown W ts t).filter fun l => t' < l.1 + W := by
  unfold shown
  rw [Option.filter_filter]
  congr 1
  funext l
  rw [Bool.eq_iff_iff, Bool.and_eq_true]
  simp only [decide_eq_true_eq]
  omega

/-- Two counts agree where one condition implies the other just when the converse holds too. -/
theorem countP_eq_iff {p q : ℕ → Bool} {ts : List ℕ} (h : ∀ x ∈ ts, p x → q x) :
    ts.countP p = ts.countP q ↔ ∀ x ∈ ts, q x → p x := by
  induction ts with
  | nil => simp
  | cons t ts ih =>
    have hle : ts.countP p ≤ ts.countP q :=
      List.countP_mono_left fun x hx => h x (List.mem_cons_of_mem t hx)
    have ih' := ih fun x hx => h x (List.mem_cons_of_mem t hx)
    have ht := h t List.mem_cons_self
    rw [List.forall_mem_cons, ← ih', List.countP_cons, List.countP_cons]
    by_cases hp : p t = true
    · simp [hp, ht hp]
    · by_cases hq : q t = true
      · simp only [hp, hq, if_true]
        constructor
        · intro hcount
          simp only [Bool.false_eq_true, if_false] at hcount
          omega
        · intro hboth
          exact absurd (hboth.1 trivial) (by simp)
      · simp [hp, hq]

section Window

variable (hW : 0 < W) {ts : List ℕ} (horder : ts.Pairwise (· ≤ ·)) {t : ℕ}
include hW horder

theorem reading_eq_recent_iff : reading W ts t = recent W ts t ↔ Covered W ts t := by
  unfold reading recent Covered
  cases hshown : shown W ts t with
  | none =>
    have hzero : 0 = ts.countP (fun x => decide (t < x + W)) ↔ ∀ x ∈ ts, ¬t < x + W := by
      rw [eq_comm, List.countP_eq_zero]
      simp
    rw [Option.map_none, Option.getD_none, hzero]
    constructor
    · intro hnone x hx hin
      exact absurd hin (hnone x hx)
    · intro hcovered x hx hin
      obtain ⟨a, n, hsome, _⟩ := hcovered x hx hin
      exact absurd hsome (by simp)
  | some l =>
    obtain ⟨a, n⟩ := l
    obtain ⟨hlife, hlive⟩ := (Option.filter_eq_some_iff).mp hshown
    obtain ⟨_, _, hcount⟩ := life_spec hW horder hlife
    simp only [decide_eq_true_eq] at hlive
    have himp : ∀ x ∈ ts, decide (a ≤ x) = true → decide (t < x + W) = true := by
      intro x _ hx
      simp only [decide_eq_true_eq] at hx ⊢
      omega
    rw [Option.map_some, Option.getD_some, hcount, countP_eq_iff himp]
    simp only [decide_eq_true_eq]
    constructor
    · intro hall x hx hin
      exact ⟨a, _, rfl, hall x hx hin⟩
    · intro hcovered x hx hin
      obtain ⟨a', n', hsome, hle⟩ := hcovered x hx hin
      have hpair := Option.some.inj hsome
      rw [(Prod.mk.inj hpair).1]
      exact hle

end Window

end FixedWindow
