import Mathlib

namespace Tally

variable {ι α : Type}

/-- How many indices hold a value with property `P`. -/
noncomputable def tally (f : ι → Option α) (P : α → Prop) : ℕ :=
  {i | ∃ a, f i = some a ∧ P a}.ncard

/-- Only finitely many indices hold a value. -/
def Finite (f : ι → Option α) : Prop := {i | f i ≠ none}.Finite

theorem Finite.holders {f : ι → Option α} (h : Finite f) (P : α → Prop) :
    {i | ∃ a, f i = some a ∧ P a}.Finite := by
  refine h.subset ?_
  rintro i ⟨a, ha, -⟩
  simp [ha]

theorem finite_none : Finite (fun _ : ι => (none : Option α)) := by simp [Finite]

@[simp] theorem tally_none (P : α → Prop) : tally (fun _ : ι => (none : Option α)) P = 0 := by
  simp [tally]

variable [DecidableEq ι]

theorem Finite.update {f : ι → Option α} (h : Finite f) (i : ι) (a : Option α) :
    Finite (Function.update f i a) := by
  refine (h.insert i).subset fun j hj => ?_
  by_cases hji : j = i
  · exact .inl hji
  · exact .inr (by simpa [Function.update_of_ne hji] using hj)

/-- The share of one index in a tally. -/
def unit (a : Option α) (P : α → Prop) [DecidablePred P] : ℕ :=
  if (a.any fun x => P x) = true then 1 else 0

theorem unit_some (a : α) (P : α → Prop) [DecidablePred P] :
    unit (some a) P = if P a then 1 else 0 := by simp [unit]

@[simp] theorem unit_none (P : α → Prop) [DecidablePred P] : unit (none : Option α) P = 0 := rfl

/-- Everyone else's share. -/
noncomputable def others (f : ι → Option α) (i : ι) (P : α → Prop) : ℕ :=
  tally (Function.update f i none) P

theorem others_eq_ncard (f : ι → Option α) (i : ι) (P : α → Prop) :
    others f i P = ({j | ∃ a, f j = some a ∧ P a} \ {i}).ncard := by
  have hset : {j | ∃ a, Function.update f i none j = some a ∧ P a} =
      {j | ∃ a, f j = some a ∧ P a} \ {i} := by
    ext j
    by_cases hji : j = i
    · subst j; simp
    · simp [hji]
  rw [others, tally, hset]

theorem tally_eq_others_add_unit {f : ι → Option α} (hf : Finite f) (i : ι) (P : α → Prop)
    [DecidablePred P] : tally f P = others f i P + unit (f i) P := by
  rw [others_eq_ncard, tally]
  by_cases hi : ∃ a, f i = some a ∧ P a
  · obtain ⟨a, ha, hP⟩ := hi
    rw [ha, unit_some, if_pos hP]
    have hmem : i ∈ {j | ∃ a, f j = some a ∧ P a} := ⟨a, ha, hP⟩
    exact (Set.ncard_sdiff_singleton_add_one hmem (hf.holders P)).symm
  · have hu : unit (f i) P = 0 := by
      cases ha : f i with
      | none => rfl
      | some a => rw [unit_some, if_neg fun hP => hi ⟨a, ha, hP⟩]
    rw [hu, Set.sdiff_singleton_eq_self (by simpa using hi), Nat.add_zero]

@[simp] theorem others_update (f : ι → Option α) (i : ι) (a : Option α) (P : α → Prop) :
    others (Function.update f i a) i P = others f i P := by
  simp [others]

theorem tally_update {f : ι → Option α} (hf : Finite f) (i : ι) (a : Option α) (P : α → Prop)
    [DecidablePred P] :
    tally (Function.update f i a) P + unit (f i) P = tally f P + unit a P := by
  rw [tally_eq_others_add_unit (hf.update i a) i, tally_eq_others_add_unit hf i, others_update,
    Function.update_self]
  omega

end Tally
