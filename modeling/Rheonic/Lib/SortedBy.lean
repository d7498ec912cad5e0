import Mathlib

namespace SortedBy

variable {α K : Type} [LinearOrder K]

/-- `sorted(l, key=key)`: elements with equal keys keep their order. -/
def sortedBy (key : α → K) (l : List α) : List α := l.insertionSort fun a b => key a ≤ key b

/-- `sorted(l, key=key, reverse=True)`, which keeps the order of equal keys too. -/
def sortedByDesc (key : α → K) (l : List α) : List α :=
  sortedBy (fun a => OrderDual.toDual (key a)) l

variable {key : α → K} {l l' : List α}

theorem sortedBy_perm (key : α → K) (l : List α) : (sortedBy key l).Perm l :=
  List.perm_insertionSort _ l

theorem sortedByDesc_perm (key : α → K) (l : List α) : (sortedByDesc key l).Perm l :=
  sortedBy_perm _ l

@[simp] theorem mem_sortedBy {a : α} : a ∈ sortedBy key l ↔ a ∈ l := (sortedBy_perm key l).mem_iff

@[simp] theorem mem_sortedByDesc {a : α} : a ∈ sortedByDesc key l ↔ a ∈ l := mem_sortedBy

theorem pairwise_sortedBy (key : α → K) (l : List α) :
    (sortedBy key l).Pairwise fun a b => key a ≤ key b := by
  have htrans : IsTrans α fun a b => key a ≤ key b := ⟨fun _ _ _ => le_trans⟩
  have htotal : Std.Total fun a b : α => key a ≤ key b := ⟨fun a b => le_total (key a) (key b)⟩
  exact List.pairwise_insertionSort _ l

theorem pairwise_sortedByDesc (key : α → K) (l : List α) :
    (sortedByDesc key l).Pairwise fun a b => key b ≤ key a :=
  pairwise_sortedBy (fun a => OrderDual.toDual (key a)) l

theorem sortedBy_of_pairwise (h : l.Pairwise fun a b => key a ≤ key b) : sortedBy key l = l :=
  List.Pairwise.insertionSort_eq h

theorem sortedByDesc_of_pairwise (h : l.Pairwise fun a b => key b ≤ key a) :
    sortedByDesc key l = l :=
  sortedBy_of_pairwise h

theorem sortedBy_eq_of_perm (h : l.Perm l') (hkeys : (l.map key).Nodup) :
    sortedBy key l = sortedBy key l' := by
  apply List.Perm.eq_of_pairwise ?_ (pairwise_sortedBy key l) (pairwise_sortedBy key l')
  · exact (sortedBy_perm key l).trans (h.trans (sortedBy_perm key l').symm)
  · intro a b ha hb hab hba
    exact List.inj_on_of_nodup_map hkeys (mem_sortedBy.mp ha)
      (h.mem_iff.mpr (mem_sortedBy.mp hb)) (le_antisymm hab hba)

theorem sortedByDesc_eq_of_perm (h : l.Perm l') (hkeys : (l.map key).Nodup) :
    sortedByDesc key l = sortedByDesc key l' := by
  apply sortedBy_eq_of_perm h
  exact hkeys

section Filter

theorem orderedInsert_of_forall_le {a : α} (h : ∀ b ∈ l, key a ≤ key b) :
    l.orderedInsert (fun a b => key a ≤ key b) a = a :: l := by
  cases l with
  | nil => rfl
  | cons b l => exact List.orderedInsert_cons_of_le _ l (h b List.mem_cons_self)

theorem filter_orderedInsert (p : α → Bool) (h : l.Pairwise fun a b => key a ≤ key b) (a : α) :
    (l.orderedInsert (fun a b => key a ≤ key b) a).filter p =
      if p a then (l.filter p).orderedInsert (fun a b => key a ≤ key b) a else l.filter p := by
  induction l with
  | nil => by_cases hp : p a = true <;> simp [hp]
  | cons b l ih =>
    rw [List.pairwise_cons] at h
    by_cases hab : key a ≤ key b
    · have hall : ∀ c ∈ b :: l, key a ≤ key c := by
        intro c hc
        rcases List.mem_cons.mp hc with rfl | hc
        · exact hab
        · exact hab.trans (h.1 c hc)
      have hfiltered : ∀ c ∈ (b :: l).filter p, key a ≤ key c := fun c hc =>
        hall c (List.mem_filter.mp hc).1
      rw [orderedInsert_of_forall_le hall, orderedInsert_of_forall_le hfiltered, List.filter_cons]
    · rw [List.orderedInsert_of_not_le (r := fun a b => key a ≤ key b) l hab, List.filter_cons,
        List.filter_cons, ih h.2]
      by_cases hb : p b = true
      · by_cases ha : p a = true
        · simp only [ha, hb, if_true]
          rw [List.orderedInsert_of_not_le (r := fun a b => key a ≤ key b) _ hab]
        · simp [ha, hb]
      · simp [hb]

theorem filter_sortedBy (p : α → Bool) (l : List α) :
    (sortedBy key l).filter p = sortedBy key (l.filter p) := by
  induction l with
  | nil => rfl
  | cons a l ih =>
    have hinsert : sortedBy key (a :: l) =
        (sortedBy key l).orderedInsert (fun a b => key a ≤ key b) a := rfl
    rw [hinsert, filter_orderedInsert p (pairwise_sortedBy key l), ih, List.filter_cons]
    by_cases ha : p a = true
    · rw [if_pos ha, if_pos ha]
      rfl
    · rw [if_neg ha, if_neg ha]

theorem filter_sortedByDesc (p : α → Bool) (l : List α) :
    (sortedByDesc key l).filter p = sortedByDesc key (l.filter p) :=
  filter_sortedBy p l

theorem eq_filter_append {r : α → α → Prop} {p : α → Bool} (h : l.Pairwise r)
    (hfirst : ∀ a b, r a b → p b = true → p a = true) :
    l = l.filter p ++ l.filter fun a => !p a := by
  induction l with
  | nil => rfl
  | cons a l ih =>
    rw [List.pairwise_cons] at h
    by_cases ha : p a = true
    · rw [List.filter_cons_of_pos ha, List.filter_cons_of_neg (by simpa using ha), List.cons_append,
        ← ih h.2]
    · have hnone : (a :: l).filter p = [] := by
        rw [List.filter_eq_nil_iff]
        intro b hb
        rcases List.mem_cons.mp hb with rfl | hb
        · exact ha
        · exact fun hp => ha (hfirst a b (h.1 b hb) hp)
      have hall : (a :: l).filter (fun a => !p a) = a :: l := by
        rw [List.filter_eq_self]
        intro b hb
        have hnot := List.filter_eq_nil_iff.mp hnone b hb
        simpa using hnot
      rw [hnone, hall, List.nil_append]

end Filter

end SortedBy
