import Rheonic.Lib.RowTable

namespace RowTable.Table

variable {K V : Type} {p q : K → V → Bool} {t t' u u' : Table K V}

/-- Remove the rows for which `q` holds. -/
def deleteWhere (t : Table K V) (q : K → V → Bool) : Table K V where
  rows := t.rows.filter fun e => !q e.1 e.2
  distinct := t.distinct.sublist (List.filter_sublist.map _)

/-- The tables show the same rows where `p` holds. -/
def SameView (p : K → V → Bool) (t t' : Table K V) : Prop := t.select p = t'.select p

theorem SameView.refl (p : K → V → Bool) (t : Table K V) : SameView p t t := rfl

theorem SameView.trans {t'' : Table K V} (h : SameView p t t') (h' : SameView p t' t'') :
    SameView p t t'' :=
  Eq.trans h h'

theorem SameView.symm (h : SameView p t t') : SameView p t' t := Eq.symm h

theorem select_eq_filter (h : ∀ e ∈ t.rows, q e.1 e.2 = true → p e.1 e.2 = true) :
    t.select q = (t.select p).filter fun e => q e.1 e.2 := by
  unfold select
  rw [List.filter_filter]
  apply List.filter_congr
  intro e he
  by_cases hq : q e.1 e.2 = true
  · rw [hq, h e he hq]
    rfl
  · rw [Bool.not_eq_true] at hq
    rw [hq]
    rfl

theorem SameView.select (h : SameView p t t')
    (hq : ∀ e ∈ t.rows, q e.1 e.2 = true → p e.1 e.2 = true)
    (hq' : ∀ e ∈ t'.rows, q e.1 e.2 = true → p e.1 e.2 = true) : t.select q = t'.select q := by
  rw [select_eq_filter hq, select_eq_filter hq', h]

theorem SameView.find (h : SameView p t t') {r : K × V → Bool}
    (hr : ∀ e ∈ t.rows, r e = true → p e.1 e.2 = true)
    (hr' : ∀ e ∈ t'.rows, r e = true → p e.1 e.2 = true) :
    t.rows.find? r = t'.rows.find? r := by
  have hfirst : ∀ u : Table K V, u.rows.find? r = (u.select fun k v => r (k, v)).head? := by
    intro u
    exact List.head?_filter.symm
  rw [hfirst t, hfirst t', h.select hr hr']

theorem SameView.deleteWhere (h : SameView p t t') (q : K → V → Bool) :
    SameView p (t.deleteWhere q) (t'.deleteWhere q) := by
  have hcomm : ∀ u : Table K V,
      (u.deleteWhere q).select p = (u.select p).filter fun e => !q e.1 e.2 := by
    intro u
    unfold Table.select Table.deleteWhere
    exact List.filter_comm _ _ _
  unfold SameView
  rw [hcomm t, hcomm t', h]

theorem sameView_deleteWhere (h : ∀ e ∈ t.rows, q e.1 e.2 = true → p e.1 e.2 = false) :
    SameView p (t.deleteWhere q) t := by
  unfold SameView Table.select Table.deleteWhere
  rw [List.filter_filter]
  apply List.filter_congr
  intro e he
  by_cases hq : q e.1 e.2 = true
  · rw [h e he hq]
    rfl
  · rw [Bool.not_eq_true] at hq
    rw [hq, Bool.not_false, Bool.and_true]

variable [DecidableEq K] {k : K} {v : V} {f : V → V}

theorem SameView.get (h : SameView p t t') (hk : t.get k = some v) (hp : p k v = true) :
    t'.get k = some v := by
  have hmem : (k, v) ∈ t.select p := mem_select.mpr ⟨hk, hp⟩
  rw [h] at hmem
  exact (mem_select.mp hmem).1

theorem SameView.get_eq (h : SameView p t t') (hp : ∀ v, p k v = true) : t.get k = t'.get k := by
  cases hk : t.get k with
  | some v => exact (h.get hk (hp v)).symm
  | none =>
    cases hk' : t'.get k with
    | none => rfl
    | some v =>
      rw [h.symm.get hk' (hp v)] at hk
      exact absurd hk (Option.some_ne_none v)

theorem SameView.update (h : SameView p t t') (hf : ∀ v, t.get k = some v → p k (f v) = p k v)
    (hf' : ∀ v, t'.get k = some v → p k (f v) = p k v) :
    SameView p (t.update k f) (t'.update k f) := by
  have hmap : ∀ u : Table K V, (∀ v, u.get k = some v → p k (f v) = p k v) →
      (u.update k f).select p =
        (u.select p).map fun e => (e.1, if e.1 = k then f e.2 else e.2) := by
    intro u hu
    unfold Table.update Table.updateWhere Table.select
    rw [List.filter_map]
    have hpred : ∀ e ∈ u.rows, ((fun e : K × V => p e.1 e.2) ∘
        fun e : K × V => (e.1, if decide (e.1 = k) = true then f e.2 else e.2)) e = p e.1 e.2 := by
      intro e he
      by_cases hek : e.1 = k
      · have hget : u.get k = some e.2 := by
          rw [← hek]
          exact mem_rows_iff.mp he
        simp [hek, hu e.2 hget]
      · simp [hek]
    rw [List.filter_congr hpred]
    simp only [decide_eq_true_eq]
  unfold SameView
  rw [hmap t hf, hmap t' hf', h]

theorem sameView_update (h : ∀ v, t.get k = some v → p k v = false)
    (hf : ∀ v, t.get k = some v → p k (f v) = false) : SameView p (t.update k f) t := by
  unfold SameView Table.select Table.update Table.updateWhere
  rw [List.filter_map]
  have hpred : ∀ e ∈ t.rows, ((fun e : K × V => p e.1 e.2) ∘
      fun e : K × V => (e.1, if decide (e.1 = k) = true then f e.2 else e.2)) e = p e.1 e.2 := by
    intro e he
    by_cases hek : e.1 = k
    · have hget : t.get k = some e.2 := by
        rw [← hek]
        exact mem_rows_iff.mp he
      have hshown := h e.2 hget
      have hafter := hf e.2 hget
      simp [hek, hshown, hafter]
    · simp [hek]
  rw [List.filter_congr hpred]
  conv_rhs => rw [← List.map_id (t.rows.filter fun e => p e.1 e.2)]
  apply List.map_congr_left
  intro e he
  obtain ⟨hmem, hp⟩ := List.mem_filter.mp he
  by_cases hek : e.1 = k
  · have hget : t.get k = some e.2 := by
      rw [← hek]
      exact mem_rows_iff.mp hmem
    rw [hek, h e.2 hget] at hp
    exact absurd hp (by decide)
  · simp [hek]

theorem SameView.insert (h : SameView p t t') (hu : t.insert k v = some u)
    (hu' : t'.insert k v = some u') : SameView p u u' := by
  unfold SameView Table.select at h ⊢
  rw [rows_of_insert hu, rows_of_insert hu', List.filter_append, List.filter_append, h]

theorem sameView_insert (hu : t.insert k v = some u) (hp : p k v = false) : SameView p u t := by
  unfold SameView Table.select
  rw [rows_of_insert hu, List.filter_append, List.filter_singleton, hp]
  exact List.append_nil _

end RowTable.Table
