import Mathlib.Data.List.Basic

namespace Rheonic.Separated

variable {α : Type} [DecidableEq α] {sep : α} {fields fields' : List (List α)}

/-- The pieces between separators, of all fields one after another. -/
def pieces (sep : α) (fields : List (List α)) : List (List α) := fields.flatMap (·.splitOn sep)

/-- How many of the pieces each field takes. -/
def grouping (sep : α) (fields : List (List α)) : List ℕ :=
  fields.map fun field => (field.splitOn sep).length

theorem splitOn_intercalate_eq_pieces (h : fields ≠ []) :
    ([sep].intercalate fields).splitOn sep = pieces sep fields := by
  induction fields with
  | nil => exact absurd rfl h
  | cons field rest ih =>
    unfold pieces at ih ⊢
    by_cases hrest : rest = []
    · rw [hrest, List.intercalate_singleton, List.flatMap_cons, List.flatMap_nil, List.append_nil]
    · rw [List.intercalate_cons_of_ne_nil hrest, List.append_assoc, List.singleton_append,
        List.splitOn_append_cons_self, ih hrest, List.flatMap_cons]

theorem intercalate_inj_iff (h : fields ≠ []) (h' : fields' ≠ []) :
    [sep].intercalate fields = [sep].intercalate fields' ↔
      pieces sep fields = pieces sep fields' := by
  constructor
  · intro heq
    rw [← splitOn_intercalate_eq_pieces h, ← splitOn_intercalate_eq_pieces h', heq]
  · intro heq
    calc [sep].intercalate fields
        = [sep].intercalate (([sep].intercalate fields).splitOn sep) :=
          (List.intercalate_splitOn sep).symm
      _ = [sep].intercalate (([sep].intercalate fields').splitOn sep) := by
          rw [splitOn_intercalate_eq_pieces h, heq, splitOn_intercalate_eq_pieces h']
      _ = [sep].intercalate fields' := List.intercalate_splitOn sep

theorem eq_iff_pieces_and_grouping (sep : α) :
    fields = fields' ↔ pieces sep fields = pieces sep fields' ∧
      grouping sep fields = grouping sep fields' := by
  constructor
  · intro heq
    rw [heq]
    exact ⟨rfl, rfl⟩
  · intro ⟨hpieces, hgrouping⟩
    unfold grouping at hgrouping
    unfold pieces at hpieces
    induction fields generalizing fields' with
    | nil => exact (List.map_eq_nil_iff.mp hgrouping.symm).symm
    | cons field rest ih =>
      cases fields' with
      | nil => exact absurd hgrouping (by simp)
      | cons field' rest' =>
        rw [List.map_cons, List.map_cons, List.cons.injEq] at hgrouping
        rw [List.flatMap_cons, List.flatMap_cons] at hpieces
        obtain ⟨hhead, htail⟩ := List.append_inj hpieces hgrouping.1
        have hfield : field = field' := by
          have hjoined := congrArg (fun l => [sep].intercalate l) hhead
          simpa only [List.intercalate_splitOn] using hjoined
        rw [hfield, ih htail hgrouping.2]

/-- Joining keeps two lists of fields apart unless their pieces are the same and only grouped in
another way. -/
theorem separates_iff (h : fields ≠ []) (h' : fields' ≠ []) :
    ([sep].intercalate fields = [sep].intercalate fields' ↔ fields = fields') ↔
      (pieces sep fields = pieces sep fields' → grouping sep fields = grouping sep fields') := by
  have heq : fields = fields' ↔ pieces sep fields = pieces sep fields' ∧
      grouping sep fields = grouping sep fields' := eq_iff_pieces_and_grouping sep
  rw [intercalate_inj_iff h h']
  constructor
  · intro hiff hpieces
    exact (heq.mp (hiff.mp hpieces)).2
  · intro hgrouping
    exact ⟨fun hpieces => heq.mpr ⟨hpieces, hgrouping hpieces⟩, fun h => (heq.mp h).1⟩

end Rheonic.Separated
