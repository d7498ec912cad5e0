import Mathlib

namespace RowTable

/-- Rows under distinct primary keys, in the order of their insertion. -/
structure Table (K V : Type) where
  rows : List (K × V)
  distinct : (rows.map Prod.fst).Nodup

namespace Table

variable {K V : Type}

def empty : Table K V := ⟨[], List.nodup_nil⟩

def keys (t : Table K V) : List K := t.rows.map Prod.fst

/-- Change the rows for which `p` holds; keys never change. -/
def updateWhere (t : Table K V) (p : K → V → Bool) (f : V → V) : Table K V where
  rows := t.rows.map fun e => (e.1, if p e.1 e.2 then f e.2 else e.2)
  distinct := by simpa [Function.comp_def] using t.distinct

/-- The rows that satisfy `p`, as a query without an order returns them. -/
def select (t : Table K V) (p : K → V → Bool) : List (K × V) :=
  t.rows.filter fun e => p e.1 e.2

/-- A quantity summed over all rows. -/
def total (t : Table K V) (g : K → V → ℕ) : ℕ := (t.rows.map fun e => g e.1 e.2).sum

variable [DecidableEq K]

def get (t : Table K V) (k : K) : Option V := (t.rows.find? fun e => e.1 = k).map Prod.snd

/-- Insert a row; a key that is taken violates the primary key. -/
def insert (t : Table K V) (k : K) (v : V) : Option (Table K V) :=
  if h : k ∈ t.keys then none
  else some ⟨t.rows ++ [(k, v)], by
    rw [List.map_append, List.nodup_append]
    refine ⟨t.distinct, by simp, ?_⟩
    intro a ha b hb
    obtain rfl : b = k := by simpa using hb
    exact fun hab => h (hab ▸ ha)⟩

def update (t : Table K V) (k : K) (f : V → V) : Table K V :=
  t.updateWhere (fun k' _ => k' = k) f

@[simp] theorem get_empty (k : K) : (empty : Table K V).get k = none := rfl

omit [DecidableEq K] in
@[simp] theorem total_empty (g : K → V → ℕ) : (empty : Table K V).total g = 0 := rfl

theorem mem_rows_iff {t : Table K V} {k : K} {v : V} : (k, v) ∈ t.rows ↔ t.get k = some v := by
  constructor
  · intro h
    have hfind : t.rows.find? (fun e => e.1 = k) = some (k, v) := by
      have hsome : (t.rows.find? fun e => e.1 = k).isSome = true := by
        rw [List.find?_isSome]
        exact ⟨(k, v), h, by simp⟩
      obtain ⟨e, he⟩ := Option.isSome_iff_exists.mp hsome
      have hkey : e.1 = k := by simpa using List.find?_some he
      have heq : e = (k, v) := List.inj_on_of_nodup_map t.distinct
        (List.mem_of_find?_eq_some he) h hkey
      rw [he, heq]
    simp [get, hfind]
  · intro h
    obtain ⟨e, he, rfl⟩ := Option.map_eq_some_iff.mp h
    have hkey : e.1 = k := by simpa using List.find?_some he
    have hmem := List.mem_of_find?_eq_some he
    rwa [← hkey]

theorem mem_keys_iff {t : Table K V} {k : K} : k ∈ t.keys ↔ ∃ v, t.get k = some v := by
  simp only [keys, List.mem_map, Prod.exists, exists_and_right, exists_eq_right, mem_rows_iff]

theorem mem_select {t : Table K V} {p : K → V → Bool} {k : K} {v : V} :
    (k, v) ∈ t.select p ↔ t.get k = some v ∧ p k v = true := by
  simp [select, mem_rows_iff]

theorem insert_eq_none_iff {t : Table K V} {k : K} {v : V} :
    t.insert k v = none ↔ ∃ v, t.get k = some v := by
  rw [← mem_keys_iff, insert]
  split <;> simp_all

theorem get_eq_none_of_insert {t t' : Table K V} {k : K} {v : V} (h : t.insert k v = some t') :
    t.get k = none := by
  by_contra hne
  obtain ⟨v', hv'⟩ := Option.ne_none_iff_exists'.mp hne
  simp [insert_eq_none_iff.mpr ⟨v', hv'⟩] at h

theorem rows_of_insert {t t' : Table K V} {k : K} {v : V} (h : t.insert k v = some t') :
    t'.rows = t.rows ++ [(k, v)] := by
  unfold insert at h
  split at h
  · simp at h
  · rw [← Option.some.inj h]

theorem exists_insert {t : Table K V} {k : K} (v : V) (h : t.get k = none) :
    ∃ t', t.insert k v = some t' := by
  apply Option.ne_none_iff_exists'.mp
  rw [Ne, insert_eq_none_iff]
  simp [h]

theorem get_insert {t t' : Table K V} {k : K} {v : V} (h : t.insert k v = some t') (k' : K) :
    t'.get k' = if k' = k then some v else t.get k' := by
  have hnone := get_eq_none_of_insert h
  by_cases hk : k' = k
  · subst hk
    rw [if_pos rfl, ← mem_rows_iff, rows_of_insert h]
    simp
  · have hkey : ¬ k = k' := fun h' => hk h'.symm
    simp [get, rows_of_insert h, hk, hkey]

theorem get_insert_of_get {t t' : Table K V} {k k' : K} {v v' : V}
    (h : t.insert k v = some t') (hk : t.get k' = some v') : t'.get k' = some v' := by
  have hne : k' ≠ k := by
    rintro rfl
    simp [get_eq_none_of_insert h] at hk
  rw [get_insert h, if_neg hne, hk]

@[simp] theorem get_updateWhere (t : Table K V) (p : K → V → Bool) (f : V → V) (k : K) :
    (t.updateWhere p f).get k = (t.get k).map fun v => if p k v then f v else v := by
  unfold get updateWhere
  rw [List.find?_map]
  cases h : t.rows.find? fun e => e.1 = k with
  | none => simp [h]
  | some e =>
    have hkey : e.1 = k := by simpa using List.find?_some h
    simp [h, hkey]

@[simp] theorem get_update (t : Table K V) (k k' : K) (f : V → V) :
    (t.update k f).get k' = if k' = k then (t.get k').map f else t.get k' := by
  rw [update, get_updateWhere]
  by_cases h : k' = k <;> simp [h]

theorem total_insert {t t' : Table K V} {k : K} {v : V} (h : t.insert k v = some t')
    (g : K → V → ℕ) : t'.total g = t.total g + g k v := by
  simp [total, rows_of_insert h]

omit [DecidableEq K] in
theorem total_updateWhere {t : Table K V} {p : K → V → Bool} {f : V → V} {g : K → V → ℕ}
    (h : ∀ k v, p k v = true → g k (f v) = g k v) :
    (t.updateWhere p f).total g = t.total g := by
  unfold total updateWhere
  rw [List.map_map]
  congr 1
  apply List.map_congr_left
  intro e _
  by_cases hp : p e.1 e.2 = true <;> simp [hp, h]

theorem total_update_add {t : Table K V} {k : K} {v : V} {f : V → V} {g : K → V → ℕ}
    (hk : t.get k = some v) : (t.update k f).total g + g k v = t.total g + g k (f v) := by
  obtain ⟨before, after, hrows⟩ := List.append_of_mem (mem_rows_iff.mpr hk)
  have hd := t.distinct
  rw [hrows, List.map_append, List.map_cons, List.nodup_append, List.nodup_cons] at hd
  have hother : ∀ l : List (K × V), k ∉ l.map Prod.fst →
      l.map ((fun e : K × V => g e.1 e.2) ∘
        fun e => (e.1, if decide (e.1 = k) = true then f e.2 else e.2)) =
      l.map fun e => g e.1 e.2 := by
    intro l hl
    apply List.map_congr_left
    intro e he
    have hne : e.1 ≠ k := fun heq => hl (heq ▸ List.mem_map_of_mem he)
    simp [hne]
  have hbefore : k ∉ before.map Prod.fst := fun hmem => hd.2.2 k hmem k (by simp) rfl
  simp only [total, update, updateWhere, hrows, List.map_map, List.map_append, List.map_cons,
    List.sum_append, List.sum_cons, decide_true, if_true,
    hother before hbefore, hother after hd.2.1.1]
  omega

/-- A change of one row that adds `n` to its quantity adds `n` to the sum. -/
theorem total_update {t : Table K V} {k : K} {v : V} {f : V → V} {g : K → V → ℕ} {n : ℕ}
    (hk : t.get k = some v) (h : g k (f v) = g k v + n) :
    (t.update k f).total g = t.total g + n := by
  have hsum := total_update_add (f := f) (g := g) hk
  omega

end Table

end RowTable
