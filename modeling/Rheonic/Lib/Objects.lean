import Mathlib

/-- The fields of an object by their names. -/
abbrev Fields (ν : Type) := List (String × ν)

namespace Fields

variable {ν : Type} {fields : Fields ν} {key other : String} {value : ν}

def get : Fields ν → String → Option ν
  | [], _ => none
  | (key, value) :: fields, wanted => if key = wanted then some value else get fields wanted

/-- Assigning to a field keeps its place, or adds it at the end. -/
def set : Fields ν → String → ν → Fields ν
  | [], key, value => [(key, value)]
  | (key, old) :: fields, wanted, value =>
    if key = wanted then (key, value) :: fields else (key, old) :: set fields wanted value

@[simp]
theorem get_set_self (fields : Fields ν) (key : String) (value : ν) :
    (fields.set key value).get key = some value := by
  induction fields with
  | nil => simp [set, get]
  | cons field fields ih =>
    unfold set
    by_cases hkey : field.1 = key
    · simp [hkey, get]
    · simp [hkey, get, ih]

theorem get_set_of_ne (fields : Fields ν) (value : ν) (h : key ≠ other) :
    (fields.set key value).get other = fields.get other := by
  induction fields with
  | nil => simp [set, get, h]
  | cons field fields ih =>
    unfold set
    by_cases hkey : field.1 = key
    · have hother : field.1 ≠ other := hkey ▸ h
      simp [hkey, get, h]
    · simp [hkey, get, ih]

theorem mem_of_get (h : fields.get key = some value) : (key, value) ∈ fields := by
  induction fields with
  | nil => exact absurd h (Option.some_ne_none _).symm
  | cons field fields ih =>
    unfold get at h
    by_cases hkey : field.1 = key
    · rw [if_pos hkey] at h
      rw [← hkey, ← Option.some.inj h]
      exact List.mem_cons_self
    · rw [if_neg hkey] at h
      exact List.mem_cons_of_mem _ (ih h)

theorem get_eq_none_iff : fields.get key = none ↔ key ∉ fields.map Prod.fst := by
  induction fields with
  | nil => simp [get]
  | cons field fields ih =>
    rw [List.map_cons, List.mem_cons, not_or, ← ih, get]
    by_cases hkey : field.1 = key
    · rw [if_pos hkey]
      exact iff_of_false (Option.some_ne_none _) fun h => h.1 hkey.symm
    · rw [if_neg hkey]
      exact ⟨fun h => ⟨Ne.symm hkey, h⟩, fun h => h.2⟩

theorem get_eq_some_iff (hnames : (fields.map Prod.fst).Nodup) :
    fields.get key = some value ↔ (key, value) ∈ fields := by
  refine ⟨mem_of_get, fun hmem => ?_⟩
  induction fields with
  | nil => exact absurd hmem List.not_mem_nil
  | cons field fields ih =>
    rw [List.map_cons, List.nodup_cons] at hnames
    rw [get]
    rcases List.mem_cons.mp hmem with rfl | hmem
    · exact if_pos rfl
    · have hkey : field.1 ≠ key := by
        intro hkey
        have hused : key ∈ fields.map Prod.fst := List.mem_map_of_mem (f := Prod.fst) hmem
        exact hnames.1 (hkey ▸ hused)
      rw [if_neg hkey]
      exact ih hnames.2 hmem

/-- The first of the keys whose field is read as something. -/
def firstKey {β : Type} (read : ν → Option β) (fields : Fields ν) (keys : List String) :
    Option String :=
  keys.find? fun key => ((fields.get key).bind read).isSome

/-- What is read in the first such field. -/
def firstRead {β : Type} (read : ν → Option β) (fields : Fields ν) (keys : List String) :
    Option β :=
  keys.findSome? fun key => (fields.get key).bind read

section Reads

variable {β : Type} {read : ν → Option β} {keys : List String} {b : β}

theorem firstRead_eq (h : firstKey read fields keys = some key) :
    firstRead read fields keys = (fields.get key).bind read := by
  unfold firstKey at h
  unfold firstRead
  induction keys with
  | nil => exact absurd h (Option.some_ne_none _).symm
  | cons first keys ih =>
    rw [List.find?_cons] at h
    rw [List.findSome?_cons]
    cases hread : (fields.get first).bind read with
    | some b =>
      rw [hread, Option.isSome_some] at h
      rw [← Option.some.inj h, hread]
    | none =>
      rw [hread, Option.isSome_none] at h
      exact ih h

theorem firstRead_eq_none (h : firstKey read fields keys = none) :
    firstRead read fields keys = none := by
  rw [firstRead, List.findSome?_eq_none_iff]
  intro key hkey
  have hnone := List.find?_eq_none.mp h key hkey
  rwa [Bool.not_eq_true, Option.isSome_eq_false_iff, Option.isNone_iff_eq_none] at hnone

theorem firstKey_mem (h : firstKey read fields keys = some key) : key ∈ keys :=
  List.mem_of_find?_eq_some h

theorem firstRead_set (h : firstKey read fields keys = some key) (hvalue : read value = some b) :
    firstRead read (fields.set key value) keys = some b := by
  have hreadable := List.find?_some h
  unfold firstKey at h
  unfold firstRead
  induction keys with
  | nil => exact absurd h (Option.some_ne_none _).symm
  | cons first keys ih =>
    rw [List.find?_cons] at h
    rw [List.findSome?_cons]
    by_cases hfirst : first = key
    · rw [hfirst, get_set_self, Option.bind_some, hvalue]
    · rw [get_set_of_ne fields value (Ne.symm hfirst)]
      cases hread : (fields.get first).bind read with
      | some c =>
        rw [hread, Option.isSome_some] at h
        exact absurd (Option.some.inj h) hfirst
      | none =>
        rw [hread, Option.isSome_none] at h
        exact ih h

theorem firstRead_set_of_none (h : firstKey read fields keys = none) (hkey : key ∈ keys)
    (hvalue : read value = some b) : firstRead read (fields.set key value) keys = some b := by
  unfold firstKey at h
  unfold firstRead
  induction keys with
  | nil => exact absurd hkey List.not_mem_nil
  | cons first keys ih =>
    rw [List.findSome?_cons]
    by_cases hfirst : first = key
    · rw [hfirst, get_set_self, Option.bind_some, hvalue]
    · rw [get_set_of_ne fields value (Ne.symm hfirst)]
      have hnone := List.find?_eq_none.mp h first List.mem_cons_self
      rw [Bool.not_eq_true, Option.isSome_eq_false_iff, Option.isNone_iff_eq_none] at hnone
      rw [hnone]
      rw [List.find?_cons, hnone] at h
      exact ih h ((List.mem_cons.mp hkey).resolve_left (Ne.symm hfirst))

end Reads

end Fields

/-- An object in memory, of some kind. -/
structure Object (κ ν : Type) where
  kind : κ
  fields : Fields ν
  deriving DecidableEq, Repr

/-- The objects in memory; a reference is an index. -/
abbrev Heap (κ ν : Type) := List (Object κ ν)

namespace Heap

variable {κ ν : Type} {heap : Heap κ ν} {object : Object κ ν} {ref : ℕ}

/-- A new object, with its reference. -/
def alloc (heap : Heap κ ν) (object : Object κ ν) : Heap κ ν × ℕ :=
  (heap ++ [object], heap.length)

/-- Assigning to a field of an object changes it in place. -/
def assign (heap : Heap κ ν) (ref : ℕ) (key : String) (value : ν) : Heap κ ν :=
  heap.modify ref fun object => { object with fields := object.fields.set key value }

@[simp]
theorem alloc_read (heap : Heap κ ν) (object : Object κ ν) :
    (heap.alloc object).1[(heap.alloc object).2]? = some object := by
  simp [alloc]

theorem extends_alloc (heap : Heap κ ν) (object : Object κ ν) : heap <+: (heap.alloc object).1 :=
  List.prefix_append _ _

theorem alloc_assign (heap : Heap κ ν) (object : Object κ ν) (key : String) (value : ν) :
    (heap.alloc object).1.assign (heap.alloc object).2 key value =
      (heap.alloc { object with fields := object.fields.set key value }).1 := by
  unfold alloc assign
  dsimp only
  induction heap with
  | nil => rfl
  | cons first heap ih =>
    rw [List.cons_append, List.length_cons, List.modify_succ_cons, ih, List.cons_append]

theorem read_of_extends {heap' : Heap κ ν} (h : heap <+: heap') (hread : heap[ref]? = some object) :
    heap'[ref]? = some object := by
  obtain ⟨newer, rfl⟩ := h
  rw [List.getElem?_append_left (List.getElem?_eq_some_iff.mp hread).1]
  exact hread

end Heap
