import Rheonic.Lib.Program
import Rheonic.Lib.RowTable

namespace CommandProgram.Program

variable {C C' : Type} {R : C → Type} {R' : C' → Type} {ε α α' β β' S S' : Type}

/-- Two answers that are related, or the same failure. -/
inductive AnswersRelated (Q : α → α' → Prop) : Except ε α → Except ε α' → Prop
  | ok {a : α} {a' : α'} (h : Q a a') : AnswersRelated Q (.ok a) (.ok a')
  | error (e : ε) : AnswersRelated Q (.error e) (.error e)

/-- Two programs, run side by side from related states, give related answers and leave related
states behind. -/
def Coupled (m : Machine C R ε S) (m' : Machine C' R' ε S') (I : S → S' → Prop)
    (Q : α → α' → Prop) (p : Program C R ε α) (p' : Program C' R' ε α') : Prop :=
  ∀ s s', I s s' → AnswersRelated Q (run m p s).1 (run m' p' s').1 ∧
    I (run m p s).2 (run m' p' s').2

namespace Coupled

variable {m : Machine C R ε S} {m' : Machine C' R' ε S'} {I : S → S' → Prop}
  {Q : α → α' → Prop} {T : β → β' → Prop}

theorem pure {a : α} {a' : α'} (h : Q a a') :
    Coupled m m' I Q (Pure.pure a : Program C R ε α) (Pure.pure a' : Program C' R' ε α') :=
  fun _ _ hs => ⟨.ok h, hs⟩

theorem throw (e : ε) :
    Coupled m m' I Q (throw e : Program C R ε α) (throw e : Program C' R' ε α') :=
  fun _ _ hs => ⟨.error e, hs⟩

theorem perform (c : C) (c' : C') {Q : R c → R' c' → Prop}
    (h : ∀ s s', I s s' → AnswersRelated Q (m c s).1 (m' c' s').1 ∧ I (m c s).2 (m' c' s').2) :
    Coupled m m' I Q (Program.perform c : Program C R ε (R c))
      (Program.perform c' : Program C' R' ε (R' c')) := by
  intro s s' hs
  rw [run_perform, run_perform]
  exact h s s' hs

theorem bind {p : Program C R ε α} {p' : Program C' R' ε α'} {f : α → Program C R ε β}
    {f' : α' → Program C' R' ε β'} (hp : Coupled m m' I Q p p')
    (hf : ∀ a a', Q a a' → Coupled m m' I T (f a) (f' a')) :
    Coupled m m' I T (p >>= f) (p' >>= f') := by
  intro s s' hs
  obtain ⟨hanswer, hafter⟩ := hp s s' hs
  rw [run_bind, run_bind]
  generalize run m p s = x at hanswer hafter ⊢
  generalize run m' p' s' = x' at hanswer hafter ⊢
  obtain ⟨answer, t⟩ := x
  obtain ⟨answer', t'⟩ := x'
  cases hanswer with
  | ok ha => exact hf _ _ ha t t' hafter
  | error e => exact ⟨.error e, hafter⟩

theorem tryCatch {p : Program C R ε α} {p' : Program C' R' ε α'} {h : ε → Program C R ε α}
    {h' : ε → Program C' R' ε α'} (hp : Coupled m m' I Q p p')
    (hh : ∀ e, Coupled m m' I Q (h e) (h' e)) :
    Coupled m m' I Q (tryCatchThe ε p h) (tryCatchThe ε p' h') := by
  intro s s' hs
  obtain ⟨hanswer, hafter⟩ := hp s s' hs
  rw [run_tryCatch, run_tryCatch]
  generalize run m p s = x at hanswer hafter ⊢
  generalize run m' p' s' = x' at hanswer hafter ⊢
  obtain ⟨answer, t⟩ := x
  obtain ⟨answer', t'⟩ := x'
  cases hanswer with
  | ok ha => exact ⟨.ok ha, hafter⟩
  | error e => exact hh e t t' hafter

theorem ite {b : Prop} [Decidable b] {p q : Program C R ε α} {p' q' : Program C' R' ε α'}
    (hp : b → Coupled m m' I Q p p') (hq : ¬b → Coupled m m' I Q q q') :
    Coupled m m' I Q (if b then p else q) (if b then p' else q') := by
  by_cases hb : b
  · rw [if_pos hb, if_pos hb]
    exact hp hb
  · rw [if_neg hb, if_neg hb]
    exact hq hb

end Coupled

theorem AnswersRelated.eq {x y : Except ε α} (h : AnswersRelated Eq x y) : x = y := by
  cases h with
  | ok ha => rw [ha]
  | error e => rfl

theorem AnswersRelated.refl (x : Except ε α) : AnswersRelated Eq x x := by
  cases x with
  | ok a => exact .ok rfl
  | error e => exact .error e

end CommandProgram.Program

namespace RowTable

section Lists

variable {α α' ι : Type} {P : α → α' → Prop} {l : List α} {l' : List α'}

theorem argmax_related [LinearOrder ι] {f : α → ι} {f' : α' → ι}
    (hf : ∀ a a', P a a' → f a = f' a') (h : List.Forall₂ P l l') :
    Option.Rel P (l.argmax f) (l'.argmax f') := by
  induction h with
  | nil => exact .none
  | cons ha _ ih =>
    rw [List.argmax_cons, List.argmax_cons]
    generalize List.argmax f _ = x at ih
    generalize List.argmax f' _ = x' at ih
    cases ih with
    | none => exact .some ha
    | some hb =>
      dsimp only
      rw [hf _ _ ha, hf _ _ hb]
      split
      · exact .some hb
      · exact .some ha

theorem insertionSort_related {r : α → α → Prop} {r' : α' → α' → Prop} [DecidableRel r]
    [DecidableRel r'] (hr : ∀ a a' b b', P a a' → P b b' → (r a b ↔ r' a' b'))
    (h : List.Forall₂ P l l') : List.Forall₂ P (l.insertionSort r) (l'.insertionSort r') := by
  have hinsert : ∀ {a : α} {a' : α'} {k : List α} {k' : List α'}, P a a' → List.Forall₂ P k k' →
      List.Forall₂ P (k.orderedInsert r a) (k'.orderedInsert r' a') := by
    intro a a' k k' ha hk
    induction hk with
    | nil => exact .cons ha .nil
    | @cons b b' k k' hb hrest ih =>
      rw [List.orderedInsert_cons, List.orderedInsert_cons]
      by_cases hle : r a b
      · rw [if_pos hle, if_pos ((hr _ _ _ _ ha hb).mp hle)]
        exact .cons ha (.cons hb hrest)
      · rw [if_neg hle, if_neg (fun hle' => hle ((hr _ _ _ _ ha hb).mpr hle'))]
        exact .cons hb ih
  induction h with
  | nil => exact .nil
  | cons ha _ ih => exact hinsert ha ih

end Lists

namespace Table

variable {K V V' : Type} {P : V → V' → Prop}

/-- Two rows with one key and related values. -/
def RowRelated (P : V → V' → Prop) (e : K × V) (e' : K × V') : Prop := e.1 = e'.1 ∧ P e.2 e'.2

/-- Two tables with the same keys in the same order, and related values under each. -/
def Related (P : V → V' → Prop) (t : Table K V) (t' : Table K V') : Prop :=
  List.Forall₂ (RowRelated P) t.rows t'.rows

namespace Related

variable {t : Table K V} {t' : Table K V'}

theorem refl {P : V → V → Prop} {t : Table K V} (h : ∀ e ∈ t.rows, P e.2 e.2) : Related P t t :=
  List.forall₂_same.mpr fun e he => ⟨rfl, h e he⟩

theorem keys_eq (h : Related P t t') : t.keys = t'.keys := by
  have hkeys : List.Forall₂ Eq (t.rows.map Prod.fst) (t'.rows.map Prod.fst) :=
    List.rel_map (fun _ _ he => he.1) h
  rw [List.forall₂_eq_eq_eq] at hkeys
  exact hkeys

theorem select (h : Related P t t') {p : K → V → Bool} {p' : K → V' → Bool}
    (hp : ∀ k v v', P v v' → p k v = p' k v') :
    List.Forall₂ (RowRelated P) (t.select p) (t'.select p') := by
  refine List.rel_filter ?_ h
  intro e e' he
  have hsame : p e.1 e.2 = p' e'.1 e'.2 := by rw [← he.1, hp e.1 e.2 e'.2 he.2]
  exact iff_of_eq (congrArg (· = true) hsame)

variable [DecidableEq K]

theorem get (h : Related P t t') (k : K) : Option.Rel P (t.get k) (t'.get k) := by
  have hfind : ∀ {l : List (K × V)} {l' : List (K × V')}, List.Forall₂ (RowRelated P) l l' →
      Option.Rel P ((l.find? fun e => e.1 = k).map Prod.snd)
        ((l'.find? fun e => e.1 = k).map Prod.snd) := by
    intro l l' hl
    induction hl with
    | nil => exact .none
    | @cons e e' l l' he _ ih =>
      rw [List.find?_cons, List.find?_cons, ← he.1]
      by_cases hk : e.1 = k
      · simp only [hk, decide_true]
        exact .some he.2
      · simp only [hk, decide_false]
        exact ih
  exact hfind h

theorem update (h : Related P t t') (k : K) {f : V → V} {f' : V' → V'}
    (hf : ∀ v v', P v v' → P (f v) (f' v')) : Related P (t.update k f) (t'.update k f') := by
  refine List.rel_map ?_ h
  intro e e' he
  refine ⟨he.1, ?_⟩
  dsimp only
  rw [← he.1]
  by_cases hk : e.1 = k
  · simp only [hk, decide_true, if_true]
    exact hf _ _ he.2
  · simp only [hk, decide_false]
    exact he.2

theorem insert (h : Related P t t') (k : K) {v : V} {v' : V'} (hv : P v v') :
    Option.Rel (Related P) (t.insert k v) (t'.insert k v') := by
  unfold Table.insert
  have hkeys := h.keys_eq
  by_cases hk : k ∈ t.keys
  · rw [dif_pos hk, dif_pos (hkeys ▸ hk)]
    exact .none
  · rw [dif_neg hk, dif_neg (hkeys ▸ hk)]
    exact .some (List.rel_append h (.cons ⟨rfl, hv⟩ .nil))

end Related

end Table

end RowTable
