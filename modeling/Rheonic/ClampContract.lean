import Rheonic.ProtectEngine
import Rheonic.Lib.Objects

namespace Rheonic.Providers
open ProtectEngine

section Contract

variable {χ κ ν L : Type} [Min L] [LT L]

/-- A limit under a recommended one; without a limit the recommended one. -/
def capped (original : Option L) (recommended : L) : L :=
  match original with
  | some original => min original recommended
  | none => recommended

/-- The limit has been lowered or newly introduced. -/
def Tightened (original effective : Option L) : Prop :=
  ∃ e, effective = some e ∧ ∀ o, original = some o → e < o

def reportsApplied (decision : Evaluation) : Bool := decision.clamp.any fun clamp => clamp.applied

/-- `_mark_clamp_applied_if_changed` of every adapter. -/
def markClampAppliedIfChanged [DecidableLT L] (decision : Evaluation)
    (originalMaxTokens appliedMaxTokens : Option L) : Evaluation :=
  match decision.clamp, appliedMaxTokens with
  | some clamp, some applied =>
    if originalMaxTokens.all fun original => decide (applied < original) then
      { decision with clamp := some { clamp with applied := true } }
    else decision
  | _, _ => decision

/-- What a clamp owes the caller: the limit that the adapter reads in the call is under the
recommended one, nothing but limits differs, no object of the caller is changed, and the clamp is
reported when it has made a difference. Otherwise the call is the caller's. -/
structure Enforced (limit : χ → Option L) (Alike : χ → χ → Prop) (heap : χ → Heap κ ν)
    (ClampsTo : L → Prop) (c : χ) (result : χ × Evaluation) : Prop where
  limited : ∀ r, ClampsTo r → limit result.1 = some (capped (limit c) r)
  alike : Alike c result.1
  unmutated : heap c <+: heap result.1
  applied : reportsApplied result.2 = true ↔ Tightened (limit c) (limit result.1)
  otherwise : (∀ r, ¬ ClampsTo r) → result.1 = c

end Contract

section Mark

variable {L : Type} [LT L] {decision : Evaluation} {clamp : Clamp} {original effective : Option L}

theorem not_tightened_self (hirrefl : ∀ l : L, ¬ l < l) : ¬ Tightened original original := by
  intro h
  obtain ⟨e, he, hlower⟩ := h
  exact hirrefl e (hlower e he)

theorem reportsApplied_of_fresh (h : ∀ clamp, decision.clamp = some clamp → clamp.applied = false) :
    reportsApplied decision = false := by
  unfold reportsApplied
  cases hclamp : decision.clamp with
  | none => rfl
  | some clamp => exact h clamp hclamp

theorem reportsApplied_mark_iff [DecidableLT L] (hclamp : decision.clamp = some clamp)
    (hfresh : clamp.applied = false) :
    reportsApplied (markClampAppliedIfChanged decision original effective) = true ↔
      Tightened original effective := by
  unfold markClampAppliedIfChanged
  rw [hclamp]
  cases effective with
  | none =>
    have hnot : ¬ Tightened original none := fun h => Option.some_ne_none _ h.choose_spec.1.symm
    dsimp only
    rw [iff_false_intro hnot, iff_false, Bool.not_eq_true]
    unfold reportsApplied
    rw [hclamp]
    exact hfresh
  | some e =>
    dsimp only
    by_cases hlower : original.all (fun original => decide (e < original)) = true
    · rw [if_pos hlower]
      refine iff_of_true rfl ⟨e, rfl, fun o ho => ?_⟩
      rw [ho, Option.all_some] at hlower
      exact of_decide_eq_true hlower
    · rw [if_neg hlower]
      refine iff_of_false ?_ fun h => hlower ?_
      · rw [Bool.not_eq_true]
        unfold reportsApplied
        rw [hclamp]
        exact hfresh
      · obtain ⟨e', he, hall⟩ := h
        rw [Option.all_eq_true]
        intro o ho
        exact decide_eq_true (Option.some.inj he ▸ hall o ho)

theorem mark_self [DecidableLT L] (hirrefl : ∀ l : L, ¬ l < l) :
    markClampAppliedIfChanged decision original original = decision := by
  unfold markClampAppliedIfChanged
  cases decision.clamp with
  | none => rfl
  | some clamp =>
    cases original with
    | none => rfl
    | some limit =>
      dsimp only
      rw [Option.all_some, decide_eq_false (hirrefl limit), if_neg (by decide)]

end Mark

section Places

variable {π L : Type} [LE L] [Min L] {before after : π → Option L} {places : List π} {target : π}

/-- When a clamp writes to one place, the limit that is read and every other one obey a bound as
soon as the other places obeyed it and the one that is written does. -/
theorem limits_bounded_iff (r bound : L) (hmem : target ∈ places)
    (hother : ∀ p ∈ places, p ≠ target → after p = before p)
    (htarget : after target = some (capped (before target) r)) :
    ((∃ e, places.findSome? after = some e ∧ e ≤ bound) ∧
      ∀ p ∈ places, ∀ l, after p = some l → l ≤ bound) ↔
    (∀ p ∈ places, p ≠ target → ∀ l, before p = some l → l ≤ bound) ∧
      capped (before target) r ≤ bound := by
  constructor
  · intro h
    refine ⟨fun p hp hne l hl => ?_, h.2 target hmem _ htarget⟩
    exact h.2 p hp l ((hother p hp hne).trans hl)
  · intro h
    have hall : ∀ p ∈ places, ∀ l, after p = some l → l ≤ bound := by
      intro p hp l hl
      by_cases heq : p = target
      · rw [heq, htarget] at hl
        rw [← Option.some.inj hl]
        exact h.2
      · exact h.1 p hp heq l ((hother p hp heq).symm.trans hl)
    refine ⟨?_, hall⟩
    cases hfind : places.findSome? after with
    | none =>
      have hnone := List.findSome?_eq_none_iff.mp hfind target hmem
      rw [htarget] at hnone
      exact absurd hnone (Option.some_ne_none _)
    | some e =>
      obtain ⟨p, hp, he⟩ := List.exists_of_findSome?_eq_some hfind
      exact ⟨e, rfl, hall p hp e he⟩

end Places

section Records

variable {β κ ν : Type}

/-- A value with the object that it refers to keeps all fields but the changed ones: it stays, it is
introduced where there was none, or it is copied. -/
def RecordKept (changed : List String) (absent : β → Prop) (old new : β × Option (Object κ ν)) :
    Prop :=
  new = old ∨
  (absent old.1 ∧ ∃ object, new.2 = some object ∧
    ∀ key ∉ changed, object.fields.get key = none) ∨
  ∃ object object', old.2 = some object ∧ new.2 = some object' ∧ object'.kind = object.kind ∧
    ∀ key ∉ changed, object'.fields.get key = object.fields.get key

end Records

end Rheonic.Providers
