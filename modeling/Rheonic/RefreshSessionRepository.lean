import Rheonic.Lib.Program
import Rheonic.Lib.RowTable

namespace Rheonic.RefreshSessionRepository
open CommandProgram RowTable

structure RefreshSession where
  jti : String
  userId : String
  createdAt : ℕ
  expiresAt : ℕ
  revokedAt : Option ℕ := none
  replacedByJti : Option String := none
  deriving DecidableEq, Repr

inductive Exn
  | http (status : ℕ) (detail : String)
  | integrity
  deriving DecidableEq, Repr

/-- The transactions of the repository. `now` is read when the statement of a rotation is built. -/
inductive Command
  | createSession (session : RefreshSession)
  | getByJti (jti : String)
  | rotateSession (currentJti : String) (replacement : RefreshSession) (revokedAt now : ℕ)
  | revokeSession (jti : String) (revokedAt : ℕ)

def Reply : Command → Type
  | .createSession _ => Unit
  | .getByJti _ => Option RefreshSession
  | .rotateSession .. => Bool
  | .revokeSession .. => Bool

abbrev Sessions := Table String RefreshSession

def createSession (session : RefreshSession) (t : Sessions) : Except Exn Unit × Sessions :=
  match t.insert session.jti session with
  | some t' => (.ok (), t')
  | none => (.error .integrity, t)

/-- The conditional update and the insert of the replacement are one transaction: a taken id
rolls both back. -/
def rotateSession (currentJti : String) (replacement : RefreshSession) (revokedAt now : ℕ)
    (t : Sessions) : Except Exn Bool × Sessions :=
  if (t.get currentJti).any fun s => s.revokedAt = none ∧ now < s.expiresAt then
    let updated := t.update currentJti fun s =>
      { s with revokedAt := some revokedAt, replacedByJti := some replacement.jti }
    match updated.insert replacement.jti replacement with
    | some t' => (.ok true, t')
    | none => (.error .integrity, t)
  else (.ok false, t)

def revokeSession (jti : String) (revokedAt : ℕ) (t : Sessions) : Except Exn Bool × Sessions :=
  if (t.get jti).any fun s => s.revokedAt = none then
    (.ok true, t.update jti fun s => { s with revokedAt := some revokedAt })
  else (.ok false, t)

def exec : Program.Machine Command Reply Exn Sessions
  | .createSession session, t => createSession session t
  | .getByJti jti, t => (.ok (t.get jti), t)
  | .rotateSession currentJti replacement revokedAt now, t =>
    rotateSession currentJti replacement revokedAt now t
  | .revokeSession jti revokedAt, t => revokeSession jti revokedAt t

def Revoked (t : Sessions) (jti : String) : Prop :=
  ∃ s, t.get jti = some s ∧ s.revokedAt ≠ none

def Unrevoked (t : Sessions) (jti : String) : Prop :=
  ∃ s, t.get jti = some s ∧ s.revokedAt = none

/-- The session `jti'` has replaced the session `jti`. -/
def Rotated (t : Sessions) (jti jti' : String) : Prop :=
  ∃ s, t.get jti = some s ∧ s.replacedByJti = some jti'

/-- The sessions of the rotation chain that starts with `root`. -/
def Chain (t : Sessions) (root jti : String) : Prop :=
  Relation.ReflTransGen (Rotated t) root jti

def Linked (t : Sessions) : Prop := ∀ jti jti', Rotated t jti jti' → Revoked t jti

theorem Revoked.not_unrevoked {t : Sessions} {jti : String} (h : Revoked t jti) :
    ¬ Unrevoked t jti := by
  rintro ⟨s', hs', hnone⟩
  obtain ⟨s, hs, hne⟩ := h
  obtain rfl : s = s' := Option.some.inj (hs.symm.trans hs')
  exact hne hnone

theorem Rotated.unique {t : Sessions} {jti jti₁ jti₂ : String} (h₁ : Rotated t jti jti₁)
    (h₂ : Rotated t jti jti₂) : jti₁ = jti₂ := by
  obtain ⟨s, hs, h₁⟩ := h₁
  obtain ⟨s', hs', h₂⟩ := h₂
  obtain rfl : s = s' := Option.some.inj (hs.symm.trans hs')
  exact Option.some.inj (h₁.symm.trans h₂)

theorem Linked.chain_unrevoked_unique {t : Sessions} {root jti₁ jti₂ : String} (h : Linked t)
    (h₁ : Chain t root jti₁) (h₂ : Chain t root jti₂) (hu₁ : Unrevoked t jti₁)
    (hu₂ : Unrevoked t jti₂) : jti₁ = jti₂ := by
  have hend : ∀ jti jti', Unrevoked t jti → Chain t jti jti' → jti = jti' := by
    intro jti jti' hu hc
    rcases hc.cases_head with heq | ⟨next, hstep, _⟩
    · exact heq
    · exact absurd hu (h _ _ hstep).not_unrevoked
  have hunique : Relator.RightUnique (Rotated t) := fun _ _ _ => Rotated.unique
  rcases h₁.total_of_right_unique hunique h₂ with h₁₂ | h₂₁
  · exact hend _ _ hu₁ h₁₂
  · exact (hend _ _ hu₂ h₂₁).symm

/-- How a session may change: it is revoked and replaced at most once, and otherwise kept. -/
def Ages (s s' : RefreshSession) : Prop :=
  (s.revokedAt ≠ none → s'.revokedAt ≠ none) ∧
    (∀ jti, s.replacedByJti = some jti → s'.replacedByJti = some jti)

def Grows (t t' : Sessions) : Prop :=
  ∀ jti s, t.get jti = some s → ∃ s', t'.get jti = some s' ∧ Ages s s'

theorem Ages.refl (s : RefreshSession) : Ages s s := ⟨id, fun _ h => h⟩

theorem Grows.refl (t : Sessions) : Grows t t := fun _ s hs => ⟨s, hs, .refl s⟩

theorem Grows.trans {t t' t'' : Sessions} (h : Grows t t') (h' : Grows t' t'') : Grows t t'' := by
  intro jti s hs
  obtain ⟨s', hs', ha⟩ := h jti s hs
  obtain ⟨s'', hs'', ha'⟩ := h' jti s' hs'
  exact ⟨s'', hs'', fun hr => ha'.1 (ha.1 hr), fun j hj => ha'.2 j (ha.2 j hj)⟩

theorem Grows.revoked {t t' : Sessions} {jti : String} (h : Grows t t') (hr : Revoked t jti) :
    Revoked t' jti := by
  obtain ⟨s, hs, hne⟩ := hr
  obtain ⟨s', hs', ha⟩ := h jti s hs
  exact ⟨s', hs', ha.1 hne⟩

theorem Grows.rotated {t t' : Sessions} {jti jti' : String} (h : Grows t t')
    (hr : Rotated t jti jti') : Rotated t' jti jti' := by
  obtain ⟨s, hs, hj⟩ := hr
  obtain ⟨s', hs', ha⟩ := h jti s hs
  exact ⟨s', hs', ha.2 jti' hj⟩

theorem grows_insert {t t' : Sessions} {jti : String} {s : RefreshSession}
    (h : t.insert jti s = some t') : Grows t t' :=
  fun _ s' hs' => ⟨s', Table.get_insert_of_get h hs', .refl s'⟩

theorem grows_update {t : Sessions} {jti : String} {f : RefreshSession → RefreshSession}
    (h : ∀ s, t.get jti = some s → Ages s (f s)) : Grows t (t.update jti f) := by
  intro jti' s hs
  by_cases hj : jti' = jti
  · subst hj
    exact ⟨f s, by simp [hs], h s hs⟩
  · exact ⟨s, by simp [hj, hs], .refl s⟩

/-- A rotation either leaves everything as it is, or finds the session unrevoked and leaves it
revoked and replaced. -/
theorem rotateSession_cases (currentJti : String) (replacement : RefreshSession)
    (revokedAt now : ℕ) (t : Sessions) :
    (rotateSession currentJti replacement revokedAt now t).2 = t ∧
        (rotateSession currentJti replacement revokedAt now t).1 ≠ .ok true ∨
      ∃ s t', t.get currentJti = some s ∧ s.revokedAt = none ∧
        (t.update currentJti fun s => { s with
          revokedAt := some revokedAt, replacedByJti := some replacement.jti }).insert
            replacement.jti replacement = some t' ∧
        rotateSession currentJti replacement revokedAt now t = (.ok true, t') := by
  unfold rotateSession
  split
  next hany =>
    dsimp only
    split
    next t' hins =>
      obtain ⟨s, hs, hopen⟩ := (Option.any_eq_true _ _).mp hany
      have hnone : s.revokedAt = none := (of_decide_eq_true hopen).1
      exact .inr ⟨s, t', hs, hnone, hins, rfl⟩
    next => exact .inl ⟨rfl, by simp⟩
  next => exact .inl ⟨rfl, by simp⟩

theorem rotateSession_grows (currentJti : String) (replacement : RefreshSession)
    (revokedAt now : ℕ) (t : Sessions) (hl : Linked t) :
    Grows t (rotateSession currentJti replacement revokedAt now t).2 := by
  rcases rotateSession_cases currentJti replacement revokedAt now t with
    ⟨hsame, _⟩ | ⟨s, t', hs, hnone, hins, heq⟩
  · rw [hsame]
    exact .refl t
  · rw [heq]
    refine Grows.trans (grows_update ?_) (grows_insert hins)
    intro s' hs'
    obtain rfl : s = s' := Option.some.inj (hs.symm.trans hs')
    refine ⟨fun _ => by simp, fun jti hj => ?_⟩
    exact absurd ⟨s, hs, hnone⟩ (hl _ _ ⟨s, hs, hj⟩).not_unrevoked

theorem exec_grows (c : Command) (t : Sessions) (hl : Linked t) : Grows t (exec c t).2 := by
  cases c with
  | createSession session =>
    simp only [exec, createSession]
    split
    next hins => exact grows_insert hins
    next => exact .refl t
  | getByJti jti => exact .refl t
  | rotateSession currentJti replacement revokedAt now =>
    exact rotateSession_grows currentJti replacement revokedAt now t hl
  | revokeSession jti revokedAt =>
    simp only [exec, revokeSession]
    split
    · exact grows_update fun s _ => ⟨fun _ => by simp, fun _ h => h⟩
    · exact .refl t

/-- The sessions that a command stores are new ones. -/
def StoresNew : Command → Prop
  | .createSession session => session.replacedByJti = none
  | .rotateSession _ replacement _ _ => replacement.replacedByJti = none
  | _ => True

theorem linked_insert {t t' : Sessions} {jti : String} {s : RefreshSession}
    (h : t.insert jti s = some t') (hs : s.replacedByJti = none) (hl : Linked t) : Linked t' := by
  rintro j j' ⟨s', hs', hj⟩
  rw [Table.get_insert h] at hs'
  by_cases hjti : j = jti
  · rw [if_pos hjti] at hs'
    obtain rfl := Option.some.inj hs'
    simp [hs] at hj
  · rw [if_neg hjti] at hs'
    exact (grows_insert h).revoked (hl j j' ⟨s', hs', hj⟩)

theorem linked_update {t : Sessions} {jti : String} {f : RefreshSession → RefreshSession}
    (hf : ∀ s, (f s).revokedAt ≠ none) (hl : Linked t) : Linked (t.update jti f) := by
  rintro j j' ⟨s', hs', hj⟩
  rw [Table.get_update] at hs'
  by_cases hjti : j = jti
  · subst hjti
    rw [if_pos rfl] at hs'
    obtain ⟨s, hs, rfl⟩ := Option.map_eq_some_iff.mp hs'
    exact ⟨f s, by simp [hs], hf s⟩
  · rw [if_neg hjti] at hs'
    obtain ⟨s, hs, hne⟩ := hl j j' ⟨s', hs', hj⟩
    exact ⟨s, by simp [hjti, hs], hne⟩

theorem exec_linked (c : Command) (t : Sessions) (hc : StoresNew c) (hl : Linked t) :
    Linked (exec c t).2 := by
  cases c with
  | createSession session =>
    simp only [exec, createSession]
    split
    next hins => exact linked_insert hins hc hl
    next => exact hl
  | getByJti jti => exact hl
  | rotateSession currentJti replacement revokedAt now =>
    rcases rotateSession_cases currentJti replacement revokedAt now t with
      ⟨hsame, _⟩ | ⟨s, t', _, _, hins, heq⟩
    · simpa only [exec, hsame] using hl
    · simp only [exec, heq]
      exact linked_insert hins hc (linked_update (fun s => by simp) hl)
  | revokeSession jti revokedAt =>
    simp only [exec, revokeSession]
    split
    · exact linked_update (fun s => by simp) hl
    · exact hl

theorem rotateSession_ok {currentJti : String} {replacement : RefreshSession}
    {revokedAt now : ℕ} {t : Sessions}
    (h : (rotateSession currentJti replacement revokedAt now t).1 = .ok true) :
    Unrevoked t currentJti ∧
      Revoked (rotateSession currentJti replacement revokedAt now t).2 currentJti ∧
      Rotated (rotateSession currentJti replacement revokedAt now t).2 currentJti
        replacement.jti := by
  rcases rotateSession_cases currentJti replacement revokedAt now t with
    ⟨_, hne⟩ | ⟨s, t', hs, hnone, hins, heq⟩
  · exact absurd h hne
  · have hget : t'.get currentJti = some { s with
        revokedAt := some revokedAt, replacedByJti := some replacement.jti } :=
      Table.get_insert_of_get hins (by simp [hs])
    rw [heq]
    exact ⟨⟨s, hs, hnone⟩, ⟨_, hget, by simp⟩, ⟨_, hget, rfl⟩⟩

theorem revokeSession_revoked {jti : String} (revokedAt : ℕ) {t : Sessions}
    (h : ∃ s, t.get jti = some s) : Revoked (revokeSession jti revokedAt t).2 jti := by
  obtain ⟨s, hs⟩ := h
  unfold revokeSession
  by_cases hnone : s.revokedAt = none
  · exact ⟨{ s with revokedAt := some revokedAt }, by simp [hs, hnone], by simp⟩
  · exact ⟨s, by simp [hs, hnone], hnone⟩

end Rheonic.RefreshSessionRepository
