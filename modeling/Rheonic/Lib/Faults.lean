import Rheonic.Lib.Program

namespace CommandProgram

/-- One command raises: how many commands come before it, and whether it takes effect itself. -/
structure Fault where
  position : ℕ
  applied : Bool := false
  deriving DecidableEq, Repr

/-- The commands that have taken effect when the exception comes. -/
def Fault.done (f : Fault) : ℕ := f.position + f.applied.toNat

/-- A fault, if there is one, leaves `n` commands that take effect. -/
def Reaches (fault : Option Fault) (n : ℕ) : Prop := ∀ f ∈ fault, n ≤ f.done

instance (fault : Option Fault) (n : ℕ) : Decidable (Reaches fault n) :=
  inferInstanceAs (Decidable (∀ f ∈ fault, _))

/-- The fault as it stands after `n` commands. -/
def later (n : ℕ) (fault : Option Fault) : Option Fault :=
  fault.map fun f => ⟨f.position - n, f.applied⟩

theorem reaches_later {fault : Option Fault} {n k : ℕ} (hf : ∀ f ∈ fault, n ≤ f.position) :
    Reaches (later n fault) k ↔ Reaches fault (n + k) := by
  cases fault with
  | none => simp [Reaches, later]
  | some f =>
    have hn : n ≤ f.position := hf f rfl
    simp only [Reaches, later, Option.map_some, Option.mem_some_iff, forall_eq', Fault.done]
    omega

/-- The commands of a program before the first that changes something, and that one. -/
structure Opening (C : Type) where
  quiet : List C := []
  change : Option C := none

namespace Opening

variable {C : Type}

def commands (o : Opening C) : List C := o.quiet ++ o.change.toList

/-- What comes behind counts only where nothing has been changed. -/
def andThen (o o' : Opening C) : Opening C :=
  match o.change with
  | some c => ⟨o.quiet, some c⟩
  | none => ⟨o.quiet ++ o'.quiet, o'.change⟩

theorem andThen_of_some {o o' : Opening C} {c : C} (h : o.change = some c) : o.andThen o' = o := by
  obtain ⟨quiet, change⟩ := o
  obtain rfl : change = some c := h
  rfl

theorem andThen_of_none {o o' : Opening C} (h : o.change = none) :
    o.andThen o' = ⟨o.quiet ++ o'.quiet, o'.change⟩ := by
  unfold andThen
  rw [h]

theorem mem_andThen {o o' : Opening C} {c : C} (h : c ∈ o.commands) :
    c ∈ (o.andThen o').commands := by
  cases hchange : o.change with
  | some c' => rwa [andThen_of_some hchange]
  | none =>
    unfold commands at h
    rw [hchange, Option.toList_none, List.append_nil] at h
    rw [andThen_of_none hchange, commands, List.append_assoc]
    exact List.mem_append_left _ h

theorem mem_andThen_of_none {o o' : Opening C} {c : C} (hchange : o.change = none)
    (h : c ∈ o'.commands) : c ∈ (o.andThen o').commands := by
  rw [andThen_of_none hchange, commands, List.append_assoc]
  exact List.mem_append_right _ h

end Opening

namespace Program

variable {C : Type} {R : C → Type} {ε α β S : Type}

/-- The machine on which a command raises `e`. -/
def faulty (m : Machine C R ε S) (e : ε) : Machine C R ε (S × Option Fault) := fun c x =>
  match x.2 with
  | none => ((m c x.1).1, ((m c x.1).2, none))
  | some ⟨0, applied⟩ => (.error e, (if applied then (m c x.1).2 else x.1, none))
  | some ⟨n + 1, applied⟩ => ((m c x.1).1, ((m c x.1).2, some ⟨n, applied⟩))

/-- No failure of a command is handled. -/
inductive Bare : Program C R ε α → Prop
  | ret (a : α) : Bare (ret a)
  | raise (e : ε) : Bare (raise e)
  | call (c : C) (k : Except ε (R c) → Program C R ε α) (he : ∀ e, k (.error e) = .raise e)
      (hk : ∀ r, Bare (k (.ok r))) : Bare (call c k)

namespace Bare

theorem pure (a : α) : Bare (Pure.pure a : Program C R ε α) := .ret a

theorem throw (e : ε) : Bare (MonadExcept.throw e : Program C R ε α) := .raise e

theorem perform (c : C) : Bare (perform c : Program C R ε (R c)) :=
  .call c _ (fun _ => rfl) fun r => .ret r

theorem bind {p : Program C R ε α} {f : α → Program C R ε β} (hp : Bare p)
    (hf : ∀ a, Bare (f a)) : Bare (p >>= f) := by
  induction hp with
  | ret a => exact hf a
  | raise e => exact .raise e
  | call c k he _ ih =>
    refine .call c _ (fun e => ?_) ih
    show (k (.error e)).bind f = .raise e
    rw [he]
    rfl

theorem ite {b : Prop} [Decidable b] {p q : Program C R ε α} (hp : Bare p) (hq : Bare q) :
    Bare (if b then p else q) := by
  split
  · exact hp
  · exact hq

end Bare

variable {m : Machine C R ε S} {e : ε} {E : S → Prop}

/-- Commands that are all answered and keep to states of `E` take one program to another. -/
inductive Begins (m : Machine C R ε S) (E : S → Prop) :
    List C → S → Program C R ε α → S → Program C R ε α → Prop
  | nil (s : S) (p : Program C R ε α) : Begins m E [] s p s p
  | cons {cs : List C} {c : C} {k : Except ε (R c) → Program C R ε α} {r : R c} {s s₁ s' : S}
      {q : Program C R ε α} (hc : m c s = (.ok r, s₁)) (hE : E s₁)
      (h : Begins m E cs s₁ (k (.ok r)) s' q) : Begins m E (c :: cs) s (.call c k) s' q

namespace Begins

variable {cs ds : List C} {s s₁ s' s'' : S} {p q q' : Program C R ε α}

theorem perform {c : C} {r : R c} {f : R c → Program C R ε α} (hc : m c s = (.ok r, s₁))
    (hE : E s₁) (h : Begins m E cs s₁ (f r) s' q) :
    Begins m E (c :: cs) s (Program.perform c >>= f) s' q := by
  show Begins m E (c :: cs) s (.call c _) s' q
  exact .cons hc hE h

theorem trans (h : Begins m E cs s p s' q) (h' : Begins m E ds s' q s'' q') :
    Begins m E (cs ++ ds) s p s'' q' := by
  induction h with
  | nil s p => exact h'
  | cons hc hE _ ih => exact .cons hc hE (ih h')

theorem bind (h : Begins m E cs s p s' q) (f : α → Program C R ε β) :
    Begins m E cs s (p >>= f) s' (q >>= f) := by
  induction h with
  | nil s p => exact .nil s _
  | cons hc hE _ ih => exact .cons hc hE ih

theorem final (h : Begins m E cs s p s' q) (hs : E s) : E s' := by
  induction h with
  | nil s p => exact hs
  | cons _ hE _ ih => exact ih hE

theorem bare (h : Begins m E cs s p s' q) (hp : Bare p) : Bare q := by
  induction h with
  | nil s p => exact hp
  | cons _ _ _ ih =>
    cases hp with
    | call _ _ _ hk => exact ih (hk _)

theorem run_of_lt (h : Begins m E cs s p s' q) (hp : Bare p) (hs : E s) {f : Fault}
    (hf : f.position < cs.length) :
    ∃ x, E x ∧ run (faulty m e) p (s, some f) = (.error e, (x, none)) := by
  induction h generalizing f with
  | nil s p => exact absurd hf (by simp)
  | @cons cs c k r s s₁ s' q hc hE _ ih =>
    obtain ⟨n, applied⟩ := f
    cases hp with
    | call _ _ he hk =>
      cases n with
      | zero =>
        refine ⟨if applied then (m c s).2 else s, ?_, ?_⟩
        · split
          · rw [hc]
            exact hE
          · exact hs
        · rw [run, faulty]
          dsimp only
          rw [he]
          rfl
      | succ n =>
        have hrest : n < cs.length := Nat.lt_of_succ_lt_succ hf
        have hstep : faulty m e c (s, some ⟨n + 1, applied⟩) = (.ok r, (s₁, some ⟨n, applied⟩)) := by
          rw [faulty]
          dsimp only
          rw [hc]
        rw [run, hstep]
        exact ih (hk r) hE hrest

theorem run_of_le (h : Begins m E cs s p s' q) {fault : Option Fault}
    (hf : ∀ f ∈ fault, cs.length ≤ f.position) :
    run (faulty m e) p (s, fault) = run (faulty m e) q (s', later cs.length fault) := by
  induction h generalizing fault with
  | nil s p => cases fault <;> rfl
  | @cons cs c k r s s₁ s' q hc _ _ ih =>
    cases fault with
    | none =>
      have hstep : faulty m e c (s, none) = (.ok r, (s₁, none)) := by
        rw [faulty]
        dsimp only
        rw [hc]
      rw [run, hstep, ih (by simp)]
      rfl
    | some f =>
      obtain ⟨n, applied⟩ := f
      have hle : cs.length + 1 ≤ n := hf _ rfl
      obtain ⟨n, rfl⟩ : ∃ i, n = i + 1 := ⟨n - 1, by omega⟩
      have hstep : faulty m e c (s, some ⟨n + 1, applied⟩) = (.ok r, (s₁, some ⟨n, applied⟩)) := by
        rw [faulty]
        dsimp only
        rw [hc]
      have hrest : ∀ f ∈ some (Fault.mk n applied), cs.length ≤ f.position := by
        intro f hf
        rw [← Option.some.inj hf]
        exact Nat.le_of_succ_le_succ hle
      rw [run, hstep, ih hrest]
      simp only [later, Option.map_some, List.length_cons, Nat.succ_sub_succ_eq_sub]

/-- A fault comes on the way, or the run goes on behind it. -/
theorem run_cases (h : Begins m E cs s p s' q) (hp : Bare p) (hs : E s) (fault : Option Fault) :
    (∃ f x, fault = some f ∧ f.position < cs.length ∧ E x ∧
      run (faulty m e) p (s, fault) = (.error e, (x, none))) ∨
    (∀ f ∈ fault, cs.length ≤ f.position) ∧
      run (faulty m e) p (s, fault) = run (faulty m e) q (s', later cs.length fault) := by
  by_cases hf : ∀ f ∈ fault, cs.length ≤ f.position
  · exact .inr ⟨hf, h.run_of_le hf⟩
  · left
    push Not at hf
    obtain ⟨f, hmem, hlt⟩ := hf
    obtain ⟨x, hx, hrun⟩ := h.run_of_lt (e := e) hp hs hlt
    rw [Option.mem_def.mp hmem]
    exact ⟨f, x, rfl, hlt, hx, hrun⟩

theorem answered (h : Begins m E cs s p s' q) (hs : E s) {c : C} (hc : c ∈ cs) :
    ∃ x r, E x ∧ (m c x).1 = .ok r := by
  induction h with
  | nil s p => exact absurd hc (by simp)
  | @cons cs c' k r s s₁ s' q hc' hE _ ih =>
    rcases List.mem_cons.mp hc with rfl | hmem
    · exact ⟨s, r, hs, congrArg Prod.fst hc'⟩
    · exact ih hE hmem

theorem run_refused {c : C} {k : Except ε (R c) → Program C R ε α} {e' : ε}
    (h : Begins m E cs s p s' (.call c k)) (hp : Bare p) (hs : E s) (hc : m c s' = (.error e', s'))
    (fault : Option Fault) : E (run (faulty m e) p (s, fault)).2.1 := by
  have hbare : Bare (Program.call c k) := h.bare hp
  obtain ⟨f, x, _, _, hx, hrun⟩ | ⟨_, hrun⟩ := h.run_cases (e := e) hp hs fault
  · rw [hrun]
    exact hx
  · rw [hrun]
    cases hbare with
    | call _ _ he _ =>
      have hstay : ∀ fault', ∃ e'' fault'', faulty m e c (s', fault') = (.error e'', (s', fault'')) := by
        intro fault'
        match fault' with
        | none => exact ⟨e', none, by rw [faulty]; dsimp only; rw [hc]⟩
        | some ⟨0, true⟩ => exact ⟨e, none, by rw [faulty]; dsimp only; rw [if_pos rfl, hc]⟩
        | some ⟨0, false⟩ => exact ⟨e, none, rfl⟩
        | some ⟨n + 1, applied⟩ => exact ⟨e', some ⟨n, applied⟩, by rw [faulty]; dsimp only; rw [hc]⟩
      obtain ⟨e'', fault'', hstep⟩ := hstay (later cs.length fault)
      rw [run, hstep, he]
      exact h.final hs

theorem run_ended (h : Begins m E cs s p s' q) (hp : Bare p) (hs : E s) {r : Except ε α}
    (hq : q.outcome = some r) (fault : Option Fault) : E (run (faulty m e) p (s, fault)).2.1 := by
  obtain ⟨f, x, _, _, hx, hrun⟩ | ⟨_, hrun⟩ := h.run_cases (e := e) hp hs fault
  · rw [hrun]
    exact hx
  · rw [hrun]
    cases q with
    | ret a => exact h.final hs
    | raise e => exact h.final hs
    | call c k => exact absurd hq (by simp [outcome])

end Begins

theorem run_call_of_not_reaches {c : C} {k : Except ε (R c) → Program C R ε α} {s : S}
    {fault : Option Fault} (hp : Bare (call c k)) (hreach : ¬Reaches fault 1) :
    run (faulty m e) (call c k) (s, fault) = (.error e, (s, none)) := by
  cases hp with
  | call _ _ he _ =>
    match fault with
    | none => exact absurd (by simp [Reaches]) hreach
    | some ⟨0, true⟩ => exact absurd (by simp [Reaches, Fault.done]) hreach
    | some ⟨0, false⟩ =>
      rw [run, faulty]
      dsimp only
      rw [he]
      rfl
    | some ⟨n + 1, applied⟩ =>
      refine absurd ?_ hreach
      simp only [Reaches, Option.mem_some_iff, forall_eq', Fault.done]
      omega

/-- Otherwise the next command takes effect, and the program ends there or goes on. -/
theorem run_call_of_reaches {c : C} {k : Except ε (R c) → Program C R ε α} {s s₁ : S} {r : R c}
    {fault : Option Fault} (hp : Bare (call c k)) (hc : m c s = (.ok r, s₁))
    (hreach : Reaches fault 1) :
    run (faulty m e) (call c k) (s, fault) = (.error e, (s₁, none)) ∨
      ∃ fault', run (faulty m e) (call c k) (s, fault) = run (faulty m e) (k (.ok r)) (s₁, fault') := by
  cases hp with
  | call _ _ he _ =>
    match fault with
    | none =>
      right
      refine ⟨none, ?_⟩
      rw [run, faulty]
      dsimp only
      rw [hc]
    | some ⟨0, true⟩ =>
      left
      rw [run, faulty]
      dsimp only
      rw [he, if_pos rfl, hc]
      rfl
    | some ⟨0, false⟩ => exact absurd hreach (by simp [Reaches, Fault.done])
    | some ⟨n + 1, applied⟩ =>
      right
      refine ⟨some ⟨n, applied⟩, ?_⟩
      rw [run, faulty]
      dsimp only
      rw [hc]

/-- How a program takes its opening: a command is refused, nothing is changed, or the change is
made and `K` holds of what comes behind it. -/
inductive Opens (m : Machine C R ε S) (E : S → Prop) (K : C → S → Program C R ε α → Prop)
    (o : Opening C) (s : S) (p : Program C R ε α) : Prop
  | refused {cs : List C} {c : C} {k : Except ε (R c) → Program C R ε α} {s' : S} {e : ε}
      (h : Begins m E cs s p s' (.call c k)) (hmem : c ∈ o.commands) (hc : m c s' = (.error e, s'))
  | through {s' : S} {a : α} (hchange : o.change = none) (h : Begins m E o.quiet s p s' (ret a))
  | changed {c : C} {k : Except ε (R c) → Program C R ε α} {s' s₁ : S} {r : R c}
      (hchange : o.change = some c) (h : Begins m E o.quiet s p s' (.call c k))
      (hc : m c s' = (.ok r, s₁)) (hk : K c s₁ (k (.ok r)))

namespace Opens

theorem perform {K : C → S → Program C R ε α → Prop} {o : Opening C} {s s₁ : S} {c : C} {r : R c}
    {f : R c → Program C R ε α} (hc : m c s = (.ok r, s₁)) (hE : E s₁)
    (h : Opens m E K o s₁ (f r)) : Opens m E K (Opening.andThen ⟨[c], none⟩ o) s (perform c >>= f) := by
  cases h with
  | refused h hmem hc' =>
    exact .refused (.perform hc hE h) (Opening.mem_andThen_of_none rfl hmem) hc'
  | through hchange h => exact .through hchange (.perform hc hE h)
  | changed hchange h hc' hk => exact .changed hchange (.perform hc hE h) hc' hk

variable {K : C → S → Program C R ε α → Prop} {L : C → S → Program C R ε β → Prop}
  {o o' : Opening C} {s : S} {p : Program C R ε α} {f : α → Program C R ε β}

theorem bind (h : Opens m E K o s p) (hs : E s) (hf : ∀ a s', E s' → Opens m E L o' s' (f a))
    (hL : ∀ c s₁ q, o.change = some c → K c s₁ q → L c s₁ (q >>= f)) :
    Opens m E L (o.andThen o') s (p >>= f) := by
  cases h with
  | refused h hmem hc => exact .refused (h.bind f) (Opening.mem_andThen hmem) hc
  | @changed c k s' s₁ r hchange h hc hk =>
    rw [Opening.andThen_of_some hchange]
    exact .changed hchange (h.bind f) hc (hL c s₁ _ hchange hk)
  | @through s' a hchange h =>
    have hthen : o.andThen o' = ⟨o.quiet ++ o'.quiet, o'.change⟩ := Opening.andThen_of_none hchange
    cases hf a s' (h.final hs) with
    | refused h' hmem hc =>
      exact .refused ((h.bind f).trans h') (Opening.mem_andThen_of_none hchange hmem) hc
    | through hchange' h' =>
      rw [hthen]
      exact .through hchange' ((h.bind f).trans h')
    | changed hchange' h' hc hk =>
      rw [hthen]
      exact .changed hchange' ((h.bind f).trans h') hc hk

end Opens

theorem run_last (c : C) (f : R c → α) (s : S) (fault : Option Fault) :
    (run (faulty m e) (perform c >>= fun r => pure (f r)) (s, fault)).2.1 =
      if Reaches fault 1 then (m c s).2 else s := by
  rw [run_bind, run_perform]
  match fault with
  | none =>
    have hreaches : Reaches none 1 := by simp [Reaches]
    rw [if_pos hreaches, faulty]
    dsimp only
    cases (m c s).1 <;> rfl
  | some ⟨0, true⟩ => exact (if_pos (by simp [Reaches, Fault.done])).symm
  | some ⟨0, false⟩ => exact (if_neg (by simp [Reaches, Fault.done])).symm
  | some ⟨n + 1, applied⟩ =>
    have hreaches : Reaches (some ⟨n + 1, applied⟩) 1 := by
      simp only [Reaches, Option.mem_some_iff, forall_eq', Fault.done]
      omega
    rw [if_pos hreaches, faulty]
    dsimp only
    cases (m c s).1 <;> rfl

theorem run_faulty_none (p : Program C R ε α) (s : S) :
    run (faulty m e) p (s, none) = ((run m p s).1, ((run m p s).2, none)) := by
  induction p generalizing s with
  | ret a => rfl
  | raise e => rfl
  | call c k ih => exact ih _ _

theorem faulty_preserves {I : S → Prop} {c : C} (hc : ∀ s, I s → I (m c s).2) (x : S × Option Fault)
    (hx : I x.1) : I (faulty m e c x).2.1 := by
  obtain ⟨s, fault⟩ := x
  match fault with
  | none => exact hc s hx
  | some ⟨0, true⟩ => exact hc s hx
  | some ⟨0, false⟩ => exact hx
  | some ⟨n + 1, applied⟩ => exact hc s hx

theorem Issues.run_faulty {P : C → Prop} {p : Program C R ε α} (h : Issues P p) (I : S → Prop)
    (hI : ∀ c s, P c → I s → I (m c s).2) {s : S} (hs : I s) (fault : Option Fault) :
    I (run (faulty m e) p (s, fault)).2.1 :=
  h.run_preserves (faulty m e) (fun x => I x.1)
    (fun c x hc hx => faulty_preserves (fun t ht => hI c t hc ht) x hx) hs

end Program

end CommandProgram
