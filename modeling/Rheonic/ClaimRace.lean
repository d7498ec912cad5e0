import Rheonic.TransportOutbox

namespace Rheonic.TransportOutbox

section Claims

variable {ι : Type} [DecidableEq ι]

/-- Where a worker stands in `claim_for_send`: before its select, after a select that found the
row, after the update, after the commit, or after a select that found nothing. -/
inductive Phase
  | ready
  | read (row : Outbox)
  | written (row : Outbox)
  | obtained
  | skipped
  deriving DecidableEq

/-- In the middle of a claim. -/
def Phase.underWay : Phase → Bool
  | .read _ => true
  | .written _ => true
  | _ => false

/-- One row under READ COMMITTED: its committed version, the worker that holds its lock, and
who has obtained it for which attempt. -/
structure Shared (ι : Type) where
  row : Outbox
  lock : Option ι
  phase : ι → Phase
  claims : List (ι × ℕ)

def Shared.start (row : Outbox) : Shared ι := ⟨row, none, fun _ => .ready, []⟩

def Shared.setPhase (s : Shared ι) (i : ι) (phase : Phase) : Shared ι :=
  { s with phase := Function.update s.phase i phase }

variable (now : ι → ℕ)

/-- The next statement of a worker. The update writes what was computed from the row as it was
selected, waits for the lock, and holds it up to the commit. -/
def statement (s : Shared ι) (i : ι) : Option (Shared ι) :=
  match s.phase i with
  | .ready =>
    if s.row.claimable (now i) then some (s.setPhase i (.read s.row))
    else some (s.setPhase i .skipped)
  | .read row =>
    if s.lock = none then
      some { s.setPhase i (.written (row.claimed (now i))) with lock := some i }
    else none
  | .written row =>
    some { s.setPhase i .obtained with
      row := row, lock := none, claims := (i, row.attempts) :: s.claims }
  | .obtained => none
  | .skipped => none

/-- The statements of the workers in a given order, if that order is possible. -/
def runStatements (s : Shared ι) (order : List ι) : Option (Shared ι) :=
  order.foldlM (statement now) s

def Shared.Complete (s : Shared ι) : Prop := ∀ i, (s.phase i).underWay = false

/-- At most one worker obtained the row for each attempt, and the attempts grew by one for
every claim. -/
def Exclusive (row : Outbox) (s : Shared ι) : Prop :=
  (s.claims.map Prod.snd).Nodup ∧ s.row.attempts = row.attempts + s.claims.length

/-- Before the first commit, the third statement of some worker, only one worker for which the
row is due has issued a statement. -/
def OneBeforeCommit (row : Outbox) (order : List ι) : Prop :=
  ∀ early late, order = early ++ late → (∀ i, early.count i ≤ 2) →
    ∀ i ∈ early, ∀ j ∈ early, row.claimable (now i) = true → row.claimable (now j) = true → i = j

/-- Where a worker stands after `n` statements while nothing has been committed. -/
def phaseAfter (row : Outbox) (i : ι) : ℕ → Phase
  | 0 => .ready
  | 1 => if row.claimable (now i) then .read row else .skipped
  | _ => .written (row.claimed (now i))

/-- The state after an order of statements without a commit. -/
structure Uncommitted (row : Outbox) (order : List ι) (s : Shared ι) : Prop where
  row_eq : s.row = row
  claims : s.claims = []
  phase : ∀ i, s.phase i = phaseAfter now row i (order.count i)
  due : ∀ i, 2 ≤ order.count i → row.claimable (now i) = true

variable {now}

theorem runStatements_snoc (s : Shared ι) (order : List ι) (i : ι) :
    runStatements now s (order ++ [i]) =
      (runStatements now s order).bind fun s' => statement now s' i := by
  simp only [runStatements, List.foldlM_append]
  cases List.foldlM (statement now) s order <;> simp

theorem runStatements_append (s : Shared ι) (order order' : List ι) :
    runStatements now s (order ++ order') =
      (runStatements now s order).bind fun s' => runStatements now s' order' := by
  simp only [runStatements, List.foldlM_append]
  cases List.foldlM (statement now) s order <;> rfl

theorem count_snoc (order : List ι) (i j : ι) :
    (order ++ [i]).count j = order.count j + if j = i then 1 else 0 := by
  rw [List.count_append]
  by_cases h : j = i
  · subst h
    simp
  · simp [h, List.count_cons_of_ne (Ne.symm h)]

/-- A phase is all that a statement before a commit changes. -/
theorem Uncommitted.snoc {row : Outbox} {order : List ι} {s s' : Shared ι} {i : ι} {p : Phase}
    (h : Uncommitted now row order s) (hrow : s'.row = s.row) (hclaims : s'.claims = s.claims)
    (hphase : s'.phase = Function.update s.phase i p)
    (hp : p = phaseAfter now row i (order.count i + 1))
    (hdue : 1 ≤ order.count i → row.claimable (now i) = true) :
    Uncommitted now row (order ++ [i]) s' where
  row_eq := hrow.trans h.row_eq
  claims := hclaims.trans h.claims
  phase := fun j => by
    rw [hphase, count_snoc]
    by_cases hj : j = i
    · subst hj
      simp [hp]
    · simp [hj, h.phase j]
  due := fun j hj => by
    rw [count_snoc] at hj
    by_cases hji : j = i
    · subst hji
      exact hdue (by simpa using hj)
    · exact h.due j (by simpa [hji] using hj)

theorem uncommitted_of_run {row : Outbox} {order : List ι} {s : Shared ι}
    (hrun : runStatements now (.start row) order = some s) (hcount : ∀ i, order.count i ≤ 2) :
    Uncommitted now row order s := by
  induction order using List.reverseRecOn generalizing s with
  | nil =>
    obtain rfl := Option.some.inj hrun
    exact ⟨rfl, rfl, fun i => rfl, fun i hi => absurd hi (by simp)⟩
  | append_singleton order i ih =>
    rw [runStatements_snoc] at hrun
    obtain ⟨s', hs', hstep⟩ := Option.bind_eq_some_iff.mp hrun
    have hupto : ∀ j, order.count j ≤ 2 := by
      intro j
      have hj := hcount j
      rw [count_snoc] at hj
      omega
    have hi : order.count i ≤ 1 := by
      have hi := hcount i
      rw [count_snoc, if_pos rfl] at hi
      omega
    have h := ih hs' hupto
    have hphase := h.phase i
    unfold statement at hstep
    -- its first statement reads the row, which nobody has committed to
    by_cases hzero : order.count i = 0
    · rw [hzero] at hphase
      simp only [hphase, phaseAfter, h.row_eq] at hstep
      by_cases hdue : row.claimable (now i) = true
      · rw [if_pos hdue] at hstep
        obtain rfl := Option.some.inj hstep
        refine h.snoc rfl rfl rfl ?_ (by omega)
        simp [hzero, phaseAfter, hdue]
      · rw [if_neg hdue] at hstep
        obtain rfl := Option.some.inj hstep
        refine h.snoc rfl rfl rfl ?_ (by omega)
        simp [hzero, phaseAfter, hdue]
    -- its second one writes, and there is no third
    · have hone : order.count i = 1 := by omega
      rw [hone] at hphase
      by_cases hdue : row.claimable (now i) = true
      · simp only [phaseAfter, hdue, if_true] at hphase
        simp only [hphase] at hstep
        obtain ⟨_, hstep⟩ := Option.ite_none_right_eq_some.mp hstep
        obtain rfl := Option.some.inj hstep
        refine h.snoc rfl rfl rfl ?_ fun _ => hdue
        simp [hone, phaseAfter]
      · simp [hphase, phaseAfter, hdue] at hstep

/-- A worker that has found the row goes on to obtain it for the attempt it has read. -/
def Destined (n : ℕ) (s : Shared ι) (i : ι) : Prop :=
  (∃ row, s.phase i = .read row ∧ row.attempts + 1 = n) ∨
    (∃ row, s.phase i = .written row ∧ row.attempts = n) ∨ (i, n) ∈ s.claims

theorem destined_statement {n : ℕ} {s s' : Shared ι} {i j : ι} (h : Destined n s i)
    (hstep : statement now s j = some s') : Destined n s' i := by
  -- a step of another worker takes no claim away
  have hother : ∀ {t : Shared ι} {p : Phase}, j ≠ i → t.phase = Function.update s.phase j p →
      (∀ e ∈ s.claims, e ∈ t.claims) → Destined n t i := by
    intro t p hne hphase hclaims
    have hsame : t.phase i = s.phase i := by simp [hphase, Ne.symm hne]
    unfold Destined
    rw [hsame]
    exact h.imp_right (.imp_right (hclaims _))
  unfold statement at hstep
  split at hstep
  next hready =>
    by_cases hji : j = i
    · subst hji
      have hmem : (j, n) ∈ s.claims := by
        rcases h with ⟨row, hp, _⟩ | ⟨row, hp, _⟩ | hmem
        · simp [hready] at hp
        · simp [hready] at hp
        · exact hmem
      split at hstep <;> obtain rfl := Option.some.inj hstep <;> exact .inr (.inr hmem)
    · split at hstep <;> obtain rfl := Option.some.inj hstep <;>
        exact hother hji rfl fun _ hmem => hmem
  -- it has read the row, and writes now
  next row hread =>
    obtain ⟨_, hstep⟩ := Option.ite_none_right_eq_some.mp hstep
    obtain rfl := Option.some.inj hstep
    by_cases hji : j = i
    · subst hji
      rcases h with ⟨row', hp, hn⟩ | ⟨row', hp, _⟩ | hmem
      · obtain rfl : row = row' := by simpa [hread] using hp
        exact .inr (.inl ⟨_, by simp [Shared.setPhase]; rfl, hn⟩)
      · simp [hread] at hp
      · exact .inr (.inr hmem)
    · exact hother hji rfl fun _ hmem => hmem
  -- it has written, and commits now
  next row hwritten =>
    obtain rfl := Option.some.inj hstep
    by_cases hji : j = i
    · subst hji
      rcases h with ⟨row', hp, _⟩ | ⟨row', hp, rfl⟩ | hmem
      · simp [hwritten] at hp
      · obtain rfl : row = row' := by simpa [hwritten] using hp
        exact .inr (.inr List.mem_cons_self)
      · exact .inr (.inr (List.mem_cons_of_mem _ hmem))
    · exact hother hji rfl fun _ hmem => List.mem_cons_of_mem _ hmem
  next => simp at hstep
  next => simp at hstep

theorem destined_run {n : ℕ} {s s' : Shared ι} {i : ι} {order : List ι} (h : Destined n s i)
    (hrun : runStatements now s order = some s') : Destined n s' i := by
  induction order generalizing s with
  | nil =>
    obtain rfl := Option.some.inj hrun
    exact h
  | cons j order ih =>
    obtain ⟨t, ht, hrest⟩ := Option.bind_eq_some_iff.mp hrun
    exact ih (destined_statement h ht) hrest

/-- After a commit: the row is being sent, and nobody who found it is left. -/
structure Closed (s : Shared ι) : Prop where
  sending : s.row.status = .sending
  complete : s.Complete

theorem closed_run {s s' : Shared ι} {order : List ι} (h : Closed s)
    (hrun : runStatements now s order = some s') : s'.row = s.row ∧ s'.claims = s.claims := by
  induction order generalizing s with
  | nil =>
    obtain rfl := Option.some.inj hrun
    exact ⟨rfl, rfl⟩
  | cons j order ih =>
    obtain ⟨t, ht, hrest⟩ := Option.bind_eq_some_iff.mp hrun
    have hnot : ¬ s.row.claimable (now j) = true := by simp [Outbox.claimable, h.sending]
    unfold statement at ht
    split at ht
    next hready =>
      rw [if_neg hnot] at ht
      obtain rfl := Option.some.inj ht
      have hclosed : Closed (s.setPhase j .skipped) := by
        refine ⟨h.sending, fun i => ?_⟩
        by_cases hij : i = j
        · subst hij
          simp [Shared.setPhase, Phase.underWay]
        · simpa [Shared.setPhase, hij] using h.complete i
      have hkept := ih hclosed hrest
      exact hkept
    next row hread => simpa [hread, Phase.underWay] using h.complete j
    next row hwritten => simpa [hwritten, Phase.underWay] using h.complete j
    next => simp at ht
    next => simp at ht

theorem exists_first_commit (order : List ι) :
    (∀ i, order.count i ≤ 2) ∨
      ∃ early i late, order = early ++ i :: late ∧ (∀ j, early.count j ≤ 2) ∧
        early.count i = 2 := by
  induction order using List.reverseRecOn with
  | nil => exact .inl (by simp)
  | append_singleton order i ih =>
    rcases ih with hcount | ⟨early, j, late, rfl, hearly, hj⟩
    · by_cases hi : order.count i = 2
      · exact .inr ⟨order, i, [], rfl, hcount, hi⟩
      · refine .inl fun j => ?_
        have hj := hcount j
        rw [count_snoc]
        by_cases hji : j = i
        · subst hji
          rw [if_pos rfl]
          omega
        · rw [if_neg hji]
          omega
    · exact .inr ⟨early, j, late ++ [i], by simp, hearly, hj⟩

theorem first_commit_closed {row : Outbox} {early : List ι} {i : ι} {s s' : Shared ι}
    (h : Uncommitted now row early s) (hi : early.count i = 2)
    (hone : ∀ j ∈ early, row.claimable (now j) = true → j = i)
    (hstep : statement now s i = some s') :
    Closed s' ∧ s'.row = row.claimed (now i) ∧ s'.claims = [(i, row.attempts + 1)] := by
  have hphase : s.phase i = .written (row.claimed (now i)) := by
    rw [h.phase i, hi]
    rfl
  simp only [statement, hphase] at hstep
  obtain rfl := Option.some.inj hstep
  refine ⟨⟨rfl, fun j => ?_⟩, rfl, by simp [h.claims, Outbox.claimed]⟩
  by_cases hji : j = i
  · subst hji
    simp [Shared.setPhase, Phase.underWay]
  · -- another worker has not started, or its select has found nothing
    have hj := h.phase j
    have hcount : early.count j = 0 ∨ early.count j = 1 ∧ ¬ row.claimable (now j) = true := by
      by_cases hmem : j ∈ early
      · have hnot : ¬ row.claimable (now j) = true := fun hdue => hji (hone j hmem hdue)
        have hpos := List.count_pos_iff.mpr hmem
        have hlt : ¬ 2 ≤ early.count j := fun h2 => hnot (h.due j h2)
        exact .inr ⟨by omega, hnot⟩
      · exact .inl (List.count_eq_zero.mpr hmem)
    rcases hcount with hzero | ⟨hone', hnot⟩
    · simp [Shared.setPhase, hji, hj, hzero, phaseAfter, Phase.underWay]
    · simp [Shared.setPhase, hji, hj, hone', phaseAfter, hnot, Phase.underWay]

/-- For every row and every possible order of the statements of any workers, run to the end:
the claims are exclusive exactly if only one worker for which the row is due issues a statement
before the first commit. -/
theorem claim_exclusive_iff (row : Outbox) (now : ι → ℕ) (order : List ι) (s : Shared ι)
    (hrun : runStatements now (.start row) order = some s) (hcomplete : s.Complete) :
    Exclusive row s ↔ OneBeforeCommit now row order := by
  constructor
  · rintro ⟨hnodup, _⟩ early late rfl hcount i hi j hj hdi hdj
    rw [runStatements_append] at hrun
    obtain ⟨s₁, hs₁, hrest⟩ := Option.bind_eq_some_iff.mp hrun
    have h := uncommitted_of_run hs₁ hcount
    have hobtains : ∀ k ∈ early, row.claimable (now k) = true →
        (k, row.attempts + 1) ∈ s.claims := by
      intro k hk hdk
      have hpos := List.count_pos_iff.mpr hk
      have hle := hcount k
      have hdestined : Destined (row.attempts + 1) s₁ k := by
        rcases (by omega : early.count k = 1 ∨ early.count k = 2) with hc | hc
        · exact .inl ⟨row, by rw [h.phase k, hc, phaseAfter, if_pos hdk], rfl⟩
        · exact .inr (.inl ⟨row.claimed (now k), by rw [h.phase k, hc]; rfl, rfl⟩)
      rcases destined_run hdestined hrest with ⟨r, hp, _⟩ | ⟨r, hp, _⟩ | hmem
      · simpa [hp, Phase.underWay] using hcomplete k
      · simpa [hp, Phase.underWay] using hcomplete k
      · exact hmem
    have hsame := List.inj_on_of_nodup_map hnodup (hobtains i hi hdi) (hobtains j hj hdj) rfl
    exact (Prod.mk.inj hsame).1
  · intro hone
    rcases exists_first_commit order with hcount | ⟨early, i, late, rfl, hcount, hi⟩
    · have h := uncommitted_of_run hrun hcount
      simp [Exclusive, h.claims, h.row_eq]
    · rw [runStatements_append] at hrun
      obtain ⟨s₁, hs₁, hrest⟩ := Option.bind_eq_some_iff.mp hrun
      obtain ⟨s₂, hstep, hlate⟩ := Option.bind_eq_some_iff.mp hrest
      have h := uncommitted_of_run hs₁ hcount
      have himem : i ∈ early := List.count_pos_iff.mp (by omega)
      have honly : ∀ j ∈ early, row.claimable (now j) = true → j = i := fun j hj hdj =>
        hone early (i :: late) rfl hcount j hj i himem hdj (h.due i (by omega))
      obtain ⟨hclosed, hrow, hclaims⟩ := first_commit_closed h hi honly hstep
      obtain ⟨hrow', hclaims'⟩ := closed_run hclosed hlate
      simp [Exclusive, hrow', hrow, hclaims', hclaims, Outbox.claimed]

end Claims

def dueRow : Outbox :=
  newRow ⟨"p", .email, "incident.warn", none, none, none, .json "\x7b\x7d", "k"⟩ 1 0

theorem claim_exclusive_iff_sample :
    ∃ s : Shared Bool, runStatements (fun _ => 0) (.start dueRow) [true, true, true, false] =
      some s ∧ (Exclusive dueRow s ↔
        OneBeforeCommit (fun _ => 0) dueRow [true, true, true, false]) :=
  ⟨_, rfl, claim_exclusive_iff dueRow (fun _ => 0) _ _ rfl
    (by unfold Shared.Complete; decide)⟩

/-- Both workers select the row before one of them commits, and both obtain it. -/
theorem row_claimed_twice :
    ∃ s : Shared Bool, runStatements (fun _ => 0) (.start dueRow)
      [true, false, true, true, false, false] = some s ∧ s.Complete ∧ ¬ Exclusive dueRow s :=
  ⟨_, rfl, by unfold Shared.Complete; decide, fun h => absurd h.1 (by decide)⟩

end Rheonic.TransportOutbox
