import Rheonic.Keys
import Rheonic.Redis
import Rheonic.Lib.SlidingWindow

namespace Rheonic.RollingWindow
open CommandProgram Redis Keys PyText SlidingWindow

def rollingWindowMs : ℕ := 60 * 1000

def rollingCounterTtlSeconds : ℕ := 600

def normalizeTotalTokens : Option ℤ → ℤ
  | none => 0
  | some totalTokens => totalTokens

def member (nowMs : ℕ) (memberId : String) (n : ℤ) : String :=
  toString nowMs ++ ":" ++ memberId ++ ":" ++ toString n

/-- Add a point to one of the sorted sets and trim what is older than the window. -/
def addPoint (key member : String) (nowMs : ℕ) : Prog Unit := do
  let _ ← zadd key member nowMs
  let _ ← zremrangebyscore key 0 ((nowMs : ℤ) - rollingWindowMs)
  let _ ← expire key rollingCounterTtlSeconds
  pure ()

def incrementProject60s (projectId : String) (totalTokens : Option ℤ) (nowMs : ℕ)
    (memberId : String) : Prog Unit := do
  addPoint (requests60sKey projectId) (member nowMs memberId 1) nowMs
  addPoint (tokens60sKey projectId) (member nowMs memberId (normalizeTotalTokens totalTokens)) nowMs

/-- The tokens in a member `now:id:tokens`. -/
def parseTokens (member : String) : Option ℤ :=
  ((split ':' member.toList).getLast?).bind fun part => parseNumber (String.ofList part)

def memberTokens (member : String) : Prog ℤ :=
  match parseTokens member with
  | some n => pure n
  | none => throw (.value "invalid literal for int()")

def sumTokens : List String → Prog ℤ
  | [] => pure 0
  | member :: members => do
    let n ← memberTokens member
    let rest ← sumTokens members
    pure (n + rest)

def getProject60s (projectId : String) (nowMs : ℕ) : Prog (ℕ × ℤ) := do
  let _ ← zremrangebyscore (requests60sKey projectId) 0 ((nowMs : ℤ) - rollingWindowMs)
  let _ ← zremrangebyscore (tokens60sKey projectId) 0 ((nowMs : ℤ) - rollingWindowMs)
  let requests60s ← zcard (requests60sKey projectId)
  let tokenMembers ← zrangebyscore (tokens60sKey projectId) ((nowMs : ℤ) - rollingWindowMs)
  let tokens60s ← sumTokens tokenMembers
  pure (requests60s, tokens60s)

/-- One increment, as a point in time. -/
structure Point where
  time : ℕ
  memberId : String
  tokens : ℤ
  deriving DecidableEq, Repr

def Point.score (p : Point) : ℤ := p.time

def Point.requestMember (p : Point) : String := member p.time p.memberId 1

def Point.tokenMember (p : Point) : String := member p.time p.memberId p.tokens

theorem member_toList (nowMs : ℕ) (memberId : String) (n : ℤ) : (member nowMs memberId n).toList =
    (toString nowMs).toList ++ ':' :: (memberId.toList ++ ':' :: (toString n).toList) := by
  simp [member]

theorem colon_not_mem_nat (n : ℕ) : ':' ∉ (toString n).toList := by
  intro h
  exact absurd (isDigit_of_mem_repr h) (by decide)

theorem colon_not_mem_int (n : ℤ) : ':' ∉ (toString n).toList := by
  intro h
  change ':' ∈ n.repr.toList at h
  rw [Int.repr_eq_if] at h
  split at h
  · exact absurd (isDigit_of_mem_repr h) (by decide)
  · rw [String.toList_append, List.mem_append] at h
    rcases h with h | h
    · exact absurd h (by decide)
    · exact absurd (isDigit_of_mem_repr h) (by decide)

theorem memberId_eq_of_member {t t' : ℕ} {i i' : String} {n n' : ℤ}
    (h : member t i n = member t' i' n') : i = i' := by
  have hl := congrArg String.toList h
  rw [member_toList, member_toList] at hl
  have htail := (append_cons_inj (colon_not_mem_nat t) (colon_not_mem_nat t') hl).2
  have hrev := congrArg List.reverse htail
  simp only [List.reverse_append, List.reverse_cons, List.append_assoc, List.singleton_append]
    at hrev
  have hid := (append_cons_inj (by simpa using colon_not_mem_int n)
    (by simpa using colon_not_mem_int n') hrev).2
  exact String.toList_injective (List.reverse_injective hid)

theorem parseTokens_member (t : ℕ) (i : String) (n : ℤ) : parseTokens (member t i n) = some n := by
  have hlist : (member t i n).toList =
      ((toString t).toList ++ ':' :: i.toList) ++ ':' :: (toString n).toList := by
    rw [member_toList]
    simp
  have hlast : (split ':' (member t i n).toList).getLast? = some (toString n).toList := by
    rw [hlist]
    exact getLast_split_append (colon_not_mem_int n)
  rw [parseTokens, hlast, Option.bind_some, String.ofList_toList, parseNumber_toString]

theorem run_sumTokens (s : Store) {members : List String}
    (h : ∀ m ∈ members, (parseTokens m).isSome) :
    run (sumTokens members) s = (.ok (members.map fun m => (parseTokens m).getD 0).sum, s) := by
  induction members with
  | nil => rfl
  | cons m members ih =>
    obtain ⟨n, hn⟩ := Option.isSome_iff_exists.mp (h m List.mem_cons_self)
    have hone : run (memberTokens m) s = (.ok n, s) := by
      unfold memberTokens
      rw [hn]
      rfl
    have hrest := ih fun m' hm' => h m' (List.mem_cons_of_mem m hm')
    unfold sumTokens
    rw [run, Program.run_bind_eq exec hone, Program.run_bind_eq exec hrest, Program.run_pure,
      List.map_cons, List.sum_cons, hn]
    rfl

theorem run_addPoint {s : Store} {key : String} {z : SortedSet String}
    (hz : zsetOf (s.lookup key) = some z) (m : String) (t : ℕ) :
    run (addPoint key m t) s = (.ok (), ((s.alter key (some (.zset (z.add m t)))).alter key
      (ofZset ((z.add m t).removeRange 0 ((t : ℤ) - rollingWindowMs)))).expireIn key
        (rollingCounterTtlSeconds * 1000)) := by
  have hz' : zsetOf ((s.alter key (some (.zset (z.add m t)))).lookup key) = some (z.add m t) := by
    rw [TtlStore.Store.lookup_alter, if_pos rfl]
    rfl
  unfold addPoint
  rw [run, Program.run_bind_eq exec (run_zadd hz m t),
    Program.run_bind_eq exec (run_zremrangebyscore hz' 0 _),
    Program.run_bind_eq exec (run_expire (by decide)), Program.run_pure]

theorem incrementProject60s_ok {s : Store} {projectId : String} {z z' : SortedSet String}
    (hz : zsetOf (s.lookup (requests60sKey projectId)) = some z)
    (hz' : zsetOf (s.lookup (tokens60sKey projectId)) = some z') (totalTokens : Option ℤ) (t : ℕ)
    (memberId : String) :
    ∃ s', run (incrementProject60s projectId totalTokens t memberId) s = (.ok (), s') := by
  have hne := (requests60sKey_ne_tokens60sKey projectId projectId).symm
  have hfirst := run_addPoint hz (member t memberId 1) t
  have hz'' : zsetOf ((run (addPoint (requests60sKey projectId) (member t memberId 1) t) s).2.lookup
      (tokens60sKey projectId)) = some z' := by
    rw [hfirst, TtlStore.Store.lookup_expireIn _ _ _ (by decide), TtlStore.Store.lookup_alter,
      if_neg hne, TtlStore.Store.lookup_alter, if_neg hne]
    exact hz'
  rw [hfirst] at hz''
  exact ⟨_, (Program.run_bind_eq exec hfirst).trans (run_addPoint hz'' _ t)⟩

/-- The commands on the two sorted sets of a scope. -/
def OnWindow (projectId : String) (c : Cmd) : Prop :=
  c.key = requests60sKey projectId ∨ c.key = tokens60sKey projectId

theorem addPoint_issues {P : Cmd → Prop} {key : String} (h : ∀ c : Cmd, c.key = key → P c)
    (m : String) (t : ℕ) : Program.Issues P (addPoint key m t) := by
  apply Program.Issues.bind (.perform (h _ rfl))
  intro _
  apply Program.Issues.bind (.perform (h _ rfl))
  intro _
  exact .bind (.perform (h _ rfl)) fun _ => .pure _

theorem incrementProject60s_issues (projectId : String) (totalTokens : Option ℤ) (t : ℕ)
    (memberId : String) :
    Program.Issues (OnWindow projectId) (incrementProject60s projectId totalTokens t memberId) := by
  apply Program.Issues.bind (addPoint_issues (fun c hc => .inl hc) _ _)
  intro _
  exact addPoint_issues (fun c hc => .inr hc) _ _

theorem sumTokens_issues {P : Cmd → Prop} (members : List String) :
    Program.Issues P (sumTokens members) := by
  induction members with
  | nil => exact .pure _
  | cons m members ih =>
    have hone : Program.Issues P (memberTokens m) := by
      unfold memberTokens
      split
      · exact .pure _
      · exact .raise _
    apply Program.Issues.bind hone
    intro _
    exact .bind ih fun _ => .pure _

theorem getProject60s_issues (projectId : String) (t : ℕ) :
    Program.Issues (OnWindow projectId) (getProject60s projectId t) := by
  apply Program.Issues.bind (.perform (.inl rfl))
  intro _
  apply Program.Issues.bind (.perform (.inr rfl))
  intro _
  apply Program.Issues.bind (.perform (.inl rfl))
  intro _
  apply Program.Issues.bind (.perform (.inr rfl))
  intro members
  exact .bind (sumTokens_issues members) fun _ => .pure _

/-- A sorted set that holds the points after a cut, in whatever order. -/
def Shows (z : SortedSet String) (mk : Point → String) (cut : ℤ) (h : List Point) : Prop :=
  z.entries.Perm ((after Point.score cut h).map fun p => (mk p, p.score))

theorem Shows.removeRange {z : SortedSet String} {mk : Point → String} {cut cut' : ℤ}
    {h : List Point} (hz : Shows z mk cut h) (hcut : cut ≤ cut') :
    Shows (z.removeRange 0 cut') mk cut' h := by
  unfold Shows at hz ⊢
  have hfilter := hz.filter fun e => !(decide (0 ≤ e.2) && decide (e.2 ≤ cut'))
  rw [List.filter_map] at hfilter
  have hkeep : (after Point.score cut h).filter
      ((fun e => !(decide (0 ≤ e.2) && decide (e.2 ≤ cut'))) ∘ fun p => (mk p, p.score)) =
      after Point.score cut' h := by
    rw [← after_after hcut h]
    apply List.filter_congr
    intro p _
    have hscore : 0 ≤ p.score := by unfold Point.score; omega
    by_cases hlate : cut' < p.score
    · have hnot : ¬p.score ≤ cut' := by omega
      simp [hscore, hlate, hnot]
    · have hle : p.score ≤ cut' := by omega
      simp [hscore, hlate, hle]
  rw [hkeep] at hfilter
  exact hfilter

theorem Shows.add {z : SortedSet String} {mk : Point → String} {cut : ℤ} {h : List Point}
    {p : Point} (hz : Shows z mk cut h) (hnew : mk p ∉ h.map mk) (hcut : cut < p.score) :
    Shows (z.add (mk p) p.score) mk cut (h ++ [p]) := by
  have hmem : mk p ∉ z.members := by
    intro hm
    obtain ⟨score, hscore⟩ := SortedSet.mem_members.mp hm
    obtain ⟨q, hq, he⟩ := List.mem_map.mp (hz.mem_iff.mp hscore)
    have hqh := (mem_after.mp hq).1
    exact hnew (List.mem_map.mpr ⟨q, hqh, (Prod.mk.inj he).1⟩)
  have hone : after Point.score cut [p] = [p] := by simp [after, hcut]
  unfold Shows
  rw [SortedSet.entries_add_of_not_mem hmem, after_append, hone, List.map_append]
  exact ((List.Perm.cons _ hz).trans (List.perm_append_singleton _ _).symm)

theorem Shows.rangeFrom {z : SortedSet String} {mk : Point → String} {cut : ℤ} {h : List Point}
    (hz : Shows z mk cut h) : (z.rangeFrom cut).Perm ((after Point.score cut h).map mk) := by
  have hall : z.entries.filter (fun e => cut ≤ e.2) = z.entries := by
    apply List.filter_eq_self.mpr
    intro e he
    obtain ⟨p, hp, rfl⟩ := List.mem_map.mp (hz.mem_iff.mp he)
    have hcut := (mem_after.mp hp).2
    simp only [decide_eq_true_eq]
    omega
  have hrange := z.rangeFrom_perm cut
  rw [hall] at hrange
  refine hrange.trans ((hz.map Prod.fst).trans ?_)
  rw [List.map_map]
  exact .refl _

/-- The key holds the points of `h` after some cut that every later reader cuts at or beyond, and
it lives until each of them has left the window. -/
structure Tracks (s : Store) (key : String) (mk : Point → String) (h : List Point) : Prop where
  past : ∀ p ∈ h, p.time ≤ s.clock
  view : ∃ cut z, cut + rollingWindowMs ≤ (s.clock : ℤ) ∧ zsetOf (s.lookup key) = some z ∧
    Shows z mk cut h
  lasting : ∀ e, s.live key = some e → ∃ d, e.deadline = some d ∧
    ∀ p ∈ h, p.time + rollingCounterTtlSeconds * 1000 ≤ d

namespace Tracks

variable {s s' : Store} {key : String} {mk : Point → String} {h : List Point}

theorem empty (now : ℕ) (key : String) (mk : Point → String) :
    Tracks (.empty now) key mk [] where
  past := by simp
  view := ⟨(now : ℤ) - rollingWindowMs, .empty, by simp [TtlStore.Store.empty], rfl, .refl _⟩
  lasting e he := by simp [TtlStore.Store.empty, TtlStore.Store.live] at he

theorem of_live (htracks : Tracks s key mk h) (hlive : s'.live key = s.live key)
    (hclock : s'.clock = s.clock) : Tracks s' key mk h where
  past := hclock ▸ htracks.past
  view := by
    rw [hclock, TtlStore.Store.lookup, hlive]
    exact htracks.view
  lasting := hlive ▸ htracks.lasting

theorem advance (htracks : Tracks s key mk h) {t : ℕ} (ht : s.clock ≤ t) :
    Tracks (s.advance t) key mk h := by
  obtain ⟨cut, z, hcut, hz, hshows⟩ := htracks.view
  have hlive := s.live_advance ht key
  refine ⟨fun p hp => (htracks.past p hp).trans ht, ?_, fun e he => ?_⟩
  · by_cases hexpired : ∃ e, s.live key = some e ∧ e.alive t = false
    · obtain ⟨e, he, hdead⟩ := hexpired
      obtain ⟨d, hd, hlast⟩ := htracks.lasting e he
      have hdt : d ≤ t := by simpa [TtlStore.Entry.alive, hd] using hdead
      have hnone : (s.advance t).lookup key = none := by
        rw [TtlStore.Store.lookup, hlive, he, Option.filter_some, if_neg (by simp [hdead])]
        rfl
      refine ⟨(t : ℤ) - rollingWindowMs, .empty, by simp, by rw [hnone]; rfl, ?_⟩
      unfold Shows
      rw [after_eq_nil]
      · exact .refl _
      · intro p hp
        have hp' := hlast p hp
        unfold Point.score
        unfold rollingCounterTtlSeconds at hp'
        unfold rollingWindowMs
        omega
    · have hsame : (s.advance t).lookup key = s.lookup key := by
        rw [TtlStore.Store.lookup, hlive, TtlStore.Store.lookup]
        cases hk : s.live key with
        | none => rfl
        | some e =>
          have halive : e.alive t = true := by
            by_contra hdead
            exact hexpired ⟨e, hk, by simpa using hdead⟩
          rw [Option.filter_some, if_pos halive]
      have hcut' : cut + rollingWindowMs ≤ (t : ℤ) := by omega
      exact ⟨cut, z, hcut', hsame ▸ hz, hshows⟩
  · rw [hlive, Option.filter_eq_some_iff] at he
    exact htracks.lasting e he.1

theorem trim (htracks : Tracks s key mk h) :
    ∃ n s' z, run (zremrangebyscore key 0 ((s.clock : ℤ) - rollingWindowMs)) s = (.ok n, s') ∧
      zsetOf (s'.lookup key) = some z ∧ Shows z mk ((s.clock : ℤ) - rollingWindowMs) h ∧
      Tracks s' key mk h ∧ s'.clock = s.clock ∧ ∀ k, k ≠ key → s'.live k = s.live k := by
  obtain ⟨cut, z, hcut, hz, hshows⟩ := htracks.view
  have hcut' : cut ≤ (s.clock : ℤ) - rollingWindowMs := by omega
  have hshows' := hshows.removeRange hcut'
  have hz' : zsetOf ((s.alter key
      (ofZset (z.removeRange 0 ((s.clock : ℤ) - rollingWindowMs)))).lookup key) =
      some (z.removeRange 0 ((s.clock : ℤ) - rollingWindowMs)) := by
    rw [TtlStore.Store.lookup_alter, if_pos rfl, zsetOf_ofZset]
  refine ⟨_, _, _, run_zremrangebyscore hz 0 _, hz', hshows', ?_, rfl,
    fun k hk => TtlStore.Store.live_setEntry_ne _ _ hk⟩
  refine ⟨htracks.past, ⟨_, _, by simp, hz', hshows'⟩, fun e he => ?_⟩
  rw [TtlStore.Store.live_alter, Option.map_eq_some_iff] at he
  obtain ⟨v, hv, rfl⟩ := he
  -- An emptied set is gone; one that is not was live before and keeps its deadline.
  cases hlive : s.live key with
  | none =>
    have hlookup : s.lookup key = none := by rw [TtlStore.Store.lookup, hlive]; rfl
    rw [hlookup, zsetOf_none, Option.some.injEq] at hz
    subst hz
    simp [ofZset, SortedSet.removeRange, SortedSet.keep, SortedSet.empty] at hv
  | some e₀ => exact htracks.lasting e₀ hlive

theorem addPoint (htracks : Tracks s key mk h) {p : Point} (hnow : p.time = s.clock)
    (hnew : mk p ∉ h.map mk) :
    ∃ s', run (addPoint key (mk p) s.clock) s = (.ok (), s') ∧ Tracks s' key mk (h ++ [p]) ∧
      s'.clock = s.clock ∧ ∀ k, k ≠ key → s'.live k = s.live k := by
  obtain ⟨cut, z, hcut, hz, hshows⟩ := htracks.view
  have hscore : p.score = s.clock := by rw [Point.score, hnow]
  have hlate : cut < p.score := by
    unfold rollingWindowMs at hcut
    omega
  have hadded := hshows.add hnew hlate
  have hcut' : cut ≤ (s.clock : ℤ) - rollingWindowMs := by omega
  have hshows' := hadded.removeRange hcut'
  have hpos : 0 < rollingCounterTtlSeconds * 1000 := by decide
  have hpast : ∀ q ∈ h ++ [p], q.time ≤ s.clock := by
    intro q hq
    rcases List.mem_append.mp hq with hq | hq
    · exact htracks.past q hq
    · rw [List.mem_singleton.mp hq]
      exact hnow.le
  rw [hscore] at hshows'
  refine ⟨_, run_addPoint hz (mk p) s.clock, ⟨hpast, ⟨_, _, ?_, ?_, hshows'⟩, ?_⟩, rfl, ?_⟩
  · simp
  · rw [TtlStore.Store.lookup_expireIn _ _ _ hpos, TtlStore.Store.lookup_alter, if_pos rfl,
      zsetOf_ofZset]
  · intro e he
    rw [TtlStore.Store.live_expireIn _ _ hpos, Option.map_eq_some_iff] at he
    obtain ⟨e', -, rfl⟩ := he
    exact ⟨_, rfl, fun q hq => Nat.add_le_add_right (hpast q hq) _⟩
  · intro k hk
    rw [TtlStore.Store.expireIn, TtlStore.Store.live_setEntry_ne _ _ hk, TtlStore.Store.alter,
      TtlStore.Store.live_setEntry_ne _ _ hk, TtlStore.Store.alter,
      TtlStore.Store.live_setEntry_ne _ _ hk]

end Tracks

def window (now : ℕ) (h : List Point) : List Point :=
  after Point.score ((now : ℤ) - rollingWindowMs) h

/-- Both sorted sets of a scope track its history. -/
structure TracksScope (s : Store) (scopeId : String) (h : List Point) : Prop where
  requests : Tracks s (requests60sKey scopeId) Point.requestMember h
  tokens : Tracks s (tokens60sKey scopeId) Point.tokenMember h

namespace TracksScope

variable {s s' : Store} {scopeId : String} {h : List Point}

theorem empty (now : ℕ) (scopeId : String) : TracksScope (.empty now) scopeId [] :=
  ⟨.empty _ _ _, .empty _ _ _⟩

theorem advance (htracks : TracksScope s scopeId h) {t : ℕ} (ht : s.clock ≤ t) :
    TracksScope (s.advance t) scopeId h :=
  ⟨htracks.requests.advance ht, htracks.tokens.advance ht⟩

theorem of_live (htracks : TracksScope s scopeId h) (hclock : s'.clock = s.clock)
    (hlive : ∀ k, k = requests60sKey scopeId ∨ k = tokens60sKey scopeId →
      s'.live k = s.live k) : TracksScope s' scopeId h :=
  ⟨htracks.requests.of_live (hlive _ (.inl rfl)) hclock,
    htracks.tokens.of_live (hlive _ (.inr rfl)) hclock⟩

theorem increment (htracks : TracksScope s scopeId h) (totalTokens : Option ℤ) (memberId : String)
    (hfresh : ∀ p ∈ h, p.memberId ≠ memberId) :
    ∃ s', run (incrementProject60s scopeId totalTokens s.clock memberId) s = (.ok (), s') ∧
      TracksScope s' scopeId (h ++ [⟨s.clock, memberId, normalizeTotalTokens totalTokens⟩]) ∧
      s'.clock = s.clock ∧ ∀ k, k ≠ requests60sKey scopeId → k ≠ tokens60sKey scopeId →
        s'.live k = s.live k := by
  have hnew : ∀ (mk : Point → String),
      (∀ p q, mk p = mk q → p.memberId = q.memberId) →
      mk ⟨s.clock, memberId, normalizeTotalTokens totalTokens⟩ ∉ h.map mk := by
    intro mk hmk hmem
    obtain ⟨p, hp, he⟩ := List.mem_map.mp hmem
    exact hfresh p hp (hmk _ _ he)
  obtain ⟨s₁, hrun₁, hreq, hclock₁, hlive₁⟩ := htracks.requests.addPoint
    (p := ⟨s.clock, memberId, normalizeTotalTokens totalTokens⟩) rfl
    (hnew _ fun p q he => memberId_eq_of_member he)
  have htok₁ := htracks.tokens.of_live
    (hlive₁ _ (requests60sKey_ne_tokens60sKey _ _).symm) hclock₁
  obtain ⟨s₂, hrun₂, htok, hclock₂, hlive₂⟩ := htok₁.addPoint
    (p := ⟨s.clock, memberId, normalizeTotalTokens totalTokens⟩) hclock₁.symm
    (hnew _ fun p q he => memberId_eq_of_member he)
  rw [hclock₁] at hrun₂
  refine ⟨s₂, ?_, ⟨hreq.of_live (hlive₂ _ (requests60sKey_ne_tokens60sKey _ _)) hclock₂, htok⟩,
    hclock₂.trans hclock₁, fun k hk hk' => (hlive₂ k hk').trans (hlive₁ k hk)⟩
  exact (Program.run_bind_eq exec hrun₁).trans hrun₂

theorem getProject60s (htracks : TracksScope s scopeId h) :
    ∃ s', run (getProject60s scopeId s.clock) s =
        (.ok ((window s.clock h).length, ((window s.clock h).map Point.tokens).sum), s') ∧
      TracksScope s' scopeId h ∧ s'.clock = s.clock ∧
      ∀ k, k ≠ requests60sKey scopeId → k ≠ tokens60sKey scopeId → s'.live k = s.live k := by
  obtain ⟨n₁, s₁, z₁, hrun₁, hz₁, hshows₁, hreq, hclock₁, hlive₁⟩ := htracks.requests.trim
  have htok₁ := htracks.tokens.of_live
    (hlive₁ _ (requests60sKey_ne_tokens60sKey _ _).symm) hclock₁
  obtain ⟨n₂, s₂, z₂, hrun₂, hz₂, hshows₂, htok, hclock₂, hlive₂⟩ := htok₁.trim
  rw [hclock₁] at hrun₂ hshows₂
  have hz₁' : zsetOf (s₂.lookup (requests60sKey scopeId)) = some z₁ := by
    rw [TtlStore.Store.lookup, hlive₂ _ (requests60sKey_ne_tokens60sKey _ _)]
    exact hz₁
  have hcard : z₁.card = (window s.clock h).length := by
    rw [SortedSet.card, hshows₁.length_eq, List.length_map]
    rfl
  have hmembers := hshows₂.rangeFrom
  have hparse : ∀ m ∈ z₂.rangeFrom ((s.clock : ℤ) - rollingWindowMs), (parseTokens m).isSome := by
    intro m hm
    obtain ⟨p, -, rfl⟩ := List.mem_map.mp (hmembers.mem_iff.mp hm)
    rw [Point.tokenMember, parseTokens_member]
    rfl
  have hsum : ((z₂.rangeFrom ((s.clock : ℤ) - rollingWindowMs)).map
      fun m => (parseTokens m).getD 0).sum = ((window s.clock h).map Point.tokens).sum := by
    rw [(hmembers.map _).sum_eq, List.map_map]
    congr 2
    funext p
    simp only [Function.comp_apply, Point.tokenMember, parseTokens_member, Option.getD_some]
  refine ⟨s₂, ?_, ⟨hreq.of_live (hlive₂ _ (requests60sKey_ne_tokens60sKey _ _)) hclock₂, htok⟩,
    hclock₂.trans hclock₁, fun k hk hk' => (hlive₂ k hk').trans (hlive₁ k hk)⟩
  unfold RollingWindow.getProject60s
  rw [run, Program.run_bind_eq exec hrun₁, Program.run_bind_eq exec hrun₂,
    Program.run_bind_eq exec (run_zcard hz₁'), Program.run_bind_eq exec (run_zrangebyscore hz₂ _),
    Program.run_bind_eq exec (run_sumTokens s₂ hparse), Program.run_pure, hcard, hsum]

end TracksScope

/-- Increments and reads of any scopes at a nondecreasing clock, the ids of the increments being
fresh; the history lists the increments. -/
inductive Runs : List (String × Point) → Store → Prop
  | empty (now : ℕ) : Runs [] (.empty now)
  | increment {h s} (t : ℕ) (scopeId : String) (totalTokens : Option ℤ) (memberId : String)
      (hrun : Runs h s) (hclock : s.clock ≤ t) (hfresh : ∀ e ∈ h, e.2.memberId ≠ memberId) :
      Runs (h ++ [(scopeId, ⟨t, memberId, normalizeTotalTokens totalTokens⟩)])
        (run (incrementProject60s scopeId totalTokens t memberId) (s.advance t)).2
  | get {h s} (t : ℕ) (scopeId : String) (hrun : Runs h s) (hclock : s.clock ≤ t) :
      Runs h (run (getProject60s scopeId t) (s.advance t)).2

def ofScope (scopeId : String) (h : List (String × Point)) : List Point :=
  (h.filter fun e => e.1 = scopeId).map Prod.snd

theorem TracksScope.of_other {s s' : Store} {scopeId scopeId' : String} {h : List Point}
    (htracks : TracksScope s scopeId h) (hne : scopeId ≠ scopeId') (hclock : s'.clock = s.clock)
    (hlive : ∀ k, k ≠ requests60sKey scopeId' → k ≠ tokens60sKey scopeId' →
      s'.live k = s.live k) : TracksScope s' scopeId h := by
  apply htracks.of_live hclock
  intro k hk
  rcases hk with rfl | rfl
  · apply hlive
    · simpa using hne
    · exact requests60sKey_ne_tokens60sKey _ _
  · apply hlive
    · exact (requests60sKey_ne_tokens60sKey _ _).symm
    · simpa using hne

theorem Runs.tracks {h : List (String × Point)} {s : Store} (hrun : Runs h s) (scopeId : String) :
    TracksScope s scopeId (ofScope scopeId h) := by
  induction hrun generalizing scopeId with
  | empty now => exact .empty now scopeId
  | @increment h s t scopeId' totalTokens memberId _ hclock hfresh ih =>
    have hold : ∀ p ∈ ofScope scopeId' h, p.memberId ≠ memberId := by
      intro p hp
      obtain ⟨e, he, rfl⟩ := List.mem_map.mp hp
      exact hfresh e (List.mem_filter.mp he).1
    obtain ⟨s', hrun', htracks, hclock', hlive⟩ :=
      ((ih scopeId').advance hclock).increment totalTokens memberId hold
    rw [TtlStore.Store.advance_clock] at hrun' htracks
    rw [hrun']
    by_cases hscope : scopeId = scopeId'
    · subst hscope
      simpa [ofScope] using htracks
    · have hother := ((ih scopeId).advance hclock).of_other hscope hclock' hlive
      simpa [ofScope, Ne.symm hscope] using hother
  | @get h s t scopeId' _ hclock ih =>
    obtain ⟨s', hrun', htracks, hclock', hlive⟩ :=
      ((ih scopeId').advance hclock).getProject60s
    rw [TtlStore.Store.advance_clock] at hrun'
    rw [hrun']
    by_cases hscope : scopeId = scopeId'
    · subst hscope
      exact htracks
    · exact ((ih scopeId).advance hclock).of_other hscope hclock' hlive

theorem Runs.past {h : List (String × Point)} {s : Store} (hrun : Runs h s) {scopeId : String} :
    ∀ p ∈ ofScope scopeId h, p.time ≤ s.clock := (hrun.tracks scopeId).requests.past

/-- After any run a read answers with the number and the tokens of the increments of its scope in
the last sixty seconds, the one exactly sixty seconds back excluded. -/
theorem getProject60s_exact {h : List (String × Point)} {s : Store} (hrun : Runs h s)
    (scopeId : String) {now : ℕ} (hnow : s.clock ≤ now) :
    (run (getProject60s scopeId now) (s.advance now)).1 = .ok
      ((h.filter fun e => e.1 = scopeId ∧ (now : ℤ) - 60000 < e.2.time ∧ e.2.time ≤ now).length,
        ((h.filter fun e => e.1 = scopeId ∧ (now : ℤ) - 60000 < e.2.time ∧ e.2.time ≤ now).map
          fun e => e.2.tokens).sum) := by
  have htracks := (hrun.tracks scopeId).advance hnow
  obtain ⟨s', hget, -⟩ := htracks.getProject60s
  rw [TtlStore.Store.advance_clock] at hget
  have hwindow : window now (ofScope scopeId h) =
      (h.filter fun e => e.1 = scopeId ∧ (now : ℤ) - 60000 < e.2.time ∧ e.2.time ≤ now).map
        Prod.snd := by
    unfold window ofScope after
    rw [List.filter_map, List.filter_filter]
    congr 1
    apply List.filter_congr
    intro e he
    rw [Bool.eq_iff_iff]
    by_cases hscope : e.1 = scopeId
    · have hmem : e.2 ∈ ofScope scopeId h :=
        List.mem_map.mpr ⟨e, List.mem_filter.mpr ⟨he, by simpa using hscope⟩, rfl⟩
      have hpast := (hrun.past e.2 hmem).trans hnow
      simp only [Bool.and_eq_true, Function.comp_apply, decide_eq_true_eq, hscope, hpast, true_and,
        and_true]
      exact Iff.rfl
    · simp [hscope]
  rw [hget, hwindow, List.length_map, List.map_map]
  rfl

/-- Two increments and a read; the first increment is sixty seconds old when the next read comes. -/
theorem getProject60s_exact_sample :
    (run (getProject60s "p1:openai" 60005)
      ((run (getProject60s "p1:openai" 30000) ((run (incrementProject60s "p1:openai" (some 7) 20 "b")
        ((run (incrementProject60s "p1:openai" (some 3) 5 "a")
          (.advance (.empty 0) 5)).2.advance 20)).2.advance 30000)).2.advance 60005)).1 =
      .ok (1, 7) := by
  have h₁ := (Runs.empty 0).increment 5 "p1:openai" (some 3) "a" (by decide) (by simp)
  have h₂ := h₁.increment 20 "p1:openai" (some 7) "b" (by decide) (by simp)
  have h₃ := h₂.get 30000 "p1:openai" (by decide)
  have hnow : 30000 ≤ 60005 := by decide
  exact (getProject60s_exact h₃ "p1:openai" hnow).trans (by decide)

end Rheonic.RollingWindow
