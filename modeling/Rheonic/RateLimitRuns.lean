import Rheonic.RateLimits

namespace Rheonic.RateLimits
open CommandProgram

variable {L : Limiter}

/-- A request since its clock was read: what is left of its program, unless it has crashed. -/
structure Request (L : Limiter) where
  client : L.Client
  arrivedAt : ℕ
  progress : Option (Redis.Prog Unit)

namespace Request

def key (r : Request L) : String := L.key r.client (L.epoch r.arrivedAt)

def answer (r : Request L) : Option (Except Exn Unit) := r.progress.bind Program.outcome

def accepted (r : Request L) : Bool :=
  match r.answer with
  | some (.ok _) => true
  | _ => false

end Request

/-- Redis with its clock, and all requests in the order of their increments. -/
structure State (L : Limiter) where
  redis : Redis.Store
  requests : List (Request L)

namespace State

def keys (s : State L) : List String := s.requests.map Request.key

/-- The requests that have been counted under a key. -/
def count (s : State L) (key : String) : ℕ := s.keys.count key

/-- Which of the requests under its key a request is. -/
def place (s : State L) (i : ℕ) (r : Request L) : ℕ := (s.keys.take i).count r.key + 1

end State

/-- One step of the system while Redis answers: time passes, a request reads the clock and issues
its first command at once, a request issues its next command, a request crashes, or something else
uses keys of its own. -/
inductive Step (L : Limiter) : State L → State L → Prop
  | tick (s : State L) (t : ℕ) (hclock : s.redis.clock ≤ t) :
    Step L s ⟨s.redis.advance t, s.requests⟩
  | arrive (s : State L) (client : L.Client) {c : Redis.Cmd}
    {k : Except Exn c.Reply → Redis.Prog Unit} {reply : c.Reply}
    (hprogram : L.program client s.redis.clock = .call c k)
    (hup : (Redis.exec c s.redis).1 = .ok reply) :
    Step L s ⟨(Redis.exec c s.redis).2,
      s.requests ++ [⟨client, s.redis.clock, some (k (.ok reply))⟩]⟩
  | go (s : State L) (i : ℕ) {r : Request L} {c : Redis.Cmd}
    {k : Except Exn c.Reply → Redis.Prog Unit} {reply : c.Reply}
    (hr : s.requests[i]? = some r) (hrest : r.progress = some (.call c k))
    (hup : (Redis.exec c s.redis).1 = .ok reply) :
    Step L s ⟨(Redis.exec c s.redis).2,
      s.requests.set i { r with progress := some (k (.ok reply)) }⟩
  | crash (s : State L) (i : ℕ) {r : Request L} (hr : s.requests[i]? = some r) :
    Step L s ⟨s.redis, s.requests.set i { r with progress := none }⟩
  | other (s : State L) (c : Redis.Cmd) (hkey : ∀ client e, c.key ≠ L.key client e) :
    Step L s ⟨(Redis.exec c s.redis).2, s.requests⟩

/-- Nothing has been counted in the present epoch or a later one. -/
structure Start (s : State L) : Prop where
  requests : s.requests = []
  fresh : ∀ client e, L.epoch s.redis.clock ≤ e → s.redis.lookup (L.key client e) = none

def Runs (L : Limiter) : State L → State L → Prop := Relation.ReflTransGen (Step L)

section Counters

/-- A key shows a number, and goes on to do so until some time. -/
structure Counts (s : Redis.Store) (key : String) (n until' : ℕ) : Prop where
  counter : Redis.counterOf (s.lookup key) = some (n : ℤ)
  lasts : ∀ entry, s.live key = some entry → ∀ d ∈ entry.deadline, until' ≤ d

variable {s s' : Redis.Store} {key : String} {n u t : ℕ}

theorem Counts.congr (h : Counts s key n u) (hentry : s'.entry key = s.entry key)
    (hclock : s'.clock = s.clock) : Counts s' key n u := by
  have hlive : s'.live key = s.live key := by
    rw [TtlStore.Store.live, TtlStore.Store.live, hentry, hclock]
  constructor
  · rw [Redis.lookup_eq_of_entry hentry hclock]
    exact h.counter
  · rw [hlive]
    exact h.lasts

theorem Counts.advance (h : Counts s key n u) (ht : s.clock ≤ t) (hu : t < u) :
    Counts (s.advance t) key n u := by
  have hlive : (s.advance t).live key = s.live key := by
    rw [TtlStore.Store.live_advance s ht]
    cases hkey : s.live key with
    | none => rfl
    | some entry =>
      have halive : entry.alive t = true := by
        rw [TtlStore.Entry.alive, Option.all_eq_true]
        exact fun d hd => decide_eq_true (hu.trans_le (h.lasts entry hkey d hd))
      rw [Option.filter_some, if_pos halive]
  constructor
  · rw [TtlStore.Store.lookup, hlive]
    exact h.counter
  · rw [hlive]
    exact h.lasts

theorem Counts.incr (h : Counts s key n u) {reply : ℤ}
    (hup : (Redis.exec (.incrby key 1) s).1 = .ok reply) :
    reply = n + 1 ∧ Counts (Redis.exec (.incrby key 1) s).2 key (n + 1) u := by
  have hexec : Redis.exec (.incrby key 1) s = if Redis.inRange ((n : ℤ) + 1) then
      (.ok ((n : ℤ) + 1), s.alter key (some (Redis.number ((n : ℤ) + 1))))
    else (.error Redis.notAnInteger, s) := by
    simp only [Redis.exec, h.counter]
    rfl
  rw [hexec] at hup ⊢
  by_cases hrange : Redis.inRange ((n : ℤ) + 1) = true
  · rw [if_pos hrange] at hup ⊢
    refine ⟨(Except.ok.inj hup).symm, ?_, ?_⟩
    · rw [TtlStore.Store.lookup_alter, if_pos rfl, Redis.counterOf_number]
      push_cast
      rfl
    · intro entry hentry d hd
      rw [TtlStore.Store.live_alter] at hentry
      rw [← Option.some.inj hentry] at hd
      obtain ⟨old, hold, hdeadline⟩ := Option.bind_eq_some_iff.mp (Option.mem_def.mp hd)
      exact h.lasts old hold d hdeadline
  · rw [if_neg hrange] at hup
    exact absurd hup (by simp)

theorem Counts.incr_ok (h : Counts s key n u)
    (hrange : Redis.inRange ((n : ℤ) + 1) = true) :
    (Redis.exec (.incrby key 1) s).1 = .ok ((n : ℤ) + 1) := by
  simp only [Redis.exec, h.counter]
  rw [if_pos hrange]

theorem Counts.expire (h : Counts s key n u) {seconds : ℕ} (hpos : 0 < seconds)
    (hu : u ≤ s.clock + seconds * 1000) :
    Counts (Redis.exec (.expire key seconds) s).2 key n u := by
  have hms : 0 < seconds * 1000 := by omega
  have hexec : (Redis.exec (.expire key seconds) s).2 = s.expireIn key (seconds * 1000) := by
    simp only [Redis.exec]
    rw [if_neg (by omega)]
  rw [hexec]
  constructor
  · rw [TtlStore.Store.lookup_expireIn s _ _ hms]
    exact h.counter
  · intro entry hentry d hd
    rw [TtlStore.Store.live_expireIn s key hms] at hentry
    obtain ⟨old, -, hnew⟩ := Option.map_eq_some_iff.mp hentry
    rw [← hnew] at hd
    have hdeadline : s.clock + seconds * 1000 = d := Option.some.inj (Option.mem_def.mp hd)
    omega

end Counters

section Epochs

variable {e now : ℕ}

def Limiter.endOf (L : Limiter) (e : ℕ) : ℕ := (e + 1) * L.windowSeconds * 1000

theorem lt_endOf (h : L.epoch now ≤ e) : now < L.endOf e := by
  have hseconds : now / 1000 < (e + 1) * L.windowSeconds :=
    (Nat.div_lt_iff_lt_mul L.window_pos).mp (Nat.lt_succ_of_le h)
  exact (Nat.div_lt_iff_lt_mul (by decide)).mp hseconds

theorem endOf_le (h : e = L.epoch now) : L.endOf e ≤ now + L.windowSeconds * 1000 := by
  have hstart : e * L.windowSeconds ≤ now / 1000 := by
    rw [h]
    exact Nat.div_mul_le_self _ _
  have hms : e * L.windowSeconds * 1000 ≤ now := by omega
  have hend : L.endOf e = e * L.windowSeconds * 1000 + L.windowSeconds * 1000 := by
    unfold Limiter.endOf
    ring
  omega

theorem epoch_mono {t : ℕ} (h : now ≤ t) : L.epoch now ≤ L.epoch t :=
  Nat.div_le_div_right (Nat.div_le_div_right h)

theorem epoch_of_interval {a b : ℕ} (hlength : b ≤ a + L.windowSeconds * 1000) (ha : a ≤ now)
    (hb : now ≤ b) : L.epoch now = L.epoch a ∨ L.epoch now = L.epoch a + 1 := by
  have hlow : L.epoch a ≤ L.epoch now := epoch_mono ha
  have hhigh : L.epoch (a + L.windowSeconds * 1000) = L.epoch a + 1 := by
    unfold Limiter.epoch
    rw [Nat.add_mul_div_right _ _ (by decide), Nat.add_div_right _ L.window_pos]
  have hle : L.epoch now ≤ L.epoch a + 1 := hhigh ▸ epoch_mono (hb.trans hlength)
  omega

end Epochs

/-- Where a request may stand that was counted as number `n` under its key. -/
def Stands (r : Request L) (n : ℕ) : Prop :=
  r.progress = none ∨ r.progress = some (verdict (L.limit r.client) n) ∨
    n = 1 ∧ r.progress =
      some (.call (.expire r.key L.windowSeconds) (afterExpire (L.limit r.client) n))

/-- What holds at all times: the keys of the present and later epochs show what has been counted
under them until the end of their epoch, and every request was told its place. -/
structure Inv (s : State L) : Prop where
  arrived : ∀ r ∈ s.requests, r.arrivedAt ≤ s.redis.clock
  counts : ∀ client e, L.epoch s.redis.clock ≤ e →
    Counts s.redis (L.key client e) (s.count (L.key client e)) (L.endOf e)
  stands : ∀ i r, s.requests[i]? = some r → Stands r (s.place i r)

section Steps

variable {s s' : State L}

theorem Start.inv (h : Start s) : Inv s where
  arrived r hr := by
    rw [h.requests] at hr
    exact absurd hr List.not_mem_nil
  counts client e he := by
    have hnone := h.fresh client e he
    have hzero : s.count (L.key client e) = 0 := by
      rw [State.count, State.keys, h.requests]
      rfl
    rw [hzero]
    refine ⟨by rw [hnone]; rfl, fun entry hentry => ?_⟩
    rw [TtlStore.Store.lookup, Option.map_eq_none_iff] at hnone
    exact absurd (hnone.symm.trans hentry) (Option.some_ne_none entry).symm
  stands i r hr := by
    rw [h.requests] at hr
    exact absurd hr (by simp)

theorem keys_set {i : ℕ} {r r' : Request L} (hr : s.requests[i]? = some r) (hkey : r'.key = r.key) :
    (s.requests.set i r').map Request.key = s.keys := by
  apply List.ext_getElem?
  intro j
  rw [State.keys, List.getElem?_map, List.getElem?_map, List.getElem?_set]
  by_cases hij : i = j
  · subst hij
    rw [if_pos rfl, hr]
    have hlt : i < s.requests.length := (List.getElem?_eq_some_iff.mp hr).1
    rw [if_pos hlt, Option.map_some, Option.map_some, hkey]
  · rw [if_neg hij]

theorem Inv.set (h : Inv s) {redis : Redis.Store} {i : ℕ} {r : Request L}
    (hr : s.requests[i]? = some r) {progress : Option (Redis.Prog Unit)}
    (hclock : redis.clock = s.redis.clock)
    (hcounts : ∀ client e, L.epoch s.redis.clock ≤ e →
      Counts redis (L.key client e) (s.count (L.key client e)) (L.endOf e))
    (hstands : Stands { r with progress := progress } (s.place i r)) :
    Inv ⟨redis, s.requests.set i { r with progress := progress }⟩ := by
  have hkeys : State.keys ⟨redis, s.requests.set i { r with progress := progress }⟩ = s.keys :=
    keys_set hr rfl
  constructor
  · intro r' hr'
    show r'.arrivedAt ≤ redis.clock
    rw [hclock]
    rcases List.mem_or_eq_of_mem_set hr' with hmem | rfl
    · exact h.arrived r' hmem
    · exact h.arrived r (List.mem_of_getElem? hr)
  · intro client e he
    rw [State.count, hkeys]
    exact hcounts client e (hclock ▸ he)
  · intro j r' hr'
    rw [State.place, hkeys]
    rw [List.getElem?_set] at hr'
    by_cases hij : i = j
    · subst hij
      have hlt : i < s.requests.length := (List.getElem?_eq_some_iff.mp hr).1
      rw [if_pos rfl, if_pos hlt] at hr'
      rw [← Option.some.inj hr']
      exact hstands
    · rw [if_neg hij] at hr'
      exact h.stands j r' hr'

theorem Inv.tick (h : Inv s) {t : ℕ} (ht : s.redis.clock ≤ t) :
    Inv ⟨s.redis.advance t, s.requests⟩ where
  arrived r hr := (h.arrived r hr).trans ht
  counts client e he := by
    have he : L.epoch t ≤ e := he
    exact (h.counts client e ((epoch_mono ht).trans he)).advance ht (lt_endOf he)
  stands := h.stands

theorem Inv.other (h : Inv s) {c : Redis.Cmd} (hkey : ∀ client e, c.key ≠ L.key client e) :
    Inv ⟨(Redis.exec c s.redis).2, s.requests⟩ where
  arrived r hr := by
    show r.arrivedAt ≤ (Redis.exec c s.redis).2.clock
    rw [Redis.exec_clock]
    exact h.arrived r hr
  counts client e he := by
    have he : L.epoch (Redis.exec c s.redis).2.clock ≤ e := he
    rw [Redis.exec_clock] at he
    exact (h.counts client e he).congr (Redis.exec_entry_ne c _ (hkey client e).symm)
      (Redis.exec_clock c _)
  stands := h.stands

theorem Inv.append (h : Inv s) {redis : Redis.Store} {r : Request L}
    (hclock : redis.clock = s.redis.clock) (harrived : r.arrivedAt = s.redis.clock)
    (hcounted : Counts redis r.key (s.count r.key + 1) (L.endOf (L.epoch s.redis.clock)))
    (hframe : ∀ key, key ≠ r.key → redis.entry key = s.redis.entry key)
    (hstands : Stands r (s.count r.key + 1)) : Inv ⟨redis, s.requests ++ [r]⟩ := by
  have hkey : r.key = L.key r.client (L.epoch s.redis.clock) := by rw [Request.key, harrived]
  have hkeys : State.keys ⟨redis, s.requests ++ [r]⟩ = s.keys ++ [r.key] := by
    rw [State.keys, State.keys, List.map_append, List.map_singleton]
  constructor
  · intro r' hr'
    show r'.arrivedAt ≤ redis.clock
    rw [hclock]
    rcases List.mem_append.mp hr' with hold | hlast
    · exact h.arrived r' hold
    · rw [List.mem_singleton.mp hlast, harrived]
  · intro client e he
    have he : L.epoch redis.clock ≤ e := he
    rw [hclock] at he
    show Counts redis _ _ _
    rw [State.count, hkeys, List.count_append, List.count_singleton]
    -- the new request is counted under one key, and the others keep their counts
    by_cases hsame : r.key = L.key client e
    · have hepoch : L.epoch s.redis.clock = e := L.key_epoch _ _ _ _ (hkey.symm.trans hsame)
      rw [if_pos (beq_iff_eq.mpr hsame), ← hsame, ← hepoch]
      exact hcounted
    · rw [if_neg (fun heq => hsame (beq_iff_eq.mp heq))]
      exact (h.counts client e he).congr (hframe _ (Ne.symm hsame)) hclock
  · intro i r' hr'
    rw [State.place, hkeys]
    have hlength : s.keys.length = s.requests.length := List.length_map _
    by_cases hold : i < s.requests.length
    · have hr' : (s.requests ++ [r])[i]? = some r' := hr'
      rw [List.getElem?_append_left hold] at hr'
      rw [List.take_append_of_le_length (by omega)]
      exact h.stands i r' hr'
    · -- the last request: all the others of its key come before it
      have hr' : (s.requests ++ [r])[i]? = some r' := hr'
      have hlt := (List.getElem?_eq_some_iff.mp hr').1
      rw [List.length_append, List.length_singleton] at hlt
      have hi : i = s.requests.length := by omega
      rw [hi, List.getElem?_concat_length] at hr'
      rw [← Option.some.inj hr', hi, ← hlength, List.take_left]
      exact hstands

theorem Inv.arrive (h : Inv s) {client : L.Client} {reply : ℤ}
    (hup : (Redis.exec (.incrby (L.key client (L.epoch s.redis.clock)) 1) s.redis).1 = .ok reply) :
    Inv ⟨(Redis.exec (.incrby (L.key client (L.epoch s.redis.clock)) 1) s.redis).2,
      s.requests ++ [⟨client, s.redis.clock,
        some (afterIncr (L.key client (L.epoch s.redis.clock)) L.windowSeconds (L.limit client)
          (.ok reply))⟩]⟩ := by
  obtain ⟨rfl, hcounted⟩ := (h.counts client _ le_rfl).incr hup
  apply h.append (Redis.exec_clock _ _) rfl hcounted
  · exact fun key hkey => Redis.exec_entry_ne _ _ hkey
  · show Stands _ (s.count (L.key client (L.epoch s.redis.clock)) + 1)
    unfold Stands
    by_cases hone : s.count (L.key client (L.epoch s.redis.clock)) = 0
    · refine .inr (.inr ⟨by omega, congrArg some ?_⟩)
      rw [afterIncr_first (by omega), Nat.cast_add, Nat.cast_one]
      rfl
    · refine .inr (.inl (congrArg some ?_))
      rw [afterIncr_later (by omega), Nat.cast_add, Nat.cast_one]

/-- A request is counted as the next one of its key. -/
theorem Inv.counted (h : Inv s) (client : L.Client)
    (hrange : Redis.inRange ((s.count (L.key client (L.epoch s.redis.clock)) : ℤ) + 1) = true) :
    ∃ s', Step L s s' ∧ s'.requests = s.requests ++ [⟨client, s.redis.clock,
      some (afterIncr (L.key client (L.epoch s.redis.clock)) L.windowSeconds (L.limit client)
        (.ok ((s.count (L.key client (L.epoch s.redis.clock)) : ℤ) + 1)))⟩] ∧
      s'.redis.clock = s.redis.clock :=
  ⟨_, .arrive s client enforce_eq ((h.counts client _ le_rfl).incr_ok hrange), rfl,
    Redis.exec_clock _ _⟩

theorem Inv.go (h : Inv s) {i : ℕ} {r : Request L} (hr : s.requests[i]? = some r)
    {reply : Bool} :
    Inv ⟨(Redis.exec (.expire r.key L.windowSeconds) s.redis).2, s.requests.set i
      { r with progress := some (afterExpire (L.limit r.client) (s.place i r) (.ok reply)) }⟩ := by
  have harrived := h.arrived r (List.mem_of_getElem? hr)
  apply h.set hr (Redis.exec_clock _ _)
  · intro client e he
    by_cases hsame : L.key client e = r.key
    · have hepoch : e = L.epoch r.arrivedAt := L.key_epoch _ _ _ _ hsame
      have hcounts := h.counts client e he
      rw [hsame] at hcounts ⊢
      apply hcounts.expire L.window_pos
      exact (endOf_le hepoch).trans (Nat.add_le_add_right harrived _)
    · exact (h.counts client e he).congr (Redis.exec_entry_ne _ _ hsame) (Redis.exec_clock _ _)
  · exact .inr (.inl rfl)

theorem Step.inv (hstep : Step L s s') (h : Inv s) : Inv s' := by
  cases hstep with
  | tick t hclock => exact h.tick hclock
  | arrive client hprogram hup =>
    rw [Limiter.program, enforce_eq] at hprogram
    cases hprogram
    exact h.arrive hup
  | go i hr hrest hup =>
    rcases h.stands i _ hr with hnone | hverdict | ⟨-, hexpire⟩
    · rw [hnone] at hrest
      exact absurd hrest (Option.some_ne_none _).symm
    · rw [hverdict, verdict] at hrest
      split at hrest <;> cases hrest
    · rw [hexpire] at hrest
      cases hrest
      exact h.go hr
  | crash i hr => exact h.set hr rfl h.counts (.inl rfl)
  | other c hkey => exact h.other hkey

theorem Runs.inv (hrun : Runs L s s') (h : Inv s) : Inv s' := by
  induction hrun with
  | refl => exact h
  | tail _ hstep ih => exact hstep.inv ih

end Steps

section Answers

variable {s : State L} {r : Request L} {i n : ℕ}

theorem Stands.answer (h : Stands r n) {o : Except Exn Unit} (ho : r.answer = some o) :
    o = if (n : ℤ) ≤ L.limit r.client then .ok () else .error rateLimitExceeded := by
  unfold Request.answer at ho
  rcases h with hnone | hverdict | ⟨-, hexpire⟩
  · rw [hnone] at ho
    exact absurd ho (Option.some_ne_none o).symm
  · rw [hverdict, Option.bind_some, verdict] at ho
    by_cases hle : (n : ℤ) ≤ L.limit r.client
    · rw [if_neg (not_lt.mpr hle)] at ho
      rw [if_pos hle]
      exact (Option.some.inj ho).symm
    · rw [if_pos (not_le.mp hle)] at ho
      rw [if_neg hle]
      exact (Option.some.inj ho).symm
  · rw [hexpire] at ho
    exact absurd ho (Option.some_ne_none o).symm

theorem Stands.le_of_accepted (h : Stands r n) (hr : r.accepted = true) :
    (n : ℤ) ≤ L.limit r.client := by
  unfold Request.accepted at hr
  split at hr
  · next ho =>
    by_contra hlt
    have heq := h.answer ho
    rw [if_neg hlt] at heq
    exact absurd heq (by simp)
  · exact absurd hr (by decide)

/-- Entries that are accepted only in the first `m` places of their key are no more than that. -/
theorem countP_le_of_place {α : Type} {l : List α} {key : α → String} {accepted : α → Bool}
    {k : String} {m : ℕ} (h : ∀ (i : ℕ) a, l[i]? = some a → accepted a = true → key a = k →
      ((l.map key).take i).count k + 1 ≤ m) :
    (l.countP fun a => accepted a && decide (key a = k)) ≤ m ∧
      (l.countP fun a => accepted a && decide (key a = k)) ≤ (l.map key).count k := by
  induction l using List.reverseRecOn with
  | nil => exact ⟨Nat.zero_le m, le_rfl⟩
  | append_singleton l a ih =>
    have hbefore := ih fun i b hb => by
      have hlt : i < l.length := (List.getElem?_eq_some_iff.mp hb).1
      have hold := h i b (by rw [List.getElem?_append_left hlt]; exact hb)
      rwa [List.map_append, List.take_append_of_le_length (by rw [List.length_map]; omega)] at hold
    have hlast := h l.length a List.getElem?_concat_length
    rw [List.map_append, List.take_append_of_le_length (by rw [List.length_map]), ← List.map_take,
      List.take_length] at hlast
    rw [List.countP_append, List.countP_singleton, List.map_append, List.count_append,
      List.map_singleton, List.count_singleton]
    by_cases hcounted : (accepted a && decide (key a = k)) = true
    · have hboth := Bool.and_eq_true_iff.mp hcounted
      have hkey : key a = k := of_decide_eq_true hboth.2
      have hle := hlast hboth.1 hkey
      rw [if_pos hcounted, if_pos (beq_iff_eq.mpr hkey)]
      omega
    · rw [if_neg hcounted]
      omega

theorem countP_le_add {α : Type} {l : List α} {p q q' : α → Bool}
    (h : ∀ a, p a = true → q a = true ∨ q' a = true) :
    l.countP p ≤ l.countP q + l.countP q' := by
  induction l with
  | nil => exact le_rfl
  | cons a l ih =>
    rw [List.countP_cons, List.countP_cons, List.countP_cons]
    by_cases hp : p a = true
    · rcases h a hp with hq | hq
      · rw [if_pos hp, if_pos hq]
        omega
      · rw [if_pos hp, if_pos (c := q' a = true) hq]
        omega
    · rw [if_neg hp]
      omega

theorem Inv.accepted_le (h : Inv s) (client : L.Client) (e : ℕ) :
    (s.requests.countP fun r => r.accepted && decide (r.key = L.key client e)) ≤
      (L.limit client).toNat := by
  refine (countP_le_of_place fun i r hr haccepted hkey => ?_).1
  have hplace := (h.stands i r hr).le_of_accepted haccepted
  have hlimit : L.limit r.client = L.limit client := L.key_limit _ _ _ _ hkey
  rw [hlimit, State.place, hkey] at hplace
  have hcast : ((s.keys.take i).count (L.key client e) : ℤ) + 1 ≤ L.limit client := by
    exact_mod_cast hplace
  show (s.keys.take i).count (L.key client e) + 1 ≤ _
  omega

end Answers

/-- What a limiter promises of a state. -/
structure Limited (s : State L) : Prop where
  /-- No more than the limit are accepted under one key. -/
  perEpoch : ∀ client e,
    (s.requests.countP fun r => r.accepted && decide (r.key = L.key client e)) ≤
      (L.limit client).toNat
  /-- No more than twice the limit are accepted of one client in a time as long as the window. -/
  perInterval : ∀ client a b, b ≤ a + L.windowSeconds * 1000 →
    (s.requests.countP fun r => r.accepted && decide (r.key = L.key client (L.epoch r.arrivedAt) ∧
      a ≤ r.arrivedAt ∧ r.arrivedAt ≤ b)) ≤ 2 * (L.limit client).toNat
  /-- A counter shows all the requests of its epoch as long as that lasts, and no other. -/
  counter : ∀ client, Redis.counterOf (s.redis.lookup (L.key client (L.epoch s.redis.clock))) =
    some (s.count (L.key client (L.epoch s.redis.clock)) : ℤ)
  /-- What is counted under a key of an epoch has arrived in the epoch. -/
  ownEpoch : ∀ r ∈ s.requests, ∀ client e, r.key = L.key client e → L.epoch r.arrivedAt = e
  /-- An answer follows from the place of the request under its key. -/
  answers : ∀ i r, s.requests[i]? = some r → ∀ o, r.answer = some o →
    o = if (s.place i r : ℤ) ≤ L.limit r.client then .ok () else .error rateLimitExceeded

theorem Inv.limited {s : State L} (h : Inv s) : Limited s where
  perEpoch := h.accepted_le
  perInterval client a b hlength := by
    have hsplit : (s.requests.countP fun r => r.accepted &&
        decide (r.key = L.key client (L.epoch r.arrivedAt) ∧ a ≤ r.arrivedAt ∧ r.arrivedAt ≤ b)) ≤
        (s.requests.countP fun r => r.accepted && decide (r.key = L.key client (L.epoch a))) +
        s.requests.countP fun r => r.accepted && decide (r.key = L.key client (L.epoch a + 1)) := by
      apply countP_le_add
      intro r hr
      obtain ⟨haccepted, hwithin⟩ := Bool.and_eq_true_iff.mp hr
      obtain ⟨hkey, ha, hb⟩ := of_decide_eq_true hwithin
      rcases epoch_of_interval hlength ha hb with he | he
      · exact .inl (Bool.and_eq_true_iff.mpr ⟨haccepted, decide_eq_true (he ▸ hkey)⟩)
      · exact .inr (Bool.and_eq_true_iff.mpr ⟨haccepted, decide_eq_true (he ▸ hkey)⟩)
    have hfirst := h.accepted_le client (L.epoch a)
    have hsecond := h.accepted_le client (L.epoch a + 1)
    omega
  counter client := (h.counts client _ le_rfl).counter
  ownEpoch r _ client e hkey := L.key_epoch _ _ _ _ hkey
  answers i r hr o ho := (h.stands i r hr).answer ho

theorem start_empty (now : ℕ) : Start (⟨TtlStore.Store.empty now, []⟩ : State L) where
  requests := rfl
  fresh _ _ _ := rfl

/-- In every run of the system the limits of the three limiters hold. -/
theorem rateLimits_hold :
    (∀ settings hashKey, ∀ s₀ s : State (.ingest settings hashKey),
      Start s₀ → Runs _ s₀ s → Limited s) ∧
    (∀ settings texts, ∀ s₀ s : State (.auth settings texts),
      Start s₀ → Runs _ s₀ s → Limited s) ∧
    ∀ ext, ∀ s₀ s : State (.webhookTest ext), Start s₀ → Runs _ s₀ s → Limited s :=
  ⟨fun _ _ _ _ hstart hrun => (hrun.inv hstart.inv).limited,
    fun _ _ _ _ hstart hrun => (hrun.inv hstart.inv).limited,
    fun _ _ _ hstart hrun => (hrun.inv hstart.inv).limited⟩

/-- One request a minute. -/
def sampleLimiter : Limiter := .ingest { ingestRateLimitPerMinute := 1 } id

/-- The first request of a minute is accepted, the second one is refused. -/
theorem rateLimits_hold_sample : ∃ s : State sampleLimiter, Limited s ∧
    s.requests.map Request.answer = [some (.ok ()), some (.error rateLimitExceeded)] := by
  have hstart : Start (⟨.empty 0, []⟩ : State sampleLimiter) := start_empty 0
  obtain ⟨s₁, hfirst, hrequests₁, hclock₁⟩ := hstart.inv.counted "key" (by decide)
  have hcounted : s₁.requests = [⟨"key", 0, some (.call
      (.expire (sampleLimiter.key "key" 0) sampleLimiter.windowSeconds) (afterExpire 1 1))⟩] :=
    hrequests₁
  obtain ⟨s₂, hexpire, hrequests₂, hclock₂⟩ : ∃ s₂, Step sampleLimiter s₁ s₂ ∧
      s₂.requests = [⟨"key", 0, some (.ret ())⟩] ∧ s₂.redis.clock = 0 := by
    refine ⟨_, .go s₁ 0 (by rw [hcounted]; rfl) rfl rfl, ?_, ?_⟩
    · rw [hcounted]
      rfl
    · exact (Redis.exec_clock _ _).trans hclock₁
  have hrun := (Relation.ReflTransGen.single hfirst).tail hexpire
  have hcount : s₂.count (sampleLimiter.key "key" 0) = 1 := by
    rw [State.count, State.keys, hrequests₂]
    exact List.count_singleton_self
  have hepoch : sampleLimiter.epoch s₂.redis.clock = 0 := by rw [hclock₂]; rfl
  obtain ⟨s₃, hsecond, hrequests₃, -⟩ := (Runs.inv hrun hstart.inv).counted "key"
    (by rw [hepoch, hcount]; decide)
  rw [hepoch, hcount, hrequests₂] at hrequests₃
  exact ⟨s₃, rateLimits_hold.1 _ _ _ _ hstart (hrun.tail hsecond), by rw [hrequests₃]; rfl⟩

end Rheonic.RateLimits
