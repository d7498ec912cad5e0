import Rheonic.IncidentEpisodes
import Rheonic.Lib.Interleave

namespace Rheonic.IncidentManager
open CommandProgram PyText RowTable IncidentRepository

def Occurrence.find (o : Occurrence) (t : Incidents) : Option (String × Incident) :=
  findOpen t o.projectId o.provider o.fingerprint (o.now - o.windowMs)

section Race

variable (m : Manager)

/-- What is left of `upsert` once it has looked for the incident. -/
def afterFind (o : Occurrence) : Option (String × Incident) → Prog Unit
  | some (id, incident) => do
    let _ ← updateOpenIncidentActivity id (mergedEvidence incident o.evidence) o.now
    pure ()
  | none => do
    createIncident o.newId o.incident
    enqueueDetectionNotifications m o.newId o.incidentType

/-- Two calls in progress on the same incidents. -/
structure Race where
  world : World
  calls : Side → Prog Unit

/-- A repository step of one of the calls, or an incident being resolved. -/
inductive Move
  | step (side : Side)
  | resolve (id : String) (now : ℕ)
  deriving DecidableEq, Repr

def Race.move (s : Race) : Move → Option Race
  | .step side => (Program.advance exec (s.calls side) s.world).map fun e =>
      ⟨e.2, Function.update s.calls side e.1⟩
  | .resolve id now => some { s with world := (exec (.resolveIncident id now) s.world).2 }

def Race.moves (s : Race) (l : List Move) : Option Race := l.foldlM Race.move s

def Race.Ended (s : Race) : Prop := ∀ side, ((s.calls side).outcome).isSome = true

/-- One for a call that has answered. -/
def answered (p : Prog Unit) : ℕ :=
  match p.outcome with
  | some (.ok _) => 1
  | _ => 0

def Race.processed (s : Race) : ℕ := answered (s.calls .left) + answered (s.calls .right)

/-- One active incident of the key at most, and as many occurrences counted as processed. -/
def Deduplicated (κ : Key) (windowMs now processed : ℕ) (w : World) : Prop :=
  (∀ id₁ i₁ id₂ i₂, w.incidents.get id₁ = some i₁ → w.incidents.get id₂ = some i₂ →
    hasKey κ i₁ = true → hasKey κ i₂ = true → Active windowMs now i₁ → Active windowMs now i₂ →
    id₁ = id₂) ∧ countOf κ w.incidents = processed

/-- What a call does next after its find, it would do as well if it looked only now. -/
def Current (o : Occurrence) (p : Prog Unit) (w : World) : Prop :=
  ∀ found, p = afterFind m o found → p = afterFind m o (o.find w.incidents)

/-- Every step of the run that follows a find is current. -/
def RunCurrent (o : Side → Occurrence) : Race → List Move → Prop
  | _, [] => True
  | s, move :: l =>
    (∀ side, move = .step side → Current m (o side) (s.calls side) s.world) ∧
      ∀ s', s.move move = some s' → RunCurrent o s' l

inductive Standing
  | ready
  | found (incident : Option (String × Incident))
  | telling
  | ended
  | failed

def Standing.program (o : Occurrence) : Standing → Prog Unit
  | .ready => upsert m o
  | .found incident => afterFind m o incident
  | .telling => enqueueDetectionNotifications m o.newId o.incidentType
  | .ended => pure ()
  | .failed => Program.raise .integrity

/-- Whether the occurrence has been written. -/
def Standing.written : Standing → Bool
  | .telling => true
  | .ended => true
  | _ => false

def OpenOf (κ : Key) (t : Incidents) (id : String) (i : Incident) : Prop :=
  t.get id = some i ∧ hasKey κ i = true ∧ i.status = .open

section Table

variable {κ : Key} {windowMs t : ℕ} {tbl tbl' : Incidents}

/-- Before either call has written. -/
structure Before (κ : Key) (windowMs t : ℕ) (tbl : Incidents) : Prop where
  seen : ∀ id i, OpenOf κ tbl id i → i.createdAt ≤ i.seenAt ∧ i.seenAt ≤ t
  apart : ∀ id i id' i', OpenOf κ tbl id i → OpenOf κ tbl id' i' → id ≠ id' →
    i.seenAt + windowMs < i'.seenAt ∨ i'.seenAt + windowMs < i.seenAt

/-- Once one of them has written at time `a`; the incident `x` is the one it wrote. -/
structure Between (κ : Key) (windowMs t a : ℕ) (x : String) (tbl : Incidents) : Prop where
  old : ∀ id i, OpenOf κ tbl id i → id ≠ x → i.seenAt ≤ t ∧ i.seenAt + windowMs < a
  apart : ∀ id i id' i', OpenOf κ tbl id i → OpenOf κ tbl id' i' → id ≠ x → id' ≠ x → id ≠ id' →
    i.seenAt + windowMs < i'.seenAt ∨ i'.seenAt + windowMs < i.seenAt
  new : ∀ i, OpenOf κ tbl x i → i.seenAt = a ∧ ∀ id i', OpenOf κ tbl id i' → id ≠ x →
    i'.seenAt + windowMs < t ∨ i'.createdAt < i.createdAt

/-- Of two open incidents one is no longer active at `τ`. -/
def AtMostOne (κ : Key) (windowMs τ : ℕ) (tbl : Incidents) : Prop :=
  ∀ id i id' i', OpenOf κ tbl id i → OpenOf κ tbl id' i' → id ≠ id' →
    i.seenAt + windowMs < τ ∨ i'.seenAt + windowMs < τ

def Closes (κ : Key) (tbl tbl' : Incidents) : Prop :=
  ∀ id i, OpenOf κ tbl' id i → OpenOf κ tbl id i

theorem Before.closes (h : Before κ windowMs t tbl) (hc : Closes κ tbl tbl') :
    Before κ windowMs t tbl' :=
  ⟨fun id i hi => h.seen id i (hc id i hi),
    fun id i id' i' hi hi' => h.apart id i id' i' (hc id i hi) (hc id' i' hi')⟩

theorem Between.closes {a : ℕ} {x : String} (h : Between κ windowMs t a x tbl)
    (hc : Closes κ tbl tbl') : Between κ windowMs t a x tbl' :=
  ⟨fun id i hi => h.old id i (hc id i hi),
    fun id i id' i' hi hi' => h.apart id i id' i' (hc id i hi) (hc id' i' hi'),
    fun i hi => ⟨(h.new i (hc x i hi)).1,
      fun id i' hi' => (h.new i (hc x i hi)).2 id i' (hc id i' hi')⟩⟩

theorem AtMostOne.closes {τ : ℕ} (h : AtMostOne κ windowMs τ tbl) (hc : Closes κ tbl tbl') :
    AtMostOne κ windowMs τ tbl' :=
  fun id i id' i' hi hi' => h id i id' i' (hc id i hi) (hc id' i' hi')

/-- An occurrence at `now` was written to the incident `x`: the one that was created last of
those active, or a new one if none was. -/
structure Wrote (κ : Key) (windowMs now : ℕ) (x : String) (j : Incident)
    (tbl tbl' : Incidents) : Prop where
  rows : ∀ id i, OpenOf κ tbl' id i → (id = x ∧ i = j) ∨ (id ≠ x ∧ OpenOf κ tbl id i)
  seen : j.seenAt = now
  found : (∃ i₀, OpenOf κ tbl x i₀ ∧ now ≤ i₀.seenAt + windowMs ∧ j.createdAt = i₀.createdAt ∧
      ∀ id i, OpenOf κ tbl id i → now ≤ i.seenAt + windowMs → i.createdAt ≤ i₀.createdAt) ∨
    (j.createdAt = now ∧ ∀ id i, OpenOf κ tbl id i → i.seenAt + windowMs < now)

theorem Before.wrote {a : ℕ} {x : String} {j : Incident} (h : Before κ windowMs t tbl)
    (ht : t ≤ a) (hw : Wrote κ windowMs a x j tbl tbl') : Between κ windowMs t a x tbl' := by
  have hold : ∀ id i, OpenOf κ tbl' id i → id ≠ x → OpenOf κ tbl id i := by
    intro id i hi hne
    rcases hw.rows id i hi with ⟨hx, _⟩ | ⟨_, hi⟩
    · exact absurd hx hne
    · exact hi
  -- the others were seen too long ago, or less recently than the one that was found
  have hothers : ∀ id i, OpenOf κ tbl id i → id ≠ x → i.seenAt + windowMs < a ∧
      (i.seenAt + windowMs < t ∨ i.createdAt < j.createdAt) := by
    intro id i hi hne
    have hi' := h.seen id i hi
    rcases hw.found with ⟨i₀, h₀, hin, hcreated, _⟩ | ⟨hcreated, hnone⟩
    · have h₀' := h.seen x i₀ h₀
      rcases h.apart id i x i₀ hi h₀ hne with hlt | hlt <;> omega
    · have hlt := hnone id i hi
      omega
  refine ⟨fun id i hi hne => ?_, fun id i id' i' hi hi' hne hne' => ?_, fun i hi => ?_⟩
  · have hi := hold id i hi hne
    exact ⟨(h.seen id i hi).2, (hothers id i hi hne).1⟩
  · exact h.apart id i id' i' (hold id i hi hne) (hold id' i' hi' hne')
  · rcases hw.rows x i hi with ⟨_, rfl⟩ | ⟨hne, _⟩
    · exact ⟨hw.seen, fun id i' hi' hne => (hothers id i' (hold id i' hi' hne) hne).2⟩
    · exact absurd rfl hne

theorem Between.wrote {a b : ℕ} {x y : String} {j : Incident} (h : Between κ windowMs t a x tbl)
    (hb : t ≤ b) (hw : Wrote κ windowMs b y j tbl tbl') :
    AtMostOne κ windowMs (max a b) tbl' := by
  -- everything but the incident written now is out of date
  have hothers : ∀ id i, OpenOf κ tbl id i → id ≠ y → i.seenAt + windowMs < max a b := by
    intro id i hi hne
    rw [lt_max_iff]
    rcases hw.found with ⟨i₀, h₀, hin, _, hlast⟩ | ⟨_, hnone⟩
    · by_cases hx : id = x
      · subst hx
        obtain ⟨hseen, hnew⟩ := h.new i hi
        have h₀' := h.old y i₀ h₀ hne.symm
        rcases hnew y i₀ h₀ hne.symm with hlt | hlt
        · omega
        · -- it would have been found, being created later
          by_contra hnot
          have hle := hlast id i hi (by omega)
          omega
      · exact .inl (h.old id i hi hx).2
    · exact .inr (hnone id i hi)
  intro id i id' i' hi hi' hne
  rcases hw.rows id i hi with ⟨rfl, rfl⟩ | ⟨hy, hi⟩
  · rcases hw.rows id' i' hi' with ⟨rfl, _⟩ | ⟨hy', hi'⟩
    · exact absurd rfl hne
    · exact .inr (hothers id' i' hi' hy')
  · exact .inl (hothers id i hi hy)

end Table

variable {m} {κ : Key} {windowMs t : ℕ}

/-- Everything the step after a find can do, if the find is current. -/
inductive WriteEffect (m : Manager) (o : Occurrence) (w : World) : Standing → World → Prop
  | seen (id : String) (i : Incident) (hfound : o.find w.incidents = some (id, i)) :
      WriteEffect m o w .ended { w with
        incidents := w.incidents.update id fun i' => i'.seen (mergedEvidence i o.evidence) o.now }
  | opened (tbl : Incidents) (hnone : o.find w.incidents = none)
      (hins : w.incidents.insert o.newId o.incident = some tbl) :
      WriteEffect m o w .telling { w with incidents := tbl }
  | taken : WriteEffect m o w .failed w

theorem write_effect {o : Occurrence} {w : World} {e : Prog Unit × World}
    (h : Program.advance exec (afterFind m o (o.find w.incidents)) w = some e) :
    ∃ standing, e.1 = Standing.program m o standing ∧ WriteEffect m o w standing e.2 := by
  rcases hfound : o.find w.incidents with _ | ⟨id, i⟩
  · rw [hfound] at h
    obtain rfl := Option.some.inj h
    rcases hins : w.incidents.insert o.newId o.incident with _ | tbl
    · have hexec : exec (.createIncident o.newId o.incident) w = (.error .integrity, w) := by
        simp only [exec, hins]
      refine ⟨.failed, ?_, ?_⟩
      · simp only [hexec]
        rfl
      · rw [hexec]
        exact .taken
    · have hexec : exec (.createIncident o.newId o.incident) w =
          (.ok (), { w with incidents := tbl }) := by
        simp only [exec, hins]
      refine ⟨.telling, ?_, ?_⟩
      · simp only [hexec]
        rfl
      · rw [hexec]
        exact .opened tbl hfound hins
  · rw [hfound] at h
    obtain rfl := Option.some.inj h
    obtain ⟨hi, hm⟩ := findOpen_some hfound
    have hopen := (matchesFingerprint_iff.mp hm).2.2.1
    have hexec : exec (.updateOpenIncidentActivity id (mergedEvidence i o.evidence) o.now) w =
        (.ok (some (i.seen (mergedEvidence i o.evidence) o.now)), { w with
          incidents := w.incidents.update id
            fun i' => i'.seen (mergedEvidence i o.evidence) o.now }) := by
      simp only [exec, hi, hopen, Option.any_some, decide_true, if_true, Table.get_update,
        Option.map_some]
    refine ⟨.ended, ?_, ?_⟩
    · simp only [hexec]
      rfl
    · rw [hexec]
      exact .seen id i hfound

theorem WriteEffect.wrote {o : Occurrence} {w w' : World} {standing : Standing}
    (h : WriteEffect m o w standing w')
    (hpos : ∀ id i, w.incidents.get id = some i → 1 ≤ i.count) (hs : standing.written = true) :
    (∃ x j, Wrote o.key o.windowMs o.now x j w.incidents w'.incidents) ∧
      countOf o.key w'.incidents = countOf o.key w.incidents + 1 ∧
      ∀ id i, w'.incidents.get id = some i → 1 ≤ i.count := by
  cases h with
  -- the latest open incident of the key has one occurrence more
  | seen id i hfound =>
    obtain ⟨hi, hm⟩ := findOpen_some hfound
    obtain ⟨hp, hr, hopen, hf, hin⟩ := matchesFingerprint_iff.mp hm
    have hkey : hasKey o.key i = true := hasKey_iff.mpr ⟨hp, hr, hf⟩
    have ha := again_merged i o.evidence o.now
    have hget : ∀ id', (w.incidents.update id
        fun i' => i'.seen (mergedEvidence i o.evidence) o.now).get id' =
        if id' = id then some (i.seen (mergedEvidence i o.evidence) o.now)
        else w.incidents.get id' := by
      intro id'
      rw [Table.get_update]
      by_cases hid : id' = id
      · subst hid
        simp [hi]
      · simp [hid]
    refine ⟨⟨id, i.seen (mergedEvidence i o.evidence) o.now, ?_, ha.seenAt, .inl ?_⟩, ?_, ?_⟩
    · rintro id' i' ⟨hi', hk', ho'⟩
      rw [hget] at hi'
      by_cases hid : id' = id
      · rw [if_pos hid] at hi'
        exact .inl ⟨hid, (Option.some.inj hi').symm⟩
      · rw [if_neg hid] at hi'
        exact .inr ⟨hid, hi', hk', ho'⟩
    -- `findOpen` takes the one that was created last
    · refine ⟨i, ⟨hi, hkey, hopen⟩, by omega, rfl, fun id' i' hi' hin' => ?_⟩
      obtain ⟨hget', hk', ho'⟩ := hi'
      obtain ⟨hp', hr', hf'⟩ := hasKey_iff.mp hk'
      refine List.le_of_mem_argmax (f := fun e : String × Incident => e.2.createdAt)
        (a := (id', i')) (Table.mem_select.mpr ⟨hget', ?_⟩) hfound
      exact matchesFingerprint_iff.mpr ⟨hp', hr', ho', hf', by omega⟩
    · simp only [countOf]
      refine Table.total_update hi ?_
      have hone := hpos id i hi
      rw [ha.hasKey, if_pos hkey, if_pos hkey, ha.count]
      omega
    · intro id' i' hi'
      rw [hget] at hi'
      by_cases hid : id' = id
      · rw [if_pos hid] at hi'
        obtain rfl := Option.some.inj hi'
        have hone := hpos id i hi
        rw [ha.count]
        omega
      · rw [if_neg hid] at hi'
        exact hpos id' i' hi'
  -- a new incident, where none of the key was active
  | opened tbl hnone hins =>
    have hkey : hasKey o.key o.incident = true := hasKey_iff.mpr ⟨rfl, rfl, rfl⟩
    have hone : o.incident.count = 1 := by simp [Occurrence.incident, Incident.count, intValue]
    refine ⟨⟨o.newId, o.incident, ?_, rfl, .inr ⟨rfl, ?_⟩⟩, ?_, ?_⟩
    · rintro id i ⟨hi, hk, ho⟩
      rw [Table.get_insert hins] at hi
      by_cases hid : id = o.newId
      · rw [if_pos hid] at hi
        exact .inl ⟨hid, (Option.some.inj hi).symm⟩
      · rw [if_neg hid] at hi
        exact .inr ⟨hid, hi, hk, ho⟩
    · rintro id i ⟨hi, hk, ho⟩
      obtain ⟨hp, hr, hf⟩ := hasKey_iff.mp hk
      by_contra hnot
      apply findOpen_none hnone hi
      exact matchesFingerprint_iff.mpr ⟨hp, hr, ho, hf, by omega⟩
    · rw [countOf, Table.total_insert hins, if_pos hkey, hone]
      rfl
    · intro id i hi
      rw [Table.get_insert hins] at hi
      by_cases hid : id = o.newId
      · rw [if_pos hid] at hi
        obtain rfl := Option.some.inj hi
        exact hone.ge
      · rw [if_neg hid] at hi
        exact hpos id i hi
  | taken => simp [Standing.written] at hs

/-- One for an occurrence that has been written. -/
def Standing.weight (s : Standing) : ℕ := if s.written then 1 else 0

variable (m κ windowMs t) in
/-- What holds of two calls of one key and window, from incidents that count `base`. -/
structure Progress (o : Side → Occurrence) (base : ℕ) (s : Race) (standing : Side → Standing) :
    Prop where
  calls : ∀ side, s.calls side = (standing side).program m (o side)
  counted : countOf κ s.world.incidents =
    base + (standing .left).weight + (standing .right).weight
  positive : ∀ id i, s.world.incidents.get id = some i → 1 ≤ i.count
  before : (∀ side, (standing side).written = false) → Before κ windowMs t s.world.incidents
  between : ∀ side, (standing side).written = true → (standing side.swap).written = false →
    ∃ x, Between κ windowMs t (o side).now x s.world.incidents
  after : (∀ side, (standing side).written = true) →
    AtMostOne κ windowMs (max (o .left).now (o .right).now) s.world.incidents

variable {o : Side → Occurrence} {base : ℕ} {s s' : Race} {standing : Side → Standing}

/-- A step that writes no occurrence and only closes incidents. -/
theorem Progress.idle (h : Progress m κ windowMs t o base s standing)
    {standing' : Side → Standing} (hcalls : ∀ side, s'.calls side = (standing' side).program m (o side))
    (hsame : ∀ side, (standing' side).written = (standing side).written)
    (hcount : countOf κ s'.world.incidents = countOf κ s.world.incidents)
    (hpos : ∀ id i, s'.world.incidents.get id = some i → 1 ≤ i.count)
    (hcloses : Closes κ s.world.incidents s'.world.incidents) :
    Progress m κ windowMs t o base s' standing' where
  calls := hcalls
  counted := by
    rw [hcount, h.counted]
    simp only [Standing.weight, hsame]
  positive := hpos
  before := fun hw => (h.before fun side => hsame side ▸ hw side).closes hcloses
  between := fun side hw hw' => by
    obtain ⟨x, hx⟩ := h.between side (hsame side ▸ hw) (hsame side.swap ▸ hw')
    exact ⟨x, hx.closes hcloses⟩
  after := fun hw => (h.after fun side => hsame side ▸ hw side).closes hcloses

theorem Progress.writes (h : Progress m κ windowMs t o base s standing) {side : Side}
    {next : Standing} (hkey : (o side).key = κ) (hwindow : (o side).windowMs = windowMs)
    (hlate : t ≤ (o side).now) (hnot : (standing side).written = false)
    (hcalls : ∀ r, s'.calls r = ((Function.update standing side next) r).program m (o r))
    (heffect : WriteEffect m (o side) s.world next s'.world) :
    Progress m κ windowMs t o base s' (Function.update standing side next) := by
  by_cases hw : next.written = true
  · obtain ⟨⟨x, j, hwrote⟩, hcount, hpos⟩ := heffect.wrote h.positive hw
    rw [hkey] at hwrote hcount
    rw [hwindow] at hwrote
    have hother : ∀ r, r ≠ side → Function.update standing side next r = standing r :=
      fun r hr => Function.update_of_ne hr _ _
    have hswap : side.swap ≠ side := by cases side <;> decide
    refine ⟨hcalls, ?_, hpos, fun hnone => ?_, fun r hr hr' => ?_, fun hall => ?_⟩
    -- the counts grow with the weight of the call
    · have hone : next.weight = 1 := by simp [Standing.weight, hw]
      have hzero : (standing side).weight = 0 := by simp [Standing.weight, hnot]
      rw [hcount, h.counted]
      cases side
      · rw [Function.update_self, hother .right (by decide), hone, hzero]
        omega
      · rw [Function.update_self, hother .left (by decide), hone, hzero]
    · have hfalse := hnone side
      rw [Function.update_self, hw] at hfalse
      cases hfalse
    · -- the other call has not written yet
      have hr_eq : r = side := by
        by_contra hne
        have hself : r.swap = side := by cases r <;> cases side <;> simp_all [Side.swap]
        rw [hself, Function.update_self, hw] at hr'
        cases hr'
      subst hr_eq
      rw [hother _ hswap] at hr'
      refine ⟨x, (h.before fun side => ?_).wrote hlate hwrote⟩
      by_cases hs : side = r
      · rw [hs]
        exact hnot
      · have hself : side = r.swap := by cases r <;> cases side <;> simp_all [Side.swap]
        rw [hself]
        exact hr'
    -- the second call writes after the first
    · have hsecond := hall side.swap
      rw [hother _ hswap] at hsecond
      have hback : side.swap.swap = side := by cases side <;> rfl
      obtain ⟨y, hy⟩ := h.between side.swap hsecond (by rw [hback]; exact hnot)
      have hfinal := hy.wrote hlate hwrote
      cases side
      · rw [max_comm] at hfinal
        exact hfinal
      · exact hfinal
  -- the id was taken, and nothing has been written
  · have hfailed : s'.world = s.world := by
      generalize s'.world = w' at heffect ⊢
      cases heffect with
      | seen => simp [Standing.written] at hw
      | opened => simp [Standing.written] at hw
      | taken => rfl
    refine h.idle hcalls (fun r => ?_) (by rw [hfailed]) (by rw [hfailed]; exact h.positive)
      fun id i hi => hfailed ▸ hi
    by_cases hr : r = side
    · subst hr
      rw [Function.update_self, hnot]
      simpa using hw
    · rw [Function.update_of_ne hr]

theorem calls_update {next : Standing} {p : Prog Unit}
    (h : ∀ r, s.calls r = (standing r).program m (o r)) {side : Side}
    (hp : p = next.program m (o side)) (r : Side) :
    Function.update s.calls side p r = (Function.update standing side next r).program m (o r) := by
  by_cases hr : r = side
  · subst hr
    rw [Function.update_self, Function.update_self, hp]
  · rw [Function.update_of_ne hr, Function.update_of_ne hr, h r]

theorem Progress.move (h : Progress m κ windowMs t o base s standing)
    (hkey : ∀ side, (o side).key = κ) (hwindow : ∀ side, (o side).windowMs = windowMs)
    (hlate : ∀ side, t ≤ (o side).now) {move : Move} (hmove : s.move move = some s')
    (hcurrent : ∀ side, move = .step side → Current m (o side) (s.calls side) s.world) :
    ∃ standing', Progress m κ windowMs t o base s' standing' := by
  cases move with
  -- a manual resolve leaves counts and keys, and opens nothing
  | resolve id now =>
    obtain rfl := Option.some.inj hmove
    have hget : ∀ id', (s.world.incidents.update id fun i => i.closed .resolved now).get id' =
        (s.world.incidents.get id').map fun i =>
          if id' = id then i.closed .resolved now else i := by
      intro id'
      rw [Table.get_update]
      by_cases hid : id' = id <;> simp [hid]
    refine ⟨standing, h.idle h.calls (fun _ => rfl) ?_ ?_ ?_⟩
    · simp only [countOf, exec, Table.update]
      exact Table.total_updateWhere fun _ _ _ => rfl
    · intro id' i' hi'
      simp only [exec, hget] at hi'
      obtain ⟨i, hi, rfl⟩ := Option.map_eq_some_iff.mp hi'
      by_cases hid : id' = id
      · rw [if_pos hid]
        exact h.positive id' i hi
      · rw [if_neg hid]
        exact h.positive id' i hi
    · rintro id' i' ⟨hi', hk, ho⟩
      simp only [exec, hget] at hi'
      obtain ⟨i, hi, rfl⟩ := Option.map_eq_some_iff.mp hi'
      by_cases hid : id' = id
      · rw [if_pos hid] at ho
        cases ho
      · rw [if_neg hid] at hk ho ⊢
        exact ⟨hi, hk, ho⟩
  | step side =>
    obtain ⟨⟨p, w⟩, hadvance, rfl⟩ := Option.map_eq_some_iff.mp hmove
    have hcalls := h.calls side
    rcases hs : standing side with _ | found | _ | _ | _
    · -- it looks for the incident
      rw [hs] at hcalls
      rw [hcalls] at hadvance
      obtain ⟨rfl, rfl⟩ := Prod.mk.inj (Option.some.inj hadvance)
      refine ⟨Function.update standing side (.found ((o side).find s.world.incidents)),
        h.idle (calls_update h.calls rfl) (fun r => ?_) rfl h.positive fun _ _ hi => hi⟩
      by_cases hr : r = side
      · subst hr
        rw [Function.update_self, hs]
        rfl
      · rw [Function.update_of_ne hr]
    -- it writes to the incident it has found, which is still the one to be found
    · rw [hs] at hcalls
      have hnow := hcurrent side rfl found hcalls
      rw [hnow] at hadvance
      obtain ⟨next, hp, heffect⟩ := write_effect hadvance
      have hnot : (standing side).written = false := by
        rw [hs]
        rfl
      exact ⟨_, h.writes (hkey side) (hwindow side) (hlate side) hnot (calls_update h.calls hp)
        heffect⟩
    · -- the notification changes no incident
      rw [hs] at hcalls
      rw [hcalls] at hadvance
      rcases htype : (o side).incidentType with detector | _
      · simp only [Standing.program, enqueueDetectionNotifications, htype] at hadvance
        obtain ⟨rfl, rfl⟩ := Prod.mk.inj (Option.some.inj hadvance)
        refine ⟨Function.update standing side .ended,
          h.idle (calls_update h.calls rfl) (fun r => ?_) rfl h.positive fun _ _ hi => hi⟩
        by_cases hr : r = side
        · subst hr
          rw [Function.update_self, hs]
          rfl
        · rw [Function.update_of_ne hr]
      · simp only [Standing.program, enqueueDetectionNotifications, htype] at hadvance
        cases hadvance
    -- a call that has ended, or failed, makes no step
    · rw [hs] at hcalls
      rw [hcalls] at hadvance
      cases hadvance
    · rw [hs] at hcalls
      rw [hcalls] at hadvance
      cases hadvance

theorem Progress.moves (h : Progress m κ windowMs t o base s standing)
    (hkey : ∀ side, (o side).key = κ) (hwindow : ∀ side, (o side).windowMs = windowMs)
    (hlate : ∀ side, t ≤ (o side).now) {l : List Move} (hrun : s.moves l = some s')
    (hcurrent : RunCurrent m o s l) :
    ∃ standing', Progress m κ windowMs t o base s' standing' := by
  induction l generalizing s standing with
  | nil =>
    obtain rfl := Option.some.inj hrun
    exact ⟨standing, h⟩
  | cons move l ih =>
    obtain ⟨s₁, hmove, hrest⟩ := Option.bind_eq_some_iff.mp hrun
    obtain ⟨standing₁, h₁⟩ := h.move hkey hwindow hlate hmove hcurrent.1
    exact ih h₁ hrest (hcurrent.2 s₁ hmove)

theorem weight_of_ended {o : Occurrence} {standing : Standing}
    (h : ((standing.program m o).outcome).isSome = true) :
    standing.weight = answered (standing.program m o) := by
  cases standing with
  | ready => cases h
  | found incident =>
    cases incident with
    | none => cases h
    | some e => cases h
  | telling =>
    rcases htype : o.incidentType with detector | _ <;>
      simp only [Standing.program, enqueueDetectionNotifications, htype] at h ⊢
    · cases h
    · rfl
  | ended => rfl
  | failed => rfl

theorem current_ready (o : Occurrence) (w : World) : Current m o (upsert m o) w := by
  intro found h
  cases found <;> injection h with hc <;> cases hc

theorem current_notify (o : Occurrence) (n : Notification) (w : World) :
    Current m o (notify n) w := by
  intro found h
  cases found <;> injection h with hc <;> cases hc

theorem runCurrent_cons {side : Side} {l : List Move}
    (h : Current m (o side) (s.calls side) s.world)
    (hl : ∀ s', s.move (.step side) = some s' → RunCurrent m o s' l) :
    RunCurrent m o s (.step side :: l) :=
  ⟨fun side' h' => by obtain rfl := Move.step.inj h'; exact h, hl⟩

theorem runCurrent_call {side : Side} {l : List Move} (h : s.calls side = upsert m (o side))
    (hl : ∀ s', s.moves [.step side, .step side] = some s' → RunCurrent m o s' l) :
    RunCurrent m o s (.step side :: .step side :: l) := by
  refine runCurrent_cons (h ▸ current_ready _ _) fun s₁ h₁ => runCurrent_cons ?_ fun s₂ h₂ => ?_
  · -- the find leaves the world as it is
    obtain ⟨⟨p, w⟩, hadvance, rfl⟩ := Option.map_eq_some_iff.mp h₁
    rw [h] at hadvance
    obtain ⟨rfl, rfl⟩ := Prod.mk.inj (Option.some.inj hadvance)
    intro found _
    simp only [Function.update_self]
    rfl
  · apply hl
    simp only [Race.moves, List.foldlM_cons, List.foldlM_nil, h₁, Option.bind_eq_bind,
      Option.bind_some, h₂, Option.pure_def]

variable (m) in
def Race.start (w : World) (call : Side → Operation) : Race := ⟨w, fun side => (call side).program m⟩

/-- Two calls for one key, in any order of their steps and with incidents resolved in between,
after any run: if what each does after its find is current, then at most one incident of the key
is active afterwards, and its incidents count what has been processed. -/
theorem upserts_deduplicated (m : Manager) (window : Key → ℕ) (ops : List Operation)
    (hwindow : ∀ op ∈ ops, UsesWindow m window op)
    (htimes : ops.Pairwise fun op op' => op.now ≤ op'.now) (κ : Key) (call : Side → Operation)
    (o : Side → Occurrence) (ho : ∀ side, (call side).occurrence m = some (o side))
    (hκ : ∀ side, (o side).key = κ) (huses : ∀ side, UsesWindow m window (call side))
    (hlate : ∀ side, ∀ op ∈ ops, op.now ≤ (call side).now) (l : List Move) (s' : Race)
    (hrun : (Race.start m (runOperations m ops).world call).moves l = some s')
    (hended : s'.Ended)
    (hcurrent : RunCurrent m o (Race.start m (runOperations m ops).world call) l) (τ : ℕ)
    (hτ : ∀ side, (call side).now ≤ τ) :
    Deduplicated κ (window κ) τ ((runOperations m ops).processed.count κ +
      mergedInto κ (runOperations m ops).world.incidents (runOperations m ops).merged +
        s'.processed) s'.world := by
  obtain ⟨t, ht, hh, _⟩ := runOperations_episodes hwindow htimes
  have hnow : ∀ side, (o side).now = (call side).now := fun side => occurrence_now (ho side)
  have hW : ∀ side, (o side).windowMs = window κ := by
    intro side
    rw [← huses side (o side) (ho side), hκ side]
  have hle : ∀ side, t ≤ (o side).now := fun side => hnow side ▸ ht _ (hlate side)
  -- before the race the incidents of the key are apart
  have hstart : Progress m κ (window κ) t o (countOf κ (runOperations m ops).world.incidents)
      (Race.start m (runOperations m ops).world call) fun _ => .ready := by
    refine ⟨fun side => (occurrence_spec (ho side)).1, rfl, fun id i hi => (hh.seen id i hi).2.1,
      fun _ => ⟨fun id i hi => ⟨hh.created id i hi.1, (hh.seen id i hi.1).1⟩, ?_⟩, ?_, ?_⟩
    · intro id i id' i' hi hi' hne
      exact hh.apart κ id i id' i' hi.1 hi'.1 hne hi.2.1 hi'.2.1 hi.2.2 hi'.2.2
    · intro side hwritten
      cases hwritten
    · intro hwritten
      cases hwritten .left
  obtain ⟨standing, h⟩ := hstart.moves hκ hW hle hrun hcurrent
  -- at its end each call has counted, or has raised
  have hweight : ∀ side, (standing side).weight = answered (s'.calls side) := by
    intro side
    rw [h.calls side]
    exact weight_of_ended (h.calls side ▸ hended side)
  refine ⟨?_, ?_⟩
  · intro id₁ i₁ id₂ i₂ h₁ h₂ hk₁ hk₂ ha₁ ha₂
    by_contra hne
    have hleft := hτ .left
    have hright := hτ .right
    rw [← hnow] at hleft hright
    have hmost : AtMostOne κ (window κ) τ s'.world.incidents := by
      intro id i id' i' hi hi' hdiff
      -- which of the calls have written decides what is known of the incidents
      by_cases hl : (standing .left).written = true
      · by_cases hr : (standing .right).written = true
        · have hlt := h.after (fun side => by cases side <;> assumption) id i id' i' hi hi' hdiff
          omega
        · obtain ⟨x, hx⟩ := h.between .left hl (Bool.eq_false_iff.mpr hr)
          by_cases hid : id = x
          · have hlt := hx.old id' i' hi' fun h' => hdiff (hid.trans h'.symm)
            omega
          · have hlt := hx.old id i hi hid
            omega
      · by_cases hr : (standing .right).written = true
        · obtain ⟨x, hx⟩ := h.between .right hr (Bool.eq_false_iff.mpr hl)
          by_cases hid : id = x
          · have hlt := hx.old id' i' hi' fun h' => hdiff (hid.trans h'.symm)
            omega
          · have hlt := hx.old id i hi hid
            omega
        · have hbefore := h.before fun side => by
            cases side
            · simpa using hl
            · simpa using hr
          have hseen := hbefore.seen id i hi
          have hseen' := hbefore.seen id' i' hi'
          have htl := hle .left
          rcases hbefore.apart id i id' i' hi hi' hdiff with hlt | hlt <;> omega
    have hlt := hmost id₁ i₁ id₂ i₂ ⟨h₁, hk₁, ha₁.1⟩ ⟨h₂, hk₂, ha₂.1⟩ hne
    have hin₁ := ha₁.2
    have hin₂ := ha₂.2
    omega
  · rw [h.counted, hh.counted κ, hweight, hweight, Race.processed]
    omega

end Race

/-- Two signals of a loop that come in at the same time. -/
def concurrentSignals (side : Side) : Operation :=
  .signal {
    projectId := "p", provider := "openai", now := 10
    newId := if side = .left then "a" else "b"
    signal := ⟨.loopSuspect, "p:openai:loop_suspect:x", [], none⟩ }

/-- The second call looks for the incident after the first has written. -/
def oneByOne : List Move :=
  [.step .left, .step .left, .step .left, .step .right, .step .right]

def concurrentOccurrence (side : Side) : Occurrence :=
  ((concurrentSignals side).occurrence {}).get (by cases side <;> rfl)

theorem upserts_deduplicated_sample : ∃ s',
    (Race.start {} (runOperations {} []).world concurrentSignals).moves oneByOne = some s' ∧
      Deduplicated ⟨"p", "openai", "p:openai:loop_suspect:x"⟩ 300000 10 2 s'.world := by
  let start := Race.start {} (runOperations {} []).world concurrentSignals
  obtain ⟨s', hs'⟩ : ∃ s', start.moves oneByOne = some s' := by
    apply Option.isSome_iff_exists.mp
    decide
  have hended : s'.Ended := by
    have hall : (start.moves oneByOne).all (fun s =>
      ((s.calls .left).outcome).isSome && ((s.calls .right).outcome).isSome) = true := by decide
    rw [hs', Option.all_some, Bool.and_eq_true] at hall
    intro side
    cases side
    · exact hall.1
    · exact hall.2
  have hprocessed : s'.processed = 2 := by
    have hmap : (start.moves oneByOne).map Race.processed = some 2 := by decide
    rw [hs'] at hmap
    exact Option.some.inj hmap
  have hcurrent : RunCurrent {} concurrentOccurrence start oneByOne := by
    refine runCurrent_call rfl fun s₁ h₁ => runCurrent_cons ?_ fun s₂ h₂ => ?_
    · obtain rfl := Option.some.inj h₁
      exact current_notify _ _ _
    · obtain rfl := Option.some.inj h₁
      obtain rfl := Option.some.inj h₂
      exact runCurrent_call rfl fun _ _ => trivial
  have h := upserts_deduplicated {} (fun _ => 300000) [] (by simp) .nil
    ⟨"p", "openai", "p:openai:loop_suspect:x"⟩ concurrentSignals concurrentOccurrence
    (fun side => by cases side <;> rfl) (fun side => by cases side <;> rfl)
    (fun side o ho => by cases side <;> obtain rfl := Option.some.inj ho <;> rfl)
    (by simp) oneByOne s' hs' hended hcurrent 10 (fun side => by cases side <;> exact le_rfl)
  rw [hprocessed] at h
  exact ⟨s', hs', h⟩

/-- Both calls look for the incident before either opens one. -/
def bothLookFirst : List Move :=
  [.step .left, .step .right, .step .left, .step .right, .step .left, .step .right]

theorem upserts_duplicated : ∃ s',
    (Race.start {} (runOperations {} []).world concurrentSignals).moves bothLookFirst = some s' ∧
      s'.processed = 2 ∧
      ¬ Deduplicated ⟨"p", "openai", "p:openai:loop_suspect:x"⟩ 300000 10 2 s'.world := by
  let start := Race.start {} (runOperations {} []).world concurrentSignals
  obtain ⟨s', hs'⟩ : ∃ s', start.moves bothLookFirst = some s' := by
    apply Option.isSome_iff_exists.mp
    decide
  have hall : (start.moves bothLookFirst).all (fun s => decide (s.processed = 2) &&
      ["a", "b"].all fun id => (s.world.incidents.get id).any fun i =>
        hasKey ⟨"p", "openai", "p:openai:loop_suspect:x"⟩ i &&
          decide (i.status = .open ∧ 10 - 300000 ≤ i.seenAt)) = true := by decide
  rw [hs'] at hall
  simp only [Option.all_some, List.all_cons, List.all_nil, Bool.and_true, Bool.and_eq_true,
    decide_eq_true_eq, Option.any_eq_true] at hall
  obtain ⟨hprocessed, ⟨i, hi, hk, ha⟩, i', hi', hk', ha'⟩ := hall
  refine ⟨s', hs', hprocessed, fun h => ?_⟩
  have heq := h.1 "a" i "b" i' hi hi' hk hk' ha ha'
  exact absurd heq (by decide)

end Rheonic.IncidentManager
