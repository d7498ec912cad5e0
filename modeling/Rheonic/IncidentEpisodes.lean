import Rheonic.IncidentServices

namespace Rheonic.IncidentManager
open CommandProgram PyText RowTable IncidentRepository

/-- What the incidents of one problem have in common. -/
structure Key where
  projectId : String
  provider : String
  fingerprint : String
  deriving DecidableEq, Repr

def Occurrence.key (o : Occurrence) : Key := ⟨o.projectId, o.provider, o.fingerprint⟩

def hasKey (κ : Key) (i : Incident) : Bool :=
  i.projectId = κ.projectId ∧ i.provider = κ.provider ∧ i.fingerprint = some κ.fingerprint

/-- Open, and seen within the window before a time. -/
def Active (windowMs now : ℕ) (i : Incident) : Prop :=
  i.status = .open ∧ now - windowMs ≤ i.seenAt

/-- The world with a record of its run: the keys of the occurrences processed, and which blocks
(by their place in the run) were merged into which incidents. -/
structure History where
  world : World
  processed : List Key
  merged : List (ℕ × String)
  length : ℕ

section Run

variable (m : Manager)

/-- The incident that a block which is only merged goes into. -/
def mergeTarget (w : World) (op : Operation) : Option String :=
  op.mergeOnly.bind fun r => (activeBlock (r.now - blockWindowMs m)
    (listOpen w.incidents r.projectId r.provider)).map Prod.fst

/-- What the operation has processed, if it has answered. -/
def processedKey (w : World) (op : Operation) : Option Key :=
  match (Program.run exec (op.program m) w).1 with
  | .ok () => (op.occurrence m).map Occurrence.key
  | .error _ => none

def History.handle (h : History) (op : Operation) : History where
  world := (Program.run exec (op.program m) h.world).2
  processed := (processedKey m h.world op).toList ++ h.processed
  merged := ((mergeTarget m h.world op).map fun id => (h.length, id)).toList ++ h.merged
  length := h.length + 1

def runOperations (ops : List Operation) : History :=
  ops.foldl (History.handle m) ⟨⟨Table.empty, []⟩, [], [], 0⟩

/-- The counts of the incidents of a key, summed. -/
def countOf (κ : Key) (t : Incidents) : ℕ :=
  t.total fun _ i => if hasKey κ i then i.count.toNat else 0

/-- How many blocks were merged into incidents of a key. -/
def mergedInto (κ : Key) (t : Incidents) (merged : List (ℕ × String)) : ℕ :=
  merged.countP fun e => (t.get e.2).any (hasKey κ)

def warnings (w : World) (id : String) : ℕ :=
  w.notifications.countP fun n => n.event = .warn ∧ n.incidentId = id

/-- What holds of the incidents by the time `t`, with a window for each key. -/
structure Episodes (window : Key → ℕ) (t : ℕ) (h : History) : Prop where
  created : ∀ id i, h.world.incidents.get id = some i → i.createdAt ≤ i.seenAt
  seen : ∀ id i, h.world.incidents.get id = some i → i.seenAt ≤ t ∧ 1 ≤ i.count ∧
    ∀ κ, hasKey κ i = true → i.incidentType = .block → window κ = blockWindowMs m
  apart : ∀ κ id₁ i₁ id₂ i₂, h.world.incidents.get id₁ = some i₁ →
    h.world.incidents.get id₂ = some i₂ → id₁ ≠ id₂ → hasKey κ i₁ = true → hasKey κ i₂ = true →
    i₁.status = .open → i₂.status = .open →
    i₁.seenAt + window κ < i₂.seenAt ∨ i₂.seenAt + window κ < i₁.seenAt
  counted : ∀ κ, countOf κ h.world.incidents =
    h.processed.count κ + mergedInto κ h.world.incidents h.merged
  known : ∀ e ∈ h.merged, e.1 < h.length ∧ ∃ i, h.world.incidents.get e.2 = some i
  once : (h.merged.map Prod.fst).Nodup
  warned : ∀ id, warnings h.world id = match h.world.incidents.get id with
    | some i => if i.incidentType = .block then 0 else 1
    | none => 0

variable {m} {window : Key → ℕ} {t t' : ℕ} {h : History}

theorem hasKey_iff {κ : Key} {i : Incident} : hasKey κ i = true ↔
    i.projectId = κ.projectId ∧ i.provider = κ.provider ∧ i.fingerprint = some κ.fingerprint := by
  simp [hasKey]

theorem hasKey_unique {κ κ' : Key} {i : Incident} (h : hasKey κ i = true)
    (h' : hasKey κ' i = true) : κ = κ' := by
  rw [hasKey_iff] at h h'
  obtain ⟨p, r, f⟩ := κ
  obtain ⟨p', r', f'⟩ := κ'
  simp_all

theorem Again.hasKey {now : ℕ} {i i' : Incident} (h : Again now i i') (κ : Key) :
    hasKey κ i' = hasKey κ i := by
  simp [IncidentManager.hasKey, h.projectId, h.provider, h.fingerprint]

theorem Again.seenAt {now : ℕ} {i i' : Incident} (h : Again now i i') : i'.seenAt = now := by
  simp [Incident.seenAt, h.lastSeenAt]

def KeepsKeys (t t' : Incidents) : Prop :=
  ∀ id i, t.get id = some i → ∃ i', t'.get id = some i' ∧ ∀ κ, hasKey κ i' = hasKey κ i

theorem mergedInto_congr {κ : Key} {t t' : Incidents} {merged : List (ℕ × String)}
    (hk : KeepsKeys t t') (hknown : ∀ e ∈ merged, ∃ i, t.get e.2 = some i) :
    mergedInto κ t' merged = mergedInto κ t merged := by
  unfold mergedInto
  apply List.countP_congr
  intro e he
  obtain ⟨i, hi⟩ := hknown e he
  obtain ⟨i', hi', hkey⟩ := hk e.2 i hi
  simp [hi, hi', hkey κ]

theorem Episodes.mono (hh : Episodes m window t h) (ht : t ≤ t') : Episodes m window t' h :=
  { hh with seen := fun id i hi => ⟨(hh.seen id i hi).1.trans ht, (hh.seen id i hi).2⟩ }

theorem Episodes.longer (hh : Episodes m window t h) {n : ℕ} (hn : h.length ≤ n) :
    Episodes m window t { h with length := n } :=
  { hh with known := fun e he => ⟨(hh.known e he).1.trans_le hn, (hh.known e he).2⟩ }

theorem Episodes.close (hh : Episodes m window t h) (p : String → Incident → Bool)
    {status : Status} (hs : status ≠ .open) (now : ℕ) {w : World}
    (hw : w.incidents = h.world.incidents.updateWhere p fun i => i.closed status now)
    (hn : ∀ id, warnings w id = warnings h.world id) :
    Episodes m window t { h with world := w } := by
  have hget : ∀ id, w.incidents.get id = (h.world.incidents.get id).map fun i =>
      if p id i then i.closed status now else i := by
    intro id
    rw [hw, Table.get_updateWhere]
  -- closing changes the status only
  have hold : ∀ {id i'}, w.incidents.get id = some i' → ∃ i, h.world.incidents.get id = some i ∧
      i'.seenAt = i.seenAt ∧ i'.count = i.count ∧ i'.incidentType = i.incidentType ∧
      i'.createdAt = i.createdAt ∧ (∀ κ, hasKey κ i' = hasKey κ i) ∧ (i'.status = .open → i.status = .open) := by
    intro id i' hi'
    rw [hget] at hi'
    obtain ⟨i, hi, rfl⟩ := Option.map_eq_some_iff.mp hi'
    refine ⟨i, hi, ?_⟩
    by_cases hp : p id i = true
    · rw [if_pos hp]
      exact ⟨rfl, rfl, rfl, rfl, fun _ => rfl, fun ho => absurd ho hs⟩
    · rw [if_neg hp]
      exact ⟨rfl, rfl, rfl, rfl, fun _ => rfl, fun ho => ho⟩
  have hkeeps : KeepsKeys h.world.incidents w.incidents := by
    intro id i hi
    refine ⟨if p id i then i.closed status now else i, by rw [hget, hi, Option.map_some], ?_⟩
    intro κ
    by_cases hp : p id i = true <;> simp [hp, hasKey, Incident.closed]
  refine ⟨fun id i' hi' => ?_, fun id i' hi' => ?_,
    fun κ id₁ i₁ id₂ i₂ h₁ h₂ hne hk₁ hk₂ ho₁ ho₂ => ?_, fun κ => ?_,
    fun e he => ⟨(hh.known e he).1, ?_⟩, hh.once, fun id => ?_⟩
  · obtain ⟨i, hi, hseen, _, _, hcreated, _⟩ := hold hi'
    rw [hseen, hcreated]
    exact hh.created id i hi
  · obtain ⟨i, hi, hseen, hcount, htype, _, hkey, _⟩ := hold hi'
    have := hh.seen id i hi
    rw [hseen, hcount]
    exact ⟨this.1, this.2.1, fun κ hκ hb => this.2.2 κ (hkey κ ▸ hκ) (htype ▸ hb)⟩
  · obtain ⟨j₁, hj₁, hs₁, _, _, _, hkey₁, hopen₁⟩ := hold h₁
    obtain ⟨j₂, hj₂, hs₂, _, _, _, hkey₂, hopen₂⟩ := hold h₂
    rw [hs₁, hs₂]
    exact hh.apart κ id₁ j₁ id₂ j₂ hj₁ hj₂ hne (hkey₁ κ ▸ hk₁) (hkey₂ κ ▸ hk₂) (hopen₁ ho₁)
      (hopen₂ ho₂)
  -- the counts are left as they are
  · have htotal : countOf κ w.incidents = countOf κ h.world.incidents := by
      rw [countOf, hw]
      apply Table.total_updateWhere
      intro id i _
      rfl
    rw [htotal, hh.counted κ, mergedInto_congr hkeeps fun e he => (hh.known e he).2]
  · obtain ⟨i, hi⟩ := (hh.known e he).2
    obtain ⟨i', hi', _⟩ := hkeeps e.2 i hi
    exact ⟨i', hi'⟩
  · rw [hn, hh.warned]
    rcases hi' : w.incidents.get id with _ | i'
    · rw [hget, Option.map_eq_none_iff] at hi'
      simp [hi']
    · obtain ⟨i, hi, _, _, htype, _⟩ := hold hi'
      simp [hi, htype]

theorem exec_closing (hh : Episodes m window t h) {c : Command} (hc : ClosingCommand c) :
    Episodes m window t { h with world := (exec c h.world).2 } := by
  cases c with
  | createIncident => exact hc.elim
  | updateOpenIncidentActivity => exact hc.elim
  | getOpenIncidentByFingerprint => exact hh
  | listOpenByProjectProvider => exact hh
  | resolveIncident id now =>
    exact hh.close (fun id' _ => id' = id) (by decide : Status.resolved ≠ .open) now rfl
      fun _ => rfl
  | autoResolveStaleOpenIncidents cutoff resolvedAt =>
    exact hh.close (fun _ i => stale cutoff i) (by decide : Status.autoResolved ≠ .open)
      resolvedAt rfl fun _ => rfl
  | notify n =>
    have hn : n.event = .resolved := hc
    have hsame : ∀ id, warnings (exec (.notify n) h.world).2 id = warnings h.world id := by
      intro id
      simp [warnings, exec, hn]
    refine ⟨hh.created, hh.seen, hh.apart, hh.counted, hh.known, hh.once, fun id => ?_⟩
    rw [hsame]
    exact hh.warned id

/-- One more occurrence for an active incident; the record grows by it in one place. -/
theorem Episodes.again {now : ℕ} {id : String} {i i' : Incident} {f : Incident → Incident}
    {h' : History} (hh : Episodes m window t h) (ht : t ≤ now)
    (hi : h.world.incidents.get id = some i)
    (hactive : ∀ κ, hasKey κ i = true → now - window κ ≤ i.seenAt) (ho : i.status = .open)
    (ha : Again now i i') (hf : f i = i')
    (hw : h'.world.incidents = h.world.incidents.update id f)
    (hn : h'.world.notifications = h.world.notifications)
    (hbalance : ∀ κ, h'.processed.count κ + mergedInto κ h'.world.incidents h'.merged =
      h.processed.count κ + mergedInto κ h'.world.incidents h.merged +
        if hasKey κ i then 1 else 0)
    (hknown : ∀ e ∈ h'.merged, e.1 < h'.length ∧ (e.2 = id ∨ e ∈ h.merged))
    (honce : (h'.merged.map Prod.fst).Nodup) : Episodes m window now h' := by
  have hget : ∀ id', h'.world.incidents.get id' =
      if id' = id then some i' else h.world.incidents.get id' := by
    intro id'
    rw [hw, Table.get_update]
    by_cases hid : id' = id
    · subst hid
      simp [hi, hf]
    · simp [hid]
  have hkeeps : KeepsKeys h.world.incidents h'.world.incidents := by
    intro id' j hj
    rw [hget]
    by_cases hid : id' = id
    · subst hid
      obtain rfl := Option.some.inj (hi.symm.trans hj)
      exact ⟨i', by simp, ha.hasKey⟩
    · exact ⟨j, by simp [hid, hj], fun _ => rfl⟩
  have hi₀ := hh.seen id i hi
  -- a second open incident of the key was seen too long ago
  have hother : ∀ κ id₂ i₂, h.world.incidents.get id₂ = some i₂ → id₂ ≠ id →
      hasKey κ i = true → hasKey κ i₂ = true → i₂.status = .open → i₂.seenAt + window κ < now := by
    intro κ id₂ i₂ h₂ hne hk hk₂ ho₂
    have hle := (hh.seen id₂ i₂ h₂).1
    have hin := hactive κ hk
    rcases hh.apart κ id i id₂ i₂ hi h₂ hne.symm hk hk₂ ho ho₂ with hlt | hlt <;> omega
  refine ⟨fun id' j hj => ?_, fun id' j hj => ?_,
    fun κ id₁ i₁ id₂ i₂ h₁ h₂ hne hk₁ hk₂ ho₁ ho₂ => ?_, fun κ => ?_,
    fun e he => ⟨(hknown e he).1, ?_⟩, honce, fun id' => ?_⟩
  -- the incident is seen now, and later than it was created
  · rw [hget] at hj
    by_cases hid : id' = id
    · rw [if_pos hid] at hj
      obtain rfl := Option.some.inj hj
      rw [ha.seenAt, ha.createdAt]
      exact ((hh.created id i hi).trans hi₀.1).trans ht
    · rw [if_neg hid] at hj
      exact hh.created id' j hj
  -- its type and key are the ones it had
  · rw [hget] at hj
    by_cases hid : id' = id
    · rw [if_pos hid] at hj
      obtain rfl := Option.some.inj hj
      refine ⟨ha.seenAt.le, ?_, fun κ hκ hb => ?_⟩
      · rw [ha.count]
        omega
      · exact hi₀.2.2 κ (ha.hasKey κ ▸ hκ) (ha.incidentType ▸ hb)
    · rw [if_neg hid] at hj
      exact ⟨(hh.seen id' j hj).1.trans ht, (hh.seen id' j hj).2⟩
  -- of two open incidents of its key `hother` tells the other one apart
  · rw [hget] at h₁ h₂
    by_cases hid₁ : id₁ = id
    · have hid₂ : id₂ ≠ id := fun hid₂ => hne (hid₁.trans hid₂.symm)
      rw [if_pos hid₁] at h₁
      rw [if_neg hid₂] at h₂
      obtain rfl := Option.some.inj h₁
      rw [ha.seenAt]
      exact .inr (hother κ id₂ i₂ h₂ hid₂ (ha.hasKey κ ▸ hk₁) hk₂ ho₂)
    · rw [if_neg hid₁] at h₁
      by_cases hid₂ : id₂ = id
      · rw [if_pos hid₂] at h₂
        obtain rfl := Option.some.inj h₂
        rw [ha.seenAt]
        exact .inl (hother κ id₁ i₁ h₁ hid₁ (ha.hasKey κ ▸ hk₂) hk₁ ho₁)
      · rw [if_neg hid₂] at h₂
        exact hh.apart κ id₁ i₁ id₂ i₂ h₁ h₂ hne hk₁ hk₂ ho₁ ho₂
  -- its count grows by the one that `hbalance` adds
  · have hsum : countOf κ h'.world.incidents =
        countOf κ h.world.incidents + if hasKey κ i then 1 else 0 := by
      rw [countOf, hw]
      refine Table.total_update hi ?_
      rw [hf, ha.hasKey κ, ha.count]
      split
      · omega
      · rfl
    rw [hsum, hh.counted κ, hbalance κ,
      mergedInto_congr hkeeps fun e he => (hh.known e he).2]
  -- what has been merged is in it or in what was known before
  · rcases (hknown e he).2 with hid | hold
    · exact ⟨i', by rw [hget, if_pos hid]⟩
    · obtain ⟨j, hj⟩ := (hh.known e hold).2
      obtain ⟨j', hj', _⟩ := hkeeps e.2 j hj
      exact ⟨j', hj'⟩
  -- no warning goes out
  · have hsame : warnings h'.world id' = warnings h.world id' := by rw [warnings, hn, warnings]
    rw [hsame, hh.warned, hget]
    by_cases hid : id' = id
    · subst hid
      simp [hi, ha.incidentType]
    · rw [if_neg hid]

/-- An occurrence that opens an incident. -/
theorem Episodes.opened {o : Occurrence} {h' : History} (hh : Episodes m window t h)
    (ht : t ≤ o.now) (hwindow : window o.key = o.windowMs)
    (hblock : o.incidentType = .block → o.windowMs = blockWindowMs m)
    (hnone : findOpen h.world.incidents o.projectId o.provider o.fingerprint
      (o.now - o.windowMs) = none)
    (hins : h.world.incidents.insert o.newId o.incident = some h'.world.incidents)
    (hn : h'.world.notifications =
      openedNotification m o.newId o.incidentType ++ h.world.notifications)
    (hprocessed : h'.processed = o.key :: h.processed) (hmerged : h'.merged = h.merged)
    (hlength : h.length ≤ h'.length) : Episodes m window o.now h' := by
  have hnew : ∀ κ, hasKey κ o.incident = true ↔ κ = o.key := by
    intro κ
    constructor
    · intro hκ
      exact hasKey_unique hκ (hasKey_iff.mpr ⟨rfl, rfl, rfl⟩)
    · rintro rfl
      exact hasKey_iff.mpr ⟨rfl, rfl, rfl⟩
  have hkeeps : KeepsKeys h.world.incidents h'.world.incidents :=
    fun id i hi => ⟨i, Table.get_insert_of_get hins hi, fun _ => rfl⟩
  -- an open incident of the key is not active
  have hother : ∀ id i, h.world.incidents.get id = some i → hasKey o.key i = true →
      i.status = .open → i.seenAt + window o.key < o.now := by
    intro id i hi hk ho
    obtain ⟨hp, hr, hf⟩ := hasKey_iff.mp hk
    by_contra hlt
    apply findOpen_none hnone hi
    rw [matchesFingerprint_iff]
    rw [hwindow] at hlt
    exact ⟨hp, hr, ho, hf, by omega⟩
  refine ⟨fun id i hi => ?_, fun id i hi => ?_,
    fun κ id₁ i₁ id₂ i₂ h₁ h₂ hne hk₁ hk₂ ho₁ ho₂ => ?_, fun κ => ?_,
    fun e he => ?_, by rw [hmerged]; exact hh.once, fun id => ?_⟩
  -- the new incident is seen when it is created
  · rw [Table.get_insert hins] at hi
    by_cases hid : id = o.newId
    · rw [if_pos hid] at hi
      obtain rfl := Option.some.inj hi
      exact le_rfl
    · rw [if_neg hid] at hi
      exact hh.created id i hi
  -- and not later than now
  · rw [Table.get_insert hins] at hi
    by_cases hid : id = o.newId
    · rw [if_pos hid] at hi
      obtain rfl := Option.some.inj hi
      refine ⟨le_rfl, ?_, fun κ hκ hb => ?_⟩
      · simp [Occurrence.incident, Incident.count, intValue]
      · rw [(hnew κ).mp hκ, hwindow]
        exact hblock hb
    · rw [if_neg hid] at hi
      exact ⟨(hh.seen id i hi).1.trans ht, (hh.seen id i hi).2⟩
  -- of two open incidents of the key one is new, and then `hother` is about the other one
  · rw [Table.get_insert hins] at h₁ h₂
    by_cases hid₁ : id₁ = o.newId
    · have hid₂ : id₂ ≠ o.newId := fun hid₂ => hne (hid₁.trans hid₂.symm)
      rw [if_pos hid₁] at h₁
      rw [if_neg hid₂] at h₂
      obtain rfl := Option.some.inj h₁
      obtain rfl := (hnew κ).mp hk₁
      exact .inr (hother id₂ i₂ h₂ hk₂ ho₂)
    · rw [if_neg hid₁] at h₁
      by_cases hid₂ : id₂ = o.newId
      · rw [if_pos hid₂] at h₂
        obtain rfl := Option.some.inj h₂
        obtain rfl := (hnew κ).mp hk₂
        exact .inl (hother id₁ i₁ h₁ hk₁ ho₁)
      · rw [if_neg hid₂] at h₂
        exact hh.apart κ id₁ i₁ id₂ i₂ h₁ h₂ hne hk₁ hk₂ ho₁ ho₂
  -- the new incident counts one, as does the occurrence that has been processed
  · have hone : o.incident.count.toNat = 1 := by
      simp [Occurrence.incident, Incident.count, intValue]
    have hsum : countOf κ h'.world.incidents =
        countOf κ h.world.incidents + if hasKey κ o.incident then 1 else 0 := by
      rw [countOf, Table.total_insert hins, hone]
      rfl
    rw [hsum, hh.counted κ, hprocessed, hmerged,
      mergedInto_congr hkeeps fun e he => (hh.known e he).2, List.count_cons]
    by_cases hκ : κ = o.key
    · subst hκ
      rw [if_pos ((hnew _).mpr rfl)]
      simp
      omega
    · have hnot : ¬ hasKey κ o.incident = true := fun hk => hκ ((hnew κ).mp hk)
      rw [if_neg hnot]
      simp [Ne.symm hκ]
  -- what has been merged is in older incidents
  · rw [hmerged] at he
    obtain ⟨hlt, i, hi⟩ := hh.known e he
    exact ⟨hlt.trans_le hlength, i, Table.get_insert_of_get hins hi⟩
  -- a warning goes out for the new incident, unless it is a block
  · have hcount : warnings h'.world id = warnings h.world id +
        if id = o.newId ∧ o.incidentType ≠ .block then 1 else 0 := by
      rw [warnings, hn, List.countP_append, ← warnings, add_comm]
      rcases htype : o.incidentType with detector | _
      · by_cases hid : id = o.newId
        · simp [openedNotification, hid]
        · simp [openedNotification, hid, Ne.symm hid]
      · simp [openedNotification]
    rw [hcount, hh.warned, Table.get_insert hins]
    by_cases hid : id = o.newId
    · subst hid
      rw [Table.get_eq_none_of_insert hins, if_pos rfl]
      rcases htype : o.incidentType with detector | _ <;> simp [Occurrence.incident, htype]
    · simp [hid]

variable (m window) in
/-- The operation uses the window of the key for the occurrence it brings. -/
def UsesWindow (op : Operation) : Prop :=
  ∀ o, op.occurrence m = some o → window o.key = o.windowMs

theorem occurrence_now {op : Operation} {o : Occurrence} (h : op.occurrence m = some o) :
    o.now = op.now := by
  cases op with
  | signal r =>
    obtain rfl := Option.some.inj h
    rfl
  | block r =>
    rcases hreason : r.reason with _ | _ | _ | _ | text <;>
      simp only [Operation.occurrence, hreason, reduceCtorEq, Option.some.injEq] at h
    · exact h ▸ rfl
    · exact h ▸ rfl
  | resolve => simp [Operation.occurrence] at h
  | closeStale => simp [Operation.occurrence] at h
  | reconcile => simp [Operation.occurrence] at h

theorem occurrence_spec {op : Operation} {o : Occurrence} (h : op.occurrence m = some o) :
    op.program m = upsert m o ∧ op.mergeOnly = none ∧
      (o.incidentType = .block → o.windowMs = blockWindowMs m) := by
  cases op with
  | signal r =>
    obtain rfl := Option.some.inj h
    exact ⟨rfl, rfl, fun hb => by cases hb⟩
  | block r =>
    rcases hreason : r.reason with _ | _ | _ | _ | text <;>
      simp only [Operation.occurrence, hreason, reduceCtorEq, Option.some.injEq] at h
    · subst h
      exact ⟨by simp [Operation.program, processProtectBlock, hreason],
        by simp [Operation.mergeOnly, hreason], fun _ => rfl⟩
    · subst h
      exact ⟨by simp [Operation.program, processProtectBlock, hreason],
        by simp [Operation.mergeOnly, hreason], fun _ => rfl⟩
  | resolve => simp [Operation.occurrence] at h
  | closeStale => simp [Operation.occurrence] at h
  | reconcile => simp [Operation.occurrence] at h

variable (m) in
theorem mergeOnly_spec {op : Operation} {r : BlockCall} (h : op.mergeOnly = some r) :
    op.program m = mergeIntoActiveBlock m r ∧ op.occurrence m = none ∧ op.now = r.now := by
  cases op with
  | block r' =>
    rcases hreason : r'.reason with _ | _ | _ | _ | text <;>
      simp only [Operation.mergeOnly, hreason, reduceCtorEq, Option.some.injEq] at h
    · subst h
      exact ⟨by simp [Operation.program, processProtectBlock, hreason],
        by simp [Operation.occurrence, hreason], rfl⟩
    · subst h
      exact ⟨by simp [Operation.program, processProtectBlock, hreason],
        by simp [Operation.occurrence, hreason], rfl⟩
  | signal => simp [Operation.mergeOnly] at h
  | resolve => simp [Operation.mergeOnly] at h
  | closeStale => simp [Operation.mergeOnly] at h
  | reconcile => simp [Operation.mergeOnly] at h

theorem handle_occurrence (hh : Episodes m window t h) {op : Operation} {o : Occurrence}
    (ho : op.occurrence m = some o) (ht : t ≤ op.now) (hwindow : UsesWindow m window op) :
    Episodes m window op.now (h.handle m op) := by
  obtain ⟨hprogram, hmerge, hblock⟩ := occurrence_spec ho
  have hnow := occurrence_now ho
  have hmerged : (h.handle m op).merged = h.merged := by
    simp [History.handle, mergeTarget, hmerge]
  have hworld : (h.handle m op).world = (Program.run exec (upsert m o) h.world).2 := by
    rw [← hprogram]
    rfl
  have hprocessed : (h.handle m op).processed =
      (match (Program.run exec (upsert m o) h.world).1 with
        | .ok () => some o.key
        | .error _ => none).toList ++ h.processed := by
    rw [← hprogram]
    simp only [History.handle, processedKey, ho, Option.map_some]
  have hlength : h.length ≤ (h.handle m op).length := Nat.le_succ _
  have hrun := run_upsert m o h.world
  rw [← hworld] at hrun
  generalize (Program.run exec (upsert m o) h.world).1 = reply at hrun hprocessed
  generalize hw : (h.handle m op).world = w at hrun
  rw [← hnow] at ht ⊢
  cases hrun with
  | seen id i tbl hfound htbl =>
    obtain ⟨hi, hm⟩ := findOpen_some hfound
    obtain ⟨hp, hr, hopen, hf, hin⟩ := matchesFingerprint_iff.mp hm
    have hkey : hasKey o.key i = true := hasKey_iff.mpr ⟨hp, hr, hf⟩
    refine hh.again ht hi (fun κ hκ => ?_) hopen (again_merged i o.evidence o.now) rfl
      (by rw [hw, htbl]) (by rw [hw]) (fun κ => ?_) (fun e he => ?_) (by rw [hmerged]; exact hh.once)
    · rw [hasKey_unique hκ hkey, hwindow o ho]
      exact hin
    · rw [hprocessed, hmerged]
      by_cases hκ : κ = o.key
      · subst hκ
        simp [hkey]
        omega
      · have hnot : ¬ hasKey κ i = true := fun hk => hκ (hasKey_unique hk hkey)
        simp [hnot, Ne.symm hκ]
    · rw [hmerged] at he
      exact ⟨(hh.known e he).1.trans_le hlength, .inr he⟩
  | opened tbl hnone hins =>
    exact hh.opened ht (hwindow o ho) hblock hnone (by rw [hw]; exact hins) (by rw [hw])
      hprocessed hmerged hlength
  -- the id is taken: nothing is written, and the call raises
  | taken hid =>
    have hsame : h.handle m op = { h with length := h.length + 1 } := by
      have hlen : (h.handle m op).length = h.length + 1 := rfl
      rcases hhandle : h.handle m op with ⟨w', p', g', n'⟩
      simp_all
    rw [hsame]
    exact (hh.longer (Nat.le_succ _)).mono ht

theorem handle_mergeOnly (hh : Episodes m window t h) {op : Operation} {r : BlockCall}
    (hr : op.mergeOnly = some r) (ht : t ≤ op.now) :
    Episodes m window op.now (h.handle m op) := by
  obtain ⟨hprogram, hocc, hnow⟩ := mergeOnly_spec m hr
  have hprocessed : (h.handle m op).processed = h.processed := by
    simp only [History.handle, processedKey, hocc, Option.map_none]
    split <;> rfl
  obtain ⟨_, hrun⟩ := run_mergeIntoActiveBlock m r h.world
  have hworld : (h.handle m op).world = (Program.run exec (mergeIntoActiveBlock m r) h.world).2 := by
    rw [← hprogram]
    rfl
  have hmerged : (h.handle m op).merged = ((activeBlock (r.now - blockWindowMs m)
      (listOpen h.world.incidents r.projectId r.provider)).map fun e =>
        (h.length, e.1)).toList ++ h.merged := by
    simp [History.handle, mergeTarget, hr, Option.map_map, Function.comp_def]
  rw [← hworld] at hrun
  generalize hw : (h.handle m op).world = w at hrun
  cases hrun with
  -- without an active incident nothing happens
  | none hnone =>
    have hsame : h.handle m op = { h with length := h.length + 1 } := by
      have hlen : (h.handle m op).length = h.length + 1 := rfl
      rw [hnone] at hmerged
      rcases hhandle : h.handle m op with ⟨w', p', g', n'⟩
      simp_all
    rw [hsame]
    exact (hh.longer (Nat.le_succ _)).mono ht
  | some id i tbl hfound htbl =>
    obtain ⟨hi, _, _, hopen, htype, hin⟩ := activeBlock_some hfound
    rw [hfound, Option.map_some] at hmerged
    have hmerged' : (h.handle m op).merged = (h.length, id) :: h.merged := hmerged
    have hget : (h.handle m op).world.incidents.get id = some (i.seen
        (withPreviousReason i r.reason (mergedEvidence i r.evidence)) r.now) := by
      simp [hw, htbl, hi]
    rw [hnow] at ht ⊢
    refine hh.again ht hi (fun κ hκ => ?_) hopen
      (again_mergedBlock i r.reason r.evidence r.now) rfl (by rw [hw, htbl]) (by rw [hw])
      (fun κ => ?_) (fun e he => ?_) ?_
    · rw [(hh.seen id i hi).2.2 κ hκ htype]
      exact hin
    -- the merge is noted with its incident, so that the balance holds
    · rw [hprocessed, hmerged', mergedInto, List.countP_cons, ← mergedInto, hget, Option.any_some]
      have hsame := (again_mergedBlock i r.reason r.evidence r.now).hasKey κ
      rw [hsame]
      omega
    · rw [hmerged'] at he
      rcases List.mem_cons.mp he with rfl | he
      · exact ⟨Nat.lt_succ_self _, .inl rfl⟩
      · exact ⟨(hh.known e he).1.trans (Nat.lt_succ_self _), .inr he⟩
    -- no operation is noted twice, as its number is new
    · rw [hmerged', List.map_cons, List.nodup_cons]
      refine ⟨fun hmem => ?_, hh.once⟩
      obtain ⟨e, he, heq⟩ := List.mem_map.mp hmem
      exact absurd (hh.known e he).1 (by omega)

theorem handle_episodes (hh : Episodes m window t h) {op : Operation} (ht : t ≤ op.now)
    (hwindow : UsesWindow m window op) : Episodes m window op.now (h.handle m op) := by
  rcases ho : op.occurrence m with _ | o
  · rcases hr : op.mergeOnly with _ | r
    · -- the operation only closes
      have hrun := (issues_closing ho hr).run_preserves exec
        (fun w => Episodes m window t { h with world := w })
        (fun c w hc hw => exec_closing hw hc) (s := h.world) hh
      have hsame : h.handle m op = { h with
          world := (Program.run exec (op.program m) h.world).2, length := h.length + 1 } := by
        simp only [History.handle, processedKey, ho, mergeTarget, hr]
        split <;> rfl
      rw [hsame]
      exact (hrun.longer (Nat.le_succ _)).mono ht
    · exact handle_mergeOnly hh hr ht
  · exact handle_occurrence hh ho ht hwindow

theorem empty_episodes : Episodes m window 0 ⟨⟨Table.empty, []⟩, [], [], 0⟩ where
  created := by simp
  seen := by simp
  apart := by simp
  counted := fun κ => rfl
  known := by simp
  once := List.nodup_nil
  warned := fun id => rfl

theorem runOperations_episodes {ops : List Operation}
    (hwindow : ∀ op ∈ ops, UsesWindow m window op)
    (htimes : ops.Pairwise fun op op' => op.now ≤ op'.now) :
    ∃ t, (∀ τ, (∀ op ∈ ops, op.now ≤ τ) → t ≤ τ) ∧
      Episodes m window t (runOperations m ops) ∧ (runOperations m ops).length = ops.length := by
  induction ops using List.reverseRecOn with
  | nil => exact ⟨0, fun _ _ => Nat.zero_le _, empty_episodes, rfl⟩
  | append_singleton ops op ih =>
    rw [List.pairwise_append] at htimes
    obtain ⟨t, ht, hh, hlength⟩ := ih (fun op' hop' => hwindow op' (List.mem_append_left _ hop'))
      htimes.1
    have hle : t ≤ op.now := ht _ fun op' hop' => htimes.2.2 op' hop' op (by simp)
    have hrun : runOperations m (ops ++ [op]) = (runOperations m ops).handle m op := by
      simp [runOperations, List.foldl_append]
    rw [hrun]
    refine ⟨op.now, fun τ hτ => hτ op (by simp), ?_, ?_⟩
    · exact handle_episodes hh hle (hwindow op (by simp))
    · simp [History.handle, hlength]

variable (m) in
/-- What a block that is only merged does: no incident is opened; the one it goes into, if any,
counts one more; the others stay as they are. -/
structure MergesOnly (w : World) (op : Operation) : Prop where
  keys : (Program.run exec (op.program m) w).2.incidents.keys = w.incidents.keys
  target : ∀ id, mergeTarget m w op = some id → ∃ i i', w.incidents.get id = some i ∧
    (Program.run exec (op.program m) w).2.incidents.get id = some i' ∧ i'.count = i.count + 1
  others : ∀ id, mergeTarget m w op ≠ some id →
    (Program.run exec (op.program m) w).2.incidents.get id = w.incidents.get id

theorem mergesOnly_of_mergeOnly {w : World} {op : Operation} (h : op.mergeOnly ≠ none) :
    MergesOnly m w op := by
  obtain ⟨r, hr⟩ := Option.ne_none_iff_exists'.mp h
  obtain ⟨hprogram, _, _⟩ := mergeOnly_spec m hr
  have htarget : mergeTarget m w op = (activeBlock (r.now - blockWindowMs m)
      (listOpen w.incidents r.projectId r.provider)).map Prod.fst := by
    simp [mergeTarget, hr]
  obtain ⟨_, hrun⟩ := run_mergeIntoActiveBlock m r w
  rw [← hprogram] at hrun
  generalize hw : (Program.run exec (op.program m) w).2 = w' at hrun
  cases hrun with
  | none hnone =>
    rw [hnone, Option.map_none] at htarget
    exact ⟨by rw [hw], fun id hid => by simp [htarget] at hid, fun id _ => by rw [hw]⟩
  | some id i tbl hfound htbl =>
    rw [hfound, Option.map_some] at htarget
    obtain ⟨hi, _⟩ := activeBlock_some hfound
    refine ⟨?_, fun id' hid' => ?_, fun id' hid' => ?_⟩
    · simp [hw, htbl, Table.keys, Table.update, Table.updateWhere, Function.comp_def]
    · obtain rfl : id = id' := Option.some.inj (htarget.symm.trans hid')
      refine ⟨i, _, hi, ?_, (again_mergedBlock i r.reason r.evidence r.now).count⟩
      simp [hw, htbl, hi]
    · have hne : id' ≠ id := by
        rintro rfl
        exact hid' htarget
      simp [hw, htbl, hne]

/-- For every run in order of time with one window for each key: at most one incident of a key
is active; the counts of its incidents add up to the occurrences processed and the blocks
merged into them, each block being merged at most once; an incident opened by a signal has one
warning and a block incident none; and a cooldown or fail-closed block opens nothing and counts
in at most one incident. -/
theorem incident_episodes (m : Manager) (window : Key → ℕ) (ops : List Operation)
    (hwindow : ∀ op ∈ ops, UsesWindow m window op)
    (htimes : ops.Pairwise fun op op' => op.now ≤ op'.now) :
    let h := runOperations m ops
    (∀ κ τ, (∀ op ∈ ops, op.now ≤ τ) → ∀ id₁ i₁ id₂ i₂,
      h.world.incidents.get id₁ = some i₁ → h.world.incidents.get id₂ = some i₂ →
      hasKey κ i₁ = true → hasKey κ i₂ = true →
      Active (window κ) τ i₁ → Active (window κ) τ i₂ → id₁ = id₂) ∧
    (∀ κ, countOf κ h.world.incidents =
      h.processed.count κ + mergedInto κ h.world.incidents h.merged) ∧
    (h.merged.map Prod.fst).Nodup ∧
    (∀ id i, h.world.incidents.get id = some i →
      warnings h.world id = if i.incidentType = .block then 0 else 1) ∧
    (∀ op, op.mergeOnly ≠ none → MergesOnly m h.world op) := by
  intro h
  obtain ⟨t, ht, hh, _⟩ := runOperations_episodes hwindow htimes
  refine ⟨?_, hh.counted, hh.once, ?_, fun op hop => mergesOnly_of_mergeOnly hop⟩
  · intro κ τ hτ id₁ i₁ id₂ i₂ h₁ h₂ hk₁ hk₂ ha₁ ha₂
    by_contra hne
    have hle := ht τ hτ
    have hseen₁ := (hh.seen id₁ i₁ h₁).1
    have hseen₂ := (hh.seen id₂ i₂ h₂).1
    obtain ⟨ho₁, hin₁⟩ := ha₁
    obtain ⟨ho₂, hin₂⟩ := ha₂
    rcases hh.apart κ id₁ i₁ id₂ i₂ h₁ h₂ hne hk₁ hk₂ ho₁ ho₂ with hlt | hlt <;> omega
  · intro id i hi
    rw [hh.warned, hi]

end Run

/-- A loop that is seen twice, and a block for a cap with one merged block after it. -/
def sampleOperations : List Operation :=
  let signal : SignalCall := {
    projectId := "p", provider := "openai", now := 0, newId := "a"
    signal := ⟨.loopSuspect, "p:openai:loop_suspect:x", [], none⟩ }
  let block : BlockCall := {
    projectId := "p", provider := "openai", now := 20, newId := "c", reason := .reqCapBreach }
  [.signal signal, .signal { signal with now := 10, newId := "b" }, .block block,
    .block { block with now := 30, newId := "d", reason := .cooldownActive }]

theorem incident_episodes_sample :
    let h := runOperations {} sampleOperations
    (∀ κ τ, (∀ op ∈ sampleOperations, op.now ≤ τ) → ∀ id₁ i₁ id₂ i₂,
      h.world.incidents.get id₁ = some i₁ → h.world.incidents.get id₂ = some i₂ →
      hasKey κ i₁ = true → hasKey κ i₂ = true →
      Active 300000 τ i₁ → Active 300000 τ i₂ → id₁ = id₂) ∧
    (∀ κ, countOf κ h.world.incidents =
      h.processed.count κ + mergedInto κ h.world.incidents h.merged) ∧
    (h.merged.map Prod.fst).Nodup ∧
    (∀ id i, h.world.incidents.get id = some i →
      warnings h.world id = if i.incidentType = .block then 0 else 1) ∧
    (∀ op, op.mergeOnly ≠ none → MergesOnly {} h.world op) := by
  refine incident_episodes {} (fun _ => 300000) sampleOperations ?_ ?_
  · intro op hop o ho
    simp only [sampleOperations, List.mem_cons, List.not_mem_nil, or_false] at hop
    rcases hop with rfl | rfl | rfl | rfl <;> simp [Operation.occurrence] at ho <;>
      subst ho <;> rfl
  · simp [sampleOperations, Operation.now]

example :
    let h := runOperations {} sampleOperations
    (h.world.incidents.get "a").map Incident.count = some 2 ∧
      (h.world.incidents.get "c").map Incident.count = some 2 ∧ h.merged = [(3, "c")] ∧
      warnings h.world "a" = 1 := by
  decide

end Rheonic.IncidentManager
