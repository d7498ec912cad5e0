import Rheonic.IncidentServices

namespace Rheonic.IncidentManager
open CommandProgram PyText RowTable IncidentRepository

/-- How many notifications tell that an incident was resolved. -/
def resolutions (w : World) (id : String) : ℕ :=
  w.notifications.countP fun n => n.event = .resolved ∧ n.incidentId = id

/-- A closed incident has its closing time and has been told of once, an open one not at all. -/
structure Lifecycle (w : World) : Prop where
  openNever : ∀ id i, w.incidents.get id = some i → i.status = .open →
    resolutions w id = 0 ∧ i.resolvedAt = none
  closedOnce : ∀ id i, w.incidents.get id = some i → i.status ≠ .open →
    resolutions w id = 1 ∧ i.resolvedAt ≠ none
  absent : ∀ id, w.incidents.get id = none → resolutions w id = 0

/-- What is closed keeps its status and its closing time. -/
def ClosedStays (w w' : World) : Prop :=
  ∀ id i, w.incidents.get id = some i → i.status ≠ .open → ∃ i', w'.incidents.get id = some i' ∧
    i'.status = i.status ∧ i'.resolvedAt = i.resolvedAt

/-- Only open incidents are resolved by hand, and a fallback report finds none of its own. -/
def Orderly (w : World) : Operation → Prop
  | .resolve id _ _ => ∀ i, w.incidents.get id = some i → i.status = .open
  | .reconcile projectId provider requestId _ => ∀ r, truthy requestId = some r →
    ∀ id i, w.incidents.get id = some i → i.projectId = projectId → i.provider = provider →
      i.status = .open → attributedTo r i = false
  | _ => True

/-- The operations in order, from a given world. -/
def runFrom (m : Manager) (w : World) (ops : List Operation) : World :=
  ops.foldl (fun w op => (Program.run exec (op.program m) w).2) w

/-- Each operation of the run is orderly in the world it finds. -/
def RunOrderly (m : Manager) : World → List Operation → Prop
  | _, [] => True
  | w, op :: ops => Orderly w op ∧ RunOrderly m (Program.run exec (op.program m) w).2 ops

section Lifecycle

variable {m : Manager} {w w' : World}

theorem ClosedStays.refl (w : World) : ClosedStays w w := fun _ i hi _ => ⟨i, hi, rfl, rfl⟩

theorem ClosedStays.trans {w'' : World} (h : ClosedStays w w') (h' : ClosedStays w' w'') :
    ClosedStays w w'' := by
  intro id i hi hs
  obtain ⟨i', hi', hs', hr'⟩ := h id i hi hs
  obtain ⟨i'', hi'', hs'', hr''⟩ := h' id i' hi' (hs' ▸ hs)
  exact ⟨i'', hi'', hs''.trans hs', hr''.trans hr'⟩

theorem lifecycle_of_same (h : Lifecycle w)
    (hget : ∀ id i', w'.incidents.get id = some i' → ∃ i, w.incidents.get id = some i ∧
      i'.status = i.status ∧ i'.resolvedAt = i.resolvedAt)
    (hnone : ∀ id, w'.incidents.get id = none → w.incidents.get id = none)
    (hn : w'.notifications = w.notifications) : Lifecycle w' := by
  have hsame : ∀ id, resolutions w' id = resolutions w id := by
    intro id
    rw [resolutions, hn, resolutions]
  refine ⟨fun id i' hi' ho => ?_, fun id i' hi' hc => ?_, fun id hid => ?_⟩
  · obtain ⟨i, hi, hs, hr⟩ := hget id i' hi'
    rw [hsame, hr]
    exact h.openNever id i hi (hs ▸ ho)
  · obtain ⟨i, hi, hs, hr⟩ := hget id i' hi'
    rw [hsame, hr]
    exact h.closedOnce id i hi (hs ▸ hc)
  · rw [hsame]
    exact h.absent id (hnone id hid)

theorem lifecycle_again {id : String} {i i' : Incident} {now : ℕ} {f : Incident → Incident}
    {t : Incidents} (h : Lifecycle w) (hi : w.incidents.get id = some i) (ho : i.status = .open)
    (ha : Again now i i') (hf : f i = i') (ht : t = w.incidents.update id f) :
    Lifecycle { w with incidents := t } ∧ ClosedStays w { w with incidents := t } := by
  have hget : ∀ id', t.get id' = if id' = id then some i' else w.incidents.get id' := by
    intro id'
    rw [ht, Table.get_update]
    by_cases hid : id' = id
    · subst hid
      simp [hi, hf]
    · simp [hid]
  constructor
  · refine lifecycle_of_same h (fun id' j hj => ?_) (fun id' hnone => ?_) rfl
    · have hj' : (if id' = id then some i' else w.incidents.get id') = some j := by
        rw [← hget]
        exact hj
      by_cases hid : id' = id
      · subst hid
        rw [if_pos rfl] at hj'
        obtain rfl := Option.some.inj hj'
        exact ⟨i, hi, ha.status, ha.resolvedAt⟩
      · rw [if_neg hid] at hj'
        exact ⟨j, hj', rfl, rfl⟩
    · have hnone' : (if id' = id then some i' else w.incidents.get id') = none := by
        rw [← hget]
        exact hnone
      by_cases hid : id' = id
      · simp [hid] at hnone'
      · rwa [if_neg hid] at hnone'
  · intro id' j hj hc
    have hid : id' ≠ id := by
      rintro rfl
      obtain rfl := Option.some.inj (hi.symm.trans hj)
      exact hc ho
    exact ⟨j, by rw [hget, if_neg hid]; exact hj, rfl, rfl⟩

theorem upsert_lifecycle {o : Occurrence} (h : Lifecycle w) :
    Lifecycle (Program.run exec (upsert m o) w).2 ∧
      ClosedStays w (Program.run exec (upsert m o) w).2 := by
  have hrun := run_upsert m o w
  generalize (Program.run exec (upsert m o) w).1 = reply at hrun
  generalize (Program.run exec (upsert m o) w).2 = w' at hrun ⊢
  cases hrun with
  | seen id i t hfound ht =>
    obtain ⟨hi, hm⟩ := findOpen_some hfound
    exact lifecycle_again h hi (matchesFingerprint_iff.mp hm).2.2.1
      (again_merged i o.evidence o.now) rfl ht
  | opened t hnone hins =>
    -- opening tells of no resolution
    have hsame : ∀ id, resolutions { w with
        incidents := t
        notifications := openedNotification m o.newId o.incidentType ++ w.notifications } id =
          resolutions w id := by
      intro id
      rcases htype : o.incidentType with detector | _ <;>
        simp [resolutions, openedNotification]
    refine ⟨⟨fun id i hi ho => ?_, fun id i hi hc => ?_, fun id hid => ?_⟩,
      fun id i hi hc => ⟨i, Table.get_insert_of_get hins hi, rfl, rfl⟩⟩
    · rw [hsame]
      have hi' := Table.get_insert hins id
      by_cases hid : id = o.newId
      · subst hid
        rw [if_pos rfl] at hi'
        obtain rfl := Option.some.inj (hi'.symm.trans hi)
        -- the new id was never resolved
        exact ⟨h.absent _ (Table.get_eq_none_of_insert hins), rfl⟩
      · rw [if_neg hid] at hi'
        exact h.openNever id i (hi'.symm.trans hi) ho
    · rw [hsame]
      have hi' := Table.get_insert hins id
      by_cases hid : id = o.newId
      · rw [if_pos hid] at hi'
        obtain rfl := Option.some.inj (hi'.symm.trans hi)
        exact absurd rfl hc
      · rw [if_neg hid] at hi'
        exact h.closedOnce id i (hi'.symm.trans hi) hc
    · rw [hsame]
      apply h.absent
      by_contra hne
      obtain ⟨i, hi⟩ := Option.ne_none_iff_exists'.mp hne
      have hkept : t.get id = some i := Table.get_insert_of_get hins hi
      have hid' : t.get id = none := hid
      simp [hkept] at hid'
  | taken hid => exact ⟨h, .refl w⟩

theorem mergeIntoActiveBlock_lifecycle {r : BlockCall} (h : Lifecycle w) :
    Lifecycle (Program.run exec (mergeIntoActiveBlock m r) w).2 ∧
      ClosedStays w (Program.run exec (mergeIntoActiveBlock m r) w).2 := by
  obtain ⟨_, hrun⟩ := run_mergeIntoActiveBlock m r w
  generalize (Program.run exec (mergeIntoActiveBlock m r) w).2 = w' at hrun ⊢
  cases hrun with
  | none hnone => exact ⟨h, .refl w⟩
  | some id i t hfound ht =>
    obtain ⟨hi, _, _, hopen, _⟩ := activeBlock_some hfound
    exact lifecycle_again h hi hopen (again_mergedBlock i r.reason r.evidence r.now) rfl ht

theorem resolveManually_lifecycle {id : String} {now : ℕ} {protectEnabled : Bool}
    (h : Lifecycle w) (ho : ∀ i, w.incidents.get id = some i → i.status = .open) :
    Lifecycle (Program.run exec (resolveManually m id now protectEnabled) w).2 ∧
      ClosedStays w (Program.run exec (resolveManually m id now protectEnabled) w).2 := by
  unfold resolveManually
  rw [Program.run_bind_eq _ (run_resolveIncident w id now)]
  rcases hi : w.incidents.get id with _ | i
  -- an unknown id: nothing is written, and nobody is told
  · have hget : ∀ id', (w.incidents.update id fun i => i.closed .resolved now).get id' =
        w.incidents.get id' := by
      intro id'
      by_cases hid : id' = id <;> simp [hid, hi]
    refine ⟨lifecycle_of_same h (fun id' j hj => ?_) (fun id' hnone => ?_) rfl,
      fun id' j hj _ => ⟨j, ?_, rfl, rfl⟩⟩
    · exact ⟨j, (hget id').symm.trans hj, rfl, rfl⟩
    · exact (hget id').symm.trans hnone
    · exact (hget id').trans hj
  -- an open incident is closed and told of once
  · have hopen := ho i hi
    simp only [Option.map_some]
    rw [Program.run_bind_eq _ (run_notify ..)]
    have hget : ∀ id', (w.incidents.update id fun i => i.closed .resolved now).get id' =
        if id' = id then some (i.closed .resolved now) else w.incidents.get id' := by
      intro id'
      by_cases hid : id' = id <;> simp [hid, hi]
    have hcount : ∀ id', List.countP (fun n => decide (n.event = Event.resolved ∧
        n.incidentId = id')) (⟨.resolved, id, m.webhookDispatcher,
          protectEnabled && m.transportService⟩ :: w.notifications) =
        resolutions w id' + if id' = id then 1 else 0 := by
      intro id'
      rw [List.countP_cons, ← resolutions]
      simp [eq_comm]
    refine ⟨⟨fun id' j hj hs => ?_, fun id' j hj hs => ?_, fun id' hnone => ?_⟩,
      fun id' j hj hs => ⟨j, ?_, rfl, rfl⟩⟩
    · have hj' := (hget id').symm.trans hj
      by_cases hid : id' = id
      · rw [if_pos hid] at hj'
        obtain rfl := Option.some.inj hj'
        simp [Incident.closed] at hs
      · rw [if_neg hid] at hj'
        refine ⟨(hcount id').trans ?_, (h.openNever id' j hj' hs).2⟩
        rw [(h.openNever id' j hj' hs).1, if_neg hid]
    · have hj' := (hget id').symm.trans hj
      by_cases hid : id' = id
      · subst hid
        rw [if_pos rfl] at hj'
        obtain rfl := Option.some.inj hj'
        refine ⟨(hcount id').trans ?_, by simp [Incident.closed]⟩
        rw [(h.openNever id' i hi hopen).1, if_pos rfl]
      · rw [if_neg hid] at hj'
        refine ⟨(hcount id').trans ?_, (h.closedOnce id' j hj' hs).2⟩
        rw [(h.closedOnce id' j hj' hs).1, if_neg hid]
    · have hnone' := (hget id').symm.trans hnone
      by_cases hid : id' = id
      · simp [hid] at hnone'
      · rw [if_neg hid] at hnone'
        refine (hcount id').trans ?_
        rw [h.absent id' hnone', if_neg hid]
    -- an incident that was closed before is not the one resolved
    · have hid : id' ≠ id := by
        rintro rfl
        obtain rfl := Option.some.inj (hi.symm.trans hj)
        exact hs hopen
      exact (hget id').trans (by rw [if_neg hid, hj])

theorem run_notifyResolved (protectEnabled : String → Bool) (l : List (String × Incident))
    (w : World) :
    (Program.run exec (notifyResolved m protectEnabled l) w).1 = .ok () ∧
      (Program.run exec (notifyResolved m protectEnabled l) w).2.incidents = w.incidents ∧
      ∀ id, resolutions (Program.run exec (notifyResolved m protectEnabled l) w).2 id =
        resolutions w id + (l.map Prod.fst).count id := by
  induction l generalizing w with
  | nil => exact ⟨rfl, rfl, fun id => rfl⟩
  | cons e l ih =>
    rw [notifyResolved, Program.run_bind_eq _ (run_notify ..)]
    obtain ⟨hok, hincidents, hcount⟩ := ih { w with
      notifications := ⟨.resolved, e.1, m.webhookDispatcher,
        protectEnabled e.2.projectId && m.transportService⟩ :: w.notifications }
    refine ⟨hok, hincidents, fun id => ?_⟩
    rw [hcount, List.map_cons, List.count_cons, resolutions, List.countP_cons, ← resolutions]
    by_cases hid : e.1 = id <;> simp [hid]
    omega

theorem count_stale (t : Incidents) (cutoff : ℕ) (id : String) :
    ((t.select fun _ i => stale cutoff i).map Prod.fst).count id =
      if (t.get id).any (stale cutoff) then 1 else 0 := by
  have hnodup : ((t.select fun _ i => stale cutoff i).map Prod.fst).Nodup :=
    t.distinct.sublist (List.Sublist.map _ List.filter_sublist)
  have hmem : id ∈ (t.select fun _ i => stale cutoff i).map Prod.fst ↔
      (t.get id).any (stale cutoff) = true := by
    rw [List.mem_map, Option.any_eq_true]
    constructor
    · rintro ⟨⟨id', i⟩, he, rfl⟩
      obtain ⟨hi, hstale⟩ := Table.mem_select.mp he
      exact ⟨i, hi, hstale⟩
    · rintro ⟨i, hi, hstale⟩
      exact ⟨(id, i), Table.mem_select.mpr ⟨hi, hstale⟩, rfl⟩
  by_cases h : (t.get id).any (stale cutoff) = true
  · rw [if_pos h, List.count_eq_one_of_mem hnodup (hmem.mpr h)]
  · rw [if_neg h, List.count_eq_zero]
    exact fun hin => h (hmem.mp hin)

theorem autoClose_lifecycle {cooldownSeconds : ℤ} {now : ℕ} {protectEnabled : String → Bool}
    (h : Lifecycle w) :
    Lifecycle (Program.run exec (autoClose m cooldownSeconds now protectEnabled) w).2 ∧
      ClosedStays w (Program.run exec (autoClose m cooldownSeconds now protectEnabled) w).2 := by
  unfold autoClose
  generalize now - (max cooldownSeconds 1).toNat * 1000 = cutoff
  let closed := (w.incidents.select fun _ i => stale cutoff i).map fun e =>
    (e.1, e.2.closed .autoResolved now)
  let t := w.incidents.updateWhere (fun _ i => stale cutoff i) fun i => i.closed .autoResolved now
  have hclosed : Program.run exec (autoResolveStaleOpenIncidents cutoff now) w =
      (.ok closed, { w with incidents := t }) := rfl
  have hids : closed.map Prod.fst = (w.incidents.select fun _ i => stale cutoff i).map Prod.fst := by
    simp [closed, Function.comp_def]
  rw [Program.run_bind_eq _ hclosed, Program.run_bind]
  obtain ⟨hok, hincidents, hcount⟩ := run_notifyResolved (m := m) protectEnabled closed
    { w with incidents := t }
  rcases hrun : Program.run exec (notifyResolved m protectEnabled closed)
    { w with incidents := t } with ⟨reply, w'⟩
  rw [hrun] at hok hincidents hcount
  obtain rfl : reply = .ok () := hok
  simp only [Program.run_pure]
  have hget : ∀ id, w'.incidents.get id = (w.incidents.get id).map fun i =>
      if stale cutoff i then i.closed .autoResolved now else i := by
    intro id
    rw [hincidents]
    exact Table.get_updateWhere ..
  -- every stale incident is told of once, and no other
  have hresolutions : ∀ id, resolutions w' id = resolutions w id +
      if (w.incidents.get id).any (stale cutoff) then 1 else 0 := by
    intro id
    rw [hcount, hids, count_stale]
    rfl
  have hopen : ∀ i, stale cutoff i = true → i.status = .open := by
    intro i hstale
    simp only [stale, Bool.decide_and, Bool.and_eq_true, decide_eq_true_eq] at hstale
    exact hstale.1
  refine ⟨⟨fun id j hj hs => ?_, fun id j hj hs => ?_, fun id hnone => ?_⟩, fun id i hi hs => ?_⟩
  -- the ones that stay open have not been told of
  · rw [hget] at hj
    obtain ⟨i, hi, rfl⟩ := Option.map_eq_some_iff.mp hj
    by_cases hstale : stale cutoff i = true
    · simp [hstale, Incident.closed] at hs
    · rw [if_neg hstale] at hs ⊢
      rw [hresolutions, hi, Option.any_some, if_neg hstale]
      exact h.openNever id i hi hs
  -- the closed ones have just been told of, or were before
  · rw [hget] at hj
    obtain ⟨i, hi, rfl⟩ := Option.map_eq_some_iff.mp hj
    rw [hresolutions, hi, Option.any_some]
    by_cases hstale : stale cutoff i = true
    · rw [if_pos hstale, if_pos hstale, (h.openNever id i hi (hopen i hstale)).1]
      simp [Incident.closed]
    · rw [if_neg hstale] at hs
      rw [if_neg hstale, if_neg hstale]
      exact h.closedOnce id i hi hs
  · rw [hget, Option.map_eq_none_iff] at hnone
    rw [hresolutions, hnone]
    exact h.absent id hnone
  · have hstale : ¬ stale cutoff i = true := fun hstale => hs (hopen i hstale)
    exact ⟨i, by rw [hget, hi, Option.map_some, if_neg hstale], rfl, rfl⟩

theorem reconcile_orderly {projectId provider : String} {requestId : Option String} {now : ℕ}
    (h : Orderly w (.reconcile projectId provider requestId now)) :
    (Program.run exec (reconcileTimeoutSupersededLiveBlock projectId provider requestId now) w).2 =
      w := by
  unfold reconcileTimeoutSupersededLiveBlock
  rcases hr : truthy requestId with _ | r
  · rfl
  · simp only []
    rw [Program.run_bind_eq _ (run_listOpenByProjectProvider w ..)]
    have hempty : (listOpen w.incidents projectId provider).filter
        (fun e => attributedTo r e.2) = [] := by
      rw [List.filter_eq_nil_iff]
      rintro ⟨id, i⟩ he
      obtain ⟨hi, hp, hpr, hs⟩ := mem_listOpen.mp he
      simp [h r hr id i hi hp hpr hs]
    rw [hempty]
    rfl

theorem run_map {α β : Type} (f : α → β) (p : Prog α) (w : World) :
    (Program.run exec (f <$> p) w).2 = (Program.run exec p w).2 := by
  change (Program.run exec (p >>= fun a => pure (f a)) w).2 = _
  rw [Program.run_bind]
  rcases Program.run exec p w with ⟨_ | _, _⟩ <;> rfl

theorem operation_lifecycle (h : Lifecycle w) {op : Operation} (ho : Orderly w op) :
    Lifecycle (Program.run exec (op.program m) w).2 ∧
      ClosedStays w (Program.run exec (op.program m) w).2 := by
  cases op with
  | signal r => exact upsert_lifecycle h
  | block r =>
    simp only [Operation.program, processProtectBlock]
    split
    · exact upsert_lifecycle h
    · exact upsert_lifecycle h
    · exact mergeIntoActiveBlock_lifecycle h
    · exact mergeIntoActiveBlock_lifecycle h
    · exact ⟨h, .refl w⟩
  | resolve id now protectEnabled =>
    rw [Operation.program, run_map]
    exact resolveManually_lifecycle h ho
  | closeStale cooldownSeconds now protectEnabled =>
    rw [Operation.program, run_map]
    exact autoClose_lifecycle h
  | reconcile projectId provider requestId now =>
    rw [Operation.program, reconcile_orderly ho]
    exact ⟨h, .refl w⟩

theorem runFrom_lifecycle {ops : List Operation} (h : Lifecycle w) (ho : RunOrderly m w ops) :
    Lifecycle (runFrom m w ops) ∧ ClosedStays w (runFrom m w ops) := by
  induction ops generalizing w with
  | nil => exact ⟨h, .refl w⟩
  | cons op ops ih =>
    obtain ⟨hop, hops⟩ := ho
    obtain ⟨hw, hstays⟩ := operation_lifecycle (m := m) h hop
    obtain ⟨hend, hrest⟩ := ih hw hops
    exact ⟨hend, hstays.trans hrest⟩

theorem runOrderly_append {ops ops' : List Operation} (h : RunOrderly m w (ops ++ ops')) :
    RunOrderly m w ops ∧ RunOrderly m (runFrom m w ops) ops' := by
  induction ops generalizing w with
  | nil => exact ⟨trivial, h⟩
  | cons op ops ih =>
    obtain ⟨hop, hops⟩ := h
    obtain ⟨hleft, hright⟩ := ih hops
    exact ⟨⟨hop, hleft⟩, hright⟩

end Lifecycle

/-- In every run in which only open incidents are resolved by hand and no fallback report closes
one: an incident that has left open was told of once, and keeps its status and closing time. -/
theorem incident_lifecycle (m : Manager) (ops later : List Operation)
    (h : RunOrderly m ⟨Table.empty, []⟩ (ops ++ later)) :
    let w := runFrom m ⟨Table.empty, []⟩ ops
    (∀ id i, w.incidents.get id = some i →
      (i.status = .open → resolutions w id = 0 ∧ i.resolvedAt = none) ∧
      (i.status ≠ .open → resolutions w id = 1 ∧ i.resolvedAt ≠ none)) ∧
    ClosedStays w (runFrom m w later) := by
  intro w
  have hempty : Lifecycle ⟨Table.empty, []⟩ := by
    refine ⟨?_, ?_, fun id _ => rfl⟩ <;> simp
  obtain ⟨hops, hlater⟩ := runOrderly_append h
  obtain ⟨hw, _⟩ := runFrom_lifecycle hempty hops
  exact ⟨fun id i hi => ⟨hw.openNever id i hi, hw.closedOnce id i hi⟩,
    (runFrom_lifecycle hw hlater).2⟩

/-- A loop that a detector has seen. -/
def loopSignal : SignalCall where
  projectId := "p"
  provider := "openai"
  now := 0
  newId := "a"
  signal := ⟨.loopSuspect, "p:openai:loop_suspect:x", [], none⟩

theorem incident_lifecycle_sample :
    let w := runFrom {} ⟨Table.empty, []⟩ [.signal loopSignal]
    (∀ id i, w.incidents.get id = some i →
      (i.status = .open → resolutions w id = 0 ∧ i.resolvedAt = none) ∧
      (i.status ≠ .open → resolutions w id = 1 ∧ i.resolvedAt ≠ none)) ∧
    ClosedStays w (runFrom {} w [.resolve "a" 5 true, .closeStale 300 9 fun _ => true]) := by
  refine incident_lifecycle {} [.signal loopSignal] _ ⟨trivial, ?_, trivial, trivial⟩
  intro i hi
  have hopen : ((runFrom {} ⟨Table.empty, []⟩ [.signal loopSignal]).incidents.get "a").map
      Incident.status = some .open := by
    decide
  have hi' : (runFrom {} ⟨Table.empty, []⟩ [.signal loopSignal]).incidents.get "a" = some i := hi
  rw [hi', Option.map_some, Option.some.injEq] at hopen
  exact hopen

/-- An incident that has been closed as stale is resolved by hand: its status and closing time
change, and it is told of again. And a fallback report closes a block incident without telling. -/
theorem closed_incident_resolved_again :
    let stale := runFrom {} ⟨Table.empty, []⟩
      [.signal loopSignal, .closeStale 1 5000 fun _ => true]
    let resolved := runFrom {} stale [.resolve "a" 6000 true]
    let block : BlockCall := {
      projectId := "p", provider := "openai", now := 0, newId := "b", reason := .reqCapBreach
      requestId := some "r", source := some "live" }
    let reconciled := runFrom {} ⟨Table.empty, []⟩
      [.block block, .reconcile "p" "openai" (some "r") 5]
    (resolutions stale "a" = 1 ∧ ¬ ClosedStays stale resolved ∧ resolutions resolved "a" = 2) ∧
      (reconciled.incidents.get "b").map Incident.status = some .resolved ∧
      resolutions reconciled "b" = 0 := by
  intro stale resolved block reconciled
  refine ⟨⟨by decide, fun hstays => ?_, by decide⟩, by decide, by decide⟩
  have hstale : (stale.incidents.get "a").map Incident.status = some .autoResolved := by decide
  have hresolved : (resolved.incidents.get "a").map Incident.status = some .resolved := by decide
  obtain ⟨i, hi, hs⟩ := Option.map_eq_some_iff.mp hstale
  obtain ⟨i', hi', hs', _⟩ := hstays "a" i hi (by simp [hs])
  rw [hi', Option.map_some, hs', hs] at hresolved
  simp at hresolved

end Rheonic.IncidentManager
