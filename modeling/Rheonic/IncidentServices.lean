import Rheonic.IncidentManager

namespace Rheonic.IncidentManager
open CommandProgram PyText RowTable IncidentRepository

/-- `DetectIncidentsService.resolve_incident`; mails go out for projects under protection. -/
def resolveManually (m : Manager) (id : String) (now : ℕ) (protectEnabled : Bool) :
    Prog (Option Incident) := do
  let incident ← resolveIncident id now
  match incident with
  | none => pure none
  | some incident =>
    notify ⟨.resolved, id, m.webhookDispatcher, protectEnabled && m.transportService⟩
    pure (some incident)

def notifyResolved (m : Manager) (protectEnabled : String → Bool) :
    List (String × Incident) → Prog Unit
  | [] => pure ()
  | (id, incident) :: rest => do
    notify ⟨.resolved, id, m.webhookDispatcher,
      protectEnabled incident.projectId && m.transportService⟩
    notifyResolved m protectEnabled rest

/-- `AutoCloseIncidentsService.auto_close`. -/
def autoClose (m : Manager) (cooldownSeconds : ℤ) (now : ℕ) (protectEnabled : String → Bool) :
    Prog ℕ := do
  let resolved ← autoResolveStaleOpenIncidents (now - (max cooldownSeconds 1).toNat * 1000) now
  notifyResolved m protectEnabled resolved
  pure resolved.length

/-- An operation on the incidents. -/
inductive Operation
  | signal (r : SignalCall)
  | block (r : BlockCall)
  | resolve (id : String) (now : ℕ) (protectEnabled : Bool)
  | closeStale (cooldownSeconds : ℤ) (now : ℕ) (protectEnabled : String → Bool)
  | reconcile (projectId provider : String) (requestId : Option String) (now : ℕ)

def Operation.now : Operation → ℕ
  | .signal r => r.now
  | .block r => r.now
  | .resolve _ now _ => now
  | .closeStale _ now _ => now
  | .reconcile _ _ _ now => now

/-- The occurrence that a signal or a block for a cap brings. -/
def Operation.occurrence (m : Manager) : Operation → Option Occurrence
  | .signal r => some (r.occurrence m)
  | .block r =>
    match r.reason with
    | .reqCapBreach | .tokCapBreach => some (r.occurrence m)
    | _ => none
  | _ => none

/-- A block that is only merged. -/
def Operation.mergeOnly : Operation → Option BlockCall
  | .block r =>
    match r.reason with
    | .cooldownActive | .failClosed => some r
    | _ => none
  | _ => none

/-- What the operation does, whatever it answers. -/
def Operation.program (m : Manager) : Operation → Prog Unit
  | .signal r => processSignal m r
  | .block r => processProtectBlock m r
  | .resolve id now protectEnabled => (fun _ => ()) <$> resolveManually m id now protectEnabled
  | .closeStale cooldownSeconds now protectEnabled =>
    (fun _ => ()) <$> autoClose m cooldownSeconds now protectEnabled
  | .reconcile projectId provider requestId now =>
    reconcileTimeoutSupersededLiveBlock projectId provider requestId now

/-- A command that closes incidents, tells of it, or only reads. -/
def ClosingCommand : Command → Prop
  | .createIncident .. => False
  | .updateOpenIncidentActivity .. => False
  | .notify n => n.event = .resolved
  | _ => True

theorem issues_closing {m : Manager} {op : Operation} (ho : op.occurrence m = none)
    (hm : op.mergeOnly = none) : (op.program m).Issues ClosingCommand := by
  have hnotify : ∀ (protectEnabled : String → Bool) (l : List (String × Incident)),
      (notifyResolved m protectEnabled l).Issues ClosingCommand := by
    intro protectEnabled l
    induction l with
    | nil => exact .pure ()
    | cons e l ih => exact .bind (.perform rfl) fun _ => ih
  have hresolve : ∀ (now : ℕ) (l : List (String × Incident)),
      (resolveAll now l).Issues ClosingCommand := by
    intro now l
    induction l with
    | nil => exact .pure ()
    | cons e l ih => exact .bind (.perform trivial) fun _ => ih
  cases op with
  | signal r => simp [Operation.occurrence] at ho
  | block r =>
    rcases hreason : r.reason with _ | _ | _ | _ | text
    · simp [Operation.occurrence, hreason] at ho
    · simp [Operation.occurrence, hreason] at ho
    · simp [Operation.mergeOnly, hreason] at hm
    · simp [Operation.mergeOnly, hreason] at hm
    · simp only [Operation.program, processProtectBlock, hreason]
      exact .pure ()
  | resolve id now protectEnabled =>
    refine Program.Issues.bind (.bind (.perform trivial) fun incident => ?_) fun _ => .pure ()
    cases incident with
    | none => exact .pure _
    | some incident => exact .bind (.perform rfl) fun _ => .pure _
  | closeStale cooldownSeconds now protectEnabled =>
    refine Program.Issues.bind (.bind (.perform trivial) fun resolved => ?_) fun _ => .pure ()
    exact .bind (hnotify protectEnabled resolved) fun _ => .pure _
  | reconcile projectId provider requestId now =>
    simp only [Operation.program, reconcileTimeoutSupersededLiveBlock]
    split
    · exact .pure ()
    · exact .bind (.perform trivial) fun _ => hresolve now _

@[simp] theorem get_withCount (evidence : Evidence) (count : ℤ) :
    (withCount evidence count).get "count" = .int count := by
  simp [withCount, Evidence.merge, Evidence.get]

theorem get_merge_of_ne {e : Evidence} {k k' : String} {v : Value} (h : k ≠ k') :
    (e.merge [(k, v)]).get k' = e.get k' := by
  simp [Evidence.merge, Evidence.get, h]

theorem get_withPreviousReason (i : Incident) (reason : BlockReason) (evidence : Evidence)
    {key : String} (h : "previous_reason" ≠ key) :
    (withPreviousReason i reason evidence).get key = evidence.get key := by
  unfold withPreviousReason
  split
  · split
    · exact get_merge_of_ne h
    · rfl
  · rfl

/-- An incident after one more occurrence. -/
structure Again (now : ℕ) (i i' : Incident) : Prop where
  status : i'.status = i.status
  projectId : i'.projectId = i.projectId
  provider : i'.provider = i.provider
  fingerprint : i'.fingerprint = i.fingerprint
  incidentType : i'.incidentType = i.incidentType
  createdAt : i'.createdAt = i.createdAt
  resolvedAt : i'.resolvedAt = i.resolvedAt
  lastSeenAt : i'.lastSeenAt = some now
  count : i'.count = i.count + 1

theorem again_merged (i : Incident) (evidence : Evidence) (now : ℕ) :
    Again now i (i.seen (mergedEvidence i evidence) now) :=
  ⟨rfl, rfl, rfl, rfl, rfl, rfl, rfl, rfl, by simp [Incident.count, Incident.seen, mergedEvidence,
    intValue]⟩

theorem again_mergedBlock (i : Incident) (reason : BlockReason) (evidence : Evidence) (now : ℕ) :
    Again now i (i.seen (withPreviousReason i reason (mergedEvidence i evidence)) now) :=
  ⟨rfl, rfl, rfl, rfl, rfl, rfl, rfl, rfl, by
    have hne : "previous_reason" ≠ "count" := by decide
    simp [Incident.count, Incident.seen, mergedEvidence, get_withPreviousReason _ _ _ hne,
      intValue]⟩

/-- The notification that goes out when an incident is opened. -/
def openedNotification (m : Manager) (id : String) : IncidentType → List Notification
  | .block => []
  | .signal _ => [⟨.warn, id, m.webhookDispatcher, m.transportService⟩]

/-- Everything an occurrence can do. -/
inductive Upserted (m : Manager) (o : Occurrence) (w : World) :
    Except IncidentRepository.Exn Unit → World → Prop
  | seen (id : String) (i : Incident) (t : Incidents)
      (hfound : findOpen w.incidents o.projectId o.provider o.fingerprint (o.now - o.windowMs) =
        some (id, i))
      (ht : t = w.incidents.update id fun i' => i'.seen (mergedEvidence i o.evidence) o.now) :
      Upserted m o w (.ok ()) { w with incidents := t }
  | opened (t : Incidents)
      (hnone : findOpen w.incidents o.projectId o.provider o.fingerprint (o.now - o.windowMs) =
        none)
      (ht : w.incidents.insert o.newId o.incident = some t) :
      Upserted m o w (.ok ()) { w with
        incidents := t
        notifications := openedNotification m o.newId o.incidentType ++ w.notifications }
  | taken (hid : ∃ i, w.incidents.get o.newId = some i) : Upserted m o w (.error .integrity) w

theorem run_upsert (m : Manager) (o : Occurrence) (w : World) :
    Upserted m o w (Program.run exec (upsert m o) w).1 (Program.run exec (upsert m o) w).2 := by
  unfold upsert
  rw [Program.run_bind_eq _ (run_getOpenIncidentByFingerprint w ..)]
  rcases hfound : findOpen w.incidents o.projectId o.provider o.fingerprint
    (o.now - o.windowMs) with _ | ⟨id, i⟩
  · simp only []
    rcases hins : w.incidents.insert o.newId o.incident with _ | t
    · rw [Program.run_bind, run_createIncident_none hins]
      exact .taken (Table.insert_eq_none_iff.mp hins)
    · have hopened : Upserted m o w _ _ := .opened t hfound hins
      rw [Program.run_bind_eq _ (run_createIncident_some hins)]
      rcases htype : o.incidentType with detector | _ <;>
        simp only [openedNotification, htype, List.cons_append, List.nil_append] at hopened <;>
        exact hopened
  · obtain ⟨hi, hm⟩ := findOpen_some hfound
    have hopen := (matchesFingerprint_iff.mp hm).2.2.1
    simp only []
    rw [Program.run_bind_eq _ (run_updateOpenIncidentActivity _ _ hi hopen)]
    exact .seen id i _ hfound rfl

/-- Everything a block that is only merged can do. -/
inductive Merged (m : Manager) (r : BlockCall) (w : World) : World → Prop
  | none (hnone : activeBlock (r.now - blockWindowMs m)
      (listOpen w.incidents r.projectId r.provider) = none) : Merged m r w w
  | some (id : String) (i : Incident) (t : Incidents)
      (hfound : activeBlock (r.now - blockWindowMs m)
        (listOpen w.incidents r.projectId r.provider) = some (id, i))
      (ht : t = w.incidents.update id fun i' =>
        i'.seen (withPreviousReason i r.reason (mergedEvidence i r.evidence)) r.now) :
      Merged m r w { w with incidents := t }

theorem activeBlock_some {t : Incidents} {projectId provider : String} {activeAfter : ℕ}
    {id : String} {i : Incident}
    (h : activeBlock activeAfter (listOpen t projectId provider) = some (id, i)) :
    t.get id = some i ∧ i.projectId = projectId ∧ i.provider = provider ∧ i.status = .open ∧
      i.incidentType = .block ∧ activeAfter ≤ i.seenAt := by
  have hmem := List.argmax_mem h
  rw [List.mem_filter, mem_listOpen] at hmem
  obtain ⟨⟨hi, hp, hpr, hs⟩, hb⟩ := hmem
  simp only [Bool.decide_and, Bool.and_eq_true, decide_eq_true_eq] at hb
  exact ⟨hi, hp, hpr, hs, hb⟩

theorem run_mergeIntoActiveBlock (m : Manager) (r : BlockCall) (w : World) :
    (Program.run exec (mergeIntoActiveBlock m r) w).1 = .ok () ∧
      Merged m r w (Program.run exec (mergeIntoActiveBlock m r) w).2 := by
  unfold mergeIntoActiveBlock
  rw [Program.run_bind_eq _ (run_listOpenByProjectProvider w ..)]
  rcases hfound : activeBlock (r.now - blockWindowMs m)
    (listOpen w.incidents r.projectId r.provider) with _ | ⟨id, i⟩
  · exact ⟨rfl, .none hfound⟩
  · obtain ⟨hi, _, _, hopen, _⟩ := activeBlock_some hfound
    simp only []
    rw [Program.run_bind_eq _ (run_updateOpenIncidentActivity _ _ hi hopen)]
    exact ⟨rfl, .some id i _ hfound rfl⟩

theorem run_resolveAll (now : ℕ) (l : List (String × Incident)) (w : World) :
    (Program.run exec (resolveAll now l) w).2.notifications = w.notifications ∧
      ∀ id, (Program.run exec (resolveAll now l) w).2.incidents.get id =
        (w.incidents.get id).map fun i =>
          if id ∈ l.map Prod.fst then i.closed .resolved now else i := by
  induction l generalizing w with
  | nil => exact ⟨rfl, fun id => by simp [resolveAll]⟩
  | cons e l ih =>
    have hstep : Program.run exec (resolveAll now (e :: l)) w =
        Program.run exec (resolveAll now l) { w with
          incidents := w.incidents.update e.1 fun i => i.closed .resolved now } :=
      Program.run_bind_eq exec (run_resolveIncident w e.1 now)
    obtain ⟨hnotes, hget⟩ := ih { w with
      incidents := w.incidents.update e.1 fun i => i.closed .resolved now }
    rw [hstep]
    refine ⟨hnotes, fun id => ?_⟩
    rw [hget, Table.get_update, List.map_cons]
    cases w.incidents.get id with
    | none => simp
    | some i =>
      by_cases hid : id = e.1
      · subst hid
        by_cases hmem : e.1 ∈ l.map Prod.fst <;> simp [hmem, Incident.closed]
      · by_cases hmem : id ∈ l.map Prod.fst <;> simp only [List.mem_cons, hid, hmem, if_false,
          or_true, or_false, if_true]

/-- Open incidents of the scope that the request's live block was recorded in last. -/
def Reconciled (projectId provider requestId : String) (i : Incident) : Prop :=
  i.projectId = projectId ∧ i.provider = provider ∧ i.status = .open ∧
    attributedTo requestId i = true

instance (projectId provider requestId : String) (i : Incident) :
    Decidable (Reconciled projectId provider requestId i) :=
  inferInstanceAs (Decidable (_ ∧ _ ∧ _ ∧ _))

/-- Reconciling closes the incidents attributed to the request, and changes nothing else. -/
theorem run_reconcile {requestId : String} (hr : requestId ≠ "") (projectId provider : String)
    (now : ℕ) (w : World) :
    (Program.run exec (reconcileTimeoutSupersededLiveBlock projectId provider (some requestId) now)
        w).2.notifications = w.notifications ∧
      ∀ id, (Program.run exec
          (reconcileTimeoutSupersededLiveBlock projectId provider (some requestId) now)
          w).2.incidents.get id =
        (w.incidents.get id).map fun i =>
          if Reconciled projectId provider requestId i then i.closed .resolved now else i := by
  have htruthy : truthy (some requestId) = some requestId := by simp [truthy, hr]
  rw [reconcileTimeoutSupersededLiveBlock, htruthy]
  dsimp only
  rw [Program.run_bind_eq _ (run_listOpenByProjectProvider w ..)]
  obtain ⟨hnotes, hget⟩ := run_resolveAll now
    ((listOpen w.incidents projectId provider).filter fun e => attributedTo requestId e.2) w
  refine ⟨hnotes, fun id => ?_⟩
  rw [hget]
  cases hi : w.incidents.get id with
  | none => rfl
  | some i =>
    have hmem : id ∈ ((listOpen w.incidents projectId provider).filter fun e =>
        attributedTo requestId e.2).map Prod.fst ↔ Reconciled projectId provider requestId i := by
      simp only [List.mem_map, List.mem_filter, Prod.exists, exists_eq_right, mem_listOpen,
        exists_and_right, hi, Option.some.injEq]
      constructor
      · rintro ⟨i', ⟨rfl, hp, hv, ho⟩, ha⟩
        exact ⟨hp, hv, ho, ha⟩
      · rintro ⟨hp, hv, ho, ha⟩
        exact ⟨i, ⟨rfl, hp, hv, ho⟩, ha⟩
    simp only [Option.map_some, hmem]

end Rheonic.IncidentManager
