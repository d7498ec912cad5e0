import Rheonic.ForeignCalls

namespace Rheonic.UserApi
open Unwinding RowTable Keys KeyFamilies CommandProgram SortedBy
open TransportOutbox (Kind Message Outbox)
open TransportJob (ShownTo)
open TransportService (EnqueueCall)
open IncidentRepository (Incident)
open MetricsService (ProjectModel)

def Own (τ : Tenant) (projectId : String) : Prop :=
  τ.owns projectId = true ∧ ':' ∉ projectId.toList

section Readings

variable {τ : Tenant} {d e : Database} {projectId : String}

theorem WellFormed.owned_row (h : WellFormed τ d) {e : String × ProjectRecord}
    (he : e ∈ d.projects.rows) (howner : e.2.userId = some τ.owner) : τ.owns e.1 = true :=
  h.owns (Table.mem_rows_iff.mp he) howner

theorem listProjectsForUser_congr (h : SameFor τ d e) :
    listProjectsForUser τ.owner d = listProjectsForUser τ.owner e := by
  unfold listProjectsForUser
  rw [h.projects.select (fun x hx hq => h.left.owned_row hx (of_decide_eq_true hq))
    fun x hx hq => h.right.owned_row hx (of_decide_eq_true hq)]

theorem getProjectByNameForUser_congr (h : SameFor τ d e) (name : String) :
    getProjectByNameForUser name τ.owner d = getProjectByNameForUser name τ.owner e := by
  apply h.projects.find
  · intro x hx hq
    exact h.left.owned_row hx (of_decide_eq_true hq).2
  · intro x hx hq
    exact h.right.owned_row hx (of_decide_eq_true hq).2

theorem owns_of_eq (hid : τ.owns projectId = true) {q : String} (hq : q = projectId) :
    τ.owns q = true := hq ▸ hid

theorem listByProject_congr (h : SameFor τ d e) (hid : τ.owns projectId = true) :
    listByProject projectId d = listByProject projectId e := by
  unfold listByProject
  rw [h.ingestKeys.select (fun _ _ hq => owns_of_eq hid (of_decide_eq_true hq))
    fun _ _ hq => owns_of_eq hid (of_decide_eq_true hq)]

theorem incidentsByProject_congr (h : SameFor τ d e) (hid : τ.owns projectId = true)
    (status : String) (provider : Option String) :
    incidentsByProject projectId status provider d =
      incidentsByProject projectId status provider e := by
  unfold incidentsByProject
  rw [h.incidents.select (fun _ _ hq => owns_of_eq hid (of_decide_eq_true hq).1)
    fun _ _ hq => owns_of_eq hid (of_decide_eq_true hq).1]

theorem getLatestTerminal_congr (h : SameFor τ d e) (hid : τ.owns projectId = true) (kind : Kind)
    (excludeEventTypes : List String) (since : Option ℕ) :
    getLatestTerminalByProjectKind projectId kind excludeEventTypes since d =
      getLatestTerminalByProjectKind projectId kind excludeEventTypes since e := by
  unfold getLatestTerminalByProjectKind
  rw [h.outbox.select (fun _ _ hq => owns_of_eq hid (of_decide_eq_true hq).1)
    fun _ _ hq => owns_of_eq hid (of_decide_eq_true hq).1]

theorem countFailedOrDead_congr (h : SameFor τ d e) (hid : τ.owns projectId = true) (kind : Kind)
    (excludeEventTypes : List String) (since : Option ℕ) :
    countFailedOrDeadByProjectKind projectId kind excludeEventTypes since d =
      countFailedOrDeadByProjectKind projectId kind excludeEventTypes since e := by
  unfold countFailedOrDeadByProjectKind
  rw [h.outbox.select (fun _ _ hq => owns_of_eq hid (of_decide_eq_true hq).1)
    fun _ _ hq => owns_of_eq hid (of_decide_eq_true hq).1]

theorem deliveryFailures_congr (h : SameFor τ d e) (hid : τ.owns projectId = true) (kind : Kind)
    (now : ℕ) : deliveryFailures projectId kind now d = deliveryFailures projectId kind now e := by
  unfold deliveryFailures
  simp only [getLatestTerminal_congr h hid, countFailedOrDead_congr h hid]

theorem webhookOut_congr (h : SameFor τ d e) (hid : τ.owns projectId = true)
    (project : ProjectRecord) : webhookOut projectId project d = webhookOut projectId project e := by
  unfold webhookOut
  rw [getLatestTerminal_congr h hid]

theorem listProjectProviders_congr (h : SameFor τ d e) (hid : τ.owns projectId = true) :
    MetricsService.listProjectProviders d.projectModels projectId =
      MetricsService.listProjectProviders e.projectModels projectId := by
  have hrows : ∀ l : List ProjectModel, (l.filter fun m => decide (m.projectId = projectId)) =
      (l.filter fun m => τ.owns m.projectId).filter fun m => decide (m.projectId = projectId) := by
    intro l
    rw [List.filter_filter]
    apply List.filter_congr
    intro m _
    by_cases hm : m.projectId = projectId
    · rw [owns_of_eq hid hm, Bool.and_true]
    · simp [hm]
  unfold MetricsService.listProjectProviders
  rw [hrows d.projectModels, hrows e.projectModels, h.models]

theorem aggregation_congr (h : SameFor τ d e) (hid : τ.owns projectId = true)
    (provider : Option String) :
    MetricsService.projectProvidersForAggregation d.projectModels projectId provider =
      MetricsService.projectProvidersForAggregation e.projectModels projectId provider := by
  unfold MetricsService.projectProvidersForAggregation
  rw [listProjectProviders_congr h hid]

end Readings

section Ensure

variable {τ : Tenant} {d e : Database} {P R : Database → Database → Prop} {projectId : String}

theorem ensure_congr {userId : String} (h : d.projects.get projectId = e.projects.get projectId) :
    (exec (ensureProjectOwnedByUser projectId userId) d).1 =
      (exec (ensureProjectOwnedByUser projectId userId) e).1 := by
  unfold ensureProjectOwnedByUser
  rw [exec_bind, exec_bind, exec_query, exec_query]
  dsimp only
  rw [h]
  cases e.projects.get projectId with
  | none => rfl
  | some project =>
    dsimp only
    split
    · rfl
    · rfl

theorem ensure_refused (h : WellFormed τ d) (hid : τ.owns projectId = false) :
    (exec (ensureProjectOwnedByUser projectId τ.owner) d).1 = .error projectNotFound := by
  unfold ensureProjectOwnedByUser
  rw [exec_bind, exec_query]
  dsimp only
  cases hget : d.projects.get projectId with
  | none => rfl
  | some project =>
    have howner : project.userId ≠ some τ.owner := by
      intro howner
      rw [h.owns hget howner] at hid
      exact absurd hid (by decide)
    dsimp only
    rw [if_neg howner]
    rfl

theorem ensure_alike (h : SameFor τ d e) :
    (exec (ensureProjectOwnedByUser projectId τ.owner) d).1 =
      (exec (ensureProjectOwnedByUser projectId τ.owner) e).1 := by
  by_cases hid : τ.owns projectId = true
  · exact ensure_congr (h.get_project hid)
  · rw [Bool.not_eq_true] at hid
    rw [ensure_refused h.left hid, ensure_refused h.right hid]

theorem lockstep_ensure_bind {β : Type} {f : ProjectRecord → Api β} {userId : String}
    (huser : userId = τ.owner) (hP : ∀ d e, P d e → SameFor τ d e) (hPR : ∀ d e, P d e → R d e)
    (hf : ∀ project, Own τ projectId → Lockstep P R (f project)) :
    Lockstep P R (ensureProjectOwnedByUser projectId userId >>= f) := by
  rw [huser]
  have hcheck : Lockstep P P (ensureProjectOwnedByUser projectId τ.owner) := by
    intro s t hst
    rw [ensure_state, ensure_state]
    exact ⟨ensure_alike (hP s t hst), hst⟩
  apply hcheck.bind hPR
  intro project s t hst hok
  obtain ⟨hget, howner⟩ := ensure_ok hok
  have hleft := (hP s t hst).left
  exact hf project ⟨hleft.owns hget howner, (hleft projectId project hget).2⟩

end Ensure

section Writes

variable {τ : Tenant} {d e : Database} {now : ℕ} {projectId : String}

theorem lockstep_query_pure {α β : Type} {g : Database → α} (f : α → β)
    (hg : ∀ d e, SameFor τ d e → g d = g e) :
    Lockstep (Beside τ now) (Beside τ now) (do return f (← query g) : Api β) := by
  apply Lockstep.query_bind fun d e h => hg d e h.same
  intro a
  exact (Lockstep.pure _).of_and

theorem lockstep_onRedis {α : Type} {q : Database → Redis.Prog α} {C : Redis.Cmd → Prop}
    (hq : ∀ d, Program.Issues C (q d)) (hC : ∀ c, C c → τ.Watches c.key)
    (hsame : ∀ d e, SameFor τ d e → q d = q e) :
    Lockstep (Beside τ now) (Beside τ now) (onRedis q) := by
  apply Lockstep.transaction
  intro d e h
  rw [← hsame d e h.same]
  obtain ⟨hanswer, hafter⟩ := h.redis.run ((hq d).mono hC)
  refine ⟨hanswer, ⟨{ h.same with redis := fun t ht _ => hafter.advance ht }, ?_, ?_⟩⟩
  · exact (hq d).run_preserves Redis.exec (fun s => s.clock = now)
      (fun c s _ hs => (Redis.exec_clock c s).trans hs) h.leftClock
  · exact (hq d).run_preserves Redis.exec (fun s => s.clock = now)
      (fun c s _ hs => (Redis.exec_clock c s).trans hs) h.rightClock

theorem lockstep_insertProject {id : String} {project : ProjectRecord} (hid : Own τ id)
    (howner : project.userId = some τ.owner) :
    Lockstep (fun d e => Beside τ now d e ∧ d.projects.get id = none ∧ e.projects.get id = none)
      (Beside τ now) (insertProject id project) := by
  apply Lockstep.transaction
  intro d e h
  obtain ⟨h, hd, he⟩ := h
  obtain ⟨projects, hins⟩ := Table.exists_insert project hd
  obtain ⟨projects', hins'⟩ := Table.exists_insert project he
  have hformed : ∀ {d : Database} {projects : Table String ProjectRecord}, WellFormed τ d →
      d.projects.insert id project = some projects →
        WellFormed τ { d with projects := projects } := by
    intro d projects hd hins id' project' hget
    rw [Table.get_insert hins] at hget
    by_cases heq : id' = id
    · rw [if_pos heq] at hget
      rw [heq, ← Option.some.inj hget]
      exact ⟨⟨fun _ => howner, fun _ => hid.1⟩, hid.2⟩
    · rw [if_neg heq] at hget
      exact hd id' project' hget
  simp only [hins, hins']
  exact ⟨trivial, ⟨{ h.same with
    left := hformed h.same.left hins
    right := hformed h.same.right hins'
    projects := h.same.projects.insert hins hins' }, h.leftClock, h.rightClock⟩⟩

theorem WellFormed.update (h : WellFormed τ d) {f : ProjectRecord → ProjectRecord}
    (hf : ∀ project, (f project).userId = project.userId) :
    WellFormed τ { d with projects := d.projects.update projectId f } := by
  intro id project hget
  rw [Table.get_update] at hget
  by_cases heq : id = projectId
  · rw [if_pos heq] at hget
    obtain ⟨old, hold, hproject⟩ := Option.map_eq_some_iff.mp hget
    rw [← hproject, hf]
    exact h id old hold
  · rw [if_neg heq] at hget
    exact h id project hget

theorem lockstep_updateProject {f : ProjectRecord → ProjectRecord} (hid : Own τ projectId)
    (hf : ∀ project, (f project).userId = project.userId) :
    Lockstep (Beside τ now) (Beside τ now) (updateProject projectId f) := by
  apply Lockstep.transaction
  intro d e h
  refine ⟨?_, ⟨{ h.same with
    left := h.same.left.update hf
    right := h.same.right.update hf
    projects := h.same.projects.update (fun _ _ => rfl) fun _ _ => rfl },
    h.leftClock, h.rightClock⟩⟩
  dsimp only
  rw [Table.get_update, Table.get_update, if_pos rfl, if_pos rfl, h.same.get_project hid.1]

theorem WellFormed.remove (h : WellFormed τ d) {q : String → ProjectRecord → Bool} :
    WellFormed τ { d with projects := d.projects.deleteWhere q } := by
  intro id project hget
  have hmem := Table.mem_rows_iff.mpr hget
  exact h id project (Table.mem_rows_iff.mp (List.mem_filter.mp hmem).1)

theorem lockstep_removeProject (hid : Own τ projectId) :
    Lockstep (Beside τ now) (Beside τ now) (removeProject projectId) := by
  apply Lockstep.transaction
  intro d e h
  rw [← h.same.get_project hid.1]
  cases d.projects.get projectId with
  | none => exact ⟨rfl, h⟩
  | some project =>
    refine ⟨rfl, ⟨{ h.same with
      left := h.same.left.remove
      right := h.same.right.remove
      projects := h.same.projects.deleteWhere _
      ingestKeys := h.same.ingestKeys.deleteWhere _
      incidents := h.same.incidents.deleteWhere _
      models := ?_ }, h.leftClock, h.rightClock⟩⟩
    dsimp only
    rw [List.filter_comm, h.same.models, List.filter_comm]

/-- Neither the id nor the hash of a new key is taken. -/
def KeyFree (newId keyHash : String) (d : Database) : Prop :=
  d.ingestKeys.get newId = none ∧
    ∀ id key, d.ingestKeys.get id = some key → key.keyHash ≠ keyHash

theorem KeyFree.unused {newId keyHash : String} (h : KeyFree newId keyHash d) :
    ¬(d.ingestKeys.rows.any fun e => decide (e.2.keyHash = keyHash)) = true := by
  intro hany
  obtain ⟨e, he, hhash⟩ := List.any_eq_true.mp hany
  exact h.2 e.1 e.2 (Table.mem_rows_iff.mp he) (of_decide_eq_true hhash)

theorem lockstep_insertKey {id keyHash : String} {key : IngestKeyRecord}
    (hhash : key.keyHash = keyHash) :
    Lockstep (fun d e => Beside τ now d e ∧ KeyFree id keyHash d ∧ KeyFree id keyHash e)
      (Beside τ now) (insertKey id key) := by
  rw [← hhash]
  apply Lockstep.transaction
  intro d e h
  obtain ⟨h, hd, he⟩ := h
  obtain ⟨ingestKeys, hins⟩ := Table.exists_insert key hd.1
  obtain ⟨ingestKeys', hins'⟩ := Table.exists_insert key he.1
  rw [if_neg hd.unused, if_neg he.unused]
  simp only [hins, hins']
  exact ⟨trivial, ⟨{ h.same with ingestKeys := h.same.ingestKeys.insert hins hins' },
    h.leftClock, h.rightClock⟩⟩

theorem lockstep_markRevoked {keyId : String} {existing : IngestKeyRecord} :
    Lockstep (fun d e => Beside τ now d e ∧ d.ingestKeys.get keyId = some existing ∧
        e.ingestKeys.get keyId = some existing)
      (Beside τ now) (markRevoked keyId now) := by
  apply Lockstep.transaction
  intro d e h
  obtain ⟨h, hd, he⟩ := h
  refine ⟨?_, ⟨{ h.same with
    ingestKeys := h.same.ingestKeys.update (fun _ _ => rfl) fun _ _ => rfl },
    h.leftClock, h.rightClock⟩⟩
  dsimp only
  rw [Table.get_update, Table.get_update, hd, he]

theorem lockstep_markResolved {incidentId : String} {incident : Incident} :
    Lockstep (fun d e => Beside τ now d e ∧ d.incidents.get incidentId = some incident ∧
        e.incidents.get incidentId = some incident)
      (Beside τ now) (markResolved incidentId now) := by
  apply Lockstep.transaction
  intro d e h
  obtain ⟨h, hd, he⟩ := h
  refine ⟨?_, ⟨{ h.same with
    incidents := h.same.incidents.update (fun _ _ => rfl) fun _ _ => rfl },
    h.leftClock, h.rightClock⟩⟩
  dsimp only
  rw [Table.get_update, Table.get_update, hd, he]

def RowFree (id : String) (d : Database) : Prop := d.transport.rows.get id = none

theorem lockstep_enqueue (ext : External) {message : Message} {newId : String}
    (hid : τ.owns message.projectId = true) :
    Lockstep (fun d e => Beside τ now d e ∧ RowFree newId d ∧ RowFree newId e) (Beside τ now)
      (enqueue ext message newId now) := by
  apply Lockstep.transaction
  intro d e h
  obtain ⟨h, hd, he⟩ := h
  have hserved : ∀ c : EnqueueCall, c.message = message → c.newId = newId →
      (TransportService.enqueue ext.config c d.transport).1 =
          (TransportService.enqueue ext.config c e.transport).1 ∧
        Table.SameView (ShownTo τ.owns) (TransportService.enqueue ext.config c d.transport).2.rows
          (TransportService.enqueue ext.config c e.transport).2.rows := by
    rintro c rfl rfl
    exact TransportJob.enqueue_lockstep h.same.outbox hid hd he
  obtain ⟨hanswer, hview⟩ := hserved ⟨message, newId, now, ext.queueReplies newId, none⟩ rfl rfl
  dsimp only
  generalize TransportService.enqueue ext.config ⟨message, newId, now, ext.queueReplies newId, none⟩
    d.transport = served at hanswer hview ⊢
  generalize TransportService.enqueue ext.config ⟨message, newId, now, ext.queueReplies newId, none⟩
    e.transport = served' at hanswer hview ⊢
  exact ⟨congrArg Except.ok hanswer, ⟨{ h.same with outbox := hview }, h.leftClock, h.rightClock⟩⟩

theorem enqueue_free (ext : External) {message : Message} {newId id : String} (h : RowFree id d)
    (hne : id ≠ newId) : RowFree id (exec (enqueue ext message newId now) d).2 := by
  have hserved (c : EnqueueCall) (hc : id ≠ c.newId) :
      (TransportService.enqueue ext.config c d.transport).2.rows.get id = none :=
    TransportJob.enqueue_get_none h hc
  have hfree := hserved ⟨message, newId, now, ext.queueReplies newId, none⟩ hne
  rw [enqueue, exec_transaction, RowFree]
  dsimp only
  exact hfree

end Writes

section Calls

variable {τ : Tenant} {ext : External} {user : User} {now : ℕ} {d e : Database}

theorem lockstep_orInternalError {α : Type} {P Q : Database → Database → Prop} {m : Api α}
    (detail : String) (hm : Lockstep P Q m) : Lockstep P Q (orInternalError detail m) := by
  apply hm.tryCatch
  intro e
  cases e <;> exact .throw _

theorem lockstep_of_owned {β : Type} {projectId : String} {f : ProjectRecord → Api β}
    (huser : user.id = τ.owner)
    (hf : ∀ project, Own τ projectId → Lockstep (Beside τ now) (Beside τ now) (f project)) :
    Lockstep (Beside τ now) (Beside τ now)
      (ensureProjectOwnedByUser projectId user.id >>= f) :=
  lockstep_ensure_bind huser (fun _ _ h => h.same) (fun _ _ h => h) hf

theorem lockstep_createKey {projectId name newId plaintext : String} (huser : user.id = τ.owner) :
    Lockstep (fun d e => Beside τ now d e ∧ KeyFree newId (ext.hashKey plaintext) d ∧
        KeyFree newId (ext.hashKey plaintext) e)
      (Beside τ now) (createKey ext user now projectId name newId plaintext) := by
  apply lockstep_ensure_bind huser (fun _ _ h => h.1.same) fun _ _ h => h.1
  intro _ _
  refine (Lockstep.ofResult _).bind (fun _ _ h => h.1) fun normalizedName _ _ _ _ => ?_
  refine Lockstep.bind (lockstep_insertKey ?_) (fun _ _ h => h) fun _ _ _ _ _ => .pure _
  rfl

def OwnKey (τ : Tenant) (keyId : String) (d : Database) : Prop :=
  ∃ key, d.ingestKeys.get keyId = some key ∧ τ.owns key.projectId = true

theorem OwnKey.get_eq {keyId : String} (h : OwnKey τ keyId d) (hsame : SameFor τ d e) :
    d.ingestKeys.get keyId = e.ingestKeys.get keyId := by
  obtain ⟨key, hkey, howns⟩ := h
  rw [hkey, hsame.ingestKeys.get hkey howns]

/-- Revoking an own key; `T` is what else is known of the tables. -/
theorem lockstep_revokeKey {keyId : String} {T : Database → Database → Prop}
    (huser : user.id = τ.owner)
    (hT : ∀ d e, T d e → T (exec (markRevoked keyId now) d).2 (exec (markRevoked keyId now) e).2) :
    Lockstep (fun d e => Beside τ now d e ∧ T d e ∧ OwnKey τ keyId d)
      (fun d e => Beside τ now d e ∧ T d e) (revokeKey user now keyId) := by
  apply Lockstep.query_bind fun d e h => h.2.2.get_eq h.1.same
  intro found
  have hweaken : ∀ d e : Database, ((Beside τ now d e ∧ T d e ∧ OwnKey τ keyId d) ∧
      d.ingestKeys.get keyId = found ∧ e.ingestKeys.get keyId = found) →
      Beside τ now d e ∧ T d e := fun _ _ h => ⟨h.1.1, h.1.2.1⟩
  cases found with
  | none => exact (Lockstep.throw _).pre hweaken
  | some existing =>
    apply lockstep_ensure_bind huser (fun _ _ h => h.1.1.same) hweaken
    intro _ _
    by_cases hrevoked : existing.status = .revoked
    · rw [if_pos hrevoked]
      exact (Lockstep.pure _).pre hweaken
    · rw [if_neg hrevoked]
      have hmark : Lockstep (fun d e => (Beside τ now d e ∧ T d e ∧ OwnKey τ keyId d) ∧
          d.ingestKeys.get keyId = some existing ∧ e.ingestKeys.get keyId = some existing)
          (fun d e => Beside τ now d e ∧ T d e) (markRevoked keyId now) := by
        intro d e h
        obtain ⟨hanswer, hafter⟩ := lockstep_markRevoked d e ⟨h.1.1, h.2⟩
        exact ⟨hanswer, hafter, hT d e h.1.2.1⟩
      refine hmark.bind (fun _ _ h => h) fun revoked _ _ _ _ => ?_
      cases revoked with
      | none => exact .throw _
      | some revoked => exact .pure _

theorem KeyFree.markRevoked {newId keyHash keyId : String} (h : KeyFree newId keyHash d) :
    KeyFree newId keyHash (exec (markRevoked keyId now) d).2 := by
  have hget : ∀ id, (exec (UserApi.markRevoked keyId now) d).2.ingestKeys.get id =
      if id = keyId then (d.ingestKeys.get id).map fun key =>
        { key with status := .revoked, revokedAt := some now }
      else d.ingestKeys.get id := fun id => Table.get_update _ _ _ _
  constructor
  · rw [hget, h.1]
    exact ite_self _
  · intro id key hkey
    rw [hget] at hkey
    by_cases hid : id = keyId
    · rw [if_pos hid] at hkey
      obtain ⟨old, hold, hnew⟩ := Option.map_eq_some_iff.mp hkey
      rw [← hnew]
      exact h.2 id old hold
    · rw [if_neg hid] at hkey
      exact h.2 id key hkey

theorem lockstep_rotateKey {keyId newId plaintext : String} (huser : user.id = τ.owner) :
    Lockstep (fun d e => Beside τ now d e ∧ (KeyFree newId (ext.hashKey plaintext) d ∧
        KeyFree newId (ext.hashKey plaintext) e) ∧ OwnKey τ keyId d)
      (Beside τ now) (rotateKey ext user now keyId newId plaintext) := by
  apply Lockstep.query_bind fun d e h => h.2.2.get_eq h.1.same
  intro found
  refine Lockstep.of_and ?_
  cases found with
  | none => exact (Lockstep.throw _).mono fun _ _ h => h.1
  | some existing =>
    apply lockstep_ensure_bind huser (fun _ _ h => h.1.same) fun _ _ h => h.1
    intro _ _
    refine (lockstep_revokeKey huser fun d e h => ⟨h.1.markRevoked, h.2.markRevoked⟩).bind
      (fun _ _ h => h.1) fun _ _ _ _ _ => ?_
    exact lockstep_createKey huser

/-- An incident of one of the tenant's projects. -/
def OwnIncident (τ : Tenant) (incidentId : String) (d : Database) : Prop :=
  ∃ i, d.incidents.get incidentId = some i ∧ τ.owns i.projectId = true

theorem OwnIncident.get_eq {incidentId : String} (h : OwnIncident τ incidentId d)
    (hsame : SameFor τ d e) : d.incidents.get incidentId = e.incidents.get incidentId := by
  obtain ⟨i, hi, howns⟩ := h
  rw [hi, hsame.incidents.get hi howns]

theorem lockstep_notifications {i : Incident} (id webhookId emailId : String)
    (hid : τ.owns i.projectId = true) (hne : emailId ≠ webhookId) :
    Lockstep (fun d e => Beside τ now d e ∧ (RowFree webhookId d ∧ RowFree webhookId e) ∧
        RowFree emailId d ∧ RowFree emailId e)
      (Beside τ now) (enqueueIncidentResolvedNotifications ext now id i webhookId emailId) := by
  have hwebhook : Lockstep (fun d e => Beside τ now d e ∧ (RowFree webhookId d ∧
        RowFree webhookId e) ∧ RowFree emailId d ∧ RowFree emailId e)
      (fun d e => Beside τ now d e ∧ RowFree emailId d ∧ RowFree emailId e)
      (enqueue ext (resolvedWebhook ext i (resolvedPayload ext id i now)) webhookId now) := by
    intro d e h
    have hown : τ.owns (resolvedWebhook ext i (resolvedPayload ext id i now)).projectId = true := hid
    obtain ⟨hanswer, hafter⟩ := lockstep_enqueue ext hown d e ⟨h.1, h.2.1⟩
    exact ⟨hanswer, hafter, enqueue_free ext h.2.2.1 hne, enqueue_free ext h.2.2.2 hne⟩
  refine hwebhook.bind (fun _ _ h => h.1) fun _ _ _ _ _ => ?_
  have henabled : ∀ d e : Database, Beside τ now d e →
      isProtectModeEnabled i.projectId d = isProtectModeEnabled i.projectId e := by
    intro d e h
    unfold isProtectModeEnabled
    rw [h.same.get_project hid]
  apply Lockstep.query_bind fun d e h => henabled d e h.1
  intro enabled
  refine Lockstep.of_and ?_
  cases enabled with
  | true => exact (lockstep_enqueue ext hid).bind (fun _ _ h => h) fun _ _ _ _ _ => .pure _
  | false => exact (Lockstep.pure _).mono fun _ _ h => h.1

/-- The ids drawn for the two messages of a resolution are free. -/
def BothFree (webhookId emailId : String) (d e : Database) : Prop :=
  (RowFree webhookId d ∧ RowFree webhookId e) ∧ RowFree emailId d ∧ RowFree emailId e

theorem lockstep_release {i : Incident} (hid : Own τ i.projectId) {webhookId emailId : String} :
    Lockstep (fun d e => Beside τ now d e ∧ BothFree webhookId emailId d e)
      (fun d e => Beside τ now d e ∧ BothFree webhookId emailId d e)
      (onRedis fun _ => releaseIncidentLock
        (scopedProjectProviderId i.projectId (some i.provider)) (incidentTypeText i.incidentType)) := by
  intro d e h
  have hwatched : ∀ c, OnProject i.projectId c → τ.Watches c.key :=
    fun c hc => Tenant.watches_of_owns hid.1 hid.2 hc
  have hredis := lockstep_onRedis (fun _ => releaseIncidentLock_onProject i.projectId
    (some i.provider) (incidentTypeText i.incidentType)) hwatched (fun _ _ _ => rfl) d e h.1
  exact ⟨hredis.1, hredis.2, h.2⟩

theorem lockstep_resolveIncident {incidentId webhookId emailId : String}
    (huser : user.id = τ.owner) (hne : emailId ≠ webhookId) :
    Lockstep (fun d e => Beside τ now d e ∧ BothFree webhookId emailId d e ∧
        OwnIncident τ incidentId d)
      (Beside τ now) (resolveIncident ext user now incidentId webhookId emailId) := by
  apply Lockstep.query_bind fun d e h => h.2.2.get_eq h.1.same
  intro found
  cases found with
  | none => exact ((Lockstep.throw _).mono fun _ _ h => h.1).of_and
  | some incident =>
    apply lockstep_ensure_bind huser (fun _ _ h => h.1.1.same) fun _ _ h => h.1.1
    intro _ hid
    have hmark : Lockstep (fun d e => (Beside τ now d e ∧ BothFree webhookId emailId d e ∧
          OwnIncident τ incidentId d) ∧ d.incidents.get incidentId = some incident ∧
          e.incidents.get incidentId = some incident)
        (fun d e => Beside τ now d e ∧ BothFree webhookId emailId d e)
        (markResolved incidentId now) := by
      intro d e h
      obtain ⟨hanswer, hafter⟩ := lockstep_markResolved d e ⟨h.1.1, h.2⟩
      exact ⟨hanswer, hafter, h.1.2.1⟩
    refine hmark.bind (fun _ _ h => h.1) fun resolved d _ hd hok => ?_
    have hupdated : resolved = some (incident.closed .resolved now) := by
      have hget : some ((d.incidents.update incidentId fun i => i.closed .resolved now).get
          incidentId) = some resolved := congrArg (fun r => r.toOption) hok
      rw [Table.get_update, if_pos rfl, hd.2.1] at hget
      exact (Option.some.inj hget).symm
    rw [hupdated]
    have hclosed : Own τ (incident.closed .resolved now).projectId := hid
    refine (lockstep_release hclosed).bind (fun _ _ h => h.1) fun _ _ _ _ _ => ?_
    exact (lockstep_notifications _ _ _ hclosed.1 hne).bind (fun _ _ h => h)
      fun _ _ _ _ _ => .pure _

theorem lockstep_updateWebhook {projectId : String} {payload : ProjectWebhookIn}
    (huser : user.id = τ.owner) :
    Lockstep (Beside τ now) (Beside τ now) (updateProjectWebhook ext user now projectId payload) := by
  apply lockstep_of_owned huser
  intro _ hid
  refine (Lockstep.ofResult _).bind (fun _ _ h => h) fun _ _ _ _ _ => ?_
  split
  · exact .throw _
  · apply lockstep_of_owned huser
    intro _ _
    refine (lockstep_updateProject (f := fun project => project.withWebhook payload _) hid
      fun _ => rfl).bind (fun _ _ h => h) fun updated _ _ _ _ => ?_
    cases updated with
    | none => exact .throw _
    | some updated => exact lockstep_query_pure _ fun _ _ h => webhookOut_congr h hid.1 _

theorem lockstep_testWebhook {projectId clientIp : String} {url : Option String}
    (huser : user.id = τ.owner)
    (hkey : webhookTestKeyAt ext user.id now projectId clientIp ∈ τ.testKeys) :
    Lockstep (Beside τ now) (Beside τ now)
      (testProjectWebhook ext user now projectId url clientIp) := by
  have hlimit : Lockstep (Beside τ now) (Beside τ now) (onRedis fun _ =>
      enforceWebhookTestRateLimit ext (webhookTestKeyAt ext user.id now projectId clientIp)) := by
    apply lockstep_onRedis (fun _ => enforceWebhookTestRateLimit_issues ext _) ?_ fun _ _ _ => rfl
    intro c hc
    rw [hc]
    exact .inr hkey
  refine hlimit.bind (fun _ _ h => h) fun _ _ _ _ _ => ?_
  apply lockstep_of_owned huser
  intro project _
  split
  · exact .throw _
  · refine (Lockstep.ofResult _).bind (fun _ _ h => h) fun _ _ _ _ _ => ?_
    exact .ofResult _

theorem lockstep_reading {α β : Type} {projectId : String} {g : ProjectRecord → Database → α}
    {f : ProjectRecord → α → β} (huser : user.id = τ.owner)
    (hg : ∀ project d e, τ.owns projectId = true → SameFor τ d e → g project d = g project e) :
    Lockstep (Beside τ now) (Beside τ now) (do
      let project ← ensureProjectOwnedByUser projectId user.id
      return f project (← query (g project)) : Api β) :=
  lockstep_of_owned huser fun project hid =>
    lockstep_query_pure _ fun d e h => hg project d e hid.1 h

theorem lockstep_metrics {α : Type} {projectId : String} {q : Database → Redis.Prog α}
    {f : α → Body} (huser : user.id = τ.owner)
    (hq : ∀ d, CommandProgram.Program.Issues (OnProject projectId) (q d))
    (hsame : ∀ d e, τ.owns projectId = true → SameFor τ d e → q d = q e) :
    Lockstep (Beside τ now) (Beside τ now) (do
      let _ ← ensureProjectOwnedByUser projectId user.id
      return f (← onRedis q) : Api Body) := by
  apply lockstep_of_owned huser
  intro _ hid
  refine (lockstep_onRedis hq (fun c hc => Tenant.watches_of_owns hid.1 hid.2 hc)
    fun d e h => hsame d e hid.1 h).bind (fun _ _ h => h) fun _ _ _ _ _ => ?_
  exact .pure _

theorem lockstep_sendFeedback {payload : FeedbackIn} {newId : String}
    (h : τ.owns payload.scope = true) :
    Lockstep (fun d e => Beside τ now d e ∧ RowFree newId d ∧ RowFree newId e) (Beside τ now)
      (sendFeedback ext user now payload newId) := by
  unfold sendFeedback
  dsimp only
  split
  · exact (Lockstep.throw _).mono fun _ _ h => h.1
  · have hscope : τ.owns (feedbackMessage ext user now payload
        (PyText.strip payload.message)).projectId = true := by
      rw [feedbackMessage_projectId]
      exact h
    refine (lockstep_enqueue ext hscope).bind (fun _ _ h => h) fun answer _ _ _ _ => ?_
    cases answer with
    | ok id => exact .pure _
    | error raised =>
      dsimp only
      split
      · exact .throw _
      · exact .throw _

end Calls

/-- The ids and the key that are drawn for a call are new. -/
def Drawn (ext : External) (d : Database) : Call → Prop
  | .createProject _ newId => d.projects.get newId = none
  | .createProjectKey _ _ newId plaintext => KeyFree newId (ext.hashKey plaintext) d
  | .rotateKey _ newId plaintext => KeyFree newId (ext.hashKey plaintext) d
  | .resolveIncident _ webhookId emailId =>
    RowFree webhookId d ∧ RowFree emailId d ∧ emailId ≠ webhookId
  | .sendFeedback _ newId => RowFree newId d
  | _ => True

/-- What a call of the tenant's user adds to the tenant. -/
def Belongs (τ : Tenant) (ext : External) (now : ℕ) : Call → Prop
  | .createProject _ newId => Own τ newId
  | .testProjectWebhook projectId _ clientIp =>
    webhookTestKeyAt ext τ.owner now projectId clientIp ∈ τ.testKeys
  | _ => True

/-- The row or the project that a call names without a check before is one of the tenant's. -/
def Names (τ : Tenant) (d : Database) : Call → Prop
  | .revokeKey keyId => OwnKey τ keyId d
  | .rotateKey keyId _ _ => OwnKey τ keyId d
  | .resolveIncident incidentId _ _ => OwnIncident τ incidentId d
  | .sendFeedback payload _ => τ.owns payload.scope = true
  | _ => True

section Endpoints

variable {τ : Tenant} {ext : External} {user : User} {now : ℕ} {d e : Database} {call : Call}

theorem own_call_lockstep (huser : user.id = τ.owner) (hb : Belongs τ ext now call) :
    Lockstep (fun d e => Beside τ now d e ∧ Drawn ext d call ∧ Drawn ext e call ∧ Names τ d call)
      (Beside τ now) (endpoint ext user now call) := by
  have hid : ∀ d e, Beside τ now d e → Beside τ now d e := fun _ _ h => h
  cases call with
  | listProjects =>
    refine lockstep_orInternalError _ (Lockstep.of_and (lockstep_query_pure _ ?_))
    rw [huser]
    exact fun _ _ h => listProjectsForUser_congr h
  -- the id is drawn afresh, so that it is free on both sides
  | createProject name newId =>
    apply lockstep_orInternalError
    refine (Lockstep.ofResult _).bind (fun _ _ h => h.1) fun normalizedName _ _ _ _ => ?_
    apply Lockstep.query_bind fun d e h =>
      huser ▸ getProjectByNameForUser_congr h.1.same normalizedName
    intro existing
    cases existing with
    | some _ => exact ((Lockstep.throw _).mono fun _ _ h => h.1).of_and
    | none =>
      have howner : some user.id = some τ.owner := congrArg some huser
      have hinsert : ∀ project : ProjectRecord, project.userId = some τ.owner →
          Lockstep (fun d e => Beside τ now d e ∧ d.projects.get newId = none ∧
            e.projects.get newId = none) (Beside τ now) (insertProject newId project) :=
        fun _ => lockstep_insertProject hb
      refine (Lockstep.bind (hinsert _ howner) hid fun _ _ _ _ _ => .pure _).pre ?_
      exact fun _ _ h => ⟨h.1.1, h.1.2.1, h.1.2.2.1⟩
  | listProjectProviders projectId =>
    exact lockstep_orInternalError _ (Lockstep.of_and
      (lockstep_reading huser fun _ _ _ hown h => listProjectProviders_congr h hown))
  | deleteProject projectId =>
    apply lockstep_orInternalError
    refine Lockstep.of_and (lockstep_of_owned huser fun _ hown => ?_)
    refine (lockstep_removeProject hown).bind hid fun deleted _ _ _ _ => ?_
    cases deleted with
    | true => exact .pure _
    | false => exact .throw _
  | listProjectKeys projectId =>
    exact lockstep_orInternalError _ (Lockstep.of_and
      (lockstep_reading huser fun _ _ _ hown h => listByProject_congr h hown))
  | createProjectKey projectId name newId plaintext =>
    exact lockstep_orInternalError _
      ((lockstep_createKey huser).pre fun _ _ h => ⟨h.1, h.2.1, h.2.2.1⟩)
  -- the call names a key of the tenant
  | revokeKey keyId =>
    have hrevoke : Lockstep (fun d e => Beside τ now d e ∧ True ∧ OwnKey τ keyId d)
        (fun d e => Beside τ now d e ∧ True) (revokeKey user now keyId) :=
      lockstep_revokeKey (T := fun _ _ => True) huser fun _ _ h => h
    exact lockstep_orInternalError _ ((hrevoke.pre fun _ _ h => ⟨h.1, trivial, h.2.2.2⟩).mono
      fun _ _ h => h.1)
  | rotateKey keyId newId plaintext =>
    exact lockstep_orInternalError _
      ((lockstep_rotateKey huser).pre fun _ _ h => ⟨h.1, ⟨h.2.1, h.2.2.1⟩, h.2.2.2⟩)
  | getProjectProtect projectId =>
    exact lockstep_orInternalError _
      (Lockstep.of_and (lockstep_of_owned huser fun _ _ => .pure _))
  | updateProjectProtect projectId payload =>
    apply lockstep_orInternalError
    refine Lockstep.of_and (lockstep_of_owned huser fun _ hown => ?_)
    refine (lockstep_updateProject (f := fun project => project.withProtect payload) hown
      fun _ => rfl).bind hid fun updated _ _ _ _ => ?_
    cases updated with
    | none => exact .throw _
    | some updated => exact .pure _
  | getProjectWebhook projectId =>
    exact lockstep_orInternalError _ (Lockstep.of_and
      (lockstep_reading huser fun project _ _ hown h => webhookOut_congr h hown project))
  | updateProjectWebhook projectId payload =>
    exact lockstep_orInternalError _ (Lockstep.of_and (lockstep_updateWebhook huser))
  | testProjectWebhook projectId url clientIp =>
    exact lockstep_orInternalError _ (Lockstep.of_and (lockstep_testWebhook huser (huser ▸ hb)))
  -- the aggregation lists the providers on record, which are the same
  | getRealtimeMetrics projectId provider =>
    refine lockstep_orInternalError _ (Lockstep.of_and
      (lockstep_metrics huser (fun _ => getRealtime_onProject _ _ _ _) fun _ _ hown h => ?_))
    unfold MetricsService.getRealtime
    rw [aggregation_congr h hown]
  | getProtectMetrics projectId provider =>
    refine lockstep_orInternalError _ (Lockstep.of_and
      (lockstep_metrics huser (fun _ => getProtectMetrics_onProject _ _ _ _) fun _ _ hown h => ?_))
    unfold MetricsService.getProtectMetrics
    rw [aggregation_congr h hown]
  | getProtectHealth projectId provider =>
    refine lockstep_orInternalError _ (Lockstep.of_and
      (lockstep_metrics huser (fun _ => getProtectHealth_onProject _ _ _ _) fun _ _ hown h => ?_))
    unfold MetricsService.getProtectHealth
    rw [aggregation_congr h hown]
  | getDeliveryFailures projectId kind =>
    exact lockstep_orInternalError _ (Lockstep.of_and
      (lockstep_reading huser fun _ _ _ hown h => deliveryFailures_congr h hown kind now))
  | listIncidents projectId status provider =>
    exact lockstep_orInternalError _ (Lockstep.of_and
      (lockstep_reading huser fun _ _ _ hown h => incidentsByProject_congr h hown status provider))
  -- the call names an incident of the tenant
  | resolveIncident incidentId webhookId emailId =>
    apply lockstep_orInternalError
    intro d e h
    obtain ⟨h, hd, he, hnames⟩ := h
    exact lockstep_resolveIncident huser hd.2.2 d e
      ⟨h, ⟨⟨hd.1, he.1⟩, hd.2.1, he.2.1⟩, hnames⟩
  | sendFeedback payload newId =>
    apply lockstep_orInternalError
    intro d e h
    exact lockstep_sendFeedback h.2.2.2 d e ⟨h.1, h.2.1, h.2.2.1⟩

end Endpoints

end Rheonic.UserApi
