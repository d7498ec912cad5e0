import Rheonic.TenantView

namespace Rheonic.UserApi
open Unwinding RowTable Keys KeyFamilies CommandProgram
open TransportOutbox (Kind Message)

def Foreign (τ : Tenant) (projectId : String) : Prop :=
  τ.owns projectId = false ∧ ':' ∉ projectId.toList

section Ensure

variable {projectId userId : String} {d : Database}

theorem ensure_state : (exec (ensureProjectOwnedByUser projectId userId) d).2 = d := by
  unfold ensureProjectOwnedByUser
  rw [exec_bind, exec_query]
  dsimp only
  cases d.projects.get projectId with
  | none => rfl
  | some project =>
    dsimp only
    split
    · rfl
    · rfl

theorem ensure_ok {project : ProjectRecord}
    (h : (exec (ensureProjectOwnedByUser projectId userId) d).1 = .ok project) :
    d.projects.get projectId = some project ∧ project.userId = some userId := by
  unfold ensureProjectOwnedByUser at h
  rw [exec_bind, exec_query] at h
  dsimp only at h
  cases hget : d.projects.get projectId with
  | none =>
    rw [hget] at h
    exact absurd h (by simp)
  | some found =>
    rw [hget] at h
    dsimp only at h
    by_cases howner : found.userId = some userId
    · rw [if_pos howner] at h
      rw [← Except.ok.inj h]
      exact ⟨rfl, howner⟩
    · rw [if_neg howner] at h
      exact absurd h (by simp)

end Ensure

section Hidden

variable {τ : Tenant} {d e : Database} {P : Database → Database → Prop} {projectId userId : String}

theorem WellFormed.foreign (h : WellFormed τ d) (huser : userId ≠ τ.owner) {id : String}
    {project : ProjectRecord} (hget : d.projects.get id = some project)
    (howner : project.userId = some userId) : Foreign τ id := by
  obtain ⟨howns, hcolon⟩ := h id project hget
  refine ⟨?_, hcolon⟩
  rw [← Bool.not_eq_true]
  intro hid
  rw [howns.mp hid] at howner
  exact huser (Option.some.inj howner).symm

theorem hidden_ensure_bind {β : Type} {f : ProjectRecord → Api β} (huser : userId ≠ τ.owner)
    (hP : ∀ d e, P d e → SameFor τ d e)
    (hf : ∀ project, Foreign τ projectId → Hidden P (SameFor τ) (f project)) :
    Hidden P (SameFor τ) (ensureProjectOwnedByUser projectId userId >>= f) := by
  have hcheck : Hidden P P (ensureProjectOwnedByUser projectId userId) := by
    intro s t hst
    rw [ensure_state]
    exact hst
  apply hcheck.bind hP
  intro project s t hst hok
  obtain ⟨hget, howner⟩ := ensure_ok hok
  exact hf project ((hP s t hst).left.foreign huser hget howner)

theorem hidden_query_pure {α β : Type} (g : Database → α) (f : α → β) :
    Hidden (SameFor τ) (SameFor τ) (do return f (← query g) : Api β) := by
  apply Hidden.query_bind
  intro a
  exact (Hidden.pure _).of_and

theorem hidden_onRedis {α : Type} {q : Database → Redis.Prog α} {C : Redis.Cmd → Prop}
    (hq : ∀ d, Program.Issues C (q d)) (hC : ∀ c, C c → ¬τ.Watches c.key) :
    Hidden (SameFor τ) (SameFor τ) (onRedis q) := by
  apply Hidden.transaction
  intro d e h
  refine { h with redis := ?_ }
  intro now hd he
  have hkeeps : ∀ k, τ.Watches k → (Redis.run (q d) d.redis).2.entry k = d.redis.entry k ∧
      (Redis.run (q d) d.redis).2.clock = d.redis.clock := by
    intro k hk
    apply Redis.run_entry_ne (hq d)
    intro c hc heq
    exact hC c hc (heq ▸ hk)
  refine ⟨rfl, fun k hk => ?_⟩
  obtain ⟨hentry, hclock⟩ := hkeeps k hk
  have hlive : ((Redis.run (q d) d.redis).2.advance now).live k = (d.redis.advance now).live k := by
    simp only [TtlStore.Store.live, TtlStore.Store.advance, hentry]
  rw [hclock] at hd
  exact hlive.trans ((h.redis now hd he).2 k hk)

theorem hidden_insertProject {id : String} {project : ProjectRecord} (hid : Foreign τ id)
    (howner : project.userId ≠ some τ.owner) :
    Hidden (SameFor τ) (SameFor τ) (insertProject id project) := by
  apply Hidden.transaction
  intro d e h
  cases hins : d.projects.insert id project with
  | none => exact h
  | some projects =>
    refine { h with
      left := ?_
      projects := (Table.sameView_insert hins hid.1).trans h.projects }
    intro id' project' hget
    rw [Table.get_insert hins] at hget
    by_cases heq : id' = id
    · rw [if_pos heq] at hget
      rw [heq, ← Option.some.inj hget]
      refine ⟨⟨fun howns => ?_, fun how => absurd how howner⟩, hid.2⟩
      rw [hid.1] at howns
      exact absurd howns (by decide)
    · rw [if_neg heq] at hget
      exact h.left id' project' hget

theorem hidden_updateProject {f : ProjectRecord → ProjectRecord} (hid : Foreign τ projectId)
    (hf : ∀ project, (f project).userId = project.userId) :
    Hidden (SameFor τ) (SameFor τ) (updateProject projectId f) := by
  apply Hidden.transaction
  intro d e h
  have hview : Table.SameView (fun id _ => τ.owns id) (d.projects.update projectId f) d.projects :=
    Table.sameView_update (fun _ _ => hid.1) fun _ _ => hid.1
  refine { h with
    left := ?_
    projects := hview.trans h.projects }
  intro id project hget
  rw [Table.get_update] at hget
  by_cases heq : id = projectId
  · rw [if_pos heq] at hget
    obtain ⟨old, hold, hproject⟩ := Option.map_eq_some_iff.mp hget
    rw [← hproject, hf]
    exact h.left id old hold
  · rw [if_neg heq] at hget
    exact h.left id project hget

theorem hidden_removeProject (hid : Foreign τ projectId) :
    Hidden (SameFor τ) (SameFor τ) (removeProject projectId) := by
  have hnot : ∀ q, decide (q = projectId) = true → τ.owns q = false := by
    intro q hq
    rw [of_decide_eq_true hq]
    exact hid.1
  apply Hidden.transaction
  intro d e h
  cases hget : d.projects.get projectId with
  | none => exact h
  | some project =>
    refine { h with
      left := ?_
      projects := (Table.sameView_deleteWhere fun e _ he => hnot e.1 he).trans h.projects
      ingestKeys := (Table.sameView_deleteWhere fun e _ he => hnot e.2.projectId he).trans
        h.ingestKeys
      incidents := (Table.sameView_deleteWhere fun e _ he => hnot e.2.projectId he).trans
        h.incidents
      models := ?_ }
    · intro id other hother
      have hmem := Table.mem_rows_iff.mpr hother
      exact h.left id other (Table.mem_rows_iff.mp (List.mem_filter.mp hmem).1)
    · rw [← h.models, List.filter_filter]
      apply List.filter_congr
      intro m _
      by_cases hm : m.projectId = projectId
      · rw [hm, hid.1]
        rfl
      · simp [hm]

theorem hidden_insertKey {id : String} {key : IngestKeyRecord} (hid : τ.owns key.projectId = false) :
    Hidden (SameFor τ) (SameFor τ) (insertKey id key) := by
  apply Hidden.transaction
  intro d e h
  split
  · exact h
  · cases hins : d.ingestKeys.insert id key with
    | none => exact h
    | some ingestKeys =>
      exact { h with ingestKeys := (Table.sameView_insert hins hid).trans h.ingestKeys }

/-- The row named is one of a foreign project, if there is one. -/
def ForeignKey (τ : Tenant) (keyId : String) (d : Database) : Prop :=
  ∀ key, d.ingestKeys.get keyId = some key → τ.owns key.projectId = false

theorem hidden_markRevoked {keyId : String} (now : ℕ) :
    Hidden (fun d e => SameFor τ d e ∧ ForeignKey τ keyId d) (SameFor τ) (markRevoked keyId now) := by
  apply Hidden.transaction
  intro d e h
  have hview : Table.SameView (fun _ key => τ.owns key.projectId) (d.ingestKeys.update keyId
      fun key => { key with status := .revoked, revokedAt := some now }) d.ingestKeys :=
    Table.sameView_update h.2 h.2
  exact { h.1 with ingestKeys := hview.trans h.1.ingestKeys }

def ForeignIncident (τ : Tenant) (incidentId : String) (d : Database) : Prop :=
  ∀ i, d.incidents.get incidentId = some i → τ.owns i.projectId = false

theorem hidden_markResolved {incidentId : String} (now : ℕ) :
    Hidden (fun d e => SameFor τ d e ∧ ForeignIncident τ incidentId d) (SameFor τ)
      (markResolved incidentId now) := by
  apply Hidden.transaction
  intro d e h
  have hview : Table.SameView (fun _ i => τ.owns i.projectId) (d.incidents.update incidentId
      fun i => i.closed .resolved now) d.incidents :=
    Table.sameView_update h.2 h.2
  exact { h.1 with incidents := hview.trans h.1.incidents }

theorem hidden_enqueue (ext : External) {message : Message} (newId : String) (now : ℕ)
    (hid : τ.owns message.projectId = false) :
    Hidden (SameFor τ) (SameFor τ) (enqueue ext message newId now) := by
  apply Hidden.transaction
  intro d e h
  have hserved (c : TransportService.EnqueueCall) (hc : τ.owns c.message.projectId = false) :
      Table.SameView (TransportJob.ShownTo τ.owns)
        (TransportService.enqueue ext.config c d.transport).2.rows d.transport.rows :=
    TransportJob.enqueue_hidden hc
  have hview := hserved ⟨message, newId, now, ext.queueReplies newId, none⟩ hid
  dsimp only
  generalize TransportService.enqueue ext.config ⟨message, newId, now, ext.queueReplies newId, none⟩
    d.transport = served at hview ⊢
  exact { h with outbox := hview.trans h.outbox }

theorem hidden_orInternalError {α : Type} {m : Api α} (detail : String)
    (hm : Hidden (SameFor τ) (SameFor τ) m) :
    Hidden (SameFor τ) (SameFor τ) (orInternalError detail m) := by
  apply hm.tryCatch
  intro e
  cases e <;> exact .throw _

end Hidden

/-- What a call of another user must not do: draw one of the tenant's ids for a project, file a
feedback under one of its projects, or count against its webhook tests. -/
def Spares (τ : Tenant) (ext : External) (userId : String) (now : ℕ) : Call → Prop
  | .createProject _ newId => Foreign τ newId
  | .sendFeedback payload _ => τ.owns payload.scope = false
  | .testProjectWebhook projectId _ clientIp =>
    webhookTestKeyAt ext userId now projectId clientIp ∉ τ.testKeys
  | _ => True

section Calls

variable {τ : Tenant} {ext : External} {user : User} {now : ℕ}

theorem hidden_of_owned {β : Type} {projectId : String} {f : ProjectRecord → Api β}
    (huser : user.id ≠ τ.owner)
    (hf : ∀ project, Foreign τ projectId → Hidden (SameFor τ) (SameFor τ) (f project)) :
    Hidden (SameFor τ) (SameFor τ) (ensureProjectOwnedByUser projectId user.id >>= f) :=
  hidden_ensure_bind huser (fun _ _ h => h) hf

theorem hidden_reading {α β : Type} {projectId : String} {g : ProjectRecord → Database → α}
    {f : ProjectRecord → α → β} (huser : user.id ≠ τ.owner) :
    Hidden (SameFor τ) (SameFor τ) (do
      let project ← ensureProjectOwnedByUser projectId user.id
      return f project (← query (g project)) : Api β) :=
  hidden_of_owned huser fun _ _ => hidden_query_pure _ _

theorem hidden_createKey {projectId name newId plaintext : String} (huser : user.id ≠ τ.owner) :
    Hidden (SameFor τ) (SameFor τ) (createKey ext user now projectId name newId plaintext) := by
  apply hidden_of_owned huser
  intro _ hid
  refine (Hidden.ofResult _).bind (fun _ _ h => h) fun normalizedName _ _ _ _ => ?_
  exact (hidden_insertKey hid.1).bind (fun _ _ h => h) fun _ _ _ _ _ => .pure _

theorem hidden_revokeKey {keyId : String} (huser : user.id ≠ τ.owner) :
    Hidden (SameFor τ) (SameFor τ) (revokeKey user now keyId) := by
  apply Hidden.query_bind
  intro found
  cases found with
  | none => exact (Hidden.throw _).of_and
  | some existing =>
    apply hidden_ensure_bind huser fun _ _ h => h.1
    intro _ hid
    by_cases hrevoked : existing.status = .revoked
    · rw [if_pos hrevoked]
      exact (Hidden.pure _).of_and
    · rw [if_neg hrevoked]
      have hmark : Hidden (fun d e => SameFor τ d e ∧ d.ingestKeys.get keyId = some existing)
          (SameFor τ) (markRevoked keyId now) := by
        apply (hidden_markRevoked now).pre
        intro d e h
        refine ⟨h.1, fun key hkey => ?_⟩
        rw [h.2] at hkey
        rw [← Option.some.inj hkey]
        exact hid.1
      refine hmark.bind (fun _ _ h => h) fun revoked _ _ _ _ => ?_
      cases revoked with
      | none => exact .throw _
      | some revoked => exact .pure _

theorem hidden_rotateKey {keyId newId plaintext : String} (huser : user.id ≠ τ.owner) :
    Hidden (SameFor τ) (SameFor τ) (rotateKey ext user now keyId newId plaintext) := by
  apply Hidden.query_bind
  intro found
  cases found with
  | none => exact (Hidden.throw _).of_and
  | some existing =>
    apply hidden_ensure_bind huser fun _ _ h => h.1
    intro _ _
    refine (hidden_revokeKey huser).of_and.bind (fun _ _ h => h) ?_
    exact fun _ _ _ _ _ => hidden_createKey huser

theorem hidden_notifications {i : IncidentRepository.Incident} (id webhookId emailId : String)
    (hid : τ.owns i.projectId = false) :
    Hidden (SameFor τ) (SameFor τ)
      (enqueueIncidentResolvedNotifications ext now id i webhookId emailId) := by
  refine (hidden_enqueue ext webhookId now hid).bind (fun _ _ h => h) fun _ _ _ _ _ => ?_
  apply Hidden.query_bind
  intro enabled
  cases enabled with
  | true =>
    refine Hidden.of_and ?_
    exact (hidden_enqueue ext emailId now hid).bind (fun _ _ h => h) fun _ _ _ _ _ => .pure _
  | false => exact (Hidden.pure _).of_and

theorem hidden_resolveIncident {incidentId webhookId emailId : String} (huser : user.id ≠ τ.owner) :
    Hidden (SameFor τ) (SameFor τ)
      (resolveIncident ext user now incidentId webhookId emailId) := by
  apply Hidden.query_bind
  intro found
  cases found with
  | none => exact (Hidden.throw _).of_and
  | some incident =>
    apply hidden_ensure_bind huser fun _ _ h => h.1
    intro _ hid
    have hmark : Hidden (fun d e => SameFor τ d e ∧ d.incidents.get incidentId = some incident)
        (SameFor τ) (markResolved incidentId now) := by
      apply (hidden_markResolved now).pre
      intro d e h
      refine ⟨h.1, fun i hi => ?_⟩
      rw [h.2] at hi
      rw [← Option.some.inj hi]
      exact hid.1
    refine hmark.bind (fun _ _ h => h) fun resolved d _ hd hok => ?_
    have hupdated : resolved = some (incident.closed .resolved now) := by
      have hget : some ((d.incidents.update incidentId fun i => i.closed .resolved now).get
          incidentId) = some resolved := congrArg (fun r => r.toOption) hok
      rw [Table.get_update, if_pos rfl, hd.2] at hget
      exact (Option.some.inj hget).symm
    rw [hupdated]
    have hforeign : Foreign τ (incident.closed .resolved now).projectId := hid
    refine (hidden_onRedis (fun _ => releaseIncidentLock_onProject _ _ _) fun c hc =>
      Tenant.not_watches hforeign.1 hforeign.2 hc).bind (fun _ _ h => h) fun _ _ _ _ _ => ?_
    exact (hidden_notifications _ _ _ hforeign.1).bind (fun _ _ h => h) fun _ _ _ _ _ => .pure _

theorem hidden_updateWebhook {projectId : String} {payload : ProjectWebhookIn}
    (huser : user.id ≠ τ.owner) :
    Hidden (SameFor τ) (SameFor τ) (updateProjectWebhook ext user now projectId payload) := by
  apply hidden_of_owned huser
  intro _ hid
  refine (Hidden.ofResult _).bind (fun _ _ h => h) fun _ _ _ _ _ => ?_
  split
  · exact .throw _
  · apply hidden_of_owned huser
    intro _ _
    refine (hidden_updateProject (f := fun project => project.withWebhook payload _) hid
      fun _ => rfl).bind (fun _ _ h => h) fun updated _ _ _ _ => ?_
    cases updated with
    | none => exact .throw _
    | some updated => exact hidden_query_pure _ _

theorem hidden_testWebhook {projectId clientIp : String} {url : Option String}
    (huser : user.id ≠ τ.owner)
    (hkey : webhookTestKeyAt ext user.id now projectId clientIp ∉ τ.testKeys) :
    Hidden (SameFor τ) (SameFor τ) (testProjectWebhook ext user now projectId url clientIp) := by
  have hlimit : Hidden (SameFor τ) (SameFor τ) (onRedis fun _ =>
      enforceWebhookTestRateLimit ext (webhookTestKeyAt ext user.id now projectId clientIp)) := by
    apply hidden_onRedis fun _ => enforceWebhookTestRateLimit_issues ext _
    intro c hc
    rw [hc]
    exact Tenant.not_watches_test hkey
  refine hlimit.bind (fun _ _ h => h) fun _ _ _ _ _ => ?_
  apply hidden_of_owned huser
  intro project _
  split
  · exact .throw _
  · refine (Hidden.ofResult _).bind (fun _ _ h => h) fun _ _ _ _ _ => ?_
    exact .ofResult _

theorem hidden_metrics {α : Type} {projectId : String}
    {q : Database → Redis.Prog α} {f : α → Body} (huser : user.id ≠ τ.owner)
    (hq : ∀ d, Program.Issues (OnProject projectId) (q d)) :
    Hidden (SameFor τ) (SameFor τ) (do
      let _ ← ensureProjectOwnedByUser projectId user.id
      return f (← onRedis q) : Api Body) := by
  apply hidden_of_owned huser
  intro _ hid
  refine (hidden_onRedis hq fun c hc => Tenant.not_watches hid.1 hid.2 hc).bind
    (fun _ _ h => h) fun _ _ _ _ _ => ?_
  exact .pure _

theorem hidden_sendFeedback {payload : FeedbackIn} {newId : String}
    (h : τ.owns payload.scope = false) :
    Hidden (SameFor τ) (SameFor τ) (sendFeedback ext user now payload newId) := by
  unfold sendFeedback
  dsimp only
  split
  · exact .throw _
  · have hscope : τ.owns (feedbackMessage ext user now payload
        (PyText.strip payload.message)).projectId = false := by
      rw [feedbackMessage_projectId]
      exact h
    have henqueue : Hidden (SameFor τ) (SameFor τ)
        (enqueue ext (feedbackMessage ext user now payload (PyText.strip payload.message))
          newId now) := hidden_enqueue ext newId now hscope
    refine henqueue.bind (fun _ _ h => h) fun answer _ _ _ _ => ?_
    cases answer with
    | ok id => exact .pure _
    | error raised =>
      dsimp only
      split
      · exact .throw _
      · exact .throw _

theorem foreign_call_hidden {call : Call} (huser : user.id ≠ τ.owner)
    (h : Spares τ ext user.id now call) :
    Hidden (SameFor τ) (SameFor τ) (endpoint ext user now call) := by
  have hid : ∀ d e, SameFor τ d e → SameFor τ d e := fun _ _ h => h
  cases call with
  | listProjects => exact hidden_orInternalError _ (hidden_query_pure _ _)
  -- the new project belongs to the other user
  | createProject name newId =>
    apply hidden_orInternalError
    refine (Hidden.ofResult _).bind hid fun normalizedName _ _ _ _ => ?_
    apply Hidden.query_bind
    intro existing
    refine Hidden.of_and ?_
    cases existing with
    | some _ => exact .throw _
    | none =>
      have howner : some user.id ≠ some τ.owner := fun heq => huser (Option.some.inj heq)
      exact (hidden_insertProject h howner).bind hid fun _ _ _ _ _ => .pure _
  | listProjectProviders projectId => exact hidden_orInternalError _ (hidden_reading huser)
  -- only a project of the other user is removed, with its rows
  | deleteProject projectId =>
    apply hidden_orInternalError
    apply hidden_of_owned huser
    intro _ hforeign
    refine (hidden_removeProject hforeign).bind hid fun deleted _ _ _ _ => ?_
    cases deleted with
    | true => exact .pure _
    | false => exact .throw _
  | listProjectKeys projectId => exact hidden_orInternalError _ (hidden_reading huser)
  | createProjectKey projectId name newId plaintext =>
    exact hidden_orInternalError _ (hidden_createKey huser)
  | revokeKey keyId => exact hidden_orInternalError _ (hidden_revokeKey huser)
  | rotateKey keyId newId plaintext => exact hidden_orInternalError _ (hidden_rotateKey huser)
  | getProjectProtect projectId =>
    exact hidden_orInternalError _ (hidden_of_owned huser fun _ _ => .pure _)
  | updateProjectProtect projectId payload =>
    apply hidden_orInternalError
    apply hidden_of_owned huser
    intro _ hforeign
    refine (hidden_updateProject (f := fun project => project.withProtect payload) hforeign
      fun _ => rfl).bind hid fun updated _ _ _ _ => ?_
    cases updated with
    | none => exact .throw _
    | some updated => exact .pure _
  | getProjectWebhook projectId => exact hidden_orInternalError _ (hidden_reading huser)
  | updateProjectWebhook projectId payload =>
    exact hidden_orInternalError _ (hidden_updateWebhook huser)
  -- the counter of the test has another user in its key
  | testProjectWebhook projectId url clientIp =>
    exact hidden_orInternalError _ (hidden_testWebhook huser h)
  | getRealtimeMetrics projectId provider =>
    exact hidden_orInternalError _ (hidden_metrics huser fun _ => getRealtime_onProject _ _ _ _)
  | getProtectMetrics projectId provider =>
    exact hidden_orInternalError _
      (hidden_metrics huser fun _ => getProtectMetrics_onProject _ _ _ _)
  | getProtectHealth projectId provider =>
    exact hidden_orInternalError _ (hidden_metrics huser fun _ => getProtectHealth_onProject _ _ _ _)
  | getDeliveryFailures projectId kind =>
    exact hidden_orInternalError _ (hidden_of_owned huser fun _ _ => hidden_query_pure _ _)
  | listIncidents projectId status provider => exact hidden_orInternalError _ (hidden_reading huser)
  | resolveIncident incidentId webhookId emailId =>
    exact hidden_orInternalError _ (hidden_resolveIncident huser)
  -- feedback goes to the project the payload names, if any
  | sendFeedback payload newId =>
    exact hidden_orInternalError _ (hidden_sendFeedback h)

end Calls

end Rheonic.UserApi
