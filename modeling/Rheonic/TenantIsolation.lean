import Rheonic.OwnCalls

namespace Rheonic.UserApi
open Unwinding RowTable Keys
open TransportJob (ShownTo DeliveryJob)

section Unnamed

variable {τ : Tenant} {ext : External} {user : User} {now : ℕ} {d e : Database} {call : Call}

theorem orInternalError_state {α : Type} {detail : String} {m : Api α} :
    (exec (orInternalError detail m) d).2 = (exec m d).2 := by
  unfold orInternalError
  rw [exec_tryCatch]
  rcases exec m d with ⟨error | a, s⟩
  · cases error <;> rfl
  · rfl

theorem refused_state {β : Type} {projectId : String} {f : ProjectRecord → Api β}
    (huser : user.id = τ.owner) (h : WellFormed τ d) (hid : τ.owns projectId = false) :
    (exec (ensureProjectOwnedByUser projectId user.id >>= f) d).2 = d := by
  have hrefused := ensure_refused h hid
  have hstate : (exec (ensureProjectOwnedByUser projectId τ.owner) d).2 = d := ensure_state
  rw [huser, exec_bind]
  generalize exec (ensureProjectOwnedByUser projectId τ.owner) d = served at hrefused hstate
  obtain ⟨answer, after⟩ := served
  dsimp only at hrefused hstate
  rw [hrefused, hstate]

theorem not_ownKey {keyId : String} {key : IngestKeyRecord} (h : ¬OwnKey τ keyId d)
    (hget : d.ingestKeys.get keyId = some key) : τ.owns key.projectId = false := by
  rw [← Bool.not_eq_true]
  exact fun howns => h ⟨key, hget, howns⟩

theorem unnamed_revokeKey {keyId : String} (huser : user.id = τ.owner) (h : WellFormed τ d)
    (hkey : ¬OwnKey τ keyId d) : (exec (revokeKey user now keyId) d).2 = d := by
  unfold revokeKey
  rw [exec_bind, exec_query]
  dsimp only
  cases hget : d.ingestKeys.get keyId with
  | none => rfl
  | some existing => exact refused_state huser h (not_ownKey hkey hget)

theorem unnamed_rotateKey {keyId newId plaintext : String} (huser : user.id = τ.owner)
    (h : WellFormed τ d) (hkey : ¬OwnKey τ keyId d) :
    (exec (rotateKey ext user now keyId newId plaintext) d).2 = d := by
  unfold rotateKey
  rw [exec_bind, exec_query]
  dsimp only
  cases hget : d.ingestKeys.get keyId with
  | none => rfl
  | some existing => exact refused_state huser h (not_ownKey hkey hget)

theorem unnamed_resolveIncident {incidentId webhookId emailId : String}
    (huser : user.id = τ.owner) (h : WellFormed τ d) (hincident : ¬OwnIncident τ incidentId d) :
    (exec (resolveIncident ext user now incidentId webhookId emailId) d).2 = d := by
  unfold resolveIncident
  rw [exec_bind, exec_query]
  dsimp only
  cases hget : d.incidents.get incidentId with
  | none => rfl
  | some incident =>
    have hid : τ.owns incident.projectId = false := by
      rw [← Bool.not_eq_true]
      exact fun howns => hincident ⟨incident, hget, howns⟩
    exact refused_state huser h hid

theorem SameFor.names (h : SameFor τ d e) (he : Names τ e call) : Names τ d call := by
  cases call with
  | revokeKey keyId =>
    obtain ⟨key, hkey, howns⟩ := he
    exact ⟨key, h.symm.ingestKeys.get hkey howns, howns⟩
  | rotateKey keyId newId plaintext =>
    obtain ⟨key, hkey, howns⟩ := he
    exact ⟨key, h.symm.ingestKeys.get hkey howns, howns⟩
  | resolveIncident incidentId webhookId emailId =>
    obtain ⟨i, hi, howns⟩ := he
    exact ⟨i, h.symm.incidents.get hi howns, howns⟩
  | _ => exact he

theorem unnamed_call_same (huser : user.id = τ.owner) (h : SameFor τ d e)
    (hnames : ¬Names τ d call) :
    SameFor τ (exec (endpoint ext user now call) d).2 (exec (endpoint ext user now call) e).2 := by
  have hnames' : ¬Names τ e call := fun he => hnames (h.names he)
  cases call with
  | revokeKey keyId =>
    simp only [endpoint, orInternalError_state]
    rw [unnamed_revokeKey huser h.left hnames, unnamed_revokeKey huser h.right hnames']
    exact h
  | rotateKey keyId newId plaintext =>
    simp only [endpoint, orInternalError_state]
    rw [unnamed_rotateKey huser h.left hnames, unnamed_rotateKey huser h.right hnames']
    exact h
  | resolveIncident incidentId webhookId emailId =>
    simp only [endpoint, orInternalError_state]
    rw [unnamed_resolveIncident huser h.left hnames, unnamed_resolveIncident huser h.right hnames']
    exact h
  | sendFeedback payload newId =>
    have hscope : τ.owns payload.scope = false := by
      rw [← Bool.not_eq_true]
      exact hnames
    have hfeedback : ∀ d e, SameFor τ d e → SameFor τ
        (exec (endpoint ext user now (.sendFeedback payload newId)) d).2 e :=
      hidden_orInternalError _ (hidden_sendFeedback hscope)
    exact (hfeedback e _ (hfeedback d e h).symm).symm
  | _ => exact absurd trivial hnames

/-- A call of the tenant's user keeps the views the same; it is answered alike where what it
names is the tenant's. -/
theorem own_call_same (huser : user.id = τ.owner) (hb : Belongs τ ext now call)
    (h : Beside τ now d e) (hd : Drawn ext d call) (he : Drawn ext e call) :
    SameFor τ (exec (endpoint ext user now call) d).2 (exec (endpoint ext user now call) e).2 ∧
      (Names τ d call → (exec (endpoint ext user now call) d).1 =
        (exec (endpoint ext user now call) e).1) := by
  by_cases hnames : Names τ d call
  · obtain ⟨hanswer, hafter⟩ := own_call_lockstep huser hb d e ⟨h, hd, he, hnames⟩
    exact ⟨hafter.same, fun _ => hanswer⟩
  · exact ⟨unnamed_call_same huser h.same hnames, fun hn => absurd hn hnames⟩

end Unnamed

section Worker

variable {τ : Tenant} {ext : External} {d e : Database} {job : DeliveryJob}

theorem preparedJob_congr (h : SameFor τ d e) {row : TransportOutbox.Outbox}
    (hrow : d.transport.rows.get job.outboxId = some row)
    (howned : τ.owns row.message.projectId = true) :
    preparedJob ext job d = preparedJob ext job e := by
  have hrow' : e.transport.rows.get job.outboxId = some row := h.outbox.get hrow howned
  have hproject : projectOfRow job.outboxId d = projectOfRow job.outboxId e := by
    unfold projectOfRow
    rw [hrow, hrow']
    exact h.get_project howned
  unfold preparedJob
  rw [hproject, hrow, hrow']

theorem hidden_work (h : SameFor τ d e)
    (hrow : ∀ row, d.transport.rows.get job.outboxId = some row →
      τ.owns row.message.projectId = false) : SameFor τ (work ext job d) e := by
  have hother : TransportJob.Elsewhere τ.owns (preparedJob ext job d).outboxId d.transport := hrow
  exact { h with outbox := (TransportJob.processOutboxDelivery_hidden hother).trans h.outbox }

theorem work_same (h : SameFor τ d e) (hd : RowFree job.emailId d) (he : RowFree job.emailId e) :
    SameFor τ (work ext job d) (work ext job e) := by
  by_cases hshown : ∃ row, d.transport.rows.get job.outboxId = some row ∧
      τ.owns row.message.projectId = true
  · obtain ⟨row, hrow, howned⟩ := hshown
    have halong : TransportJob.Alongside τ.owns (preparedJob ext job d) d.transport e.transport :=
      ⟨h.outbox, ⟨row, hrow, howned⟩, hd, he⟩
    refine { h with outbox := ?_ }
    unfold work
    rw [← preparedJob_congr h hrow howned]
    exact TransportJob.processOutboxDelivery_lockstep halong
  · have hleft : ∀ row, d.transport.rows.get job.outboxId = some row →
        τ.owns row.message.projectId = false := by
      intro row hrow
      rw [← Bool.not_eq_true]
      exact fun howned => hshown ⟨row, hrow, howned⟩
    have hright : ∀ row, e.transport.rows.get job.outboxId = some row →
        τ.owns row.message.projectId = false := by
      intro row hrow
      rw [← Bool.not_eq_true]
      exact fun howned => hshown ⟨row, h.symm.outbox.get hrow howned, howned⟩
    exact (hidden_work (hidden_work h hleft).symm hright).symm

end Worker

/-- A step of the system: a call of one of two users, or a delivery job. -/
inductive Step
  | ofA (now : ℕ) (call : Call)
  | ofB (now : ℕ) (call : Call)
  | deliver (job : DeliveryJob)

section System

variable (ext : External) (a b : User)

def step (d : Database) : Step → Option (Except Exn Body) × Database
  | .ofA now call => ((serveCall ext a now call d).1, (serveCall ext a now call d).2)
  | .ofB now call => ((serveCall ext b now call d).1, (serveCall ext b now call d).2)
  | .deliver job => (none, work ext job d)

/-- Time does not go back, and what is drawn is new. -/
def Guard (d : Database) : Step → Prop
  | .ofA now call => d.redis.clock ≤ now ∧ Drawn ext d call
  | .ofB now call => d.redis.clock ≤ now ∧ Drawn ext d call
  | .deliver job => RowFree job.emailId d

def Step.visible : Step → Bool
  | .ofA _ _ => false
  | _ => true

def OwnedBy (d : Database) (userId projectId : String) : Prop :=
  ∃ project, d.projects.get projectId = some project ∧ project.userId = some userId

/-- The call of B is on its own projects: what it names without a check belongs to one of them. -/
def OnOwn (d : Database) : Step → Prop
  | .ofB _ (.revokeKey keyId) =>
    ∃ key, d.ingestKeys.get keyId = some key ∧ OwnedBy d b.id key.projectId
  | .ofB _ (.rotateKey keyId _ _) =>
    ∃ key, d.ingestKeys.get keyId = some key ∧ OwnedBy d b.id key.projectId
  | .ofB _ (.resolveIncident incidentId _ _) =>
    ∃ i, d.incidents.get incidentId = some i ∧ OwnedBy d b.id i.projectId
  | .ofB _ (.sendFeedback payload _) => OwnedBy d b.id payload.scope
  | _ => True

def Step.createdId : Step → Option String
  | .ofA _ (.createProject _ newId) => some newId
  | .ofB _ (.createProject _ newId) => some newId
  | _ => none

def Step.ownId : Step → Option String
  | .ofB _ (.createProject _ newId) => some newId
  | _ => none

def Step.testKey : Step → Option String
  | .ofB now (.testProjectWebhook projectId _ clientIp) =>
    some (webhookTestKeyAt ext b.id now projectId clientIp)
  | _ => none

/-- The projects that B has at the start and those that it creates. -/
def projectsOfB (d : Database) (steps : List Step) : List String :=
  (d.projects.select fun _ project => project.userId = some b.id).map Prod.fst ++
    steps.filterMap Step.ownId

/-- B as a tenant. -/
def tenantOfB (d : Database) (steps : List Step) : Tenant where
  owner := b.id
  projects := projectsOfB b d steps
  testKeys := steps.filterMap (Step.testKey ext b)
  limits_tests := by
    intro k hk
    obtain ⟨s, _, hs⟩ := List.mem_filterMap.mp hk
    unfold Step.testKey at hs
    split at hs
    · exact ⟨_, _, _, _, (Option.some.inj hs).symm⟩
    · exact absurd hs (by simp)

/-- The id of a project is drawn once, and no id contains a colon. -/
structure FreshIds (d : Database) (steps : List Step) : Prop where
  old : ∀ id project, d.projects.get id = some project → ':' ∉ id.toList
  new : ∀ id ∈ steps.filterMap Step.createdId, d.projects.get id = none ∧ ':' ∉ id.toList
  once : (steps.filterMap Step.createdId).Nodup

/-- No feedback of A is filed under a project of B, and no webhook test of A counts against the
rate limit of one of B. -/
structure Apart (d : Database) (steps : List Step) : Prop where
  feedback : ∀ now payload newId, Step.ofA now (.sendFeedback payload newId) ∈ steps →
    payload.scope ∉ projectsOfB b d steps
  tests : ∀ now projectId url clientIp,
    Step.ofA now (.testProjectWebhook projectId url clientIp) ∈ steps →
      webhookTestKeyAt ext a.id now projectId clientIp ∉ steps.filterMap (Step.testKey ext b)

end System

section Isolation

variable {ext : External} {a b : User} {d e : Database} {steps : List Step}

theorem mem_projectsOfB {id : String} {project : ProjectRecord}
    (hget : d.projects.get id = some project) (howner : project.userId = some b.id) :
    id ∈ projectsOfB b d steps := by
  apply List.mem_append_left
  apply List.mem_map.mpr
  exact ⟨(id, project), List.mem_filter.mpr ⟨Table.mem_rows_iff.mpr hget, by simpa using howner⟩, rfl⟩

theorem Step.createdId_of_ownId {s : Step} {id : String} (h : s.ownId = some id) :
    s.createdId = some id := by
  cases s with
  | ofA now call => exact absurd h (by simp [Step.ownId])
  | ofB now call =>
    cases call with
    | createProject name newId => exact h
    | _ => exact absurd h (by simp [Step.ownId])
  | deliver job => exact absurd h (by simp [Step.ownId])

theorem FreshIds.wellFormed (h : FreshIds d steps) : WellFormed (tenantOfB ext b d steps) d := by
  intro id project hget
  refine ⟨⟨fun howns => ?_, fun howner => ?_⟩, h.old id project hget⟩
  · have hmem : id ∈ projectsOfB b d steps := of_decide_eq_true howns
    rcases List.mem_append.mp hmem with hown | hcreated
    · obtain ⟨row, hrow, hid⟩ := List.mem_map.mp hown
      obtain ⟨hrow, howner⟩ := List.mem_filter.mp hrow
      have hfound : d.projects.get id = some row.2 := hid ▸ Table.mem_rows_iff.mp hrow
      rw [hget] at hfound
      rw [Option.some.inj hfound]
      exact of_decide_eq_true howner
    · obtain ⟨s, hs, hid⟩ := List.mem_filterMap.mp hcreated
      have hnew := h.new id (List.mem_filterMap.mpr ⟨s, hs, Step.createdId_of_ownId hid⟩)
      rw [hget] at hnew
      exact absurd hnew.1 (by simp)
  · exact decide_eq_true (mem_projectsOfB hget howner)

/-- A step of A that the tenant cannot see, or one of B that adds to the tenant. -/
def Fitting (τ : Tenant) (ext : External) (a : User) : Step → Prop
  | .ofA now call => Spares τ ext a.id now call
  | .ofB now call => Belongs τ ext now call
  | .deliver _ => True

theorem FreshIds.foreign (h : FreshIds d steps) {now : ℕ} {name newId : String}
    (hs : Step.ofA now (.createProject name newId) ∈ steps) :
    Foreign (tenantOfB ext b d steps) newId := by
  obtain ⟨hfree, hcolon⟩ := h.new newId (List.mem_filterMap.mpr ⟨_, hs, rfl⟩)
  refine ⟨decide_eq_false fun hmem => ?_, hcolon⟩
  rcases List.mem_append.mp hmem with hown | hcreated
  · obtain ⟨row, hrow, hid⟩ := List.mem_map.mp hown
    have hfound : d.projects.get newId = some row.2 :=
      hid ▸ Table.mem_rows_iff.mp (List.mem_filter.mp hrow).1
    rw [hfree] at hfound
    exact absurd hfound (by simp)
  · -- an id of both users would have been drawn twice
    obtain ⟨s, hs', hid⟩ := List.mem_filterMap.mp hcreated
    have hne : Step.ofA now (.createProject name newId) ≠ s := by
      rintro rfl
      exact absurd hid (by simp [Step.ownId])
    have hsymm : Std.Symm fun s s' : Step => ∀ id, s.createdId = some id →
        ∀ id', s'.createdId = some id' → id ≠ id' :=
      ⟨fun _ _ h id hid id' hid' => (h id' hid' id hid).symm⟩
    have hdiff := (List.pairwise_filterMap.mp h.once).forall hs hs' hne
    exact hdiff newId rfl newId (Step.createdId_of_ownId hid) rfl

theorem fitting_of_apart (hfresh : FreshIds d steps) (hapart : Apart ext a b d steps) :
    ∀ s ∈ steps, Fitting (tenantOfB ext b d steps) ext a s := by
  intro s hs
  cases s with
  | ofA now call =>
    cases call with
    | createProject name newId => exact hfresh.foreign hs
    | sendFeedback payload newId =>
      exact decide_eq_false (hapart.feedback now payload newId hs)
    | testProjectWebhook projectId url clientIp => exact hapart.tests now projectId url clientIp hs
    | _ => trivial
  | ofB now call =>
    cases call with
    | createProject name newId =>
      have hcreated := hfresh.new newId (List.mem_filterMap.mpr ⟨_, hs, rfl⟩)
      have hown : newId ∈ projectsOfB b d steps :=
        List.mem_append_right _ (List.mem_filterMap.mpr ⟨_, hs, rfl⟩)
      exact ⟨decide_eq_true hown, hcreated.2⟩
    | testProjectWebhook projectId url clientIp =>
      exact List.mem_filterMap.mpr ⟨_, hs, rfl⟩
    | _ => trivial
  | deliver job => trivial

theorem OnOwn.names {τ : Tenant} (howner : τ.owner = b.id) (h : WellFormed τ d) {now : ℕ}
    {call : Call} (hown : OnOwn b d (.ofB now call)) : Names τ d call := by
  have howns : ∀ projectId, OwnedBy d b.id projectId → τ.owns projectId = true := by
    intro projectId hproject
    obtain ⟨project, hget, huser⟩ := hproject
    exact h.owns hget (howner ▸ huser)
  cases call with
  | revokeKey keyId =>
    obtain ⟨key, hkey, hproject⟩ := hown
    exact ⟨key, hkey, howns _ hproject⟩
  | rotateKey keyId newId plaintext =>
    obtain ⟨key, hkey, hproject⟩ := hown
    exact ⟨key, hkey, howns _ hproject⟩
  | resolveIncident incidentId webhookId emailId =>
    obtain ⟨i, hi, hproject⟩ := hown
    exact ⟨i, hi, howns _ hproject⟩
  | sendFeedback payload newId => exact howns _ hown
  | _ => trivial

theorem hidden_step {τ : Tenant} (ha : a.id ≠ τ.owner) {s : Step} (hs : s.visible = false)
    (hguard : Guard ext d s) (hfit : Fitting τ ext a s) (h : SameFor τ d e) :
    SameFor τ (step ext a b d s).2 e := by
  cases s with
  | ofA now call => exact foreign_call_hidden ha hfit _ _ (h.advance_left hguard.1)
  | ofB now call => exact absurd hs (by simp [Step.visible])
  | deliver job => exact absurd hs (by simp [Step.visible])

theorem visible_step {τ : Tenant} (hb : b.id = τ.owner) {s : Step} (hs : s.visible = true)
    (hd : Guard ext d s) (he : Guard ext e s) (hfit : Fitting τ ext a s) (h : SameFor τ d e) :
    SameFor τ (step ext a b d s).2 (step ext a b e s).2 ∧
      (OnOwn b d s → (step ext a b d s).1 = (step ext a b e s).1) := by
  cases s with
  | ofA now call => exact absurd hs (by simp [Step.visible])
  | deliver job => exact ⟨work_same h hd he, fun _ => rfl⟩
  | ofB now call =>
    have hbeside : Beside τ now { d with redis := d.redis.advance now }
        { e with redis := e.redis.advance now } := ⟨h.advance hd.1 he.1, rfl, rfl⟩
    have hdrawn : ∀ {d : Database}, Drawn ext d call →
        Drawn ext { d with redis := d.redis.advance now } call := by
      intro d hdrawn
      cases call <;> exact hdrawn
    obtain ⟨hafter, hanswer⟩ := own_call_same hb hfit hbeside (hdrawn hd.2) (hdrawn he.2)
    refine ⟨hafter, fun hown => congrArg some (hanswer ?_)⟩
    have hnames : Names τ d call := hown.names hb.symm h.left
    cases call <;> exact hnames

/-- Leaving out what A calls changes no answer that B is given on its own projects, as long as no
feedback of A is filed under one of them. -/
theorem user_api_isolates_tenants {log log' : List (Entry Database Step (Option (Except Exn Body)))}
    {d₁ d₂ : Database} (hne : a.id ≠ b.id) (hfresh : FreshIds d steps)
    (hapart : Apart ext a b d steps) (hrun : Runs (step ext a b) (Guard ext) d steps log d₁)
    (hrun' : Runs (step ext a b) (Guard ext) d (steps.filter Step.visible) log' d₂) :
    List.Forall₂ (fun s s' => s.action = s'.action ∧
        (OnOwn b s.before s.action → s.answer = s'.answer))
      (log.filter fun s => s.action.visible) log' := by
  have hfit := fitting_of_apart hfresh hapart
  have hfit' : ∀ s ∈ steps.filter Step.visible, Fitting (tenantOfB ext b d steps) ext a s :=
    fun s hs => hfit s (List.mem_filter.mp hs).1
  apply answers_alike (R := SameFor (tenantOfB ext b d steps)) ?_ ?_ (hrun.of_forall hfit)
    (hrun'.of_forall hfit') (.refl hfresh.wellFormed)
  · intro s t x hx hguard h
    exact hidden_step hne hx hguard.1 hguard.2 h
  · intro s t x hx hguard hguard' h
    exact visible_step rfl hx hguard.1 hguard'.1 hguard.2 h

end Isolation

section Sample

/-- A deployment without an e-mail provider. -/
def sampleExternal : External where
  encode := fun _ => "{}"
  dedupeKey := fun source => source.projectId ++ "/" ++ source.eventType
  failureKey := fun id _ => id
  hashKey := fun key => key
  isoformat := fun _ => "2026-01-01T00:00:00+00:00"
  queueReplies := fun _ => {}
  ensureWebhookUrlIsSafe := fun _ _ => .ok ()
  sendWebhookTestRequest := fun _ _ _ => .response 200
  deliver := fun _ _ _ => .error ⟨.emailProviderNotConfigured, "email provider is not configured"⟩

def sampleA : User := ⟨"a", "a@mail"⟩

def sampleB : User := ⟨"b", "b@mail"⟩

/-- B has one project. -/
def sampleStart : Database where
  projects := ⟨[("p", { name := "shop", userId := some "b", createdAt := 0 })], List.nodup_singleton _⟩
  ingestKeys := .empty
  incidents := .empty
  events := []
  projectModels := []
  transport := { rows := .empty }
  redis := TtlStore.Store.empty 0

/-- A files a feedback, its mail fails, and B asks for the delivery failures of its project. -/
def misfiled (projectId : Option String) : List Step :=
  [.ofA 1000 (.sendFeedback { message := "hello", projectId := projectId } "row"),
    .deliver
      { outboxId := "row", claimedAt := 2000, failedAt := 2000, markedAt := 2000,
        delivery := .ok (), emailId := "mail" },
    .ofB 3000 (.getDeliveryFailures "p" .email)]

theorem sample_fresh (projectId : Option String) : FreshIds sampleStart (misfiled projectId) where
  old := by
    intro id project hget
    have hrow : (id, project) ∈ sampleStart.projects.rows := Table.mem_rows_iff.mpr hget
    rw [(Prod.mk.inj (List.mem_singleton.mp hrow)).1]
    decide
  new := fun _ hid => absurd hid List.not_mem_nil
  once := List.nodup_nil

/-- The count in an answer about delivery failures. -/
def failuresShown : Option (Except Exn Body) → Option ℕ
  | some (.ok (.deliveryFailures d)) => some d.count
  | _ => none

/-- A feedback of A under the project of B is counted among the failures that B sees. -/
theorem misfiled_feedback_shows :
    ∃ (log log' : List (Entry Database Step (Option (Except Exn Body)))) (d₁ d₂ : Database),
      Runs (step sampleExternal sampleA sampleB) (Guard sampleExternal) sampleStart
        (misfiled (some "p")) log d₁ ∧
      Runs (step sampleExternal sampleA sampleB) (Guard sampleExternal) sampleStart
        ((misfiled (some "p")).filter Step.visible) log' d₂ ∧
      FreshIds sampleStart (misfiled (some "p")) ∧
      ¬List.Forall₂ (fun s s' => s.action = s'.action ∧
          (OnOwn sampleB s.before s.action → s.answer = s'.answer))
        (log.filter fun s => s.action.visible) log' := by
  refine ⟨_, _, _, _, .cons ⟨by decide, rfl⟩ (.cons rfl (.cons ⟨by decide, trivial⟩ (.nil _))),
    .cons rfl (.cons ⟨by decide, trivial⟩ (.nil _)), sample_fresh _, ?_⟩
  intro h
  cases h with
  | cons _ hrest =>
    cases hrest with
    | cons hlast _ =>
      have hanswer := congrArg failuresShown (hlast.2 trivial)
      exact absurd hanswer (by decide +kernel)

theorem sample_apart : Apart sampleExternal sampleA sampleB sampleStart (misfiled none) where
  feedback := by
    intro now payload newId hs
    rcases List.mem_cons.mp hs with h | hs
    · have hpayload : payload = { message := "hello", projectId := none } := by
        injection h with _ hcall
        injection hcall
      rw [hpayload]
      decide +kernel
    · exact absurd hs (by simp)
  tests := by
    intro now projectId url clientIp hs
    exact absurd hs (by simp [misfiled])

/-- The same run with a feedback that names no project. -/
theorem sample_isolated :
    ∃ (log log' : List (Entry Database Step (Option (Except Exn Body)))),
      List.Forall₂ (fun s s' => s.action = s'.action ∧
          (OnOwn sampleB s.before s.action → s.answer = s'.answer))
        (log.filter fun s => s.action.visible) log' ∧ log'.length = 2 :=
  ⟨_, _, user_api_isolates_tenants (a := sampleA) (b := sampleB) (by decide) (sample_fresh none)
    sample_apart
    (.cons ⟨by decide, rfl⟩ (.cons rfl (.cons ⟨by decide, trivial⟩ (.nil _))))
    (.cons rfl (.cons ⟨by decide, trivial⟩ (.nil _))), rfl⟩

end Sample

end Rheonic.UserApi
