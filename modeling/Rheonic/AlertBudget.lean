import Rheonic.AlertRuns
import Rheonic.OutcomeConservation

namespace Rheonic.ProtectAlerts
open CommandProgram Redis Keys PyText ProtectActionStore ProtectService ProtectApi ProtectBackend
open RollingWindow (Point incrementProject60s incrementProject60s_issues)
open IncidentManager (Manager)

/-- What a live call has decided so far. -/
def made : LiveStage → Option ProtectDecision
  | .evaluated d => some d
  | .finalized d _ => some d
  | .cooled d _ => some d
  | _ => none

namespace Task

def OnTime (now : ℕ) : Task → Prop
  | live _ stage => ∀ d ∈ made stage, Timely d now
  | report _ _ => True

/-- What the next step of a task is to tell of, and in which scope. -/
inductive Owes (isoformat : ℤ → String) : Task → Scope → Option Occasion → Prop
  | live {c : LiveTask} {d : ProtectDecision} {o : Option Occasion} (hintime : c.InTime d)
    (howes : c.Owes isoformat d o) : Owes isoformat (.live c (.cooled d true)) c.scope o
  | report {q : ReportTask} (henabled : q.project.protectEnabled = true)
    (hclosed : q.project.protectFailMode = "closed") :
    Owes isoformat (.report q .reconciled) q.scope (some (.failClosed q.marker))

theorem OnTime.mono {task : Task} {now t : ℕ} (h : task.OnTime now) (ht : now ≤ t) :
    task.OnTime t := by
  cases task with
  | live c stage => exact fun d hd => (h d hd).mono ht
  | report q stage => exact trivial

theorem onTime_ended {now : ℕ} (c : LiveTask) : (live c .ended).OnTime now :=
  fun d hd => absurd hd (Option.not_mem_none d)

end Task

section Steps

variable {isoformat : ℤ → String} {settings : Settings} {m : Manager}
  {increments : List (String × Point)} {now : ℕ} {x : Desk} {s' : Store}

/-- What one step of a task leaves: the markers stand for the alerts, a task raises an alert only
when it ends, and what it owes is told, and nothing else. -/
structure Stepped (isoformat : ℤ → String) (settings : Settings)
    (increments : List (String × Point)) (now : ℕ) (x : Desk) (task : Task) (r : Task × Desk) :
    Prop where
  gated : Gated settings r.2.alerts r.2.backend.redis
  windows : Tracked increments now r.2.backend.redis
  onTime : r.1.OnTime now
  count : r.2.alerts.length + task.ended.toNat ≤ x.alerts.length + r.1.ended.toNat
  told : ∀ scope o, task.Owes isoformat scope o → Told r.2.alerts scope o now
  due : ∀ a ∈ r.2.alerts, a ∈ x.alerts ∨ task.Owes isoformat a.scope a.occasion ∧ a.sentAt = now

/-- A step without notifications. -/
theorem Stepped.quiet (hgated : Gated settings x.alerts x.backend.redis)
    (hwindows : Tracked increments now x.backend.redis) {task task' : Task} {w : Backend}
    (hkept : Kept increments now x.backend.redis w.redis) (honTime : task'.OnTime now)
    (hended : task.ended.toNat ≤ task'.ended.toNat)
    (howes : ∀ scope o, ¬task.Owes isoformat scope o) :
    Stepped isoformat settings increments now x task (task', { x with backend := w }) where
  gated := hgated.kept hkept.marker ((hkept.windows hwindows).1.trans hwindows.1.symm)
  windows := hkept.windows hwindows
  onTime := honTime
  count := Nat.add_le_add_left hended _
  told scope o ho := absurd ho (howes scope o)
  due _ ha := .inl ha

theorem Stepped.raised {r : Except Exn (Option Alert) × Store}
    {owed : Scope → Option Occasion → Prop}
    (h : Raised settings increments now x.alerts x.backend.redis owed r)
    (hwindows : Tracked increments now x.backend.redis) {task task' : Task} {w : Backend}
    (hredis : w.redis = r.2) (hopen : task.ended = false) (hended : task'.ended = true)
    (honTime : task'.OnTime now) (howes : ∀ scope o, task.Owes isoformat scope o ↔ owed scope o) :
    Stepped isoformat settings increments now x task
      (task', { backend := w, alerts := (answerOf none r).toList ++ x.alerts }) := by
  refine ⟨hredis ▸ h.gated, hredis ▸ h.windows hwindows, honTime, ?_, ?_, ?_⟩
  · have hone : (answerOf none r).toList.length ≤ 1 := by
      cases answerOf none r with
      | none => exact Nat.zero_le 1
      | some a => exact le_rfl
    simp only [hopen, hended, List.length_append, Bool.toNat_false, Bool.toNat_true]
    omega
  · intro scope o ho
    rw [← hwindows.1]
    exact h.told scope o ((howes scope o).mp ho)
  · intro a ha
    rcases List.mem_append.mp ha with hnew | hold
    · obtain ⟨howed, hsent⟩ := h.due a (Option.mem_toList.mp hnew)
      exact .inr ⟨(howes _ _).mpr howed, hsent.trans hwindows.1⟩
    · exact .inl hold

theorem timely_evaluateDecision {project : Project} {ctx : ProtectDecisionContext}
    {d : ProtectDecision} {s : Store}
    (h : run (evaluateDecision settings project ctx now) s = (.ok d, s')) : Timely d now := by
  rcases evaluateDecision_cases h with ⟨-, hallow⟩ | ⟨-, usage, cooldownUntilMs, -, -, hjudge⟩
  · exact fun hblock => absurd (hallow.symm.trans hblock) (by decide)
  · rw [hjudge]
    exact timely_judge project ctx usage cooldownUntilMs

variable (isoformat m) in
theorem LiveTask.stepped (c : LiveTask) (stage : LiveStage)
    (hgated : Gated settings x.alerts x.backend.redis)
    (hwindows : Tracked increments now x.backend.redis)
    (honTime : (Task.live c stage).OnTime now) :
    Stepped isoformat settings increments now x (.live c stage)
      ((Task.live c stage).step isoformat settings m now x) := by
  cases stage with
  -- the decision is on time for what it will tell of
  | waiting =>
    have hkept : Kept increments now x.backend.redis (run (evaluateDecision settings c.project
        c.call.request.context now) x.backend.redis).2 := kept_evaluateDecision _ _ _ _
    rcases hrun : run (evaluateDecision settings c.project c.call.request.context now)
        x.backend.redis with ⟨e | d, s'⟩
    · have hstep : (Task.live c .waiting).step isoformat settings m now x =
          (.live c .ended, { x with backend := { x.backend with redis := s' } }) := by
        simp only [Task.step, LiveTask.step, LiveCall.step, hrun]
      rw [hstep]
      rw [hrun] at hkept
      exact .quiet hgated hwindows hkept (Task.onTime_ended c) (Nat.zero_le _)
        fun scope o ho => by cases ho
    · have hstep : (Task.live c .waiting).step isoformat settings m now x =
          (.live c (.evaluated d), { x with backend := { x.backend with redis := s' } }) := by
        simp only [Task.step, LiveTask.step, LiveCall.step, hrun]
      rw [hstep]
      rw [hrun] at hkept
      refine .quiet hgated hwindows hkept ?_ le_rfl fun scope o ho => by cases ho
      intro d' hd'
      rw [← Option.some.inj hd']
      exact timely_evaluateDecision hrun
  | evaluated d =>
    by_cases hempty : c.project.id = ""
    · have hstep : (Task.live c (.evaluated d)).step isoformat settings m now x =
          (.live c .ended, { x with backend := x.backend }) := by
        simp only [Task.step, LiveTask.step, LiveCall.step, if_pos hempty]
      rw [hstep]
      exact .quiet hgated hwindows (.refl _) (Task.onTime_ended c) (Nat.zero_le _)
        fun scope o ho => by cases ho
    · by_cases henabled : c.project.protectEnabled = true
      · have hkept : Kept increments now x.backend.redis (run (finalizeOutcome
            (c.call.request.scopedId c.project) d.decision.text d.reason.text sourceLive
            c.call.request.requestId now) x.backend.redis).2 := by
          rw [c.scopedId_eq]
          exact kept_of_onField (finalizeOutcome_onField _ _ _ _ _) _
        simp only [Task.step, LiveTask.step, LiveCall.step, if_neg hempty, if_pos henabled]
        exact .quiet hgated hwindows hkept honTime le_rfl fun scope o ho => by cases ho
      · simp only [Task.step, LiveTask.step, LiveCall.step, if_neg hempty, if_neg henabled]
        exact .quiet hgated hwindows (.refl _) honTime le_rfl fun scope o ho => by cases ho
  -- the cooldown is set before the background task
  | finalized d finalized =>
    have hkept : Kept increments now x.backend.redis (run (recordHealth
        (c.call.request.scopedId c.project) c.call.request.latencyMs now c.call.request.memberId)
        (run (startCooldown (c.call.request.scopedId c.project) c.call.request.requestId
          ⟨d, finalized⟩) x.backend.redis).2).2 := by
      rw [c.scopedId_eq]
      exact (kept_startCooldown _ _ _).trans (kept_recordHealth _ _ _)
    exact .quiet hgated hwindows hkept honTime le_rfl fun scope o ho => by cases ho
  | cooled d finalized =>
    -- The background task is added only where the outcome has been accepted.
    cases finalized with
    | true =>
      have hraised := (raised_liveAlert settings increments hgated hwindows.1 c (honTime d rfl) :
        Raised settings increments now x.alerts x.backend.redis
          (fun scope o => c.InTime d ∧ scope = c.scope ∧ c.Owes isoformat d o) _)
      refine .raised hraised hwindows ?_ rfl rfl (Task.onTime_ended c) ?_
      · exact recordPreflightIncidentIfNeeded_redis m c.project c.call _ now d
      · intro scope o
        constructor
        · intro ho
          cases ho with
          | live hintime howes => exact ⟨hintime, rfl, howes⟩
        · intro ho
          rw [ho.2.1]
          exact .live ho.1 ho.2.2
    | false =>
      exact .quiet hgated hwindows (.refl _) (Task.onTime_ended c) (Nat.zero_le _)
        fun scope o ho => by cases ho
  | ended =>
    exact .quiet hgated hwindows (.refl _) honTime le_rfl fun scope o ho => by cases ho

variable (isoformat m) in
theorem ReportTask.stepped (q : ReportTask) (stage : ReportStage)
    (hgated : Gated settings x.alerts x.backend.redis)
    (hwindows : Tracked increments now x.backend.redis) :
    Stepped isoformat settings increments now x (.report q stage)
      ((Task.report q stage).step isoformat settings m now x) := by
  cases stage with
  | waiting =>
    by_cases henabled : q.project.protectEnabled = true
    · have hkept : Kept increments now x.backend.redis (run (finalizeOutcome
          (q.call.report.scopedId q.project) (fallbackDecision q.project).text q.call.kind.reason
          q.call.kind.source q.call.report.resolvedRequestId now) x.backend.redis).2 := by
        rw [q.scopedId_eq]
        -- the outcome keys are no keys of the alerts
        exact kept_of_onField (finalizeOutcome_onField _ _ _ _ _) _
      simp only [Task.step, ReportTask.step, ReportCall.step, if_pos henabled]
      exact .quiet hgated hwindows hkept trivial le_rfl fun scope o ho => by cases ho
    · have hkept : Kept increments now x.backend.redis
          (run (observeFallback q.project q.call now) x.backend.redis).2 := by
        unfold observeFallback
        rw [q.scopedId_eq]
        cases q.call.kind with
        | timeout => exact kept_of_onField (recordTimeoutFallback_onField _ _) _
        | unavailable => exact .refl _
      simp only [Task.step, ReportTask.step, ReportCall.step, if_neg henabled]
      exact .quiet hgated hwindows hkept trivial le_rfl fun scope o ho => by cases ho
  | finalized outcome =>
    by_cases hsupersedes : supersedesLiveBlock (fallbackDecision q.project) outcome = true
    · have hkept : Kept increments now x.backend.redis (run (clearBlockCooldown
          (q.call.report.scopedId q.project) q.call.report.resolvedRequestId)
          x.backend.redis).2 := by
        rw [q.scopedId_eq]
        exact kept_clearBlockCooldown _ _
      simp only [Task.step, ReportTask.step, ReportCall.step, if_pos hsupersedes]
      exact .quiet hgated hwindows hkept trivial le_rfl fun scope o ho => by cases ho
    · simp only [Task.step, ReportTask.step, ReportCall.step, if_neg hsupersedes]
      exact .quiet hgated hwindows (.refl _) trivial le_rfl fun scope o ho => by cases ho
  | cleared outcome =>
    by_cases hsupersedes : supersedesLiveBlock (fallbackDecision q.project) outcome = true
    · simp only [Task.step, ReportTask.step, ReportCall.step, if_pos hsupersedes]
      exact .quiet hgated hwindows (.refl _) trivial le_rfl fun scope o ho => by cases ho
    · simp only [Task.step, ReportTask.step, ReportCall.step, if_neg hsupersedes]
      exact .quiet hgated hwindows (.refl _) trivial le_rfl fun scope o ho => by cases ho
  | reconciled =>
    by_cases hclosed : q.project.protectEnabled = true ∧ q.project.protectFailMode = "closed"
    -- only here the alert is owed, and only to a closed project
    · have hraised := raised_reportFailClosed isoformat settings increments hgated hwindows.1
        hwindows q
      simp only [Task.step, ReportTask.step, if_pos hclosed]
      refine .raised hraised hwindows rfl rfl rfl trivial ?_
      intro scope o
      constructor
      · intro ho
        cases ho with
        | report => exact ⟨rfl, rfl⟩
      · intro ho
        rw [ho.1, ho.2]
        exact .report hclosed.1 hclosed.2
    · simp only [Task.step, ReportTask.step, if_neg hclosed]
      refine .quiet hgated hwindows (.refl _) trivial (Nat.zero_le _) ?_
      intro scope o ho
      cases ho with
      | report henabled hclosed' => exact hclosed ⟨henabled, hclosed'⟩
  | ended =>
    exact .quiet hgated hwindows (.refl _) trivial le_rfl fun scope o ho => by cases ho

end Steps

section Sound

variable {isoformat : ℤ → String} {settings : Settings} {m : Manager} {now : ℕ} {x : System}

variable (isoformat m) in
theorem Task.stepped {increments : List (String × Point)} {desk : Desk} (task : Task)
    (hgated : Gated settings desk.alerts desk.backend.redis)
    (hwindows : Tracked increments now desk.backend.redis) (honTime : task.OnTime now) :
    Stepped isoformat settings increments now desk task
      (task.step isoformat settings m now desk) := by
  cases task with
  | live c stage => exact c.stepped isoformat m stage hgated hwindows honTime
  | report q stage => exact q.stepped isoformat m stage hgated hwindows

/-- What holds between the steps of all tasks. -/
structure System.Sound (settings : Settings) (x : System) : Prop where
  gated : Gated settings x.desk.alerts x.store
  windows : Tracked x.increments x.clock x.store
  onTime : ∀ task ∈ x.tasks, task.OnTime x.clock
  count : x.desk.alerts.length ≤ x.tasks.countP Task.ended

namespace System

theorem Sound.start (now : ℕ) (incidents : IncidentRepository.World) :
    Sound settings { desk := { backend := { redis := .empty now, incidents := incidents } } } where
  gated := .empty fun _ => rfl
  windows := tracked_start now
  onTime := by simp
  count := Nat.zero_le _

theorem Sound.waits (h : Sound settings x) (hnow : x.clock ≤ now) (tasks : List Task)
    (htasks : ∀ task ∈ tasks, task.OnTime now) :
    Sound settings { x with desk := x.desk.at now, tasks := x.tasks ++ tasks } where
  gated := h.gated.advance hnow
  windows := h.windows.advance hnow
  onTime task htask := by
    rcases List.mem_append.mp htask with hold | hnew
    · exact (h.onTime task hold).mono hnow
    · exact htasks task hnew
  count := by
    rw [List.countP_append]
    exact h.count.trans (Nat.le_add_right _ _)

variable (isoformat m) in
theorem Sound.stepped (h : Sound settings x) (hnow : x.clock ≤ now) {i : ℕ} {task : Task}
    (htask : x.tasks[i]? = some task) : Stepped isoformat settings x.increments now (x.desk.at now)
      task (task.step isoformat settings m now (x.desk.at now)) := by
  have honTime := (h.onTime task (List.mem_of_getElem? htask)).mono hnow
  exact task.stepped isoformat m (h.gated.advance hnow) (h.windows.advance hnow) honTime

theorem act_of_task {i : ℕ} {task : Task} (htask : x.tasks[i]? = some task) :
    act isoformat settings m now i x = { x with
      desk := (task.step isoformat settings m now (x.desk.at now)).2
      tasks := x.tasks.set i (task.step isoformat settings m now (x.desk.at now)).1 } := by
  simp only [act, htask]

theorem Sound.act (h : Sound settings x) (hnow : x.clock ≤ now) (i : ℕ) :
    Sound settings (act isoformat settings m now i x) := by
  cases htask : x.tasks[i]? with
  | none =>
    have hidle : ProtectAlerts.act isoformat settings m now i x =
        { x with desk := x.desk.at now } := by
      simp only [ProtectAlerts.act, htask]
    have hwaits := h.waits hnow [] (by simp)
    rw [List.append_nil] at hwaits
    rw [hidle]
    exact hwaits
  | some task =>
    have hstepped := h.stepped isoformat m hnow htask
    rw [act_of_task htask]
    generalize task.step isoformat settings m now (x.desk.at now) = r at hstepped
    have hclock : r.2.backend.redis.clock = now := hstepped.windows.1
    obtain ⟨hi, hget⟩ := List.getElem?_eq_some_iff.mp htask
    refine ⟨hstepped.gated, ?_, ?_, ?_⟩
    · change Tracked x.increments r.2.backend.redis.clock r.2.backend.redis
      rw [hclock]
      exact hstepped.windows
    · intro task' htask'
      change task'.OnTime r.2.backend.redis.clock
      rw [hclock]
      rcases List.mem_or_eq_of_mem_set htask' with hold | rfl
      · exact (h.onTime task' hold).mono hnow
      · exact hstepped.onTime
    -- The task raises one alert at most, and then it ends with this step.
    · have hset := List.countP_set (p := Task.ended) (a := r.1) hi
      have hone := List.boole_getElem_le_countP (p := Task.ended) hi
      rw [hget] at hset hone
      have hbefore := h.count
      have hcount : r.2.alerts.length + task.ended.toNat ≤
          x.desk.alerts.length + r.1.ended.toNat := hstepped.count
      change r.2.alerts.length ≤ (x.tasks.set i r.1).countP Task.ended
      unfold Bool.toNat at hcount
      grind

theorem Sound.next (h : Sound settings x) (hnow : x.clock ≤ now) {e : Event}
    (hfresh : e.Fresh x) : Sound settings (x.next isoformat settings m now e) := by
  cases e with
  | preflight c => exact h.waits hnow [_] (by simp [Task.OnTime, made])
  | fallback q => exact h.waits hnow [_] (by simp [Task.OnTime])
  | act i => exact h.act hnow i
  | traffic scopeId totalTokens memberId =>
    obtain ⟨s', hrun, hwindows⟩ := increment_tracked (h.windows.advance hnow) scopeId totalTokens
      hfresh
    have hmarker : ∀ e, Leaves (Occasion.key e) (x.store.advance now) s' := by
      intro e
      have hleaves := run_entry_ne (incrementProject60s_issues scopeId (some totalTokens) now
        memberId) (fun c hc => by
          rcases hc with hc | hc
          · rw [hc]
            exact (Occasion.actionKey_key e).ne_requests60sKey scopeId
          · rw [hc]
            exact (Occasion.actionKey_key e).ne_tokens60sKey scopeId) (x.store.advance now)
      rw [hrun] at hleaves
      exact hleaves
    have hgated := (h.gated.advance hnow).kept hmarker (hwindows.1.trans rfl)
    -- Ingesting counts in the window of its scope, and a marker is no window key.
    simp only [System.next, hrun]
    refine ⟨hgated, ?_, ?_, h.count⟩
    · exact hwindows.1.symm ▸ hwindows
    · intro task htask
      change task.OnTime s'.clock
      rw [hwindows.1]
      exact (h.onTime task htask).mono hnow

end System

theorem Reachable.sound (h : Reachable isoformat settings m x) : x.Sound settings := by
  induction h with
  | start now incidents => exact .start now incidents
  | next h now hnow e hfresh ih => exact ih.next hnow hfresh

end Sound

section Budget

variable {isoformat : ℤ → String} {settings : Settings} {m : Manager} {x : System}

theorem dedupWindowMs_pos (settings : Settings) : 0 < dedupWindowMs settings := by
  unfold dedupWindowMs
  omega

theorem permit_of_occasion {a : Alert} {o : Occasion} (h : a.occasion = some o) :
    a.permit = some ⟨(a.scope, o), a.sentAt, a.quietSeconds * 1000⟩ := by
  simp [Alert.permit, h]

theorem Gated.pairwise {alerts : List Alert} {s : Store} (h : Gated settings alerts s) :
    alerts.Pairwise fun later earlier => ∀ o, later.scope = earlier.scope →
      later.occasion = some o → earlier.occasion = some o →
        earlier.quietUntil settings ≤ later.sentAt := by
  refine (List.pairwise_filterMap.mp h.spaced).imp_of_mem ?_
  intro later earlier _ hmem hrel o hscope hlater hearlier
  have hends : earlier.ends ≤ later.sentAt := hrel _ (permit_of_occasion hlater) _
    (permit_of_occasion hearlier) (Prod.ext hscope rfl)
  have hcovers := h.covers earlier hmem (hearlier ▸ rfl)
  omega

theorem length_permits (alerts : List Alert) (σ : Scope) (o : Occasion) (a b : ℕ) :
    ((permits alerts).filter fun p => p.key = (σ, o) ∧ a ≤ p.time ∧ p.time < b).length =
      (alerts.filter fun t => t.scope = σ ∧ t.occasion = some o ∧ a ≤ t.sentAt ∧
        t.sentAt < b).length := by
  rw [← List.countP_eq_length_filter, ← List.countP_eq_length_filter, permits,
    List.countP_filterMap]
  apply List.countP_congr
  intro t _
  cases ho : t.occasion with
  | none => simp [Alert.permit, ho]
  | some o' => simp [Alert.permit, ho, and_assoc]

theorem Gated.length_mul_lt {alerts : List Alert} {s : Store} (h : Gated settings alerts s)
    (σ : Scope) {o : Occasion} (ho : ∀ blockedUntil, o ≠ .cooldownBlock blockedUntil) (a b : ℕ) :
    (alerts.filter fun t => t.scope = σ ∧ t.occasion = some o ∧ a ≤ t.sentAt ∧
      t.sentAt < b).length * dedupWindowMs settings < (b - a) + dedupWindowMs settings := by
  rw [← length_permits]
  refine h.spaced.length_mul_lt (dedupWindowMs_pos settings) ?_ a b
  intro p hp hkey
  obtain ⟨t, ht, hpermit⟩ := List.mem_filterMap.mp hp
  obtain ⟨o', ho', rfl⟩ := Option.map_eq_some_iff.mp hpermit
  obtain rfl : o' = o := (Prod.mk.inj hkey).2
  have hcovers := h.covers t ht (ho' ▸ rfl)
  -- Only a cooldown has an end of its own.
  have huntil : t.quietUntil settings = t.sentAt + dedupWindowMs settings := by
    unfold Alert.quietUntil
    rw [ho']
    cases o' with
    | cooldownBlock blockedUntil => exact absurd rfl (ho blockedUntil)
    | clampStarted => rfl
    | failClosed marker => rfl
  unfold Alert.ends at hcovers
  change dedupWindowMs settings ≤ t.quietSeconds * 1000
  omega

/-- However the requests and their steps interleave: an occasion is told of again only when the
cooldown or the window is over; no more alerts are raised than tasks have ended; and a task that
takes its next step tells of what it owes, unless an alert of it stands, and of nothing else. -/
theorem occasion_told_once (h : Reachable isoformat settings m x) :
    (x.desk.alerts.Pairwise fun later earlier => ∀ o, later.scope = earlier.scope →
      later.occasion = some o → earlier.occasion = some o →
        earlier.quietUntil settings ≤ later.sentAt) ∧
    (∀ (σ : Scope) (o : Occasion), (∀ blockedUntil, o ≠ .cooldownBlock blockedUntil) → ∀ a b,
      (x.desk.alerts.filter fun t => t.scope = σ ∧ t.occasion = some o ∧ a ≤ t.sentAt ∧
        t.sentAt < b).length * dedupWindowMs settings < (b - a) + dedupWindowMs settings) ∧
    x.desk.alerts.length ≤ x.tasks.countP Task.ended ∧
    ∀ now, x.clock ≤ now → ∀ i task, x.tasks[i]? = some task →
      (∀ scope o, task.Owes isoformat scope o →
        Told (act isoformat settings m now i x).desk.alerts scope o now) ∧
      ∀ a ∈ (act isoformat settings m now i x).desk.alerts,
        a ∈ x.desk.alerts ∨ task.Owes isoformat a.scope a.occasion ∧ a.sentAt = now := by
  have hsound := h.sound
  refine ⟨hsound.gated.pairwise, fun σ o ho => hsound.gated.length_mul_lt σ ho, hsound.count, ?_⟩
  intro now hnow i task htask
  have hstepped := hsound.stepped isoformat m hnow htask
  rw [System.act_of_task htask]
  exact ⟨hstepped.told, hstepped.due⟩

end Budget

/-- A timed-out request of a project that fails closed. -/
def sampleTask : ReportTask where
  project := { sampleProject with protectFailMode := "closed" }
  call := sampleTimeout
  scope := sampleScope
  scopedId_eq := by decide

/-- It is reported and told of; a second later it is reported again, up to its last step. -/
def sampleEvents : List (ℕ × Event) :=
  [(2000, .fallback sampleTask), (2000, .act 0), (2000, .act 0), (2000, .act 0), (2000, .act 0),
    (3000, .fallback sampleTask), (3000, .act 1), (3000, .act 1), (3000, .act 1)]

def sampleSystem : System :=
  sampleEvents.foldl (fun x e => x.next toString sampleSettings {} e.1 e.2)
    { desk := { backend := { redis := .empty 0, incidents := { incidents := .empty } } } }

theorem sampleSystem_reachable : Reachable toString sampleSettings {} sampleSystem := by
  have h₀ : Reachable toString sampleSettings {}
      { desk := { backend := { redis := .empty 0, incidents := { incidents := .empty } } } } :=
    .start 0 { incidents := .empty }
  have h₁ := h₀.next 2000 (by decide) (.fallback sampleTask) trivial
  have h₂ := h₁.next 2000 (by decide) (.act 0) trivial
  have h₃ := h₂.next 2000 (by decide +kernel) (.act 0) trivial
  have h₄ := h₃.next 2000 (by decide +kernel) (.act 0) trivial
  have h₅ := h₄.next 2000 (by decide +kernel) (.act 0) trivial
  have h₆ := h₅.next 3000 (by decide +kernel) (.fallback sampleTask) trivial
  have h₇ := h₆.next 3000 (by decide +kernel) (.act 1) trivial
  have h₈ := h₇.next 3000 (by decide +kernel) (.act 1) trivial
  exact h₈.next 3000 (by decide +kernel) (.act 1) trivial

theorem occasion_told_once_sample : sampleSystem.desk.alerts.length = 1 ∧
    (sampleSystem.tasks[1]?.map Task.ended) = some false ∧
    (act toString sampleSettings {} 3000 1 sampleSystem).desk.alerts.length = 1 ∧
    Told (act toString sampleSettings {} 3000 1 sampleSystem).desk.alerts sampleTask.scope
      (some (.failClosed "r1")) 3000 := by
  have hstep := (occasion_told_once sampleSystem_reachable).2.2.2 3000 (by decide +kernel) 1
    (.report sampleTask .reconciled) (by rfl)
  refine ⟨by decide +kernel, by decide +kernel, by decide +kernel, ?_⟩
  exact hstep.1 _ _ (.report rfl rfl)

end Rheonic.ProtectAlerts
