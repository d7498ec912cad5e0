import Rheonic.Cooldown

namespace Rheonic.ProtectApi
open CommandProgram Redis Keys PyText ProtectActionStore ProtectService RollingWindow SlidingWindow
open IngestEvent (World)

/-- A preflight that let its request through, and the event ingested for it. -/
structure Admission where
  decidedAt : ℕ
  point : Point

def totalTokens (points : List Point) : ℤ := (points.map Point.tokens).sum

/-- A call that is neither a decision nor an ingest of the scope. -/
def Elsewhere (scope : String) : Call → Prop
  | .decision r => ∀ project ∈ r.project, r.scopedId project ≠ scope
  | .ingest event _ => event.scopedId ≠ scope
  | _ => True

def admits : Answer → Bool
  | .preflight (.ok answer) => answer.decision.decision ≠ .block
  | _ => false

/-- Runs in which the project of the scope is protected with the caps `N` and `M`, and in which
events of the scope are ingested exactly once for each preflight that lets them through, before the
next preflight of the scope. The pending preflight is kept with its time. -/
inductive Gated (settings : Settings) (scope : String) (N : ℕ) (M : ℤ) :
    World → Option ℕ → List Admission → Prop
  | start (now : ℕ) : Gated settings scope N M (start now) none []
  | decision {w : World} {h : List Admission} (hrun : Gated settings scope N M w none h) (now : ℕ)
      (hclock : w.redis.clock ≤ now) (r : PreflightRequest) (project : Project)
      (hproject : r.project = some project) (hscope : r.scopedId project = scope)
      (henabled : project.protectEnabled = true)
      (hrequests : project.protectMaxReqPerMin = some (N : ℤ))
      (htokens : project.protectMaxTokPerMin = some M) :
      Gated settings scope N M (serve settings w now (.decision r)).2
        (if admits (serve settings w now (.decision r)).1 then some now else none) h
  | ingest {w : World} {h : List Admission} {decidedAt : ℕ}
      (hrun : Gated settings scope N M w (some decidedAt) h) (now : ℕ)
      (hclock : w.redis.clock ≤ now) (event : IngestEvent.Event) (memberId : String)
      (hscope : event.scopedId = scope) (hfresh : Fresh w (.ingest event memberId)) :
      Gated settings scope N M (serve settings w now (.ingest event memberId)).2 none
        (h ++ [⟨decidedAt, now, memberId, event.totalTokens⟩])
  | elsewhere {w : World} {pending : Option ℕ} {h : List Admission}
      (hrun : Gated settings scope N M w pending h) (now : ℕ) (hclock : w.redis.clock ≤ now)
      (call : Call) (hfresh : Fresh w call) (helsewhere : Elsewhere scope call) :
      Gated settings scope N M (serve settings w now call).2 pending h

/-- What the caps promise for the admissions of a run. -/
structure CapsHold (N : ℕ) (M : ℤ) (h : List Admission) : Prop where
  /-- No half-open minute has more than `N` events. -/
  requests : ∀ start : ℤ, (within Point.score start 60000 (h.map Admission.point)).length ≤ N
  /-- The window just before an admitting preflight was below `M`. -/
  below : ∀ pre a, pre ++ [a] <+: h →
    totalTokens (window a.decidedAt (pre.map Admission.point)) < M
  /-- The window after the ingest exceeds `M` by less than the event. -/
  overshoot : ∀ pre a, pre ++ [a] <+: h →
    totalTokens (window a.point.time ((pre ++ [a]).map Admission.point)) - M < a.point.tokens

/-- No event with a negative number of tokens leaves the window between the preflight and the
ingest of `a`. -/
def NoDebtLeaves (pre : List Admission) (a : Admission) : Prop :=
  ∀ b ∈ pre, b.point ∈ window a.decidedAt (pre.map Admission.point) →
    b.point ∉ window a.point.time (pre.map Admission.point) → 0 ≤ b.point.tokens

section Gated

variable {settings : Settings} {scope : String} {N : ℕ} {M : ℤ} {w : World} {pending : Option ℕ}
  {h : List Admission}

/-- What an admitting preflight has found in the window. -/
def RoomAt (N : ℕ) (M : ℤ) (decidedAt : ℕ) (h : List Admission) : Prop :=
  (window decidedAt (h.map Admission.point)).length < N ∧
    totalTokens (window decidedAt (h.map Admission.point)) < M

structure Consistent (scope : String) (N : ℕ) (M : ℤ) (w : World) (pending : Option ℕ)
    (h : List Admission) : Prop where
  tracked : Tracked w.increments w.redis.clock w.redis
  shows : ofScope scope w.increments = h.map Admission.point
  pending : ∀ decidedAt ∈ pending, decidedAt ≤ w.redis.clock ∧ RoomAt N M decidedAt h
  admitted : ∀ pre a, pre ++ [a] <+: h → a.decidedAt ≤ a.point.time ∧ RoomAt N M a.decidedAt pre
  ordered : (h.map Admission.point).Pairwise fun p q => p.score ≤ q.score

theorem decision_room (hinv : Consistent scope N M w pending h) {now : ℕ}
    (hclock : w.redis.clock ≤ now) {r : PreflightRequest} {project : Project}
    (hproject : r.project = some project) (hscope : r.scopedId project = scope)
    (henabled : project.protectEnabled = true)
    (hrequests : project.protectMaxReqPerMin = some (N : ℤ))
    (htokens : project.protectMaxTokPerMin = some M)
    (hgates : admits (serve settings w now (.decision r)).1 = true) : RoomAt N M now h := by
  rcases hrun : run (protectDecision settings r now) (w.redis.advance now) with ⟨e | answer, s'⟩
  · rw [serve, serveAt, onRedis, hrun] at hgates
    simp [admits] at hgates
  · rw [serve, serveAt, onRedis, hrun] at hgates
    have hpass : answer.decision.decision ≠ .block := by simpa [admits] using hgates
    obtain ⟨found, hfound, s₁, -, heval, -⟩ := protectDecision_ok hrun
    obtain rfl := Option.some.inj (hproject.symm.trans (Option.mem_def.mp hfound))
    obtain ⟨s₁', c, -, -, -, hjudge⟩ := run_evaluateDecision settings r.context hscope
      (hinv.tracked.advance hclock) henabled
    rw [heval] at hjudge
    have hdecision := Except.ok.inj (Prod.mk.inj hjudge).1
    rw [hdecision] at hpass
    obtain ⟨htok, hreq⟩ := judge_admits hpass
    have htok' := htok M (Option.mem_def.mpr htokens)
    have hreq' := hreq N (Option.mem_def.mpr hrequests)
    unfold usageOf at htok' hreq'
    rw [hinv.shows] at htok' hreq'
    exact ⟨by exact_mod_cast hreq', htok'⟩

theorem Consistent.elsewhere (hinv : Consistent scope N M w pending h) {now : ℕ}
    (hclock : w.redis.clock ≤ now) {call : Call} (hfresh : Fresh w call)
    (hshows : ofScope scope (serve settings w now call).2.increments = ofScope scope w.increments) :
    Consistent scope N M (serve settings w now call).2 pending h := by
  have hstep := serve_tracked settings hinv.tracked hclock hfresh
  refine ⟨hstep.1.symm ▸ hstep, hshows.trans hinv.shows, ?_, hinv.admitted, hinv.ordered⟩
  intro decidedAt hpending
  rw [hstep.1]
  exact ⟨(hinv.pending decidedAt hpending).1.trans hclock, (hinv.pending decidedAt hpending).2⟩

theorem Gated.consistent (hrun : Gated settings scope N M w pending h) :
    Consistent scope N M w pending h := by
  induction hrun with
  | start now =>
    refine ⟨tracked_start now, rfl, by simp, ?_, List.Pairwise.nil⟩
    intro pre a hpre
    exact absurd (List.prefix_nil.mp hpre) (by simp)
  -- a decision adds nothing, and leaves its room if it admits
  | @decision w h hrun now hclock r project hproject hscope henabled hrequests htokens ih =>
    have hfresh : Fresh w (.decision r) := trivial
    have hnext : Consistent scope N M (serve settings w now (.decision r)).2 none h :=
      ih.elsewhere hclock hfresh rfl
    refine ⟨hnext.tracked, hnext.shows, ?_, hnext.admitted, hnext.ordered⟩
    intro decidedAt hpending
    by_cases hgates : admits (serve settings w now (.decision r)).1 = true
    · rw [if_pos hgates, Option.mem_some_iff] at hpending
      subst hpending
      have hclock' := (serve_tracked settings ih.tracked hclock hfresh).1
      exact ⟨hclock'.ge, decision_room ih hclock hproject hscope henabled hrequests htokens hgates⟩
    · rw [if_neg hgates] at hpending
      simp at hpending
  -- the ingest of an admitted request takes the room that its decision has left
  | @ingest w h decidedAt hrun now hclock event memberId hscope hfresh ih =>
    obtain ⟨s', hserve, htracked, -⟩ := ingest_tracked
      (w := { w with redis := w.redis.advance now }) (ih.tracked.advance hclock) event hfresh
    have hstate : (serve settings w now (.ingest event memberId)).2 =
        ⟨s', w.projectOf, w.events ++ [event],
          w.increments ++ [(event.scopedId, ⟨now, memberId, event.totalTokens⟩)]⟩ := by
      rw [serve, serveAt, hserve]
      rfl
    have htracked' : Tracked (w.increments ++ [(event.scopedId, ⟨now, memberId, event.totalTokens⟩)])
        now s' := htracked
    obtain ⟨hbefore, hroom⟩ := ih.pending decidedAt rfl
    rw [hstate]
    refine ⟨htracked'.1.symm ▸ htracked', ?_, by simp, ?_, ?_⟩
    · have hshows := ih.shows
      unfold ofScope at hshows
      simp [ofScope, hscope, hshows]
    · intro pre a hpre
      rcases List.prefix_concat_iff.mp hpre with heq | hpre
      · obtain ⟨rfl, hlast⟩ := List.append_inj' heq rfl
        obtain rfl := List.singleton_inj.mp hlast
        exact ⟨hbefore.trans hclock, hroom⟩
      · exact ih.admitted pre a hpre
    · rw [List.map_append, List.pairwise_append]
      refine ⟨ih.ordered, List.pairwise_singleton _ _, ?_⟩
      intro q hq q' hq'
      have hpast := (ih.tracked.2 scope).requests.past q (ih.shows ▸ hq)
      rw [List.map_singleton, List.mem_singleton] at hq'
      rw [hq']
      have hle : (q.time : ℤ) ≤ now := by exact_mod_cast hpast.trans hclock
      exact hle
  -- calls of other scopes and calls that ingest nothing
  | @elsewhere w pending h hrun now hclock call hfresh helsewhere ih =>
    apply ih.elsewhere hclock hfresh
    cases call with
    | ingest event memberId =>
      obtain ⟨s', hserve, -⟩ := ingest_tracked (w := { w with redis := w.redis.advance now })
        (ih.tracked.advance hclock) event hfresh
      rw [serve, serveAt, hserve]
      have hne : event.scopedId ≠ scope := helsewhere
      simp [ofScope, hne]
    | _ => rfl

theorem totalTokens_filter_le {keep : Point → Bool} {points : List Point}
    (hdropped : ∀ p ∈ points, keep p = false → 0 ≤ p.tokens) :
    totalTokens (points.filter keep) ≤ totalTokens points := by
  induction points with
  | nil => exact le_rfl
  | cons p points ih =>
    have hrest := ih fun q hq => hdropped q (List.mem_cons_of_mem p hq)
    unfold totalTokens at hrest ⊢
    cases hkeep : keep p with
    | true =>
      rw [List.filter_cons_of_pos hkeep, List.map_cons, List.map_cons, List.sum_cons, List.sum_cons]
      omega
    | false =>
      have hp := hdropped p List.mem_cons_self hkeep
      rw [List.filter_cons_of_neg (by simp [hkeep]), List.map_cons, List.sum_cons]
      omega

theorem window_later {t t' : ℕ} (ht : t ≤ t') (points : List Point) :
    window t' points = after Point.score ((t' : ℤ) - rollingWindowMs) (window t points) := by
  have hcut : (t : ℤ) - rollingWindowMs ≤ (t' : ℤ) - rollingWindowMs := by omega
  exact (after_after hcut points).symm

/-- In every run in which no event with negative tokens leaves the window between an admitting
preflight and its ingest, the caps bound every minute. -/
theorem caps_bound_every_minute (hrun : Gated settings scope N M w pending h)
    (hdebt : ∀ pre a, pre ++ [a] <+: h → NoDebtLeaves pre a) : CapsHold N M h := by
  have hinv := hrun.consistent
  refine ⟨fun start => ?_, fun pre a hpre => (hinv.admitted pre a hpre).2.2, fun pre a hpre => ?_⟩
  · apply length_within_le hinv.ordered
    intro points p post hsplit
    obtain ⟨pre, rest, rfl, rfl, hrest⟩ := List.map_eq_append_iff.mp hsplit
    obtain ⟨a, post', rfl, rfl, -⟩ := List.map_eq_cons_iff.mp hrest
    have hpre : pre ++ [a] <+: pre ++ a :: post' := ⟨post', by simp⟩
    obtain ⟨hbefore, hroom, -⟩ := hinv.admitted pre a hpre
    -- until it is ingested, the window of the decision can only have lost points
    have hlater := window_later hbefore (pre.map Admission.point)
    have hle : (window a.point.time (pre.map Admission.point)).length ≤
        (window a.decidedAt (pre.map Admission.point)).length := by
      rw [hlater]
      exact List.length_filter_le _ _
    exact hle.trans_lt hroom
  · obtain ⟨hbefore, -, hbelow⟩ := hinv.admitted pre a hpre
    have hlater := window_later hbefore (pre.map Admission.point)
    -- points that leave take no debt with them
    have hdrop : totalTokens (window a.point.time (pre.map Admission.point)) ≤
        totalTokens (window a.decidedAt (pre.map Admission.point)) := by
      rw [hlater]
      apply totalTokens_filter_le
      intro p hp hgone
      obtain ⟨b, hb, rfl⟩ := List.mem_map.mp (mem_after.mp hp).1
      apply hdebt pre a hpre b hb hp
      intro hkept
      have hlate := (mem_after.mp hkept).2
      simp [hlate] at hgone
    have hself : after Point.score ((a.point.time : ℤ) - rollingWindowMs) [a.point] = [a.point] := by
      have hin : (a.point.time : ℤ) - rollingWindowMs < a.point.score := by
        unfold Point.score rollingWindowMs
        omega
      simp [after, hin]
    have hsum : totalTokens (window a.point.time ((pre ++ [a]).map Admission.point)) =
        totalTokens (window a.point.time (pre.map Admission.point)) + a.point.tokens := by
      unfold window totalTokens
      rw [List.map_append, List.map_singleton, after_append, hself, List.map_append, List.sum_append]
      simp
    omega

end Gated

/-- An admitting decision as a step of a run. -/
theorem Gated.gate {settings : Settings} {scope : String} {N : ℕ} {M : ℤ} {w : World}
    {h : List Admission} (hrun : Gated settings scope N M w none h) (now : ℕ)
    (hclock : w.redis.clock ≤ now) (r : PreflightRequest) (project : Project)
    (hproject : r.project = some project) (hscope : r.scopedId project = scope)
    (henabled : project.protectEnabled = true)
    (hrequests : project.protectMaxReqPerMin = some (N : ℤ))
    (htokens : project.protectMaxTokPerMin = some M)
    (hgates : admits (serve settings w now (.decision r)).1 = true) :
    Gated settings scope N M (serve settings w now (.decision r)).2 (some now) h := by
  have hstep := Gated.decision hrun now hclock r project hproject hscope henabled hrequests htokens
  rw [if_pos hgates] at hstep
  exact hstep

def gatedProject : Project :=
  { sampleProject with protectMaxReqPerMin := some 10, protectMaxTokPerMin := some 100 }

def gatedPreflight (requestId : String) : PreflightRequest :=
  { samplePreflight requestId with project := some gatedProject }

/-- One admission in a run: a preflight and its ingest. -/
def admitThen (w : World) (decidedAt ingestedAt : ℕ) (tokens : ℤ) (id : String) : World :=
  (serve sampleSettings (serve sampleSettings w decidedAt (.decision (gatedPreflight id))).2
    ingestedAt (.ingest (sampleEvent tokens) id)).2

theorem gated_admitThen {w : World} {h : List Admission}
    (hrun : Gated sampleSettings "p1:openai" 10 100 w none h) {decidedAt ingestedAt : ℕ} {tokens : ℤ}
    {id : String} (hclock : w.redis.clock ≤ decidedAt)
    (hclock' : (serve sampleSettings w decidedAt (.decision (gatedPreflight id))).2.redis.clock ≤
      ingestedAt)
    (hgates : admits (serve sampleSettings w decidedAt (.decision (gatedPreflight id))).1 = true)
    (hfresh : ∀ e ∈ w.increments, e.2.memberId ≠ id) :
    Gated sampleSettings "p1:openai" 10 100 (admitThen w decidedAt ingestedAt tokens id) none
      (h ++ [⟨decidedAt, ingestedAt, id, tokens⟩]) := by
  have hscope : (gatedPreflight id).scopedId gatedProject = "p1:openai" := by
    change PreflightRequest.scopedId (gatedPreflight "") gatedProject = "p1:openai"
    decide
  have hgate := hrun.gate decidedAt hclock (gatedPreflight id) gatedProject rfl hscope rfl rfl rfl
    hgates
  have hevent : (sampleEvent tokens).scopedId = "p1:openai" := by
    change (sampleEvent 0).scopedId = "p1:openai"
    decide
  exact hgate.ingest ingestedAt hclock' (sampleEvent tokens) id hevent hfresh

/-- A negative event leaves the window between a preflight and its ingest: the window then exceeds
the cap by 25 tokens after an event of 5. -/
theorem debt_breaks_token_cap :
    Gated sampleSettings "p1:openai" 10 100
        (admitThen (admitThen (admitThen (start 0) 0 0 (-50) "a") 1000 1000 120 "b") 59999 60000 5 "c")
        none [⟨0, 0, "a", -50⟩, ⟨1000, 1000, "b", 120⟩, ⟨59999, 60000, "c", 5⟩] ∧
      ¬CapsHold 10 100 [⟨0, 0, "a", -50⟩, ⟨1000, 1000, "b", 120⟩, ⟨59999, 60000, "c", 5⟩] := by
  constructor
  · have h₁ : Gated sampleSettings "p1:openai" 10 100 (admitThen (start 0) 0 0 (-50) "a") none
        [⟨0, 0, "a", -50⟩] :=
      gated_admitThen (.start 0) (by decide) (by decide) (by decide) (by decide)
    have h₂ : Gated sampleSettings "p1:openai" 10 100
        (admitThen (admitThen (start 0) 0 0 (-50) "a") 1000 1000 120 "b") none
        [⟨0, 0, "a", -50⟩, ⟨1000, 1000, "b", 120⟩] :=
      gated_admitThen h₁ (by decide) (by decide) (by decide) (by decide)
    exact gated_admitThen h₂ (by decide) (by decide) (by decide) (by decide)
  · intro h
    have hover := h.overshoot [⟨0, 0, "a", -50⟩, ⟨1000, 1000, "b", 120⟩] ⟨59999, 60000, "c", 5⟩
      (List.prefix_rfl)
    exact absurd hover (by decide)

theorem caps_bound_every_minute_sample :
    CapsHold 10 100 [⟨0, 0, "a", 50⟩, ⟨1000, 1500, "b", 60⟩] := by
  have h₁ : Gated sampleSettings "p1:openai" 10 100 (admitThen (start 0) 0 0 50 "a") none
      [⟨0, 0, "a", 50⟩] :=
    gated_admitThen (.start 0) (by decide) (by decide) (by decide) (by decide)
  have h₂ : Gated sampleSettings "p1:openai" 10 100
      (admitThen (admitThen (start 0) 0 0 50 "a") 1000 1500 60 "b") none
      [⟨0, 0, "a", 50⟩, ⟨1000, 1500, "b", 60⟩] :=
    gated_admitThen h₁ (by decide) (by decide) (by decide) (by decide)
  have hnonneg : ∀ b ∈ ([⟨0, 0, "a", 50⟩, ⟨1000, 1500, "b", 60⟩] : List Admission),
      0 ≤ b.point.tokens := by decide
  apply caps_bound_every_minute h₂
  intro pre a hpre b hb _ _
  exact hnonneg b (hpre.subset (List.mem_append_left _ hb))

end Rheonic.ProtectApi
