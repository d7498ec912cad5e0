import Rheonic.MetricsService
import Rheonic.FinalizeCounters
import Rheonic.Cooldown

namespace Rheonic.MetricsService
open CommandProgram Redis Keys PyText ProtectActionStore RollingWindow SortedBy

/-- The records that the protect metrics of a scope are read from. -/
def shownFields : List OutcomeField := [.allow, .clamp, .block, .timeout, .last]

/-- The commands of a reading: they read, or trim the two sorted sets of the scope. -/
def ReadsOrTrims (p : String) (c : Cmd) : Prop :=
  (∃ k, c = .get k) ∨ c.key = latencyKey p ∨ c.key = timeoutEventsKey p

theorem shown_ne_trimmed {f : OutcomeField} (hf : f ∈ shownFields) (p q : String) :
    f.key q ≠ latencyKey p ∧ f.key q ≠ timeoutEventsKey p := by
  simp only [shownFields, List.mem_cons, List.not_mem_nil, or_false] at hf
  rcases hf with rfl | rfl | rfl | rfl | rfl
  · exact ⟨append_ofList_ne 6 (by decide) (by decide) (by decide) _ _,
      append_ofList_ne 6 (by decide) (by decide) (by decide) _ _⟩
  · exact ⟨append_ofList_ne 6 (by decide) (by decide) (by decide) _ _,
      append_ofList_ne 6 (by decide) (by decide) (by decide) _ _⟩
  · exact ⟨append_ofList_ne 6 (by decide) (by decide) (by decide) _ _,
      append_ofList_ne 6 (by decide) (by decide) (by decide) _ _⟩
  · exact ⟨append_ofList_ne 6 (by decide) (by decide) (by decide) _ _,
      append_ofList_ne 6 (by decide) (by decide) (by decide) _ _⟩
  · exact ⟨append_ofList_ne 1 (by decide) (by decide) (by decide) _ _,
      append_ofList_ne 1 (by decide) (by decide) (by decide) _ _⟩

theorem readInt_readsOrTrims (p k : String) : Program.Issues (ReadsOrTrims p) (readInt k) :=
  .bind (.perform (show ReadsOrTrims p (.get k) from .inl ⟨k, rfl⟩)) fun _ => .pure _

theorem getHealth_readsOrTrims (p : String) (nowMs : ℕ) :
    Program.Issues (ReadsOrTrims p) (getHealth p nowMs) := by
  refine Program.Issues.tryCatch ?_ fun _ => .pure _
  refine .bind (.perform (show ReadsOrTrims p (.zremrangebyscore _ _ _) from .inr (.inl rfl)))
    fun _ => ?_
  refine .bind (.perform (show ReadsOrTrims p (.zrangebyscore _ _) from .inr (.inl rfl))) fun _ => ?_
  refine .bind (readInt_readsOrTrims p _) fun _ => .bind ?_ fun _ => .pure _
  refine .bind (.perform (show ReadsOrTrims p (.zremrangebyscore _ _ _) from .inr (.inr rfl)))
    fun _ => ?_
  exact .bind (.perform (show ReadsOrTrims p (.zrangebyscore _ _) from .inr (.inr rfl)))
    fun _ => .pure _

theorem getMetrics_readsOrTrims (p : String) (nowMs : ℕ) :
    Program.Issues (ReadsOrTrims p) (getMetrics p nowMs) := by
  refine Program.Issues.tryCatch ?_ fun _ => .pure _
  refine .bind (readInt_readsOrTrims p _) fun _ => .bind (readInt_readsOrTrims p _) fun _ => ?_
  refine .bind (readInt_readsOrTrims p _) fun _ => .bind (readInt_readsOrTrims p _) fun _ => ?_
  refine .bind (.perform (show ReadsOrTrims p (.get _) from .inl ⟨_, rfl⟩)) fun _ => ?_
  exact .bind (getHealth_readsOrTrims p nowMs) fun _ => .pure _

theorem exec_get_state (k : String) (s : Store) : (exec (.get k) s).2 = s := by
  simp only [exec]
  split <;> rfl

/-- The readings of all scopes are the same in two stores. -/
def SameShown (s s' : Store) : Prop :=
  s'.clock = s.clock ∧ ∀ q, ∀ f ∈ shownFields, s'.lookup (f.key q) = s.lookup (f.key q)

theorem SameShown.trans {s s' s'' : Store} (h : SameShown s s') (h' : SameShown s' s'') :
    SameShown s s'' :=
  ⟨h'.1.trans h.1, fun q f hf => (h'.2 q f hf).trans (h.2 q f hf)⟩

theorem sameShown_of_readsOrTrims {α : Type} {program : Prog α} {p : String}
    (h : Program.Issues (ReadsOrTrims p) program) (s : Store) : SameShown s (run program s).2 := by
  refine h.run_preserves exec (SameShown s) ?_ ⟨rfl, fun _ _ _ => rfl⟩
  intro c t hc ht
  apply ht.trans
  rcases hc with ⟨k, rfl⟩ | hkey
  · rw [exec_get_state]
    exact ⟨rfl, fun _ _ _ => rfl⟩
  · refine ⟨exec_clock c t, fun q f hf => exec_lookup_ne c t ?_⟩
    obtain ⟨hlatency, hevents⟩ := shown_ne_trimmed hf p q
    rcases hkey with hkey | hkey
    · rw [hkey]
      exact hlatency
    · rw [hkey]
      exact hevents

def counters (m : ActionMetrics) : ℤ × ℤ × ℤ × ℤ :=
  (m.allowed60m, m.clamped60m, m.blocked60m, m.decisionTimeouts60m)

def textAt (s : Store) (k : String) : Except Exn (Option Text) := (exec (.get k) s).1

/-- The counters as they stand in the store; where a record is of the wrong kind all read zero. -/
def readCounters (p : String) (s : Store) : ℤ × ℤ × ℤ × ℤ :=
  match textAt s (allowKey p), textAt s (clampKey p), textAt s (blockKey p), textAt s (timeoutKey p),
    textAt s (lastKey p) with
  | .ok allow, .ok clamp, .ok block, .ok timeout, .ok _ =>
    (intOfText allow, intOfText clamp, intOfText block, intOfText timeout)
  | _, _, _, _, _ => 0

theorem run_get_textAt (k : String) (s : Store) : run (get k) s = (textAt s k, s) := by
  rw [run, Redis.get, Program.run_perform]
  exact Prod.ext rfl (exec_get_state k s)

theorem run_readInt_ok {k : String} {s : Store} {t : Option Text} (h : textAt s k = .ok t) :
    run (readInt k) s = (.ok (intOfText t), s) := by
  have hget : run (get k) s = (.ok t, s) := by rw [run_get_textAt, h]
  exact Program.run_bind_eq exec hget

theorem run_readInt_error {k : String} {s : Store} {e : Exn} (h : textAt s k = .error e) :
    run (readInt k) s = (.error e, s) := by
  have hget : Program.run exec (get k) s = (.error e, s) := (run_get_textAt k s).trans (by rw [h])
  unfold readInt
  rw [run, Program.run_bind, hget]

theorem run_bind_error {α β : Type} {program : Prog α} {f : α → Prog β} {s s' : Store} {e : Exn}
    (h : run program s = (.error e, s')) : run (program >>= f) s = (.error e, s') := by
  rw [run] at h
  rw [run, Program.run_bind, h]

theorem getMetrics_counters (p : String) (nowMs : ℕ) (s : Store) :
    ∃ m s', run (getMetrics p nowMs) s = (.ok m, s') ∧ counters m = readCounters p s := by
  -- a read that fails makes the whole answer one of zeros
  have hfail : ∀ e, run (readMetrics p nowMs) s = (.error e, s) →
      run (getMetrics p nowMs) s = (.ok ⟨0, 0, 0, 0, none, none, none⟩, s) := by
    intro e he
    rw [run] at he
    rw [run, getMetrics, Program.run_tryCatch, he]
    rfl
  unfold readCounters
  rcases hallow : textAt s (allowKey p) with e | allow
  · exact ⟨_, s, hfail e (run_bind_error (run_readInt_error hallow)), rfl⟩
  have h₁ := fun {β : Type} (f : ℤ → Prog β) =>
    Program.run_bind_eq exec (f := f) (run_readInt_ok hallow)
  rcases hclamp : textAt s (clampKey p) with e | clamp
  · exact ⟨_, s, hfail e ((h₁ _).trans (run_bind_error (run_readInt_error hclamp))), rfl⟩
  have h₂ := fun {β : Type} (f : ℤ → Prog β) =>
    Program.run_bind_eq exec (f := f) (run_readInt_ok hclamp)
  rcases hblock : textAt s (blockKey p) with e | block
  · exact ⟨_, s, hfail e ((h₁ _).trans ((h₂ _).trans
      (run_bind_error (run_readInt_error hblock)))), rfl⟩
  have h₃ := fun {β : Type} (f : ℤ → Prog β) =>
    Program.run_bind_eq exec (f := f) (run_readInt_ok hblock)
  rcases htimeout : textAt s (timeoutKey p) with e | timeout
  · exact ⟨_, s, hfail e ((h₁ _).trans ((h₂ _).trans ((h₃ _).trans
      (run_bind_error (run_readInt_error htimeout))))), rfl⟩
  have h₄ := fun {β : Type} (f : ℤ → Prog β) =>
    Program.run_bind_eq exec (f := f) (run_readInt_ok htimeout)
  have hget : run (get (lastKey p)) s = (textAt s (lastKey p), s) := run_get_textAt _ s
  rcases hlast : textAt s (lastKey p) with e | last
  · rw [hlast] at hget
    exact ⟨_, s, hfail e ((h₁ _).trans ((h₂ _).trans ((h₃ _).trans ((h₄ _).trans
      (run_bind_error hget))))), rfl⟩
  · rw [hlast] at hget
    -- the health is read under a handler of its own
    obtain ⟨health, s', hhealth⟩ : ∃ health s', run (getHealth p nowMs) s = (.ok health, s') :=
      Program.run_tryCatch_pure exec (readHealth p nowMs) (fun _ => ⟨none, none, 0, 0⟩) s
    have hbody : run (readMetrics p nowMs) s = (.ok ⟨intOfText allow, intOfText clamp,
        intOfText block, intOfText timeout, parseLast last, health.p50Ms, health.p95Ms⟩, s') :=
      (h₁ _).trans ((h₂ _).trans ((h₃ _).trans ((h₄ _).trans
        ((Program.run_bind_eq exec hget).trans (Program.run_bind_eq exec hhealth)))))
    have hrun : run (getMetrics p nowMs) s = run (readMetrics p nowMs) s := by
      rw [run] at hbody
      rw [run, run, getMetrics, Program.run_tryCatch, hbody]
    exact ⟨_, s', hrun.trans hbody, rfl⟩

theorem readCounters_congr {s s' : Store} (h : SameShown s s') (p : String) :
    readCounters p s' = readCounters p s := by
  have htext : ∀ f ∈ shownFields, textAt s' (f.key p) = textAt s (f.key p) := by
    intro f hf
    exact (exec_congr (.get (f.key p)) (h.2 p f hf)).1
  have hallow : textAt s' (allowKey p) = textAt s (allowKey p) := htext .allow (by decide)
  have hclamp : textAt s' (clampKey p) = textAt s (clampKey p) := htext .clamp (by decide)
  have hblock : textAt s' (blockKey p) = textAt s (blockKey p) := htext .block (by decide)
  have htimeout : textAt s' (timeoutKey p) = textAt s (timeoutKey p) := htext .timeout (by decide)
  have hlast : textAt s' (lastKey p) = textAt s (lastKey p) := htext .last (by decide)
  unfold readCounters
  rw [hallow, hclamp, hblock, htimeout, hlast]

theorem readCounters_of_none {s : Store} {p : String}
    (h : ∀ f ∈ shownFields, s.lookup (f.key p) = none) : readCounters p s = 0 := by
  have htext : ∀ f ∈ shownFields, textAt s (f.key p) = .ok none := by
    intro f hf
    simp only [textAt, exec, h f hf]
  have hallow : textAt s (allowKey p) = .ok none := htext .allow (by decide)
  have hclamp : textAt s (clampKey p) = .ok none := htext .clamp (by decide)
  have hblock : textAt s (blockKey p) = .ok none := htext .block (by decide)
  have htimeout : textAt s (timeoutKey p) = .ok none := htext .timeout (by decide)
  have hlast : textAt s (lastKey p) = .ok none := htext .last (by decide)
  unfold readCounters
  rw [hallow, hclamp, hblock, htimeout, hlast]
  rfl

section Sums

variable {projectId : String} {now : ℕ}

def scopeOf (projectId provider : String) : String :=
  scopedProjectProviderId projectId (some provider)

def Gathered.counters (g : Gathered) : ℤ × ℤ × ℤ × ℤ :=
  (g.allowed60m, g.clamped60m, g.blocked60m, g.decisionTimeouts60m)

theorem gatherMetrics_counters (providers : List String) (g : Gathered) (s : Store) :
    ∃ (g' : Gathered) (s' : Store), run (gatherMetrics projectId now providers g) s = (.ok g', s') ∧
      g'.counters = g.counters +
        (providers.map fun q => readCounters (scopeOf projectId q) s).sum := by
  induction providers generalizing g s with
  | nil => exact ⟨g, s, rfl, by simp⟩
  | cons q providers ih =>
    obtain ⟨m, s₁, hread, hcounters⟩ := getMetrics_counters (scopeOf projectId q) now s
    have hsame := sameShown_of_readsOrTrims (getMetrics_readsOrTrims (scopeOf projectId q) now) s
    rw [hread] at hsame
    obtain ⟨g', s', hrest, hsum⟩ := ih (g.add m) s₁
    refine ⟨g', s', (Program.run_bind_eq exec hread).trans hrest, ?_⟩
    have hadd : (g.add m).counters = g.counters + counters m := rfl
    have htail : (providers.map fun q => readCounters (scopeOf projectId q) s₁) =
        providers.map fun q => readCounters (scopeOf projectId q) s := by
      apply List.map_congr_left
      intro q' _
      exact readCounters_congr hsame _
    rw [hsum, hadd, hcounters, htail, List.map_cons, List.sum_cons, add_assoc]

theorem getProtectMetrics_counters (models : List ProjectModel) (provider : Option String)
    (s : Store) : ∃ m s', run (getProtectMetrics models projectId provider now) s = (.ok m, s') ∧
      counters m = ((projectProvidersForAggregation models projectId provider).map fun q =>
        readCounters (scopeOf projectId q) s).sum := by
  obtain ⟨g, s', hrun, hsum⟩ :
      ∃ (g : Gathered) (s' : Store), run (gatherMetrics projectId now
        (projectProvidersForAggregation models projectId provider) {}) s = (.ok g, s') ∧ _ :=
    gatherMetrics_counters _ {} s
  refine ⟨g.metrics, s', Program.run_bind_eq exec hrun, ?_⟩
  have hzero : ({} : Gathered).counters = 0 := rfl
  rw [hzero, zero_add] at hsum
  exact hsum

/-- The requests and tokens in the window of a scope. -/
def usage (increments : List (String × Point)) (now : ℕ) (scope : String) : ℕ × ℤ :=
  ((ProtectApi.usageOf scope increments now).requests60s,
    (ProtectApi.usageOf scope increments now).tokens60s)

theorem sumRealtime_usage {increments : List (String × Point)} (providers : List String)
    (totals : ℕ × ℤ) {s : Store} (h : ProtectApi.Tracked increments now s) :
    ∃ s', run (sumRealtime projectId now providers totals) s =
      (.ok (totals + (providers.map fun q => usage increments now (scopeOf projectId q)).sum), s') := by
  induction providers generalizing totals s with
  | nil => exact ⟨s, by simp [sumRealtime]⟩
  | cons q providers ih =>
    obtain ⟨s₁, hread, _⟩ := (h.2 (scopeOf projectId q)).getProject60s
    have htracked := ProtectApi.getProject60s_tracked (scopeOf projectId q) s h
    rw [h.1] at hread
    have hs₁ : (Program.run exec (getProject60s (scopeOf projectId q) now) s).2 = s₁ :=
      congrArg Prod.snd hread
    rw [hs₁] at htracked
    obtain ⟨s', hrest⟩ := ih (totals + usage increments now (scopeOf projectId q)) htracked
    refine ⟨s', (Program.run_bind_eq exec hread).trans ?_⟩
    rw [List.map_cons, List.sum_cons, ← add_assoc]
    exact hrest

end Sums

section Providers

variable (projectId : String)

/-- The provider that a call records an outcome or an event for, if it is one of the project. -/
def callProvider : ProtectApi.Call → Option String
  | .decision r => (r.project.filter (·.id = projectId)).map fun _ =>
      ProtectService.normalizedProvider (some r.provider)
  | .timeout r | .unavailable r => (r.project.filter (·.id = projectId)).map fun _ =>
      ProtectService.normalizedProvider (some (orElse r.provider "unknown"))
  | .ingest event _ =>
      if event.projectId = projectId then
        some (ProtectService.normalizedProvider (some event.provider)) else none

/-- The providers of the calls of a run, and those that are summed where no model has been seen. -/
def namedProviders (calls : List ProtectApi.Call) : List String :=
  (calls.filterMap (callProvider projectId) ++ fallbackProviders).dedup

/-- An outcome of the provider is on record, or an event lies in the last minute. -/
def onRecord (d : Dashboard) (now : ℕ) (provider : String) : Bool :=
  shownFields.any (fun f =>
      ((d.stores.redis.advance now).lookup (f.key (scopeOf projectId provider))).isSome) ||
    d.stores.increments.any fun e => decide (e.1 = scopeOf projectId provider) &&
      decide ((now : ℤ) - 60000 < e.2.time)

/-- The providers for which something is recorded in its window. -/
def recordedProviders (d : Dashboard) (calls : List ProtectApi.Call) (now : ℕ) : List String :=
  (namedProviders projectId calls).filter (onRecord projectId d now)

/-- The answers without a provider are the sums of those for every provider on record. -/
def SumsOverProviders (d : Dashboard) (calls : List ProtectApi.Call) (now : ℕ) : Prop :=
  ∃ (total : ActionMetrics) (part : String → ActionMetrics) (used : ℕ × ℤ)
    (usedBy : String → ℕ × ℤ),
    protectMetrics d projectId none now = .ok total ∧ realtime d projectId none now = .ok used ∧
      (∀ q ∈ recordedProviders projectId d calls now,
        protectMetrics d projectId (some q) now = .ok (part q) ∧
          realtime d projectId (some q) now = .ok (usedBy q)) ∧
      counters total =
        ((recordedProviders projectId d calls now).map fun q => counters (part q)).sum ∧
      used = ((recordedProviders projectId d calls now).map usedBy).sum

variable {projectId}

theorem normalizedProvider_of_ne {provider : String} (h : strip provider ≠ "") :
    ProtectService.normalizedProvider (some provider) = strip provider := by
  have hne : provider ≠ "" := by
    rintro rfl
    exact h (by decide)
  unfold ProtectService.normalizedProvider
  rw [orElse_of_ne hne, orElse_of_ne h]

theorem serve_models {settings : ProtectService.Settings} {d : Dashboard} {now : ℕ}
    {call : ProtectApi.Call} {row : ProjectModel} (h : row ∈ (serve settings d now call).2.models) :
    row ∈ d.models ∨ callProvider row.projectId call = some row.provider := by
  unfold serve at h
  dsimp only at h
  split at h
  · next event memberId _ _ =>
    unfold detectPolicyGapIfNeeded at h
    dsimp only at h
    split at h
    · exact .inl h
    · next hne =>
      rw [not_or] at hne
      unfold recordProjectModelFirstSeen at h
      split at h
      · exact .inl h
      · rcases List.mem_append.mp h with h | h
        · exact .inl h
        · right
          rw [List.mem_singleton.mp h]
          exact (if_pos rfl).trans (congrArg some (normalizedProvider_of_ne hne.1))
  · exact .inl h

theorem Runs.models {settings : ProtectService.Settings} {d d' : Dashboard}
    {calls : List ProtectApi.Call} (hrun : Runs settings d calls d') {row : ProjectModel}
    (h : row ∈ d'.models) :
    row ∈ d.models ∨ ∃ call ∈ calls, callProvider row.projectId call = some row.provider := by
  induction hrun with
  | nil d => exact .inl h
  | cons now call _ _ _ ih =>
    rcases ih h with hrow | ⟨call', hmem, hcall⟩
    · rcases serve_models hrow with hold | hnew
      · exact .inl hold
      · exact .inr ⟨call, List.mem_cons_self, hnew⟩
    · exact .inr ⟨call', List.mem_cons_of_mem _ hmem, hcall⟩

theorem Runs.tracked {settings : ProtectService.Settings} {d d' : Dashboard}
    {calls : List ProtectApi.Call} (hrun : Runs settings d calls d')
    (h : ProtectApi.Tracked d.stores.increments d.stores.redis.clock d.stores.redis) :
    ProtectApi.Tracked d'.stores.increments d'.stores.redis.clock d'.stores.redis := by
  induction hrun with
  | nil d => exact h
  | cons now call hclock hfresh _ ih =>
    have hstep := ProtectApi.serve_tracked settings h hclock hfresh
    apply ih
    have hnow : (serve settings _ now call).2.stores.redis.clock = now := hstep.1
    rw [hnow]
    exact hstep

theorem mem_listProjectProviders {models : List ProjectModel} {q : String}
    (h : q ∈ listProjectProviders models projectId) :
    ∃ row ∈ models, row.projectId = projectId ∧ row.provider = q := by
  have hmem := (List.mem_filter.mp h).1
  rw [mem_sortedBy, List.mem_dedup, List.mem_map] at hmem
  obtain ⟨row, hrow, hq⟩ := hmem
  obtain ⟨hin, hproject⟩ := List.mem_filter.mp hrow
  exact ⟨row, hin, of_decide_eq_true hproject, hq⟩

theorem nodup_aggregation (models : List ProjectModel) :
    (projectProvidersForAggregation models projectId none).Nodup := by
  unfold projectProvidersForAggregation
  have htruthy : truthy none = none := rfl
  rw [htruthy]
  dsimp only
  split
  · decide
  · exact ((sortedBy_perm _ _).nodup_iff.mpr (List.nodup_dedup _)).filter _

theorem named_of_aggregated {settings : ProtectService.Settings} {d : Dashboard} {t : ℕ}
    {calls : List ProtectApi.Call} (hrun : Runs settings (start t) calls d) {q : String}
    (h : q ∈ projectProvidersForAggregation d.models projectId none) :
    q ∈ namedProviders projectId calls := by
  unfold namedProviders
  rw [List.mem_dedup, List.mem_append]
  unfold projectProvidersForAggregation at h
  have htruthy : truthy none = none := rfl
  rw [htruthy] at h
  dsimp only at h
  split at h
  · exact .inr h
  · obtain ⟨row, hrow, hproject, hq⟩ := mem_listProjectProviders h
    rcases hrun.models hrow with hnone | ⟨call, hcall, hprovider⟩
    · exact absurd hnone List.not_mem_nil
    · left
      rw [List.mem_filterMap]
      exact ⟨call, hcall, by rw [← hproject, hprovider, hq]⟩

theorem sum_map_eq {M : Type} [AddCommMonoid M] {l l' : List String} (f : String → M)
    (hl : l.Nodup) (hl' : l'.Nodup) (hsub : ∀ a ∈ l', a ∈ l) (hzero : ∀ a ∈ l, a ∉ l' → f a = 0) :
    (l.map f).sum = (l'.map f).sum := by
  rw [← List.sum_toFinset f hl, ← List.sum_toFinset f hl']
  symm
  apply Finset.sum_subset
  · intro a ha
    rw [List.mem_toFinset] at ha ⊢
    exact hsub a ha
  · intro a ha hnot
    rw [List.mem_toFinset] at ha hnot
    exact hzero a ha hnot

theorem orElse_unknown_ne (value : Option String) : orElse value "unknown" ≠ "" := by
  have hne : "unknown" ≠ "" := by decide
  cases value with
  | none => exact hne
  | some value =>
    by_cases hvalue : value = ""
    · rw [hvalue, orElse_empty]
      exact hne
    · rw [orElse_of_ne hvalue]
      exact hvalue

theorem named_ne_empty {calls : List ProtectApi.Call} {q : String}
    (h : q ∈ namedProviders projectId calls) : q ≠ "" := by
  unfold namedProviders at h
  rw [List.mem_dedup, List.mem_append] at h
  rcases h with h | h
  · obtain ⟨call, _, hcall⟩ := List.mem_filterMap.mp h
    cases call with
    | decision r =>
      obtain ⟨_, _, hq⟩ := Option.map_eq_some_iff.mp hcall
      rw [← hq]
      exact orElse_unknown_ne _
    | timeout r =>
      obtain ⟨_, _, hq⟩ := Option.map_eq_some_iff.mp hcall
      rw [← hq]
      exact orElse_unknown_ne _
    | unavailable r =>
      obtain ⟨_, _, hq⟩ := Option.map_eq_some_iff.mp hcall
      rw [← hq]
      exact orElse_unknown_ne _
    | ingest event memberId =>
      have hnamed : (if event.projectId = projectId then
          some (ProtectService.normalizedProvider (some event.provider)) else none) = some q := hcall
      by_cases hproject : event.projectId = projectId
      · rw [if_pos hproject] at hnamed
        rw [← Option.some.inj hnamed]
        exact orElse_unknown_ne _
      · rw [if_neg hproject] at hnamed
        exact absurd hnamed (Option.some_ne_none q).symm
  · intro hempty
    rw [hempty] at h
    exact absurd h (by decide)

theorem reads_zero {d : Dashboard} {now : ℕ} {q : String} (h : onRecord projectId d now q = false) :
    readCounters (scopeOf projectId q) (d.stores.redis.advance now) = 0 ∧
      usage d.stores.increments now (scopeOf projectId q) = 0 := by
  unfold onRecord at h
  rw [Bool.or_eq_false_iff, List.any_eq_false, List.any_eq_false] at h
  constructor
  · apply readCounters_of_none
    intro f hf
    have hnone := h.1 f hf
    rwa [Bool.not_eq_true, Option.isSome_eq_false_iff, Option.isNone_iff_eq_none] at hnone
  · have hwindow : window now (ofScope (scopeOf projectId q) d.stores.increments) = [] := by
      apply SlidingWindow.after_eq_nil
      intro point hpoint
      obtain ⟨e, he, hep⟩ := List.mem_map.mp hpoint
      obtain ⟨hin, hscope⟩ := List.mem_filter.mp he
      have hold := h.2 e hin
      rw [← hep]
      have hms : (rollingWindowMs : ℤ) = 60000 := by decide
      simp only [of_decide_eq_true hscope, decide_true, Bool.true_and, decide_eq_true_eq] at hold
      have hscore : e.2.score = (e.2.time : ℤ) := rfl
      omega
    unfold usage ProtectApi.usageOf
    rw [hwindow]
    rfl

/-- The table has a row of the provider for the project, or none of the project at all and the
provider is one of those then summed. -/
def Listed (models : List ProjectModel) (projectId provider : String) : Prop :=
  (∃ row ∈ models, row.projectId = projectId ∧ row.provider = provider) ∨
    (∀ row ∈ models, row.projectId ≠ projectId) ∧ provider ∈ fallbackProviders

theorem mem_listProjectProviders_iff {models : List ProjectModel} {q : String} (hq : q ≠ "") :
    q ∈ listProjectProviders models projectId ↔
      ∃ row ∈ models, row.projectId = projectId ∧ row.provider = q := by
  constructor
  · exact mem_listProjectProviders
  · intro ⟨row, hrow, hproject, hprovider⟩
    apply List.mem_filter.mpr
    refine ⟨?_, decide_eq_true hq⟩
    rw [mem_sortedBy, List.mem_dedup]
    exact List.mem_map.mpr ⟨row, List.mem_filter.mpr ⟨hrow, decide_eq_true hproject⟩, hprovider⟩

theorem aggregated_of_listed {models : List ProjectModel} {q : String} (hq : q ≠ "")
    (h : Listed models projectId q) : q ∈ projectProvidersForAggregation models projectId none := by
  have htruthy : truthy none = none := rfl
  unfold projectProvidersForAggregation
  rw [htruthy]
  dsimp only
  rcases h with hrow | ⟨hnone, hfallback⟩
  · have hmem := (mem_listProjectProviders_iff hq).mpr hrow
    rw [if_neg (List.ne_nil_of_mem hmem)]
    exact hmem
  · have hempty : listProjectProviders models projectId = [] := by
      apply List.eq_nil_iff_forall_not_mem.mpr
      intro q' hq'
      obtain ⟨row, hrow, hproject, _⟩ := mem_listProjectProviders hq'
      exact hnone row hrow hproject
    rw [if_pos hempty]
    exact hfallback

theorem aggregation_some (models : List ProjectModel) {q : String} (hq : q ≠ "") :
    projectProvidersForAggregation models projectId (some q) = [q] := by
  have htruthy : truthy (some q) = some q := by
    unfold truthy
    rw [Option.filter_some, if_pos (decide_eq_true hq)]
  unfold projectProvidersForAggregation
  rw [htruthy]

/-- The totals of a project are the sums over its providers where every provider on record is
listed for it. -/
theorem sums_over_providers {settings : ProtectService.Settings} {d : Dashboard} {t now : ℕ}
    {calls : List ProtectApi.Call} (hrun : Runs settings (start t) calls d)
    (hnow : d.stores.redis.clock ≤ now) (projectId : String)
    (hlisted : ∀ q ∈ recordedProviders projectId d calls now, Listed d.models projectId q) :
    SumsOverProviders projectId d calls now := by
  have htracked := (hrun.tracked (ProtectApi.tracked_start t)).advance hnow
  set s := d.stores.redis.advance now with hs
  have hne : ∀ q ∈ recordedProviders projectId d calls now, q ≠ "" :=
    fun q hq => named_ne_empty (List.mem_filter.mp hq).1
  -- the answers with and without a provider, as sums over the providers aggregated
  have hmetrics : ∀ provider, ∃ m, protectMetrics d projectId provider now = .ok m ∧
      counters m = ((projectProvidersForAggregation d.models projectId provider).map fun q =>
        readCounters (scopeOf projectId q) s).sum := by
    intro provider
    obtain ⟨m, s', hread, hm⟩ :
        ∃ m s', run (getProtectMetrics d.models projectId provider now) s = (.ok m, s') ∧ _ :=
      getProtectMetrics_counters d.models provider s
    exact ⟨m, congrArg Prod.fst hread, hm⟩
  have hrealtime : ∀ provider, realtime d projectId provider now =
      .ok ((projectProvidersForAggregation d.models projectId provider).map fun q =>
        usage d.stores.increments now (scopeOf projectId q)).sum := by
    intro provider
    obtain ⟨s', hread⟩ : ∃ s', run (getRealtime d.models projectId provider now) s =
        (.ok (0 + _), s') := sumRealtime_usage _ 0 htracked
    rw [zero_add] at hread
    exact congrArg Prod.fst hread
  -- what is summed without being on record is zero, so both sums run over the same providers
  have hsame : ∀ {M : Type} [AddCommMonoid M] (f : String → M),
      (∀ q, onRecord projectId d now q = false → f q = 0) →
      ((projectProvidersForAggregation d.models projectId none).map f).sum =
        ((recordedProviders projectId d calls now).map f).sum := by
    intro M _ f hf
    apply sum_map_eq f (nodup_aggregation _) ((List.nodup_dedup _).filter _)
    · intro q hq
      exact aggregated_of_listed (hne q hq) (hlisted q hq)
    · intro q hq hnot
      apply hf
      rw [← Bool.not_eq_true]
      intro hon
      exact hnot (List.mem_filter.mpr ⟨named_of_aggregated hrun hq, hon⟩)
  choose part hpart hcounters using hmetrics
  refine ⟨part none, fun q => part (some q), _, _, hpart none, hrealtime none,
    fun q hq => ⟨hpart (some q), hrealtime (some q)⟩, ?_, ?_⟩
  · rw [hcounters none, hsame _ fun q hq => (reads_zero hq).1]
    congr 1
    apply List.map_congr_left
    intro q hq
    rw [hcounters (some q), aggregation_some _ (hne q hq), List.map_singleton, List.sum_singleton]
  · rw [hsame _ fun q hq => (reads_zero hq).2]
    congr 1
    apply List.map_congr_left
    intro q hq
    rw [aggregation_some _ (hne q hq), List.map_singleton, List.sum_singleton]

end Providers

section Samples

open ProtectApi ProtectService

def sampleMistral : PreflightRequest :=
  { samplePreflight "r1" with provider := "mistral" }

def sampleIngest (requestedModel : Option String) : ProtectApi.Call :=
  .ingest { sampleEvent 10 with requestedModel := requestedModel } "m"

/-- An event of one provider with a model, then a decision for a provider not ingested yet. -/
def sampleCalls : List ProtectApi.Call := [sampleIngest (some "gpt"), .decision sampleMistral]

def sampleDashboard : Dashboard :=
  (serve sampleSettings (serve sampleSettings (start 0) 1000 (sampleIngest (some "gpt"))).2 2000
    (.decision sampleMistral)).2

theorem sample_runs : Runs sampleSettings (start 0) sampleCalls sampleDashboard :=
  .cons 1000 _ (by decide +kernel) (by simp [Fresh, sampleIngest, start, ProtectApi.start])
    (.cons 2000 (.decision sampleMistral) (by decide +kernel) trivial (.nil _))

/-- Once an event of one provider is in the table, the decisions for another are left out. -/
theorem drops_decided_provider :
    ¬ ∀ (settings : Settings) (d : Dashboard) (t now : ℕ) (calls : List ProtectApi.Call),
      Runs settings (start t) calls d → d.stores.redis.clock ≤ now →
        ∀ projectId, SumsOverProviders projectId d calls now := by
  intro h
  obtain ⟨total, part, _, _, htotal, _, hparts, hsum, _⟩ :=
    h sampleSettings sampleDashboard 0 3000 sampleCalls sample_runs (by decide +kernel) "p1"
  have hrecorded : recordedProviders "p1" sampleDashboard sampleCalls 3000 =
      ["mistral", "openai"] := by decide +kernel
  have hnone : (protectMetrics sampleDashboard "p1" none 3000).map counters = .ok (0, 0, 0, 0) := by
    decide +kernel
  have hmistral : (protectMetrics sampleDashboard "p1" (some "mistral") 3000).map counters =
      .ok (1, 0, 0, 0) := by decide +kernel
  have hopenai : (protectMetrics sampleDashboard "p1" (some "openai") 3000).map counters =
      .ok (0, 0, 0, 0) := by decide +kernel
  rw [hrecorded] at hparts hsum
  rw [htotal] at hnone
  rw [(hparts "mistral" (by decide)).1] at hmistral
  rw [(hparts "openai" (by decide)).1] at hopenai
  have htotal₀ : counters total = (0, 0, 0, 0) := Except.ok.inj hnone
  have hpart₁ : counters (part "mistral") = (1, 0, 0, 0) := Except.ok.inj hmistral
  have hpart₀ : counters (part "openai") = (0, 0, 0, 0) := Except.ok.inj hopenai
  rw [htotal₀, List.map_cons, List.map_singleton, hpart₁, hpart₀] at hsum
  exact absurd hsum (by decide)

/-- The provider of the decision has been ingested with a model. -/
def sampleListed : Dashboard :=
  (serve sampleSettings (serve sampleSettings (start 0) 1000 (sampleIngest (some "gpt"))).2 2000
    (.decision (samplePreflight "r1"))).2

theorem sums_over_providers_sample :
    SumsOverProviders "p1" sampleListed
      [sampleIngest (some "gpt"), .decision (samplePreflight "r1")] 3000 := by
  have hrun : Runs sampleSettings (start 0)
      [sampleIngest (some "gpt"), .decision (samplePreflight "r1")] sampleListed :=
    .cons 1000 _ (by decide +kernel) (by simp [Fresh, sampleIngest, start, ProtectApi.start])
      (.cons 2000 (.decision (samplePreflight "r1")) (by decide +kernel) trivial (.nil _))
  apply sums_over_providers hrun (by decide +kernel)
  have hrecorded : recordedProviders "p1" sampleListed
      [sampleIngest (some "gpt"), .decision (samplePreflight "r1")] 3000 = ["openai"] := by
    decide +kernel
  have hrow : ∃ row ∈ sampleListed.models, row.projectId = "p1" ∧ row.provider = "openai" := by
    decide +kernel
  intro q hq
  rw [hrecorded, List.mem_singleton] at hq
  rw [hq]
  exact .inl hrow

end Samples

end Rheonic.MetricsService
