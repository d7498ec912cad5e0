import Rheonic.Lib.Coupling
import Rheonic.ServiceSteps

namespace Rheonic.IncidentManager
open CommandProgram PyText RowTable IncidentRepository
open Program (Coupled AnswersRelated)

/-- Entries of one key, with one value unless it is the provider's. -/
def SameEntry (x x' : String × Value) : Prop := x.1 = x'.1 ∧ (x.1 ≠ "provider" → x.2 = x'.2)

def SameEvidence (e e' : Evidence) : Prop := List.Forall₂ SameEntry e e'

/-- A fingerprint: the project and the provider, and then a text. -/
def named (projectId provider tail : String) : String := projectId ++ ":" ++ provider ++ tail

/-- Fingerprints that differ by no more than the provider in them. -/
def SameFingerprint (projectId provider provider' : String) (f f' : Option String) : Prop :=
  provider' = provider ∧ f' = f ∨
    ∃ tail, f = some (named projectId provider tail) ∧ f' = some (named projectId provider' tail)

/-- Two incidents that are the same up to the provider text. -/
structure SameButProvider (i i' : Incident) : Prop where
  projectId : i'.projectId = i.projectId
  incidentType : i'.incidentType = i.incidentType
  status : i'.status = i.status
  createdAt : i'.createdAt = i.createdAt
  resolvedAt : i'.resolvedAt = i.resolvedAt
  lastSeenAt : i'.lastSeenAt = i.lastSeenAt
  evidence : SameEvidence i.evidence i'.evidence
  fingerprint : SameFingerprint i.projectId i.provider i'.provider i.fingerprint i'.fingerprint

def Renamed (ρ : String → String → String) (i i' : Incident) : Prop :=
  SameButProvider i i' ∧ i'.provider = ρ i.projectId i.provider

/-- The incidents are the same but for the renaming, and so are the notifications. -/
def WorldsRenamed (ρ : String → String → String) (w w' : World) : Prop :=
  Table.Related (Renamed ρ) w.incidents w'.incidents ∧ w'.notifications = w.notifications

section Evidence

variable {e e' d d' : Evidence}

theorem SameEvidence.refl (e : Evidence) : SameEvidence e e :=
  List.forall₂_same.mpr fun _ _ => ⟨rfl, fun _ => rfl⟩

theorem SameEvidence.get (h : SameEvidence e e') {key : String} (hkey : key ≠ "provider") :
    e'.get key = e.get key := by
  unfold SameEvidence at h
  induction h with
  | nil => rfl
  | @cons x x' e e' hx _ ih =>
    unfold Evidence.get at ih ⊢
    rw [List.find?_cons, List.find?_cons, ← hx.1]
    by_cases hk : x.1 = key
    · have hvalue : x.2 = x'.2 := hx.2 (hk ▸ hkey)
      simp only [hk, decide_true, Option.map_some, hvalue]
    · simp only [hk, decide_false]
      exact ih

theorem SameEvidence.merge (h : SameEvidence e e') (hd : SameEvidence d d') :
    SameEvidence (e.merge d) (e'.merge d') :=
  List.rel_append hd h

theorem SameEvidence.withCount (h : SameEvidence e e') (count : ℤ) :
    SameEvidence (withCount e count) (withCount e' count) :=
  h.merge (.refl _)

theorem sameEvidence_provider (provider provider' : String) (e : Evidence) :
    SameEvidence (("provider", .str provider) :: e) (("provider", .str provider') :: e) :=
  .cons ⟨rfl, fun h => absurd rfl h⟩ (SameEvidence.refl e)

end Evidence

section Fingerprints

variable {projectId provider provider' : String} {f f' g g' : Option String}

theorem named_inj {tail tail' : String}
    (h : named projectId provider tail = named projectId provider tail') : tail = tail' := by
  have hl := congrArg String.toList h
  simp only [named, String.toList_append, List.append_assoc, List.append_cancel_left_eq] at hl
  exact String.toList_injective hl

theorem SameFingerprint.of_eq (h : SameFingerprint projectId provider provider' f f')
    (hprovider : provider' = provider) : f' = f := by
  rcases h with ⟨_, hsame⟩ | ⟨tail, hf, hf'⟩
  · exact hsame
  · rw [hf, hf', hprovider]

theorem SameFingerprint.eq_iff (h : SameFingerprint projectId provider provider' f f')
    (hg : SameFingerprint projectId provider provider' g g') : f = g ↔ f' = g' := by
  by_cases hprovider : provider' = provider
  · rw [h.of_eq hprovider, hg.of_eq hprovider]
  · rcases h with ⟨hsame, _⟩ | ⟨tail, hf, hf'⟩
    · exact absurd hsame hprovider
    · rcases hg with ⟨hsame, _⟩ | ⟨tail', hg, hg'⟩
      · exact absurd hsame hprovider
      · rw [hf, hf', hg, hg', Option.some.injEq, Option.some.injEq]
        constructor
        · intro heq
          rw [named_inj heq]
        · intro heq
          rw [named_inj heq]

end Fingerprints

section Rows

variable {ρ : String → String → String} {i i' : Incident}

theorem SameButProvider.refl (i : Incident) : SameButProvider i i :=
  ⟨rfl, rfl, rfl, rfl, rfl, rfl, .refl _, .inl ⟨rfl, rfl⟩⟩

theorem SameButProvider.seenAt (h : SameButProvider i i') : i'.seenAt = i.seenAt := by
  unfold Incident.seenAt
  rw [h.lastSeenAt, h.createdAt]

theorem SameButProvider.count (h : SameButProvider i i') : i'.count = i.count := by
  unfold Incident.count
  rw [h.evidence.get (by decide)]

theorem Renamed.seen (h : Renamed ρ i i') {e e' : Evidence} (he : SameEvidence e e') (now : ℕ) :
    Renamed ρ (i.seen e now) (i'.seen e' now) :=
  ⟨{ h.1 with evidence := he, lastSeenAt := rfl }, h.2⟩

theorem Renamed.closed (h : Renamed ρ i i') (status : Status) (now : ℕ) :
    Renamed ρ (i.closed status now) (i'.closed status now) :=
  ⟨{ h.1 with status := rfl, resolvedAt := rfl }, h.2⟩

theorem Renamed.matchesFingerprint (hρ : ∀ p, Function.Injective (ρ p)) (h : Renamed ρ i i')
    {projectId provider fingerprint fingerprint' : String}
    (hf : SameFingerprint projectId provider (ρ projectId provider) (some fingerprint)
      (some fingerprint')) (activeAfter : ℕ) :
    matchesFingerprint projectId provider fingerprint activeAfter i =
      matchesFingerprint projectId (ρ projectId provider) fingerprint' activeAfter i' := by
  rw [Bool.eq_iff_iff, matchesFingerprint_iff, matchesFingerprint_iff, h.1.projectId, h.1.status,
    h.1.seenAt, h.2]
  have hprovider : i.projectId = projectId →
      (i.provider = provider ↔ ρ i.projectId i.provider = ρ projectId provider) := by
    intro hproject
    rw [hproject]
    exact (hρ projectId).eq_iff.symm
  have hfingerprint : i.projectId = projectId → i.provider = provider →
      (i.fingerprint = some fingerprint ↔ i'.fingerprint = some fingerprint') := by
    intro hproject hname
    have hrow := h.1.fingerprint
    rw [h.2, hproject, hname] at hrow
    exact hrow.eq_iff hf
  constructor
  · rintro ⟨hproject, hname, hstatus, hfound, hseen⟩
    exact ⟨hproject, (hprovider hproject).mp hname, hstatus,
      (hfingerprint hproject hname).mp hfound, hseen⟩
  · rintro ⟨hproject, hname, hstatus, hfound, hseen⟩
    have hname' := (hprovider hproject).mpr hname
    exact ⟨hproject, hname', hstatus, (hfingerprint hproject hname').mpr hfound, hseen⟩

end Rows

section Commands

variable {ρ : String → String → String}

/-- Two programs on incidents that are the same but for the renaming. -/
abbrev RunsRenamed {α α' : Type} (ρ : String → String → String) (Q : α → α' → Prop)
    (p : Prog α) (p' : Prog α') : Prop :=
  Coupled exec exec (WorldsRenamed ρ) Q p p'

abbrev RowsRenamed (ρ : String → String → String) : String × Incident → String × Incident → Prop :=
  Table.RowRelated (Renamed ρ)

theorem runs_getOpenIncidentByFingerprint (hρ : ∀ p, Function.Injective (ρ p))
    {projectId provider fingerprint fingerprint' : String}
    (hf : SameFingerprint projectId provider (ρ projectId provider) (some fingerprint)
      (some fingerprint')) (activeAfter : ℕ) :
    RunsRenamed ρ (Option.Rel (RowsRenamed ρ))
      (getOpenIncidentByFingerprint projectId provider fingerprint activeAfter)
      (getOpenIncidentByFingerprint projectId (ρ projectId provider) fingerprint' activeAfter) := by
  refine Coupled.perform (Command.getOpenIncidentByFingerprint projectId provider fingerprint activeAfter)
    (Command.getOpenIncidentByFingerprint projectId (ρ projectId provider) fingerprint' activeAfter) ?_
  intro w w' hw
  have hrows := hw.1.select
    (p := fun _ i => matchesFingerprint projectId provider fingerprint activeAfter i)
    (fun _ _ _ hi => hi.matchesFingerprint hρ hf activeAfter)
  exact ⟨.ok (argmax_related (fun _ _ he => he.2.1.createdAt.symm) hrows), hw⟩

theorem runs_listOpenByProjectProvider (hρ : ∀ p, Function.Injective (ρ p))
    (projectId provider : String) :
    RunsRenamed ρ (List.Forall₂ (RowsRenamed ρ)) (listOpenByProjectProvider projectId provider)
      (listOpenByProjectProvider projectId (ρ projectId provider)) := by
  refine Coupled.perform (Command.listOpenByProjectProvider projectId provider)
    (Command.listOpenByProjectProvider projectId (ρ projectId provider)) ?_
  intro w w' hw
  have hopen : ∀ (_ : String) (i i' : Incident), Renamed ρ i i' →
      decide (i.projectId = projectId ∧ i.provider = provider ∧ i.status = .open) =
        decide (i'.projectId = projectId ∧ i'.provider = ρ projectId provider ∧
          i'.status = .open) := by
    intro _ i i' hi
    rw [decide_eq_decide, hi.1.projectId, hi.1.status, hi.2]
    constructor
    · rintro ⟨hproject, hname, hstatus⟩
      exact ⟨hproject, by rw [hproject, hname], hstatus⟩
    · rintro ⟨hproject, hname, hstatus⟩
      rw [hproject] at hname
      exact ⟨hproject, hρ projectId hname, hstatus⟩
  refine ⟨.ok (insertionSort_related ?_ (hw.1.select hopen)), hw⟩
  intro e e' d d' he hd
  rw [he.2.1.createdAt, hd.2.1.createdAt]

theorem runs_updateOpenIncidentActivity (id : String) {e e' : Evidence} (he : SameEvidence e e')
    (now : ℕ) :
    RunsRenamed ρ (fun _ _ => True) (updateOpenIncidentActivity id e now)
      (updateOpenIncidentActivity id e' now) := by
  refine Coupled.perform (Command.updateOpenIncidentActivity id e now)
    (Command.updateOpenIncidentActivity id e' now) ?_
  intro w w' hw
  have hopen : ((w.incidents.get id).any fun i => i.status = .open) =
      (w'.incidents.get id).any fun i => i.status = .open := by
    have hget := hw.1.get id
    generalize w.incidents.get id = x at hget
    generalize w'.incidents.get id = x' at hget
    cases hget with
    | none => rfl
    | some hi => rw [Option.any_some, Option.any_some, hi.1.status]
  simp only [exec, ← hopen]
  split
  · exact ⟨.ok trivial, hw.1.update id fun _ _ hi => hi.seen he now, hw.2⟩
  · exact ⟨.ok trivial, hw⟩

theorem runs_createIncident (id : String) {i i' : Incident} (hi : Renamed ρ i i') :
    RunsRenamed ρ (fun _ _ => True) (createIncident id i) (createIncident id i') := by
  refine Coupled.perform (Command.createIncident id i)
    (Command.createIncident id i') ?_
  intro w w' hw
  have hinsert := hw.1.insert id hi
  simp only [exec]
  generalize w.incidents.insert id i = x at hinsert
  generalize w'.incidents.insert id i' = x' at hinsert
  cases hinsert with
  | none => exact ⟨.error _, hw⟩
  | some ht => exact ⟨.ok trivial, ht, hw.2⟩

theorem runs_notify (n : Notification) :
    RunsRenamed ρ (fun _ _ => True) (notify n) (notify n) := by
  refine Coupled.perform (Command.notify n)
    (Command.notify n) ?_
  intro w w' hw
  exact ⟨.ok trivial, hw.1, congrArg (n :: ·) hw.2⟩

theorem runs_resolveIncident (id : String) (now : ℕ) :
    RunsRenamed ρ (fun _ _ => True) (resolveIncident id now) (resolveIncident id now) := by
  refine Coupled.perform (Command.resolveIncident id now)
    (Command.resolveIncident id now) ?_
  intro w w' hw
  exact ⟨.ok trivial, hw.1.update id fun _ _ hi => hi.closed .resolved now, hw.2⟩

end Commands

section Operations

variable {ρ : String → String → String} (m : Manager)

theorem sameEvidence_mergedEvidence {i i' : Incident} (hi : Renamed ρ i i') {e e' : Evidence}
    (he : SameEvidence e e') : SameEvidence (mergedEvidence i e) (mergedEvidence i' e') := by
  unfold mergedEvidence
  rw [hi.1.count]
  exact (hi.1.evidence.merge he).withCount _

theorem sameEvidence_withPreviousReason {i i' : Incident} (hi : Renamed ρ i i')
    (reason : BlockReason) {e e' : Evidence} (he : SameEvidence e e') :
    SameEvidence (withPreviousReason i reason e) (withPreviousReason i' reason e') := by
  unfold withPreviousReason
  rw [hi.1.evidence.get (by decide)]
  split
  · split
    · exact he.merge (.refl _)
    · exact he
  · exact he

/-- What an occurrence brings under another provider name. -/
structure OccursAs (ρ : String → String → String) (o o' : Occurrence) : Prop where
  projectId : o'.projectId = o.projectId
  provider : o'.provider = ρ o.projectId o.provider
  fingerprint : SameFingerprint o.projectId o.provider (ρ o.projectId o.provider)
    (some o.fingerprint) (some o'.fingerprint)
  incidentType : o'.incidentType = o.incidentType
  evidence : SameEvidence o.evidence o'.evidence
  now : o'.now = o.now
  windowMs : o'.windowMs = o.windowMs
  newId : o'.newId = o.newId

theorem OccursAs.incident {o o' : Occurrence} (ho : OccursAs ρ o o') :
    Renamed ρ o.incident o'.incident := by
  refine ⟨⟨ho.projectId, ho.incidentType, rfl, ho.now, rfl, ?_, ?_, ?_⟩, ho.provider⟩
  · exact congrArg some ho.now
  · exact ho.evidence.withCount 1
  · have hfingerprint := ho.fingerprint
    rw [← ho.provider] at hfingerprint
    exact hfingerprint

theorem runs_upsert (hρ : ∀ p, Function.Injective (ρ p)) {o o' : Occurrence}
    (ho : OccursAs ρ o o') : RunsRenamed ρ (fun _ _ => True) (upsert m o) (upsert m o') := by
  have hfind := runs_getOpenIncidentByFingerprint hρ ho.fingerprint (o.now - o.windowMs)
  unfold upsert
  rw [ho.projectId, ho.provider, ho.now, ho.windowMs, ho.newId, ho.incidentType]
  refine hfind.bind ?_
  intro found found' hfound
  cases hfound with
  | none =>
    refine (runs_createIncident o.newId ho.incident).bind ?_
    intro _ _ _
    unfold enqueueDetectionNotifications
    cases o.incidentType with
    | block => exact .pure trivial
    | signal detector => exact runs_notify _
  | @some e e' he =>
    obtain ⟨id, i⟩ := e
    obtain ⟨id', i'⟩ := e'
    obtain ⟨hid, hi⟩ : id = id' ∧ Renamed ρ i i' := he
    subst hid
    refine (runs_updateOpenIncidentActivity id
      (sameEvidence_mergedEvidence hi ho.evidence) o.now).bind ?_
    intro _ _ _
    exact .pure trivial

theorem occursAs_signal (r : SignalCall) (hname : ρ r.projectId r.provider = r.provider) :
    OccursAs ρ (r.occurrence m) (r.occurrence m) :=
  ⟨rfl, hname.symm, .inl ⟨hname, rfl⟩, rfl, .refl _, rfl, rfl, rfl⟩

theorem runs_processSignals (hρ : ∀ p, Function.Injective (ρ p)) {calls : List SignalCall}
    (hnames : ∀ r ∈ calls, ρ r.projectId r.provider = r.provider) :
    RunsRenamed ρ (fun _ _ => True) (ServiceSteps.processSignals m calls)
      (ServiceSteps.processSignals m calls) := by
  induction calls with
  | nil => exact .pure trivial
  | cons r calls ih =>
    refine (runs_upsert m hρ (occursAs_signal m r (hnames r List.mem_cons_self))).bind ?_
    intro _ _ _
    exact ih fun r' hr' => hnames r' (List.mem_cons_of_mem _ hr')

def BlockCall.renamed (ρ : String → String → String) (r : BlockCall) : BlockCall :=
  { r with provider := ρ r.projectId r.provider }

theorem sameEvidence_block (r : BlockCall) : SameEvidence r.evidence (r.renamed ρ).evidence :=
  sameEvidence_provider _ _ _

theorem occursAs_block (r : BlockCall) :
    OccursAs ρ (r.occurrence m) ((r.renamed ρ).occurrence m) := by
  refine ⟨rfl, rfl, .inr ⟨":block:" ++ r.reason.text, ?_, ?_⟩, rfl, sameEvidence_block r, rfl, rfl,
    rfl⟩
  · simp only [BlockCall.occurrence, blockFingerprint, named, String.append_assoc]
  · simp only [BlockCall.occurrence, blockFingerprint, named, String.append_assoc,
      BlockCall.renamed]

theorem activeBlock_related {l l' : List (String × Incident)}
    (h : List.Forall₂ (RowsRenamed ρ) l l') (activeAfter : ℕ) :
    Option.Rel (RowsRenamed ρ) (activeBlock activeAfter l) (activeBlock activeAfter l') := by
  refine argmax_related (fun _ _ he => he.2.1.seenAt.symm) (List.rel_filter ?_ h)
  intro e e' he
  simp only [he.2.1.incidentType, he.2.1.seenAt]

theorem runs_processProtectBlock (hρ : ∀ p, Function.Injective (ρ p)) (r : BlockCall) :
    RunsRenamed ρ (fun _ _ => True) (processProtectBlock m r)
      (processProtectBlock m (r.renamed ρ)) := by
  have hmerge : RunsRenamed ρ (fun _ _ => True) (mergeIntoActiveBlock m r)
      (mergeIntoActiveBlock m (r.renamed ρ)) := by
    refine (runs_listOpenByProjectProvider hρ r.projectId r.provider).bind ?_
    intro l l' hl
    have hactive := activeBlock_related hl (r.now - blockWindowMs m)
    simp only [BlockCall.renamed]
    generalize activeBlock (r.now - blockWindowMs m) l = x at hactive
    generalize activeBlock (r.now - blockWindowMs m) l' = x' at hactive
    cases hactive with
    | none => exact .pure trivial
    | @some e e' he =>
      obtain ⟨id, i⟩ := e
      obtain ⟨id', i'⟩ := e'
      obtain ⟨hid, hi⟩ : id = id' ∧ Renamed ρ i i' := he
      subst hid
      have hevidence := sameEvidence_withPreviousReason hi r.reason
        (sameEvidence_mergedEvidence hi (sameEvidence_block (ρ := ρ) r))
      refine (runs_updateOpenIncidentActivity id hevidence r.now).bind ?_
      intro _ _ _
      exact .pure trivial
  have hupsert := runs_upsert m hρ (occursAs_block (ρ := ρ) m r)
  unfold processProtectBlock
  have hreason : (r.renamed ρ).reason = r.reason := rfl
  rw [hreason]
  cases r.reason with
  | reqCapBreach => exact hupsert
  | tokCapBreach => exact hupsert
  | cooldownActive => exact hmerge
  | failClosed => exact hmerge
  | other text => exact .pure trivial

theorem runs_resolveAll (now : ℕ) {l l' : List (String × Incident)}
    (h : List.Forall₂ (RowsRenamed ρ) l l') :
    RunsRenamed ρ (fun _ _ => True) (resolveAll now l) (resolveAll now l') := by
  induction h with
  | nil => exact .pure trivial
  | @cons e e' _ _ he _ ih =>
    unfold resolveAll
    rw [← he.1]
    refine (runs_resolveIncident e.1 now).bind ?_
    intro _ _ _
    exact ih

theorem runs_reconcile (hρ : ∀ p, Function.Injective (ρ p)) (projectId provider : String)
    (requestId : Option String) (now : ℕ) :
    RunsRenamed ρ (fun _ _ => True)
      (reconcileTimeoutSupersededLiveBlock projectId provider requestId now)
      (reconcileTimeoutSupersededLiveBlock projectId (ρ projectId provider) requestId now) := by
  unfold reconcileTimeoutSupersededLiveBlock
  cases truthy requestId with
  | none => exact .pure trivial
  | some requestId =>
    refine (runs_listOpenByProjectProvider hρ projectId provider).bind ?_
    intro l l' hl
    refine runs_resolveAll now (List.rel_filter ?_ hl)
    intro e e' he
    have hrequest := he.2.1.evidence.get (show "request_id" ≠ "provider" by decide)
    have hsource := he.2.1.evidence.get (show "source" ≠ "provider" by decide)
    simp only [attributedTo, he.2.1.incidentType, hrequest, hsource]

theorem runs_hasActiveBlockIncident (hρ : ∀ p, Function.Injective (ρ p))
    {projectId provider : String} (hname : ρ projectId provider = provider) (now : ℕ) :
    RunsRenamed ρ Eq (ServiceSteps.hasActiveBlockIncident m projectId provider now)
      (ServiceSteps.hasActiveBlockIncident m projectId provider now) := by
  have hlist := runs_listOpenByProjectProvider hρ projectId provider
  rw [hname] at hlist
  refine hlist.bind ?_
  intro l l' hl
  refine .pure ?_
  induction hl with
  | nil => rfl
  | cons he _ ih =>
    rw [List.any_cons, List.any_cons, ih, he.2.1.incidentType, he.2.1.seenAt]

end Operations

end Rheonic.IncidentManager
