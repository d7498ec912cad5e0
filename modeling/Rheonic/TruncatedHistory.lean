import Rheonic.DetectionOrder
import Rheonic.IngestDetection

namespace Rheonic.IngestDetection
open PyText SortedBy Detectors
open IngestEvent (Event)

variable {F : Type} [PyFloat F] (settings : DetectorSettings F) (r : Readings) (event : Event)

/-- The event is older than the loop detector's window. -/
def BeforeLoopWindow (e : Event) : Prop :=
  (timestamp e.createdAt : F) < timestamp r.now - ofInt settings.loopWindowSeconds

/-- The event is of another signature than the one ingested, and so ends a sequence of those. -/
def Interrupts (e : Event) : Prop :=
  e.provider = providerOf event ∧ LoopSuspect.eventSignature event.projectId e ≠
    LoopSuspect.contextSignature (detectionContext settings r event [])

/-- A successful repetition of the ingested event in the loop window. -/
def Repeats (e : Event) : Prop :=
  e.provider = providerOf event ∧ ¬BeforeLoopWindow settings r e ∧
    LoopSuspect.eventSignature event.projectId e =
      LoopSuspect.contextSignature (detectionContext settings r event []) ∧
    LoopSuspect.isFailure e = false

instance : DecidablePred (Repeats settings r event) := fun _ => by
  unfold Repeats BeforeLoopWindow
  infer_instance

/-- The walk of the loop detector, whatever it has read before. -/
def walk (l : List Event) (count : ℕ) (prevTs : Option F) : ℕ :=
  LoopSuspect.sequenceCount (detectionContext settings r event []) l count prevTs

section Walk

variable {settings r event}

theorem sequenceCount_history (history l : List Event) (count : ℕ) (prevTs : Option F) :
    LoopSuspect.sequenceCount (detectionContext settings r event history) l count prevTs =
      walk settings r event l count prevTs := by
  unfold walk
  induction l generalizing count prevTs with
  | nil => rfl
  | cons e l ih =>
    simp only [LoopSuspect.sequenceCount, ih]
    rfl

/-- One step of the walk. -/
theorem walk_cons (e : Event) (l : List Event) (count : ℕ) (prevTs : Option F) :
    walk settings r event (e :: l) count prevTs =
      if e.provider ≠ providerOf event then walk settings r event l count prevTs
      else if (timestamp e.createdAt : F) < timestamp r.now - ofInt settings.loopWindowSeconds
        then count
      else if LoopSuspect.eventSignature event.projectId e ≠
          LoopSuspect.contextSignature (detectionContext settings r event []) then count
      else if prevTs.any fun t => decide (settings.loopMaxGapSeconds < t - timestamp e.createdAt)
        then count
      else if LoopSuspect.isFailure e then walk settings r event l count prevTs
      else walk settings r event l (count + 1) (some (timestamp e.createdAt)) := by
  unfold walk
  simp only [LoopSuspect.sequenceCount]
  rfl

theorem walk_append_of_interrupts {l l' : List Event} (count : ℕ) (prevTs : Option F)
    (h : ∃ k ∈ l, Interrupts settings r event k) :
    walk settings r event (l ++ l') count prevTs = walk settings r event l count prevTs := by
  induction l generalizing count prevTs with
  | nil =>
    obtain ⟨k, hk, _⟩ := h
    exact absurd hk List.not_mem_nil
  | cons e l ih =>
    rw [List.cons_append, walk_cons, walk_cons]
    by_cases hstop : Interrupts settings r event e
    · rw [if_neg (not_not.mpr hstop.1), if_neg (not_not.mpr hstop.1)]
      rw [if_pos hstop.2, if_pos hstop.2]
    · have hlater : ∃ k ∈ l, Interrupts settings r event k := by
        obtain ⟨k, hk, hkstop⟩ := h
        rcases List.mem_cons.mp hk with rfl | hk
        · exact absurd hkstop hstop
        · exact ⟨k, hk, hkstop⟩
      simp only [ih _ _ hlater]

theorem walk_append_of_before {l l' : List Event} (count : ℕ) (prevTs : Option F)
    (h : ∀ e ∈ l', BeforeLoopWindow settings r e) :
    walk settings r event (l ++ l') count prevTs = walk settings r event l count prevTs := by
  induction l generalizing count prevTs with
  | nil =>
    rw [List.nil_append]
    induction l' with
    | nil => rfl
    | cons e l' ih =>
      have hold : (timestamp e.createdAt : F) < timestamp r.now - ofInt settings.loopWindowSeconds :=
        h e List.mem_cons_self
      rw [walk_cons, if_pos hold, ih fun e he => h e (List.mem_cons_of_mem _ he)]
      split <;> rfl
  | cons e l ih =>
    rw [List.cons_append, walk_cons, walk_cons]
    simp only [ih]

theorem walk_le (l : List Event) (count : ℕ) (prevTs : Option F) :
    walk settings r event l count prevTs ≤
      count + l.countP fun e => Repeats settings r event e := by
  induction l generalizing count prevTs with
  | nil => exact le_rfl
  | cons e l ih =>
    have hskip := ih count prevTs
    have hstep := ih (count + 1) (some (timestamp e.createdAt))
    rw [walk_cons, List.countP_cons]
    by_cases hrepeats : Repeats settings r event e
    · have hone : (if decide (Repeats settings r event e) = true then 1 else 0) = 1 :=
        if_pos (decide_eq_true hrepeats)
      rw [hone]
      split_ifs <;> omega
    · have hzero : (if decide (Repeats settings r event e) = true then 1 else 0) = 0 :=
        if_neg fun htrue => hrepeats (of_decide_eq_true htrue)
      rw [hzero]
      split_ifs with hprovider hold hsignature hgap hfailure
      all_goals first | omega | skip
      exact absurd ⟨not_not.mp hprovider, hold, not_not.mp hsignature,
        Bool.eq_false_iff.mpr hfailure⟩ hrepeats

end Walk

section Cut

variable (kept cut : List Event)

/-- The event's stream of requests, among whose sizes growth is looked for. -/
def growthQuery : TokenExplosion.GrowthQuery where
  provider := providerOf event
  requestedModel := event.requestedModel
  requestEndpoint := event.requestEndpoint
  requestFeature := event.requestFeature
  currentEvent := some event

/-- The size of the request context that an ingested event reports. -/
def currentTokens : ℤ := event.tokenExplosionTokens.getD event.totalTokens

/-- The kept requests of the event's stream that are newer than all those cut off. -/
def newestOfStream (F : Type) [PyFloat F] : List Event :=
  kept.filter fun e => (growthQuery event).accepts e &&
    cut.all fun d => !(growthQuery event).accepts d || decide ((timestamp d.ts : F) < timestamp e.ts)

/-- What is cut off changes no count of the retry storm detector: the threshold is not reached, or
no failure of the model lies in the window. -/
def RetryStormKept : Prop :=
  ((RetryStorm.failedEvents (detectionContext settings r event (kept ++ cut))).length : ℤ) <
      settings.retryStormCount ∨
    RetryStorm.failedEvents (detectionContext settings r event cut) = []

/-- What is cut off lies outside the loop detector's sequence: there are too few repetitions, or
all of it is before the window, or older than a kept event that ends the sequence. -/
def LoopSuspectKept : Prop :=
  (((kept ++ cut).countP fun e => Repeats settings r event e : ℕ) : ℤ) < settings.loopCount ∨
    (∀ e ∈ cut, BeforeLoopWindow settings r e) ∨
    ∃ k ∈ kept, Interrupts settings r event k ∧
      ∀ e ∈ cut, (timestamp e.createdAt : F) < timestamp k.createdAt

/-- What is cut off is no request whose size counts: the ingested one is small, or nothing of its
stream is cut off, or enough of the stream's newest large requests are kept. -/
def TokenExplosionKept : Prop :=
  (max (currentTokens event) 0 < settings.tokenExplosionGrowthMinTokens ∧
      currentTokens event < settings.tokenExplosionAbs) ∨
    (∀ e ∈ cut, (growthQuery event).accepts e = false) ∨
    (max settings.tokenExplosionGrowthCount 1 ≤ ((newestOfStream event kept cut F).length : ℤ) ∧
      (settings.tokenExplosionGrowthCount ≤ (((newestOfStream event kept cut F).filter fun e =>
          settings.tokenExplosionGrowthMinTokens ≤ TokenExplosion.contextTokens e).length : ℤ) ∨
        ∀ e ∈ cut, (growthQuery event).accepts e = true →
          TokenExplosion.contextTokens e < settings.tokenExplosionGrowthMinTokens))

/-- Nothing that a detector counts is cut off from a history. -/
structure NothingLost : Prop where
  nonempty : kept = [] → cut = []
  retryStorm : RetryStormKept settings r event kept cut
  loopSuspect : LoopSuspectKept settings r event kept cut
  tokenExplosion : TokenExplosionKept settings event kept cut

variable {settings r event kept cut}

theorem append_eq_nil_iff_of_nonempty (h : kept = [] → cut = []) : kept ++ cut = [] ↔ kept = [] := by
  rw [List.append_eq_nil_iff]
  exact ⟨fun hboth => hboth.1, fun hkept => ⟨hkept, h hkept⟩⟩

theorem failedEvents_append :
    RetryStorm.failedEvents (detectionContext settings r event (kept ++ cut)) =
      RetryStorm.failedEvents (detectionContext settings r event kept) ++
        RetryStorm.failedEvents (detectionContext settings r event cut) :=
  List.filter_append ..

theorem retryStorm_eq_iff (hnonempty : kept = [] → cut = []) :
    RetryStorm.detect (detectionContext settings r event kept) =
        RetryStorm.detect (detectionContext settings r event (kept ++ cut)) ↔
      kept = [] ∨ RetryStormKept settings r event kept cut := by
  unfold RetryStormKept
  have hnil := append_eq_nil_iff_of_nonempty hnonempty
  have happend : RetryStorm.failedEvents (detectionContext settings r event (kept ++ cut)) = _ :=
    failedEvents_append
  by_cases hkept : kept = []
  · have hboth : kept ++ cut = [] := hnil.mpr hkept
    rw [hboth, hkept]
    simp
  · have hall : kept ++ cut ≠ [] := fun h => hkept (hnil.mp h)
    have hleft : RetryStorm.detect (detectionContext settings r event kept) =
        if ((RetryStorm.failedEvents (detectionContext settings r event kept)).length : ℤ) <
          settings.retryStormCount then []
        else [RetryStorm.signal (detectionContext settings r event [])
          (RetryStorm.failedEvents (detectionContext settings r event kept)).length] :=
      if_neg hkept
    have hright : RetryStorm.detect (detectionContext settings r event (kept ++ cut)) =
        if ((RetryStorm.failedEvents (detectionContext settings r event (kept ++ cut))).length : ℤ) <
          settings.retryStormCount then []
        else [RetryStorm.signal (detectionContext settings r event [])
          (RetryStorm.failedEvents (detectionContext settings r event (kept ++ cut))).length] :=
      if_neg hall
    have hcut : RetryStorm.failedEvents (detectionContext settings r event cut) = [] ↔
        (RetryStorm.failedEvents (detectionContext settings r event cut)).length = 0 :=
      List.length_eq_zero_iff.symm
    rw [hleft, hright, hcut, happend, List.length_append, or_iff_right hkept]
    -- only the two numbers of failures are left
    generalize (RetryStorm.failedEvents (detectionContext settings r event kept)).length = n
    generalize (RetryStorm.failedEvents (detectionContext settings r event cut)).length = m
    by_cases hall : ((n + m : ℕ) : ℤ) < settings.retryStormCount
    · have hfew : (n : ℤ) < settings.retryStormCount := by omega
      rw [if_pos hall, if_pos hfew]
      exact iff_of_true rfl (.inl hall)
    · rw [if_neg hall, or_iff_right hall]
      by_cases hfew : (n : ℤ) < settings.retryStormCount
      · rw [if_pos hfew]
        -- the older failures make the difference
        exact iff_of_false (List.cons_ne_nil _ _).symm (by omega)
      · rw [if_neg hfew]
        constructor
        · intro heq
          -- both warn, and the evidence holds the number
          have hevidence := congrArg IncidentManager.Signal.evidence
            (congrArg Signal.toSignal (List.singleton_inj.mp heq))
          simpa [RetryStorm.signal, contextEvidence] using hevidence
        · intro hm
          rw [hm, Nat.add_zero]

theorem sorted_split (bound : F) (l : List Event) :
    sortedByDesc (fun e => (timestamp e.createdAt : F)) l =
      sortedByDesc (fun e => (timestamp e.createdAt : F))
          (l.filter fun e => decide (bound ≤ timestamp e.createdAt)) ++
        (sortedByDesc (fun e => (timestamp e.createdAt : F)) l).filter fun e =>
          !decide (bound ≤ timestamp e.createdAt) := by
  rw [← filter_sortedByDesc]
  apply eq_filter_append (pairwise_sortedByDesc (fun e => (timestamp e.createdAt : F)) l)
  intro a b hab hb
  exact decide_eq_true ((of_decide_eq_true hb).trans hab)

theorem filter_append_of_cut {p : Event → Bool} (h : ∀ e ∈ cut, p e = false) :
    (kept ++ cut).filter p = kept.filter p := by
  have hnone : cut.filter p = [] := by
    rw [List.filter_eq_nil_iff]
    intro e he
    rw [h e he]
    exact Bool.false_ne_true
  rw [List.filter_append, hnone, List.append_nil]

/-- The walk over a history, from its newest event. -/
def sequence (settings : DetectorSettings F) (r : Readings) (event : Event) (history : List Event) :
    ℕ :=
  walk settings r event (sortedByDesc (fun e => (timestamp e.createdAt : F)) history) 0 none

theorem sequence_le (history : List Event) : sequence settings r event history ≤
    history.countP fun e => Repeats settings r event e := by
  have h : walk settings r event (sortedByDesc (fun e => (timestamp e.createdAt : F)) history) 0
      none ≤ _ := walk_le _ 0 none
  rw [Nat.zero_add, (sortedByDesc_perm _ _).countP_eq] at h
  exact h

theorem sequence_kept (h : LoopSuspectKept settings r event kept cut) :
    sequence settings r event kept = sequence settings r event (kept ++ cut) ∨
      ((sequence settings r event kept : ℤ) < settings.loopCount ∧
        (sequence settings r event (kept ++ cut) : ℤ) < settings.loopCount) := by
  rcases h with hfew | hbefore | ⟨k, hk, hstop, hcut⟩
  -- too few matching events on either side
  · refine .inr ⟨?_, ?_⟩
    · have hkept : sequence settings r event kept ≤ _ := sequence_le kept
      rw [List.countP_append] at hfew
      omega
    · have hall : sequence settings r event (kept ++ cut) ≤ _ := sequence_le (kept ++ cut)
      omega
  · left
    unfold sequence
    have hsplit := sorted_split (F := F) (timestamp r.now - ofInt settings.loopWindowSeconds)
    have hdrop : ∀ l : List Event, ∀ e ∈ (sortedByDesc (fun e => (timestamp e.createdAt : F)) l).filter
        fun e => !decide (timestamp r.now - ofInt settings.loopWindowSeconds ≤
          (timestamp e.createdAt : F)), BeforeLoopWindow settings r e := by
      intro l e he
      have hnot := (List.mem_filter.mp he).2
      unfold BeforeLoopWindow
      simpa using hnot
    -- all that is cut lies before the window, where the walk has ended
    rw [hsplit kept, hsplit (kept ++ cut), walk_append_of_before _ _ (hdrop kept),
      walk_append_of_before _ _ (hdrop (kept ++ cut)), filter_append_of_cut]
    intro e he
    exact decide_eq_false (not_le.mpr (hbefore e he))
  · left
    unfold sequence
    have hsplit := sorted_split (F := F) (timestamp k.createdAt)
    have hmem : k ∈ sortedByDesc (fun e => (timestamp e.createdAt : F))
        (kept.filter fun e => decide ((timestamp k.createdAt : F) ≤ timestamp e.createdAt)) := by
      rw [mem_sortedByDesc, List.mem_filter]
      exact ⟨hk, decide_eq_true le_rfl⟩
    have hsame : (kept ++ cut).filter (fun e =>
        decide ((timestamp k.createdAt : F) ≤ timestamp e.createdAt)) =
          kept.filter fun e => decide ((timestamp k.createdAt : F) ≤ timestamp e.createdAt) := by
      apply filter_append_of_cut
      intro e he
      exact decide_eq_false (not_le.mpr (hcut e he))
    rw [hsplit kept, hsplit (kept ++ cut), hsame, walk_append_of_interrupts _ _ ⟨k, hmem, hstop⟩,
      walk_append_of_interrupts _ _ ⟨k, hmem, hstop⟩]

theorem loopSuspect_detect_eq (history : List Event) (hne : history ≠ []) :
    LoopSuspect.detect (detectionContext settings r event history) =
      if LoopSuspect.looksLikeTokenContextGrowth (detectionContext settings r event history) then []
      else if decide (settings.loopConcurrencyThreshold ≤ (r.requests60s : ℤ)) &&
          decide ((sequence settings r event history : ℤ) < settings.loopCount * 2) then []
      else if (sequence settings r event history : ℤ) < settings.loopCount then []
      else [LoopSuspect.signal (detectionContext settings r event [])
        (sequence settings r event history)] := by
  unfold sequence
  rw [← sequenceCount_history history]
  exact if_neg hne

theorem loopSuspect_eq (hnonempty : kept = [] → cut = [])
    (hgrowth : LoopSuspect.looksLikeTokenContextGrowth (detectionContext settings r event kept) =
      LoopSuspect.looksLikeTokenContextGrowth (detectionContext settings r event (kept ++ cut)))
    (h : LoopSuspectKept settings r event kept cut) :
    LoopSuspect.detect (detectionContext settings r event kept) =
      LoopSuspect.detect (detectionContext settings r event (kept ++ cut)) := by
  by_cases hkept : kept = []
  · rw [(append_eq_nil_iff_of_nonempty hnonempty).mpr hkept, hkept]
  · have hall : kept ++ cut ≠ [] := fun hnil =>
      hkept ((append_eq_nil_iff_of_nonempty hnonempty).mp hnil)
    rw [loopSuspect_detect_eq kept hkept, loopSuspect_detect_eq (kept ++ cut) hall, hgrowth]
    rcases sequence_kept h with hsame | ⟨hshort, hshort'⟩
    · rw [hsame]
    · rw [if_pos hshort, if_pos hshort']
      simp only [ite_self]

/-- The requests of the event's stream in a history, from the oldest. -/
def stream (F : Type) [PyFloat F] (event : Event) (history : List Event) : List Event :=
  sortedBy (fun e => (timestamp e.ts : F)) (history.filter (growthQuery event).accepts)

/-- Newer than every request of the stream that is cut off. -/
def newer (F : Type) [PyFloat F] (event : Event) (cut : List Event) (e : Event) : Bool :=
  cut.all fun d => !(growthQuery event).accepts d || decide ((timestamp d.ts : F) < timestamp e.ts)

theorem newer_of_le {a b : Event} (h : (timestamp a.ts : F) ≤ timestamp b.ts)
    (ha : newer F event cut a = true) : newer F event cut b = true := by
  unfold newer at ha ⊢
  rw [List.all_eq_true] at ha ⊢
  intro d hd
  have hda := ha d hd
  rw [Bool.or_eq_true] at hda ⊢
  rcases hda with hda | hda
  · exact .inl hda
  · exact .inr (decide_eq_true ((of_decide_eq_true hda).trans_le h))

theorem filter_newer_kept (kept cut : List Event) :
    (kept.filter (growthQuery event).accepts).filter (newer F event cut) =
      newestOfStream event kept cut F := by
  unfold newestOfStream newer
  rw [List.filter_filter]
  exact List.filter_congr fun e _ => Bool.and_comm _ _

theorem filter_newer (kept cut : List Event) :
    ((kept ++ cut).filter (growthQuery event).accepts).filter (newer F event cut) =
      newestOfStream event kept cut F := by
  have hcut : (cut.filter (growthQuery event).accepts).filter (newer F event cut) = [] := by
    rw [List.filter_eq_nil_iff]
    intro e he hnewer
    obtain ⟨hin, haccepts⟩ := List.mem_filter.mp he
    have hself := List.all_eq_true.mp hnewer e hin
    rw [haccepts, Bool.not_true, Bool.false_or] at hself
    exact lt_irrefl _ (of_decide_eq_true hself)
  rw [List.filter_append, List.filter_append, filter_newer_kept, hcut, List.append_nil]

theorem stream_split (history : List Event)
    (h : (history.filter (growthQuery event).accepts).filter (newer F event cut) =
      newestOfStream event kept cut F) :
    ∃ older, stream F event history =
      older ++ sortedBy (fun e => (timestamp e.ts : F)) (newestOfStream event kept cut F) := by
  have hsplit := eq_filter_append (p := fun e => !newer F event cut e)
    (pairwise_sortedBy (fun e => (timestamp e.ts : F))
      (history.filter (growthQuery event).accepts)) fun a b hab hb => by
        rw [Bool.not_eq_true'] at hb ⊢
        by_contra ha
        rw [Bool.not_eq_false] at ha
        rw [newer_of_le hab ha] at hb
        exact Bool.false_ne_true hb.symm
  simp only [Bool.not_not] at hsplit
  rw [← h, ← filter_sortedBy]
  exact ⟨_, hsplit⟩

theorem resolvePrevious_eq (history : List Event) :
    TokenExplosion.resolvePreviousEstimatedTokens F (growthQuery event) history =
      (sortedByDesc (fun e => (timestamp e.ts : F))
        (history.filter (growthQuery event).accepts)).head?.map TokenExplosion.contextTokens := by
  unfold TokenExplosion.resolvePreviousEstimatedTokens
  dsimp only
  rw [← List.head?_filter, filter_sortedByDesc]

theorem resolvePrevious_of_newest (history : List Event)
    (h : (history.filter (growthQuery event).accepts).filter (newer F event cut) =
      newestOfStream event kept cut F) (hsome : newestOfStream event kept cut F ≠ []) :
    TokenExplosion.resolvePreviousEstimatedTokens F (growthQuery event) history =
      (sortedByDesc (fun e => (timestamp e.ts : F))
        (newestOfStream event kept cut F)).head?.map TokenExplosion.contextTokens := by
  have hsplit := eq_filter_append (p := newer F event cut)
    (pairwise_sortedByDesc (fun e => (timestamp e.ts : F))
      (history.filter (growthQuery event).accepts)) fun a b hab hb => newer_of_le hab hb
  have hne : sortedByDesc (fun e => (timestamp e.ts : F)) (newestOfStream event kept cut F) ≠ [] := by
    intro hnil
    have hlength := (sortedByDesc_perm (fun e => (timestamp e.ts : F))
      (newestOfStream event kept cut F)).length_eq
    rw [hnil] at hlength
    exact hsome (List.length_eq_zero_iff.mp hlength.symm)
  rw [resolvePrevious_eq, hsplit, filter_sortedByDesc, h, List.head?_append_of_ne_nil _ hne]

/-- The numbers that the growth is measured on: the last ones that are large enough. -/
def eligible (settings : DetectorSettings F) (sequence : List ℤ) : List ℤ :=
  let atLeastFloor := sequence.filter (settings.tokenExplosionGrowthMinTokens ≤ ·)
  let requiredPoints := settings.tokenExplosionGrowthCount + 1
  if requiredPoints ≤ atLeastFloor.length then TokenExplosion.sliceFrom atLeastFloor (-requiredPoints)
  else atLeastFloor

/-- The sequence that ingest looks at in a history. -/
def sizes (settings : DetectorSettings F) (event : Event) (history : List Event) : List ℤ :=
  TokenExplosion.resolveRecentTokenExplosionSequence F (growthQuery event) history
    (currentTokens event) settings.tokenExplosionGrowthCount

theorem sizes_eq (hcount : 0 < settings.tokenExplosionGrowthCount) (history : List Event) :
    sizes settings event history =
      let sequence := (stream F event history).map TokenExplosion.contextTokens ++
        [max (currentTokens event) 0]
      if (sequence.length : ℤ) < settings.tokenExplosionGrowthCount + 1 then [] else sequence := by
  unfold sizes TokenExplosion.resolveRecentTokenExplosionSequence stream
  have hrequired : max settings.tokenExplosionGrowthCount 0 = settings.tokenExplosionGrowthCount :=
    max_eq_left hcount.le
  dsimp only
  rw [hrequired, if_neg (by omega), filter_sortedBy]

theorem sliceFrom_append {α : Type} (l l' : List α) {n : ℤ} (hn : 0 < n) (h : n ≤ l'.length) :
    TokenExplosion.sliceFrom (l ++ l') (-n) = TokenExplosion.sliceFrom l' (-n) := by
  unfold TokenExplosion.sliceFrom
  have hneg : -n < 0 := by omega
  have hlength : (((l ++ l').length : ℤ) + -n).toNat = l.length + ((l'.length : ℤ) + -n).toNat := by
    rw [List.length_append]
    omega
  rw [if_pos hneg, if_pos hneg, hlength, List.drop_append, List.drop_eq_nil_of_le (by omega),
    List.nil_append]
  congr 1
  omega

theorem eligible_append {older newest : List ℤ} (hcount : 0 < settings.tokenExplosionGrowthCount)
    (h : settings.tokenExplosionGrowthCount + 1 ≤
      ((newest.filter (settings.tokenExplosionGrowthMinTokens ≤ ·)).length : ℤ)) :
    eligible settings (older ++ newest) = eligible settings newest := by
  unfold eligible
  dsimp only
  rw [List.filter_append, if_pos h, if_pos, sliceFrom_append _ _ (by omega) h]
  rw [List.length_append]
  omega

theorem eligible_congr {l l' : List ℤ}
    (h : l.filter (settings.tokenExplosionGrowthMinTokens ≤ ·) =
      l'.filter (settings.tokenExplosionGrowthMinTokens ≤ ·)) :
    eligible settings l = eligible settings l' := by
  unfold eligible
  rw [h]

theorem filter_map_stream (history : List Event) :
    ((stream F event history).map TokenExplosion.contextTokens).filter
        (settings.tokenExplosionGrowthMinTokens ≤ ·) =
      (sortedBy (fun e => (timestamp e.ts : F))
        ((history.filter (growthQuery event).accepts).filter fun e =>
          settings.tokenExplosionGrowthMinTokens ≤ TokenExplosion.contextTokens e)).map
            TokenExplosion.contextTokens := by
  rw [List.filter_map, ← filter_sortedBy]
  rfl

/-- The sizes that the growth is measured on are those of the whole history. -/
def SameSizes (settings : DetectorSettings F) (event : Event) (kept cut : List Event) : Prop :=
  sizes settings event kept = sizes settings event (kept ++ cut) ∨
    sizes settings event kept ≠ [] ∧ sizes settings event (kept ++ cut) ≠ [] ∧
      eligible settings (sizes settings event kept) =
        eligible settings (sizes settings event (kept ++ cut))

theorem sameSizes_of_accepts (h : ∀ e ∈ cut, (growthQuery event).accepts e = false) :
    SameSizes settings event kept cut := by
  left
  unfold sizes TokenExplosion.resolveRecentTokenExplosionSequence
  dsimp only
  rw [filter_sortedBy, filter_sortedBy, filter_append_of_cut h]

theorem sizes_of_newest (hcount : 0 < settings.tokenExplosionGrowthCount) (history : List Event)
    (h : (history.filter (growthQuery event).accepts).filter (newer F event cut) =
      newestOfStream event kept cut F)
    (hmany : settings.tokenExplosionGrowthCount ≤ ((newestOfStream event kept cut F).length : ℤ)) :
    sizes settings event history = (stream F event history).map TokenExplosion.contextTokens ++
      [max (currentTokens event) 0] := by
  obtain ⟨older, hstream⟩ := stream_split history h
  rw [sizes_eq hcount]
  apply if_neg
  have hlength := (sortedBy_perm (fun e => (timestamp e.ts : F))
    (newestOfStream event kept cut F)).length_eq
  rw [hstream, List.length_append, List.length_map, List.length_append, hlength,
    List.length_singleton]
  omega

theorem sameSizes_of_newest (hlarge : settings.tokenExplosionGrowthMinTokens ≤ currentTokens event)
    (hmany : max settings.tokenExplosionGrowthCount 1 ≤
      ((newestOfStream event kept cut F).length : ℤ))
    (hsizes : settings.tokenExplosionGrowthCount ≤ (((newestOfStream event kept cut F).filter
        fun e => settings.tokenExplosionGrowthMinTokens ≤ TokenExplosion.contextTokens e).length : ℤ) ∨
      ∀ e ∈ cut, (growthQuery event).accepts e = true →
        TokenExplosion.contextTokens e < settings.tokenExplosionGrowthMinTokens) :
    SameSizes settings event kept cut := by
  by_cases hcount : 0 < settings.tokenExplosionGrowthCount
  · right
    have hmany' : settings.tokenExplosionGrowthCount ≤ ((newestOfStream event kept cut F).length : ℤ) :=
      (le_max_left _ _).trans hmany
    have hkept := sizes_of_newest hcount kept (filter_newer_kept kept cut) hmany'
    have hall := sizes_of_newest hcount (kept ++ cut) (filter_newer kept cut) hmany'
    rw [hkept, hall]
    refine ⟨List.concat_ne_nil _ _, List.concat_ne_nil _ _, ?_⟩
    rcases hsizes with henough | hsmall
    -- enough of the newest sizes count, and older ones are not looked at
    · obtain ⟨older, hstream⟩ := stream_split (F := F) kept (filter_newer_kept kept cut)
      obtain ⟨older', hstream'⟩ := stream_split (F := F) (kept ++ cut) (filter_newer kept cut)
      rw [hstream, hstream', List.map_append, List.map_append, List.append_assoc, List.append_assoc]
      have hnewest : settings.tokenExplosionGrowthCount + 1 ≤
          ((((sortedBy (fun e => (timestamp e.ts : F)) (newestOfStream event kept cut F)).map
            TokenExplosion.contextTokens ++ [max (currentTokens event) 0]).filter
              (settings.tokenExplosionGrowthMinTokens ≤ ·)).length : ℤ) := by
        have hcurrent : [max (currentTokens event) 0].filter
            (settings.tokenExplosionGrowthMinTokens ≤ ·) = [max (currentTokens event) 0] := by
          rw [List.filter_eq_self]
          intro x hx
          rw [List.mem_singleton.mp hx]
          exact decide_eq_true (hlarge.trans (le_max_left _ _))
        have hlength := ((sortedBy_perm (fun e => (timestamp e.ts : F))
          (newestOfStream event kept cut F)).filter fun e =>
            settings.tokenExplosionGrowthMinTokens ≤ TokenExplosion.contextTokens e).length_eq
        rw [List.filter_append, hcurrent, List.length_append, List.filter_map, List.length_map,
          List.length_singleton]
        have hsame : (List.filter ((fun x => decide (settings.tokenExplosionGrowthMinTokens ≤ x)) ∘
            TokenExplosion.contextTokens) (sortedBy (fun e => (timestamp e.ts : F))
              (newestOfStream event kept cut F))).length = _ := hlength
        rw [hsame]
        omega
      rw [eligible_append hcount hnewest, eligible_append hcount hnewest]
    -- too small a size does not count on either side
    · apply eligible_congr
      rw [List.filter_append, List.filter_append, filter_map_stream, filter_map_stream,
        List.filter_filter, List.filter_filter, filter_append_of_cut]
      intro e he
      by_cases haccepts : (growthQuery event).accepts e = true
      · rw [decide_eq_false (not_le.mpr (hsmall e he haccepts)), Bool.false_and]
      · rw [Bool.eq_false_iff.mpr haccepts, Bool.and_false]
  -- no growth is asked for
  · left
    unfold sizes TokenExplosion.resolveRecentTokenExplosionSequence
    have hfew : max settings.tokenExplosionGrowthCount 0 + 1 ≤ 1 := by omega
    dsimp only
    rw [if_pos hfew, if_pos hfew]

theorem explosionTokens_eq (history : List Event) :
    TokenExplosion.explosionTokens (detectionContext settings r event history) =
      some (currentTokens event) := by
  unfold TokenExplosion.explosionTokens currentTokens
  cases h : event.tokenExplosionTokens <;> simp [detectionContext, h]

theorem growth_of_small (history : List Event)
    (h : currentTokens event < settings.tokenExplosionGrowthMinTokens) :
    TokenExplosion.growth (detectionContext settings r event history) (currentTokens event) = {} :=
  if_pos h

theorem growth_of_large (history : List Event)
    (h : settings.tokenExplosionGrowthMinTokens ≤ currentTokens event) :
    TokenExplosion.growth (detectionContext settings r event history) (currentTokens event) =
      let ratio := ((TokenExplosion.resolvePreviousEstimatedTokens F (growthQuery event) history).filter
        (0 < ·)).map fun previous => (ofInt (currentTokens event) / ofInt previous : F)
      if sizes settings event history = [] then { ratio := ratio }
      else
        let points := eligible settings (sizes settings event history)
        let adjacent := ((points.zip points.tail).filter (0 < ·.1)).map
          fun (previous, current) => (ofInt current / ofInt previous : F)
        { ratio := ratio
          sequenceCount := points.length - 1
          hit := (adjacent.length : ℤ) = settings.tokenExplosionGrowthCount
            && adjacent.all (settings.tokenExplosionGrowthRatio ≤ ·) } := by
  have hnot : ¬currentTokens event < settings.tokenExplosionGrowthMinTokens := not_lt.mpr h
  unfold TokenExplosion.growth
  dsimp only [detectionContext]
  rw [if_neg hnot]
  rfl

theorem growth_eq (hprevious : TokenExplosion.resolvePreviousEstimatedTokens F (growthQuery event) kept =
      TokenExplosion.resolvePreviousEstimatedTokens F (growthQuery event) (kept ++ cut))
    (hsizes : settings.tokenExplosionGrowthMinTokens ≤ currentTokens event →
      SameSizes settings event kept cut) :
    TokenExplosion.growth (detectionContext settings r event kept) (currentTokens event) =
      TokenExplosion.growth (detectionContext settings r event (kept ++ cut)) (currentTokens event) := by
  by_cases hlarge : settings.tokenExplosionGrowthMinTokens ≤ currentTokens event
  · rw [growth_of_large kept hlarge, growth_of_large (kept ++ cut) hlarge, hprevious]
    rcases hsizes hlarge with hsame | ⟨hkept, hall, heligible⟩
    · rw [hsame]
    · dsimp only
      rw [if_neg hkept, if_neg hall, heligible]
  · rw [growth_of_small kept (not_le.mp hlarge), growth_of_small (kept ++ cut) (not_le.mp hlarge)]

theorem previous_of_kept {n : ℤ} {P : Prop} (h : (∀ e ∈ cut, (growthQuery event).accepts e = false) ∨
      max n 1 ≤ ((newestOfStream event kept cut F).length : ℤ) ∧ P) :
    TokenExplosion.resolvePreviousEstimatedTokens F (growthQuery event) kept =
      TokenExplosion.resolvePreviousEstimatedTokens F (growthQuery event) (kept ++ cut) := by
  rcases h with hnone | ⟨hmany, _⟩
  · rw [resolvePrevious_eq, resolvePrevious_eq, filter_append_of_cut hnone]
  · have hsome : newestOfStream event kept cut F ≠ [] := by
      intro hnil
      rw [hnil, List.length_nil] at hmany
      omega
    rw [resolvePrevious_of_newest kept (filter_newer_kept kept cut) hsome,
      resolvePrevious_of_newest (kept ++ cut) (filter_newer kept cut) hsome]

theorem tokenExplosion_detect_eq (history : List Event) :
    TokenExplosion.detect (detectionContext settings r event history) =
      let ctx := detectionContext settings r event history
      let g := TokenExplosion.growth ctx (currentTokens event)
      let absHit := decide (settings.tokenExplosionAbs ≤ currentTokens event)
      let hit := TokenExplosion.growthHit ctx g
      if absHit || hit then [TokenExplosion.signal ctx (currentTokens event) g absHit hit] else [] := by
  unfold TokenExplosion.detect
  rw [explosionTokens_eq]
  rfl

theorem tokenExplosion_eq (h : TokenExplosionKept settings event kept cut) :
    TokenExplosion.detect (detectionContext settings r event kept) =
      TokenExplosion.detect (detectionContext settings r event (kept ++ cut)) := by
  rw [tokenExplosion_detect_eq, tokenExplosion_detect_eq]
  rcases h with ⟨hsmall, habs⟩ | hrest
  · have hlow : currentTokens event < settings.tokenExplosionGrowthMinTokens :=
      (le_max_left _ _).trans_lt hsmall
    dsimp only
    rw [growth_of_small kept hlow, growth_of_small (kept ++ cut) hlow]
    have hmiss : ∀ history, TokenExplosion.growthHit (detectionContext settings r event history)
        ({} : TokenExplosion.Growth F) = false := by
      intro history
      unfold TokenExplosion.growthHit
      split_ifs <;> rfl
    rw [hmiss, hmiss, decide_eq_false (not_le.mpr habs)]
    rfl
  · have hprevious := previous_of_kept hrest
    have hgrowth : TokenExplosion.growth (detectionContext settings r event kept)
        (currentTokens event) = _ := growth_eq hprevious fun hlarge => by
      rcases hrest with hnone | ⟨hmany, hsizes⟩
      · exact sameSizes_of_accepts hnone
      · exact sameSizes_of_newest hlarge hmany hsizes
    dsimp only
    rw [hgrowth]
    have hctx : detectionContext settings r event (kept ++ cut) =
        (detectionContext settings r event kept).withEvents (kept ++ cut) := by
      unfold detectionContext DetectionContext.withEvents
      dsimp only
      congr 1
      exact hprevious.symm
    rw [hctx]
    rfl

theorem looksLike_eq (h : TokenExplosionKept settings event kept cut) :
    LoopSuspect.looksLikeTokenContextGrowth (detectionContext settings r event kept) =
      LoopSuspect.looksLikeTokenContextGrowth (detectionContext settings r event (kept ++ cut)) := by
  have hlooks : ∀ history, LoopSuspect.looksLikeTokenContextGrowth
      (detectionContext settings r event history) =
        if max (currentTokens event) 0 < settings.tokenExplosionGrowthMinTokens then false
        else (TokenExplosion.resolvePreviousEstimatedTokens F (growthQuery event) history).elim true
          fun previous => decide (max previous 0 < max (currentTokens event) 0) := by
    intro history
    have hprevious : (detectionContext settings r event history).previousEstimatedTokens =
        TokenExplosion.resolvePreviousEstimatedTokens F (growthQuery event) history := rfl
    unfold LoopSuspect.looksLikeTokenContextGrowth currentTokens
    rw [hprevious]
    cases TokenExplosion.resolvePreviousEstimatedTokens F (growthQuery event) history <;>
      cases hexplosion : event.tokenExplosionTokens <;>
        simp only [detectionContext, hexplosion, Option.bind_some, Option.or_none,
          Option.some_or, Option.or_some, Option.getD_some, Option.getD_none] <;> rfl
  rw [hlooks, hlooks]
  rcases h with ⟨hsmall, _⟩ | hrest
  · rw [if_pos hsmall, if_pos hsmall]
  · rw [previous_of_kept hrest]

theorem retryStorm_of_signals (history : List Event) :
    (signals settings r event history).filter (fun s => s.detector = .retryStorm) =
      RetryStorm.detect (detectionContext settings r event history) := by
  have hloop : (LoopSuspect.detect (detectionContext settings r event history)).filter
      (fun s => s.detector = .retryStorm) = [] := by
    rw [List.filter_eq_nil_iff]
    intro s hs
    obtain ⟨count, rfl⟩ := LoopSuspect.eq_signal_of_mem hs
    simp [LoopSuspect.signal]
  have htoken : (TokenExplosion.detect (detectionContext settings r event history)).filter
      (fun s => s.detector = .retryStorm) = [] := by
    rw [List.filter_eq_nil_iff]
    intro s hs
    obtain ⟨tokens, g, absHit, growthHit, rfl⟩ := TokenExplosion.eq_signal_of_mem hs
    simp [TokenExplosion.signal]
  have hretry : (RetryStorm.detect (detectionContext settings r event history)).filter
      (fun s => s.detector = .retryStorm) =
        RetryStorm.detect (detectionContext settings r event history) := by
    rw [List.filter_eq_self]
    intro s hs
    rw [RetryStorm.eq_signal_of_mem hs]
    rfl
  rw [signals, detect, List.filter_append, List.filter_append, hretry, hloop, htoken,
    List.append_nil, List.append_nil]

/-- A history whose rows come as `list_recent` orders them. -/
def NewestFirst (events : List Event) (event : Event) (rows : List Event) : Prop :=
  rows.Perm (events.filter (selectsRecent event.projectId (providerOf event))) ∧
    rows.Pairwise fun e older => older.ts ≤ e.ts

/-- Detection on what ingest fetches is detection on the whole history where nothing that a
detector counts is cut off; for the retry storm this is also needed. -/
theorem detection_on_recent (settings : DetectorSettings F) (r : Readings) (event : Event)
    {events rows : List Event} (hrows : NewestFirst events event rows) :
    ListsRecent events event.projectId (recentLimit settings) (providerOf event)
        (rows.take (recentLimit settings).toNat) ∧
      (NothingLost settings r event (rows.take (recentLimit settings).toNat)
          (rows.drop (recentLimit settings).toNat) →
        signals settings r event (rows.take (recentLimit settings).toNat) =
          signals settings r event rows) ∧
      (signals settings r event (rows.take (recentLimit settings).toNat) =
          signals settings r event rows → 0 < recentLimit settings →
        RetryStormKept settings r event (rows.take (recentLimit settings).toNat)
          (rows.drop (recentLimit settings).toNat)) := by
  have hsplit := List.take_append_drop (recentLimit settings).toNat rows
  refine ⟨⟨rows, hrows.1, hrows.2, rfl⟩, fun hlost => ?_, fun hsame hpositive => ?_⟩
  · generalize rows.take (recentLimit settings).toNat = kept at *
    generalize rows.drop (recentLimit settings).toNat = cut at *
    rw [← hsplit]
    unfold signals detect
    rw [(retryStorm_eq_iff hlost.nonempty).mpr (.inr hlost.retryStorm),
      loopSuspect_eq hlost.nonempty (looksLike_eq hlost.tokenExplosion) hlost.loopSuspect,
      tokenExplosion_eq hlost.tokenExplosion]
  · have hnonempty : rows.take (recentLimit settings).toNat = [] →
        rows.drop (recentLimit settings).toNat = [] := by
      intro hnil
      rw [List.take_eq_nil_iff] at hnil
      rcases hnil with hzero | hnil
      · omega
      · rw [hnil, List.drop_nil]
    -- equal signals have equal retry storms among them
    have hretry : (signals settings r event (rows.take (recentLimit settings).toNat)).filter
        (fun s => s.detector = .retryStorm) = _ := retryStorm_of_signals _
    rw [hsame, retryStorm_of_signals] at hretry
    generalize rows.take (recentLimit settings).toNat = kept at *
    generalize rows.drop (recentLimit settings).toNat = cut at *
    rw [← hsplit] at hretry
    rcases (retryStorm_eq_iff hnonempty).mp hretry.symm with hnil | hkept
    · right
      rw [hnonempty hnil]
      rfl
    · exact hkept

end Cut

section Sample

/-- A refused request of the model `gpt`. -/
def refused (id : String) (ms : ℕ) : Event :=
  { sampleEvent id ms 10 with httpStatus := some 429 }

/-- Requests of another model of the same provider, one a second, the newest first. -/
def otherModel (fromMs count : ℕ) : List Event :=
  (List.range count).reverse.map fun i =>
    { sampleEvent ("o" ++ toString i) (fromMs + i * 1000) 10 with requestedModel := some "o1" }

/-- Five refused requests, then thirteen of another model, then a sixth refused one. -/
def interleaved : List Event :=
  refused "f6" 20000 :: (otherModel 6000 13 ++
    [refused "f5" 5000, refused "f4" 4000, refused "f3" 3000, refused "f2" 2000, refused "f1" 1000])

def sampleReadings : Readings where
  now := 20000
  requests60s := 19
  tokens60s := 190

/-- The storm of refused requests is pushed past the limit. -/
theorem truncation_loses_storm : ¬∀ (settings : DetectorSettings ℚ) (r : Readings) (event : Event)
    (events rows : List Event), NewestFirst events event rows →
      signals settings r event (rows.take (recentLimit settings).toNat) =
        signals settings r event rows := by
  intro hall
  have hrows : NewestFirst interleaved (refused "f6" 20000) interleaved := by
    refine ⟨?_, by decide +kernel⟩
    have hfilter : interleaved.filter (selectsRecent (refused "f6" 20000).projectId
        (providerOf (refused "f6" 20000))) = interleaved := by
      rw [List.filter_eq_self]
      decide +kernel
    rw [hfilter]
  have hsame := congrArg List.length (hall {} sampleReadings (refused "f6" 20000) _ _ hrows)
  revert hsame
  decide +kernel

/-- An old request of another model is cut off, and nothing is lost. -/
theorem detection_on_recent_sample :
    ListsRecent (refused "f6" 120000 :: otherModel 6000 14) "p" 14 "openai"
        (refused "f6" 120000 :: (otherModel 6000 14).take 13) ∧
      (NothingLost (F := ℚ) {} { sampleReadings with now := 120000 } (refused "f6" 120000)
          (refused "f6" 120000 :: (otherModel 6000 14).take 13) ((otherModel 6000 14).drop 13) ∧
        signals (F := ℚ) {} { sampleReadings with now := 120000 } (refused "f6" 120000)
            (refused "f6" 120000 :: (otherModel 6000 14).take 13) =
          signals (F := ℚ) {} { sampleReadings with now := 120000 } (refused "f6" 120000)
            (refused "f6" 120000 :: otherModel 6000 14)) := by
  have hrows : NewestFirst (refused "f6" 120000 :: otherModel 6000 14) (refused "f6" 120000)
      (refused "f6" 120000 :: otherModel 6000 14) := by
    refine ⟨?_, by decide +kernel⟩
    have hfilter : (refused "f6" 120000 :: otherModel 6000 14).filter
        (selectsRecent (refused "f6" 120000).projectId (providerOf (refused "f6" 120000))) =
          refused "f6" 120000 :: otherModel 6000 14 := by
      rw [List.filter_eq_self]
      decide +kernel
    rw [hfilter]
  have hlost : NothingLost (F := ℚ) {} { sampleReadings with now := 120000 } (refused "f6" 120000)
      (refused "f6" 120000 :: (otherModel 6000 14).take 13) ((otherModel 6000 14).drop 13) := by
    refine ⟨nofun, .inr ?_, .inr (.inl ?_), .inr (.inl ?_)⟩
    · rw [← List.isEmpty_iff]
      decide +kernel
    · unfold BeforeLoopWindow
      decide +kernel
    · decide +kernel
  have h := detection_on_recent (F := ℚ) {} { sampleReadings with now := 120000 } _ hrows
  exact ⟨h.1, hlost, h.2.1 hlost⟩

end Sample

end Rheonic.IngestDetection
