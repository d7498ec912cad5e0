import Rheonic.DetectionOrder
import Rheonic.IngestDetection

namespace Rheonic.Detectors
open PyText SortedBy
open IngestEvent (Event)

section Ratios

variable {r : ℚ} {sizes : List ℤ}

/-- Every pair of neighbours, as `zip(l, l[1:])` gives them. -/
theorem isChain_iff_forall_mem_zip {α : Type} {R : α → α → Prop} {l : List α} :
    l.IsChain R ↔ ∀ pair ∈ l.zip l.tail, R pair.1 pair.2 := by
  induction l with
  | nil => simp
  | cons a l ih =>
    cases l with
    | nil => simp
    | cons b l =>
      rw [List.isChain_cons_cons, ih]
      simp

theorem pow_mul_le_of_isChain (hr : 0 ≤ r) {first last : ℤ}
    (h : (first :: sizes).IsChain fun previous current : ℤ => r * previous ≤ (current : ℚ))
    (hlast : (first :: sizes).getLast? = some last) : r ^ sizes.length * first ≤ (last : ℚ) := by
  induction sizes generalizing first with
  | nil =>
    have hfirst : first = last := Option.some.inj hlast
    simp [hfirst]
  | cons next sizes ih =>
    have hstep := (List.isChain_cons_cons.mp h).1
    have hrest := ih (List.isChain_cons_cons.mp h).2 (by simpa using hlast)
    calc r ^ (sizes.length + 1) * (first : ℚ)
        = r ^ sizes.length * (r * first) := by ring
      _ ≤ r ^ sizes.length * next := by gcongr
      _ ≤ last := hrest

end Ratios

namespace TokenExplosion

theorem sliceFrom_neg {α : Type} {l : List α} {k : ℤ} (hk : 1 ≤ k) :
    sliceFrom l (-k) = l.drop (l.length - k.toNat) := by
  unfold sliceFrom
  rw [if_pos (by omega)]
  congr 1
  omega

variable {ctx : DetectionContext ℚ} {currentTokens : ℤ}

/-- The matching events in the order of their timestamps. -/
def matching (ctx : DetectionContext ℚ) : List Event :=
  (sortedBy (fun event => (timestamp event.ts : ℚ)) ctx.recentEvents).filter (growthQuery ctx).accepts

/-- Those of them that are large enough to count. -/
def counted (ctx : DetectionContext ℚ) : List Event :=
  (matching ctx).filter (ctx.tokenExplosionGrowthMinTokens ≤ contextTokens ·)

/-- The last of them, as many as growth is asked for. -/
def lastCounted (ctx : DetectionContext ℚ) : List Event :=
  (counted ctx).drop ((counted ctx).length - ctx.tokenExplosionGrowthCount.toNat)

/-- A step of the growth that the detector looks for. -/
def Steps (ctx : DetectionContext ℚ) (previous current : ℤ) : Prop :=
  0 < previous ∧ ctx.tokenExplosionGrowthRatio ≤ (current : ℚ) / previous

theorem filter_sequence (hfloor : ctx.tokenExplosionGrowthMinTokens ≤ currentTokens) :
    ((matching ctx).map contextTokens ++ [max currentTokens 0]).filter
        (ctx.tokenExplosionGrowthMinTokens ≤ ·) =
      (counted ctx).map contextTokens ++ [max currentTokens 0] := by
  have hlast : ctx.tokenExplosionGrowthMinTokens ≤ max currentTokens 0 := by omega
  rw [List.filter_append, List.filter_map]
  simp only [List.filter_cons, List.filter_nil, hlast, decide_true, if_true]
  rfl

/-- The ratios of neighbours, where the first of them is positive. -/
def adjacentGrowth (points : List ℤ) : List ℚ :=
  ((points.zip points.tail).filter (0 < ·.1)).map fun (previous, current) =>
    (ofInt current / ofInt previous : ℚ)

/-- The ratios of the neighbours whose first is positive are enough and large enough just where the
points are as many as they should be and every step of them is one of growth. -/
theorem ratios_hit_iff {k : ℤ} (hk : 0 ≤ k) (points : List ℤ) (hpoints : (points.length : ℤ) ≤ k + 1) :
    (((adjacentGrowth points).length : ℤ) = k ∧
        ∀ ratio ∈ adjacentGrowth points, ctx.tokenExplosionGrowthRatio ≤ ratio) ↔
      (points.length - 1 : ℕ) = k ∧ points.IsChain (Steps ctx) := by
  have hzip : (points.zip points.tail).length = points.length - 1 := by
    rw [List.length_zip, List.length_tail]
    omega
  have hfilter := List.length_filter_le (fun pair : ℤ × ℤ => decide (0 < pair.1))
    (points.zip points.tail)
  have hlength : (adjacentGrowth points).length =
      ((points.zip points.tail).filter (0 < ·.1)).length := List.length_map _
  rw [hlength, isChain_iff_forall_mem_zip]
  constructor
  · intro ⟨hcount, hratios⟩
    have hall : ∀ pair ∈ points.zip points.tail, 0 < pair.1 := by
      have hsame : ((points.zip points.tail).filter (0 < ·.1)).length =
          (points.zip points.tail).length := by omega
      have heq := List.filter_eq_self.mp (List.filter_sublist.eq_of_length hsame)
      intro pair hpair
      exact of_decide_eq_true (heq pair hpair)
    refine ⟨by omega, fun pair hpair => ⟨hall pair hpair, ?_⟩⟩
    apply hratios
    exact List.mem_map.mpr ⟨pair, List.mem_filter.mpr ⟨hpair, decide_eq_true (hall pair hpair)⟩, rfl⟩
  · intro ⟨hcount, hsteps⟩
    have hall : (points.zip points.tail).filter (0 < ·.1) = points.zip points.tail :=
      List.filter_eq_self.mpr fun pair hpair => decide_eq_true (hsteps pair hpair).1
    refine ⟨by rw [hall]; omega, ?_⟩
    intro ratio hratio
    obtain ⟨pair, hpair, rfl⟩ := List.mem_map.mp hratio
    exact (hsteps pair (List.mem_filter.mp hpair).1).2

/-- Growth is reported for a current request that is large enough, has as many large predecessors
as are asked for, and grows out of the last of them step by step. -/
theorem growth_hit_iff (hk : 1 ≤ ctx.tokenExplosionGrowthCount) :
    (growth ctx currentTokens).hit = true ↔
      ctx.tokenExplosionGrowthMinTokens ≤ currentTokens ∧
        ctx.tokenExplosionGrowthCount ≤ (counted ctx).length ∧
        ((lastCounted ctx).map contextTokens ++ [max currentTokens 0]).IsChain (Steps ctx) := by
  have hpoints : ¬max ctx.tokenExplosionGrowthCount 0 + 1 ≤ 1 := by omega
  have hcounted : (counted ctx).length ≤ (matching ctx).length := List.length_filter_le _ _
  have hsequence : resolveRecentTokenExplosionSequence ℚ (growthQuery ctx) ctx.recentEvents
      currentTokens ctx.tokenExplosionGrowthCount =
        if ((matching ctx).length : ℤ) < ctx.tokenExplosionGrowthCount then []
        else (matching ctx).map contextTokens ++ [max currentTokens 0] := by
    have hlength : (((matching ctx).map contextTokens ++ [max currentTokens 0]).length : ℤ) <
        max ctx.tokenExplosionGrowthCount 0 + 1 ↔
          ((matching ctx).length : ℤ) < ctx.tokenExplosionGrowthCount := by
      rw [List.length_append, List.length_map, List.length_singleton]
      omega
    unfold resolveRecentTokenExplosionSequence
    rw [if_neg hpoints]
    exact if_congr hlength rfl rfl
  unfold growth
  -- a size below the floor is no hit
  by_cases hfloor : currentTokens < ctx.tokenExplosionGrowthMinTokens
  · rw [if_pos hfloor]
    constructor
    · intro hhit
      exact absurd hhit Bool.false_ne_true
    · intro h
      omega
  rw [if_neg hfloor, hsequence]
  -- nor are too few events, before the floor is asked of them
  by_cases hfew : ((matching ctx).length : ℤ) < ctx.tokenExplosionGrowthCount
  · rw [if_pos hfew]
    constructor
    · intro hhit
      exact absurd hhit Bool.false_ne_true
    · intro h
      omega
  rw [if_neg hfew, if_neg (by simp), filter_sequence (not_lt.mp hfloor)]
  have hlength : ((counted ctx).map contextTokens ++ [max currentTokens 0]).length =
      (counted ctx).length + 1 := by
    rw [List.length_append, List.length_map, List.length_singleton]
  dsimp only
  rw [Bool.and_eq_true, decide_eq_true_eq, List.all_eq_true]
  simp only [decide_eq_true_eq]
  -- with enough of them above the floor, the slice is what the hit is read from
  by_cases henough : ctx.tokenExplosionGrowthCount ≤ (counted ctx).length
  · have hslice : sliceFrom ((counted ctx).map contextTokens ++ [max currentTokens 0])
        (-(ctx.tokenExplosionGrowthCount + 1)) =
          (lastCounted ctx).map contextTokens ++ [max currentTokens 0] := by
      rw [sliceFrom_neg (by omega), hlength, List.drop_append_of_le_length (by simp; omega),
        ← List.map_drop]
      have hdrop : (counted ctx).length + 1 - (ctx.tokenExplosionGrowthCount + 1).toNat =
          (counted ctx).length - ctx.tokenExplosionGrowthCount.toNat := by omega
      rw [hdrop]
      rfl
    have hlast : ((lastCounted ctx).map contextTokens ++ [max currentTokens 0]).length =
        ctx.tokenExplosionGrowthCount + 1 := by
      rw [List.length_append, List.length_map, List.length_singleton, lastCounted, List.length_drop]
      omega
    rw [if_pos (by rw [hlength]; omega), hslice]
    refine (ratios_hit_iff (by omega) _ hlast.le).trans ?_
    constructor
    · intro ⟨_, hsteps⟩
      exact ⟨not_lt.mp hfloor, henough, hsteps⟩
    · intro ⟨_, _, hsteps⟩
      exact ⟨by omega, hsteps⟩
  · rw [if_neg (by rw [hlength]; omega)]
    refine (ratios_hit_iff (by omega) _ (by rw [hlength]; omega)).trans ?_
    constructor
    · intro ⟨hcount, _⟩
      rw [hlength] at hcount
      omega
    · intro h
      exact absurd h.2.1 henough

/-- The detector's signal says that the request context has grown. -/
def GrowthHit (ctx : DetectionContext ℚ) : Prop :=
  ∃ s ∈ detect ctx, ("growth_hit", .bool true) ∈ s.evidence

theorem growthHit_iff : GrowthHit ctx ↔
    ∃ tokens, explosionTokens ctx = some tokens ∧ growthHit ctx (growth ctx tokens) = true := by
  have hevidence : ∀ (tokens : ℤ) (g : Growth ℚ) (absHit hit : Bool),
      ("growth_hit", .bool true) ∈ (signal ctx tokens g absHit hit).evidence ↔ hit = true := by
    intro tokens g absHit hit
    simp [signal, contextEvidence, eq_comm]
  unfold GrowthHit detect
  cases explosionTokens ctx with
  | none => simp
  | some tokens =>
    dsimp only
    by_cases hhit : growthHit ctx (growth ctx tokens) = true
    · rw [if_pos (by rw [hhit, Bool.or_true])]
      exact ⟨fun _ => ⟨tokens, rfl, hhit⟩, fun _ => ⟨_, List.mem_singleton_self _,
        (hevidence _ _ _ _).mpr hhit⟩⟩
    · constructor
      · intro ⟨s, hs, hmem⟩
        split at hs
        · rw [List.mem_singleton.mp hs] at hmem
          exact absurd ((hevidence _ _ _ _).mp hmem) hhit
        · exact absurd hs List.not_mem_nil
      · intro ⟨_, htokens, hhit'⟩
        rw [Option.some.inj htokens] at hhit
        exact absurd hhit' hhit

/-- At least one request and one token are in the live window, and fewer requests than are taken for
parallel work. -/
structure Live (ctx : DetectionContext ℚ) : Prop where
  requests : 1 ≤ ctx.currentRequests60s.getD 0
  tokens : 1 ≤ ctx.currentTokens60s.getD 0
  few : ctx.currentRequests60s.getD 0 < ctx.tokenExplosionConcurrencyThreshold

theorem growthHit_eq_true_iff {g : Growth ℚ} :
    growthHit ctx g = true ↔ Live ctx ∧ g.hit = true := by
  unfold growthHit
  by_cases hempty : ctx.currentRequests60s.getD 0 ≤ 0 ∨ ctx.currentTokens60s.getD 0 ≤ 0
  · rw [if_pos (by simpa using hempty)]
    constructor
    · intro h
      exact absurd h Bool.false_ne_true
    · intro ⟨hlive, _⟩
      have := hlive.requests
      have := hlive.tokens
      omega
  rw [if_neg (by simpa using hempty)]
  cases hrequests : ctx.currentRequests60s with
  | none =>
    rw [hrequests] at hempty
    exact absurd (.inl le_rfl) hempty
  | some requests =>
    rw [hrequests, Option.getD_some] at hempty
    simp only [Option.any_some, decide_eq_true_eq]
    by_cases hmany : ctx.tokenExplosionConcurrencyThreshold ≤ requests
    · rw [if_pos hmany]
      constructor
      · intro h
        exact absurd h Bool.false_ne_true
      · intro ⟨hlive, _⟩
        have hfew := hlive.few
        rw [hrequests, Option.getD_some] at hfew
        omega
    · rw [if_neg hmany]
      constructor
      · intro hhit
        refine ⟨⟨?_, ?_, ?_⟩, hhit⟩
        · rw [hrequests, Option.getD_some]
          omega
        · omega
        · rw [hrequests, Option.getD_some]
          omega
      · exact And.right

section Streams

/-- The endpoint and the feature that a request is of. -/
def endpointOf (requestEndpoint : Option String) : String := strip (orElse requestEndpoint "na")

def featureOf (requestFeature : Option String) : String :=
  orElse (some (strip (orElse requestFeature "unknown"))) "unknown"

theorem requestSignature_eq (requestEndpoint requestFeature : Option String) :
    requestSignature requestEndpoint requestFeature =
      endpointOf requestEndpoint ++ ":" ++ featureOf requestFeature := rfl

/-- An event of the same endpoint and feature as the context's request. -/
def SamePair (ctx : DetectionContext ℚ) (event : Event) : Prop :=
  endpointOf event.requestEndpoint = endpointOf ctx.requestEndpoint ∧
    featureOf event.requestFeature = featureOf ctx.requestFeature

instance (ctx : DetectionContext ℚ) : DecidablePred (SamePair ctx) := fun _ =>
  inferInstanceAs (Decidable (_ ∧ _))

/-- Another event of the provider, model, endpoint and feature of the context. -/
structure SameStream (ctx : DetectionContext ℚ) (event : Event) : Prop where
  provider : event.provider = ctx.provider
  model : normalizedModelName event.requestedModel = normalizedModelName ctx.requestedModel
  other : ∀ current, ctx.currentEvent = some current → event.id ≠ current.id
  pair : SamePair ctx event

theorem accepts_iff {event : Event} : (growthQuery ctx).accepts event = true ↔
    event.provider = ctx.provider ∧
      normalizedModelName event.requestedModel = normalizedModelName ctx.requestedModel ∧
      (∀ current, ctx.currentEvent = some current → event.id ≠ current.id) ∧
      eventSignature event = requestSignature ctx.requestEndpoint ctx.requestFeature := by
  unfold GrowthQuery.accepts
  rw [Bool.and_eq_true, Bool.and_eq_true, Bool.and_eq_true, decide_eq_true_eq, decide_eq_true_eq,
    decide_eq_true_eq, Bool.not_eq_true', Option.any_eq_false, and_assoc, and_assoc]
  simp only [decide_eq_false_iff_not]
  rfl

theorem SameStream.accepts {event : Event} (h : SameStream ctx event) :
    (growthQuery ctx).accepts event = true := by
  refine accepts_iff.mpr ⟨h.provider, h.model, h.other, ?_⟩
  unfold eventSignature
  rw [requestSignature_eq, requestSignature_eq, h.pair.1, h.pair.2]

/-- The events of the context's provider and model with its text "endpoint:feature" have its
endpoint and its feature. -/
def TextsApart (ctx : DetectionContext ℚ) : Prop :=
  ∀ event ∈ ctx.recentEvents, (growthQuery ctx).accepts event = true → SamePair ctx event

/-- The current request and the same number of others as growth is asked for, all large enough, each
of them grown out of the one before. -/
structure CompoundedGrowth (ctx : DetectionContext ℚ) (currentTokens : ℤ) (events : List Event) :
    Prop where
  count : (events.length : ℤ) = ctx.tokenExplosionGrowthCount
  recent : events.Subperm ctx.recentEvents
  ordered : events.Pairwise fun event later => event.ts ≤ later.ts
  stream : ∀ event ∈ events, SameStream ctx event
  floor : ∀ size ∈ events.map contextTokens ++ [currentTokens],
    ctx.tokenExplosionGrowthMinTokens ≤ size
  growth : (events.map contextTokens ++ [currentTokens]).IsChain fun previous current : ℤ =>
    ctx.tokenExplosionGrowthRatio * previous ≤ (current : ℚ)
  compounded : ∀ first ∈ (events.map contextTokens).head?,
    ctx.tokenExplosionGrowthRatio ^ events.length * first ≤ (currentTokens : ℚ)

/-- A growth warning stands for compounded growth in a live burst. -/
def WarnsOfGrowth (ctx : DetectionContext ℚ) : Prop :=
  1 ≤ ctx.tokenExplosionGrowthCount → 1 < ctx.tokenExplosionGrowthRatio → GrowthHit ctx →
    Live ctx ∧ ∃ tokens events, explosionTokens ctx = some tokens ∧ CompoundedGrowth ctx tokens events

theorem timestamp_le_iff {t t' : ℕ} : (timestamp t : ℚ) ≤ timestamp t' ↔ t ≤ t' := by
  change (t : ℚ) / 1000 ≤ (t' : ℚ) / 1000 ↔ t ≤ t'
  rw [div_le_div_iff_of_pos_right (by norm_num), Nat.cast_le]

theorem Steps.lt {previous current : ℤ} (h : Steps ctx previous current)
    (hr : 1 < ctx.tokenExplosionGrowthRatio) : previous < current := by
  have hpos : (0 : ℚ) < previous := by exact_mod_cast h.1
  have hgrown := (le_div_iff₀ hpos).mp h.2
  have hlt : (previous : ℚ) < current := by nlinarith
  exact_mod_cast hlt

theorem steps_of_getLast? {events : List Event} {event : Event} {size : ℤ}
    (h : (events.map contextTokens ++ [size]).IsChain (Steps ctx))
    (hlast : events.getLast? = some event) : Steps ctx (contextTokens event) size := by
  apply (List.isChain_append.mp h).2.2
  · rw [List.getLast?_map, hlast]
    rfl
  · rfl

theorem lastCounted_sublist (ctx : DetectionContext ℚ) : (lastCounted ctx).Sublist
    (sortedBy (fun event => (timestamp event.ts : ℚ)) ctx.recentEvents) :=
  (List.drop_sublist _ _).trans (List.filter_sublist.trans List.filter_sublist)

theorem compoundedGrowth_of_hit (hk : 1 ≤ ctx.tokenExplosionGrowthCount)
    (hr : 1 < ctx.tokenExplosionGrowthRatio) (hhit : (growth ctx currentTokens).hit = true)
    (hapart : TextsApart ctx) : CompoundedGrowth ctx currentTokens (lastCounted ctx) := by
  obtain ⟨hfloor, hmany, hsteps⟩ := (growth_hit_iff hk).mp hhit
  have hcount : ((lastCounted ctx).length : ℤ) = ctx.tokenExplosionGrowthCount := by
    rw [lastCounted, List.length_drop]
    omega
  have hsub := lastCounted_sublist ctx
  have hmem : ∀ event ∈ lastCounted ctx, event ∈ ctx.recentEvents ∧
      (growthQuery ctx).accepts event = true ∧
        ctx.tokenExplosionGrowthMinTokens ≤ contextTokens event := by
    intro event hevent
    have hcounted := List.mem_filter.mp (List.drop_sublist _ _ |>.mem hevent)
    have hmatching := List.mem_filter.mp hcounted.1
    exact ⟨mem_sortedBy.mp hmatching.1, hmatching.2, of_decide_eq_true hcounted.2⟩
  -- every step is at least the ratio
  have hgrowth : ((lastCounted ctx).map contextTokens ++ [max currentTokens 0]).IsChain
      fun previous current : ℤ => ctx.tokenExplosionGrowthRatio * previous ≤ (current : ℚ) := by
    refine hsteps.imp fun previous current hstep => ?_
    exact (le_div_iff₀ (by exact_mod_cast hstep.1)).mp hstep.2
  -- the current size has grown out of a positive one
  have hcurrent : max currentTokens 0 = currentTokens := by
    obtain ⟨event, hevent⟩ : ∃ event, (lastCounted ctx).getLast? = some event := by
      cases hlast : (lastCounted ctx).getLast? with
      | none =>
        rw [List.getLast?_eq_none_iff.mp hlast, List.length_nil] at hcount
        omega
      | some event => exact ⟨event, rfl⟩
    have hlast := steps_of_getLast? hsteps hevent
    have hpos : 0 < max currentTokens 0 := (hlast.lt hr).trans' hlast.1
    omega
  rw [hcurrent] at hgrowth
  refine ⟨hcount, (hsub.subperm).trans (sortedBy_perm _ _).subperm, ?_, ?_, ?_, hgrowth, ?_⟩
  -- in the order of their timestamps
  · refine ((pairwise_sortedBy _ _).sublist hsub).imp ?_
    exact timestamp_le_iff.mp
  -- of the same provider, model and signature
  · intro event hevent
    obtain ⟨hrecent, haccepts, _⟩ := hmem event hevent
    obtain ⟨hprovider, hmodel, hother, _⟩ := accepts_iff.mp haccepts
    exact ⟨hprovider, hmodel, hother, hapart event hrecent haccepts⟩
  -- all sizes above the floor
  · intro size hsize
    rcases List.mem_append.mp hsize with hsize | hsize
    · obtain ⟨event, hevent, rfl⟩ := List.mem_map.mp hsize
      exact (hmem event hevent).2.2
    · rw [List.mem_singleton.mp hsize]
      exact hfloor
  -- so that the ratio compounds from the first to the last
  · intro first hfirst
    cases hevents : lastCounted ctx with
    | nil => simp [hevents] at hfirst
    | cons event events =>
      rw [hevents, List.map_cons, List.cons_append] at hgrowth
      rw [hevents, List.map_cons, List.head?_cons, Option.mem_some_iff] at hfirst
      have hlast : (contextTokens event :: (events.map contextTokens ++ [currentTokens])).getLast? =
          some currentTokens := by
        rw [← List.cons_append, List.getLast?_concat]
      have hpow := pow_mul_le_of_isChain (by linarith) hgrowth hlast
      rw [List.length_append, List.length_map, List.length_singleton, hfirst] at hpow
      exact hpow

/-- Events of two contexts by which requests are matched alike. -/
structure SameEventTexts (event event' : Event) : Prop where
  id : event'.id = event.id
  provider : event'.provider = event.provider
  requestedModel : event'.requestedModel = event.requestedModel
  requestEndpoint : event'.requestEndpoint = event.requestEndpoint
  requestFeature : event'.requestFeature = event.requestFeature

/-- Contexts that differ only in sizes, times, thresholds and what else the detector does not match
requests by. -/
structure SameTexts (ctx ctx' : DetectionContext ℚ) : Prop where
  provider : ctx'.provider = ctx.provider
  requestedModel : ctx'.requestedModel = ctx.requestedModel
  requestEndpoint : ctx'.requestEndpoint = ctx.requestEndpoint
  requestFeature : ctx'.requestFeature = ctx.requestFeature
  currentId : ctx'.currentEvent.map (·.id) = ctx.currentEvent.map (·.id)
  recentEvents : List.Forall₂ SameEventTexts ctx.recentEvents ctx'.recentEvents

theorem SameTexts.refl (ctx : DetectionContext ℚ) : SameTexts ctx ctx :=
  ⟨rfl, rfl, rfl, rfl, rfl, List.forall₂_same.mpr fun _ _ => ⟨rfl, rfl, rfl, rfl, rfl⟩⟩

theorem SameTexts.textsApart {ctx' : DetectionContext ℚ} (h : SameTexts ctx ctx')
    (hapart : TextsApart ctx) : TextsApart ctx' := by
  intro event' hevent' haccepts
  obtain ⟨event, hevent, hsame⟩ : ∃ event ∈ ctx.recentEvents, SameEventTexts event event' := by
    obtain ⟨i, hi, rfl⟩ := List.mem_iff_getElem.mp hevent'
    have hi' : i < ctx.recentEvents.length := h.recentEvents.length_eq ▸ hi
    exact ⟨_, List.getElem_mem hi', List.forall₂_iff_get.mp h.recentEvents |>.2 i hi' hi⟩
  obtain ⟨hprovider, hmodel, hother, hsignature⟩ := accepts_iff.mp haccepts
  have haccepts' : (growthQuery ctx).accepts event = true := by
    refine accepts_iff.mpr ⟨?_, ?_, ?_, ?_⟩
    · rw [← hsame.provider, hprovider, h.provider]
    · rw [← hsame.requestedModel, hmodel, h.requestedModel]
    · intro current hcurrent
      have hid := h.currentId
      rw [hcurrent, Option.map_some] at hid
      obtain ⟨current', hcurrent', hids⟩ := Option.map_eq_some_iff.mp hid
      rw [← hsame.id, ← hids]
      exact hother current' hcurrent'
    · unfold eventSignature at hsignature ⊢
      rw [← hsame.requestEndpoint, ← hsame.requestFeature, hsignature, h.requestEndpoint,
        h.requestFeature]
  have hpair := hapart event hevent haccepts'
  unfold SamePair
  rw [hsame.requestEndpoint, hsame.requestFeature, h.requestEndpoint, h.requestFeature]
  exact hpair

/-- The context with sizes that grow by two, out of those events that are of another endpoint or
feature. -/
def probe (ctx : DetectionContext ℚ) : DetectionContext ℚ :=
  { ctx with
    recentEvents := ctx.recentEvents.map fun event =>
      { event with tokenExplosionTokens := some (if SamePair ctx event then 0 else 2000) }
    tokenExplosionTokens := some 4000
    currentRequests60s := some 1
    currentTokens60s := some 1
    tokenExplosionGrowthRatio := 2
    tokenExplosionGrowthCount := 1
    tokenExplosionGrowthMinTokens := 1000
    tokenExplosionConcurrencyThreshold := 8 }

theorem sameTexts_probe (ctx : DetectionContext ℚ) : SameTexts ctx (probe ctx) := by
  refine ⟨rfl, rfl, rfl, rfl, rfl, ?_⟩
  unfold probe
  rw [List.forall₂_map_right_iff]
  exact List.forall₂_same.mpr fun _ _ => ⟨rfl, rfl, rfl, rfl, rfl⟩

theorem contextTokens_probe {event : Event} (h : event ∈ (probe ctx).recentEvents) :
    contextTokens event = if SamePair (probe ctx) event then 0 else 2000 := by
  obtain ⟨event, _, rfl⟩ := List.mem_map.mp h
  have hpair : SamePair (probe ctx)
      { event with tokenExplosionTokens := some (if SamePair ctx event then 0 else 2000) } ↔
        SamePair ctx event := Iff.rfl
  by_cases hsame : SamePair ctx event
  · rw [if_pos (hpair.mpr hsame)]
    simp [contextTokens, hsame]
  · rw [if_neg (mt hpair.mp hsame)]
    simp [contextTokens, hsame]

theorem growthHit_probe {event : Event} (h : event ∈ ctx.recentEvents)
    (haccepts : (growthQuery ctx).accepts event = true) (hpair : ¬SamePair ctx event) :
    GrowthHit (probe ctx) := by
  -- the probe gives every counted event the same size
  have hsize : ∀ counted' ∈ counted (probe ctx), contextTokens counted' = 2000 := by
    intro event' hevent'
    obtain ⟨hmatching, hlarge⟩ := List.mem_filter.mp hevent'
    have hrecent := mem_sortedBy.mp (List.mem_filter.mp hmatching).1
    have hfloor : (1000 : ℤ) ≤ contextTokens event' := of_decide_eq_true hlarge
    rw [contextTokens_probe hrecent] at hfloor ⊢
    by_cases hsame : SamePair (probe ctx) event'
    · rw [if_pos hsame] at hfloor
      omega
    · rw [if_neg hsame]
  have hcounted : { event with tokenExplosionTokens := some 2000 } ∈ counted (probe ctx) := by
    refine List.mem_filter.mpr ⟨List.mem_filter.mpr ⟨mem_sortedBy.mpr ?_, haccepts⟩, rfl⟩
    exact List.mem_map.mpr ⟨event, h, by rw [if_neg hpair]⟩
  have hlength : 1 ≤ (counted (probe ctx)).length := List.length_pos_of_mem hcounted
  -- one step is asked for, so the slice is one event
  have hlast : (lastCounted (probe ctx)).map contextTokens = [2000] := by
    have hone : ((lastCounted (probe ctx)).map contextTokens).length = 1 := by
      rw [List.length_map, lastCounted, List.length_drop]
      change (counted (probe ctx)).length - ((counted (probe ctx)).length - 1) = 1
      omega
    refine List.eq_replicate_iff.mpr ⟨hone, ?_⟩
    intro size hmem
    obtain ⟨event', hevent', rfl⟩ := List.mem_map.mp hmem
    exact hsize event' (List.drop_sublist _ _ |>.mem hevent')
  refine growthHit_iff.mpr ⟨4000, rfl, growthHit_eq_true_iff.mpr ⟨⟨le_rfl, le_rfl, ?_⟩, ?_⟩⟩
  · show (1 : ℤ) < 8
    decide
  · have hfloor : (probe ctx).tokenExplosionGrowthMinTokens ≤ 4000 := by
      show (1000 : ℤ) ≤ 4000
      decide
    have hmany : (probe ctx).tokenExplosionGrowthCount ≤ (counted (probe ctx)).length := by
      show (1 : ℤ) ≤ (counted (probe ctx)).length
      exact_mod_cast hlength
    refine (growth_hit_iff le_rfl).mpr ⟨hfloor, hmany, ?_⟩
    rw [hlast]
    refine List.isChain_pair.mpr ⟨by decide, ?_⟩
    change (2 : ℚ) ≤ ((max 4000 0 : ℤ) : ℚ) / ((2000 : ℤ) : ℚ)
    norm_num

theorem not_warnsOfGrowth_probe {event : Event} (h : event ∈ ctx.recentEvents)
    (haccepts : (growthQuery ctx).accepts event = true) (hpair : ¬SamePair ctx event) :
    ¬WarnsOfGrowth (probe ctx) := by
  intro hwarns
  have hr : 1 < (probe ctx).tokenExplosionGrowthRatio := by
    show (1 : ℚ) < 2
    norm_num
  obtain ⟨_, _, events, _, hgrowth⟩ := hwarns le_rfl hr (growthHit_probe h haccepts hpair)
  have hcount : (events.length : ℤ) = 1 := hgrowth.count
  obtain ⟨event', hevent'⟩ := List.exists_mem_of_length_pos (by omega : 0 < events.length)
  have hfloor : (1000 : ℤ) ≤ contextTokens event' := hgrowth.floor _
    (List.mem_append_left _ (List.mem_map_of_mem hevent'))
  rw [contextTokens_probe (hgrowth.recent.subset hevent'), if_pos (hgrowth.stream _ hevent').pair]
    at hfloor
  omega

/-- Growth warnings stand for growth, whatever the sizes and times of the requests, just where the
texts by which requests are matched keep endpoints and features apart. -/
theorem warnsOfGrowth_iff (ctx : DetectionContext ℚ) :
    (∀ ctx', SameTexts ctx ctx' → WarnsOfGrowth ctx') ↔ TextsApart ctx := by
  constructor
  · intro hall event hevent haccepts
    by_contra hpair
    exact not_warnsOfGrowth_probe hevent haccepts hpair (hall (probe ctx) (sameTexts_probe ctx))
  · intro hapart ctx' htexts hk hr hhit
    obtain ⟨tokens, htokens, hhit⟩ := growthHit_iff.mp hhit
    obtain ⟨hlive, hgrowth⟩ := growthHit_eq_true_iff.mp hhit
    exact ⟨hlive, tokens, _, htokens, compoundedGrowth_of_hit hk hr hgrowth (htexts.textsApart hapart)⟩

/-- A request for the feature "chat:summary" of an endpoint, and an earlier one of another endpoint. -/
def sampleMixed : DetectionContext ℚ :=
  { sampleContext [{ sampleEvent "e1" 8000 2000 with
      requestEndpoint := some "/v1:chat", requestFeature := some "summary" }] with
    currentEvent := none
    requestEndpoint := some "/v1"
    requestFeature := some "chat:summary" }

/-- The growth from 2000 to 4000 tokens that is reported is between two endpoints. -/
theorem endpoints_run_together : ¬WarnsOfGrowth (probe sampleMixed) := by
  have hevent : sampleMixed.recentEvents.head (by decide) ∈ sampleMixed.recentEvents :=
    List.head_mem _
  refine not_warnsOfGrowth_probe hevent ?_ ?_
  · decide +kernel
  · decide +kernel

end Streams

section Exclusion

open IngestDetection

theorem sortedByDesc_eq_reverse {α K : Type} [LinearOrder K] {key : α → K} {l : List α}
    (h : (l.map key).Nodup) : sortedByDesc key l = (sortedBy key l).reverse := by
  have hperm : l.Perm (sortedBy key l).reverse :=
    (sortedBy_perm key l).symm.trans (List.reverse_perm _).symm
  rw [sortedByDesc_eq_of_perm hperm h]
  apply sortedByDesc_of_pairwise
  exact List.pairwise_reverse.mpr (pairwise_sortedBy key l)

theorem resolvePreviousEstimatedTokens_eq (h : (ctx.recentEvents.map (·.ts)).Nodup) :
    resolvePreviousEstimatedTokens ℚ (growthQuery ctx) ctx.recentEvents =
      (matching ctx).getLast?.map contextTokens := by
  have hkeys : (ctx.recentEvents.map fun event => (timestamp event.ts : ℚ)).Nodup := by
    have hinjective : Function.Injective (timestamp : ℕ → ℚ) := fun t t' heq =>
      le_antisymm (timestamp_le_iff.mp heq.le) (timestamp_le_iff.mp heq.ge)
    have hmap := h.map hinjective
    rw [List.map_map] at hmap
    exact hmap
  unfold resolvePreviousEstimatedTokens matching
  dsimp only
  rw [sortedByDesc_eq_reverse hkeys, ← List.head?_filter, List.filter_reverse, List.head?_reverse]

theorem previous_lt_of_hit (hk : 1 ≤ ctx.tokenExplosionGrowthCount)
    (hr : 1 < ctx.tokenExplosionGrowthRatio) (hhit : (growth ctx currentTokens).hit = true)
    {event : Event} (hlast : (matching ctx).getLast? = some event) :
    contextTokens event < currentTokens := by
  obtain ⟨hfloor, hmany, hsteps⟩ := (growth_hit_iff hk).mp hhit
  by_cases hsmall : contextTokens event < ctx.tokenExplosionGrowthMinTokens
  · omega
  -- the latest matching event is large enough to count, so it is the last that is counted
  have hcounted : (lastCounted ctx).getLast? = some event := by
    obtain ⟨older, holder⟩ := List.getLast?_eq_some_iff.mp hlast
    have hcounts : (counted ctx).getLast? = some event := by
      unfold counted
      rw [holder, List.filter_append, List.filter_cons,
        if_pos (decide_eq_true (not_lt.mp hsmall)), List.filter_nil, List.getLast?_concat]
    unfold lastCounted
    rw [List.getLast?_drop, if_neg (by omega), hcounts]
  have hlt := (steps_of_getLast? hsteps hcounted).lt hr
  have hpos := (steps_of_getLast? hsteps hcounted).1
  omega

theorem explosionTokens_detectionContext (settings : DetectorSettings ℚ) (r : Readings)
    (event : Event) (recentEvents : List Event) :
    explosionTokens (detectionContext settings r event recentEvents) =
      some (event.tokenExplosionTokens.getD event.totalTokens) := by
  cases htokens : event.tokenExplosionTokens with
  | none => simp [explosionTokens, detectionContext, htokens]
  | some tokens => simp [explosionTokens, detectionContext, htokens]

/-- The loop detector leaves a request alone that has grown above the floor. -/
theorem looksLikeTokenContextGrowth_of_grown (settings : DetectorSettings ℚ) (r : Readings)
    (event : Event) (recentEvents : List Event) {tokens : ℤ}
    (htokens : event.tokenExplosionTokens.getD event.totalTokens = tokens)
    (hfloor : settings.tokenExplosionGrowthMinTokens ≤ tokens)
    (hgrown : ∀ previous ∈ (detectionContext settings r event recentEvents).previousEstimatedTokens,
      max previous 0 < tokens) :
    LoopSuspect.looksLikeTokenContextGrowth (detectionContext settings r event recentEvents) =
      true := by
  have hcurrent : ((event.tokenExplosionTokens.or ((some event).bind (·.tokenExplosionTokens))).or
      (some event.totalTokens)).or ((some event).map (·.totalTokens)) = some tokens := by
    cases hsize : event.tokenExplosionTokens with
    | none => simp [← htokens, hsize]
    | some size => simp [← htokens, hsize]
  have hnotless : ¬max tokens 0 <
      (detectionContext settings r event recentEvents).tokenExplosionGrowthMinTokens := by
    show ¬max tokens 0 < settings.tokenExplosionGrowthMinTokens
    omega
  have hsizes : (((detectionContext settings r event recentEvents).tokenExplosionTokens.or
      ((detectionContext settings r event recentEvents).currentEvent.bind
        (·.tokenExplosionTokens))).or
      (detectionContext settings r event recentEvents).estimatedNextTokens).or
      ((detectionContext settings r event recentEvents).currentEvent.map (·.totalTokens)) =
        some tokens := hcurrent
  unfold LoopSuspect.looksLikeTokenContextGrowth
  rw [hsizes]
  dsimp only
  rw [if_neg hnotless]
  cases hprevious : (detectionContext settings r event recentEvents).previousEstimatedTokens with
  | none => rfl
  | some previous =>
    have hlt := hgrown previous hprevious
    exact decide_eq_true (by omega)

theorem previousEstimatedTokens_detectionContext (settings : DetectorSettings ℚ) (r : Readings)
    (event : Event) (recentEvents : List Event) :
    (detectionContext settings r event recentEvents).previousEstimatedTokens =
      resolvePreviousEstimatedTokens ℚ
        (growthQuery (detectionContext settings r event recentEvents))
        (detectionContext settings r event recentEvents).recentEvents := by
  rw [detectionContext, growthQuery]

/-- An event that is reported for growth is never one of a loop. -/
theorem growth_excludes_loop (settings : DetectorSettings ℚ) (r : Readings) (event : Event)
    (recentEvents : List Event) (hdistinct : (recentEvents.map (·.ts)).Nodup)
    (hk : 1 ≤ settings.tokenExplosionGrowthCount) (hr : 1 < settings.tokenExplosionGrowthRatio)
    (hhit : GrowthHit (detectionContext settings r event recentEvents)) :
    LoopSuspect.detect (detectionContext settings r event recentEvents) = [] := by
  obtain ⟨tokens, htokens, hhit⟩ := growthHit_iff.mp hhit
  have hgrowth := (growthHit_eq_true_iff.mp hhit).2
  have hfloor := ((growth_hit_iff hk).mp hgrowth).1
  have hgrown : ∀ previous ∈
      (detectionContext settings r event recentEvents).previousEstimatedTokens,
      max previous 0 < tokens := by
    intro previous hprevious
    have hmatching : (matching (detectionContext settings r event recentEvents)).getLast?.map
        contextTokens = some previous := by
      rw [previousEstimatedTokens_detectionContext] at hprevious
      rw [← hprevious]
      symm
      apply resolvePreviousEstimatedTokens_eq
      exact hdistinct
    obtain ⟨latest, hlatest, rfl⟩ := Option.map_eq_some_iff.mp hmatching
    have hlt := previous_lt_of_hit hk hr hgrowth hlatest
    have hnonneg : 0 ≤ contextTokens latest := le_max_right _ _
    omega
  rw [explosionTokens_detectionContext] at htokens
  have hlooks := looksLikeTokenContextGrowth_of_grown settings r event recentEvents
    (Option.some.inj htokens) hfloor hgrown
  unfold LoopSuspect.detect
  rw [hlooks]
  split
  · rfl
  · rfl

/-- Three requests of one stream, of which each is larger than the one before by the ratio. -/
def sampleGrown : List Event :=
  [sampleEvent "e3" 9000 5500, sampleEvent "e2" 8000 3230, sampleEvent "e1" 7000 1900]

def sampleSettings : DetectorSettings ℚ := { loopCount := 1 }

theorem growth_excludes_loop_sample :
    LoopSuspect.detect (detectionContext sampleSettings { now := 9000, requests60s := 3, tokens60s := 10630 }
      (sampleEvent "e3" 9000 5500) sampleGrown) = [] := by
  refine growth_excludes_loop sampleSettings _ _ sampleGrown (by decide) (by decide) (by decide +kernel) ?_
  refine growthHit_iff.mpr ⟨5500, rfl, ?_⟩
  decide +kernel

end Exclusion

end TokenExplosion

end Rheonic.Detectors
