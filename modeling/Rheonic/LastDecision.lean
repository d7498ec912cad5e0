import Rheonic.EventBuilder
import Rheonic.Lib.Calendar
import Rheonic.Lib.FixedDigits
import Rheonic.Lib.PriorityRegister
import Rheonic.MetricsService

namespace Rheonic.LastDecision
open Calendar FixedDigits PriorityRegister
open EventBuilder (UtcTime zeroFilled)

/-- What a datetime of Python keeps to. -/
structure Valid (t : UtcTime) : Prop where
  date : IsDate t.year t.month t.day
  year_le : t.year ≤ 9999
  hour_lt : t.hour < 24
  minute_lt : t.minute < 60
  second_lt : t.second < 60
  microsecond_lt : t.microsecond < 1000000

structure Datetime where
  time : UtcTime
  valid : Valid time

/-- Microseconds, counted from a day before the calendar's first. -/
def instant (t : UtcTime) : ℕ :=
  (((ordinal t.year t.month t.day * 24 + t.hour) * 60 + t.minute) * 60 + t.second) * 1000000 +
    t.microsecond

/-- The order of the fields, from the year down. -/
def Before (t t' : UtcTime) : Prop :=
  t.year < t'.year ∨ t.year = t'.year ∧ (t.month < t'.month ∨ t.month = t'.month ∧
    (t.day < t'.day ∨ t.day = t'.day ∧ (t.hour < t'.hour ∨ t.hour = t'.hour ∧
      (t.minute < t'.minute ∨ t.minute = t'.minute ∧ (t.second < t'.second ∨
        t.second = t'.second ∧ t.microsecond < t'.microsecond)))))

section Order

variable {t t' : UtcTime}

theorem field_trichotomy {m n : ℕ} {below same above : Prop} (h : below ∨ same ∨ above) :
    (m < n ∨ m = n ∧ below) ∨ (m = n ∧ same) ∨ (n < m ∨ n = m ∧ above) := by
  rcases Nat.lt_trichotomy m n with hlt | rfl | hlt
  · exact .inl (.inl hlt)
  · exact h.imp (fun h => .inr ⟨rfl, h⟩) (.imp (fun h => ⟨rfl, h⟩) fun h => .inr ⟨rfl, h⟩)
  · exact .inr (.inr (.inl hlt))

theorem before_trichotomy (t t' : UtcTime) : Before t t' ∨ t = t' ∨ Before t' t := by
  obtain ⟨year, month, day, hour, minute, second, microsecond⟩ := t
  obtain ⟨year', month', day', hour', minute', second', microsecond'⟩ := t'
  rw [UtcTime.mk.injEq]
  have hsecond := field_trichotomy (m := second) (n := second')
    (Nat.lt_trichotomy microsecond microsecond')
  have hhour := field_trichotomy (m := hour) (n := hour') (field_trichotomy (m := minute)
    (n := minute') hsecond)
  exact field_trichotomy (field_trichotomy (field_trichotomy hhour))

theorem instant_lt (ht : Valid t) (ht' : Valid t') (h : Before t t') : instant t < instant t' := by
  have hhour := ht.hour_lt
  have hminute := ht.minute_lt
  have hsecond := ht.second_lt
  have hmicrosecond := ht.microsecond_lt
  unfold instant
  rcases h with hyear | ⟨hyear, hmonth | ⟨hmonth, hday | ⟨hday, hrest⟩⟩⟩
  · have hdays : ordinal t.year t.month t.day < ordinal t'.year t'.month t'.day :=
      ordinal_lt_of_year ht.date ht'.date.day_pos hyear
    omega
  · have hdays := ordinal_lt_of_month ht.date ht'.date.day_pos hmonth
    rw [← hyear]
    omega
  · have hdays : ordinal t.year t.month t.day < ordinal t'.year t'.month t'.day := by
      rw [← hyear, ← hmonth]
      exact Nat.add_lt_add_left hday _
    omega
  · rw [← hyear, ← hmonth, ← hday]
    omega

def ending (microsecond : ℕ) : List Char :=
  (if microsecond = 0 then [] else '.' :: fixedDigits 6 microsecond) ++
    ['+', '0', '0', ':', '0', '0']

theorem toList_zeroFilled {width n : ℕ} (hwidth : 0 < width) (hn : n < 10 ^ width) :
    (zeroFilled width n).toList = fixedDigits width n := by
  rw [zeroFilled, String.toList_ofList, Nat.toList_repr, leftpad_toDigits hwidth hn]

theorem toList_isoformat (ht : Valid t) :
    t.isoformat.toList = fixedDigits 4 t.year ++ (['-'] ++ (fixedDigits 2 t.month ++ (['-'] ++
      (fixedDigits 2 t.day ++ (['T'] ++ (fixedDigits 2 t.hour ++ ([':'] ++
        (fixedDigits 2 t.minute ++ ([':'] ++ (fixedDigits 2 t.second ++
          ending t.microsecond)))))))))) := by
  have hmonth := ht.date.month_le
  have hday := ht.date.day_le_thirtyOne
  have hyear := ht.year_le
  have hhour := ht.hour_lt
  have hminute := ht.minute_lt
  have hsecond := ht.second_lt
  have hmicrosecond := ht.microsecond_lt
  have hfraction : (if t.microsecond = 0 then "" else "." ++ zeroFilled 6 t.microsecond).toList =
      if t.microsecond = 0 then [] else '.' :: fixedDigits 6 t.microsecond := by
    split
    · rfl
    · rw [String.toList_append, toList_zeroFilled (by decide) (by omega)]
      rfl
  unfold UtcTime.isoformat UtcTime.date UtcTime.time
  simp only [String.toList_append, hfraction, List.append_assoc]
  rw [toList_zeroFilled (by decide) (by omega), toList_zeroFilled (by decide) (by omega),
    toList_zeroFilled (by decide) (by omega), toList_zeroFilled (by decide) (by omega),
    toList_zeroFilled (by decide) (by omega), toList_zeroFilled (by decide) (by omega)]
  rfl

theorem ending_lt {m n : ℕ} (h : m < n) (hn : n < 10 ^ 6) : ending m < ending n := by
  unfold ending
  rw [if_neg (by omega : n ≠ 0)]
  by_cases hm : m = 0
  · rw [if_pos hm]
    exact List.cons_lt_cons_iff.mpr (.inl (by decide))
  · rw [if_neg hm]
    exact List.cons_lt_cons_iff.mpr (.inr ⟨rfl, fixedDigits_append_lt h hn _ _⟩)

theorem isoformat_lt (ht : Valid t) (ht' : Valid t') (h : Before t t') :
    t.isoformat < t'.isoformat := by
  have hyear := ht'.year_le
  have hmonth := ht'.date.month_le
  have hday := ht'.date.day_le_thirtyOne
  have hhour := ht'.hour_lt
  have hminute := ht'.minute_lt
  have hsecond := ht'.second_lt
  rw [String.lt_iff, toList_isoformat ht, toList_isoformat ht']
  -- field by field: the first that differs decides, and what is between them is the same
  apply fixedDigits_append_lt_of_or (by omega)
  refine h.imp_right (And.imp_right fun h => List.append_left_lt ?_)
  apply fixedDigits_append_lt_of_or (by omega)
  refine h.imp_right (And.imp_right fun h => List.append_left_lt ?_)
  apply fixedDigits_append_lt_of_or (by omega)
  refine h.imp_right (And.imp_right fun h => List.append_left_lt ?_)
  apply fixedDigits_append_lt_of_or (by omega)
  refine h.imp_right (And.imp_right fun h => List.append_left_lt ?_)
  apply fixedDigits_append_lt_of_or (by omega)
  refine h.imp_right (And.imp_right fun h => List.append_left_lt ?_)
  apply fixedDigits_append_lt_of_or (by omega)
  exact h.imp_right (And.imp_right fun h => ending_lt h ht'.microsecond_lt)

theorem isoformat_le_iff (ht : Valid t) (ht' : Valid t') :
    t.isoformat ≤ t'.isoformat ↔ instant t ≤ instant t' := by
  rcases before_trichotomy t t' with h | rfl | h
  · exact iff_of_true (isoformat_lt ht ht' h).le (instant_lt ht ht' h).le
  · exact iff_of_true le_rfl le_rfl
  · exact iff_of_false (isoformat_lt ht' ht h).not_ge (instant_lt ht' ht h).not_ge

end Order

/-- A last record, as `_parse_last` gives it. -/
structure LastRecord where
  decision : String
  reason : String
  source : String
  ts : String
  deriving DecidableEq, Repr

/-- `_parse_last`, of the object that the text is read as, if it is one; `text` is `str(v or "")`. -/
def parseLast {ν : Type} (text : ν → String) (parsed : Option (Fields ν)) : Option LastRecord :=
  match parsed with
  | none => none
  | some fields =>
    let field (key : String) := ((fields.get key).map text).getD ""
    let record : LastRecord := ⟨field "decision", field "reason", field "source", field "ts"⟩
    if record.decision = "" ∨ record.reason = "" ∨ record.source = "" ∨ record.ts = "" then none
    else some record

/-- The latest record so far with its text of a time, and what one provider has. -/
def mergeLast (latest : Option LastRecord × String) (rawLast : Option LastRecord) :
    Option LastRecord × String :=
  match rawLast with
  | some last =>
    if last.ts ≠ "" ∧ latest.2 ≤ last.ts then (some last, last.ts) else latest
  | none => latest

/-- The `last` of `get_protect_metrics`, from the records of the providers in their order. -/
def latestLast (rawLasts : List (Option LastRecord)) : Option LastRecord :=
  (rawLasts.foldl mergeLast (none, "")).1

/-- A decision, and when it was made. -/
structure Decided where
  decision : String
  reason : String
  source : String
  decidedAt : Datetime

namespace Decided

/-- The object that `finalize_outcome` writes for a decision. -/
def members (d : Decided) : Fields String :=
  [("decision", d.decision), ("reason", d.reason), ("source", d.source),
    ("ts", d.decidedAt.time.isoformat)]

def record (d : Decided) : LastRecord :=
  ⟨d.decision, d.reason, d.source, d.decidedAt.time.isoformat⟩

def payload (d : Decided) : OutcomePayload :=
  ⟨d.decision, d.reason, d.source, instant d.decidedAt.time⟩

/-- The second of two decisions was not made before the first. -/
def notEarlier (d d' : Decided) : Bool := instant d.decidedAt.time ≤ instant d'.decidedAt.time

/-- The latest of some decisions, and the last of several at one time. -/
def latest (raws : List (Option Decided)) : Option Decided :=
  raws.reduceOption.foldl (offer notEarlier) none

end Decided

section Fold

open Decided

variable {d d' : Decided} {raws : List (Option Decided)}

theorem rankedBy_instant : RankedBy notEarlier fun d => instant d.decidedAt.time where
  refuses _ _ h := decide_eq_false (not_le.mpr h)
  prefers _ _ h := decide_eq_true h.le

theorem isoformat_ne_empty (t : UtcTime) : t.isoformat ≠ "" := by
  intro h
  have hmem := t.mem_isoformat
  rw [h] at hmem
  exact absurd hmem List.not_mem_nil

theorem parseLast_members (hdecision : d.decision ≠ "") (hreason : d.reason ≠ "")
    (hsource : d.source ≠ "") : parseLast id (some d.members) = some d.record := by
  have hts : d.decidedAt.time.isoformat ≠ "" := isoformat_ne_empty _
  have hfilled : ¬(d.decision = "" ∨ d.reason = "" ∨ d.source = "" ∨
      d.decidedAt.time.isoformat = "") := by
    simp only [not_or]
    exact ⟨hdecision, hreason, hsource, hts⟩
  exact if_neg hfilled

theorem ts_le_iff : d.record.ts ≤ d'.record.ts ↔ notEarlier d d' = true := by
  rw [notEarlier, decide_eq_true_eq]
  exact isoformat_le_iff d.decidedAt.valid d'.decidedAt.valid

/-- The loop's variables while it holds a decision. -/
def held (x : Option Decided) : Option LastRecord × String :=
  (x.map record, (x.map fun d => d.record.ts).getD "")

theorem held_some (d : Decided) : held (some d) = (some d.record, d.record.ts) := rfl

theorem mergeLast_replaces {latest : Option LastRecord × String} (hle : latest.2 ≤ d.record.ts) :
    mergeLast latest (some d.record) = held (some d) := by
  have hne : d.record.ts ≠ "" := isoformat_ne_empty _
  rw [mergeLast, if_pos ⟨hne, hle⟩, held_some]

theorem mergeLast_keeps {latest : Option LastRecord × String} (hlt : ¬latest.2 ≤ d.record.ts) :
    mergeLast latest (some d.record) = latest := by
  rw [mergeLast, if_neg (fun hboth => hlt hboth.2)]

theorem mergeLast_some (x : Option Decided) (d : Decided) :
    mergeLast (held x) (some d.record) = held (offer notEarlier x d) := by
  cases x with
  | none =>
    have hempty : "" ≤ d.record.ts := by
      rw [String.le_iff_toList_le]
      exact not_lt.mp (List.not_lt_nil _)
    rw [offer_none]
    exact mergeLast_replaces hempty
  | some d' =>
    rw [offer_some, held_some]
    by_cases hle : notEarlier d' d = true
    · rw [if_pos hle]
      exact mergeLast_replaces (ts_le_iff.mpr hle)
    · rw [if_neg hle]
      exact mergeLast_keeps fun h => hle (ts_le_iff.mp h)

theorem foldl_mergeLast (x : Option Decided) (raws : List (Option Decided)) :
    (raws.map (Option.map record)).foldl mergeLast (held x) =
      held (raws.reduceOption.foldl (offer notEarlier) x) := by
  induction raws generalizing x with
  | nil => rfl
  | cons raw raws ih =>
    cases raw with
    | none => exact ih x
    | some d =>
      rw [List.map_cons, List.foldl_cons, Option.map_some, mergeLast_some, ih,
        List.reduceOption_cons_of_some, List.foldl_cons]

theorem latestLast_eq (raws : List (Option Decided)) :
    latestLast (raws.map (Option.map record)) = (latest raws).map record :=
  congrArg Prod.fst (foldl_mergeLast none raws)

theorem payload_ts : d.payload.ts = instant d.decidedAt.time := rfl

theorem gathered_add {g : MetricsService.Gathered} {m : ProtectActionStore.ActionMetrics}
    {x : Option Decided} (hg : g.latestLast = x.map payload) (hm : m.last = some d.payload) :
    (g.add m).latestLast = (offer notEarlier x d).map payload := by
  have hadd : (g.add m).latestLast =
      if (x.map payload).all (·.ts ≤ d.payload.ts) then some d.payload else x.map payload := by
    unfold MetricsService.Gathered.add
    dsimp only
    rw [hm, hg]
  rw [hadd]
  cases x with
  | none => rfl
  | some d' =>
    have hall : ((some d').map payload).all (·.ts ≤ d.payload.ts) = notEarlier d' d := by
      rw [Option.map_some, Option.all_some, payload_ts, payload_ts, notEarlier]
    rw [offer_some, hall]
    by_cases hle : notEarlier d' d = true
    · rw [if_pos hle, if_pos hle]
      rfl
    · rw [if_neg hle, if_neg hle]

theorem foldl_gathered {metrics : List ProtectActionStore.ActionMetrics} {x : Option Decided}
    {g : MetricsService.Gathered} (hg : g.latestLast = x.map payload)
    (h : metrics.map (·.last) = raws.map (Option.map payload)) :
    (metrics.foldl MetricsService.Gathered.add g).latestLast =
      (raws.reduceOption.foldl (offer notEarlier) x).map payload := by
  induction raws generalizing metrics x g with
  | nil =>
    rw [List.map_eq_nil_iff.mp h]
    exact hg
  | cons raw raws ih =>
    cases metrics with
    | nil => exact absurd h.symm (List.cons_ne_nil _ _)
    | cons m metrics =>
      obtain ⟨hm, hrest⟩ := List.cons.inj h
      cases raw with
      | none =>
        apply ih _ hrest
        unfold MetricsService.Gathered.add
        dsimp only
        rw [show m.last = none from hm]
        exact hg
      | some d =>
        rw [List.reduceOption_cons_of_some, List.foldl_cons, List.foldl_cons]
        exact ih (gathered_add hg hm) hrest

theorem gathered_latestLast {metrics : List ProtectActionStore.ActionMetrics}
    (h : metrics.map (·.last) = raws.map (Option.map payload)) :
    (metrics.foldl MetricsService.Gathered.add {}).latestLast = (latest raws).map payload :=
  foldl_gathered rfl h

theorem latest_eq_some (h : ∃ d, some d ∈ raws) :
    ∃ d, latest raws = some d ∧ some d ∈ raws ∧
      ∀ d', some d' ∈ raws → instant d'.decidedAt.time ≤ instant d.decidedAt.time := by
  obtain ⟨d₀, hd₀⟩ := h
  have hne : raws.reduceOption ≠ [] := by
    intro hempty
    have hmem := List.reduceOption_mem_iff.mpr hd₀
    rw [hempty] at hmem
    exact absurd hmem List.not_mem_nil
  obtain ⟨d, hd, hmem, -, hmax⟩ :=
    rankedBy_instant.foldl_offer none raws.reduceOption fun _ => hne
  refine ⟨d, hd, ?_, fun d' hd' => hmax d' (List.reduceOption_mem_iff.mpr hd')⟩
  exact List.reduceOption_mem_iff.mp (hmem.resolve_left (Option.some_ne_none d).symm)

end Fold

/-- Whatever the order of the providers, the project's last decision is one that none of theirs was
made after, and there is none only where none of them has one. -/
theorem last_is_latest (providers : List String) (lastOf : String → Option Decided) :
    (latestLast (providers.map fun p => (lastOf p).map Decided.record) = none ↔
      ∀ p ∈ providers, lastOf p = none) ∧
    ∀ last, latestLast (providers.map fun p => (lastOf p).map Decided.record) = some last →
      ∃ p ∈ providers, ∃ d, lastOf p = some d ∧ d.record = last ∧
        ∀ p' ∈ providers, ∀ d' ∈ lastOf p',
          instant d'.decidedAt.time ≤ instant d.decidedAt.time := by
  have hmap : (providers.map fun p => (lastOf p).map Decided.record) =
      (providers.map lastOf).map (Option.map Decided.record) := by
    rw [List.map_map]
    rfl
  rw [hmap, latestLast_eq, Option.map_eq_none_iff]
  by_cases hsome : ∃ d, some d ∈ providers.map lastOf
  · obtain ⟨d, hd, hmem, hmax⟩ := latest_eq_some hsome
    obtain ⟨p, hp, hpd⟩ := List.mem_map.mp hmem
    rw [hd]
    constructor
    · refine iff_of_false (Option.some_ne_none d) fun hnone => ?_
      exact Option.some_ne_none d (hpd.symm.trans (hnone p hp))
    · intro last hlast
      refine ⟨p, hp, d, hpd, Option.some.inj hlast, fun p' hp' d' hd' => hmax d' ?_⟩
      exact List.mem_map.mpr ⟨p', hp', Option.mem_def.mp hd'⟩
  · have hnone : ∀ p ∈ providers, lastOf p = none := by
      intro p hp
      by_contra hne
      obtain ⟨d, hd⟩ := Option.ne_none_iff_exists'.mp hne
      exact hsome ⟨d, List.mem_map.mpr ⟨p, hp, hd⟩⟩
    have hempty : Decided.latest (providers.map lastOf) = none := by
      have hall : (providers.map lastOf).reduceOption = [] := by
        rw [List.eq_nil_iff_forall_not_mem]
        intro d hd
        exact hsome ⟨d, List.reduceOption_mem_iff.mp hd⟩
      rw [Decided.latest, hall]
      rfl
    rw [hempty]
    exact ⟨iff_of_true rfl hnone, fun last hlast => absurd hlast (Option.some_ne_none last).symm⟩

end Rheonic.LastDecision
