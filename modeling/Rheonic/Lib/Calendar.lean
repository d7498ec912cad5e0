import Mathlib.Tactic.Common
import Mathlib.Tactic.NormNum

namespace Calendar

/-- Leap years of the proleptic Gregorian calendar. -/
def isLeap (year : ℕ) : Bool := year % 4 = 0 && (year % 100 ≠ 0 || year % 400 = 0)

def daysInMonth (year month : ℕ) : ℕ :=
  if month = 2 then if isLeap year then 29 else 28
  else if month ∈ [4, 6, 9, 11] then 30
  else 31

/-- Days of a year before the first of a month. -/
def daysBeforeMonth (year : ℕ) : ℕ → ℕ
  | 0 => 0
  | 1 => 0
  | month + 2 => daysBeforeMonth year (month + 1) + daysInMonth year (month + 1)

/-- Days before the first of January of a year, from year 1 on. -/
def daysBeforeYear (year : ℕ) : ℕ :=
  let y := year - 1
  y * 365 + y / 4 - y / 100 + y / 400

/-- The first of January of year 1 is day 1. -/
def ordinal (year month day : ℕ) : ℕ :=
  daysBeforeYear year + daysBeforeMonth year month + day

/-- A day that the calendar has. -/
structure IsDate (year month day : ℕ) : Prop where
  year_pos : 1 ≤ year
  month_pos : 1 ≤ month
  month_le : month ≤ 12
  day_pos : 1 ≤ day
  day_le : day ≤ daysInMonth year month

variable {year month day year' month' day' : ℕ}

theorem isLeap_iff : isLeap year = true ↔ 4 ∣ year ∧ (¬100 ∣ year ∨ 400 ∣ year) := by
  simp [isLeap, Nat.dvd_iff_mod_eq_zero]

theorem daysBeforeMonth_thirteen (year : ℕ) :
    daysBeforeMonth year 13 = if isLeap year then 366 else 365 := by
  cases hleap : isLeap year <;> simp [daysBeforeMonth, daysInMonth, hleap]

theorem daysBeforeMonth_mono (h : month ≤ month') :
    daysBeforeMonth year month ≤ daysBeforeMonth year month' := by
  induction month', h using Nat.le_induction with
  | base => exact le_rfl
  | succ n hn ih =>
    cases n with
    | zero => exact ih
    | succ n => exact ih.trans (Nat.le_add_right _ _)

theorem daysBeforeMonth_succ (h : 1 ≤ month) :
    daysBeforeMonth year (month + 1) = daysBeforeMonth year month + daysInMonth year month := by
  cases month with
  | zero => omega
  | succ month => rfl

theorem daysBeforeYear_succ (h : 1 ≤ year) :
    daysBeforeYear (year + 1) = daysBeforeYear year + if isLeap year then 366 else 365 := by
  obtain ⟨y, rfl⟩ := Nat.exists_eq_add_of_le' h
  have hcenturies : y / 100 ≤ y / 4 := Nat.div_le_div_left (by decide) (by decide)
  unfold daysBeforeYear
  rw [Nat.add_sub_cancel, Nat.add_sub_cancel]
  dsimp only
  rw [Nat.succ_div, Nat.succ_div, Nat.succ_div]
  -- a century is a fourth year, and a fourth century is a century
  have hfour (hd : 100 ∣ y + 1) : 4 ∣ y + 1 := Nat.dvd_trans (by decide) hd
  have hhundred (hd : 400 ∣ y + 1) : 100 ∣ y + 1 := Nat.dvd_trans (by decide) hd
  by_cases h4 : 4 ∣ y + 1
  · by_cases h100 : 100 ∣ y + 1
    · by_cases h400 : 400 ∣ y + 1
      · rw [if_pos h4, if_pos h100, if_pos h400, if_pos (isLeap_iff.mpr ⟨h4, .inr h400⟩)]
        generalize y / 4 = a at *
        omega
      · have hleap : ¬isLeap (y + 1) = true := by
          rw [isLeap_iff]
          exact fun hleap => hleap.2.elim (fun h => h h100) h400
        rw [if_pos h4, if_pos h100, if_neg h400, if_neg hleap]
        generalize y / 4 = a at *
        omega
    · have h400 : ¬400 ∣ y + 1 := fun hd => h100 (hhundred hd)
      rw [if_pos h4, if_neg h100, if_neg h400, if_pos (isLeap_iff.mpr ⟨h4, .inl h100⟩)]
      generalize y / 4 = a at *
      omega
  · have h100 : ¬100 ∣ y + 1 := fun hd => h4 (hfour hd)
    have h400 : ¬400 ∣ y + 1 := fun hd => h100 (hhundred hd)
    have hleap : ¬isLeap (y + 1) = true := by
      rw [isLeap_iff]
      exact fun hleap => h4 hleap.1
    rw [if_neg h4, if_neg h100, if_neg h400, if_neg hleap]
    generalize y / 4 = a at *
    omega

theorem daysBeforeYear_mono (hpos : 1 ≤ year) (h : year ≤ year') :
    daysBeforeYear year ≤ daysBeforeYear year' := by
  induction year', h using Nat.le_induction with
  | base => exact le_rfl
  | succ n hn ih =>
    rw [daysBeforeYear_succ (hpos.trans hn)]
    exact ih.trans (Nat.le_add_right _ _)

theorem IsDate.day_le_thirtyOne (h : IsDate year month day) : day ≤ 31 := by
  have hle := h.day_le
  unfold daysInMonth at hle
  split at hle
  · split at hle <;> omega
  · split at hle <;> omega

theorem IsDate.before_next (h : IsDate year month day) :
    daysBeforeMonth year month + day ≤ daysBeforeMonth year (month + 1) := by
  rw [daysBeforeMonth_succ h.month_pos]
  exact Nat.add_le_add_left h.day_le _

theorem ordinal_lt_of_month (h : IsDate year month day) (hday : 1 ≤ day') (hlt : month < month') :
    ordinal year month day < ordinal year month' day' := by
  have hnext := h.before_next
  have hmono : daysBeforeMonth year (month + 1) ≤ daysBeforeMonth year month' :=
    daysBeforeMonth_mono hlt
  unfold ordinal
  omega

theorem ordinal_lt_of_year (h : IsDate year month day) (hday : 1 ≤ day') (hlt : year < year') :
    ordinal year month day < ordinal year' month' day' := by
  have hnext := h.before_next
  have hmonths : daysBeforeMonth year (month + 1) ≤ daysBeforeMonth year 13 :=
    daysBeforeMonth_mono (Nat.succ_le_succ h.month_le)
  rw [daysBeforeMonth_thirteen] at hmonths
  have hyears : daysBeforeYear (year + 1) ≤ daysBeforeYear year' :=
    daysBeforeYear_mono (Nat.le_add_left 1 year) hlt
  rw [daysBeforeYear_succ h.year_pos] at hyears
  unfold ordinal
  omega

end Calendar
