/-
  Beacon.Lib.Calendar — the proleptic Gregorian calendar.

  A `Date` is one that exists. Days are numbered from 1970-01-01 on, by the days of the
  years before, those of the months before and the day of the month.
  - `dayNumber_lt_iff`: a later date has a greater number, and no two have the same.
  - `dayNumber_next`: the date after has the next.
-/

import Mathlib.Algebra.BigOperators.Intervals
import Mathlib.Algebra.Order.BigOperators.Group.Finset
import Mathlib.Tactic.IntervalCases

namespace Beacon.Lib.Calendar

/-- Every fourth year, but of the hundreds only every fourth. -/
def IsLeap (year : Int) : Prop := year % 4 = 0 ∧ (year % 100 ≠ 0 ∨ year % 400 = 0)

instance (year : Int) : Decidable (IsLeap year) := inferInstanceAs (Decidable (_ ∧ _))

def daysInMonth (year : Int) (month : Nat) : Nat :=
  if month = 2 then if IsLeap year then 29 else 28
  else if month = 4 ∨ month = 6 ∨ month = 9 ∨ month = 11 then 30
  else 31

structure Date where
  year : Int
  month : Nat
  day : Nat
  month_range : 1 ≤ month ∧ month ≤ 12
  day_range : 1 ≤ day ∧ day ≤ daysInMonth year month

/-- Days from 0001-01-01 to the first of the year. -/
def daysBeforeYear (year : Int) : Int :=
  365 * (year - 1) + (year - 1) / 4 - (year - 1) / 100 + (year - 1) / 400

/-- Days from the first of the year to the first of the month. -/
def daysBeforeMonth (year : Int) (month : Nat) : Nat := ∑ m ∈ Finset.Ico 1 month, daysInMonth year m

/-- Days since 1970-01-01, whether or not the month has that many. -/
def daysSinceEpoch (year : Int) (month day : Nat) : Int :=
  daysBeforeYear year + daysBeforeMonth year month + day - 719163

def Date.dayNumber (date : Date) : Int := daysSinceEpoch date.year date.month date.day

example : daysSinceEpoch 1970 1 1 = 0 := by decide
example : daysSinceEpoch 2000 2 29 = 11016 := by decide

/-! ## The order of the dates -/

def Date.Before (a b : Date) : Prop :=
  a.year < b.year ∨ a.year = b.year ∧ (a.month < b.month ∨ a.month = b.month ∧ a.day < b.day)

theorem daysBeforeYear_succ (year : Int) :
    daysBeforeYear (year + 1) = daysBeforeYear year + (if IsLeap year then 366 else 365) := by
  unfold daysBeforeYear
  by_cases h : IsLeap year
  · rw [if_pos h]
    unfold IsLeap at h
    omega
  · rw [if_neg h]
    unfold IsLeap at h
    omega

/-- Four hundred years have always as many days. -/
theorem daysBeforeYear_era (year era : Int) : daysBeforeYear (year + era * 400 + 1) =
    era * 146097 + (365 * year + year / 4 - year / 100 + year / 400) := by
  unfold daysBeforeYear
  omega

theorem daysBeforeMonth_succ (year : Int) {month : Nat} (h : 1 ≤ month) :
    daysBeforeMonth year (month + 1) = daysBeforeMonth year month + daysInMonth year month :=
  Finset.sum_Ico_succ_top h _

theorem daysBeforeMonth_year (year : Int) : daysBeforeMonth year 13 = if IsLeap year then 366 else 365 := by
  simp only [daysBeforeMonth, Finset.sum_Ico_succ_top, Nat.one_le_ofNat, Nat.le_refl, Finset.Ico_self,
    Finset.sum_empty, daysInMonth]
  by_cases h : IsLeap year <;> simp [h]

theorem daysBeforeMonth_mono (year : Int) {month month' : Nat} (h : month ≤ month') :
    daysBeforeMonth year month ≤ daysBeforeMonth year month' :=
  Finset.sum_le_sum_of_subset (Finset.Ico_subset_Ico_right h)

theorem daysBeforeYear_mono {year year' : Int} (h : year ≤ year') : daysBeforeYear year ≤ daysBeforeYear year' := by
  unfold daysBeforeYear
  omega

/-- A date lies within its month, and within its year. -/
theorem Date.dayNumber_range (date : Date) :
    daysBeforeYear date.year + daysBeforeMonth date.year date.month < date.dayNumber + 719163 ∧
    date.dayNumber + 719163 ≤ daysBeforeYear date.year + daysBeforeMonth date.year (date.month + 1) := by
  have hmonth := daysBeforeMonth_succ date.year date.month_range.1
  have hday := date.day_range
  unfold dayNumber daysSinceEpoch
  omega

theorem Date.dayNumber_lt {a b : Date} (h : a.Before b) : a.dayNumber < b.dayNumber := by
  obtain ⟨-, ha⟩ := a.dayNumber_range
  obtain ⟨hb, -⟩ := b.dayNumber_range
  rcases h with hyear | ⟨hyear, hmonth | ⟨hmonth, hday⟩⟩
  · -- the year is over before the other one begins
    have hover := daysBeforeMonth_mono a.year (show a.month + 1 ≤ 13 by have := a.month_range; omega)
    have hnext := daysBeforeYear_succ a.year
    have hbegins := daysBeforeYear_mono (show a.year + 1 ≤ b.year by omega)
    rw [daysBeforeMonth_year] at hover
    split at hover <;> rename_i hleap
    · rw [if_pos hleap] at hnext
      omega
    · rw [if_neg hleap] at hnext
      omega
  · have hover := daysBeforeMonth_mono a.year (show a.month + 1 ≤ b.month by omega)
    rw [hyear] at ha hover
    omega
  · unfold dayNumber daysSinceEpoch
    rw [hyear, hmonth]
    omega

theorem Date.before_trichotomy (a b : Date) : a.Before b ∨ a = b ∨ b.Before a := by
  obtain ⟨year, month, day, _, _⟩ := a
  obtain ⟨year', month', day', _, _⟩ := b
  unfold Before
  simp only [mk.injEq]
  omega

theorem Date.dayNumber_lt_iff {a b : Date} : a.dayNumber < b.dayNumber ↔ a.Before b := by
  constructor
  · intro hlt
    rcases before_trichotomy a b with h | rfl | h
    · exact h
    · omega
    · have := dayNumber_lt h
      omega
  · exact dayNumber_lt

theorem Date.dayNumber_injective {a b : Date} (h : a.dayNumber = b.dayNumber) : a = b := by
  rcases before_trichotomy a b with hbefore | heq | hafter
  · have := dayNumber_lt hbefore
    omega
  · exact heq
  · have := dayNumber_lt hafter
    omega

/-! ## The next date -/

theorem daysInMonth_pos (year : Int) (month : Nat) : 1 ≤ daysInMonth year month := by
  unfold daysInMonth
  split
  · split <;> omega
  · split <;> omega

/-- The next day of the month, after its last the first of the next, after December of the next year. -/
def Date.next (date : Date) : Date :=
  if h : date.day < daysInMonth date.year date.month then
    ⟨date.year, date.month, date.day + 1, date.month_range, by omega⟩
  else if h : date.month < 12 then
    ⟨date.year, date.month + 1, 1, by omega, by omega, daysInMonth_pos _ _⟩
  else
    ⟨date.year + 1, 1, 1, by omega, by omega, daysInMonth_pos _ _⟩

theorem Date.dayNumber_next (date : Date) : date.next.dayNumber = date.dayNumber + 1 := by
  have hmonth := daysBeforeMonth_succ date.year date.month_range.1
  have hrange := date.month_range
  have hday := date.day_range
  unfold next
  split
  · unfold dayNumber daysSinceEpoch
    dsimp only
    omega
  · rename_i hover
    split
    · unfold dayNumber daysSinceEpoch
      dsimp only
      omega
    · -- December is over, and with it the year
      have hdecember : date.month = 12 := by omega
      have hyear := daysBeforeYear_succ date.year
      have hmonths : daysBeforeMonth date.year (12 + 1) = _ := daysBeforeMonth_year date.year
      have hjanuary : daysBeforeMonth (date.year + 1) 1 = 0 := rfl
      unfold dayNumber daysSinceEpoch
      dsimp only
      rw [hdecember] at hmonth hday hover ⊢
      split at hmonths <;> rename_i hleap
      · rw [if_pos hleap] at hyear
        omega
      · rw [if_neg hleap] at hyear
        omega

end Beacon.Lib.Calendar
