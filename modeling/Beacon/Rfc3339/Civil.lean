/-
  Beacon.Rfc3339.Civil — `days_from_civil` and `civil_from_days` of `sund_client::rfc3339`.

  Both reckon with years that begin in March; that each is what the calendar says of days
  and dates is `daysFromCivil_eq` and `civilFromDays_spec`. So the two are inverse to one
  another, in every era, and keep the order of the dates.
-/

import Beacon.Rfc3339.Format

namespace Beacon.Rfc3339

open Lib.Calendar

/-- `days_from_civil` of a date. -/
def civilDay (date : Date) : Int := daysFromCivil date.year date.month date.day

/-- A date as `civil_from_days` returns it. -/
def civilTuple (date : Date) : Int × Int × Int := (date.year, date.month, date.day)

theorem civilDay_eq (date : Date) : civilDay date = date.dayNumber := by
  have hmonth := date.month_range
  exact daysFromCivil_eq (by omega) (by omega)

theorem civilFromDays_civilDay (date : Date) : civilFromDays (civilDay date) = civilTuple date := by
  obtain ⟨date', hcivil, hday⟩ := civilFromDays_spec (civilDay date)
  rw [civilDay_eq] at hday
  rw [hcivil, Date.dayNumber_injective hday]
  rfl

/-- Every day has exactly one date and every date exactly one day, in the same order. -/
theorem civil_days_are_dates :
    (∀ days, ∃ date : Date, civilFromDays days = civilTuple date ∧ civilDay date = days) ∧
    (∀ date, civilFromDays (civilDay date) = civilTuple date) ∧
    (∀ date : Date, civilDay date.next = civilDay date + 1) ∧
    (∀ a b, civilDay a < civilDay b ↔ a.Before b) ∧
    daysFromCivil 1970 1 1 = 0 := by
  refine ⟨fun days => ?_, civilFromDays_civilDay, fun date => ?_, fun a b => ?_, by decide⟩
  · obtain ⟨date, hcivil, hday⟩ := civilFromDays_spec days
    exact ⟨date, hcivil, by rw [civilDay_eq, hday]⟩
  · rw [civilDay_eq, civilDay_eq, Date.dayNumber_next]
  · rw [civilDay_eq, civilDay_eq, Date.dayNumber_lt_iff]

end Beacon.Rfc3339
