/-
  Beacon.Rfc3339.Format — `sund_client::rfc3339::format`, and the envelope's shape check
  (`beacon_protocol::envelope::is_rfc3339`).

  A text that is written is a date-time of the grammar, so the parser's own exactness reads
  it back; and its fields have a fixed width, so the texts are ordered as the fields are.
  - `civilFromDays_spec`: a day number is turned into the date that has it.
  - `format_denotes`: an instant is written as a date-time that denotes it.
  - `format_lt`: a later instant is written as a greater text.
  - `format_round_trips`: all of it, for the instants whose year has four digits.
-/

import Mathlib.Data.String.Basic
import Beacon.Lib.Numeral
import Beacon.Rfc3339.Grammar

namespace Beacon.Rfc3339

open Lib.Calendar Lib.Numeral

/-- The inverse of `daysFromCivil`; division truncates, as in the source. -/
def civilFromDays (days : Int) : Int × Int × Int :=
  let z := days + 719468
  let era := (if 0 ≤ z then z else z - 146096).tdiv 146097
  let dayOfEra := z - era * 146097
  let yearOfEra := (dayOfEra - dayOfEra.tdiv 1460 + dayOfEra.tdiv 36524 - dayOfEra.tdiv 146096).tdiv 365
  let year := yearOfEra + era * 400
  let dayOfYear := dayOfEra - (365 * yearOfEra + yearOfEra.tdiv 4 - yearOfEra.tdiv 100)
  let mp := (5 * dayOfYear + 2).tdiv 153
  let day := dayOfYear - (153 * mp + 2).tdiv 5 + 1
  let month := if mp < 10 then mp + 3 else mp - 9
  (if month ≤ 2 then year + 1 else year, month, day)

/-- `{n:0width}`: zeros stand between the sign and the digits. -/
def zeroPadded (width : Nat) (n : Int) : List Char :=
  let sign := if n < 0 then ['-'] else []
  let digits := Nat.toDigits 10 n.natAbs
  sign ++ (List.replicate (width - sign.length - digits.length) '0' ++ digits)

def formatEpochSeconds (seconds : Int) : String :=
  let days := seconds / 86400
  let timeOfDay := seconds % 86400
  let (year, month, day) := civilFromDays days
  let hour := timeOfDay.tdiv 3600
  let minute := (timeOfDay.tmod 3600).tdiv 60
  let second := timeOfDay.tmod 60
  .ofList (zeroPadded 4 year ++ '-' :: (zeroPadded 2 month ++ '-' :: (zeroPadded 2 day ++ 'T' :: (zeroPadded 2 hour ++
    ':' :: (zeroPadded 2 minute ++ ':' :: (zeroPadded 2 second ++ ['Z']))))))

def format (time : SystemTime) : String := formatEpochSeconds (time.secsSinceEpoch?.getD 0 : Nat)

example : format (.ofSecs 951782400) = "2000-02-29T00:00:00Z" := by decide

/-! ## The shape check -/

/-- `str::parse::<u32>().ok()`: an optional `+`, then at least one digit, in range. -/
def parseU32 (bytes : Bytes) : Option Nat :=
  let value := match bytes with
    | 0x2B :: rest => digitsValue rest
    | _ => digitsValue bytes
  value.bind fun n => if n < 2 ^ 32 then some n.toNat else none

def isRfc3339 (s : String) : Bool :=
  let b := utf8 s
  if b.length < 20 then false else
  let field := fun from' len => (b.drop from').take len
  let digits := fun from' len => (field from' len).all isDigit
  let num := fun from' len => (parseU32 (field from' len)).getD (2 ^ 32 - 1)
  let byte := fun i => b.getD i 0
  if !(digits 0 4 && byte 4 == 0x2D && digits 5 2 && byte 7 == 0x2D && digits 8 2) then false else
  if byte 10 ≠ 0x54 then false else
  if !(digits 11 2 && byte 13 == 0x3A && digits 14 2 && byte 16 == 0x3A && digits 17 2) then false else
  if ¬(1 ≤ num 5 2 ∧ num 5 2 ≤ 12) ∨ ¬(1 ≤ num 8 2 ∧ num 8 2 ≤ 31) ∨ num 11 2 > 23 ∨ num 14 2 > 59 ∨ num 17 2 > 60 then
    false else
  -- `i` stops after the digits of a fraction, which has at least one
  let fraction := if b[19]? = some 0x2E then ((b.drop 20).takeWhile isDigit).length else 0
  if b[19]? = some 0x2E ∧ fraction = 0 then false else
  let i := if b[19]? = some 0x2E then 20 + fraction else 19
  match b[i]? with
  | some 0x5A => i + 1 == b.length
  | some c =>
    if c = 0x2B ∨ c = 0x2D then b.length == i + 6 && digits (i + 1) 2 && byte (i + 3) == 0x3A && digits (i + 4) 2
    else false
  | none => false

example : isRfc3339 "2026-07-24T11:00:00.5+02:00" = true := by decide

example : isRfc3339 "2026-07-24T11:00:00.Z" = false := by decide

/-! ## The date of a day -/

/-- The year of an era, from March on, that a day of it lies in. -/
theorem year_of_era {dayOfEra y : Int} (h : 0 ≤ dayOfEra ∧ dayOfEra < 146097)
    (hy : y = (dayOfEra - dayOfEra / 1460 + dayOfEra / 36524 - dayOfEra / 146096) / 365) :
    365 * y + y / 4 - y / 100 ≤ dayOfEra ∧
    dayOfEra < 365 * (y + 1) + (y + 1) / 4 - (y + 1) / 100 + (y + 1) / 400 ∧ 0 ≤ y ∧ y < 400 := by
  obtain ⟨hlow, hhigh⟩ := h
  -- the last day of the era is the leap day that ends its last century
  by_cases hlast : dayOfEra = 146096
  · subst hlast hy
    decide
  have hera : dayOfEra / 146096 = 0 := by omega
  obtain ⟨c, r, hdoe, hr, hc⟩ : ∃ c r, dayOfEra = 36524 * c + r ∧ (0 ≤ r ∧ r < 36524) ∧ 0 ≤ c ∧ c ≤ 3 :=
    ⟨dayOfEra / 36524, dayOfEra % 36524, by omega, by omega, by omega⟩
  obtain ⟨b, s, hrest, hs, hb⟩ : ∃ b s, r = 1461 * b + s ∧ (0 ≤ s ∧ s < 1461) ∧ 0 ≤ b ∧ b ≤ 24 :=
    ⟨r / 1461, r % 1461, by omega, by omega, by omega⟩
  have hcenturies : dayOfEra / 36524 = c := by omega
  obtain ⟨δ, hδ⟩ : ∃ δ, δ = (24 * c + b + s) / 1460 := ⟨_, rfl⟩
  have hleaps : dayOfEra / 1460 = 25 * c + b + δ := by omega
  obtain ⟨k, hk⟩ : ∃ k, k = (s - δ) / 365 := ⟨_, rfl⟩
  have hyear : y = 100 * c + 4 * b + k := by
    rw [hera, hcenturies, hleaps] at hy
    omega
  have hkrange : 0 ≤ k ∧ k ≤ 3 ∧ 365 * k ≤ s ∧ (s < 365 * (k + 1) ∨ k = 3) := by omega
  clear hy hδ hk hleaps hcenturies hera
  have h4 : y / 4 = 25 * c + b := by omega
  have h100 : y / 100 = c := by omega
  have h4next : (y + 1) / 4 = 25 * c + b + (k + 1) / 4 := by omega
  rw [h4, h100, h4next]
  refine ⟨by omega, ?_, by omega, by omega⟩
  by_cases hcentury : b = 24 ∧ k = 3
  · obtain ⟨rfl, rfl⟩ := hcentury
    omega
  · have h100next : (y + 1) / 100 = c := by omega
    have h400next : 0 ≤ (y + 1) / 400 := by omega
    have hnext : s < 365 * (k + 1) + (k + 1) / 4 := by
      rcases hkrange.2.2.2 with h | rfl
      · omega
      · omega
    omega

/-- A day of a year that begins in March, as a month and a day of it. -/
theorem month_of_day {year dayOfYear mp : Int} (h : 0 ≤ dayOfYear ∧ dayOfYear < 365 + if IsLeap (year + 1) then 1 else 0)
    (hmp : mp = (5 * dayOfYear + 2) / 153) {month : Int} (hmonth : month = if mp < 10 then mp + 3 else mp - 9) :
    (1 ≤ month ∧ month ≤ 12) ∧ 1 ≤ dayOfYear - (153 * mp + 2) / 5 + 1 ∧
    dayOfYear - (153 * mp + 2) / 5 + 1 ≤ daysInMonth (if month ≤ 2 then year + 1 else year) month.toNat := by
  have hrange : 0 ≤ mp ∧ mp ≤ 11 := by
    split at h
    · omega
    · omega
  obtain ⟨hlow, hhigh⟩ := hrange
  subst hmonth
  by_cases hleap : IsLeap (year + 1)
  · rw [if_pos hleap] at h
    interval_cases mp <;> simp [daysInMonth, hleap] <;> omega
  · rw [if_neg hleap] at h
    interval_cases mp <;> simp [daysInMonth, hleap] <;> omega

/-- A year that begins in March has the leap day at its end. -/
theorem day_of_year {dayOfEra y : Int} (era : Int) (h : 365 * y + y / 4 - y / 100 ≤ dayOfEra ∧
    dayOfEra < 365 * (y + 1) + (y + 1) / 4 - (y + 1) / 100 + (y + 1) / 400 ∧ 0 ≤ y ∧ y < 400) :
    0 ≤ dayOfEra - (365 * y + y / 4 - y / 100) ∧
    dayOfEra - (365 * y + y / 4 - y / 100) < 365 + if IsLeap (y + era * 400 + 1) then 1 else 0 := by
  have hnext := daysBeforeYear_succ (y + era * 400 + 1)
  rw [show y + era * 400 + 1 + 1 = y + 1 + era * 400 + 1 by omega, daysBeforeYear_era, daysBeforeYear_era] at hnext
  refine ⟨by omega, ?_⟩
  split at hnext <;> rename_i hleap
  · rw [if_pos hleap]
    omega
  · rw [if_neg hleap]
    omega

/-- `daysFromCivil` counts the days of the eras, the years, the months and the month. -/
theorem daysFromCivil_march {y mp month : Int} (hy : 0 ≤ y ∧ y < 400) (hmp : 0 ≤ mp ∧ mp ≤ 11)
    (hmonth : month = if mp < 10 then mp + 3 else mp - 9) (era day : Int) :
    daysFromCivil (if month ≤ 2 then y + era * 400 + 1 else y + era * 400) month day =
      era * 146097 + (365 * y + y / 4 - y / 100) + ((153 * mp + 2) / 5 + day - 1) - 719468 := by
  have hyear : (if month ≤ 2 then (if month ≤ 2 then y + era * 400 + 1 else y + era * 400) - 1
      else if month ≤ 2 then y + era * 400 + 1 else y + era * 400) = y + era * 400 := by
    split <;> omega
  have hmonths : (if 2 < month then month - 3 else month + 9) = mp := by
    rw [hmonth]
    split <;> split <;> omega
  have hera : (y + era * 400) / 400 = era := by omega
  have hyearOfEra : y + era * 400 - era * 400 = y := by omega
  have hpositive : 0 ≤ 153 * mp + 2 := by omega
  unfold daysFromCivil
  simp only [hyear, hmonths, tdiv_floor (show (0 : Int) ≤ 399 ∧ (400 : Int) = 399 + 1 by decide), hera, hyearOfEra,
    Int.tdiv_eq_ediv_of_nonneg hy.1, Int.tdiv_eq_ediv_of_nonneg hpositive]
  omega

theorem civilFromDays_spec (days : Int) : ∃ date : Date,
    civilFromDays days = (date.year, (date.month : Int), (date.day : Int)) ∧ date.dayNumber = days := by
  obtain ⟨era, hera⟩ : ∃ era, era = (days + 719468) / 146097 := ⟨_, rfl⟩
  obtain ⟨dayOfEra, hdayOfEra⟩ : ∃ dayOfEra, dayOfEra = days + 719468 - era * 146097 := ⟨_, rfl⟩
  have hinEra : 0 ≤ dayOfEra ∧ dayOfEra < 146097 := by omega
  obtain ⟨y, hy⟩ : ∃ y, y = (dayOfEra - dayOfEra / 1460 + dayOfEra / 36524 - dayOfEra / 146096) / 365 := ⟨_, rfl⟩
  have hyear := year_of_era hinEra hy
  obtain ⟨dayOfYear, hdayOfYear⟩ : ∃ dayOfYear, dayOfYear = dayOfEra - (365 * y + y / 4 - y / 100) := ⟨_, rfl⟩
  have hinYear := day_of_year era hyear
  rw [← hdayOfYear] at hinYear
  obtain ⟨mp, hmp⟩ : ∃ mp, mp = (5 * dayOfYear + 2) / 153 := ⟨_, rfl⟩
  obtain ⟨month, hmonth⟩ : ∃ month, month = if mp < 10 then mp + 3 else mp - 9 := ⟨_, rfl⟩
  obtain ⟨day, hday⟩ : ∃ day, day = dayOfYear - (153 * mp + 2) / 5 + 1 := ⟨_, rfl⟩
  obtain ⟨hmonthRange, hdayRange⟩ := month_of_day hinYear hmp hmonth
  rw [← hday] at hdayRange
  have hmonths : 0 ≤ mp ∧ mp ≤ 11 := by
    split at hmonth <;> omega
  have hcivil : civilFromDays days = (if month ≤ 2 then y + era * 400 + 1 else y + era * 400, month, day) := by
    have hyears : 0 ≤ dayOfEra - dayOfEra / 1460 + dayOfEra / 36524 - dayOfEra / 146096 := by omega
    have hfives : 0 ≤ 5 * dayOfYear + 2 := by omega
    have hthirds : 0 ≤ 153 * mp + 2 := by omega
    unfold civilFromDays
    simp only [tdiv_floor (show (0 : Int) ≤ 146096 ∧ (146097 : Int) = 146096 + 1 by decide), ← hera, ← hdayOfEra]
    simp only [Int.tdiv_eq_ediv_of_nonneg hinEra.1, Int.tdiv_eq_ediv_of_nonneg hyears, ← hy,
      Int.tdiv_eq_ediv_of_nonneg hyear.2.2.1, ← hdayOfYear]
    simp only [Int.tdiv_eq_ediv_of_nonneg hfives, ← hmp, Int.tdiv_eq_ediv_of_nonneg hthirds, ← hmonth, ← hday]
  have hcast : ∀ n : Int, 1 ≤ n → (n.toNat : Int) = n := fun n hn => Int.toNat_of_nonneg (by omega)
  refine ⟨⟨if month ≤ 2 then y + era * 400 + 1 else y + era * 400, month.toNat, day.toNat, by omega, by omega⟩, ?_, ?_⟩
  · rw [hcivil, hcast month hmonthRange.1, hcast day hdayRange.1]
  · show daysSinceEpoch _ month.toNat day.toNat = days
    rw [← daysFromCivil_eq hmonthRange (by omega), daysFromCivil_march hyear.2.2 hmonths hmonth]
    omega

/-! ## Fixed width -/

theorem zeroPadded_eq {width : Nat} {n : Int} (hwidth : 0 < width) (hn : 0 ≤ n ∧ n < 10 ^ width) :
    zeroPadded width n = numeral 10 Nat.digitChar width n.toNat := by
  obtain ⟨m, rfl⟩ := Int.eq_ofNat_of_zero_le hn.1
  have hm : m < 10 ^ width := by
    have h := hn.2
    exact_mod_cast h
  unfold zeroPadded
  rw [if_neg (Int.not_lt.mpr hn.1)]
  exact padded_toDigits hwidth hm

def digitByte (d : Nat) : UInt8 := .ofNat (0x30 + d)

theorem utf8_ofList (chars : List Char) : utf8 (.ofList chars) = chars.flatMap String.utf8EncodeChar := by
  simp [utf8, List.utf8Encode]

theorem utf8_numeral (width n : Nat) :
    (numeral 10 Nat.digitChar width n).flatMap String.utf8EncodeChar = numeral 10 digitByte width n :=
  flatMap_numeral (by decide) (by decide) width n

theorem number_numeral {width n : Nat} (hn : n < 10 ^ width) :
    documented.Number width (numeral 10 digitByte width n) (n : Int) := by
  refine ⟨⟨length_numeral _ _ _ _, fun b hb => ?_⟩, ?_⟩
  · have hdigit : ∀ d < 10, isDigit (digitByte d) = true := by decide
    obtain ⟨d, hd, rfl⟩ := mem_numeral (by decide) hb
    exact hdigit d hd
  · have hvalue : ∀ d < 10, (digitByte d).toNat - 0x30 = d := by decide
    exact congrArg Nat.cast (foldl_numeral hvalue hn).symm

theorem two_digits (date : Date) : date.month < 100 ∧ date.day < 100 := by
  have hmonth := date.month_range
  have hday := date.day_range
  have hdays := daysInMonth_le date.year date.month
  omega

/-! ## Dates and times of day -/

/-- What a timestamp says. -/
structure DateTime where
  date : Date
  hour : Nat
  minute : Nat
  second : Nat
  year_range : 0 ≤ date.year ∧ date.year < 10000
  clock : hour < 24 ∧ minute < 60 ∧ second < 60

namespace DateTime

def secs (d : DateTime) : Int := d.date.dayNumber * 86400 + d.hour * 3600 + d.minute * 60 + d.second

def chars (d : DateTime) : List Char :=
  numeral 10 Nat.digitChar 4 d.date.year.toNat ++ '-' :: (numeral 10 Nat.digitChar 2 d.date.month ++
    '-' :: (numeral 10 Nat.digitChar 2 d.date.day ++ 'T' :: (numeral 10 Nat.digitChar 2 d.hour ++
    ':' :: (numeral 10 Nat.digitChar 2 d.minute ++ ':' :: (numeral 10 Nat.digitChar 2 d.second ++ ['Z'])))))

def written (d : DateTime) : Written where
  year := numeral 10 digitByte 4 d.date.year.toNat
  month := numeral 10 digitByte 2 d.date.month
  day := numeral 10 digitByte 2 d.date.day
  separator := 0x54
  hour := numeral 10 digitByte 2 d.hour
  minute := numeral 10 digitByte 2 d.minute
  second := numeral 10 digitByte 2 d.second
  fraction := none
  zone := .utc 0x5A

def fields (d : DateTime) : Fields := ⟨d.date.year, d.date.month, d.date.day, d.hour, d.minute, d.second, 0⟩

theorem length_chars (d : DateTime) : d.chars.length = 20 := by simp [chars]

theorem utf8_chars (d : DateTime) : utf8 (.ofList d.chars) = d.written.bytes := by
  rw [utf8_ofList]
  simp only [chars, List.flatMap_append, List.flatMap_cons, utf8_numeral]
  rfl

theorem documented (d : DateTime) : d.written.Is Rfc3339.documented d.fields := by
  obtain ⟨hmonth, hday⟩ := two_digits d.date
  obtain ⟨hhour, hminute, hsecond⟩ := d.clock
  obtain ⟨hyear, hlate⟩ := d.year_range
  obtain ⟨hfirst, hlast⟩ := d.date.month_range
  obtain ⟨hdayFirst, hdayLast⟩ := d.date.day_range
  have hfour : Rfc3339.documented.Number 4 (numeral 10 digitByte 4 d.date.year.toNat) d.date.year := by
    have h := number_numeral (show d.date.year.toNat < 10 ^ 4 by omega)
    rwa [Int.toNat_of_nonneg hyear] at h
  exact {
    year := hfour
    month := number_numeral (by omega)
    day := number_numeral (by omega)
    hour := number_numeral (by omega)
    minute := number_numeral (by omega)
    second := number_numeral (by omega)
    separator := Or.inl rfl
    monthRange := ⟨Int.ofNat_le.mpr hfirst, Int.ofNat_le.mpr hlast⟩
    dayRange := ⟨Int.ofNat_le.mpr hdayFirst, Int.ofNat_le.mpr hdayLast⟩
    clock := ⟨by simp only [fields]; omega, by simp only [fields]; omega, by simp only [fields]; omega⟩
    fraction := fun _ h => nomatch h
    zone := .utc (Or.inl rfl) }

theorem denotes (d : DateTime) : Denotes (.ofList d.chars) (.ofSecs d.secs) := by
  refine ⟨d.written, d.fields, d.utf8_chars.symm, d.documented, ?_⟩
  simp only [Fields.instant, fields, secs, Date.dayNumber, Int.toNat_natCast, Int.sub_zero]

theorem digitChar_lt : ∀ d e, d < e → e < 10 → Nat.digitChar d < Nat.digitChar e := by
  have h : ∀ e < 10, ∀ d < e, Nat.digitChar d < Nat.digitChar e := by decide
  exact fun d e hd he => h e he d hd

/-- What stands before a field is the same, and what stands behind it does not matter. -/
theorem numeral_append_lt {width n m : Nat} (hnm : n < m) (hm : m < 10 ^ width) (rest rest' : List Char) :
    numeral 10 Nat.digitChar width n ++ rest < numeral 10 Nat.digitChar width m ++ rest' :=
  append_lt_append (numeral_lt digitChar_lt hnm hm) (by rw [length_numeral, length_numeral]) rest rest'

/-- A later moment is a greater text. -/
theorem chars_lt {a b : DateTime} (h : a.secs < b.secs) : a.chars < b.chars := by
  have hlater : a.date.Before b.date ∨ a.date = b.date ∧ (a.hour < b.hour ∨ a.hour = b.hour ∧
      (a.minute < b.minute ∨ a.minute = b.minute ∧ a.second < b.second)) := by
    have ha := a.clock
    have hb := b.clock
    unfold secs at h
    rcases Date.before_trichotomy a.date b.date with hbefore | heq | hafter
    · exact Or.inl hbefore
    · rw [heq] at h
      exact Or.inr ⟨heq, by omega⟩
    · have := Date.dayNumber_lt hafter
      omega
  have hskip : ∀ (field : List Char) (c : Char) {rest rest' : List Char}, rest < rest' →
      field ++ c :: rest < field ++ c :: rest' := fun field c rest rest' h => List.append_left_lt (.cons h)
  obtain ⟨hmonths, hdays⟩ := two_digits b.date
  obtain ⟨hhours, hminutes, hseconds⟩ := b.clock
  unfold chars
  rcases hlater with (hyear | ⟨hyear, hmonth | ⟨hmonth, hday⟩⟩) | ⟨hdate, hhour | ⟨hhour, hminute | ⟨hminute, hsecond⟩⟩⟩
  · have ha := a.year_range
    have hb := b.year_range
    exact numeral_append_lt (by omega) (by omega) _ _
  · rw [hyear]
    exact hskip _ _ (numeral_append_lt hmonth (by omega) _ _)
  · rw [hyear, hmonth]
    exact hskip _ _ (hskip _ _ (numeral_append_lt hday (by omega) _ _))
  · rw [hdate]
    exact hskip _ _ (hskip _ _ (hskip _ _ (numeral_append_lt hhour (by omega) _ _)))
  · rw [hdate, hhour]
    exact hskip _ _ (hskip _ _ (hskip _ _ (hskip _ _ (numeral_append_lt hminute (by omega) _ _))))
  · rw [hdate, hhour, hminute]
    exact hskip _ _ (hskip _ _ (hskip _ _ (hskip _ _ (hskip _ _ (numeral_append_lt hsecond (by omega) _ _)))))

end DateTime

/-! ## The shape -/

theorem parseU32_of_number {width : Nat} {field : Bytes} {n : Int} (hwidth : 0 < width ∧ width ≤ 4)
    (h : documented.Number width field n) : parseU32 field = some n.toNat := by
  obtain ⟨hdigits, rfl⟩ := h
  obtain ⟨hne, hunsigned, hsmall⟩ := hdigits.plain hwidth
  unfold parseU32
  split
  · exact absurd (Or.inl rfl) hunsigned
  · rw [digitsValue_eq_some_iff.mpr ⟨hne, hdigits.2, rfl⟩, Option.bind_some, if_pos (by omega)]

/-- A date-time as the envelope has it: without a fraction, and with an upper-case `T` and `Z`. -/
theorem isRfc3339_of_documented {text : String} {w : Written} {f : Fields} (hbytes : w.bytes = utf8 text)
    (h : w.Is documented f) (hseparator : w.separator = 0x54) (hfraction : w.fraction = none)
    (hzone : w.zone = .utc 0x5A) : isRfc3339 text = true := by
  obtain ⟨year, month, day, separator, hour, minute, second, fraction, zone⟩ := w
  obtain ⟨hyear, hmonth, hday, hhour, hminute, hsecond, -, hmonthRange, hdayRange, hclock, -, -⟩ := h
  dsimp only at *
  subst hseparator hfraction hzone
  have hmonthValue := parseU32_of_number (by decide) hmonth
  have hdayValue := parseU32_of_number (by decide) hday
  have hhourValue := parseU32_of_number (by decide) hhour
  have hminuteValue := parseU32_of_number (by decide) hminute
  have hsecondValue := parseU32_of_number (by decide) hsecond
  have hdays := daysInMonth_le f.year f.month.toNat
  obtain ⟨hdayFirst, hdayLast⟩ := hdayRange
  obtain ⟨⟨hyearLength, hyearDigits⟩, -⟩ := hyear
  obtain ⟨⟨hmonthLength, hmonthDigits⟩, -⟩ := hmonth
  obtain ⟨⟨hdayLength, hdayDigits⟩, -⟩ := hday
  obtain ⟨⟨hhourLength, hhourDigits⟩, -⟩ := hhour
  obtain ⟨⟨hminuteLength, hminuteDigits⟩, -⟩ := hminute
  obtain ⟨⟨hsecondLength, hsecondDigits⟩, -⟩ := hsecond
  obtain ⟨y0, y1, y2, y3, rfl⟩ := eq_of_length_four hyearLength
  obtain ⟨o0, o1, rfl⟩ := List.length_eq_two.mp hmonthLength
  obtain ⟨d0, d1, rfl⟩ := List.length_eq_two.mp hdayLength
  obtain ⟨h0, h1, rfl⟩ := List.length_eq_two.mp hhourLength
  obtain ⟨m0, m1, rfl⟩ := List.length_eq_two.mp hminuteLength
  obtain ⟨s0, s1, rfl⟩ := List.length_eq_two.mp hsecondLength
  simp only [Written.bytes, Zone.bytes, Option.elim_none, List.cons_append, List.nil_append] at hbytes
  unfold isRfc3339
  dsimp only
  rw [← hbytes]
  simp only [List.mem_cons, List.not_mem_nil, or_false, forall_eq_or_imp, forall_eq]
    at hyearDigits hmonthDigits hdayDigits hhourDigits hminuteDigits hsecondDigits
  simp [hyearDigits, hmonthDigits, hdayDigits, hhourDigits, hminuteDigits, hsecondDigits, hmonthValue, hdayValue,
    hhourValue, hminuteValue, hsecondValue]
  omega

/-! ## What is written -/

/-- From 1970 on, and with a year of four digits. -/
def Printable (t : SystemTime) : Prop := SystemTime.unixEpoch ≤ t ∧ t.secs ≤ 253402300799

instance (t : SystemTime) : Decidable (Printable t) := inferInstanceAs (Decidable (_ ∧ _))

/-- The days from 1970 to 9999 lie in these years. -/
theorem year_of_days {date : Date} (h : 0 ≤ date.dayNumber ∧ date.dayNumber < 2932897) :
    0 ≤ date.year ∧ date.year < 10000 := by
  obtain ⟨hbegins, hends⟩ := date.dayNumber_range
  have hover := daysBeforeMonth_mono date.year (show date.month + 1 ≤ 13 by have := date.month_range; omega)
  rw [daysBeforeMonth_year] at hover
  constructor
  · by_contra hearly
    have hyear := daysBeforeYear_mono (show date.year ≤ -1 by omega)
    have hfirst : daysBeforeYear (-1) = -731 := by decide
    split at hover <;> omega
  · by_contra hlate
    have hyear := daysBeforeYear_mono (show 10000 ≤ date.year by omega)
    have hlast : daysBeforeYear 10000 = 3652059 := by decide
    omega

theorem format_epoch {t : SystemTime} (h : SystemTime.unixEpoch ≤ t) : format t = formatEpochSeconds t.secs := by
  have hsecs : ((t.secsSinceEpoch?.getD 0 : Nat) : Int) = t.secs := by
    rw [SystemTime.secsSinceEpoch?, if_pos (show 0 ≤ t.nanos from h)]
    exact Int.toNat_of_nonneg (SystemTime.secs_nonneg h)
  rw [format, hsecs]

theorem format_eq {t : SystemTime} (ht : Printable t) :
    ∃ d : DateTime, d.secs = t.secs ∧ format t = .ofList d.chars := by
  obtain ⟨hepoch, hlast⟩ := ht
  have hsecs := SystemTime.secs_nonneg hepoch
  obtain ⟨date, hcivil, hdays⟩ := civilFromDays_spec (t.secs / 86400)
  obtain ⟨hyear, hyearLast⟩ := year_of_days (show 0 ≤ date.dayNumber ∧ date.dayNumber < 2932897 by omega)
  obtain ⟨tod, htod⟩ : ∃ tod, tod = t.secs % 86400 := ⟨_, rfl⟩
  have hpositive : 0 ≤ tod := by omega
  have hhour : tod.tdiv 3600 = tod / 3600 := Int.tdiv_eq_ediv_of_nonneg hpositive
  have hminute : (tod.tmod 3600).tdiv 60 = tod % 3600 / 60 := by
    rw [Int.tmod_eq_emod_of_nonneg hpositive, Int.tdiv_eq_ediv_of_nonneg (by omega)]
  have hsecond : tod.tmod 60 = tod % 60 := Int.tmod_eq_emod_of_nonneg hpositive
  let d : DateTime := {
    date := date
    hour := (tod / 3600).toNat
    minute := (tod % 3600 / 60).toNat
    second := (tod % 60).toNat
    year_range := ⟨hyear, hyearLast⟩
    clock := by omega }
  obtain ⟨hmonth, hday⟩ := two_digits date
  refine ⟨d, ?_, ?_⟩
  · show date.dayNumber * 86400 + ((tod / 3600).toNat : Int) * 3600 + ((tod % 3600 / 60).toNat : Int) * 60 +
      ((tod % 60).toNat : Int) = t.secs
    omega
  · have htime : zeroPadded 2 (tod / 3600) = numeral 10 Nat.digitChar 2 d.hour ∧
        zeroPadded 2 (tod % 3600 / 60) = numeral 10 Nat.digitChar 2 d.minute ∧
        zeroPadded 2 (tod % 60) = numeral 10 Nat.digitChar 2 d.second :=
      ⟨zeroPadded_eq (by decide) (by omega), zeroPadded_eq (by decide) (by omega), zeroPadded_eq (by decide) (by omega)⟩
    have hdate : zeroPadded 4 date.year = numeral 10 Nat.digitChar 4 d.date.year.toNat ∧
        zeroPadded 2 (date.month : Int) = numeral 10 Nat.digitChar 2 d.date.month ∧
        zeroPadded 2 (date.day : Int) = numeral 10 Nat.digitChar 2 d.date.day :=
      ⟨zeroPadded_eq (by decide) (by omega), zeroPadded_eq (by decide) (by omega), zeroPadded_eq (by decide) (by omega)⟩
    rw [format_epoch hepoch]
    unfold formatEpochSeconds
    simp only [hcivil, ← htod, hhour, hminute, hsecond, htime, hdate]
    rfl

/-- An instant is written as a date-time that denotes it, to the second. -/
theorem format_denotes {t : SystemTime} (ht : Printable t) : Denotes (format t) (.ofSecs t.secs) := by
  obtain ⟨d, hsecs, htext⟩ := format_eq ht
  rw [htext, ← hsecs]
  exact d.denotes

theorem parse_of_denotes {text : String} {t : SystemTime} (h : Denotes text t) : parse text = some t := by
  obtain ⟨w, f, hbytes, hdocumented, ht⟩ := h
  exact parse_eq_some_iff.mpr ⟨w, f, hbytes, ((documented_iff w f).mp hdocumented).1, ht⟩

theorem format_lt {t u : SystemTime} (ht : Printable t) (hu : Printable u) (h : t.secs < u.secs) :
    format t < format u := by
  obtain ⟨d, hsecs, htext⟩ := format_eq ht
  obtain ⟨e, hsecs', htext'⟩ := format_eq hu
  rw [htext, htext', String.lt_iff_toList_lt, String.toList_ofList, String.toList_ofList]
  exact DateTime.chars_lt (by omega)

/-- A written timestamp is read back, has the envelope's shape, and is ordered as its instant is. -/
theorem format_round_trips (t u : SystemTime) (ht : Printable t) (hu : Printable u) :
    parse (format t) = some (.ofSecs t.secs) ∧ (format t).length = 20 ∧ isRfc3339 (format t) = true ∧
    (format t < format u ↔ t.secs < u.secs) ∧ (format t = format u ↔ t.secs = u.secs) := by
  have hsame : format t = format u ↔ t.secs = u.secs := by
    constructor
    · intro heq
      have hread := parse_of_denotes (format_denotes ht)
      rw [heq, parse_of_denotes (format_denotes hu), Option.some.injEq, SystemTime.ofSecs, SystemTime.ofSecs,
        SystemTime.mk.injEq] at hread
      exact (Int.eq_of_mul_eq_mul_right (by decide) hread).symm
    · intro heq
      rw [format_epoch ht.1, format_epoch hu.1, heq]
  obtain ⟨d, hsecs, htext⟩ := format_eq ht
  refine ⟨parse_of_denotes (format_denotes ht), ?_, ?_, ⟨fun hlt => ?_, format_lt ht hu⟩, hsame⟩
  · rw [htext, String.length_ofList]
    exact d.length_chars
  · rw [htext]
    exact isRfc3339_of_documented d.utf8_chars.symm d.documented rfl rfl rfl
  · rcases lt_trichotomy t.secs u.secs with h | h | h
    · exact h
    · rw [hsame.mpr h] at hlt
      exact absurd hlt (lt_irrefl _)
    · exact absurd hlt (lt_asymm (format_lt hu ht h))

/-- The last nanosecond of a leap day, and the last second there is a text for. -/
theorem leap_day_round_trips :
    parse (format ⟨951868799999999999⟩) = some (.ofSecs 951868799) ∧ (format ⟨951868799999999999⟩).length = 20 ∧
    isRfc3339 (format ⟨951868799999999999⟩) = true ∧
    (format ⟨951868799999999999⟩ < format (.ofSecs 253402300799) ↔ (951868799 : Int) < 253402300799) ∧
    (format ⟨951868799999999999⟩ = format (.ofSecs 253402300799) ↔ (951868799 : Int) = 253402300799) :=
  format_round_trips ⟨951868799999999999⟩ (.ofSecs 253402300799) (by decide) (by decide)

end Beacon.Rfc3339
