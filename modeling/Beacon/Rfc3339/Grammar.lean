/-
  Beacon.Rfc3339.Grammar — RFC 3339's date-times, and what the parser takes besides.

  `Written` is a date-time cut into its fields. What a field may be is said once as RFC 3339
  has it and once as the parser checks it (`Grammar`); the instant is the one the fields
  denote in either case, by the calendar of `Beacon.Lib.Calendar`.
  - `parse_eq_some_iff`: the parser reads exactly the texts whose fields pass its checks.
  - `documented_iff`: a field passes the checks without being of the grammar if it has a sign,
    or is a day its month does not have, a fraction without digits, an offset without its
    colon or out of range.
  - `parse_iff_denotes`: any other text is read exactly if it is a date-time.
-/

import Beacon.Rfc3339
import Beacon.Lib.Calendar

namespace Beacon.Rfc3339

open Lib.Calendar

/-! ## Numbers -/

/-- What a row of digits stands for. -/
def decimal (digits : Bytes) : Nat := digits.foldl (fun n b => n * 10 + (b.toNat - 0x30)) 0

def Digits (width : Nat) (bytes : Bytes) : Prop := bytes.length = width ∧ ∀ b ∈ bytes, isDigit b = true

/-- A sign before the digits. -/
def Signed (bytes : Bytes) : Prop := bytes.head? = some 0x2B ∨ bytes.head? = some 0x2D

theorem digitsValue_eq_some_iff {bytes : Bytes} {n : Int} :
    digitsValue bytes = some n ↔ bytes ≠ [] ∧ (∀ b ∈ bytes, isDigit b = true) ∧ n = decimal bytes := by
  -- the digits read so far are in the accumulator
  have hfold : ∀ (bytes : Bytes) (acc : Option Nat),
      bytes.foldl (fun acc b => acc.bind fun n : Int =>
          if isDigit b then some (n * 10 + (b.toNat - 0x30 : Nat)) else none) (acc.map Nat.cast) =
        if ∀ b ∈ bytes, isDigit b = true then
          acc.map fun n => ((bytes.foldl (fun n b => n * 10 + (b.toNat - 0x30)) n : Nat) : Int)
        else none := by
    intro bytes
    induction bytes with
    | nil => simp
    | cons b bytes ih =>
      intro acc
      rw [List.foldl_cons]
      by_cases hb : isDigit b = true
      · have hnext : ((acc.map Nat.cast).bind fun n : Int =>
            if isDigit b then some (n * 10 + (b.toNat - 0x30 : Nat)) else none) =
            (acc.map fun n => n * 10 + (b.toNat - 0x30)).map Nat.cast := by
          cases acc <;> simp [hb]
        rw [hnext, ih]
        simp only [List.mem_cons, forall_eq_or_imp, hb, true_and, Option.map_map, List.foldl_cons]
        rfl
      · have hnext : ((acc.map Nat.cast).bind fun n : Int =>
            if isDigit b then some (n * 10 + (b.toNat - 0x30 : Nat)) else none) = (none : Option Nat).map Nat.cast := by
          cases acc <;> simp [hb]
        rw [hnext, ih]
        rw [if_neg (show ¬ ∀ b' ∈ b :: bytes, isDigit b' = true from fun h => hb (h b List.mem_cons_self))]
        split <;> rfl
  unfold digitsValue
  cases bytes with
  | nil => simp
  | cons b bytes =>
    have h := hfold (b :: bytes) (some 0)
    simp only [Option.map_some, Nat.cast_zero] at h
    rw [List.isEmpty_cons, if_neg Bool.false_ne_true, h]
    by_cases hall : ∀ b' ∈ b :: bytes, isDigit b' = true
    · rw [if_pos hall, Option.some.injEq]
      exact ⟨fun h => ⟨by simp, hall, h.symm⟩, fun h => h.2.2.symm⟩
    · rw [if_neg hall]
      exact iff_of_false (by simp) fun h => hall h.2.1

theorem decimal_lt {bytes : Bytes} (h : ∀ b ∈ bytes, isDigit b = true) : decimal bytes < 10 ^ bytes.length := by
  induction bytes using List.reverseRecOn with
  | nil => decide
  | append_singleton bytes b ih =>
    have hb : isDigit b = true := h b (by simp)
    have hrest := ih fun b hb => h b (List.mem_append_left _ hb)
    have hdigit : b.toNat - 0x30 < 10 := by
      simp only [isDigit, Bool.and_eq_true, decide_eq_true_eq] at hb
      have h9 : b.toNat ≤ 0x39 := UInt8.le_iff_toNat_le.mp hb.2
      omega
    unfold decimal at hrest ⊢
    rw [List.foldl_append, List.length_append, List.length_singleton, Nat.pow_succ]
    simp only [List.foldl_cons, List.foldl_nil]
    omega

theorem parseI64_of_unsigned {bytes : Bytes} (h : ¬ Signed bytes) :
    parseI64 bytes = (digitsValue bytes).bind fun n => if -2 ^ 63 ≤ n ∧ n < 2 ^ 63 then some n else none := by
  unfold parseI64
  split
  · exact absurd (Or.inl rfl) h
  · exact absurd (Or.inr rfl) h
  · rfl

theorem Digits.plain {width : Nat} {bytes : Bytes} (h : Digits width bytes) (hwidth : 0 < width ∧ width ≤ 4) :
    bytes ≠ [] ∧ ¬ Signed bytes ∧ decimal bytes < 10000 := by
  obtain ⟨hlength, hdigits⟩ := h
  refine ⟨?_, ?_, ?_⟩
  · rintro rfl
    rw [List.length_nil] at hlength
    omega
  · rintro (hhead | hhead)
    · cases hdigits _ (List.mem_of_head? hhead)
    · cases hdigits _ (List.mem_of_head? hhead)
  · have hpow : 10 ^ bytes.length ≤ 10 ^ 4 := Nat.pow_le_pow_right (by omega) (by omega)
    exact Nat.lt_of_lt_of_le (decimal_lt hdigits) hpow

/-- Where a sign is left out, a number of a few digits is read as it is written. -/
theorem parseI64_iff {bytes : Bytes} {width : Nat} (hwidth : 0 < width ∧ width ≤ 4) (n : Int) :
    Digits width bytes ∧ n = decimal bytes ↔ (bytes.length = width ∧ parseI64 bytes = some n) ∧ ¬ Signed bytes := by
  constructor
  · rintro ⟨hdigits, rfl⟩
    obtain ⟨hne, hunsigned, hsmall⟩ := hdigits.plain hwidth
    refine ⟨⟨hdigits.1, ?_⟩, hunsigned⟩
    rw [parseI64_of_unsigned hunsigned, digitsValue_eq_some_iff.mpr ⟨hne, hdigits.2, rfl⟩, Option.bind_some,
      if_pos (by omega)]
  · rintro ⟨⟨hlength, hparse⟩, hunsigned⟩
    rw [parseI64_of_unsigned hunsigned, Option.bind_eq_some_iff] at hparse
    obtain ⟨value, hvalue, hrange⟩ := hparse
    split at hrange
    · cases hrange
      obtain ⟨-, hdigits, hn⟩ := digitsValue_eq_some_iff.mp hvalue
      exact ⟨⟨hlength, hdigits⟩, hn⟩
    · cases hrange

theorem ascii_of_digit {b : UInt8} (h : isDigit b = true) : b < 0x80 := by
  simp only [isDigit, Bool.and_eq_true, decide_eq_true_eq] at h
  exact UInt8.lt_of_le_of_lt h.2 (by decide)

/-- What is read as a number is written in ASCII. -/
theorem ascii_of_parseI64 {bytes : Bytes} {n : Int} (h : parseI64 bytes = some n) : ∀ b ∈ bytes, b < 0x80 := by
  have hdigits : ∀ {bytes : Bytes} {n : Int}, digitsValue bytes = some n → ∀ b ∈ bytes, b < 0x80 :=
    fun h b hb => ascii_of_digit ((digitsValue_eq_some_iff.mp h).2.1 b hb)
  unfold parseI64 at h
  rw [Option.bind_eq_some_iff] at h
  obtain ⟨value, hvalue, -⟩ := h
  split at hvalue
  · intro b hb
    rcases List.mem_cons.mp hb with rfl | hb
    · decide
    · exact hdigits hvalue b hb
  · rw [Option.map_eq_some_iff] at hvalue
    obtain ⟨magnitude, hmagnitude, -⟩ := hvalue
    intro b hb
    rcases List.mem_cons.mp hb with rfl | hb
    · decide
    · exact hdigits hmagnitude b hb
  · exact hdigits hvalue

/-! ## The fields of a date-time -/

inductive Zone where
  | utc (letter : UInt8)
  | offset (sign : UInt8) (hours : Bytes) (colon : UInt8) (minutes : Bytes)

def Zone.bytes : Zone → Bytes
  | utc letter => [letter]
  | offset sign hours colon minutes => sign :: (hours ++ colon :: minutes)

structure Written where
  year : Bytes
  month : Bytes
  day : Bytes
  separator : UInt8
  hour : Bytes
  minute : Bytes
  second : Bytes
  /-- What follows the point, if there is one. -/
  fraction : Option Bytes
  zone : Zone

def Written.bytes (w : Written) : Bytes :=
  w.year ++ 0x2D :: (w.month ++ 0x2D :: (w.day ++ w.separator :: (w.hour ++ 0x3A :: (w.minute ++ 0x3A ::
    (w.second ++ (w.fraction.elim [] (0x2E :: ·) ++ w.zone.bytes))))))

structure Fields where
  year : Int
  month : Int
  day : Int
  hour : Int
  minute : Int
  second : Int
  /-- In seconds. -/
  offset : Int

/-- The instant the fields denote. -/
def Fields.instant (f : Fields) : SystemTime :=
  .ofSecs (daysSinceEpoch f.year f.month.toNat f.day.toNat * 86400 + f.hour * 3600 + f.minute * 60 + f.second - f.offset)

/-- What may stand in a field: a number of so many bytes, a day of a month, what follows the point, and
    what stands between the numbers of an offset, which are its hours and minutes. -/
structure Grammar where
  Number : Nat → Bytes → Int → Prop
  Day : Int → Int → Int → Prop
  Fraction : Bytes → Prop
  Colon : UInt8 → Prop
  Offset : Int → Int → Prop

/-- `Z`, or a sign with hours and minutes. -/
inductive Zone.Is (G : Grammar) : Zone → Int → Prop
  | utc {letter : UInt8} : letter = 0x5A ∨ letter = 0x7A → Is G (.utc letter) 0
  | offset {sign colon : UInt8} {hours minutes : Bytes} {h m : Int} : sign = 0x2B ∨ sign = 0x2D →
      G.Number 2 hours h → G.Number 2 minutes m → G.Colon colon → G.Offset h m →
      Is G (.offset sign hours colon minutes) (if sign = 0x2D then -(h * 3600 + m * 60) else h * 3600 + m * 60)

structure Written.Is (G : Grammar) (w : Written) (f : Fields) : Prop where
  year : G.Number 4 w.year f.year
  month : G.Number 2 w.month f.month
  day : G.Number 2 w.day f.day
  hour : G.Number 2 w.hour f.hour
  minute : G.Number 2 w.minute f.minute
  second : G.Number 2 w.second f.second
  separator : w.separator = 0x54 ∨ w.separator = 0x74
  monthRange : 1 ≤ f.month ∧ f.month ≤ 12
  dayRange : G.Day f.year f.month f.day
  /-- 60 is a leap second, which RFC 3339 permits. -/
  clock : f.hour ≤ 23 ∧ f.minute ≤ 59 ∧ f.second ≤ 60
  fraction : ∀ digits, w.fraction = some digits → G.Fraction digits
  zone : w.zone.Is G f.offset

/-- RFC 3339's: digits, existing dates, a fraction of at least one digit, offsets of less than a day. -/
def documented : Grammar where
  Number width field n := Digits width field ∧ n = decimal field
  Day year month day := 1 ≤ day ∧ day ≤ daysInMonth year month.toNat
  Fraction digits := digits ≠ [] ∧ ∀ b ∈ digits, isDigit b = true
  Colon b := b = 0x3A
  Offset h m := h ≤ 23 ∧ m ≤ 59

/-- The parser's. -/
def checked : Grammar where
  Number width field n := field.length = width ∧ parseI64 field = some n
  Day _ _ day := 1 ≤ day ∧ day ≤ 31
  Fraction digits := ∀ b ∈ digits, isDigit b = true
  Colon b := b < 0x80 ∨ 0xC0 ≤ b
  Offset _ _ := True

/-! ### What is checked without being documented -/

/-- A sign, a colon that is none, an offset out of range. -/
def Zone.Misread : Zone → Prop
  | .utc _ => False
  | .offset _ hours colon minutes => Signed hours ∨ Signed minutes ∨ colon ≠ 0x3A ∨
      (∃ h, parseI64 hours = some h ∧ 23 < h) ∨ ∃ m, parseI64 minutes = some m ∧ 59 < m

/-- A sign before a number, a day that the month does not have, no digit after the point, or an
    offset that is none. -/
def Written.Misread (w : Written) (f : Fields) : Prop :=
  (∃ field ∈ [w.year, w.month, w.day, w.hour, w.minute, w.second], Signed field) ∨
  (daysInMonth f.year f.month.toNat : Int) < f.day ∨ w.fraction = some [] ∨ w.zone.Misread

theorem number_iff {width : Nat} (hwidth : 0 < width ∧ width ≤ 4) (field : Bytes) (n : Int) :
    documented.Number width field n ↔ checked.Number width field n ∧ ¬ Signed field :=
  parseI64_iff hwidth n

theorem Zone.documented_iff (zone : Zone) (offset : Int) :
    zone.Is documented offset ↔ zone.Is checked offset ∧ ¬ zone.Misread := by
  have hnumber := fun field n => number_iff (show 0 < 2 ∧ 2 ≤ 4 by omega) field n
  constructor
  · intro h
    cases h with
    | utc hletter => exact ⟨.utc hletter, id⟩
    | @offset sign colon hours minutes h m hsign hhours hminutes hcolon hrange =>
      obtain ⟨hh, hunsignedH⟩ := (hnumber _ _).mp hhours
      obtain ⟨hm, hunsignedM⟩ := (hnumber _ _).mp hminutes
      have hascii : checked.Colon colon := by
        rw [show colon = 0x3A from hcolon]
        exact Or.inl (by decide)
      refine ⟨.offset hsign hh hm hascii trivial, ?_⟩
      rintro (hsigned | hsigned | hother | ⟨h', hread, hbig⟩ | ⟨m', hread, hbig⟩)
      · exact hunsignedH hsigned
      · exact hunsignedM hsigned
      · exact hother hcolon
      · rw [hh.2, Option.some.injEq] at hread
        have := hrange.1
        omega
      · rw [hm.2, Option.some.injEq] at hread
        have := hrange.2
        omega
  · rintro ⟨h, hnot⟩
    cases h with
    | utc hletter => exact .utc hletter
    | @offset sign colon hours minutes h m hsign hhours hminutes hcolon hrange =>
      simp only [Misread, not_or] at hnot
      obtain ⟨hunsignedH, hunsignedM, hsame, hbigH, hbigM⟩ := hnot
      refine .offset hsign ((hnumber _ _).mpr ⟨hhours, hunsignedH⟩) ((hnumber _ _).mpr ⟨hminutes, hunsignedM⟩)
        (Classical.not_not.mp hsame) ⟨?_, ?_⟩
      · exact Int.not_lt.mp fun h => hbigH ⟨_, hhours.2, h⟩
      · exact Int.not_lt.mp fun h => hbigM ⟨_, hminutes.2, h⟩

theorem daysInMonth_le (year : Int) (month : Nat) : daysInMonth year month ≤ 31 := by
  unfold daysInMonth
  split
  · split <;> omega
  · split <;> omega

theorem documented_iff (w : Written) (f : Fields) : w.Is documented f ↔ w.Is checked f ∧ ¬ w.Misread f := by
  have hfour := number_iff (show 0 < 4 ∧ 4 ≤ 4 by omega)
  have htwo := number_iff (show 0 < 2 ∧ 2 ≤ 4 by omega)
  have hdays := daysInMonth_le f.year f.month.toNat
  unfold Written.Misread
  simp only [List.mem_cons, List.not_mem_nil, or_false, exists_eq_or_imp, exists_eq_left, not_or]
  constructor
  · intro h
    obtain ⟨hyear, hyear'⟩ := (hfour _ _).mp h.year
    obtain ⟨hmonth, hmonth'⟩ := (htwo _ _).mp h.month
    obtain ⟨hday, hday'⟩ := (htwo _ _).mp h.day
    obtain ⟨hhour, hhour'⟩ := (htwo _ _).mp h.hour
    obtain ⟨hminute, hminute'⟩ := (htwo _ _).mp h.minute
    obtain ⟨hsecond, hsecond'⟩ := (htwo _ _).mp h.second
    obtain ⟨hzone, hzone'⟩ := (Zone.documented_iff _ _).mp h.zone
    obtain ⟨hfirst, hlast⟩ := h.dayRange
    refine ⟨⟨hyear, hmonth, hday, hhour, hminute, hsecond, h.separator, h.monthRange, ⟨hfirst, by omega⟩, h.clock,
      fun digits hd => (h.fraction digits hd).2, hzone⟩,
      ⟨hyear', hmonth', hday', hhour', hminute', hsecond'⟩, by omega, fun hempty => (h.fraction [] hempty).1 rfl, hzone'⟩
  · rintro ⟨h, ⟨hyear, hmonth, hday, hhour, hminute, hsecond⟩, hexists, hempty, hzone⟩
    exact ⟨(hfour _ _).mpr ⟨h.year, hyear⟩, (htwo _ _).mpr ⟨h.month, hmonth⟩, (htwo _ _).mpr ⟨h.day, hday⟩,
      (htwo _ _).mpr ⟨h.hour, hhour⟩, (htwo _ _).mpr ⟨h.minute, hminute⟩, (htwo _ _).mpr ⟨h.second, hsecond⟩,
      h.separator, h.monthRange, ⟨h.dayRange.1, Int.not_lt.mp hexists⟩, h.clock,
      fun digits hd => ⟨fun hnil => hempty (hnil ▸ hd), h.fraction digits hd⟩, (Zone.documented_iff _ _).mpr ⟨h.zone, hzone⟩⟩

/-! ## Slices -/

theorem number_eq_some_iff {bytes : Bytes} {a b : Nat} {n : Int} : number bytes a b = some n ↔
    a ≤ b ∧ isCharBoundary bytes a = true ∧ isCharBoundary bytes b = true ∧
      parseI64 ((bytes.take b).drop a) = some n := by
  unfold number slice
  split
  · rename_i h
    simp [h]
  · rename_i h
    simp only [Option.bind_none, reduceCtorEq, false_iff]
    exact fun h' => h ⟨h'.1, h'.2.1, h'.2.2.1⟩

/-- The bytes from `n` on, as a field and the byte after it. -/
theorem drop_cut {bytes : Bytes} {n m : Nat} (hnm : n ≤ m) (h : m < bytes.length) :
    bytes.drop n = (bytes.take m).drop n ++ bytes.getD m 0 :: bytes.drop (m + 1) := by
  have hnext : bytes.drop m = bytes.getD m 0 :: bytes.drop (m + 1) := by
    rw [List.drop_eq_getElem_cons h, List.getD_eq_getElem?_getD, List.getElem?_eq_getElem h, Option.getD_some]
  rw [← hnext, ← List.drop_append_of_le_length (by rw [List.length_take]; omega), List.take_append_drop]

/-! ## The instant -/

/-- From March on the months are 153 days to every five. -/
theorem daysBeforeMonth_from_march (year : Int) {month : Nat} (h : 3 ≤ month ∧ month ≤ 12) :
    daysBeforeMonth year month = (153 * (month - 3) + 2) / 5 + 59 + (if IsLeap year then 1 else 0) := by
  obtain ⟨hlow, hhigh⟩ := h
  simp only [daysBeforeMonth]
  by_cases hleap : IsLeap year <;> interval_cases month <;>
    simp [Finset.sum_Ico_succ_top, daysInMonth, hleap]

/-- The source's way of dividing downwards. -/
theorem tdiv_floor {n m : Int} (h : 0 ≤ m ∧ n = m + 1) (a : Int) : (if 0 ≤ a then a else a - m).tdiv n = a / n := by
  obtain ⟨hm, rfl⟩ := h
  split
  · rw [Int.tdiv_eq_ediv_of_nonneg ‹_›]
  · have hn : 0 < m + 1 := by omega
    have hlow := Int.emod_nonneg a (by omega : m + 1 ≠ 0)
    have hhigh := Int.emod_lt_of_pos a hn
    have hdivision := Int.emod_add_mul_ediv a (m + 1)
    have hquotient : (m - a) / (m + 1) = -(a / (m + 1)) :=
      ((Int.ediv_emod_unique hn).mpr ⟨(by rw [Int.mul_neg]; omega : m - a % (m + 1) + (m + 1) * -(a / (m + 1)) = m - a),
        by omega, by omega⟩).1
    rw [show a - m = -(m - a) by omega, Int.neg_tdiv, Int.tdiv_eq_ediv_of_nonneg (by omega), hquotient, Int.neg_neg]

/-- The days of the eras, and of the years of the last one, are those of the years. -/
theorem days_of_era (year : Int) :
    year / 400 * 146097 + ((year - year / 400 * 400) * 365 + (year - year / 400 * 400).tdiv 4 -
      (year - year / 400 * 400).tdiv 100) = daysBeforeYear (year + 1) := by
  have hera : 0 ≤ year - year / 400 * 400 := by omega
  have hyear := daysBeforeYear_era (year - year / 400 * 400) (year / 400)
  rw [Int.sub_add_cancel] at hyear
  rw [Int.tdiv_eq_ediv_of_nonneg hera, Int.tdiv_eq_ediv_of_nonneg hera, hyear]
  omega

/-- Eras of 400 years that begin in March, and the calendar's count of days. -/
theorem daysFromCivil_eq {year month day : Int} (hmonth : 1 ≤ month ∧ month ≤ 12) (hday : 0 ≤ day) :
    daysFromCivil year month day = daysSinceEpoch year month.toNat day.toNat := by
  unfold daysFromCivil daysSinceEpoch
  simp only [tdiv_floor (show (0 : Int) ≤ 399 ∧ (400 : Int) = 399 + 1 by decide)]
  by_cases hmarch : month ≤ 2
  · have hyear := days_of_era (year - 1)
    have hmonths : (daysBeforeMonth year month.toNat : Int) = 31 * (month - 1) := by
      obtain ⟨hlow, -⟩ := hmonth
      interval_cases month <;> simp [daysBeforeMonth, daysInMonth]
    have hdays : (153 * (month + 9) + 2).tdiv 5 = (153 * (month + 9) + 2) / 5 :=
      Int.tdiv_eq_ediv_of_nonneg (by omega)
    rw [show year - 1 + 1 = year by omega] at hyear
    rw [if_pos hmarch, if_neg (by omega : ¬2 < month), hdays, hmonths]
    omega
  · have hyear := days_of_era year
    have hnext := daysBeforeYear_succ year
    have hmonths := daysBeforeMonth_from_march year (show 3 ≤ month.toNat ∧ month.toNat ≤ 12 by omega)
    have hdays : (153 * (month - 3) + 2).tdiv 5 = (153 * (month - 3) + 2) / 5 :=
      Int.tdiv_eq_ediv_of_nonneg (by omega)
    rw [if_neg hmarch, if_pos (by omega : 2 < month), hdays, hmonths]
    by_cases hleap : IsLeap year
    · rw [if_pos hleap] at hnext ⊢
      omega
    · rw [if_neg hleap] at hnext ⊢
      omega

/-! ## Reading -/

theorem isCharBoundary_of_ascii {bytes : Bytes} {i : Nat} (hi : i < bytes.length) (h : bytes[i] < 0x80) :
    isCharBoundary bytes i = true := by
  unfold isCharBoundary
  rw [List.getElem?_eq_getElem hi]
  simp [h]

theorem isCharBoundary_length (bytes : Bytes) : isCharBoundary bytes bytes.length = true := by
  unfold isCharBoundary
  rw [List.getElem?_eq_none le_rfl]
  exact beq_self_eq_true _

theorem colon_of_boundary {bytes : Bytes} {i : Nat} (hi : i < bytes.length) (h : isCharBoundary bytes i = true) :
    checked.Colon (bytes.getD i 0) := by
  unfold isCharBoundary at h
  rw [List.getElem?_eq_getElem hi] at h
  rw [List.getD_eq_getElem?_getD, List.getElem?_eq_getElem hi, Option.getD_some]
  simpa [checked] using h

theorem length_slice {bytes : Bytes} {a b : Nat} (h : b ≤ bytes.length) : ((bytes.take b).drop a).length = b - a := by
  rw [List.length_drop, List.length_take, Nat.min_eq_left h]

/-- A field that is read is a field of the text. -/
theorem checked_of_number {bytes : Bytes} {a b : Nat} {n : Int} (hb : b ≤ bytes.length) (h : number bytes a b = some n) :
    checked.Number (b - a) ((bytes.take b).drop a) n :=
  ⟨length_slice hb, (number_eq_some_iff.mp h).2.2.2⟩

theorem offsetSeconds_eq_some_iff {rest : Bytes} {offset : Int} :
    offsetSeconds rest = some offset ↔ ∃ zone : Zone, zone.bytes = rest ∧ zone.Is checked offset := by
  constructor
  · intro h
    unfold offsetSeconds at h
    split at h
    · cases h
    rename_i b more
    split at h
    · rename_i hutc
      cases h
      have hmore : more = [] := by simpa using hutc.2
      exact ⟨.utc b, by rw [hmore]; rfl, .utc hutc.1⟩
    split at h
    swap
    · cases h
    rename_i hsigned
    obtain ⟨hsign, hlength⟩ := hsigned
    simp only [Option.bind_eq_bind, Option.bind_eq_some_iff, Option.some.injEq] at h
    obtain ⟨hours, hhours, minutes, hminutes, hoffset⟩ := h
    generalize hrest : b :: more = rest at *
    have hbytes : rest.drop 1 = (rest.take 3).drop 1 ++ rest.getD 3 0 :: (rest.take 6).drop 4 := by
      rw [List.take_of_length_le (by omega : rest.length ≤ 6)]
      exact drop_cut (by omega) (by omega)
    refine ⟨.offset b ((rest.take 3).drop 1) (rest.getD 3 0) ((rest.take 6).drop 4), ?_, ?_⟩
    · rw [Zone.bytes, ← hbytes, ← hrest]
      rfl
    · rw [← hoffset]
      exact .offset hsign (checked_of_number (by omega) hhours) (checked_of_number (by omega) hminutes)
        (colon_of_boundary (by omega) (number_eq_some_iff.mp hhours).2.2.1) trivial
  · rintro ⟨zone, rfl, h⟩
    cases h with
    | @utc letter hletter => simp [offsetSeconds, Zone.bytes, hletter]
    | @offset sign colon hours minutes h m hsign hhours hminutes hcolon hrange =>
      obtain ⟨h0, h1, rfl⟩ := List.length_eq_two.mp hhours.1
      obtain ⟨m0, m1, rfl⟩ := List.length_eq_two.mp hminutes.1
      have hnotUtc : ¬((sign = 0x5A ∨ sign = 0x7A) ∧ (sign :: [h0, h1, colon, m0, m1]).length = 1) := by simp
      have hascii := ascii_of_parseI64 hhours.2
      have hascii' := ascii_of_parseI64 hminutes.2
      have hreadHours : number (sign :: [h0, h1, colon, m0, m1]) 1 3 = some h :=
        number_eq_some_iff.mpr ⟨by omega, isCharBoundary_of_ascii (by simp) (hascii h0 (by simp)),
          by simpa [isCharBoundary, checked] using hcolon, hhours.2⟩
      have hreadMinutes : number (sign :: [h0, h1, colon, m0, m1]) 4 6 = some m :=
        number_eq_some_iff.mpr ⟨by omega, isCharBoundary_of_ascii (by simp) (hascii' m0 (by simp)),
          isCharBoundary_length _, hminutes.2⟩
      show offsetSeconds (sign :: [h0, h1, colon, m0, m1]) = _
      rw [offsetSeconds, if_neg hnotUtc, if_pos ⟨hsign, rfl⟩, hreadHours, hreadMinutes]
      rfl

/-- An offset begins with a byte that no fraction has. -/
theorem Zone.bytes_eq_cons {zone : Zone} {offset : Int} (h : zone.Is checked offset) :
    ∃ b more, zone.bytes = b :: more ∧ isDigit b = false ∧ b ≠ 0x2E ∧ b < 0x80 := by
  cases h with
  | utc hletter =>
    refine ⟨_, _, rfl, ?_⟩
    rcases hletter with rfl | rfl <;> decide
  | offset hsign =>
    refine ⟨_, _, rfl, ?_⟩
    rcases hsign with rfl | rfl <;> decide

theorem takeWhile_fraction {zone : Zone} {offset : Int} (h : zone.Is checked offset) {digits : Bytes}
    (hdigits : ∀ b ∈ digits, isDigit b = true) : (digits ++ zone.bytes).takeWhile isDigit = digits := by
  obtain ⟨b, more, hzone, hnot, -⟩ := Zone.bytes_eq_cons h
  rw [List.takeWhile_append_of_pos hdigits, hzone, List.takeWhile_cons_of_neg (by simp [hnot]), List.append_nil]

theorem skipFraction_eq_some_iff {rest : Bytes} {offset : Int} :
    (skipFraction rest).bind offsetSeconds = some offset ↔
      ∃ (fraction : Option Bytes) (zone : Zone), fraction.elim [] (0x2E :: ·) ++ zone.bytes = rest ∧
        (∀ digits, fraction = some digits → checked.Fraction digits) ∧ zone.Is checked offset := by
  rw [Option.bind_eq_some_iff]
  constructor
  · rintro ⟨tail, hskip, hoffset⟩
    obtain ⟨zone, rfl, hzone⟩ := offsetSeconds_eq_some_iff.mp hoffset
    unfold skipFraction at hskip
    split at hskip
    · rename_i afterDot
      unfold slice at hskip
      split at hskip
      · rw [List.take_length, Option.some.injEq] at hskip
        refine ⟨some (afterDot.takeWhile isDigit), zone, ?_, ?_, hzone⟩
        · rw [← hskip]
          rw [Option.elim_some, List.cons_append, ← List.prefix_append_drop (List.takeWhile_prefix isDigit)]
        · rintro digits hdigits b hb
          cases hdigits
          exact List.all_eq_true.mp List.all_takeWhile b hb
      · cases hskip
    · cases hskip
      exact ⟨none, zone, rfl, by simp, hzone⟩
  · rintro ⟨fraction, zone, rfl, hdigits, hzone⟩
    obtain ⟨b, more, hbytes, -, hdot, hascii⟩ := Zone.bytes_eq_cons hzone
    refine ⟨zone.bytes, ?_, offsetSeconds_eq_some_iff.mpr ⟨zone, rfl, hzone⟩⟩
    cases fraction with
    | none =>
      rw [Option.elim_none, List.nil_append, hbytes]
      unfold skipFraction
      split
      · rename_i heq
        cases heq
        exact absurd rfl hdot
      · rfl
    | some digits =>
      have htake := takeWhile_fraction hzone (hdigits digits rfl)
      have hstart : isCharBoundary (digits ++ zone.bytes) digits.length = true := by
        refine isCharBoundary_of_ascii (by simp [hbytes]) ?_
        simpa [hbytes] using hascii
      show slice (digits ++ zone.bytes) ((digits ++ zone.bytes).takeWhile isDigit).length (digits ++ zone.bytes).length = _
      rw [htake, slice, if_pos ⟨by simp, hstart, isCharBoundary_length _⟩, List.take_length, List.drop_left]

/-- Fields at their places, and the bytes between them. -/
theorem written_of_bytes {bytes : Bytes} (hlong : 20 ≤ bytes.length) {fraction : Option Bytes} {zone : Zone}
    (hrest : fraction.elim [] (0x2E :: ·) ++ zone.bytes = bytes.drop 19) (h4 : bytes.getD 4 0 = 0x2D)
    (h7 : bytes.getD 7 0 = 0x2D) (h13 : bytes.getD 13 0 = 0x3A) (h16 : bytes.getD 16 0 = 0x3A) :
    Written.bytes ⟨(bytes.take 4).drop 0, (bytes.take 7).drop 5, (bytes.take 10).drop 8, bytes.getD 10 0,
      (bytes.take 13).drop 11, (bytes.take 16).drop 14, (bytes.take 19).drop 17, fraction, zone⟩ = bytes := by
  have hsecond : bytes.drop 17 = (bytes.take 19).drop 17 ++ bytes.drop 19 := by
    rw [← List.drop_append_of_le_length (by rw [List.length_take]; omega), List.take_append_drop]
  have hminute : bytes.drop 14 = (bytes.take 16).drop 14 ++ 0x3A :: bytes.drop 17 :=
    h16 ▸ drop_cut (by omega) (by omega)
  have hhour : bytes.drop 11 = (bytes.take 13).drop 11 ++ 0x3A :: bytes.drop 14 :=
    h13 ▸ drop_cut (by omega) (by omega)
  have hday : bytes.drop 8 = (bytes.take 10).drop 8 ++ bytes.getD 10 0 :: bytes.drop 11 :=
    drop_cut (by omega) (by omega)
  have hmonth : bytes.drop 5 = (bytes.take 7).drop 5 ++ 0x2D :: bytes.drop 8 :=
    h7 ▸ drop_cut (by omega) (by omega)
  have hyear : bytes.drop 0 = (bytes.take 4).drop 0 ++ 0x2D :: bytes.drop 5 :=
    h4 ▸ drop_cut (by omega) (by omega)
  simp only [Written.bytes]
  rw [hrest, ← hsecond, ← hminute, ← hhour, ← hday, ← hmonth, ← hyear, List.drop_zero]

theorem checked_of_parse {text : String} {t : SystemTime} (h : parse text = some t) :
    ∃ w f, Written.bytes w = utf8 text ∧ w.Is checked f ∧ t = f.instant := by
  unfold parse at h
  dsimp only at h
  generalize utf8 text = bytes at *
  split at h
  · cases h
  rename_i hlong
  obtain ⟨year, hyear, h⟩ := Option.bind_eq_some_iff.mp h
  obtain ⟨month, hmonth, h⟩ := Option.bind_eq_some_iff.mp h
  obtain ⟨day, hday, h⟩ := Option.bind_eq_some_iff.mp h
  obtain ⟨hour, hhour, h⟩ := Option.bind_eq_some_iff.mp h
  obtain ⟨minute, hminute, h⟩ := Option.bind_eq_some_iff.mp h
  obtain ⟨second, hsecond, h⟩ := Option.bind_eq_some_iff.mp h
  split at h
  · cases h
  rename_i hdashes
  split at h
  · cases h
  rename_i hcolons
  split at h
  · cases h
  rename_i hdate
  split at h
  · cases h
  rename_i hclock
  obtain ⟨rest, hrest, h⟩ := Option.bind_eq_some_iff.mp h
  obtain ⟨tail, htail, h⟩ := Option.bind_eq_some_iff.mp h
  obtain ⟨offset, hoffset, h⟩ := Option.bind_eq_some_iff.mp h
  unfold slice at hrest
  split at hrest
  swap
  · cases hrest
  rw [List.take_length, Option.some.injEq] at hrest
  obtain ⟨fraction, zone, hsplit, hfraction, hzone⟩ :=
    skipFraction_eq_some_iff.mp (Option.bind_eq_some_iff.mpr ⟨tail, htail, hoffset⟩)
  have hmonthRange : 1 ≤ month ∧ month ≤ 12 := Classical.not_not.mp fun hm => hdate (Or.inl hm)
  have hdayRange : 1 ≤ day ∧ day ≤ 31 := Classical.not_not.mp fun hd => hdate (Or.inr hd)
  have hclockRange : hour ≤ 23 ∧ minute ≤ 59 ∧ second ≤ 60 := by omega
  simp only [not_or, not_and, Classical.not_not] at hdashes hcolons
  refine ⟨_, ⟨year, month, day, hour, minute, second, offset⟩,
    written_of_bytes (by omega) (hsplit.trans hrest.symm) hdashes.1 hdashes.2.1 hcolons.1 hcolons.2, ?_, ?_⟩
  · exact {
      year := checked_of_number (by omega) hyear
      month := checked_of_number (by omega) hmonth
      day := checked_of_number (by omega) hday
      hour := checked_of_number (by omega) hhour
      minute := checked_of_number (by omega) hminute
      second := checked_of_number (by omega) hsecond
      separator := Decidable.or_iff_not_imp_left.mpr hdashes.2.2
      monthRange := hmonthRange
      dayRange := hdayRange
      clock := hclockRange
      fraction := hfraction
      zone := hzone }
  · rw [Option.some.injEq] at h
    rw [← h, Fields.instant, daysFromCivil_eq hmonthRange (by omega)]

theorem ne_nil_of_parseI64 {bytes : Bytes} {n : Int} (h : parseI64 bytes = some n) : bytes ≠ [] := by
  rintro rfl
  cases h

/-- A field that stands before an ASCII character is read. -/
theorem number_at (before : Bytes) {field after : Bytes} {n : Int} {b : UInt8} (hfield : parseI64 field = some n)
    (hb : b < 0x80) : number (before ++ (field ++ b :: after)) before.length (before.length + field.length) = some n := by
  have hascii := ascii_of_parseI64 hfield
  obtain ⟨first, others, rfl⟩ := List.exists_cons_of_ne_nil (ne_nil_of_parseI64 hfield)
  refine number_eq_some_iff.mpr ⟨by omega, isCharBoundary_of_ascii (by simp) ?_, isCharBoundary_of_ascii (by simp) ?_, ?_⟩
  · simpa using hascii first List.mem_cons_self
  · simpa using hb
  · rw [List.take_length_add_append, List.drop_left, List.take_left]
    exact hfield

theorem eq_of_length_four {bytes : Bytes} (h : bytes.length = 4) : ∃ a b c d, bytes = [a, b, c, d] := by
  match bytes, h with
  | [a, b, c, d], _ => exact ⟨a, b, c, d, rfl⟩

theorem parse_of_checked {text : String} {w : Written} {f : Fields} (hbytes : w.bytes = utf8 text)
    (h : w.Is checked f) : parse text = some f.instant := by
  obtain ⟨year, month, day, separator, hour, minute, second, fraction, zone⟩ := w
  obtain ⟨hyear, hmonth, hday, hhour, hminute, hsecond, hseparator, hmonthRange, hdayRange, hclock, hfraction, hzone⟩ := h
  dsimp only at *
  obtain ⟨y0, y1, y2, y3, rfl⟩ := eq_of_length_four hyear.1
  obtain ⟨o0, o1, rfl⟩ := List.length_eq_two.mp hmonth.1
  obtain ⟨d0, d1, rfl⟩ := List.length_eq_two.mp hday.1
  obtain ⟨h0, h1, rfl⟩ := List.length_eq_two.mp hhour.1
  obtain ⟨m0, m1, rfl⟩ := List.length_eq_two.mp hminute.1
  obtain ⟨s0, s1, rfl⟩ := List.length_eq_two.mp hsecond.1
  have hoffset := skipFraction_eq_some_iff.mpr ⟨fraction, zone, rfl, hfraction, hzone⟩
  obtain ⟨b, more, hrest, hascii⟩ :
      ∃ b more, fraction.elim [] (0x2E :: ·) ++ zone.bytes = b :: more ∧ b < 0x80 := by
    obtain ⟨b, more, hzone, -, -, hascii⟩ := Zone.bytes_eq_cons hzone
    cases fraction with
    | none => exact ⟨b, more, hzone, hascii⟩
    | some digits => exact ⟨0x2E, digits ++ zone.bytes, rfl, by decide⟩
  rw [hrest] at hoffset
  simp only [Written.bytes, hrest, List.cons_append, List.nil_append] at hbytes
  have hseparatorAscii : separator < 0x80 := by
    rcases hseparator with rfl | rfl <;> decide
  generalize hall : y0 :: y1 :: y2 :: y3 :: _ = bytes at hbytes
  have hreadYear : number bytes 0 4 = some f.year := hall ▸ number_at [] hyear.2 (by decide)
  have hreadMonth : number bytes 5 7 = some f.month := hall ▸ number_at [y0, y1, y2, y3, 0x2D] hmonth.2 (by decide)
  have hreadDay : number bytes 8 10 = some f.day :=
    hall ▸ number_at [y0, y1, y2, y3, 0x2D, o0, o1, 0x2D] hday.2 hseparatorAscii
  have hreadHour : number bytes 11 13 = some f.hour :=
    hall ▸ number_at [y0, y1, y2, y3, 0x2D, o0, o1, 0x2D, d0, d1, separator] hhour.2 (by decide)
  have hreadMinute : number bytes 14 16 = some f.minute :=
    hall ▸ number_at [y0, y1, y2, y3, 0x2D, o0, o1, 0x2D, d0, d1, separator, h0, h1, 0x3A] hminute.2 (by decide)
  have hreadSecond : number bytes 17 19 = some f.second :=
    hall ▸ number_at [y0, y1, y2, y3, 0x2D, o0, o1, 0x2D, d0, d1, separator, h0, h1, 0x3A, m0, m1, 0x3A]
      hsecond.2 hascii
  have hslice : slice bytes 19 bytes.length = some (b :: more) := by
    unfold slice
    rw [if_pos ⟨by simp [← hall], hall ▸ isCharBoundary_of_ascii (by simp) hascii, isCharBoundary_length bytes⟩,
      List.take_length, ← hall]
    rfl
  have hbyte4 : bytes.getD 4 0 = 0x2D := hall ▸ rfl
  have hbyte7 : bytes.getD 7 0 = 0x2D := hall ▸ rfl
  have hbyte10 : bytes.getD 10 0 = separator := hall ▸ rfl
  have hbyte13 : bytes.getD 13 0 = 0x3A := hall ▸ rfl
  have hbyte16 : bytes.getD 16 0 = 0x3A := hall ▸ rfl
  unfold parse
  dsimp only
  rw [← hbytes, if_neg (by simp [← hall]), hreadYear, hreadMonth, hreadDay, hreadHour, hreadMinute, hreadSecond]
  simp only [Option.bind_eq_bind, Option.bind_some]
  rw [hbyte4, hbyte7, hbyte10, hbyte13, hbyte16, if_neg (by rcases hseparator with rfl | rfl <;> decide),
    if_neg (by decide), if_neg (by simp only [not_or, Classical.not_not]; exact ⟨hmonthRange, hdayRange⟩),
    if_neg (by omega), hslice, Option.bind_some, ← Option.bind_assoc, hoffset, Option.bind_some, Fields.instant,
    daysFromCivil_eq hmonthRange (by have := hdayRange.1; omega)]

/-- The parser reads a text exactly if its fields pass the checks. -/
theorem parse_eq_some_iff {text : String} {t : SystemTime} :
    parse text = some t ↔ ∃ w f, Written.bytes w = utf8 text ∧ w.Is checked f ∧ t = f.instant :=
  ⟨checked_of_parse, fun ⟨_, _, hbytes, h, ht⟩ => ht ▸ parse_of_checked hbytes h⟩

/-! ## One reading -/

theorem Zone.bytes_inj {zone zone' : Zone} {offset offset' : Int} (h : zone.Is checked offset)
    (h' : zone'.Is checked offset') (heq : zone.bytes = zone'.bytes) : zone = zone' := by
  cases h with
  | utc =>
    cases h' with
    | utc => simpa [Zone.bytes] using heq
    | offset => simp [Zone.bytes] at heq
  | offset hsign hhours =>
    cases h' with
    | utc => simp [Zone.bytes] at heq
    | offset hsign' hhours' =>
      simp only [Zone.bytes, List.cons.injEq] at heq
      obtain ⟨hsame, hmore⟩ := heq
      obtain ⟨hhours, hmore⟩ := List.append_inj hmore (hhours.1.trans hhours'.1.symm)
      simp only [List.cons.injEq] at hmore
      rw [hsame, hhours, hmore.1, hmore.2]

theorem fraction_inj {fraction fraction' : Option Bytes} {zone zone' : Zone} {offset offset' : Int}
    (hfraction : ∀ digits, fraction = some digits → checked.Fraction digits) (h : zone.Is checked offset)
    (hfraction' : ∀ digits, fraction' = some digits → checked.Fraction digits) (h' : zone'.Is checked offset')
    (heq : fraction.elim [] (0x2E :: ·) ++ zone.bytes = fraction'.elim [] (0x2E :: ·) ++ zone'.bytes) :
    fraction = fraction' ∧ zone = zone' := by
  obtain ⟨b, more, hbytes, -, hdot, -⟩ := Zone.bytes_eq_cons h
  obtain ⟨b', more', hbytes', -, hdot', -⟩ := Zone.bytes_eq_cons h'
  cases fraction with
  | none =>
    cases fraction' with
    | none => exact ⟨rfl, Zone.bytes_inj h h' heq⟩
    | some digits' =>
      rw [Option.elim_none, List.nil_append, hbytes, Option.elim_some, List.cons_append, List.cons.injEq] at heq
      exact absurd heq.1 hdot
  | some digits =>
    cases fraction' with
    | none =>
      rw [Option.elim_none, List.nil_append, hbytes', Option.elim_some, List.cons_append, List.cons.injEq] at heq
      exact absurd heq.1.symm hdot'
    | some digits' =>
      rw [Option.elim_some, Option.elim_some, List.cons_append, List.cons_append, List.cons.injEq] at heq
      have hdigits : digits = digits' := by
        rw [← takeWhile_fraction h (hfraction digits rfl), heq.2, takeWhile_fraction h' (hfraction' digits' rfl)]
      subst hdigits
      exact ⟨rfl, Zone.bytes_inj h h' (List.append_cancel_left heq.2)⟩

theorem Zone.offset_unique {zone : Zone} {offset offset' : Int} (h : zone.Is checked offset)
    (h' : zone.Is checked offset') : offset = offset' := by
  cases h with
  | utc => cases h' with | utc => rfl
  | offset _ hhours hminutes =>
    cases h' with
    | offset _ hhours' hminutes' =>
      have hh := Option.some.inj (hhours.2.symm.trans hhours'.2)
      have hm := Option.some.inj (hminutes.2.symm.trans hminutes'.2)
      rw [hh, hm]

theorem number_unique {width : Nat} {field : Bytes} {n n' : Int} (h : checked.Number width field n)
    (h' : checked.Number width field n') : n = n' :=
  Option.some.inj (h.2.symm.trans h'.2)

/-- A text is cut into fields in one way. -/
theorem Written.unique {w w' : Written} {f f' : Fields} (h : w.Is checked f) (h' : w'.Is checked f')
    (heq : w.bytes = w'.bytes) : w = w' ∧ f = f' := by
  have hlength : ∀ {width : Nat} {field field' : Bytes} {n n' : Int}, checked.Number width field n →
      checked.Number width field' n' → field.length = field'.length := fun h h' => h.1.trans h'.1.symm
  simp only [Written.bytes] at heq
  obtain ⟨hyear, heq⟩ := List.append_inj heq (hlength h.year h'.year)
  obtain ⟨hmonth, heq⟩ := List.append_inj (List.cons.inj heq).2 (hlength h.month h'.month)
  obtain ⟨hday, heq⟩ := List.append_inj (List.cons.inj heq).2 (hlength h.day h'.day)
  obtain ⟨hseparator, heq⟩ := List.cons.inj heq
  obtain ⟨hhour, heq⟩ := List.append_inj heq (hlength h.hour h'.hour)
  obtain ⟨hminute, heq⟩ := List.append_inj (List.cons.inj heq).2 (hlength h.minute h'.minute)
  obtain ⟨hsecond, heq⟩ := List.append_inj (List.cons.inj heq).2 (hlength h.second h'.second)
  obtain ⟨hfraction, hzone⟩ := fraction_inj h.fraction h.zone h'.fraction h'.zone heq
  have hw : w = w' := by
    cases w
    cases w'
    simp only [Written.mk.injEq]
    exact ⟨hyear, hmonth, hday, hseparator, hhour, hminute, hsecond, hfraction, hzone⟩
  subst hw
  refine ⟨rfl, ?_⟩
  cases f
  cases f'
  simp only [Fields.mk.injEq]
  exact ⟨number_unique h.year h'.year, number_unique h.month h'.month, number_unique h.day h'.day,
    number_unique h.hour h'.hour, number_unique h.minute h'.minute, number_unique h.second h'.second,
    Zone.offset_unique h.zone h'.zone⟩

/-! ## The parser and RFC 3339 -/

/-- The text is a date-time and `t` the instant it denotes. -/
def Denotes (text : String) (t : SystemTime) : Prop :=
  ∃ w f, Written.bytes w = utf8 text ∧ w.Is documented f ∧ t = f.instant

/-- A text that is no date-time and passes the checks. -/
def Guessed (text : String) : Prop := ∃ w f, Written.bytes w = utf8 text ∧ w.Is checked f ∧ w.Misread f

/-- The parser reads the date-times, as the instants they denote, and nothing else, unless it guesses. -/
theorem parse_iff_denotes (text : String) : (∀ t, parse text = some t ↔ Denotes text t) ↔ ¬ Guessed text := by
  constructor
  · rintro h ⟨w, f, hbytes, hchecked, hmisread⟩
    obtain ⟨w', f', hbytes', hdocumented, -⟩ := (h f.instant).mp (parse_of_checked hbytes hchecked)
    obtain ⟨hchecked', hnot⟩ := (documented_iff w' f').mp hdocumented
    obtain ⟨rfl, rfl⟩ := Written.unique hchecked hchecked' (hbytes.trans hbytes'.symm)
    exact hnot hmisread
  · intro hguess t
    rw [parse_eq_some_iff]
    constructor
    · rintro ⟨w, f, hbytes, hchecked, ht⟩
      exact ⟨w, f, hbytes, (documented_iff w f).mpr ⟨hchecked, fun hm => hguess ⟨w, f, hbytes, hchecked, hm⟩⟩, ht⟩
    · rintro ⟨w, f, hbytes, hdocumented, ht⟩
      exact ⟨w, f, hbytes, ((documented_iff w f).mp hdocumented).1, ht⟩

/-- The thirty-first of February is read as the third of March. -/
theorem thirty_first_of_february :
    parse "2026-02-31T09:00:00Z" = some (.ofSecs 1772528400) ∧
    parse "2026-03-03T09:00:00Z" = some (.ofSecs 1772528400) ∧ ∀ t, ¬ Denotes "2026-02-31T09:00:00Z" t := by
  refine ⟨by decide, by decide, ?_⟩
  rintro t ⟨w, f, hbytes, h, -⟩
  have hread : Written.Is checked
      ⟨[0x32, 0x30, 0x32, 0x36], [0x30, 0x32], [0x33, 0x31], 0x54, [0x30, 0x39], [0x30, 0x30], [0x30, 0x30], none,
        .utc 0x5A⟩ ⟨2026, 2, 31, 9, 0, 0, 0⟩ :=
    ⟨⟨rfl, by decide⟩, ⟨rfl, by decide⟩, ⟨rfl, by decide⟩, ⟨rfl, by decide⟩, ⟨rfl, by decide⟩, ⟨rfl, by decide⟩,
      Or.inl rfl, by decide, by simp [checked], by decide, by simp, .utc (Or.inl rfl)⟩
  obtain ⟨hchecked, hnot⟩ := (documented_iff w f).mp h
  obtain ⟨rfl, rfl⟩ := Written.unique hchecked hread (hbytes.trans (by decide))
  exact hnot (Or.inr (Or.inl (by decide)))

end Beacon.Rfc3339
