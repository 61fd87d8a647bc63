/-
  Beacon.Rfc3339 — `sund_client::rfc3339::parse`, byte for byte.

  The parser slices the text at fixed byte offsets, so it is written over the UTF-8
  bytes, with `str::get`'s refusal to cut a character and `str::parse::<i64>`'s
  optional sign. What it answers is an instant in whole seconds: the year has four
  bytes, so every instant it builds is one the platform can represent.
-/

import Mathlib.Algebra.Group.Int.Defs
import Beacon.Time

namespace Beacon.Rfc3339

abbrev Bytes := List UInt8

def utf8 (text : String) : Bytes := text.toUTF8.data.toList

/-- `str::is_char_boundary`: the end of the text, or a byte that starts a character. -/
def isCharBoundary (bytes : Bytes) (i : Nat) : Bool :=
  match bytes[i]? with
  | none => i == bytes.length
  | some b => b < 0x80 || 0xC0 ≤ b

/-- `text.get(a..b)`. -/
def slice (bytes : Bytes) (a b : Nat) : Option Bytes :=
  if a ≤ b ∧ isCharBoundary bytes a ∧ isCharBoundary bytes b then some ((bytes.take b).drop a) else none

def isDigit (b : UInt8) : Bool := 0x30 ≤ b && b ≤ 0x39

def digitsValue (bytes : Bytes) : Option Int :=
  if bytes.isEmpty then none
  else bytes.foldl (fun acc b => acc.bind fun n => if isDigit b then some (n * 10 + (b.toNat - 0x30 : Nat)) else none)
    (some 0)

/-- `str::parse::<i64>().ok()`: one optional sign, then at least one digit, in range. -/
def parseI64 (bytes : Bytes) : Option Int :=
  let value := match bytes with
    | 0x2B :: rest => digitsValue rest
    | 0x2D :: rest => (digitsValue rest).map (- ·)
    | _ => digitsValue bytes
  value.bind fun n => if -2 ^ 63 ≤ n ∧ n < 2 ^ 63 then some n else none

def number (bytes : Bytes) (a b : Nat) : Option Int := (slice bytes a b).bind parseI64

/-- Days since 1970-01-01 for a proleptic Gregorian date; division truncates, as in the source. -/
def daysFromCivil (year month day : Int) : Int :=
  let year := if month ≤ 2 then year - 1 else year
  let era := (if 0 ≤ year then year else year - 399).tdiv 400
  let yearOfEra := year - era * 400
  let dayOfYear := (153 * (if 2 < month then month - 3 else month + 9) + 2).tdiv 5 + day - 1
  let dayOfEra := yearOfEra * 365 + yearOfEra.tdiv 4 - yearOfEra.tdiv 100 + dayOfYear
  era * 146097 + dayOfEra - 719468

/-- What follows the seconds, after an optional fraction: `Z`, or a signed offset. -/
def offsetSeconds (rest : Bytes) : Option Int :=
  match rest with
  | [] => none
  | b :: _ =>
    if (b = 0x5A ∨ b = 0x7A) ∧ rest.length = 1 then some 0
    else if (b = 0x2B ∨ b = 0x2D) ∧ rest.length = 6 then do
      let hours ← number rest 1 3
      let minutes ← number rest 4 6
      let magnitude := hours * 3600 + minutes * 60
      some (if b = 0x2D then -magnitude else magnitude)
    else none

/-- `.` and the digits after it are skipped. -/
def skipFraction (rest : Bytes) : Option Bytes :=
  match rest with
  | 0x2E :: afterDot => slice afterDot (afterDot.takeWhile isDigit).length afterDot.length
  | _ => some rest

def parse (text : String) : Option SystemTime := do
  let bytes := utf8 text
  if bytes.length < 20 then none else
  let year ← number bytes 0 4
  let month ← number bytes 5 7
  let day ← number bytes 8 10
  let hour ← number bytes 11 13
  let minute ← number bytes 14 16
  let second ← number bytes 17 19
  let byte := fun i => bytes.getD i 0
  if byte 4 ≠ 0x2D ∨ byte 7 ≠ 0x2D ∨ (byte 10 ≠ 0x54 ∧ byte 10 ≠ 0x74) then none else
  if byte 13 ≠ 0x3A ∨ byte 16 ≠ 0x3A then none else
  if ¬(1 ≤ month ∧ month ≤ 12) ∨ ¬(1 ≤ day ∧ day ≤ 31) then none else
  if hour > 23 ∨ minute > 59 ∨ second > 60 then none else
  let rest ← slice bytes 19 bytes.length
  let rest ← skipFraction rest
  let offset ← offsetSeconds rest
  some (.ofSecs (daysFromCivil year month day * 86400 + hour * 3600 + minute * 60 + second - offset))

example : parse "2026-07-24T11:00:00+02:00" = some (.ofSecs 1784883600) := by decide

example : parse "2026-07-24T09:00:00+2:00" = none := by decide

end Beacon.Rfc3339
