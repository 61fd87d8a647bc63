/-
  Beacon.Time — `std::time` as the core uses it: an instant is a count of
  nanoseconds from the Unix epoch, negative before it.

  The layers below read the clock as whole seconds in two ways, kept apart here as in
  the code: `Beacon.Churn` as an `i64` that turns an instant before 1970 into the
  minimum, `Beacon.Outbox` as a `u64` that turns it into zero.
-/

import Mathlib.Order.Defs.LinearOrder

namespace Beacon

def nanosPerSec : Int := 1000000000

structure SystemTime where
  nanos : Int
  deriving DecidableEq, Repr

namespace SystemTime

instance : LE SystemTime := ⟨fun a b => a.nanos ≤ b.nanos⟩
instance : LT SystemTime := ⟨fun a b => a.nanos < b.nanos⟩
instance (a b : SystemTime) : Decidable (a ≤ b) := inferInstanceAs (Decidable (a.nanos ≤ b.nanos))
instance (a b : SystemTime) : Decidable (a < b) := inferInstanceAs (Decidable (a.nanos < b.nanos))

theorem le_iff {a b : SystemTime} : a ≤ b ↔ a.nanos ≤ b.nanos := Iff.rfl

def unixEpoch : SystemTime := ⟨0⟩

/-- The instant `s` seconds after the epoch, or before it where `s` is negative. -/
def ofSecs (s : Int) : SystemTime := ⟨s * nanosPerSec⟩

/-- Whole seconds since the epoch, rounded down. -/
def secs (t : SystemTime) : Int := t.nanos / nanosPerSec

/-- `duration_since(UNIX_EPOCH)`, in whole seconds; an error before the epoch. -/
def secsSinceEpoch? (t : SystemTime) : Option Nat := if 0 ≤ t.nanos then some t.secs.toNat else none

theorem secs_mono {a b : SystemTime} (h : a ≤ b) : a.secs ≤ b.secs :=
  Int.ediv_le_ediv (by decide) h

theorem secs_nonneg {t : SystemTime} (h : unixEpoch ≤ t) : 0 ≤ t.secs :=
  Int.ediv_nonneg h (by decide)

/-- The instant `s` seconds later. -/
def addSecs (t : SystemTime) (s : Int) : SystemTime := ⟨t.nanos + s * nanosPerSec⟩

theorem secs_addSecs (t : SystemTime) (s : Int) : (t.addSecs s).secs = t.secs + s :=
  Int.add_mul_ediv_right t.nanos s (by decide)

/-- `unix_seconds` of the outbox: whole seconds, and zero before the epoch. -/
def unixSeconds (t : SystemTime) : Nat := t.secsSinceEpoch?.getD 0

theorem unixSeconds_mono {a b : SystemTime} (h : a ≤ b) : a.unixSeconds ≤ b.unixSeconds := by
  have hsecs := secs_mono h
  have hab : a.nanos ≤ b.nanos := h
  unfold unixSeconds secsSinceEpoch?
  by_cases ha : 0 ≤ a.nanos
  · rw [if_pos ha, if_pos (by omega)]
    simp only [Option.getD_some]
    omega
  · rw [if_neg ha]
    exact Nat.zero_le _

end SystemTime

/-- `std::time::Duration`. -/
structure Duration where
  nanos : Nat
  deriving DecidableEq, Repr

namespace Duration

def fromSecs (s : Nat) : Duration := ⟨s * 1000000000⟩

def asSecs (d : Duration) : Nat := d.nanos / 1000000000

end Duration

end Beacon
