/-
  Beacon.Churn.Clock — the churn budget on whatever clock the device has.

  The window is subtracted from an `i64`, and a clock before 1970 reads as the smallest
  one. A build with overflow checks panics there; `record?`, `countInWindow?` and
  `wouldExceed?` are the log as that build runs it, and an optimised build wraps as in
  `Beacon.Churn`. Before 1970 neither is right: the one stops, the other looks for events in
  a window at the far end of time and finds none (`never_exceeds_before_1970`).

  `survives_clock_iff`: the log computes without overflow and counts what lies in its
  window exactly if the clock is not before 1970, and no more is the event's timestamp.
-/

import Beacon.Churn
import Beacon.Lib.Trace

namespace Beacon

open Lib Churn

namespace Churn

/-- `i64` subtraction with overflow checked; `none` is the panic. -/
def checkedSub (a b : Int64) : Option Int64 :=
  if Int64.minValue.toInt ≤ a.toInt - b.toInt ∧ a.toInt - b.toInt ≤ Int64.maxValue.toInt then some (a - b) else none

def cutoff? (now : SystemTime) : Option Int64 := checkedSub (unixSeconds now) windowSeconds

/-- The timestamp the log goes by is at most a day old. -/
def WithinWindow (signedAt now : SystemTime) : Prop := now ≤ (clampToNow signedAt now).addSecs churnWindow

instance (signedAt now : SystemTime) : Decidable (WithinWindow signedAt now) :=
  inferInstanceAs (Decidable (now ≤ (clampToNow signedAt now).addSecs churnWindow))

open SystemTime

theorem cutoff?_of_epoch {now : SystemTime} (h : unixEpoch ≤ now) : cutoff? now = some (cutoff now) := by
  have hu := toInt_unixSeconds h
  have hs := secs_nonneg h
  have hw : windowSeconds.toInt = churnWindow := by decide
  unfold cutoff? checkedSub
  rw [if_pos]
  · rfl
  · rw [hw, Int64.toInt_minValue, Int64.toInt_maxValue, hu]
    simp only [churnWindow]
    omega

/-- There is nothing below the smallest `i64` to subtract down to. -/
theorem cutoff?_before_epoch {now : SystemTime} (h : ¬ unixEpoch ≤ now) : cutoff? now = none := by
  unfold cutoff? checkedSub
  rw [unixSeconds_neg h]
  exact if_neg (by decide)

/-- Wrapped, the window begins a day short of the largest `i64`. -/
theorem cutoff_before_epoch {now : SystemTime} (h : ¬ unixEpoch ≤ now) :
    cutoff now = Int64.maxValue - windowSeconds + 1 := by
  rw [cutoff, unixSeconds_neg h]
  decide

theorem clampToNow_le (signedAt now : SystemTime) : clampToNow signedAt now ≤ now := by
  unfold clampToNow
  split
  · exact Int.le_refl _
  · rename_i h
    exact Int.not_lt.mp h

theorem clampToNow_epoch {signedAt now : SystemTime} (h : unixEpoch ≤ now) :
    unixEpoch ≤ clampToNow signedAt now ↔ unixEpoch ≤ signedAt := by
  unfold clampToNow
  split
  · rename_i hlate
    have hnow : now.nanos ≤ signedAt.nanos := Int.le_of_lt hlate
    exact ⟨fun _ => Int.le_trans h hnow, fun _ => h⟩
  · exact Iff.rfl

end Churn

namespace ChurnLog

open SystemTime

/-! ## With overflow checked -/

def record? (log : ChurnLog) (signer : String) (signedAt now : SystemTime) : Option ChurnLog := do
  let stamp := Churn.unixSeconds (clampToNow signedAt now)
  let entry := log.eventsOf signer ++ [stamp]
  let cutoff ← cutoff? now
  return ⟨log.events.insert signer (entry.filter fun stamp => cutoff ≤ stamp)⟩

def countInWindow? (log : ChurnLog) (signer : String) (now : SystemTime) : Option Nat := do
  let cutoff ← cutoff? now
  match log.events[signer]? with
  | none => return 0
  | some events => return (events.filter fun stamp => cutoff ≤ stamp).length

def wouldExceed? (log : ChurnLog) (signer : String) (now : SystemTime) : Option Bool := do
  let count ← log.countInWindow? signer now
  return maxMembershipEventsPerDevicePerDay ≤ count

/-- What the log owes to every clock. -/
structure SurvivesClock (signedAt now : SystemTime) : Prop where
  record : ∀ log signer, record? log signer signedAt now = some (log.record signer signedAt now)
  countInWindow : ∀ log signer, countInWindow? log signer now = some (log.countInWindow signer now)
  wouldExceed : ∀ log signer, wouldExceed? log signer now = some (log.wouldExceed signer now)
  counted : WithinWindow signedAt now → ∀ log signer,
    (ChurnLog.record log signer signedAt now).countInWindow signer now = log.countInWindow signer now + 1

theorem countInWindow?_of_epoch {now : SystemTime} (h : unixEpoch ≤ now) (log : ChurnLog) (signer : String) :
    log.countInWindow? signer now = some (log.countInWindow signer now) := by
  unfold countInWindow? countInWindow
  rw [cutoff?_of_epoch h]
  cases log.events[signer]? with
  | none => rfl
  | some events => rfl

/-- An event is counted at the time it is recorded exactly if it is stamped no earlier than the window begins. -/
theorem countInWindow_record (log : ChurnLog) (signer : String) (signedAt now : SystemTime) :
    (log.record signer signedAt now).countInWindow signer now =
      log.countInWindow signer now + if cutoff now ≤ Churn.unixSeconds (clampToNow signedAt now) then 1 else 0 := by
  rw [countInWindow_eq, countInWindow_eq, countSince_record log signer signedAt now (Int64.le_refl _)]

theorem survives_clock_iff (signedAt now : SystemTime) :
    SurvivesClock signedAt now ↔ unixEpoch ≤ now ∧ (WithinWindow signedAt now → unixEpoch ≤ signedAt) := by
  constructor
  · intro h
    have hnow : unixEpoch ≤ now := by
      by_contra hbefore
      have hcount := h.countInWindow .new ""
      rw [countInWindow?, cutoff?_before_epoch hbefore] at hcount
      cases hcount
    refine ⟨hnow, fun hwithin => ?_⟩
    by_contra hbefore
    rw [← clampToNow_epoch hnow] at hbefore
    -- such an event is stamped with the smallest `i64`, and no window reaches back to that
    have hold : ¬ cutoff now ≤ Churn.unixSeconds (clampToNow signedAt now) := by
      have hs := secs_nonneg hnow
      rw [unixSeconds_neg hbefore, Int64.le_iff_toInt_le, cutoff_toInt hnow, toInt_unixSeconds hnow,
        Int64.toInt_minValue]
      simp only [churnWindow]
      omega
    have hcounted := h.counted hwithin .new ""
    rw [countInWindow_record, if_neg hold] at hcounted
    omega
  · intro h
    obtain ⟨hnow, hsigned⟩ := h
    have hcount := countInWindow?_of_epoch hnow
    refine ⟨fun log signer => ?_, hcount, fun log signer => ?_, fun hwithin log signer => ?_⟩
    · rw [record?, cutoff?_of_epoch hnow]
      rfl
    · rw [wouldExceed?, hcount]
      rfl
    · have hstamp := cutoff_le_of_within ((clampToNow_epoch hnow).mpr (hsigned hwithin)) hnow hwithin
      rw [countInWindow_record, if_pos hstamp]

/-- On a clock before 1970 an event is stamped far from the window, wherever it is dated. -/
theorem uncounted_before_1970 {now : SystemTime} (h : ¬ unixEpoch ≤ now) (log : ChurnLog) (signer : String)
    (signedAt : SystemTime) :
    (log.record signer signedAt now).countInWindow signer now = log.countInWindow signer now := by
  have hclamped : ¬ unixEpoch ≤ clampToNow signedAt now := fun hc => h (Int.le_trans hc (clampToNow_le signedAt now))
  have hfar : ¬ cutoff now ≤ Churn.unixSeconds (clampToNow signedAt now) := by
    rw [cutoff_before_epoch h, unixSeconds_neg hclamped]
    decide
  rw [countInWindow_record, if_neg hfar, Nat.add_zero]

/-- The budget is off: however many events a device signs, it is never over. -/
theorem never_exceeds_before_1970 {now : SystemTime} (h : ¬ unixEpoch ≤ now) (signer : String)
    (signed : List SystemTime) :
    (Trace.run (fun log signedAt => log.record signer signedAt now) new signed).wouldExceed signer now = false := by
  have hnone : (Trace.run (fun log signedAt => log.record signer signedAt now) new signed).countInWindow signer now =
      0 := by
    refine Trace.inv_run (P := fun _ _ => True) (Q := fun log : ChurnLog => log.countInWindow signer now = 0) ?_ ?_
      (Trace.eachStep_true _ _)
    · intro log signedAt _ hlog
      rw [uncounted_before_1970 h, hlog]
    · simp [countInWindow, new]
  rw [wouldExceed, hnone]
  rfl

theorem new_years_eve_of_1969 :
    ¬ SurvivesClock (.ofSecs (-1)) (.ofSecs (-1)) ∧
    record? new "dev_A" (.ofSecs (-1)) (.ofSecs (-1)) = none ∧
    WithinWindow (.ofSecs (-1)) (.ofSecs (-1)) ∧
    (record new "dev_A" (.ofSecs (-1)) (.ofSecs (-1))).countInWindow "dev_A" (.ofSecs (-1)) = 0 := by
  have hbefore : ¬ unixEpoch ≤ .ofSecs (-1) := by decide
  have hpanic : record? new "dev_A" (.ofSecs (-1)) (.ofSecs (-1)) = none := by
    rw [record?, cutoff?_before_epoch hbefore]
    rfl
  refine ⟨fun h => ?_, hpanic, by decide, ?_⟩
  · have hrecord := h.record new "dev_A"
    rw [hpanic] at hrecord
    cases hrecord
  · rw [uncounted_before_1970 hbefore]
    simp [countInWindow, new]

end ChurnLog

end Beacon
