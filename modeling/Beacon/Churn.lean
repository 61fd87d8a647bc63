/-
  Beacon.Churn — the churn budget (`beacon_roster::churn`): per signer, the unix
  seconds of the membership events this device has counted.

  The arithmetic is the code's `i64`, wrapping as an optimised build wraps. From 1970
  on nothing wraps (`cutoff_toInt`), and the log then reads as one statement about
  whole seconds: `countSince_record` says what recording an event does to the count
  of one signer's events at or after any instant the window can still reach.
-/

import Mathlib.Algebra.Group.Int.Defs
import Mathlib.Algebra.Group.Nat.Defs
import Mathlib.Data.List.Basic
import Beacon.Time

namespace Beacon

/-- `MAX_MEMBERSHIP_EVENTS_PER_DEVICE_PER_DAY`. -/
def maxMembershipEventsPerDevicePerDay : Nat := 5

/-- `CHURN_WINDOW`, in seconds. -/
def churnWindow : Nat := 24 * 60 * 60

structure ChurnLog where
  events : Std.ExtTreeMap String (List Int64) compare
  deriving DecidableEq

namespace Churn

/-- `i64::try_from(..).unwrap_or(i64::MAX)`. -/
def clampI64 (n : Nat) : Int64 := if n < 2 ^ 63 then Int64.ofNat n else Int64.maxValue

def windowSeconds : Int64 := clampI64 churnWindow

def clampToNow (signedAt now : SystemTime) : SystemTime := if now < signedAt then now else signedAt

def unixSeconds (time : SystemTime) : Int64 :=
  match time.secsSinceEpoch? with
  | some since => clampI64 since
  | none => Int64.minValue

/-- The oldest second still inside the window ending at `now`. -/
def cutoff (now : SystemTime) : Int64 := unixSeconds now - windowSeconds

end Churn

open Churn

namespace ChurnLog

def new : ChurnLog := ⟨∅⟩

def eventsOf (log : ChurnLog) (signer : String) : List Int64 := log.events[signer]?.getD []

def record (log : ChurnLog) (signer : String) (signedAt now : SystemTime) : ChurnLog :=
  let stamp := unixSeconds (clampToNow signedAt now)
  let entry := log.eventsOf signer ++ [stamp]
  ⟨log.events.insert signer (entry.filter fun stamp => cutoff now ≤ stamp)⟩

def countInWindow (log : ChurnLog) (signer : String) (now : SystemTime) : Nat :=
  match log.events[signer]? with
  | none => 0
  | some events => (events.filter fun stamp => cutoff now ≤ stamp).length

def wouldExceed (log : ChurnLog) (signer : String) (now : SystemTime) : Bool :=
  maxMembershipEventsPerDevicePerDay ≤ log.countInWindow signer now

def forget (log : ChurnLog) (signer : String) : ChurnLog := ⟨log.events.erase signer⟩

/-! ## Counting one signer's events -/

/-- How many of `signer`'s events the log holds at or after second `c`. -/
def countSince (log : ChurnLog) (signer : String) (c : Int64) : Nat :=
  (log.eventsOf signer).countP fun stamp => c ≤ stamp

theorem countInWindow_eq (log : ChurnLog) (signer : String) (now : SystemTime) :
    log.countInWindow signer now = log.countSince signer (cutoff now) := by
  unfold countInWindow countSince eventsOf
  cases log.events[signer]? with
  | none => rfl
  | some events => exact List.countP_eq_length_filter.symm

theorem eventsOf_record (log : ChurnLog) (signer other : String) (signedAt now : SystemTime) :
    (log.record signer signedAt now).eventsOf other =
      if signer = other then
        (log.eventsOf signer ++ [unixSeconds (clampToNow signedAt now)]).filter fun stamp => cutoff now ≤ stamp
      else log.eventsOf other := by
  unfold record
  rw [eventsOf, Std.ExtTreeMap.getElem?_insert]
  by_cases h : signer = other
  · subst h; simp
  · simp [h, eventsOf]

/-- Recording an event a second time changes the log exactly if the window still holds the event. -/
theorem record_eq_self_iff {log : ChurnLog} {signer : String} {signedAt now : SystemTime} {events : List Int64}
    (h : log.events[signer]? =
      some ((events ++ [unixSeconds (clampToNow signedAt now)]).filter fun stamp => cutoff now ≤ stamp)) :
    log.record signer signedAt now = log ↔ ¬ cutoff now ≤ unixSeconds (clampToNow signedAt now) := by
  have hrecord : (log.record signer signedAt now).events[signer]? =
      some ((log.eventsOf signer ++ [unixSeconds (clampToNow signedAt now)]).filter fun stamp => cutoff now ≤ stamp) := by
    simp [record]
  have hof : log.eventsOf signer =
      (events ++ [unixSeconds (clampToNow signedAt now)]).filter fun stamp => cutoff now ≤ stamp := by
    rw [eventsOf, h, Option.getD_some]
  constructor
  · intro hsame hin
    rw [hsame, h, hof] at hrecord
    have hlength := congrArg (fun events => (Option.getD events []).length) hrecord
    simp [List.filter_append, hin] at hlength
  · intro hout
    have hevents : (log.record signer signedAt now).events = log.events := by
      apply Std.ExtTreeMap.ext_getElem?
      intro other
      show (log.events.insert signer _)[other]? = _
      rw [Std.ExtTreeMap.getElem?_insert]
      split
      · rename_i heq
        rw [← Std.compare_eq_iff_eq.mp heq, h, hof]
        simp [List.filter_append, hout]
      · rfl
    exact congrArg ChurnLog.mk hevents

theorem forget_eq_self_iff {log : ChurnLog} {signer : String} :
    log.forget signer = log ↔ log.events[signer]? = none := by
  constructor
  · intro h
    rw [← h]
    simp [forget]
  · intro h
    have hevents : (log.forget signer).events = log.events := by
      apply Std.ExtTreeMap.ext_getElem?
      intro other
      show (log.events.erase signer)[other]? = _
      rw [Std.ExtTreeMap.getElem?_erase]
      split
      · rename_i heq
        rw [← Std.compare_eq_iff_eq.mp heq, h]
      · rfl
    exact congrArg ChurnLog.mk hevents

theorem eventsOf_forget (log : ChurnLog) (signer other : String) :
    (log.forget signer).eventsOf other = if signer = other then [] else log.eventsOf other := by
  unfold forget eventsOf
  rw [Std.ExtTreeMap.getElem?_erase]
  by_cases h : signer = other
  · subst h; simp
  · simp [h]

theorem int64_le_trans {a b c : Int64} (h : a ≤ b) (h' : b ≤ c) : a ≤ c := by
  rw [Int64.le_iff_toInt_le] at *; omega

theorem countSince_anti (log : ChurnLog) (signer : String) {c c' : Int64} (h : c ≤ c') :
    log.countSince signer c' ≤ log.countSince signer c :=
  List.countP_mono_left fun _ _ hc => by simp only [decide_eq_true_eq] at *; exact int64_le_trans h hc

/-- Pruning never drops an event a window ending at or after `now` can count. -/
theorem countSince_record (log : ChurnLog) (signer : String) (signedAt now : SystemTime) {c : Int64}
    (hc : cutoff now ≤ c) :
    (log.record signer signedAt now).countSince signer c =
      log.countSince signer c + if c ≤ unixSeconds (clampToNow signedAt now) then 1 else 0 := by
  unfold countSince
  rw [eventsOf_record, if_pos rfl, List.countP_filter, List.countP_congr (q := fun stamp => decide (c ≤ stamp)),
    List.countP_append, List.countP_singleton]
  · simp
  · intro stamp _
    simp only [Bool.and_eq_true, decide_eq_true_eq]
    exact ⟨And.left, fun h => ⟨h, int64_le_trans hc h⟩⟩

theorem countSince_record_ne (log : ChurnLog) {signer other : String} (h : signer ≠ other)
    (signedAt now : SystemTime) (c : Int64) :
    (log.record signer signedAt now).countSince other c = log.countSince other c := by
  rw [countSince, eventsOf_record, if_neg h, countSince]

theorem countSince_forget_ne (log : ChurnLog) {signer other : String} (h : signer ≠ other) (c : Int64) :
    (log.forget signer).countSince other c = log.countSince other c := by
  rw [countSince, eventsOf_forget, if_neg h, countSince]

end ChurnLog

/-! ## From 1970 on nothing wraps -/

namespace Churn

open SystemTime

theorem toInt_clampI64 (n : Nat) : (clampI64 n).toInt = min (n : Int) (2 ^ 63 - 1) := by
  unfold clampI64
  split
  · rename_i h
    rw [Int64.toInt_ofNat_of_lt h]; omega
  · rw [Int64.toInt_maxValue]; omega

theorem toInt_unixSeconds {t : SystemTime} (h : unixEpoch ≤ t) :
    (unixSeconds t).toInt = min t.secs (2 ^ 63 - 1) := by
  have hn : 0 ≤ t.nanos := h
  have hs := secs_nonneg h
  rw [unixSeconds, secsSinceEpoch?, if_pos hn]
  simp only [toInt_clampI64]
  omega

theorem unixSeconds_neg {t : SystemTime} (h : ¬ unixEpoch ≤ t) : unixSeconds t = Int64.minValue := by
  have hn : ¬ 0 ≤ t.nanos := h
  rw [unixSeconds, secsSinceEpoch?, if_neg hn]

theorem unixSeconds_mono {a b : SystemTime} (h : a ≤ b) : unixSeconds a ≤ unixSeconds b := by
  by_cases ha : unixEpoch ≤ a
  · have hb : unixEpoch ≤ b := Int.le_trans (le_iff.mp ha) (le_iff.mp h)
    have := secs_mono h
    rw [Int64.le_iff_toInt_le, toInt_unixSeconds ha, toInt_unixSeconds hb]; omega
  · rw [unixSeconds_neg ha, Int64.le_iff_toInt_le]
    exact Int64.le_toInt _

theorem cutoff_toInt {now : SystemTime} (h : unixEpoch ≤ now) :
    (cutoff now).toInt = (unixSeconds now).toInt - churnWindow := by
  have hs := secs_nonneg h
  have hw : windowSeconds.toInt = churnWindow := by decide
  have hu := toInt_unixSeconds h
  rw [cutoff, Int64.toInt_sub, hw, Int.bmod_eq_of_le] <;> simp only [churnWindow] <;> omega

theorem cutoff_mono {a b : SystemTime} (ha : unixEpoch ≤ a) (h : a ≤ b) : cutoff a ≤ cutoff b := by
  have hb : unixEpoch ≤ b := Int.le_trans (le_iff.mp ha) (le_iff.mp h)
  have := unixSeconds_mono h
  rw [Int64.le_iff_toInt_le] at this ⊢
  rw [cutoff_toInt ha, cutoff_toInt hb]; omega

/-- The window ending at `now` reaches back to every instant at most a day before it. -/
theorem cutoff_le_of_within {now start : SystemTime} (hs : unixEpoch ≤ start) (hn : unixEpoch ≤ now)
    (h : now ≤ start.addSecs churnWindow) : cutoff now ≤ unixSeconds start := by
  have h1 := secs_mono h
  rw [secs_addSecs] at h1
  have := secs_nonneg hn
  rw [Int64.le_iff_toInt_le, cutoff_toInt hn, toInt_unixSeconds hn, toInt_unixSeconds hs]
  simp only [churnWindow] at *
  omega

end Churn

end Beacon
