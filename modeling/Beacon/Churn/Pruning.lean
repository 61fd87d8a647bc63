/-
  Beacon.Churn.Pruning — what the log drops of its own accord.

  Recording an event prunes its signer's: what the window ending now has left behind goes.
  `recordAll` is `record` without that, a log that grows without bound. Fed the same calls,
  the two agree about every second the window can still reach (`Agree`), for a clock from
  1970 on no later than the one that asks. That it never ran backwards in between is not
  needed: a call prunes by its own reading, and every reading is behind the query's.
-/

import Beacon.Churn
import Beacon.Lib.Trace

namespace Beacon

open Lib Churn

namespace ChurnLog

open SystemTime

/-- `record`, keeping every event. -/
def recordAll (log : ChurnLog) (signer : String) (signedAt now : SystemTime) : ChurnLog :=
  ⟨log.events.insert signer (log.eventsOf signer ++ [Churn.unixSeconds (clampToNow signedAt now)])⟩

inductive Call
  | record (signer : String) (signedAt now : SystemTime)
  | forget (signer : String)
  deriving DecidableEq

/-- The clock a call reads; forgetting reads none. -/
def Call.now? : Call → Option SystemTime
  | .record _ _ now => some now
  | .forget _ => none

def call (log : ChurnLog) : Call → ChurnLog
  | .record signer signedAt now => log.record signer signedAt now
  | .forget signer => log.forget signer

def callAll (log : ChurnLog) : Call → ChurnLog
  | .record signer signedAt now => log.recordAll signer signedAt now
  | .forget signer => log.forget signer

/-- The pruned log and the one that keeps everything count alike from second `c` on. -/
def Agree (c : Int64) (log all : ChurnLog) : Prop := ∀ signer, log.countSince signer c = all.countSince signer c

theorem eventsOf_recordAll (log : ChurnLog) (signer other : String) (signedAt now : SystemTime) :
    (log.recordAll signer signedAt now).eventsOf other =
      if signer = other then log.eventsOf signer ++ [Churn.unixSeconds (clampToNow signedAt now)]
      else log.eventsOf other := by
  unfold recordAll
  rw [eventsOf, Std.ExtTreeMap.getElem?_insert]
  by_cases h : signer = other
  · subst h; simp
  · simp [h, eventsOf]

theorem countSince_recordAll (log : ChurnLog) (signer : String) (signedAt now : SystemTime) (c : Int64) :
    (log.recordAll signer signedAt now).countSince signer c =
      log.countSince signer c + if c ≤ Churn.unixSeconds (clampToNow signedAt now) then 1 else 0 := by
  unfold countSince
  rw [eventsOf_recordAll, if_pos rfl, List.countP_append, List.countP_singleton]
  simp

theorem countSince_recordAll_ne (log : ChurnLog) {signer other : String} (h : signer ≠ other)
    (signedAt now : SystemTime) (c : Int64) :
    (log.recordAll signer signedAt now).countSince other c = log.countSince other c := by
  rw [countSince, eventsOf_recordAll, if_neg h, countSince]

theorem countSince_forget_self (log : ChurnLog) (signer : String) (c : Int64) :
    (log.forget signer).countSince signer c = 0 := by
  rw [countSince, eventsOf_forget, if_pos rfl, List.countP_nil]

/-- Pruning by a clock drops nothing a window that begins no earlier can count. -/
theorem agree_call {c : Int64} {log all : ChurnLog} {e : Call} (hclock : ∀ now, e.now? = some now → cutoff now ≤ c)
    (h : Agree c log all) : Agree c (log.call e) (all.callAll e) := by
  intro other
  cases e with
  | record signer signedAt now =>
    show (log.record signer signedAt now).countSince other c = (all.recordAll signer signedAt now).countSince other c
    by_cases hsame : signer = other
    · subst hsame
      rw [countSince_record log signer signedAt now (hclock now rfl), countSince_recordAll, h signer]
    · rw [countSince_record_ne log hsame, countSince_recordAll_ne all hsame, h other]
  | forget signer =>
    show (log.forget signer).countSince other c = (all.forget signer).countSince other c
    by_cases hsame : signer = other
    · subst hsame
      rw [countSince_forget_self, countSince_forget_self]
    · rw [countSince_forget_ne log hsame, countSince_forget_ne all hsame, h other]

theorem agree_run {c : Int64} {calls : List Call}
    (hclock : ∀ e ∈ calls, ∀ now, e.now? = some now → cutoff now ≤ c) :
    Agree c (Trace.run call new calls) (Trace.run callAll new calls) := by
  have hstep : ∀ log all (e : Call), (∀ now, e.now? = some now → cutoff now ≤ c) → Agree c log all →
      Agree c (call log e) (callAll all e) := fun _ _ _ he h => agree_call he h
  exact Trace.sim_run hstep (fun _ => rfl) hclock

/-- Whatever was recorded and forgotten, nobody who asks at or after the last reading can
    tell the pruned log from one that keeps every event. -/
theorem pruning_invisible (calls : List Call) (query : SystemTime)
    (hclock : ∀ e ∈ calls, ∀ now, e.now? = some now → unixEpoch ≤ now ∧ now ≤ query) (signer : String) :
    (Trace.run call new calls).countInWindow signer query =
      (Trace.run callAll new calls).countInWindow signer query ∧
    (Trace.run call new calls).wouldExceed signer query =
      (Trace.run callAll new calls).wouldExceed signer query := by
  have hagree := agree_run fun e he now hnow => cutoff_mono (hclock e he now hnow).1 (hclock e he now hnow).2
  have hcount : (Trace.run call new calls).countInWindow signer query =
      (Trace.run callAll new calls).countInWindow signer query := by
    rw [countInWindow_eq, countInWindow_eq, hagree signer]
  exact ⟨hcount, by rw [wouldExceed, wouldExceed, hcount]⟩

/-- One event from before 1970, one dated ahead of the clock and one a day later, which prunes both. -/
theorem two_days_on :
    (Trace.run call new [.record "dev_A" (.ofSecs (-1)) (.ofSecs 0), .record "dev_A" (.ofSecs 500) (.ofSecs 100),
        .record "dev_A" (.ofSecs 90000) (.ofSecs 90000)]).countInWindow "dev_A" (.ofSecs 172800) =
      (Trace.run callAll new [.record "dev_A" (.ofSecs (-1)) (.ofSecs 0), .record "dev_A" (.ofSecs 500) (.ofSecs 100),
        .record "dev_A" (.ofSecs 90000) (.ofSecs 90000)]).countInWindow "dev_A" (.ofSecs 172800) ∧
    (Trace.run call new [.record "dev_A" (.ofSecs (-1)) (.ofSecs 0), .record "dev_A" (.ofSecs 500) (.ofSecs 100),
        .record "dev_A" (.ofSecs 90000) (.ofSecs 90000)]).wouldExceed "dev_A" (.ofSecs 172800) =
      (Trace.run callAll new [.record "dev_A" (.ofSecs (-1)) (.ofSecs 0), .record "dev_A" (.ofSecs 500) (.ofSecs 100),
        .record "dev_A" (.ofSecs 90000) (.ofSecs 90000)]).wouldExceed "dev_A" (.ofSecs 172800) :=
  pruning_invisible _ _ (by simp [Call.now?]; decide) "dev_A"

end ChurnLog

end Beacon
