/-
  Beacon.Roster.Budget — the churn budget over whole runs.

  - `admissions_within_budget`: on a clock that never runs backwards and reads 1970 or
    later, a day of it admits at most five vouches that one introducer signed within
    that day. A future-dated vouch counts where it was received, an unreadable date
    likewise; removals, syncs and restarts give nothing back.
  - `backdated_unbounded`: vouches dated before the day are not counted in it, so they
    are admitted past the budget.
  What carries the bound is `counted_step`: the log counts each admission, and loses a
  signer's events only by burying the signer, whose vouches are refused from then on.
-/

import Mathlib.Data.List.Induction
import Beacon.Roster.Effects

namespace Beacon

open Lib Churn

namespace Roster

/-! ## The clock and the admissions of a run -/

/-- The local clock an operation reads. -/
def Op.now? {C : Crypto} : Op C → Option SystemTime
  | .receiveIntroduce _ _ now => some now
  | .receiveRemove _ _ now => some now
  | .remove _ _ _ _ now => some now
  | _ => none

variable (C : Crypto)

/-- A vouch that ended `Admitted`: the clock at that moment, and the instant it counts at. -/
structure AdmittedAt where
  now : SystemTime
  signedAt : SystemTime
  deriving DecidableEq, Repr

def admittedBy (introducer : String) (r : Roster) : Op C → List AdmittedAt
  | .receiveIntroduce message sender now =>
    if sender = introducer ∧ (r.receiveIntroduce C message sender now).2.outcome = .admitted then
      [⟨now, clampToNow (timestampOr message.subject.joinedAt now) now⟩]
    else []
  | _ => []

/-- Every vouch of `introducer` that the run admits, in order. -/
def admissions (introducer : String) (r : Roster) : List (Op C) → List AdmittedAt
  | [] => []
  | op :: ops => admittedBy C introducer r op ++ admissions introducer (step C r op) ops

/-- Signed, and admitted, within the day that begins at `start`. -/
def AdmittedAt.within (start : SystemTime) (a : AdmittedAt) : Bool :=
  start ≤ a.signedAt && a.now ≤ start.addSecs churnWindow

theorem admissions_snoc (introducer : String) (r : Roster) (ops : List (Op C)) (op : Op C) :
    admissions C introducer r (ops ++ [op]) =
      admissions C introducer r ops ++ admittedBy C introducer (run C r ops) op := by
  induction ops generalizing r with
  | nil => simp [admissions]
  | cons o ops ih => simp [admissions, ih, run]

/-! ## What the log keeps -/

/-- Buried and not active: nothing this device signs is admitted again. -/
def Out (r : Roster) (signer : String) : Prop := r.tombstones.contains signer = true ∧ r.isActive signer = false

theorem Out.step {r : Roster} {signer : String} (h : Out r signer) (op : Op C) : Out (step C r op) signer := by
  have hv := step_view C r op
  refine ⟨hv.buried h.1, ?_⟩
  have := hv.stays_out (d := signer) h.1 (by simp [h.2])
  simpa using this

/-- A quiet step after which the log still counts every event of `signer` from second
    `c` on, unless the signer is out. -/
structure Counts (signer : String) (c : Int64) (r r' : Roster) : Prop where
  quiet : Quiet r r'
  counted : Out r' signer ∨ r.churn.countSince signer c ≤ r'.churn.countSince signer c

section Counts

variable {signer : String} {c : Int64}

theorem Counts.refl (r : Roster) : Counts signer c r r := ⟨.refl r, Or.inr (Nat.le_refl _)⟩

theorem Counts.trans {r s t : Roster} (h : Counts signer c r s) (h' : Counts signer c s t) : Counts signer c r t := by
  refine ⟨h.quiet.trans h'.quiet, ?_⟩
  rcases h.counted with hout | hle
  · left
    refine ⟨h'.quiet.view.buried hout.1, ?_⟩
    by_contra ha
    exact absurd (h'.quiet.view.active (Bool.not_eq_false _ ▸ ha)) (by simp [hout.2])
  · exact h'.counted.imp id fun hle' => hle.trans hle'

theorem counts_of_churn_eq {r r' : Roster} (hq : Quiet r r') (h : r'.churn = r.churn) : Counts signer c r r' :=
  ⟨hq, Or.inr (by rw [h])⟩

theorem counts_chargeRemoval (r : Roster) (remover subject removedAt : String) {now : SystemTime}
    (hc : cutoff now ≤ c) : Counts signer c r (r.chargeRemoval remover subject removedAt now) := by
  refine ⟨quiet_chargeRemoval r remover subject removedAt now, Or.inr ?_⟩
  unfold chargeRemoval
  split
  · by_cases h : remover = signer
    · subst h
      show _ ≤ (r.churn.record remover _ now).countSince remover c
      rw [ChurnLog.countSince_record _ _ _ _ hc]; omega
    · exact Nat.le_of_eq (ChurnLog.countSince_record_ne _ h _ _ _).symm
  · exact Nat.le_refl _

theorem counts_applyTombstone (r : Roster) (subject : String) (reason : RemovalReason) (removedAt removedBy : String)
    (epoch : UInt64) : Counts signer c r (r.applyTombstone subject reason removedAt removedBy epoch).1 := by
  refine ⟨quiet_applyTombstone r subject reason removedAt removedBy epoch, ?_⟩
  by_cases h : subject = signer
  · -- forgotten and buried at once
    left
    exact ⟨by rw [contains_applyTombstone]; simp [h], by rw [isActive_applyTombstone]; simp [h]⟩
  · exact Or.inr (Nat.le_of_eq (ChurnLog.countSince_forget_ne _ h _).symm)

theorem counts_receiveRemove (r : Roster) (message : RosterRemove) (remover : String) {now : SystemTime}
    (hc : cutoff now ≤ c) : Counts signer c r (r.receiveRemove C message remover now).1 := by
  have hcases := receiveRemove_cases C r message remover now
  generalize r.receiveRemove C message remover now = after at hcases ⊢
  have hcharge : Counts signer c r _ := counts_chargeRemoval r remover message.subject message.removedAt hc
  cases hcases with
  | refused _ _ _ _ => exact .refl r
  | aboutSelf _ => exact counts_of_churn_eq (quiet_bookkeeping r _ r.churn _) rfl
  | alreadyRemoved _ _ => exact hcharge
  | applied _ _ => exact hcharge.trans (counts_applyTombstone _ _ _ _ _ _)

theorem counts_remove (r : Roster) (subject : String) (reason : RemovalReason) (removedAt : String)
    (identity : C.IdentityKey) {now : SystemTime} (hc : cutoff now ≤ c) :
    Counts signer c r (r.remove C subject reason removedAt identity now).1 := by
  have hcases := remove_cases C r subject reason removedAt identity now
  generalize r.remove C subject reason removedAt identity now = after at hcases ⊢
  cases hcases with
  | refused _ => exact .refl r
  | applied _ _ _ =>
    exact (counts_chargeRemoval r r.selfId subject removedAt hc).trans (counts_applyTombstone _ _ _ _ _ _)

theorem counts_mergeReported (message : RosterSync) (sender : String) (s : Merge) (reported : SyncDevice) :
    Counts signer c s.roster (mergeReported message sender s reported).roster := by
  have hcases := mergeReported_cases message sender s reported
  generalize mergeReported message sender s reported = after at hcases ⊢
  cases hcases with
  | ignored _ _ _ _ => exact .refl _
  | noted _ _ _ => exact counts_of_churn_eq (quiet_bookkeeping s.roster s.roster.epoch s.roster.churn _) rfl
  | buried _ _ _ _ => exact counts_applyTombstone _ _ _ _ _ _

theorem counts_receiveSync (r : Roster) (message : RosterSync) (sender : String) :
    Counts signer c r (r.receiveSync C message sender).1 := by
  have hmerge : Counts signer c r (r.mergeDevices message sender).roster :=
    Trace.rel_run (R := fun s t => Counts signer c (Merge.roster s) (Merge.roster t)) (fun _ => .refl _)
      (fun _ _ _ => Counts.trans) (fun s b _ => counts_mergeReported message sender s b)
      (Trace.eachStep_true ⟨r, [], [], 0⟩ message.devices)
  have hcases := receiveSync_cases C r message sender
  generalize r.receiveSync C message sender = after at hcases ⊢
  cases hcases with
  | unmerged _ _ => exact .refl r
  | merged _ => exact hmerge.trans (counts_of_churn_eq (quiet_bookkeeping _ _ _ _) rfl)

end Counts

theorem churn_reconcileServerList (r : Roster) (listed : List ServerDevice) :
    (r.reconcileServerList listed).1.churn = r.churn := by
  rw [reconcileServerList_eq]

/-- Every admission of `introducer` is in the log, where a window can still reach it. -/
theorem counted_step (introducer : String) {c : Int64} (r : Roster) (op : Op C)
    (hc : ∀ now, op.now? = some now → cutoff now ≤ c) :
    Out (step C r op) introducer ∨
    r.churn.countSince introducer c + (admittedBy C introducer r op).countP (fun a => c ≤ unixSeconds a.signedAt) ≤
      (step C r op).churn.countSince introducer c := by
  cases op with
  | receiveIntroduce message sender now =>
    right
    show _ ≤ (r.receiveIntroduce C message sender now).1.churn.countSince introducer c
    have hcases := receiveIntroduce_cases C r message sender now
    simp only [admittedBy]
    generalize r.receiveIntroduce C message sender now = after at hcases ⊢
    cases hcases with
    | refused refusal _ => simp [refuseVouch]
    | alreadyKnown _ _ => simp
    | held _ _ _ => simp
    | admitted _ _ _ =>
      show _ ≤ (r.churn.record sender _ now).countSince introducer c
      by_cases h : sender = introducer
      · subst h
        rw [if_pos ⟨rfl, rfl⟩, ChurnLog.countSince_record _ _ _ _ (hc now rfl), List.countP_singleton]
        simp
      · rw [if_neg (fun hand => h hand.1), ChurnLog.countSince_record_ne _ h]
        simp
  | receiveRemove message remover now => exact (counts_receiveRemove C r message remover (hc now rfl)).counted
  | remove subject reason removedAt identity now =>
    exact (counts_remove C r subject reason removedAt identity (hc now rfl)).counted
  | receiveSync message sender => exact (counts_receiveSync C r message sender).counted
  | approveHeld s =>
    have hsame : (r.approveHeld s).1.churn = r.churn := by
      have hcases := approveHeld_cases r s
      generalize r.approveHeld s = after at hcases ⊢
      cases hcases <;> rfl
    exact Or.inr (Nat.le_of_eq (by show _ = (r.approveHeld s).1.churn.countSince _ _; rw [hsame]; rfl))
  | denyHeld s =>
    exact Or.inr (Nat.le_of_eq (by show _ = (r.denyHeld s).1.churn.countSince _ _; rw [denyHeld_eq]; rfl))
  | updateLabels d displayName memberGroup role =>
    exact Or.inr (Nat.le_of_eq (by
      show _ = (r.updateLabels d displayName memberGroup role).1.churn.countSince _ _; rw [updateLabels_eq]; rfl))
  | reconcileServerList listed =>
    exact Or.inr (Nat.le_of_eq (by
      show _ = (r.reconcileServerList listed).1.churn.countSince _ _; rw [churn_reconcileServerList]; rfl))
  | restart selfId => rw [step_restart]; exact Or.inr (Nat.le_refl _)

/-! ## The budget over a run -/

/-- An admission is of an active introducer with room left in the window ending now. -/
theorem admittedBy_cases (introducer : String) (r : Roster) (op : Op C) :
    admittedBy C introducer r op = [] ∨
    ∃ a, admittedBy C introducer r op = [a] ∧ op.now? = some a.now ∧ r.isActive introducer = true ∧
      r.churn.countSince introducer (cutoff a.now) < maxMembershipEventsPerDevicePerDay := by
  cases op with
  | receiveIntroduce message sender now =>
    simp only [admittedBy]
    split
    case isFalse => exact Or.inl rfl
    case isTrue h =>
      obtain ⟨rfl, hout⟩ := h
      refine Or.inr ⟨_, rfl, rfl, ?_⟩
      have hcases := receiveIntroduce_cases C r message sender now
      generalize r.receiveIntroduce C message sender now = after at hcases hout
      cases hcases with
      | refused refusal _ => cases hout
      | alreadyKnown _ _ => cases hout
      | held _ _ _ => cases hout
      | admitted hv _ hbudget =>
        refine ⟨hv.introducerActive, ?_⟩
        rw [← ChurnLog.countInWindow_eq]
        simpa [ChurnLog.wouldExceed] using hbudget
  | _ => exact Or.inl rfl

theorem accounted (introducer : String) (r : Roster) (ops : List (Op C)) :
    Out (run C r ops) introducer ∨
    ∀ c, (∀ now ∈ ops.filterMap Op.now?, cutoff now ≤ c) →
      (admissions C introducer r ops).countP (fun a => c ≤ unixSeconds a.signedAt) ≤
        (run C r ops).churn.countSince introducer c := by
  induction ops using List.reverseRecOn with
  | nil => exact Or.inr fun c _ => by simp [admissions]
  | append_singleton ops op ih =>
    rw [admissions_snoc, run_snoc]
    rcases ih with hout | hle
    · exact Or.inl (hout.step C op)
    by_cases hout : Out (step C (run C r ops) op) introducer
    · exact Or.inl hout
    refine Or.inr fun c hc => ?_
    rw [List.filterMap_append] at hc
    have hbefore := hle c fun now hnow => hc now (List.mem_append_left _ hnow)
    have hstep := (counted_step C introducer (run C r ops) op fun now hnow => hc now
      (List.mem_append_right _ (by simp [hnow]))).resolve_left hout
    rw [List.countP_append]
    omega

/-- However a run interleaves its operations and whatever dates `introducer` signs, a day
    of a clock that never runs backwards admits at most five of its vouches dated in that day. -/
theorem admissions_within_budget (introducer : String) (r : Roster) (ops : List (Op C))
    (hclock : (ops.filterMap Op.now?).Pairwise (· ≤ ·))
    (hsince : ∀ now ∈ ops.filterMap Op.now?, SystemTime.unixEpoch ≤ now)
    (start : SystemTime) (hstart : SystemTime.unixEpoch ≤ start) :
    (admissions C introducer r ops).countP (AdmittedAt.within start) ≤ maxMembershipEventsPerDevicePerDay := by
  induction ops using List.reverseRecOn with
  | nil => simp [admissions]
  | append_singleton ops op ih =>
    rw [List.filterMap_append, List.pairwise_append] at hclock
    rw [List.filterMap_append] at hsince
    have ih := ih hclock.1 fun now hnow => hsince now (List.mem_append_left _ hnow)
    rw [admissions_snoc, List.countP_append]
    rcases admittedBy_cases C introducer (run C r ops) op with hnone | ⟨a, ha, hnow, hactive, hroom⟩
    · rw [hnone, List.countP_nil]; omega
    rw [ha, List.countP_singleton]
    by_cases hin : a.within start = true
    swap
    · rw [if_neg hin]; omega
    rw [if_pos hin]
    have hlast : a.now ∈ [op].filterMap Op.now? := by simp [hnow]
    have hsinceLast := hsince a.now (List.mem_append_right _ hlast)
    simp only [AdmittedAt.within, Bool.and_eq_true, decide_eq_true_eq] at hin
    -- the window that ends at this admission reaches back to `start`
    have hreach : cutoff a.now ≤ unixSeconds start := cutoff_le_of_within hstart hsinceLast hin.2
    have hlogged := (accounted C introducer r ops).resolve_left (fun hout => by simp [hout.2] at hactive)
      (unixSeconds start) fun now hmem => by
        have hle := hclock.2.2 now hmem a.now hlast
        exact ChurnLog.int64_le_trans (cutoff_mono (hsince now (List.mem_append_left _ hmem)) hle) hreach
    have hwithin : (admissions C introducer r ops).countP (AdmittedAt.within start) ≤
        (admissions C introducer r ops).countP fun a => decide (unixSeconds start ≤ unixSeconds a.signedAt) :=
      List.countP_mono_left fun b _ hb => by
        simp only [AdmittedAt.within, Bool.and_eq_true, decide_eq_true_eq] at hb ⊢
        exact unixSeconds_mono hb.1
    have hanti := (run C r ops).churn.countSince_anti introducer hreach
    omega

/-- Six vouches of `a` received at one instant, all dated a fortnight earlier. -/
def backdated : List (Op Crypto.plain) :=
  ["b", "c", "d", "e", "f", "g"].map fun device => introduction device device "2025-06-01T00:00:00Z" "a" "ka"

/-- Six more received with them, dated that morning. -/
def dated : List (Op Crypto.plain) :=
  backdated ++ ["h", "i", "j", "k", "l", "m"].map fun device =>
    introduction device device "2025-06-15T10:00:00Z" "a" "ka"

/-- Midnight of the day both are received in. -/
def dayStart : SystemTime := .ofSecs 1749945600

theorem dated_within_budget :
    (admissions Crypto.plain "a" founder dated).countP (AdmittedAt.within dayStart) ≤
      maxMembershipEventsPerDevicePerDay :=
  admissions_within_budget Crypto.plain "a" founder dated (by decide +kernel) (by decide +kernel) dayStart (by decide)

theorem backdated_unbounded :
    (backdated.filterMap Op.now?).Pairwise (· ≤ ·) ∧
    maxMembershipEventsPerDevicePerDay < (admissions Crypto.plain "a" founder backdated).countP
      fun a => dayStart ≤ a.now && a.now ≤ dayStart.addSecs churnWindow := by
  refine ⟨by decide +kernel, ?_⟩
  have hall : (admissions Crypto.plain "a" founder backdated).countP
      (fun a => dayStart ≤ a.now && a.now ≤ dayStart.addSecs churnWindow) = 6 := by decide +kernel
  rw [hall]
  decide

end Roster

end Beacon
