/-
  Beacon.Roster.Influence — what a device that is not active can still do to a roster.

  A sender is the device its session authenticated, so what a removed device can try is
  to send: a vouch, a removal, a sync or its labels, with any content it can sign.
  - `no_influence_iff`: the roster stays exactly as it was, but for the note that the
    device removed this one, exactly if what it sends does not leak. Two things do: a
    signed removal of this device whose epoch is ahead of the roster's, which moves the
    epoch, and a label that differs from the recorded one, which is taken over.
-/

import Beacon.Roster.Burials

namespace Beacon

open Lib

namespace Roster

variable (C : Crypto)

/-! ## What a sender can put in front of a roster -/

inductive Submission where
  | introduce (message : RosterIntroduce) (now : SystemTime)
  | remove (message : RosterRemove) (now : SystemTime)
  | sync (message : RosterSync)
  | labels (displayName memberGroup role : Option String)

def Submission.op (sender : String) : Submission → Op C
  | .introduce message now => .receiveIntroduce message sender now
  | .remove message now => .receiveRemove message sender now
  | .sync message => .receiveSync message sender
  | .labels displayName memberGroup role => .updateLabels sender displayName memberGroup role

/-- The roster `r'` after the submission is the roster `r` before it, but for the note that
    the sender, by a removal it signed, removed this device. -/
def NoInfluence (r r' : Roster) (sender : String) (submission : Submission) : Prop :=
  r' = r ∨ ∃ message now, submission = .remove message now ∧ EvictionVetted C r message sender ∧
    r' = { r with removedMe := r.removedMe.insert sender }

/-- The label is given, and is not the current one. -/
def Relabels (new : Option String) (current : String) : Prop := ∃ label, new = some label ∧ label ≠ current

/-- What the submission changes besides: the epoch, or a recorded label. -/
def Leaks (r : Roster) (sender : String) : Submission → Prop
  | .remove message _ => EvictionVetted C r message sender ∧ r.epoch < message.epoch
  | .labels displayName memberGroup role => ∃ record, r.devices.get? sender = some record ∧
      (Relabels displayName record.displayName ∨ Relabels memberGroup record.memberGroup ∨ Relabels role record.role)
  | _ => False

/-! ## What leaks -/

theorem relabel_eq_iff (deviceId field : String) (new : Option String) (current : String) :
    (relabel deviceId field new current).1 = current ↔ ¬ Relabels new current := by
  unfold relabel Relabels
  cases new with
  | none => simp
  | some label => by_cases h : label = current <;> simp [h]

theorem evicted_noInfluence_iff {r : Roster} {message : RosterRemove} {sender : String} (now : SystemTime)
    (h : EvictionVetted C r message sender) :
    NoInfluence C r (r.evicted message sender) sender (.remove message now) ↔ ¬ r.epoch < message.epoch := by
  rw [← epoch_max_eq_iff]
  constructor
  · intro hsame
    rcases hsame with hsame | ⟨_, _, -, -, hsame⟩
    · exact congrArg Roster.epoch hsame
    · exact congrArg Roster.epoch hsame
  · intro hepoch
    refine Or.inr ⟨message, now, rfl, h, ?_⟩
    unfold evicted
    rw [hepoch]

theorem updateLabels_eq_self_iff (r : Roster) (sender : String) (displayName memberGroup role : Option String) :
    (r.updateLabels sender displayName memberGroup role).1 = r ↔
      ¬ ∃ record, r.devices.get? sender = some record ∧ (Relabels displayName record.displayName ∨
        Relabels memberGroup record.memberGroup ∨ Relabels role record.role) := by
  cases hrecord : r.devices.get? sender with
  | none =>
    have hsame : (r.updateLabels sender displayName memberGroup role).1 = r := by
      unfold updateLabels
      rw [hrecord]
    simp [hsame]
  | some record =>
    have hname := relabel_eq_iff sender "display_name" displayName record.displayName
    have hgroup := relabel_eq_iff sender "member_group" memberGroup record.memberGroup
    have hrole := relabel_eq_iff sender "role" role record.role
    simp only [Option.some.injEq, exists_eq_left', not_or]
    rw [← hname, ← hgroup, ← hrole]
    have hkept := Table.modify_eq_self_iff (t := r.devices) (k := sender) (f := fun record' => { record' with
      displayName := (relabel sender "display_name" displayName record.displayName).1
      memberGroup := (relabel sender "member_group" memberGroup record.memberGroup).1
      role := (relabel sender "role" role record.role).1 }) fun _ => rfl
    unfold updateLabels
    simp only [hrecord]
    constructor
    · intro hsame
      have hset := hkept.mp (congrArg Roster.devices hsame) record hrecord
      exact ⟨congrArg DeviceRecord.displayName hset, congrArg DeviceRecord.memberGroup hset,
        congrArg DeviceRecord.role hset⟩
    · intro h
      obtain ⟨h1, h2, h3⟩ := h
      rw [hkept.mpr]
      intro record' hrecord'
      cases hrecord.symm.trans hrecord'
      rw [h1, h2, h3]

theorem no_influence_iff (r : Roster) (sender : String) (hout : r.isActive sender = false) (submission : Submission) :
    NoInfluence C r (step C r (submission.op C sender)) sender submission ↔ ¬ Leaks C r sender submission := by
  cases submission with
  | introduce message now =>
    refine iff_of_true (Or.inl ?_) id
    have hcases := receiveIntroduce_cases C r message sender now
    show (r.receiveIntroduce C message sender now).1 = r
    generalize r.receiveIntroduce C message sender now = after at hcases ⊢
    cases hcases with
    | refused refusal _ => rfl
    | alreadyKnown _ _ => rfl
    | held hv _ _ => rw [hv.introducerActive] at hout; cases hout
    | admitted hv _ _ => rw [hv.introducerActive] at hout; cases hout
  | remove message now =>
    have hcases := receiveRemove_cases C r message sender now
    show NoInfluence C r (r.receiveRemove C message sender now).1 sender (.remove message now) ↔ _
    generalize r.receiveRemove C message sender now = after at hcases ⊢
    cases hcases with
    | refused refusal ledger hnot _ => exact iff_of_true (Or.inl rfl) fun h => hnot h.1
    | aboutSelf hvet =>
      rw [evicted_noInfluence_iff C now hvet]
      exact not_congr ⟨fun h => ⟨hvet, h⟩, And.right⟩
    | alreadyRemoved hvet _ => rw [hvet.removerActive] at hout; cases hout
    | applied hvet _ => rw [hvet.removerActive] at hout; cases hout
  | sync message =>
    refine iff_of_true (Or.inl ?_) id
    have hcases := receiveSync_cases C r message sender
    show (r.receiveSync C message sender).1 = r
    generalize r.receiveSync C message sender = after at hcases ⊢
    cases hcases with
    | unmerged outcome _ => rfl
    | merged hm => rw [hm.senderActive] at hout; cases hout
  | labels displayName memberGroup role =>
    refine Iff.trans ?_ (updateLabels_eq_self_iff r sender displayName memberGroup role)
    constructor
    · intro h
      rcases h with h | ⟨_, _, hsubmission, -⟩
      · exact h
      · cases hsubmission
    · exact Or.inl

/-! ## A removed device that leaks -/

/-- `a`'s family after `a` removed `b`, at epoch 1. -/
def withoutB : Roster :=
  run Crypto.plain founder [introduction "b" "kb" "" "a" "ka", .remove "b" .removed "" "ka" (.ofSecs 1750000000)]

/-- `b`'s signed removal of `a`, at an epoch of its choosing. -/
def evictionOfA (epoch : UInt64) : RosterRemove :=
  ⟨"a", .removed, "", epoch, Crypto.signText "kb" (.removal ⟨"a", .removed, "", epoch⟩)⟩

theorem removed_device_moves_epoch :
    ¬ NoInfluence Crypto.plain withoutB
      (step Crypto.plain withoutB ((Submission.remove (evictionOfA 9) (.ofSecs 1750000000)).op Crypto.plain "b")) "b"
      (.remove (evictionOfA 9) (.ofSecs 1750000000)) := fun h =>
  (no_influence_iff Crypto.plain withoutB "b" (by decide +kernel) _).mp h
    ⟨⟨by decide +kernel, ⟨"b", "kb", "b", "g", "child", "", "a", .removed⟩, "kb", by decide +kernel, rfl,
      by decide +kernel⟩, by decide +kernel⟩

theorem removed_device_relabels_itself :
    ¬ ∀ r, Reachable Crypto.plain r → ∀ sender, r.isActive sender = false → ∀ submission,
      NoInfluence Crypto.plain r (step Crypto.plain r (submission.op Crypto.plain sender)) sender submission := by
  intro h
  have hr : Reachable Crypto.plain withoutB := (Reachable.born (.found _ _)).run _
  rcases h _ hr "b" (by decide +kernel) (.labels (some "Dad's phone") none none) with hsame | ⟨_, _, hsubmission, -⟩
  · have hlabel := congrArg (fun s => (Table.get? (Roster.devices s) "b").map (·.displayName)) hsame
    exact absurd hlabel (by decide +kernel)
  · cases hsubmission

end Roster

end Beacon
