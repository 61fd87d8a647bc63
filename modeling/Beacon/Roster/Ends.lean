/-
  Beacon.Roster.Ends — how a removal, a sync and one report of a sync can end, said once.

  `receiveRemove_cases`, `remove_cases`, `receiveSync_cases` and `mergeReported_cases` name
  the ends of the operations, each with what it requires of the roster and the message; what
  is proved of the operations goes by cases on them. `receiveIntroduce_cases` and
  `approveHeld_cases` of `Beacon.Roster.Effects` are the same for an admission. `denyHeld_eq`
  and `updateLabels_eq` say of two operations which collection they write.
-/

import Beacon.Roster.Runs

namespace Beacon

open Lib

namespace Roster

variable (C : Crypto)

/-! ## A denial and a relabelling -/

theorem denyHeld_eq (r : Roster) (subject : String) :
    (r.denyHeld subject).1 = { r with held := (r.denyHeld subject).1.held } := by
  unfold denyHeld
  split <;> rfl

theorem updateLabels_eq (r : Roster) (deviceId : String) (displayName memberGroup role : Option String) :
    (r.updateLabels deviceId displayName memberGroup role).1 =
      { r with devices := (r.updateLabels deviceId displayName memberGroup role).1.devices } := by
  unfold updateLabels
  split <;> rfl

/-! ## A removal -/

/-- The removal names another device, from an active remover whose signature verifies. -/
structure RemovalVetted (r : Roster) (message : RosterRemove) (remover : String) : Prop where
  notSelf : message.subject ≠ r.selfId
  removerActive : r.isActive remover = true
  signed : ∃ key, r.identityOf C remover = some key ∧ C.verify key (.removal message.payload) message.sig = true

/-- A removal of this device, signed under the key recorded for the remover, active or not. -/
structure EvictionVetted (r : Roster) (message : RosterRemove) (remover : String) : Prop where
  aboutSelf : message.subject = r.selfId
  signed : ∃ record key, r.devices.get? remover = some record ∧ C.fromBase64 record.identityPk = some key ∧
    C.verify key (.removal message.payload) message.sig = true

/-- This device, told of its removal. -/
def evicted (r : Roster) (message : RosterRemove) (remover : String) : Roster :=
  { r with removedMe := r.removedMe.insert remover, epoch := max r.epoch message.epoch }

inductive Removed (r : Roster) (message : RosterRemove) (remover : String) (now : SystemTime) :
    Roster × Applied Removal → Prop
  | refused (refusal : RemovalRefusal) (ledger : List LedgerEntry) : ¬ EvictionVetted C r message remover →
      ¬ RemovalVetted C r message remover → Removed r message remover now (r, ⟨.refused refusal, ledger⟩)
  | aboutSelf : EvictionVetted C r message remover →
      Removed r message remover now (r.evicted message remover,
        ⟨.aboutSelf, .inbound remover none (.deviceRemoved remover message.reason) ::
          (r.evicted message remover).splitLedger remover⟩)
  | alreadyRemoved : RemovalVetted C r message remover → r.tombstones.contains message.subject = true →
      Removed r message remover now
        (r.chargeRemoval remover message.subject message.removedAt now, ⟨.alreadyRemoved, []⟩)
  | applied : RemovalVetted C r message remover → r.tombstones.contains message.subject = false →
      Removed r message remover now
        (((r.chargeRemoval remover message.subject message.removedAt now).applyTombstone message.subject message.reason
            message.removedAt remover message.epoch).1,
         ⟨.applied, ((r.chargeRemoval remover message.subject message.removedAt now).applyTombstone message.subject
            message.reason message.removedAt remover message.epoch).2⟩)

@[simp] theorem chargeRemoval_tombstones (r : Roster) (remover subject removedAt : String) (now : SystemTime) :
    (r.chargeRemoval remover subject removedAt now).tombstones = r.tombstones := by
  unfold chargeRemoval; split <;> rfl

theorem receiveRemove_cases (r : Roster) (message : RosterRemove) (remover : String) (now : SystemTime) :
    Removed C r message remover now (r.receiveRemove C message remover now) := by
  unfold receiveRemove
  by_cases hself : message.subject = r.selfId
  · have hnot : ¬ RemovalVetted C r message remover := fun h => h.notSelf hself
    rw [if_pos hself]
    unfold receiveRemovalOfSelf
    cases hrecord : r.devices.get? remover with
    | none =>
      refine .refused _ _ (fun h => ?_) hnot
      obtain ⟨record, key, hr, -⟩ := h.signed
      rw [hrecord] at hr; cases hr
    | some record =>
      cases hkey : C.fromBase64 record.identityPk with
      | none =>
        simp only [Option.bind_some, hkey]
        refine .refused _ _ (fun h => ?_) hnot
        obtain ⟨record', key, hr, hk, -⟩ := h.signed
        rw [hrecord] at hr; cases hr
        rw [hkey] at hk; cases hk
      | some key =>
        simp only [Option.bind_some, hkey]
        by_cases hv : C.verify key (.removal message.payload) message.sig = true
        · rw [if_neg (by simp [hv])]
          exact .aboutSelf ⟨hself, record, key, hrecord, hkey, hv⟩
        · rw [if_pos (by simpa using hv)]
          refine .refused _ _ (fun h => ?_) hnot
          obtain ⟨record', key', hr, hk, hv'⟩ := h.signed
          rw [hrecord] at hr; cases hr
          rw [hkey] at hk; cases hk
          exact hv hv'
  rw [if_neg hself]
  have hnot : ¬ EvictionVetted C r message remover := fun h => hself h.aboutSelf
  simp only []
  by_cases hr : r.isActive remover = true
  swap
  · rw [if_pos (by simpa using hr)]
    exact .refused _ _ hnot fun h => hr h.removerActive
  rw [if_neg (by simp [hr])]
  cases hk : r.identityOf C remover with
  | none => exact .refused _ _ hnot fun h => by obtain ⟨k, hk', -⟩ := h.signed; rw [hk] at hk'; cases hk'
  | some key =>
    simp only []
    by_cases hv : C.verify key (.removal message.payload) message.sig = true
    swap
    · rw [if_pos (by simpa using hv)]
      exact .refused _ _ hnot fun h => by
        obtain ⟨k, hk', hv'⟩ := h.signed
        rw [hk] at hk'; cases hk'; exact hv hv'
    rw [if_neg (by simp [hv]), chargeRemoval_tombstones]
    have hvet : RemovalVetted C r message remover := ⟨hself, hr, key, hk, hv⟩
    by_cases ht : r.tombstones.contains message.subject = true
    · rw [if_pos ht]; exact .alreadyRemoved hvet ht
    · rw [if_neg ht]; exact .applied hvet (by simpa using ht)

/-- The ends of an own removal; the message is signed under this device's key. -/
inductive RemovedHere (r : Roster) (subject : String) (reason : RemovalReason) (removedAt : String)
    (identity : C.IdentityKey) (now : SystemTime) : Roster × Except RemovalRefusal (Applied RosterRemove) → Prop
  | refused : r.isActive r.selfId = false →
      RemovedHere r subject reason removedAt identity now (r, .error (.removerNotActive r.selfId))
  | applied (sig : String) : r.isActive r.selfId = true →
      C.verify (C.publicKey identity) (.removal ⟨subject, reason, removedAt, r.epoch + 1⟩) sig = true →
      RemovedHere r subject reason removedAt identity now
        (((r.chargeRemoval r.selfId subject removedAt now).applyTombstone subject reason removedAt r.selfId
            (r.epoch + 1)).1,
         .ok ⟨⟨subject, reason, removedAt, r.epoch + 1, sig⟩,
           ((r.chargeRemoval r.selfId subject removedAt now).applyTombstone subject reason removedAt r.selfId
             (r.epoch + 1)).2⟩)

theorem remove_cases (r : Roster) (subject : String) (reason : RemovalReason) (removedAt : String)
    (identity : C.IdentityKey) (now : SystemTime) :
    RemovedHere C r subject reason removedAt identity now (r.remove C subject reason removedAt identity now) := by
  unfold remove
  by_cases hs : r.isActive r.selfId = true
  swap
  · rw [if_pos (by simpa using hs)]; exact .refused (by simpa using hs)
  rw [if_neg (by simp [hs])]
  -- a signature always exists
  obtain ⟨sig, hsig, hv⟩ := C.verify_sign identity (.removal ⟨subject, reason, removedAt, r.epoch + 1⟩)
  simp only [hsig]
  exact .applied sig hs hv

/-! ## A sync -/

/-- The merge loop runs: a well-digested sync from an active sender that says something new. -/
structure Merges (r : Roster) (message : RosterSync) (sender : String) : Prop where
  digest : C.digestOf message.epoch message.devices = message.digest
  senderActive : r.isActive sender = true
  differs : ¬(message.epoch = r.epoch ∧ message.devices = r.syncDevices)

theorem epoch_max (a b : UInt64) : max a b = if a ≤ b then b else a := rfl

theorem toNat_epoch_max (a b : UInt64) : (max a b).toNat = max a.toNat b.toNat := by
  rw [epoch_max]
  split
  · rename_i h
    rw [UInt64.le_iff_toNat_le] at h
    omega
  · rename_i h
    rw [UInt64.le_iff_toNat_le] at h
    omega

theorem epoch_max_eq_iff (a b : UInt64) : max a b = a ↔ ¬ a < b := by
  rw [UInt64.not_lt, UInt64.le_iff_toNat_le, ← UInt64.toNat_inj, toNat_epoch_max]
  omega

/-- The roster a merged sync leaves. -/
def merged (r : Roster) (message : RosterSync) (sender : String) : Roster :=
  { (r.mergeDevices message sender).roster with
    epoch := max (r.mergeDevices message sender).roster.epoch message.epoch }

inductive Synced (r : Roster) (message : RosterSync) (sender : String) : Roster × Applied SyncOutcome → Prop
  | unmerged (outcome : SyncOutcome) : ¬ Merges C r message sender → Synced r message sender (r, ⟨outcome, []⟩)
  | merged : Merges C r message sender →
      Synced r message sender (r.merged message sender,
        ⟨.merged (r.mergeDevices message sender).removalsApplied (r.mergeDevices message sender).anomalies,
         (r.mergeDevices message sender).ledger ++
           if (r.mergeDevices message sender).roster.epoch < message.epoch then
             [.inbound sender none (.epochBumped message.epoch)]
           else []⟩)

theorem receiveSync_cases (r : Roster) (message : RosterSync) (sender : String) :
    Synced C r message sender (r.receiveSync C message sender) := by
  unfold receiveSync
  by_cases h1 : C.digestOf message.epoch message.devices = message.digest
  swap
  · rw [if_pos h1]; exact .unmerged _ fun h => h1 h.digest
  rw [if_neg (not_not.mpr h1)]
  by_cases h2 : r.isActive sender = true
  swap
  · rw [if_pos (by simpa using h2)]; exact .unmerged _ fun h => h2 h.senderActive
  rw [if_neg (by simp [h2])]
  by_cases h3 : message.epoch = r.epoch ∧ message.devices = r.syncDevices
  · rw [if_pos h3]; exact .unmerged _ fun h => h.differs h3
  rw [if_neg h3]
  have hmerged := Synced.merged (C := C) (r := r) ⟨h1, h2, h3⟩
  unfold merged at hmerged
  by_cases hlt : (r.mergeDevices message sender).roster.epoch < message.epoch
  · rw [epoch_max, if_pos (UInt64.le_of_lt hlt), if_pos hlt] at hmerged
    simpa only [if_pos hlt] using hmerged
  · have hge : message.epoch ≤ (r.mergeDevices message sender).roster.epoch := UInt64.not_lt.mp hlt
    have hmax : max (r.mergeDevices message sender).roster.epoch message.epoch =
        (r.mergeDevices message sender).roster.epoch := by
      rw [← UInt64.toNat_inj, toNat_epoch_max]
      rw [UInt64.le_iff_toNat_le] at hge
      omega
    rw [hmax, if_neg hlt, List.append_nil] at hmerged
    simpa only [if_neg hlt] using hmerged

/-- The digest shortcut. -/
theorem receiveSync_of_repeats {r : Roster} {message : RosterSync} {sender : String}
    (hdigest : C.digestOf message.epoch message.devices = message.digest) (hsender : r.isActive sender = true)
    (hrepeats : message.epoch = r.epoch ∧ message.devices = r.syncDevices) :
    r.receiveSync C message sender = (r, ⟨.inSync, []⟩) := by
  unfold receiveSync
  rw [if_neg (not_not.mpr hdigest), if_neg (by simp [hsender]), if_pos hrepeats]

/-! ## One report of a sync -/

/-- What one report does: nothing but perhaps an anomaly, a note of who removed this device, or a burial. -/
inductive Reported (message : RosterSync) (sender : String) (s : Merge) (reported : SyncDevice) : Merge → Prop
  | ignored (anomalies : List String) (ledger : List LedgerEntry) :
      (∀ entry ∈ ledger, ∃ reason, entry.event = .vouchRejected reason) →
      ¬(reported.state = .removed ∧ s.roster.devices.contains reported.deviceId = true ∧
        (reported.deviceId = s.roster.selfId ∨ s.roster.tombstones.contains reported.deviceId = false)) →
      Reported message sender s reported { s with anomalies := anomalies, ledger := s.ledger ++ ledger }
  | noted : reported.state = .removed → reported.deviceId = s.roster.selfId →
      s.roster.devices.contains reported.deviceId = true →
      Reported message sender s reported
        { s with
          roster := { s.roster with removedMe := s.roster.removedMe.insert sender }
          ledger := s.ledger ++
            ({ s.roster with removedMe := s.roster.removedMe.insert sender } : Roster).splitLedger sender }
  | buried : reported.state = .removed → reported.deviceId ≠ s.roster.selfId →
      s.roster.devices.contains reported.deviceId = true →
      s.roster.tombstones.contains reported.deviceId = false →
      Reported message sender s reported
        { s with
          roster := (s.roster.applyTombstone reported.deviceId .removed "" sender
            (max s.roster.epoch message.epoch)).1
          ledger := s.ledger ++ (s.roster.applyTombstone reported.deviceId .removed "" sender
            (max s.roster.epoch message.epoch)).2
          removalsApplied := s.removalsApplied + 1 }

theorem mergeReported_cases (message : RosterSync) (sender : String) (s : Merge) (reported : SyncDevice) :
    Reported message sender s reported (mergeReported message sender s reported) := by
  have hnothing (h : ¬(reported.state = .removed ∧ s.roster.devices.contains reported.deviceId = true ∧
      (reported.deviceId = s.roster.selfId ∨ s.roster.tombstones.contains reported.deviceId = false))) :
      Reported message sender s reported s := by
    have hignored : Reported message sender s reported { s with ledger := s.ledger ++ [] } :=
      .ignored s.anomalies [] (by simp) h
    rwa [List.append_nil] at hignored
  unfold mergeReported
  split
  next hnone =>
    have hunknown : s.roster.devices.contains reported.deviceId = false := Table.contains_eq_false.mpr hnone
    split
    · exact hnothing (by simp [hunknown])
    · exact .ignored _ _ (by simp [LedgerEntry.inbound]) (by simp [hunknown])
  next record hrecord =>
    have hknown : s.roster.devices.contains reported.deviceId = true := Table.contains_iff.mpr ⟨_, hrecord⟩
    by_cases hrem : reported.state = .removed
    swap
    · rw [if_neg hrem]
      exact hnothing fun h => hrem h.1
    rw [if_pos hrem]
    by_cases hself : reported.deviceId = s.roster.selfId
    · rw [if_pos hself]
      exact .noted hrem hself hknown
    rw [if_neg hself]
    by_cases ht : s.roster.tombstones.contains reported.deviceId = true
    · rw [if_pos ht]
      exact hnothing (by simp [hself, ht])
    · rw [if_neg ht]
      exact .buried hrem hself hknown (by simpa using ht)

end Roster

end Beacon
