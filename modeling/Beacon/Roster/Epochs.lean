/-
  Beacon.Roster.Epochs — the epoch a removal establishes.

  The epoch only grows, by the maximum of what peers report, and a removal made here
  takes the next one by a plain `u64` addition.
  - `epoch_step`: which steps bring the roster to the last epoch there is. One message of
    an active peer does, or one that tells this device of its own removal.
  - `new_epoch_iff`: a removal establishes a new epoch exactly if no step before it did.
    After one the addition wraps: the removal is broadcast at epoch 0 and the roster's
    own stays.
  - `epoch_covers_every_tombstone`: wrapped or not, the epoch never falls and stays at or
    above every tombstone's, since each write takes a maximum with it.
-/

import Beacon.Roster.Agreement

namespace Beacon

open Lib

namespace Roster

variable (C : Crypto)

theorem toNat_lastEpoch : lastEpoch.toNat = 2 ^ 64 - 1 := rfl

theorem epoch_max_eq_last_iff (a b : UInt64) : max a b = lastEpoch ↔ a = lastEpoch ∨ b = lastEpoch := by
  have ha := a.toNat_lt
  have hb := b.toNat_lt
  rw [← UInt64.toNat_inj, ← UInt64.toNat_inj, ← UInt64.toNat_inj, toNat_epoch_max, toNat_lastEpoch]
  omega

/-- The step takes the last epoch over from a peer, or removes a device at the one before it. -/
def ReachesLast (r : Roster) : Op C → Prop
  | .receiveRemove message remover _ =>
    message.epoch = lastEpoch ∧ (EvictionVetted C r message remover ∨
      RemovalVetted C r message remover ∧ r.tombstones.contains message.subject = false)
  | .remove _ _ _ _ _ => r.isActive r.selfId = true ∧ r.epoch + 1 = lastEpoch
  | .receiveSync message sender => message.epoch = lastEpoch ∧ Merges C r message sender
  | _ => False

theorem epoch_chargeRemoval (r : Roster) (remover subject removedAt : String) (now : SystemTime) :
    (r.chargeRemoval remover subject removedAt now).epoch = r.epoch := by
  unfold chargeRemoval
  split <;> rfl

theorem epoch_reconcileServerList (r : Roster) (listed : List ServerDevice) :
    (r.reconcileServerList listed).1.epoch = r.epoch := by
  rw [reconcileServerList_eq]

theorem epoch_step (r : Roster) (op : Op C) :
    (step C r op).epoch = lastEpoch ↔ r.epoch = lastEpoch ∨ ReachesLast C r op := by
  cases op with
  | receiveRemove message remover now =>
    have hcases := receiveRemove_cases C r message remover now
    show (r.receiveRemove C message remover now).1.epoch = _ ↔ _
    generalize r.receiveRemove C message remover now = after at hcases ⊢
    cases hcases with
    | refused _ _ hnoEviction hnoRemoval => simp [ReachesLast, hnoEviction, hnoRemoval]
    | aboutSelf heviction =>
      show max r.epoch message.epoch = _ ↔ _
      rw [epoch_max_eq_last_iff]
      simp [ReachesLast, heviction]
    | alreadyRemoved hvet hburied =>
      have hnoEviction : ¬ EvictionVetted C r message remover := fun h => hvet.notSelf h.aboutSelf
      rw [epoch_chargeRemoval]
      simp [ReachesLast, hnoEviction, hburied]
    | applied hvet hfresh =>
      show max (r.chargeRemoval remover message.subject message.removedAt now).epoch message.epoch = _ ↔ _
      rw [epoch_max_eq_last_iff, epoch_chargeRemoval]
      simp [ReachesLast, hvet, hfresh]
  | remove subject reason removedAt identity now =>
    have hcases := remove_cases C r subject reason removedAt identity now
    show (r.remove C subject reason removedAt identity now).1.epoch = _ ↔ _
    generalize r.remove C subject reason removedAt identity now = after at hcases ⊢
    cases hcases with
    | refused hself => simp [ReachesLast, hself]
    | applied _ hself _ =>
      show max (r.chargeRemoval r.selfId subject removedAt now).epoch (r.epoch + 1) = _ ↔ _
      rw [epoch_max_eq_last_iff, epoch_chargeRemoval]
      simp [ReachesLast, hself]
  | receiveSync message sender =>
    have hcases := receiveSync_cases C r message sender
    show (r.receiveSync C message sender).1.epoch = _ ↔ _
    generalize r.receiveSync C message sender = after at hcases ⊢
    cases hcases with
    | unmerged _ hnot => simp [ReachesLast, hnot]
    | merged hmerges =>
      have hepoch : (r.merged message sender).epoch = max r.epoch message.epoch :=
        epoch_foldl_mergeReported message sender message.devices ⟨r, [], [], 0⟩
      rw [hepoch, epoch_max_eq_last_iff]
      simp [ReachesLast, hmerges]
  | receiveIntroduce message introducer now =>
    have hcases := receiveIntroduce_cases C r message introducer now
    show (r.receiveIntroduce C message introducer now).1.epoch = _ ↔ _
    generalize r.receiveIntroduce C message introducer now = after at hcases ⊢
    cases hcases <;> simp [ReachesLast, refuseVouch, admitDevice]
  | approveHeld s =>
    have hcases := approveHeld_cases r s
    show (r.approveHeld s).1.epoch = _ ↔ _
    generalize r.approveHeld s = after at hcases ⊢
    cases hcases <;> simp [ReachesLast, admitDevice]
  | denyHeld s =>
    show (r.denyHeld s).1.epoch = _ ↔ _
    rw [denyHeld_eq]
    simp [ReachesLast]
  | updateLabels d displayName memberGroup role =>
    show (r.updateLabels d displayName memberGroup role).1.epoch = _ ↔ _
    rw [updateLabels_eq]
    simp [ReachesLast]
  | reconcileServerList listed =>
    show (r.reconcileServerList listed).1.epoch = _ ↔ _
    simp [ReachesLast, epoch_reconcileServerList]
  | restart selfId => rw [step_restart]; simp [ReachesLast]

theorem epoch_run (r : Roster) (ops : List (Op C)) :
    (run C r ops).epoch ≠ lastEpoch ↔
      r.epoch ≠ lastEpoch ∧ Trace.EachStep (step C) (fun r op => ¬ ReachesLast C r op) r ops := by
  induction ops generalizing r with
  | nil => simp [Trace.EachStep]
  | cons op ops ih =>
    rw [run, Trace.run_cons, ih, Trace.EachStep, ← and_assoc, ne_eq, epoch_step, not_or]

/-- The removal's epoch lies above the one before, is the roster's from then on, and is the next
    one in the integers. -/
structure NewEpoch (before after : Roster) (message : RosterRemove) : Prop where
  above : before.epoch < message.epoch
  taken : after.epoch = message.epoch
  next : message.epoch.toNat = before.epoch.toNat + 1

theorem newEpoch_remove_iff {r : Roster} {subject : String} {reason : RemovalReason} {removedAt : String}
    {identity : C.IdentityKey} {now : SystemTime} {applied : Applied RosterRemove}
    (hmade : (r.remove C subject reason removedAt identity now).2 = .ok applied) :
    NewEpoch r (r.remove C subject reason removedAt identity now).1 applied.outcome ↔ r.epoch ≠ lastEpoch := by
  have hcases := remove_cases C r subject reason removedAt identity now
  generalize r.remove C subject reason removedAt identity now = after at hcases hmade ⊢
  cases hcases with
  | refused _ => cases hmade
  | applied sig _ _ =>
    cases hmade
    have hlt := r.epoch.toNat_lt
    have hadd : (r.epoch + 1).toNat = (r.epoch.toNat + 1) % 2 ^ 64 := UInt64.toNat_add r.epoch 1
    have hlast : r.epoch ≠ lastEpoch ↔ r.epoch.toNat + 1 < 2 ^ 64 := by
      rw [ne_eq, ← UInt64.toNat_inj, toNat_lastEpoch]
      omega
    rw [hlast]
    constructor
    · intro h
      have hnext : (r.epoch + 1).toNat = r.epoch.toNat + 1 := h.next
      have := (r.epoch + 1).toNat_lt
      omega
    · intro hroom
      have hnext : (r.epoch + 1).toNat = r.epoch.toNat + 1 := by rw [hadd, Nat.mod_eq_of_lt hroom]
      refine ⟨?_, ?_, hnext⟩
      · show r.epoch < r.epoch + 1
        rw [UInt64.lt_iff_toNat_lt]
        omega
      · show max (r.chargeRemoval r.selfId subject removedAt now).epoch (r.epoch + 1) = r.epoch + 1
        rw [epoch_chargeRemoval, ← UInt64.toNat_inj, toNat_epoch_max]
        omega

theorem new_epoch_iff (r : Roster) (ops : List (Op C)) {subject : String} {reason : RemovalReason}
    {removedAt : String} {identity : C.IdentityKey} {now : SystemTime} {applied : Applied RosterRemove}
    (hmade : ((run C r ops).remove C subject reason removedAt identity now).2 = .ok applied) :
    NewEpoch (run C r ops) ((run C r ops).remove C subject reason removedAt identity now).1 applied.outcome ↔
      r.epoch ≠ lastEpoch ∧ Trace.EachStep (step C) (fun r op => ¬ ReachesLast C r op) r ops := by
  rw [newEpoch_remove_iff C hmade, epoch_run]

/-- A sync of `b` that repeats the family and names the last epoch. -/
def lastEpochSync : RosterSync :=
  let devices : List SyncDevice := [⟨"a", "ka", .active⟩, ⟨"b", "kb", .active⟩]
  ⟨lastEpoch, devices, Crypto.plain.digestOf lastEpoch devices⟩

theorem removal_after_last_epoch :
    ¬ ∀ r, Reachable Crypto.plain r → ∀ subject reason removedAt identity now applied,
      (r.remove Crypto.plain subject reason removedAt identity now).2 = .ok applied →
      NewEpoch r (r.remove Crypto.plain subject reason removedAt identity now).1 applied.outcome := by
  intro h
  let r := run Crypto.plain founder [introduction "b" "kb" "" "a" "ka", .receiveSync lastEpochSync "b"]
  have hr : Reachable Crypto.plain r := (Reachable.born (.found _ _)).run _
  have hnew := h r hr "c" .lost "" "ka" (.ofSecs 1750200000) _ (remove_removalOfCBy (by decide +kernel))
  exact absurd hnew.above (by decide +kernel)

theorem removal_of_c_moves_on :
    NewEpoch remover (remover.remove Crypto.plain "c" .lost "" "ka" (.ofSecs 1750200000)).1
        (removalOfCBy remover).outcome ↔
      founder.epoch ≠ lastEpoch ∧
        Trace.EachStep (step Crypto.plain) (fun r op => ¬ ReachesLast Crypto.plain r op) founder
          [introduction "b" "kb" "" "a" "ka", cJoins] :=
  new_epoch_iff Crypto.plain founder _ (remove_removalOfCBy (show remover.isActive remover.selfId = true by decide +kernel))

/-! ## The epoch and the tombstones -/

/-- No tombstone lies above the roster's epoch. -/
def Covers (r : Roster) : Prop := ∀ d t, r.tombstones.get? d = some t → t.epoch ≤ r.epoch

/-- The epoch did not fall, and a tombstone that is new lies at or below it. -/
structure Forward (r r' : Roster) : Prop where
  epoch : r.epoch ≤ r'.epoch
  fresh : ∀ d t, r'.tombstones.get? d = some t → r.tombstones.get? d = some t ∨ t.epoch ≤ r'.epoch

theorem Forward.trans {r s t : Roster} (h : Forward r s) (h' : Forward s t) : Forward r t := by
  refine ⟨UInt64.le_trans h.epoch h'.epoch, fun d tomb ht => ?_⟩
  rcases h'.fresh d tomb ht with hs | hle
  · rcases h.fresh d tomb hs with hr | hle
    · exact Or.inl hr
    · exact Or.inr (UInt64.le_trans hle h'.epoch)
  · exact Or.inr hle

/-- No tombstone is written, and the epoch at most grows. -/
theorem forward_of_tombstones {r r' : Roster} (ht : r'.tombstones = r.tombstones) (he : r.epoch ≤ r'.epoch) :
    Forward r r' :=
  ⟨he, fun _ _ h => Or.inl (ht ▸ h)⟩

theorem Forward.refl (r : Roster) : Forward r r := forward_of_tombstones rfl (UInt64.le_refl _)

theorem Forward.covers {r r' : Roster} (h : Forward r r') (hr : Covers r) : Covers r' := by
  intro d t ht
  rcases h.fresh d t ht with hold | hle
  · exact UInt64.le_trans (hr d t hold) h.epoch
  · exact hle

theorem le_epoch_max (a b : UInt64) : a ≤ max a b ∧ b ≤ max a b := by
  rw [UInt64.le_iff_toNat_le, UInt64.le_iff_toNat_le, toNat_epoch_max]
  omega

/-! ### Each write goes forward -/

theorem forward_chargeRemoval (r : Roster) (remover subject removedAt : String) (now : SystemTime) :
    Forward r (r.chargeRemoval remover subject removedAt now) := by
  apply forward_of_tombstones
  · exact chargeRemoval_tombstones r remover subject removedAt now
  · rw [epoch_chargeRemoval]
    exact UInt64.le_refl _

/-- The tombstone keeps the epoch it was signed with, which the roster's may be above. -/
theorem forward_applyTombstone (r : Roster) (subject : String) (reason : RemovalReason)
    (removedAt removedBy : String) (epoch : UInt64) :
    Forward r (r.applyTombstone subject reason removedAt removedBy epoch).1 := by
  obtain ⟨hown, hgiven⟩ := le_epoch_max r.epoch epoch
  refine ⟨hown, fun d t ht => ?_⟩
  have hget : (r.tombstones.insert ⟨subject, reason, removedAt, removedBy, epoch⟩).get? d = some t := ht
  rw [Table.get?_insert] at hget
  split at hget
  · cases hget
    exact Or.inr hgiven
  · exact Or.inl hget

theorem forward_mergeReported (message : RosterSync) (sender : String) (s : Merge) (reported : SyncDevice) :
    Forward s.roster (mergeReported message sender s reported).roster := by
  have hcases := mergeReported_cases message sender s reported
  generalize mergeReported message sender s reported = after at hcases ⊢
  cases hcases with
  | ignored _ _ _ _ => exact .refl _
  | noted _ _ _ => exact forward_of_tombstones rfl (UInt64.le_refl _)
  | buried _ _ _ _ => exact forward_applyTombstone _ _ _ _ _ _

theorem epoch_merged (r : Roster) (message : RosterSync) (sender : String) :
    (r.merged message sender).epoch = max r.epoch message.epoch :=
  epoch_foldl_mergeReported message sender message.devices ⟨r, [], [], 0⟩

theorem forward_merged (r : Roster) (message : RosterSync) (sender : String) :
    Forward r (r.merged message sender) := by
  have hloop : Forward r (r.mergeDevices message sender).roster :=
    Trace.rel_run (R := fun s t => Forward (Merge.roster s) (Merge.roster t)) (fun _ => .refl _)
      (fun _ _ _ => Forward.trans) (fun s b _ => forward_mergeReported message sender s b)
      (Trace.eachStep_true ⟨r, [], [], 0⟩ message.devices)
  exact hloop.trans (forward_of_tombstones rfl (le_epoch_max _ _).1)

theorem forward_step (r : Roster) (op : Op C) : Forward r (step C r op) := by
  cases op with
  | receiveIntroduce message introducer now =>
    have hcases := receiveIntroduce_cases C r message introducer now
    show Forward r (r.receiveIntroduce C message introducer now).1
    generalize r.receiveIntroduce C message introducer now = after at hcases ⊢
    cases hcases <;> exact forward_of_tombstones rfl (UInt64.le_refl _)
  | approveHeld s =>
    have hcases := approveHeld_cases r s
    show Forward r (r.approveHeld s).1
    generalize r.approveHeld s = after at hcases ⊢
    cases hcases <;> exact forward_of_tombstones rfl (UInt64.le_refl _)
  | denyHeld s =>
    show Forward r (r.denyHeld s).1
    rw [denyHeld_eq]
    exact forward_of_tombstones rfl (UInt64.le_refl _)
  | receiveRemove message remover now =>
    have hcases := receiveRemove_cases C r message remover now
    have hcharged := forward_chargeRemoval r remover message.subject message.removedAt now
    show Forward r (r.receiveRemove C message remover now).1
    generalize r.receiveRemove C message remover now = after at hcases ⊢
    cases hcases with
    | refused _ _ _ _ => exact .refl r
    | aboutSelf _ => exact forward_of_tombstones rfl (le_epoch_max _ _).1
    | alreadyRemoved _ _ => exact hcharged
    | applied _ _ => exact hcharged.trans (forward_applyTombstone _ _ _ _ _ _)
  | remove subject reason removedAt identity now =>
    have hcases := remove_cases C r subject reason removedAt identity now
    have hcharged := forward_chargeRemoval r r.selfId subject removedAt now
    show Forward r (r.remove C subject reason removedAt identity now).1
    generalize r.remove C subject reason removedAt identity now = after at hcases ⊢
    cases hcases with
    | refused _ => exact .refl r
    | applied _ _ _ => exact hcharged.trans (forward_applyTombstone _ _ _ _ _ _)
  | receiveSync message sender =>
    have hcases := receiveSync_cases C r message sender
    show Forward r (r.receiveSync C message sender).1
    generalize r.receiveSync C message sender = after at hcases ⊢
    cases hcases with
    | unmerged _ _ => exact .refl r
    | merged _ => exact forward_merged r message sender
  | updateLabels d displayName memberGroup role =>
    show Forward r (r.updateLabels d displayName memberGroup role).1
    rw [updateLabels_eq]
    exact forward_of_tombstones rfl (UInt64.le_refl _)
  | reconcileServerList listed =>
    show Forward r (r.reconcileServerList listed).1
    rw [reconcileServerList_eq]
    exact forward_of_tombstones rfl (UInt64.le_refl _)
  | restart selfId =>
    rw [step_restart]
    exact .refl r

/-- The operation does not lower the epoch, and a sync that is merged raises it to the larger of the two. -/
structure EpochForward (r : Roster) (op : Op C) : Prop where
  forward : r.epoch ≤ (step C r op).epoch
  synced : ∀ message sender removalsApplied anomalies, op = .receiveSync message sender →
    (r.receiveSync C message sender).2.outcome = .merged removalsApplied anomalies →
    (step C r op).epoch = max r.epoch message.epoch

theorem merges_of_merged {r : Roster} {message : RosterSync} {sender : String} {removalsApplied : Nat}
    {anomalies : List String} (h : (r.receiveSync C message sender).2.outcome = .merged removalsApplied anomalies) :
    Merges C r message sender := by
  unfold receiveSync at h
  split at h
  · cases h
  rename_i hdigest
  split at h
  · cases h
  rename_i hactive
  split at h
  · cases h
  rename_i hdiffers
  exact ⟨not_not.mp hdigest, by simpa using hactive, hdiffers⟩

theorem epochForward_step (r : Roster) (op : Op C) : EpochForward C r op := by
  refine ⟨(forward_step C r op).epoch, fun message sender removalsApplied anomalies hop hout => ?_⟩
  subst hop
  have hmerges := merges_of_merged C hout
  have hcases := receiveSync_cases C r message sender
  show (r.receiveSync C message sender).1.epoch = _
  generalize r.receiveSync C message sender = after at hcases ⊢
  cases hcases with
  | unmerged _ hnot => exact absurd hmerges hnot
  | merged _ => exact epoch_merged r message sender

theorem covers_founded (me : SelfDescription) (identity : C.IdentityKey) : Covers (founded C me identity) := by
  intro d t ht
  have hempty : (Table.empty : Table Tombstone.subject).get? d = some t := ht
  rw [Table.get?_empty] at hempty
  cases hempty

theorem epoch_covers_every_tombstone (me : SelfDescription) (identity : C.IdentityKey) (ops : List (Op C)) :
    Trace.EachStep (step C) (EpochForward C) (founded C me identity) ops ∧
      Trace.EachState (step C) Covers (founded C me identity) ops := by
  constructor
  · exact Trace.eachStep_mono (fun r op _ => epochForward_step C r op) (Trace.eachStep_true (founded C me identity) ops)
  · rw [Trace.eachState_iff]
    intro pre post _
    exact Trace.inv_run (fun r op _ hr => (forward_step C r op).covers hr) (covers_founded C me identity)
      (Trace.eachStep_true (founded C me identity) pre)

end Roster

end Beacon
