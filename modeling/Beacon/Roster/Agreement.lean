/-
  Beacon.Roster.Agreement — when two rosters, or two orders of one roster's syncs, end
  up the same.

  - `removal_agrees_iff`: the device that removes another and a member that receives the
    removal, alike before, are alike afterwards exactly if the subject carries no
    tombstone yet, or the second removal writes nothing. `remove` writes its tombstone
    over an older one and moves the epoch; `receive_remove` then leaves both alone.
  - `syncs_commute_iff`: two syncs come to the same in both orders exactly if neither is
    overlooked after the other. A device the server's list deactivated is not buried by a
    sync that repeats the roster, and the other sync may decide whether it repeats it.
-/

import Beacon.Roster.Redelivery
import Beacon.Roster.Removals

namespace Beacon

open Lib

namespace Roster

variable (C : Crypto)

/-! ## A removal, where it is made and where it arrives -/

/-- The two rosters agree on all they hold about the family. -/
structure Alike (a b : Roster) : Prop where
  devices : a.devices = b.devices
  tombstones : a.tombstones = b.tombstones
  epoch : a.epoch = b.epoch
  churn : a.churn = b.churn
  held : a.held = b.held

theorem Alike.symm {a b : Roster} (h : Alike a b) : Alike b a :=
  ⟨h.devices.symm, h.tombstones.symm, h.epoch.symm, h.churn.symm, h.held.symm⟩

theorem Alike.trans {a b c : Roster} (h : Alike a b) (h' : Alike b c) : Alike a c :=
  ⟨h.devices.trans h'.devices, h.tombstones.trans h'.tombstones, h.epoch.trans h'.epoch, h.churn.trans h'.churn,
    h.held.trans h'.held⟩

theorem Alike.chargeRemoval {a b : Roster} (h : Alike a b) (remover subject removedAt : String) (now : SystemTime) :
    Alike (a.chargeRemoval remover subject removedAt now) (b.chargeRemoval remover subject removedAt now) := by
  unfold Roster.chargeRemoval
  split
  · exact ⟨h.devices, h.tombstones, h.epoch,
      congrArg (fun churn => churn.record remover (timestampOr removedAt now) now) h.churn, h.held⟩
  · exact h

theorem Alike.applyTombstone {a b : Roster} (h : Alike a b) (subject : String) (reason : RemovalReason)
    (removedAt removedBy : String) (epoch : UInt64) :
    Alike (a.applyTombstone subject reason removedAt removedBy epoch).1
      (b.applyTombstone subject reason removedAt removedBy epoch).1 where
  devices := congrArg (markRemoved · subject) h.devices
  tombstones :=
    congrArg (fun tombstones => tombstones.insert ⟨subject, reason, removedAt, removedBy, epoch⟩) h.tombstones
  epoch := congrArg (max · epoch) h.epoch
  churn := congrArg (·.forget subject) h.churn
  held := congrArg (·.erase subject) h.held

theorem Alike.identityOf {a b : Roster} (h : Alike a b) (d : String) : a.identityOf C d = b.identityOf C d := by
  unfold Roster.identityOf
  rw [h.devices]

theorem Alike.isActive {a b : Roster} (h : Alike a b) (d : String) : a.isActive d = b.isActive d := by
  unfold Roster.isActive
  rw [h.devices]

/-- The removal would write what the roster holds already: the same tombstone, of a device that
    is out and left nothing behind, at the last epoch there is. -/
structure WritesNothing (r : Roster) (subject : String) (reason : RemovalReason) (removedAt : String) : Prop where
  inactive : r.isActive subject = false
  sameTombstone : r.tombstones.get? subject = some ⟨subject, reason, removedAt, r.selfId, r.epoch + 1⟩
  lastEpoch : ¬ r.epoch < r.epoch + 1
  uncharged : r.churn.events[subject]? = none
  unheld : r.held.get? subject = none

theorem markRemoved_eq_self_iff {r : Roster} {d : String} :
    markRemoved r.devices d = r.devices ↔ r.isActive d = false := by
  rw [markRemoved, Table.modify_eq_self_iff]
  unfold isActive
  constructor
  · intro h
    cases hrecord : r.devices.get? d with
    | none => rfl
    | some record =>
      have hstate := congrArg DeviceRecord.state (h record hrecord)
      simp [DeviceRecord.isActive, ← hstate]
  · intro h record hrecord
    obtain ⟨_, _, _, _, _, _, _, state⟩ := record
    rw [hrecord] at h
    cases state with
    | active => cases h
    | removed => rfl

theorem applyTombstone_alike_iff (r : Roster) (subject : String) (reason : RemovalReason) (removedAt removedBy : String)
    (epoch : UInt64) :
    Alike (r.applyTombstone subject reason removedAt removedBy epoch).1 r ↔
      r.isActive subject = false ∧ r.tombstones.get? subject = some ⟨subject, reason, removedAt, removedBy, epoch⟩ ∧
      ¬ r.epoch < epoch ∧ r.churn.events[subject]? = none ∧ r.held.get? subject = none := by
  rw [← markRemoved_eq_self_iff, ← epoch_max_eq_iff, ← ChurnLog.forget_eq_self_iff, ← Table.erase_eq_self_iff]
  have htomb := Table.insert_eq_self_iff (t := r.tombstones) (a := ⟨subject, reason, removedAt, removedBy, epoch⟩)
  refine Iff.trans ?_ (and_congr_right' (and_congr_left' htomb))
  exact ⟨fun h => ⟨h.devices, h.tombstones, h.epoch, h.churn, h.held⟩,
    fun h => ⟨h.1, h.2.1, h.2.2.1, h.2.2.2.1, h.2.2.2.2⟩⟩

theorem events_chargeRemoval (r : Roster) {remover subject removedAt : String} {now : SystemTime} :
    (r.chargeRemoval remover subject removedAt now).churn.events[subject]? = r.churn.events[subject]? := by
  unfold chargeRemoval
  split
  · rename_i hne
    show (r.churn.events.insert remover _)[subject]? = _
    rw [Std.ExtTreeMap.getElem?_insert, if_neg]
    rw [Std.compare_eq_iff_eq]
    exact Ne.symm hne
  · rfl

theorem writesNothing_iff (r : Roster) (subject : String) (reason : RemovalReason) (removedAt : String)
    (now : SystemTime) :
    Alike ((r.chargeRemoval r.selfId subject removedAt now).applyTombstone subject reason removedAt r.selfId
        (r.epoch + 1)).1 (r.chargeRemoval r.selfId subject removedAt now) ↔
      WritesNothing r subject reason removedAt := by
  rw [applyTombstone_alike_iff, isActive_chargeRemoval, chargeRemoval_tombstones, events_chargeRemoval]
  have hepoch : (r.chargeRemoval r.selfId subject removedAt now).epoch = r.epoch := by
    unfold chargeRemoval; split <;> rfl
  have hheld : (r.chargeRemoval r.selfId subject removedAt now).held = r.held := by
    unfold chargeRemoval; split <;> rfl
  rw [hepoch, hheld]
  exact ⟨fun h => ⟨h.1, h.2.1, h.2.2.1, h.2.2.2.1, h.2.2.2.2⟩,
    fun h => ⟨h.inactive, h.sameTombstone, h.lastEpoch, h.uncharged, h.unheld⟩⟩

theorem removal_agrees_iff {a b : Roster} (halike : Alike a b) {identity : C.IdentityKey}
    (hkey : a.identityOf C a.selfId = some (C.publicKey identity)) {subject : String} (hother : subject ≠ b.selfId)
    {reason : RemovalReason} {removedAt : String} {now : SystemTime} {applied : Applied RosterRemove}
    (hmade : (a.remove C subject reason removedAt identity now).2 = .ok applied) :
    Alike (a.remove C subject reason removedAt identity now).1 (b.receiveRemove C applied.outcome a.selfId now).1 ↔
      a.tombstones.contains subject = false ∨ WritesNothing a subject reason removedAt := by
  have hcases := remove_cases C a subject reason removedAt identity now
  generalize a.remove C subject reason removedAt identity now = made at hcases hmade ⊢
  cases hcases with
  | refused _ => cases hmade
  | applied sig hself hverifies =>
    cases hmade
    generalize hmessage : (⟨subject, reason, removedAt, a.epoch + 1, sig⟩ : RosterRemove) = message
    have hcharged := halike.chargeRemoval a.selfId subject removedAt now
    -- the receiver knows the remover by the key the removal is signed under
    have hvet : RemovalVetted C b message a.selfId := by
      subst hmessage
      exact ⟨hother, halike.isActive a.selfId ▸ hself, C.publicKey identity, halike.identityOf C a.selfId ▸ hkey,
        hverifies⟩
    have harrives := receiveRemove_cases C b message a.selfId now
    generalize b.receiveRemove C message a.selfId now = after at harrives ⊢
    cases harrives with
    | refused refusal ledger _ hnot => exact absurd hvet hnot
    | aboutSelf hevicted => exact absurd hevicted.aboutSelf hvet.notSelf
    | alreadyRemoved _ hburied =>
      subst hmessage
      rw [← writesNothing_iff a subject reason removedAt now, halike.tombstones, hburied]
      exact ⟨fun h => Or.inr (h.trans hcharged.symm), fun h => h.elim (fun h => by cases h) fun h => h.trans hcharged⟩
    | applied _ hfresh =>
      subst hmessage
      refine iff_of_true (hcharged.applyTombstone subject reason removedAt a.selfId (a.epoch + 1)) (Or.inl ?_)
      rw [halike.tombstones]
      exact hfresh

/-- `c` joins two days after `b` did, when `b`'s own joining no longer counts. -/
def cJoins : Op Crypto.plain := .receiveIntroduce (vouched "c" "kc" "" "ka") "a" (.ofSecs 1750200000)

def remover : Roster := run Crypto.plain founder [introduction "b" "kb" "" "a" "ka", cJoins]

def receiver : Roster := run Crypto.plain joiner [cJoins]

/-- The removal of `c` by `a`, in the state the roster is in. -/
def removalOfCBy (r : Roster) : Applied RosterRemove :=
  match (r.remove Crypto.plain "c" .lost "" "ka" (.ofSecs 1750200000)).2 with
  | .ok applied => applied
  | .error _ => ⟨⟨"c", .lost, "", 0, ""⟩, []⟩

theorem remove_removalOfCBy {r : Roster} (h : r.isActive r.selfId = true) :
    (r.remove Crypto.plain "c" .lost "" "ka" (.ofSecs 1750200000)).2 = .ok (removalOfCBy r) := by
  unfold removalOfCBy
  have hcases := remove_cases Crypto.plain r "c" .lost "" "ka" (.ofSecs 1750200000)
  generalize r.remove Crypto.plain "c" .lost "" "ka" (.ofSecs 1750200000) = made at hcases ⊢
  cases hcases with
  | refused hnot => rw [h] at hnot; cases hnot
  | applied sig _ _ => rfl

theorem alike_remover_receiver : Alike remover receiver :=
  ⟨Table.eq_of_values (by decide +kernel), Table.eq_of_values (by decide +kernel), by decide +kernel, by decide +kernel,
    Table.eq_of_values (by decide +kernel)⟩

theorem first_removal_agrees :
    Alike (remover.remove Crypto.plain "c" .lost "" "ka" (.ofSecs 1750200000)).1
      (receiver.receiveRemove Crypto.plain (removalOfCBy remover).outcome remover.selfId (.ofSecs 1750200000)).1 :=
  (removal_agrees_iff Crypto.plain alike_remover_receiver (by decide +kernel) (by decide +kernel)
    (remove_removalOfCBy (by decide +kernel))).mpr (Or.inl (by decide +kernel))

theorem second_removal_diverges :
    ¬ ∀ a b, Reachable Crypto.plain a → Reachable Crypto.plain b → a.selfId ≠ b.selfId → Alike a b →
      ∀ identity, a.identityOf Crypto.plain a.selfId = some (Crypto.plain.publicKey identity) →
      ∀ subject, subject ≠ b.selfId → ∀ reason removedAt now applied,
        (a.remove Crypto.plain subject reason removedAt identity now).2 = .ok applied →
        Alike (a.remove Crypto.plain subject reason removedAt identity now).1
          (b.receiveRemove Crypto.plain applied.outcome a.selfId now).1 := by
  intro h
  let a := step Crypto.plain remover (.remove "c" .lost "" "ka" (.ofSecs 1750200000))
  let b := step Crypto.plain receiver (.receiveRemove (removalOfCBy remover).outcome "a" (.ofSecs 1750200000))
  have ha : Reachable Crypto.plain a := .step _ ((Reachable.born (.found _ _)).run _)
  have hb : Reachable Crypto.plain b := .step _ ((Reachable.born born_joiner).run _)
  have halike : Alike a b :=
    ⟨Table.eq_of_values (by decide +kernel), Table.eq_of_values (by decide +kernel), by decide +kernel,
      by decide +kernel, Table.eq_of_values (by decide +kernel)⟩
  -- the same device removed once more
  have hafter := h a b ha hb (by decide +kernel) halike "ka" (by decide +kernel) "c" (by decide +kernel) .lost ""
    (.ofSecs 1750200000) _ (remove_removalOfCBy (by decide +kernel))
  exact absurd hafter.epoch (by decide +kernel)

/-! ## Two syncs, in either order -/

/-- Both rosters have the same devices active and the same ids tombstoned, at the same epoch. -/
structure SameStanding (a b : Roster) : Prop where
  active : ∀ d, a.isActive d = true ↔ b.isActive d = true
  tombstones : ∀ d, a.tombstones.contains d = true ↔ b.tombstones.contains d = true
  epoch : a.epoch = b.epoch

/-- The sync says nothing but this epoch and this list. -/
def Repeats (message : RosterSync) (epoch : UInt64) (devices : List SyncDevice) : Prop :=
  message.epoch = epoch ∧ message.devices = devices

/-- The list this roster reports, with the removals the sync brings marked. -/
def listAfter (r : Roster) (message : RosterSync) : List SyncDevice :=
  r.syncDevices.map fun device =>
    if message.devices.any (fun reported => reported.deviceId = device.deviceId && reported.state = .removed) &&
        device.deviceId ≠ r.selfId && !r.tombstones.contains device.deviceId then
      { device with state := .removed }
    else device

/-- Deactivated without a tombstone, as the server's list leaves a device. -/
def LeftOpen (r : Roster) (d : String) : Prop :=
  r.devices.contains d = true ∧ r.isActive d = false ∧ r.tombstones.contains d = false

/-- The sync alone reports removed a device that is left open, and it repeats what the roster
    reports either before the other sync or after it, but not both. -/
def Overlooked (r : Roster) (message other : RosterSync) : Prop :=
  (∃ d, LeftOpen r d ∧ ReportsRemoved message d ∧ ¬ ReportsRemoved other d) ∧
  ¬ (Repeats message r.epoch r.syncDevices ↔ Repeats message (max r.epoch other.epoch) (r.listAfter other))

/-! ### One sync from an active sender -/

section Taken

variable {r : Roster} {message : RosterSync} {sender : String}

theorem merges_iff (hdigest : C.digestOf message.epoch message.devices = message.digest)
    (hsender : r.isActive sender = true) :
    Merges C r message sender ↔ ¬ Repeats message r.epoch r.syncDevices :=
  ⟨fun h => h.differs, fun h => ⟨hdigest, hsender, h⟩⟩

theorem max_epoch_mergeReported (message : RosterSync) (sender : String) (s : Merge) (reported : SyncDevice) :
    max (mergeReported message sender s reported).roster.epoch message.epoch = max s.roster.epoch message.epoch := by
  have hcases := mergeReported_cases message sender s reported
  generalize mergeReported message sender s reported = after at hcases ⊢
  cases hcases with
  | ignored _ _ _ _ => rfl
  | noted _ _ _ => rfl
  | buried _ _ _ _ =>
    show max (max s.roster.epoch (max s.roster.epoch message.epoch)) message.epoch = _
    rw [← UInt64.toNat_inj]
    simp only [toNat_epoch_max]
    omega

theorem epoch_foldl_mergeReported (message : RosterSync) (sender : String) (l : List SyncDevice) (s : Merge) :
    max (l.foldl (mergeReported message sender) s).roster.epoch message.epoch = max s.roster.epoch message.epoch := by
  induction l generalizing s with
  | nil => rfl
  | cons b l ih =>
    rw [List.foldl_cons, ih, max_epoch_mergeReported]

theorem epoch_receiveSync (hdigest : C.digestOf message.epoch message.devices = message.digest)
    (hsender : r.isActive sender = true) :
    (r.receiveSync C message sender).1.epoch = max r.epoch message.epoch := by
  have hcases := receiveSync_cases C r message sender
  generalize r.receiveSync C message sender = after at hcases ⊢
  cases hcases with
  | unmerged outcome hnot =>
    have hrepeats := not_not.mp (mt (merges_iff C hdigest hsender).mpr hnot)
    rw [hrepeats.1, ← UInt64.toNat_inj, toNat_epoch_max]
    simp
  | merged _ => exact epoch_foldl_mergeReported message sender message.devices ⟨r, [], [], 0⟩

/-- The list repeats every removal it reports, so taking it over marks nothing. -/
theorem listAfter_of_repeats (h : message.devices = r.syncDevices) : r.listAfter message = r.syncDevices := by
  unfold listAfter
  refine (List.map_congr_left fun device hdevice => ?_).trans (List.map_id _)
  split
  · rename_i hhit
    simp only [Bool.and_eq_true, List.any_eq_true, decide_eq_true_eq] at hhit
    obtain ⟨⟨⟨reported, hreported, hid, hremoved⟩, -⟩, -⟩ := hhit
    rw [h] at hreported
    simp only [syncDevices, List.mem_map] at hdevice hreported
    obtain ⟨record, hrecord, rfl⟩ := hdevice
    obtain ⟨record', hrecord', rfl⟩ := hreported
    -- one record an id
    have hsame : record' = record := by
      have hget := Table.mem_values.mp hrecord'
      rw [show record'.deviceId = record.deviceId from hid, Table.mem_values.mp hrecord] at hget
      exact (Option.some.inj hget).symm
    subst hsame
    simp only [id, SyncDevice.mk.injEq, true_and]
    exact hremoved.symm
  · rfl

theorem syncDevices_merged (r : Roster) (message : RosterSync) (sender : String) :
    (r.merged message sender).syncDevices = r.listAfter message := by
  let hit : String → Bool := fun d =>
    message.devices.any (fun reported => reported.deviceId = d && reported.state = .removed) && d ≠ r.selfId &&
      !r.tombstones.contains d
  let mark : DeviceRecord → DeviceRecord := fun record =>
    if hit record.deviceId then { record with state := .removed } else record
  have hkey : ∀ record, (mark record).deviceId = record.deviceId := by
    intro record
    show (if hit record.deviceId then _ else _ : DeviceRecord).deviceId = _
    split <;> rfl
  have hget : ∀ d, (r.merged message sender).devices.get? d = (r.devices.get? d).map mark := by
    intro d
    obtain ⟨hhit, hmiss⟩ := get?_foldl_mergeReported message sender message.devices ⟨r, [], [], 0⟩ d
    show (message.devices.foldl (mergeReported message sender) ⟨r, [], [], 0⟩).roster.devices.get? d = _
    have hiff : hit d = true ↔ (∃ reported ∈ message.devices, reported.deviceId = d ∧ reported.state = .removed) ∧
        d ≠ r.selfId ∧ r.tombstones.contains d = false := by
      simp [hit, and_assoc]
    have hmark : ∀ record, r.devices.get? d = some record →
        mark record = if hit d then { record with state := .removed } else record := by
      intro record hrecord
      show (if hit record.deviceId then _ else _) = _
      rw [Table.get?_key hrecord]
    cases hrecord : r.devices.get? d with
    | none =>
      rw [hrecord] at hhit hmiss
      by_cases hd : hit d = true
      · exact hhit (hiff.mp hd)
      · exact hmiss fun h => hd (hiff.mpr h)
    | some record =>
      rw [hrecord] at hhit hmiss
      rw [Option.map_some, hmark record hrecord]
      by_cases hd : hit d = true
      · rw [if_pos hd]; exact hhit (hiff.mp hd)
      · rw [if_neg hd]; exact hmiss fun h => hd (hiff.mpr h)
  unfold listAfter syncDevices
  rw [Table.values_of_get? hkey hget, List.map_map, List.map_map]
  refine List.map_congr_left fun record _ => ?_
  by_cases hd : hit record.deviceId = true
  · have hmark : mark record = { record with state := .removed } := if_pos hd
    rw [Function.comp_apply, Function.comp_apply, hmark]
    exact (if_pos hd).symm
  · have hmark : mark record = record := if_neg hd
    rw [Function.comp_apply, Function.comp_apply, hmark]
    exact (if_neg hd).symm

theorem syncDevices_receiveSync (hdigest : C.digestOf message.epoch message.devices = message.digest)
    (hsender : r.isActive sender = true) :
    (r.receiveSync C message sender).1.syncDevices = r.listAfter message := by
  have hcases := receiveSync_cases C r message sender
  generalize r.receiveSync C message sender = after at hcases ⊢
  cases hcases with
  | unmerged outcome hnot =>
    have hrepeats := not_not.mp (mt (merges_iff C hdigest hsender).mpr hnot)
    exact (listAfter_of_repeats hrepeats.2).symm
  | merged _ => exact syncDevices_merged r message sender

/-- A sync that reports an active device removed is merged, so its removals always count. -/
theorem isActive_taken (hdigest : C.digestOf message.epoch message.devices = message.digest)
    (hsender : r.isActive sender = true) (hself : ¬ ReportsRemoved message r.selfId) (d : String) :
    (r.receiveSync C message sender).1.isActive d = true ↔
      r.isActive d = true ∧ ¬ (ReportsRemoved message d ∧ r.tombstones.contains d = false) := by
  rw [isActive_receiveSync]
  refine and_congr_right fun ha => not_congr ⟨fun h => ⟨h.2.1, h.2.2.2⟩, fun h => ?_⟩
  exact ⟨⟨hdigest, hsender, differs_of_active h.1 ha⟩, h.1, fun he => hself (he ▸ h.1), h.2⟩

end Taken

/-! ### One sync after another -/

/-- A well-digested sync from an active sender that removes neither this device nor a sender. -/
structure Acceptable (r : Roster) (message : RosterSync) (sender other : String) : Prop where
  digest : C.digestOf message.epoch message.devices = message.digest
  senderActive : r.isActive sender = true
  keepsSelf : ¬ ReportsRemoved message r.selfId
  keepsSender : ¬ ReportsRemoved message sender
  keepsOther : ¬ ReportsRemoved message other

section Twice

variable {r : Roster} {m₁ m₂ : RosterSync} {s₁ s₂ : String}

theorem merges_second_iff (h₁ : Acceptable C r m₁ s₁ s₂) (h₂ : Acceptable C r m₂ s₂ s₁) :
    Merges C (r.receiveSync C m₁ s₁).1 m₂ s₂ ↔ ¬ Repeats m₂ (max r.epoch m₁.epoch) (r.listAfter m₁) := by
  rw [merges_iff C h₂.digest, epoch_receiveSync C h₁.digest h₁.senderActive,
    syncDevices_receiveSync C h₁.digest h₁.senderActive]
  exact (isActive_receiveSync C r m₁ s₁ s₂).mpr ⟨h₂.senderActive, fun h => h₁.keepsOther h.2.1⟩

/-- A sync that repeats what the roster reports changes nothing about the next one. -/
theorem second_of_repeats (r : Roster) (m₁ m₂ : RosterSync) (h : Repeats m₁ r.epoch r.syncDevices) :
    Repeats m₂ (max r.epoch m₁.epoch) (r.listAfter m₁) ↔ Repeats m₂ r.epoch r.syncDevices := by
  have hepoch : max r.epoch m₁.epoch = r.epoch := by
    rw [h.1, ← UInt64.toNat_inj, toNat_epoch_max]
    simp
  rw [hepoch, listAfter_of_repeats h.2]

/-- Of two syncs, one is merged in both orders or in none. -/
theorem merged_in_either_order (r : Roster) (m₁ m₂ : RosterSync) :
    (¬ Repeats m₁ r.epoch r.syncDevices ∨ ¬ Repeats m₂ (max r.epoch m₁.epoch) (r.listAfter m₁)) ↔
      (¬ Repeats m₂ r.epoch r.syncDevices ∨ ¬ Repeats m₁ (max r.epoch m₂.epoch) (r.listAfter m₂)) := by
  by_cases h₁ : Repeats m₁ r.epoch r.syncDevices
  · rw [second_of_repeats r m₁ m₂ h₁]
    by_cases h₂ : Repeats m₂ r.epoch r.syncDevices
    · rw [second_of_repeats r m₂ m₁ h₂, or_comm]
    · exact iff_of_true (Or.inr h₂) (Or.inl h₂)
  · by_cases h₂ : Repeats m₂ r.epoch r.syncDevices
    · rw [second_of_repeats r m₂ m₁ h₂]
      exact iff_of_true (Or.inl h₁) (Or.inr h₁)
    · exact iff_of_true (Or.inl h₁) (Or.inl h₂)

theorem buried_twice (h₁ : Acceptable C r m₁ s₁ s₂) (h₂ : Acceptable C r m₂ s₂ s₁) (d : String) :
    ((r.receiveSync C m₁ s₁).1.receiveSync C m₂ s₂).1.tombstones.contains d = true ↔
      r.tombstones.contains d = true ∨ r.devices.contains d = true ∧
        (¬ Repeats m₁ r.epoch r.syncDevices ∧ ReportsRemoved m₁ d ∨
          ¬ Repeats m₂ (max r.epoch m₁.epoch) (r.listAfter m₁) ∧ ReportsRemoved m₂ d) := by
  have hquiet := quiet_receiveSync C r m₁ s₁
  have hself₁ : ReportsRemoved m₁ d → d ≠ r.selfId := fun h he => h₁.keepsSelf (he ▸ h)
  have hself₂ : ReportsRemoved m₂ d → d ≠ r.selfId := fun h he => h₂.keepsSelf (he ▸ h)
  rw [buried_receiveSync, buried_receiveSync, merges_second_iff C h₁ h₂, merges_iff C h₁.digest h₁.senderActive,
    hquiet.selfId, hquiet.contains_devices]
  constructor
  · intro h
    rcases h with (h | ⟨hmerges, hreported, -, hknown⟩) | ⟨hmerges, hreported, -, hknown⟩
    · exact Or.inl h
    · exact Or.inr ⟨hknown, Or.inl ⟨hmerges, hreported⟩⟩
    · exact Or.inr ⟨hknown, Or.inr ⟨hmerges, hreported⟩⟩
  · intro h
    rcases h with h | ⟨hknown, ⟨hmerges, hreported⟩ | ⟨hmerges, hreported⟩⟩
    · exact Or.inl (Or.inl h)
    · exact Or.inl (Or.inr ⟨hmerges, hreported, hself₁ hreported, hknown⟩)
    · exact Or.inr ⟨hmerges, hreported, hself₂ hreported, hknown⟩

theorem isActive_twice (h₁ : Acceptable C r m₁ s₁ s₂) (h₂ : Acceptable C r m₂ s₂ s₁) (d : String) :
    ((r.receiveSync C m₁ s₁).1.receiveSync C m₂ s₂).1.isActive d = true ↔
      r.isActive d = true ∧ ¬ (ReportsRemoved m₁ d ∧ r.tombstones.contains d = false) ∧
        ¬ (ReportsRemoved m₂ d ∧ r.tombstones.contains d = false) := by
  have hfirst := isActive_taken C h₁.digest h₁.senderActive h₁.keepsSelf
  have hsender : (r.receiveSync C m₁ s₁).1.isActive s₂ = true :=
    (hfirst s₂).mpr ⟨h₂.senderActive, fun h => h₁.keepsOther h.1⟩
  have hself : ¬ ReportsRemoved m₂ (r.receiveSync C m₁ s₁).1.selfId := by
    rw [(quiet_receiveSync C r m₁ s₁).selfId]; exact h₂.keepsSelf
  rw [isActive_taken C h₂.digest hsender hself, hfirst, and_assoc]
  refine and_congr_right fun _ => and_congr_right fun hkept => not_congr (and_congr_right fun _ => ?_)
  -- what is still active after the first sync, that sync did not bury
  rw [← Bool.not_eq_true, ← Bool.not_eq_true, buried_receiveSync]
  refine not_congr ⟨fun h => h.elim id fun h => ?_, Or.inl⟩
  by_contra ht
  exact hkept ⟨h.2.1, by simpa using ht⟩

/-- A device still active is buried by both orders if any of the syncs reports it. -/
theorem buried_twice_of_active (h₁ : Acceptable C r m₁ s₁ s₂) (h₂ : Acceptable C r m₂ s₂ s₁) {d : String}
    (ha : r.isActive d = true) (ht : r.tombstones.contains d = false) :
    ((r.receiveSync C m₁ s₁).1.receiveSync C m₂ s₂).1.tombstones.contains d = true ↔
      ReportsRemoved m₁ d ∨ ReportsRemoved m₂ d := by
  have hfirst : ReportsRemoved m₁ d → ¬ Repeats m₁ r.epoch r.syncDevices := fun hrep => differs_of_active hrep ha
  have hsecond : ReportsRemoved m₂ d → ¬ ReportsRemoved m₁ d →
      ¬ Repeats m₂ (max r.epoch m₁.epoch) (r.listAfter m₁) := by
    intro hrep hnot
    have hstill := (isActive_taken C h₁.digest h₁.senderActive h₁.keepsSelf d).mpr ⟨ha, fun h => hnot h.1⟩
    rw [← epoch_receiveSync C h₁.digest h₁.senderActive, ← syncDevices_receiveSync C h₁.digest h₁.senderActive]
    exact differs_of_active hrep hstill
  rw [buried_twice C h₁ h₂, ht, contains_devices_of_isActive ha]
  constructor
  · intro h
    rcases h with h | ⟨-, h | h⟩
    · cases h
    · exact Or.inl h.2
    · exact Or.inr h.2
  · intro h
    by_cases h1 : ReportsRemoved m₁ d
    · exact Or.inr ⟨rfl, Or.inl ⟨hfirst h1, h1⟩⟩
    · have h2 := h.resolve_left h1
      exact Or.inr ⟨rfl, Or.inr ⟨hsecond h2 h1, h2⟩⟩

theorem buried_twice_of_leftOpen (h₁ : Acceptable C r m₁ s₁ s₂) (h₂ : Acceptable C r m₂ s₂ s₁) {d : String}
    (hopen : LeftOpen r d) :
    ((r.receiveSync C m₁ s₁).1.receiveSync C m₂ s₂).1.tombstones.contains d = true ↔
      ¬ Repeats m₁ r.epoch r.syncDevices ∧ ReportsRemoved m₁ d ∨
        ¬ Repeats m₂ (max r.epoch m₁.epoch) (r.listAfter m₁) ∧ ReportsRemoved m₂ d := by
  rw [buried_twice C h₁ h₂, hopen.1, hopen.2.2]
  simp

/-- An overlooked removal is buried in one order and not in the other. -/
theorem overlooked_diverges (h₁ : Acceptable C r m₁ s₁ s₂) (h₂ : Acceptable C r m₂ s₂ s₁) (h : Overlooked r m₁ m₂) :
    ∃ d, ¬ (((r.receiveSync C m₁ s₁).1.receiveSync C m₂ s₂).1.tombstones.contains d = true ↔
      ((r.receiveSync C m₂ s₂).1.receiveSync C m₁ s₁).1.tombstones.contains d = true) := by
  obtain ⟨⟨d, hopen, hrep, hnot⟩, honce⟩ := h
  refine ⟨d, fun hsame => honce ?_⟩
  rw [buried_twice_of_leftOpen C h₁ h₂ hopen, buried_twice_of_leftOpen C h₂ h₁ hopen] at hsame
  simp only [hrep, hnot, and_true, and_false, or_false, false_or] at hsame
  exact not_iff_not.mp hsame

end Twice

theorem syncs_commute_iff (r : Roster) (m₁ m₂ : RosterSync) (s₁ s₂ : String) (h₁ : Acceptable C r m₁ s₁ s₂)
    (h₂ : Acceptable C r m₂ s₂ s₁) :
    SameStanding ((r.receiveSync C m₁ s₁).1.receiveSync C m₂ s₂).1 ((r.receiveSync C m₂ s₂).1.receiveSync C m₁ s₁).1 ↔
      ¬ Overlooked r m₁ m₂ ∧ ¬ Overlooked r m₂ m₁ := by
  constructor
  · intro hsame
    refine ⟨fun ho => ?_, fun ho => ?_⟩
    · obtain ⟨d, hd⟩ := overlooked_diverges C h₁ h₂ ho
      exact hd (hsame.tombstones d)
    · obtain ⟨d, hd⟩ := overlooked_diverges C h₂ h₁ ho
      exact hd (hsame.tombstones d).symm
  intro h
  obtain ⟨h12, h21⟩ := h
  have hs₂ := (isActive_taken C h₁.digest h₁.senderActive h₁.keepsSelf s₂).mpr
    ⟨h₂.senderActive, fun h => h₁.keepsOther h.1⟩
  have hs₁ := (isActive_taken C h₂.digest h₂.senderActive h₂.keepsSelf s₁).mpr
    ⟨h₁.senderActive, fun h => h₂.keepsOther h.1⟩
  refine ⟨fun d => ?_, fun d => ?_, ?_⟩
  · rw [isActive_twice C h₁ h₂, isActive_twice C h₂ h₁]
    exact and_congr_right fun _ => and_comm
  · by_cases ht : r.tombstones.contains d = true
    · rw [buried_twice C h₁ h₂, buried_twice C h₂ h₁]
      exact iff_of_true (Or.inl ht) (Or.inl ht)
    · have ht' : r.tombstones.contains d = false := by simpa using ht
      by_cases hknown : r.devices.contains d = true
      swap
      · rw [buried_twice C h₁ h₂, buried_twice C h₂ h₁]
        simp [hknown, ht]
      by_cases ha : r.isActive d = true
      · rw [buried_twice_of_active C h₁ h₂ ha ht', buried_twice_of_active C h₂ h₁ ha ht', or_comm]
      · have hopen : LeftOpen r d := ⟨hknown, by simpa using ha, ht'⟩
        rw [buried_twice_of_leftOpen C h₁ h₂ hopen, buried_twice_of_leftOpen C h₂ h₁ hopen]
        -- one sync alone reports it: it is overlooked in no order
        have honly₁ : ReportsRemoved m₁ d → ¬ ReportsRemoved m₂ d → (Repeats m₁ r.epoch r.syncDevices ↔
            Repeats m₁ (max r.epoch m₂.epoch) (r.listAfter m₂)) :=
          fun hr hn => by by_contra ho; exact h12 ⟨⟨d, hopen, hr, hn⟩, ho⟩
        have honly₂ : ReportsRemoved m₂ d → ¬ ReportsRemoved m₁ d → (Repeats m₂ r.epoch r.syncDevices ↔
            Repeats m₂ (max r.epoch m₁.epoch) (r.listAfter m₁)) :=
          fun hr hn => by by_contra ho; exact h21 ⟨⟨d, hopen, hr, hn⟩, ho⟩
        by_cases hr₁ : ReportsRemoved m₁ d <;> by_cases hr₂ : ReportsRemoved m₂ d
        · simp only [hr₁, hr₂, and_true]
          exact merged_in_either_order r m₁ m₂
        · have := honly₁ hr₁ hr₂
          simp only [hr₁, hr₂, and_true, and_false, or_false, false_or]
          exact not_congr this
        · have := honly₂ hr₂ hr₁
          simp only [hr₁, hr₂, and_true, and_false, or_false, false_or]
          exact not_congr this.symm
        · simp [hr₁, hr₂]
  · rw [epoch_receiveSync C h₂.digest hs₂, epoch_receiveSync C h₁.digest h₁.senderActive,
      epoch_receiveSync C h₁.digest hs₁, epoch_receiveSync C h₂.digest h₂.senderActive, ← UInt64.toNat_inj]
    simp only [toNat_epoch_max]
    omega

/-- The server has revoked `d`, which nobody removed. -/
def revokedD : Roster :=
  run Crypto.plain founder
    [introduction "b" "kb" "" "a" "ka", introduction "c" "kc" "" "a" "ka", introduction "d" "kd" "" "a" "ka",
     .reconcileServerList [⟨"d", true⟩]]

/-- What `c` reports: a later epoch, and nothing of `d`. -/
def laterEpoch : RosterSync := ⟨5, [], Crypto.plain.digestOf 5 []⟩

theorem acceptable_of_b : Acceptable Crypto.plain revokedD (revokedD.sync Crypto.plain) "b" "c" := by
  refine ⟨rfl, by decide +kernel, ?_, ?_, ?_⟩ <;> unfold ReportsRemoved <;> decide +kernel

theorem acceptable_of_c : Acceptable Crypto.plain revokedD laterEpoch "c" "b" := by
  refine ⟨rfl, by decide +kernel, ?_, ?_, ?_⟩ <;> unfold ReportsRemoved <;> decide +kernel

theorem revokedD_syncs_commute_iff :
    SameStanding
        ((revokedD.receiveSync Crypto.plain (revokedD.sync Crypto.plain) "b").1.receiveSync Crypto.plain laterEpoch "c").1
        ((revokedD.receiveSync Crypto.plain laterEpoch "c").1.receiveSync Crypto.plain (revokedD.sync Crypto.plain) "b").1 ↔
      ¬ Overlooked revokedD (revokedD.sync Crypto.plain) laterEpoch ∧
        ¬ Overlooked revokedD laterEpoch (revokedD.sync Crypto.plain) :=
  syncs_commute_iff Crypto.plain revokedD _ _ "b" "c" acceptable_of_b acceptable_of_c

/-- `b` repeats `a`'s own list, which is no news before `c`'s epoch and buries `d` after it. -/
theorem order_decides_burial :
    ¬ ∀ r, Reachable Crypto.plain r → ∀ m₁ m₂ s₁ s₂, s₁ ≠ s₂ → Acceptable Crypto.plain r m₁ s₁ s₂ →
      Acceptable Crypto.plain r m₂ s₂ s₁ →
      SameStanding ((r.receiveSync Crypto.plain m₁ s₁).1.receiveSync Crypto.plain m₂ s₂).1
        ((r.receiveSync Crypto.plain m₂ s₂).1.receiveSync Crypto.plain m₁ s₁).1 := by
  intro h
  have hr : Reachable Crypto.plain revokedD := (Reachable.born (.found _ _)).run _
  have hsame := (h _ hr _ _ "b" "c" (by decide) acceptable_of_b acceptable_of_c).tombstones "d"
  exact absurd hsame (by decide +kernel)

end Roster

end Beacon
