/-
  Beacon.Roster.Burials — which steps leave a device tombstoned, and what a merge does
  to one device.

  - `buried_step`: after a step a device is tombstoned exactly if it was, or the step
    is one that `Buries` it: a vetted removal, an own removal, or a merged sync that
    reports it removed while this roster has a record of it.
  - `isActive_receiveSync`: a sync deactivates exactly the devices whose removal it
    brings anew.
  - `active_or_buried_step`: only the server's word deactivates a device without burying it.
  A removal or a sync is taken by its ends (`Beacon.Roster.Ends`). The server's list and the
  quarantine bury nobody.
-/

import Beacon.Roster.Effects

namespace Beacon

open Lib

namespace Roster

variable (C : Crypto)

/-! ## What buries -/

/-- The sync reports `d` as removed. -/
def ReportsRemoved (message : RosterSync) (d : String) : Prop :=
  ∃ reported ∈ message.devices, reported.deviceId = d ∧ reported.state = .removed

/-- The step leaves `d` tombstoned, whether it was before or not. -/
def Buries (r : Roster) (d : String) : Op C → Prop
  | .receiveRemove message remover _ => message.subject = d ∧ RemovalVetted C r message remover
  | .remove subject _ _ _ _ => subject = d ∧ r.isActive r.selfId = true
  | .receiveSync message sender =>
    Merges C r message sender ∧ ReportsRemoved message d ∧ d ≠ r.selfId ∧ r.devices.contains d = true
  | _ => False

@[simp] theorem isActive_chargeRemoval (r : Roster) (remover subject removedAt : String) (now : SystemTime)
    (d : String) : (r.chargeRemoval remover subject removedAt now).isActive d = r.isActive d := by
  unfold chargeRemoval; split <;> rfl

/-! ### Which end buries -/

theorem buried_receiveRemove (r : Roster) (message : RosterRemove) (remover : String) (now : SystemTime) (d : String) :
    (r.receiveRemove C message remover now).1.tombstones.contains d = true ↔
      r.tombstones.contains d = true ∨ message.subject = d ∧ RemovalVetted C r message remover := by
  have hcases := receiveRemove_cases C r message remover now
  generalize r.receiveRemove C message remover now = after at hcases ⊢
  cases hcases with
  | refused refusal ledger _ hnot => simp [hnot]
  | aboutSelf hvet =>
    have hnot : ¬ RemovalVetted C r message remover := fun h => h.notSelf hvet.aboutSelf
    simp [hnot, evicted]
  | alreadyRemoved hvet ht =>
    simp only [chargeRemoval_tombstones]
    exact ⟨Or.inl, fun h => h.elim id fun h => h.1 ▸ ht⟩
  | applied hvet _ => simp [contains_applyTombstone, hvet, or_comm]

theorem buried_remove (r : Roster) (subject : String) (reason : RemovalReason) (removedAt : String)
    (identity : C.IdentityKey) (now : SystemTime) (d : String) :
    (r.remove C subject reason removedAt identity now).1.tombstones.contains d = true ↔
      r.tombstones.contains d = true ∨ subject = d ∧ r.isActive r.selfId = true := by
  have hcases := remove_cases C r subject reason removedAt identity now
  generalize r.remove C subject reason removedAt identity now = after at hcases ⊢
  cases hcases with
  | refused hs => simp [hs]
  | applied sig hs _ => simp [contains_applyTombstone, hs, or_comm]

theorem subject_of_remove {r : Roster} {subject : String} {reason : RemovalReason} {removedAt : String}
    {identity : C.IdentityKey} {now : SystemTime} {applied : Applied RosterRemove}
    (h : (r.remove C subject reason removedAt identity now).2 = .ok applied) : applied.outcome.subject = subject := by
  have hcases := remove_cases C r subject reason removedAt identity now
  generalize r.remove C subject reason removedAt identity now = after at hcases h
  cases hcases with
  | refused _ => cases h
  | applied sig _ _ => cases h; rfl

/-- What an adoption that succeeds builds. -/
theorem outcome_adopt {selfId : String} {introducer : DeviceRecord} {devices : List DeviceRecord}
    {tombstones : List Tombstone} {epoch : UInt64} {vouch : RosterIntroduce} {applied : Applied Roster}
    (h : adopt C selfId introducer devices tombstones epoch vouch = .ok applied) :
    vouch.subject.deviceId = selfId ∧ (Table.ofList tombstones : Table Tombstone.subject).contains selfId = false ∧
      applied.outcome =
        { selfId
          devices := ((Table.ofList devices).insert (.fromVouch vouch.subject introducer.deviceId)).insertIfNew introducer
          tombstones := .ofList tombstones
          epoch
          churn := .new
          held := .empty
          removedMe := ∅ } := by
  simp only [adopt, bind, Except.bind, pure, Except.pure, throw, throwThe, MonadExceptOf.throw] at h
  split at h
  · cases h
  rename_i hsubject
  split at h
  · cases h
  split at h
  · cases h
  split at h
  · cases h
  rename_i hburied
  cases h
  exact ⟨not_not.mp hsubject, by simpa using hburied, rfl⟩

theorem tombstones_adopt {selfId : String} {introducer : DeviceRecord} {devices : List DeviceRecord}
    {tombstones : List Tombstone} {epoch : UInt64} {vouch : RosterIntroduce} {applied : Applied Roster}
    (h : adopt C selfId introducer devices tombstones epoch vouch = .ok applied) :
    applied.outcome.tombstones = .ofList tombstones := by
  rw [(outcome_adopt C h).2.2]

/-! ### The removed-me set -/

theorem contains_insert_iff (peers : Std.ExtTreeSet String compare) (a b : String) :
    (peers.insert a).contains b = true ↔ a = b ∨ peers.contains b = true := by
  rw [Std.ExtTreeSet.contains_insert, Bool.or_eq_true, beq_iff_eq, Std.compare_eq_iff_eq]

theorem insert_of_contains {peers : Std.ExtTreeSet String compare} {a : String} (h : peers.contains a = true) :
    peers.insert a = peers := by
  apply Std.ExtTreeSet.ext_mem
  intro b
  rw [← Std.ExtTreeSet.contains_iff_mem, ← Std.ExtTreeSet.contains_iff_mem, contains_insert_iff]
  refine ⟨fun hb => hb.elim ?_ id, Or.inr⟩
  intro he
  rw [← he]; exact h

/-! ### The merge loop, for one device -/

theorem mergeReported_selfId (message : RosterSync) (sender : String) (s : Merge) (reported : SyncDevice) :
    (mergeReported message sender s reported).roster.selfId = s.roster.selfId :=
  (quiet_mergeReported message sender s reported).selfId

theorem buried_mergeReported (message : RosterSync) (sender : String) (s : Merge) (reported : SyncDevice) (d : String) :
    (mergeReported message sender s reported).roster.tombstones.contains d = true ↔
      s.roster.tombstones.contains d = true ∨
      (reported.deviceId = d ∧ reported.state = .removed) ∧ d ≠ s.roster.selfId ∧ s.roster.devices.contains d = true := by
  have hcases := mergeReported_cases message sender s reported
  generalize mergeReported message sender s reported = after at hcases ⊢
  cases hcases with
  | ignored _ _ _ hnot =>
    refine ⟨Or.inl, fun h => h.elim id ?_⟩
    intro h
    rcases h with ⟨⟨rfl, hrem⟩, -, hknown⟩
    by_contra ht
    exact hnot ⟨hrem, hknown, Or.inr (by simpa using ht)⟩
  | noted _ hself _ =>
    refine ⟨Or.inl, fun h => h.elim id ?_⟩
    intro h
    rcases h with ⟨⟨rfl, -⟩, hne, -⟩
    exact absurd hself hne
  | buried hrem hself hknown _ =>
    rw [contains_applyTombstone, Bool.or_eq_true, decide_eq_true_eq, or_comm]
    refine or_congr_right ⟨?_, fun h => h.1.1⟩
    intro heq
    subst heq
    exact ⟨⟨rfl, hrem⟩, hself, hknown⟩

/-- A reported removal deactivates the record once, when it is buried. -/
theorem get?_mergeReported (message : RosterSync) (sender : String) (s : Merge) (reported : SyncDevice) (d : String) :
    (mergeReported message sender s reported).roster.devices.get? d =
      if (reported.deviceId = d ∧ reported.state = .removed) ∧ d ≠ s.roster.selfId ∧
          s.roster.tombstones.contains d = false then
        (s.roster.devices.get? d).map fun record => { record with state := .removed }
      else s.roster.devices.get? d := by
  have hcases := mergeReported_cases message sender s reported
  generalize mergeReported message sender s reported = after at hcases ⊢
  cases hcases with
  | ignored _ _ _ hnot =>
    split
    · rename_i hhit
      obtain ⟨⟨rfl, hrem⟩, -, ht⟩ := hhit
      -- there is no record to deactivate
      cases hrecord : s.roster.devices.get? reported.deviceId with
      | none => rfl
      | some record => exact absurd ⟨hrem, Table.contains_iff.mpr ⟨record, hrecord⟩, Or.inr ht⟩ hnot
    · rfl
  | noted _ hself _ => rw [if_neg fun h => h.2.1 (h.1.1 ▸ hself)]
  | buried hrem hself _ ht =>
    show (markRemoved s.roster.devices reported.deviceId).get? d = _
    rw [get?_markRemoved]
    refine if_congr ⟨fun h => ?_, fun h => h.1.1⟩ rfl rfl
    subst h
    exact ⟨⟨rfl, hrem⟩, hself, ht⟩

theorem removedMe_mergeReported (message : RosterSync) (sender : String) (s : Merge) (reported : SyncDevice)
    (d : String) : (mergeReported message sender s reported).roster.removedMe.contains d = true ↔
      s.roster.removedMe.contains d = true ∨ sender = d ∧ reported.state = .removed ∧
        reported.deviceId = s.roster.selfId ∧ s.roster.devices.contains reported.deviceId = true := by
  have hcases := mergeReported_cases message sender s reported
  generalize mergeReported message sender s reported = after at hcases ⊢
  cases hcases with
  | ignored _ _ _ hnot =>
    refine ⟨Or.inl, fun h => h.elim id ?_⟩
    intro h
    exact absurd ⟨h.2.1, h.2.2.2, Or.inl h.2.2.1⟩ hnot
  | noted hrem hself hknown =>
    rw [contains_insert_iff, or_comm]
    exact or_congr_right ⟨fun h => ⟨h, hrem, hself, hknown⟩, And.left⟩
  | buried _ hself _ _ =>
    refine ⟨Or.inl, fun h => h.elim id ?_⟩
    intro h
    exact absurd h.2.2.1 hself

theorem removedMe_foldl_mergeReported (message : RosterSync) (sender : String) (l : List SyncDevice) (s : Merge)
    (d : String) : (l.foldl (mergeReported message sender) s).roster.removedMe.contains d = true ↔
      s.roster.removedMe.contains d = true ∨ sender = d ∧
        (∃ reported ∈ l, reported.deviceId = s.roster.selfId ∧ reported.state = .removed) ∧
        s.roster.devices.contains s.roster.selfId = true := by
  induction l generalizing s with
  | nil => simp
  | cons b l ih =>
    rw [List.foldl_cons, ih, removedMe_mergeReported, mergeReported_selfId,
      (quiet_mergeReported message sender s b).contains_devices, List.exists_mem_cons_iff]
    constructor
    · intro h
      rcases h with (h | ⟨rfl, hrem, hself, hknown⟩) | ⟨rfl, hl, hknown⟩
      · exact Or.inl h
      · exact Or.inr ⟨rfl, Or.inl ⟨hself, hrem⟩, hself ▸ hknown⟩
      · exact Or.inr ⟨rfl, Or.inr hl, hknown⟩
    · intro h
      rcases h with h | ⟨rfl, ⟨hself, hrem⟩ | hl, hknown⟩
      · exact Or.inl (Or.inl h)
      · exact Or.inl (Or.inr ⟨rfl, hrem, hself, hself.symm ▸ hknown⟩)
      · exact Or.inr ⟨rfl, hl, hknown⟩

theorem buried_foldl_mergeReported (message : RosterSync) (sender : String) (l : List SyncDevice) (s : Merge)
    (d : String) :
    (l.foldl (mergeReported message sender) s).roster.tombstones.contains d = true ↔
      s.roster.tombstones.contains d = true ∨
      (∃ reported ∈ l, reported.deviceId = d ∧ reported.state = .removed) ∧ d ≠ s.roster.selfId ∧
        s.roster.devices.contains d = true := by
  induction l generalizing s with
  | nil => simp
  | cons b l ih =>
    rw [List.foldl_cons, ih, buried_mergeReported, mergeReported_selfId,
      (quiet_mergeReported message sender s b).contains_devices, List.exists_mem_cons_iff, or_and_right, or_assoc]

theorem get?_foldl_mergeReported (message : RosterSync) (sender : String) (l : List SyncDevice) (s : Merge)
    (d : String) :
    let hit := (∃ reported ∈ l, reported.deviceId = d ∧ reported.state = .removed) ∧ d ≠ s.roster.selfId ∧
      s.roster.tombstones.contains d = false
    (hit → (l.foldl (mergeReported message sender) s).roster.devices.get? d =
      (s.roster.devices.get? d).map fun record => { record with state := .removed }) ∧
    (¬ hit → (l.foldl (mergeReported message sender) s).roster.devices.get? d = s.roster.devices.get? d) := by
  induction l generalizing s with
  | nil => simp
  | cons b l ih =>
    intro hit
    obtain ⟨ihhit, ihmiss⟩ := ih (mergeReported message sender s b)
    have hhead := get?_mergeReported message sender s b d
    have hburied := buried_mergeReported message sender s b d
    rw [mergeReported_selfId] at ihhit ihmiss
    rw [List.foldl_cons]
    by_cases hb : (b.deviceId = d ∧ b.state = .removed) ∧ d ≠ s.roster.selfId ∧ s.roster.tombstones.contains d = false
    · -- the head hits: from then on `d` is buried, or was never known
      rw [if_pos hb] at hhead
      refine ⟨fun _ => ?_, fun hmiss => absurd ⟨⟨b, List.mem_cons_self, hb.1⟩, hb.2⟩ hmiss⟩
      by_cases hlater : (∃ reported ∈ l, reported.deviceId = d ∧ reported.state = .removed) ∧ d ≠ s.roster.selfId ∧
          (mergeReported message sender s b).roster.tombstones.contains d = false
      · rw [ihhit hlater, hhead]
        have hunknown : s.roster.devices.get? d = none := by
          rw [← Table.contains_eq_false]
          by_contra hknown
          rw [hburied.mpr (Or.inr ⟨hb.1, hb.2.1, by simpa using hknown⟩)] at hlater
          cases hlater.2.2
        rw [hunknown]; rfl
      · rw [ihmiss hlater, hhead]
    · -- the head misses, and leaves `d`'s standing as it was
      rw [if_neg hb] at hhead
      have hsame : (mergeReported message sender s b).roster.tombstones.contains d = false ↔
          s.roster.tombstones.contains d = false := by
        rw [← Bool.not_eq_true, hburied, ← Bool.not_eq_true]
        refine not_congr ⟨fun h => h.elim id fun h => ?_, Or.inl⟩
        by_contra ht
        exact hb ⟨h.1, h.2.1, by simpa using ht⟩
      rw [hsame, hhead] at ihhit ihmiss
      refine ⟨fun h => ?_, fun h => ihmiss fun hl => h ⟨hl.1.imp fun _ hr => ⟨List.mem_cons_of_mem _ hr.1, hr.2⟩, hl.2⟩⟩
      obtain ⟨⟨reported, hmem, hr⟩, hrest⟩ := h
      rcases List.mem_cons.mp hmem with rfl | hmem
      · exact absurd ⟨hr, hrest⟩ hb
      · exact ihhit ⟨⟨reported, hmem, hr⟩, hrest⟩

theorem isActive_foldl_mergeReported (message : RosterSync) (sender : String) (l : List SyncDevice) (s : Merge)
    (d : String) :
    (l.foldl (mergeReported message sender) s).roster.isActive d = true ↔
      s.roster.isActive d = true ∧
      ¬((∃ reported ∈ l, reported.deviceId = d ∧ reported.state = .removed) ∧ d ≠ s.roster.selfId ∧
        s.roster.tombstones.contains d = false) := by
  obtain ⟨hhit, hmiss⟩ := get?_foldl_mergeReported message sender l s d
  unfold isActive
  by_cases hd : (∃ reported ∈ l, reported.deviceId = d ∧ reported.state = .removed) ∧ d ≠ s.roster.selfId ∧
      s.roster.tombstones.contains d = false
  · rw [hhit hd]
    refine iff_of_false ?_ fun h => h.2 hd
    cases s.roster.devices.get? d <;> simp [DeviceRecord.isActive]
  · rw [hmiss hd]
    exact ⟨fun h => ⟨h, hd⟩, And.left⟩

theorem buried_receiveSync (r : Roster) (message : RosterSync) (sender d : String) :
    (r.receiveSync C message sender).1.tombstones.contains d = true ↔
      r.tombstones.contains d = true ∨
      Merges C r message sender ∧ ReportsRemoved message d ∧ d ≠ r.selfId ∧ r.devices.contains d = true := by
  have hmerge := buried_foldl_mergeReported message sender message.devices ⟨r, [], [], 0⟩ d
  have hcases := receiveSync_cases C r message sender
  generalize r.receiveSync C message sender = after at hcases ⊢
  cases hcases with
  | unmerged outcome hnot => simp [hnot]
  | merged hm => simp only [hm, true_and]; exact hmerge

theorem removedMe_receiveSync (r : Roster) (message : RosterSync) (sender d : String) :
    (r.receiveSync C message sender).1.removedMe.contains d = true ↔
      r.removedMe.contains d = true ∨ sender = d ∧ Merges C r message sender ∧ ReportsRemoved message r.selfId ∧
        r.devices.contains r.selfId = true := by
  have hmerge := removedMe_foldl_mergeReported message sender message.devices ⟨r, [], [], 0⟩ d
  have hcases := receiveSync_cases C r message sender
  generalize r.receiveSync C message sender = after at hcases ⊢
  cases hcases with
  | unmerged outcome hnot => simp [hnot]
  | merged hm => simp only [hm, true_and]; exact hmerge

theorem isActive_receiveSync (r : Roster) (message : RosterSync) (sender d : String) :
    (r.receiveSync C message sender).1.isActive d = true ↔
      r.isActive d = true ∧
      ¬(Merges C r message sender ∧ ReportsRemoved message d ∧ d ≠ r.selfId ∧ r.tombstones.contains d = false) := by
  have hmerge := isActive_foldl_mergeReported message sender message.devices ⟨r, [], [], 0⟩ d
  have hcases := receiveSync_cases C r message sender
  generalize r.receiveSync C message sender = after at hcases ⊢
  cases hcases with
  | unmerged outcome hnot => simp [hnot]
  | merged hm => simp only [hm, true_and]; exact hmerge

theorem tombstones_reconcileServerList (r : Roster) (listed : List ServerDevice) :
    (r.reconcileServerList listed).1.tombstones = r.tombstones := by
  rw [reconcileServerList_eq]

theorem isActive_reconcileRow (s : Reconcile) (device : ServerDevice) (d : String) :
    (reconcileRow s device).roster.isActive d = true ↔ s.roster.isActive d = true ∧ ⟨d, true⟩ ≠ device := by
  obtain ⟨deviceId, revoked⟩ := device
  unfold reconcileRow
  simp only []
  cases hrecord : s.roster.devices.get? deviceId with
  | none =>
    have hout : s.roster.isActive deviceId = false := by simp [isActive, hrecord]
    refine ⟨fun h => ⟨h, fun he => ?_⟩, And.left⟩
    cases he
    rw [hout] at h; cases h
  | some record =>
    simp only []
    by_cases ha : record.isActive = true
    · rw [if_pos ha]
      cases revoked with
      | true => rw [if_pos rfl, isActive_markRemoved]; simp [@eq_comm _ d]
      | false => simp
    · rw [if_neg ha]
      have hout : s.roster.isActive deviceId = false := by simpa [isActive, hrecord] using ha
      refine ⟨fun h => ⟨h, fun he => ?_⟩, And.left⟩
      cases he
      rw [hout] at h; cases h

theorem isActive_reconcileServerList (r : Roster) (listed : List ServerDevice) (d : String) :
    (r.reconcileServerList listed).1.isActive d = true ↔ r.isActive d = true ∧ ⟨d, true⟩ ∉ listed := by
  show (listed.foldl reconcileRow ⟨r, [], [], ∅⟩).roster.isActive d = true ↔ _
  suffices h : ∀ s : Reconcile, (listed.foldl reconcileRow s).roster.isActive d = true ↔
      s.roster.isActive d = true ∧ ⟨d, true⟩ ∉ listed from h _
  induction listed with
  | nil => simp
  | cons device listed ih =>
    intro s
    rw [List.foldl_cons, ih, isActive_reconcileRow, List.mem_cons, not_or, and_assoc]

theorem buried_step (r : Roster) (op : Op C) (d : String) :
    (step C r op).tombstones.contains d = true ↔ r.tombstones.contains d = true ∨ Buries C r d op := by
  cases op with
  | receiveIntroduce message introducer now =>
    have hcases := receiveIntroduce_cases C r message introducer now
    show (r.receiveIntroduce C message introducer now).1.tombstones.contains d = true ↔ _ ∨ False
    generalize r.receiveIntroduce C message introducer now = after at hcases ⊢
    cases hcases <;> simp [refuseVouch, admitDevice]
  | approveHeld s =>
    show (r.approveHeld s).1.tombstones.contains d = true ↔ _ ∨ False
    have hsame : (r.approveHeld s).1.tombstones = r.tombstones := by
      have hcases := approveHeld_cases r s
      generalize r.approveHeld s = after at hcases ⊢
      cases hcases <;> rfl
    rw [hsame, or_false]
  | denyHeld s =>
    show (r.denyHeld s).1.tombstones.contains d = true ↔ _ ∨ False
    rw [denyHeld_eq, or_false]
  | receiveRemove message remover now => exact buried_receiveRemove C r message remover now d
  | remove subject reason removedAt identity now => exact buried_remove C r subject reason removedAt identity now d
  | receiveSync message sender => exact buried_receiveSync C r message sender d
  | updateLabels e displayName memberGroup role =>
    show (r.updateLabels e displayName memberGroup role).1.tombstones.contains d = true ↔ _ ∨ False
    rw [updateLabels_eq, or_false]
  | reconcileServerList listed =>
    show (r.reconcileServerList listed).1.tombstones.contains d = true ↔ _ ∨ False
    rw [tombstones_reconcileServerList, or_false]
  | restart selfId => rw [step_restart]; exact (or_false _).symm ▸ Iff.rfl

/-! ## What takes away -/

/-- The step takes the server's word that `d` is revoked. -/
def Revokes (d : String) : Op C → Prop
  | .reconcileServerList listed => ⟨d, true⟩ ∈ listed
  | _ => False

/-- Whoever was active is active after a step, or buried, or revoked by the server. -/
theorem active_or_buried_step {r : Roster} {d : String} (op : Op C) (h : r.isActive d = true)
    (hop : ¬ Revokes C d op) : (step C r op).isActive d = true ∨ (step C r op).tombstones.contains d = true := by
  cases op with
  | receiveIntroduce message introducer now =>
    have hcases := receiveIntroduce_cases C r message introducer now
    show (r.receiveIntroduce C message introducer now).1.isActive d = true ∨ _
    generalize r.receiveIntroduce C message introducer now = after at hcases ⊢
    cases hcases with
    | refused refusal _ => exact Or.inl h
    | alreadyKnown _ _ => exact Or.inl h
    | held _ _ _ => exact Or.inl h
    | admitted _ _ _ => rw [isActive_admitDevice, Bool.or_eq_true]; exact Or.inl (Or.inr h)
  | approveHeld s =>
    left
    have hcases := approveHeld_cases r s
    show (r.approveHeld s).1.isActive d = true
    generalize r.approveHeld s = after at hcases ⊢
    cases hcases with
    | absent _ => exact h
    | refused refusal => exact h
    | admitted held _ _ _ => rw [isActive_admitDevice, Bool.or_eq_true]; exact Or.inr h
  | denyHeld s =>
    left
    show (r.denyHeld s).1.isActive d = true
    rw [denyHeld_eq]
    exact h
  | receiveRemove message remover now =>
    have hcases := receiveRemove_cases C r message remover now
    show (r.receiveRemove C message remover now).1.isActive d = true ∨
      (r.receiveRemove C message remover now).1.tombstones.contains d = true
    generalize r.receiveRemove C message remover now = after at hcases ⊢
    cases hcases with
    | refused refusal ledger _ _ => exact Or.inl h
    | aboutSelf _ => exact Or.inl h
    | alreadyRemoved _ _ => rw [isActive_chargeRemoval]; exact Or.inl h
    | applied _ _ =>
      rw [isActive_applyTombstone, isActive_chargeRemoval, contains_applyTombstone, h]
      by_cases hd : message.subject = d <;> simp [hd]
  | remove subject reason removedAt identity now =>
    have hcases := remove_cases C r subject reason removedAt identity now
    show (r.remove C subject reason removedAt identity now).1.isActive d = true ∨
      (r.remove C subject reason removedAt identity now).1.tombstones.contains d = true
    generalize r.remove C subject reason removedAt identity now = after at hcases ⊢
    cases hcases with
    | refused _ => exact Or.inl h
    | applied sig _ _ =>
      rw [isActive_applyTombstone, isActive_chargeRemoval, contains_applyTombstone, h]
      by_cases hd : subject = d <;> simp [hd]
  | receiveSync message sender =>
    show (r.receiveSync C message sender).1.isActive d = true ∨
      (r.receiveSync C message sender).1.tombstones.contains d = true
    rw [isActive_receiveSync, buried_receiveSync]
    by_cases hm : Merges C r message sender ∧ ReportsRemoved message d ∧ d ≠ r.selfId ∧ r.tombstones.contains d = false
    · exact Or.inr (Or.inr ⟨hm.1, hm.2.1, hm.2.2.1, contains_devices_of_isActive h⟩)
    · exact Or.inl ⟨h, hm⟩
  | updateLabels e displayName memberGroup role =>
    left
    show (r.updateLabels e displayName memberGroup role).1.isActive d = true
    rw [← mem_view_active, view_updateLabels]
    exact h
  | reconcileServerList listed => exact Or.inl ((isActive_reconcileServerList r listed d).mpr ⟨h, hop⟩)
  | restart selfId => rw [step_restart]; exact Or.inl h

end Roster

end Beacon
