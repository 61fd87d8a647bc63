/-
  Beacon.Roster.Shortcut — the in-sync exit of `receive_sync` against the merge it skips.

  The exit compares the epoch and the list the wire shows; the merge also reads the
  tombstones and this device's own record.
  - `shortcut_agrees_iff`: they agree exactly on a roster that is `UpToDate`: whoever it
    lists as removed it has buried, and if it lists itself so, it has noted the sender.
  - `buriesRemoved_run`: a removed record lacks a tombstone only after the server's word.
-/

import Beacon.Roster.Agreement

namespace Beacon

open Lib

namespace Roster

variable (C : Crypto)

/-- A merge of this roster's own list, sent by `sender`, would find everything written. -/
structure UpToDate (r : Roster) (sender : String) : Prop where
  buried : ∀ d record, r.devices.get? d = some record → record.state = .removed → d ≠ r.selfId →
    r.tombstones.contains d = true
  noted : ∀ record, r.devices.get? r.selfId = some record → record.state = .removed →
    r.removedMe.contains sender = true

/-! ## A merge of one's own list -/

section OwnList

variable {r : Roster} {message : RosterSync} {sender : String}

theorem reportsRemoved_own (hdevices : message.devices = r.syncDevices) (d : String) :
    ReportsRemoved message d ↔ ∃ record, r.devices.get? d = some record ∧ record.state = .removed := by
  rw [← reportsRemoved_sync Crypto.plain r d]
  unfold ReportsRemoved
  rw [hdevices]
  rfl

/-- An up-to-date roster's own list has nothing left to merge. -/
theorem UpToDate.settled (hset : UpToDate r sender) {reported : SyncDevice} (hreported : reported ∈ r.syncDevices) :
    Settled sender r reported := by
  obtain ⟨record, hrecord, rfl⟩ := List.mem_map.mp hreported
  have hget : r.devices.get? record.deviceId = some record := Table.mem_values.mp hrecord
  intro hrem _
  split
  · rename_i hself
    exact hset.noted record (hself ▸ hget) hrem
  · rename_i hself
    exact hset.buried _ record hget hrem hself

theorem mergeDevices_upToDate (hset : UpToDate r sender) (hdevices : message.devices = r.syncDevices) :
    (r.mergeDevices message sender).roster = r := by
  have hsettled : ∀ reported ∈ message.devices, Settled sender r reported :=
    fun reported hreported => hset.settled (hdevices ▸ hreported)
  exact foldl_mergeReported_of_settled (s := ⟨r, [], [], 0⟩) hsettled

theorem merged_eq_self_iff (hepoch : message.epoch = r.epoch) (hdevices : message.devices = r.syncDevices) :
    r.merged message sender = r ↔ UpToDate r sender := by
  constructor
  · intro hsame
    have htombstones := buried_foldl_mergeReported message sender message.devices ⟨r, [], [], 0⟩
    have hremovedMe := removedMe_foldl_mergeReported message sender message.devices ⟨r, [], [], 0⟩ sender
    refine ⟨fun d record hrecord hrem hself => ?_, fun record hrecord hrem => ?_⟩
    · have hburied : (r.merged message sender).tombstones.contains d = true :=
        (htombstones d).mpr (Or.inr ⟨(reportsRemoved_own hdevices d).mpr ⟨record, hrecord, hrem⟩, hself,
          Table.contains_iff.mpr ⟨record, hrecord⟩⟩)
      rwa [hsame] at hburied
    · have hnoted : (r.merged message sender).removedMe.contains sender = true :=
        hremovedMe.mpr (Or.inr ⟨rfl, (reportsRemoved_own hdevices r.selfId).mpr ⟨record, hrecord, hrem⟩,
          Table.contains_iff.mpr ⟨record, hrecord⟩⟩)
      rwa [hsame] at hnoted
  · intro hset
    unfold merged
    rw [mergeDevices_upToDate hset hdevices, hepoch, (epoch_max_eq_iff r.epoch r.epoch).mpr (UInt64.lt_irrefl _)]

end OwnList

/-- For a well-digested sync of an active sender that repeats this roster's own view: it
    is answered `InSync`, and merging it instead would leave the roster as it is exactly
    if the roster is up to date. -/
theorem shortcut_agrees_iff (r : Roster) (message : RosterSync) (sender : String)
    (hdigest : C.digestOf message.epoch message.devices = message.digest) (hsender : r.isActive sender = true)
    (hepoch : message.epoch = r.epoch) (hdevices : message.devices = r.syncDevices) :
    (r.receiveSync C message sender).2.outcome = .inSync ∧ (r.merged message sender = r ↔ UpToDate r sender) := by
  refine ⟨?_, merged_eq_self_iff hepoch hdevices⟩
  rw [receiveSync_of_repeats C hdigest hsender ⟨hepoch, hdevices⟩]

theorem up_to_date_family_agrees :
    (remover.receiveSync Crypto.plain (remover.sync Crypto.plain) "b").2.outcome = .inSync ∧
      (remover.merged (remover.sync Crypto.plain) "b" = remover ↔ UpToDate remover "b") :=
  shortcut_agrees_iff Crypto.plain remover (remover.sync Crypto.plain) "b" rfl (by decide +kernel) rfl rfl

/-- `b` repeats the list in which the server has revoked `d`: nobody buries `d`. -/
theorem shortcut_skips_a_removal :
    ¬ ∀ r, Reachable Crypto.plain r → ∀ message sender,
      Crypto.plain.digestOf message.epoch message.devices = message.digest → r.isActive sender = true →
      message.epoch = r.epoch → message.devices = r.syncDevices → r.merged message sender = r := by
  intro h
  have hr : Reachable Crypto.plain revokedD := (Reachable.born (.found _ _)).run _
  have hsame := h _ hr (revokedD.sync Crypto.plain) "b" rfl (by decide +kernel) rfl rfl
  have hburied : (revokedD.merged (revokedD.sync Crypto.plain) "b").tombstones.contains "d" = true := by decide +kernel
  rw [hsame] at hburied
  exact absurd hburied (by decide +kernel)

/-! ## Where the tombstones come short -/

/-- Every record marked removed has its tombstone. -/
def BuriesRemoved (r : Roster) : Prop :=
  ∀ d record, r.devices.get? d = some record → record.state = .removed → r.tombstones.contains d = true

/-- A device the step brings a record of is active after it. -/
theorem active_of_new_record {r : Roster} {op : Op C} {d : String} (hbefore : r.devices.contains d = false)
    (hafter : (step C r op).devices.contains d = true) : (step C r op).isActive d = true := by
  have hcases := step_cases C r op
  generalize step C r op = after at hcases hafter ⊢
  cases hcases with
  | quiet r' hq =>
    rw [hq.contains_devices, hbefore] at hafter
    cases hafter
  | quarantined message introducer now _ _ _ _ =>
    have hsame : r.devices.contains d = true := hafter
    rw [hbefore] at hsame
    cases hsame
  | admitted subject introducer r₀ _ hd _ _ =>
    rw [isActive_admitDevice, Bool.or_eq_true, decide_eq_true_eq]
    left
    by_contra hne
    have hget : (r₀.devices.insert (.fromVouch subject introducer)).contains d = true := hafter
    rw [Table.contains, Table.get?_insert,
      if_neg (show (DeviceRecord.fromVouch subject introducer).deviceId ≠ d from hne), hd] at hget
    rw [Table.contains, hget] at hbefore
    cases hbefore

theorem buriesRemoved_step {r : Roster} {op : Op C} (hop : ∀ d, r.isActive d = true → ¬ Revokes C d op)
    (hr : BuriesRemoved r) : BuriesRemoved (step C r op) := by
  intro d record hrecord hrem
  have hinactive : (step C r op).isActive d ≠ true := by
    intro ha
    obtain ⟨record', hr', hactive⟩ := isActive_iff.mp ha
    obtain rfl := Option.some.inj (hrecord.symm.trans hr')
    simp [DeviceRecord.isActive, hrem] at hactive
  by_cases ha : r.isActive d = true
  · exact (active_or_buried_step C op ha (hop d ha)).resolve_left hinactive
  · -- out already, so buried already
    rw [buried_step]
    left
    have hknown : r.devices.contains d = true := by
      by_contra hunknown
      exact hinactive (active_of_new_record C (by simpa using hunknown) (Table.contains_iff.mpr ⟨record, hrecord⟩))
    obtain ⟨before, hbefore⟩ := Table.contains_iff.mp hknown
    refine hr d before hbefore ?_
    cases hstate : before.state with
    | removed => rfl
    | active => exact absurd (isActive_iff.mpr ⟨before, hbefore, by simp [DeviceRecord.isActive, hstate]⟩) ha

theorem buriesRemoved_run (me : SelfDescription) (identity : C.IdentityKey) (ops : List (Op C))
    (hops : Trace.EachStep (step C) (fun r op => ∀ d, r.isActive d = true → ¬ Revokes C d op)
      (founded C me identity) ops) : BuriesRemoved (run C (founded C me identity) ops) := by
  refine Trace.inv_run (fun r op hop hr => buriesRemoved_step C hop hr) ?_ hops
  intro d record hrecord hrem
  have hget : (Table.empty.insert _ : Table DeviceRecord.deviceId).get? d = some record := hrecord
  rw [Table.get?_insert] at hget
  split at hget
  · cases hget
    cases hrem
  · simp at hget

end Roster

end Beacon
