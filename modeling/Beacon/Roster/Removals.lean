/-
  Beacon.Roster.Removals — what a `roster_sync` makes of the removals its sender knows.

  - `sync_carries_removals_iff`: a member's sync takes every device the member has
    tombstoned out of the receiver exactly when each one the receiver still counts in
    has a removed record at the sender and no tombstone at the receiver. The sync lists
    records, so a tombstone without a record travels nowhere.
  - `removal_is_final`: a removal reported by an active member is final exactly in the
    states where it is remembered (`RemovalRemembered`): a merge tombstones only a
    device it has a record of, and an identical list is not merged at all.
-/

import Beacon.Roster.Burials

namespace Beacon

open Lib

namespace Roster

variable (C : Crypto)

/-! ## A member's own sync -/

theorem reportsRemoved_sync (r : Roster) (d : String) :
    ReportsRemoved (r.sync C) d ↔ ∃ record, r.devices.get? d = some record ∧ record.state = .removed := by
  unfold ReportsRemoved sync syncDevices
  simp only [List.mem_map]
  constructor
  · intro h
    rcases h with ⟨_, ⟨record, hmem, rfl⟩, rfl, hrem⟩
    exact ⟨record, Table.mem_values.mp hmem, hrem⟩
  · intro h
    rcases h with ⟨record, hr, hrem⟩
    exact ⟨_, ⟨record, Table.mem_values_of_get? hr, rfl⟩,
      show record.deviceId = d from Table.get?_key hr, hrem⟩

/-- A list that reports a device removed is not the list of a roster that has it active. -/
theorem differs_of_active {r : Roster} {message : RosterSync} {d : String} (hrep : ReportsRemoved message d)
    (ha : r.isActive d = true) : ¬(message.epoch = r.epoch ∧ message.devices = r.syncDevices) := by
  intro h
  rcases h with ⟨-, hsame⟩
  obtain ⟨reported, hmem, rfl, hrem⟩ := hrep
  rw [hsame, syncDevices, List.mem_map] at hmem
  obtain ⟨record, hrecord, rfl⟩ := hmem
  obtain ⟨record', hr', hactive⟩ := isActive_iff.mp ha
  obtain rfl : record = record' := Option.some.inj ((Table.mem_values.mp hrecord).symm.trans hr')
  simp only at hrem
  simp [DeviceRecord.isActive, hrem] at hactive

theorem sync_carries_removals_iff (a b : Roster) (hmember : b.isActive a.selfId = true) :
    (∀ d, d ≠ b.selfId → a.tombstones.contains d = true →
      (b.receiveSync C (a.sync C) a.selfId).1.isActive d = false) ↔
    ∀ d, d ≠ b.selfId → a.tombstones.contains d = true → b.isActive d = true →
      (∃ record, a.devices.get? d = some record ∧ record.state = .removed) ∧ b.tombstones.contains d = false := by
  have hactive := isActive_receiveSync C b (a.sync C) a.selfId
  constructor
  · intro h d hself hburied ha
    have hout := h d hself hburied
    by_contra hnot
    rw [← reportsRemoved_sync C] at hnot
    have := (hactive d).mpr ⟨ha, fun hm => hnot ⟨hm.2.1, hm.2.2.2⟩⟩
    rw [hout] at this
    cases this
  · intro h d hself hburied
    by_contra ha
    obtain ⟨hbefore, hnot⟩ := (hactive d).mp (by simpa using ha)
    obtain ⟨hrem, hfresh⟩ := h d hself hburied hbefore
    rw [← reportsRemoved_sync C] at hrem
    exact hnot ⟨⟨rfl, hmember, differs_of_active hrem hbefore⟩, hrem, hself, hfresh⟩

/-- `a` founded the family and admitted `b` and `d`; `b` joined before `d` did, and
    removes `d`, of which it has no record. -/
def beforeSync : Roster × Roster :=
  (run Crypto.plain joiner [.remove "d" .lost "" "kb" (.ofSecs 1750000000)],
   run Crypto.plain founder [introduction "b" "kb" "" "a" "ka", introduction "d" "kd" "" "a" "ka"])

theorem beforeSync_carried_iff :
    (∀ d, d ≠ beforeSync.2.selfId → beforeSync.1.tombstones.contains d = true →
      (beforeSync.2.receiveSync Crypto.plain (beforeSync.1.sync Crypto.plain) beforeSync.1.selfId).1.isActive d = false) ↔
    ∀ d, d ≠ beforeSync.2.selfId → beforeSync.1.tombstones.contains d = true → beforeSync.2.isActive d = true →
      (∃ record, beforeSync.1.devices.get? d = some record ∧ record.state = .removed) ∧
        beforeSync.2.tombstones.contains d = false :=
  sync_carries_removals_iff Crypto.plain beforeSync.1 beforeSync.2 (by decide +kernel)

theorem tombstone_without_record_stays_home :
    ¬ ∀ a b, Reachable Crypto.plain a → Reachable Crypto.plain b → b.isActive a.selfId = true →
      ∀ d, d ≠ b.selfId → a.tombstones.contains d = true →
        (b.receiveSync Crypto.plain (a.sync Crypto.plain) a.selfId).1.isActive d = false := by
  intro h
  have ha : Reachable Crypto.plain beforeSync.1 := (Reachable.born born_joiner).run _
  have hb : Reachable Crypto.plain beforeSync.2 := (Reachable.born (.found _ _)).run _
  have hout := h _ _ ha hb (by decide +kernel) "d" (by decide +kernel) (by decide +kernel)
  have hin : (beforeSync.2.receiveSync Crypto.plain (beforeSync.1.sync Crypto.plain)
    beforeSync.1.selfId).1.isActive "d" = true := by decide +kernel
  rw [hin] at hout
  cases hout

/-! ## A reported removal, ever after -/

/-- What makes this roster remember the removal of `d` that the sync reports: `d` is out
    and buried already, or it has a record to bury and the sync is merged. -/
def RemovalRemembered (r : Roster) (message : RosterSync) (d : String) : Prop :=
  (r.tombstones.contains d = true ∧ r.isActive d = false) ∨
  (r.tombstones.contains d = false ∧ r.devices.contains d = true ∧
    ¬(message.epoch = r.epoch ∧ message.devices = r.syncDevices))

/-- A vouch that passes every check of an introduction but the one for a tombstone. -/
structure Presentable (r : Roster) (message : RosterIntroduce) (introducer : String) (now : SystemTime) : Prop where
  introducerActive : r.isActive introducer = true
  notSelf : message.subject.deviceId ≠ introducer
  sameKey : ∀ record, r.devices.get? message.subject.deviceId = some record →
    record.identityPk = message.subject.identityPk
  room : r.isActive message.subject.deviceId = true ∨ r.activeCount < maxActiveDevices
  signed : ∃ key, r.identityOf C introducer = some key ∧ C.verify key (.vouch message.payload) message.vouch = true
  usable : ∃ key, C.fromBase64 message.subject.identityPk = some key
  inBudget : r.churn.wouldExceed introducer now = false

theorem Presentable.vetted {r : Roster} {message : RosterIntroduce} {introducer : String} {now : SystemTime}
    (h : Presentable C r message introducer now) (ht : r.tombstones.contains message.subject.deviceId = false) :
    Vetted C r message introducer :=
  ⟨h.introducerActive, ht, h.notSelf, h.sameKey, h.room, h.signed, h.usable⟩

/-- A vouch vetted within budget leaves its subject active. -/
theorem Presentable.isActive_receiveIntroduce {r : Roster} {message : RosterIntroduce} {introducer : String}
    {now : SystemTime} (h : Presentable C r message introducer now)
    (ht : r.tombstones.contains message.subject.deviceId = false) :
    (r.receiveIntroduce C message introducer now).1.isActive message.subject.deviceId = true := by
  have hcases := receiveIntroduce_cases C r message introducer now
  generalize r.receiveIntroduce C message introducer now = after at hcases ⊢
  cases hcases with
  | refused refusal hnot => exact absurd (h.vetted C ht) hnot
  | alreadyKnown _ ha => exact ha
  | held _ _ hover => rw [h.inBudget] at hover; cases hover
  | admitted _ _ _ => rw [isActive_admitDevice]; simp

section Reported

variable {r : Roster} {message : RosterSync} {sender d : String}

/-- After the sync the removal is remembered for good, or `d` is open to be active. -/
theorem out_receiveSync_iff (hdigest : C.digestOf message.epoch message.devices = message.digest)
    (hsender : r.isActive sender = true) (hreported : ReportsRemoved message d) (hother : d ≠ r.selfId) :
    ((r.receiveSync C message sender).1.tombstones.contains d = true ∧
      (r.receiveSync C message sender).1.isActive d = false) ↔ RemovalRemembered r message d := by
  rw [buried_receiveSync, ← Bool.not_eq_true, isActive_receiveSync]
  have hmerges : Merges C r message sender ↔ ¬(message.epoch = r.epoch ∧ message.devices = r.syncDevices) :=
    ⟨fun h => h.differs, fun h => ⟨hdigest, hsender, h⟩⟩
  unfold RemovalRemembered
  rw [hmerges]
  by_cases ht : r.tombstones.contains d = true
  · simp [ht]
  -- without a tombstone it takes the merge, which deactivates too
  have ht' : r.tombstones.contains d = false := by simpa using ht
  simp only [ht', hreported, ne_eq, hother, not_false_eq_true, true_and, and_true, Bool.false_eq_true, false_and,
    false_or]
  constructor
  · intro h
    exact ⟨h.1.2, h.1.1⟩
  · intro h
    exact ⟨⟨h.2, h.1⟩, fun hactive => hactive.2 h.2⟩

theorem stays_out_run {r : Roster} {d : String} (ht : r.tombstones.contains d = true) (ha : r.isActive d = false)
    (ops : List (Op C)) : (run C r ops).isActive d = false := by
  have := (run_view C r ops).stays_out (d := d) ht (by simp [ha])
  simpa using this

/-- A vouch for `d` that arrives first does not make the roster forget. -/
theorem RemovalRemembered.receiveIntroduce (h : RemovalRemembered r message d) (hreported : ReportsRemoved message d)
    (vouch : RosterIntroduce) (introducer : String) (now : SystemTime) (hvouch : vouch.subject.deviceId = d) :
    RemovalRemembered (r.receiveIntroduce C vouch introducer now).1 message d := by
  have hcases := receiveIntroduce_cases C r vouch introducer now
  generalize r.receiveIntroduce C vouch introducer now = after at hcases ⊢
  cases hcases with
  | refused refusal _ => exact h
  | alreadyKnown _ _ => exact h
  | held _ _ _ => exact h
  | admitted hv hinactive _ =>
    subst hvouch
    have hactive : ({ r with churn := r.churn.record introducer (timestampOr vouch.subject.joinedAt now) now }.admitDevice
        vouch.subject introducer).1.isActive vouch.subject.deviceId = true := by
      rw [isActive_admitDevice]; simp
    exact Or.inr ⟨hv.notTombstoned, contains_devices_of_isActive hactive, differs_of_active hreported hactive⟩

end Reported

/-- A removal that a well-digested sync from an active sender reports: where the roster
    remembers it, `d` is never active again, also when a vouch for `d` came in between;
    where it does not, any vouch for `d` that passes the other checks brings `d` in. -/
theorem removal_is_final (r : Roster) (message : RosterSync) (sender d : String)
    (hdigest : C.digestOf message.epoch message.devices = message.digest) (hsender : r.isActive sender = true)
    (hreported : ReportsRemoved message d) (hother : d ≠ r.selfId) :
    (RemovalRemembered r message d →
      (∀ ops, (run C (r.receiveSync C message sender).1 ops).isActive d = false) ∧
      ∀ vouch introducer now, vouch.subject.deviceId = d →
        ∀ ops, (run C ((r.receiveIntroduce C vouch introducer now).1.receiveSync C message sender).1 ops).isActive d =
          false) ∧
    (¬ RemovalRemembered r message d →
      ∀ vouch introducer now, vouch.subject.deviceId = d →
        Presentable C (r.receiveSync C message sender).1 vouch introducer now →
        ∃ ops, (run C (r.receiveSync C message sender).1 ops).isActive d = true) := by
  refine ⟨fun h => ⟨fun ops => ?_, fun vouch introducer now hvouch ops => ?_⟩, ?_⟩
  · obtain ⟨ht, ha⟩ := (out_receiveSync_iff C hdigest hsender hreported hother).mpr h
    exact stays_out_run C ht ha ops
  · have hself := step_selfId C r (.receiveIntroduce vouch introducer now)
    have hsender' : (r.receiveIntroduce C vouch introducer now).1.isActive sender = true := by
      have hcases := receiveIntroduce_cases C r vouch introducer now
      generalize r.receiveIntroduce C vouch introducer now = after at hcases ⊢
      cases hcases with
      | refused refusal _ => exact hsender
      | alreadyKnown _ _ => exact hsender
      | held _ _ _ => exact hsender
      | admitted _ _ _ => rw [isActive_admitDevice, Bool.or_eq_true]; exact Or.inr hsender
    obtain ⟨ht, ha⟩ := (out_receiveSync_iff C hdigest hsender' hreported (hself ▸ hother)).mpr
      (h.receiveIntroduce C hreported vouch introducer now hvouch)
    exact stays_out_run C ht ha ops
  · intro hnot vouch introducer now hvouch hpresent
    by_cases ha : (r.receiveSync C message sender).1.isActive d = true
    · exact ⟨[], ha⟩
    · have ht : (r.receiveSync C message sender).1.tombstones.contains d = false := by
        by_contra ht
        exact hnot ((out_receiveSync_iff C hdigest hsender hreported hother).mp ⟨by simpa using ht, by simpa using ha⟩)
      subst hvouch
      exact ⟨[.receiveIntroduce vouch introducer now], hpresent.isActive_receiveIntroduce C ht⟩

/-- `b` reports `d` removed. -/
def removedReport : RosterSync := ⟨0, [⟨"d", "kd", .removed⟩], Crypto.plain.digestOf 0 [⟨"d", "kd", .removed⟩]⟩

theorem recorded_device_stays_out :
    (run Crypto.plain (beforeSync.2.receiveSync Crypto.plain removedReport "b").1
      [introduction "d" "kd" "" "a" "ka"]).isActive "d" = false :=
  ((removal_is_final Crypto.plain beforeSync.2 removedReport "b" "d" rfl (by decide +kernel)
    ⟨_, List.mem_singleton_self _, rfl, rfl⟩ (by decide +kernel)).1
      (Or.inr ⟨by decide +kernel, by decide +kernel, by decide +kernel⟩)).1 _

/-- `b`'s report comes before the vouch for `d`, which then goes through. -/
theorem unrecorded_device_comes_in :
    ¬ ∀ r, Reachable Crypto.plain r → ∀ message sender d,
      Crypto.plain.digestOf message.epoch message.devices = message.digest → r.isActive sender = true →
      ReportsRemoved message d → d ≠ r.selfId →
      ∀ ops, (run Crypto.plain (r.receiveSync Crypto.plain message sender).1 ops).isActive d = false := by
  intro h
  have hr : Reachable Crypto.plain (run Crypto.plain founder [introduction "b" "kb" "" "a" "ka"]) :=
    (Reachable.born (.found _ _)).run _
  have hout := h _ hr removedReport "b" "d" rfl (by decide +kernel) ⟨_, List.mem_singleton_self _, rfl, rfl⟩
    (by decide +kernel) [introduction "d" "kd" "" "a" "ka"]
  have hin : (run Crypto.plain ((run Crypto.plain founder [introduction "b" "kb" "" "a" "ka"]).receiveSync Crypto.plain
    removedReport "b").1 [introduction "d" "kd" "" "a" "ka"]).isActive "d" = true := by decide +kernel
  rw [hin] at hout
  cases hout

end Roster

end Beacon
