/-
  Beacon.Roster.Joining — a join, where the vouch is made and where it is taken.

  - `joiner_starts_in_agreement`: the device that adopts its introducer's roster and the
    introducer that admits it hold the same devices, tombstones and epoch, and each finds
    the other in sync. The joiner collects the lists in whatever order they come.
  - `vouch_is_taken_iff`: members that agree with the introducer take its vouch exactly
    if it is active, the vouch is for another device, and no record holds another key for
    that device. Every verifier checks the three and `vouch_for` none of them.
-/

import Beacon.Roster.Burials

namespace Beacon

open Lib

namespace Roster

variable (C : Crypto)

/-! ## The introducer's side -/

/-- What `vouch_for` has checked, and what it signs. -/
structure VouchMade (r : Roster) (subject : VouchedSubject) (identity : C.IdentityKey) (message : RosterIntroduce) :
    Prop where
  sameSubject : message.subject = subject
  sameEpoch : message.epoch = r.epoch
  notTombstoned : r.tombstones.contains subject.deviceId = false
  usable : ∃ key, C.fromBase64 subject.identityPk = some key
  room : r.isActive subject.deviceId = true ∨ r.activeCount < maxActiveDevices
  signed : C.verify (C.publicKey identity) (.vouch message.payload) message.vouch = true

theorem vouchFor_ok {r : Roster} {subject : VouchedSubject} {identity : C.IdentityKey} {message : RosterIntroduce}
    (h : r.vouchFor C subject identity = .ok message) : VouchMade C r subject identity message := by
  obtain ⟨sig, hsig, hverifies⟩ := C.verify_sign identity (.vouch ⟨subject, r.epoch⟩)
  simp only [vouchFor, bind, Except.bind, pure, Except.pure, throw, throwThe, MonadExceptOf.throw, hsig] at h
  split at h
  · cases h
  rename_i hburied
  split at h
  · cases h
  rename_i hparse
  split at h
  · cases h
  rename_i hroom
  cases h
  refine ⟨rfl, rfl, by simpa using hburied, ?_, ?_, hverifies⟩
  · unfold parseIdentity at hparse
    cases hkey : C.fromBase64 subject.identityPk with
    | some key => exact ⟨key, rfl⟩
    | none => simp [hkey] at hparse
  · by_cases ha : r.isActive subject.deviceId = true
    · exact Or.inl ha
    · right
      simp only [ha, Bool.not_false, Bool.true_and, decide_eq_true_eq] at hroom
      omega

/-! ## The verifiers' side -/

theorem refused_iff (r : Roster) (message : RosterIntroduce) (introducer : String) (now : SystemTime) :
    (∃ refusal, (r.receiveIntroduce C message introducer now).2.outcome = .refused refusal) ↔
      ¬ Vetted C r message introducer := by
  have hcases := receiveIntroduce_cases C r message introducer now
  generalize r.receiveIntroduce C message introducer now = after at hcases ⊢
  cases hcases with
  | refused refusal hnot => exact iff_of_true ⟨refusal, rfl⟩ hnot
  | alreadyKnown hv _ => exact iff_of_false (fun h => by obtain ⟨_, h⟩ := h; cases h) (not_not.mpr hv)
  | held hv _ _ => exact iff_of_false (fun h => by obtain ⟨_, h⟩ := h; cases h) (not_not.mpr hv)
  | admitted hv _ _ => exact iff_of_false (fun h => by obtain ⟨_, h⟩ := h; cases h) (not_not.mpr hv)

/-- The two rosters record the same family. -/
structure SameFamily (a b : Roster) : Prop where
  devices : a.devices = b.devices
  tombstones : a.tombstones = b.tombstones
  epoch : a.epoch = b.epoch

theorem SameFamily.refl (r : Roster) : SameFamily r r := ⟨rfl, rfl, rfl⟩

/-- An introduction is vetted by what the roster records of the family alone. -/
theorem SameFamily.vetted {a b : Roster} (h : SameFamily a b) {message : RosterIntroduce} {introducer : String}
    (hv : Vetted C a message introducer) : Vetted C b message introducer := by
  have hactive : ∀ d, b.isActive d = a.isActive d := fun d => by rw [isActive, isActive, h.devices]
  refine ⟨?_, h.tombstones ▸ hv.notTombstoned, hv.notSelf, h.devices ▸ hv.sameKey, ?_, ?_, hv.usable⟩
  · rw [hactive]; exact hv.introducerActive
  · rw [hactive, activeCount, ← h.devices]; exact hv.room
  · rw [identityOf, ← h.devices]; exact hv.signed

theorem SameFamily.inSync {a b : Roster} (h : SameFamily a b) {sender : String} (hsender : a.isActive sender = true) :
    (a.receiveSync C (b.sync C) sender).2.outcome = .inSync := by
  have hdigest : C.digestOf (b.sync C).epoch (b.sync C).devices = (b.sync C).digest := rfl
  have hrepeats : (b.sync C).epoch = a.epoch ∧ (b.sync C).devices = a.syncDevices :=
    ⟨h.epoch.symm, by rw [syncDevices, h.devices]; rfl⟩
  rw [receiveSync_of_repeats C hdigest hsender hrepeats]

/-! ## The joiner's side -/

/-- What an adoption needs to succeed. -/
theorem adopt_succeeds {selfId : String} {introducer : DeviceRecord} {devices : List DeviceRecord}
    {tombstones : List Tombstone} {epoch : UInt64} {vouch : RosterIntroduce} {key : C.PublicKey}
    (hsubject : vouch.subject.deviceId = selfId) (hkey : C.fromBase64 introducer.identityPk = some key)
    (hverifies : C.verify key (.vouch vouch.payload) vouch.vouch = true)
    (hburied : (Table.ofList tombstones : Table Tombstone.subject).contains selfId = false) :
    ∃ applied, adopt C selfId introducer devices tombstones epoch vouch = .ok applied := by
  cases h : adopt C selfId introducer devices tombstones epoch vouch with
  | ok applied => exact ⟨applied, rfl⟩
  | error refusal =>
    simp [adopt, bind, Except.bind, pure, Except.pure, parseIdentity, hkey, verifyVouch, hverifies, hburied, hsubject] at h

/-- What the joiner builds from the introducer's lists, the introducer has once it took its own vouch. -/
theorem sameFamily_adopted {r : Roster} {introducer : DeviceRecord} {devices : List DeviceRecord}
    {tombstones : List Tombstone} {message : RosterIntroduce} {selfId : String} {adopted : Applied Roster}
    (hadopt : adopt C selfId introducer devices tombstones r.epoch message = .ok adopted)
    (hintroducer : r.devices.get? r.selfId = some introducer) (hother : message.subject.deviceId ≠ r.selfId)
    (hdevices : devices.Perm r.devices.values) (htombstones : tombstones.Perm r.tombstones.values) {after : Roster}
    (hafter : after.devices = r.devices.insert (.fromVouch message.subject r.selfId))
    (hburied : after.tombstones = r.tombstones) (hepoch : after.epoch = r.epoch) : SameFamily adopted.outcome after := by
  have hself : introducer.deviceId = r.selfId := Table.get?_key hintroducer
  let mine : DeviceRecord := .fromVouch message.subject introducer.deviceId
  -- the introducer's own record is in the list, so nothing is put over it
  have hknown : (r.devices.insert mine).contains introducer.deviceId = true := by
    refine Table.contains_iff.mpr ⟨introducer, ?_⟩
    rw [Table.get?_insert, if_neg (show mine.deviceId ≠ introducer.deviceId from hself ▸ hother), hself]
    exact hintroducer
  have hinsert : ((Table.ofList devices : Table DeviceRecord.deviceId).insert mine).insertIfNew introducer =
      after.devices := by
    rw [Table.ofList_of_perm hdevices, Table.insertIfNew, if_pos hknown, hafter, ← hself]
  rw [(outcome_adopt C hadopt).2.2]
  exact ⟨hinsert, (Table.ofList_of_perm htombstones).trans hburied.symm, hepoch.symm⟩

theorem joiner_starts_in_agreement {r : Roster} {subject : VouchedSubject} {identity : C.IdentityKey}
    {message : RosterIntroduce} {now : SystemTime} (hmade : r.vouchFor C subject identity = .ok message)
    (hadmitted : (r.receiveIntroduce C message r.selfId now).2.outcome = .admitted)
    {introducer : DeviceRecord} (hintroducer : r.devices.get? r.selfId = some introducer)
    {devices : List DeviceRecord} (hdevices : devices.Perm r.devices.values)
    {tombstones : List Tombstone} (htombstones : tombstones.Perm r.tombstones.values) :
    let after := (r.receiveIntroduce C message r.selfId now).1
    ∃ adopted, adopt C subject.deviceId introducer devices tombstones r.epoch message = .ok adopted ∧
      SameFamily adopted.outcome after ∧
      (after.receiveSync C (adopted.outcome.sync C) subject.deviceId).2.outcome = .inSync ∧
      (adopted.outcome.receiveSync C (after.sync C) r.selfId).2.outcome = .inSync := by
  intro after
  have hsubject := (vouchFor_ok C hmade).sameSubject
  have hcases := receiveIntroduce_cases C r message r.selfId now
  replace hadmitted : (r.receiveIntroduce C message r.selfId now).2.outcome = .admitted := hadmitted
  generalize hafter : r.receiveIntroduce C message r.selfId now = received at hcases hadmitted
  have hreceived : after = received.1 := congrArg Prod.fst hafter
  cases hcases with
  | refused refusal _ => cases hadmitted
  | alreadyKnown _ _ => cases hadmitted
  | held _ _ _ => cases hadmitted
  | admitted hv _ _ =>
    obtain ⟨key, hidentity, hverifies⟩ := hv.signed
    have hkey : C.fromBase64 introducer.identityPk = some key := by
      rw [← identityOf_of_isActive C hintroducer hv.introducerActive]
      exact hidentity
    have htomb : (Table.ofList tombstones : Table Tombstone.subject) = r.tombstones := Table.ofList_of_perm htombstones
    obtain ⟨adopted, hadopt⟩ :
        ∃ adopted, adopt C subject.deviceId introducer devices tombstones r.epoch message = .ok adopted :=
      adopt_succeeds C (congrArg VouchedSubject.deviceId hsubject) hkey hverifies
        (by rw [htomb, ← hsubject]; exact hv.notTombstoned)
    have hsame : SameFamily adopted.outcome after := by
      rw [hreceived]
      exact sameFamily_adopted C hadopt hintroducer hv.notSelf hdevices htombstones rfl rfl rfl
    refine ⟨adopted, hadopt, hsame, ?_, ?_⟩
    · refine SameFamily.inSync C ⟨hsame.devices.symm, hsame.tombstones.symm, hsame.epoch.symm⟩ ?_
      rw [hreceived, isActive_admitDevice, hsubject]
      simp
    · refine hsame.inSync C ?_
      have hactive : adopted.outcome.isActive r.selfId = after.isActive r.selfId := by
        rw [isActive, isActive, hsame.devices]
      rw [hactive, hreceived, isActive_admitDevice]
      exact Bool.or_eq_true_iff.mpr (Or.inr hv.introducerActive)

/-- `b`, as `a` vouches for it. -/
def bJoins : VouchedSubject := ⟨"b", "kb", "b", "g", "child", ""⟩

/-- The vouch this roster's owner makes with the key `ka`. -/
def vouchOf (r : Roster) (subject : VouchedSubject) : RosterIntroduce :=
  match r.vouchFor Crypto.plain subject "ka" with
  | .ok message => message
  | .error _ => ⟨subject, r.epoch, ""⟩

/-- A family with a removed record, a record the server deactivated, and a tombstone. -/
def wornFamily : Roster :=
  run Crypto.plain founder [introduction "c" "kc" "" "a" "ka", introduction "d" "kd" "" "a" "ka",
    .remove "c" .lost "" "ka" (.ofSecs 1750000000), .remove "x" .lost "" "ka" (.ofSecs 1750000000),
    .reconcileServerList [⟨"d", true⟩]]

theorem b_starts_in_agreement :
    let after := (wornFamily.receiveIntroduce Crypto.plain (vouchOf wornFamily bJoins) "a" (.ofSecs 1750200000)).1
    ∃ adopted, adopt Crypto.plain "b" ⟨"a", "ka", "a", "g", "admin", "", "a", .active⟩ wornFamily.devices.values.reverse
        wornFamily.tombstones.values.reverse wornFamily.epoch (vouchOf wornFamily bJoins) = .ok adopted ∧
      SameFamily adopted.outcome after ∧
      (after.receiveSync Crypto.plain (adopted.outcome.sync Crypto.plain) "b").2.outcome = .inSync ∧
      (adopted.outcome.receiveSync Crypto.plain (after.sync Crypto.plain) "a").2.outcome = .inSync :=
  joiner_starts_in_agreement (r := wornFamily) Crypto.plain
    (show wornFamily.vouchFor Crypto.plain bJoins "ka" = .ok (vouchOf wornFamily bJoins) by decide +kernel)
    (by decide +kernel) (by decide +kernel) (List.reverse_perm _) (List.reverse_perm _)

/-! ## A vouch its maker's own family refuses -/

/-- The three checks a verifier makes and `vouch_for` does not. -/
structure Vouchable (r : Roster) (subject : VouchedSubject) : Prop where
  ownerActive : r.isActive r.selfId = true
  notSelf : subject.deviceId ≠ r.selfId
  sameKey : ∀ record, r.devices.get? subject.deviceId = some record → record.identityPk = subject.identityPk

theorem vetted_iff_vouchable {r : Roster} {identity : C.IdentityKey} {subject : VouchedSubject}
    {message : RosterIntroduce} (hmade : VouchMade C r subject identity message) {owner : DeviceRecord}
    (howner : r.devices.get? r.selfId = some owner)
    (hkey : C.fromBase64 owner.identityPk = some (C.publicKey identity)) :
    Vetted C r message r.selfId ↔ Vouchable r subject := by
  have hsubject := hmade.sameSubject
  subst hsubject
  constructor
  · intro h
    exact ⟨h.introducerActive, h.notSelf, h.sameKey⟩
  · intro h
    have hidentity : r.identityOf C r.selfId = some (C.publicKey identity) := by
      rw [identityOf_of_isActive C howner h.ownerActive]
      exact hkey
    exact ⟨h.ownerActive, hmade.notTombstoned, h.notSelf, h.sameKey, hmade.room, ⟨_, hidentity, hmade.signed⟩,
      hmade.usable⟩

theorem vouch_is_taken_iff {r : Roster} {identity : C.IdentityKey} {owner : DeviceRecord}
    (howner : r.devices.get? r.selfId = some owner)
    (hkey : C.fromBase64 owner.identityPk = some (C.publicKey identity)) {subject : VouchedSubject}
    {message : RosterIntroduce} (hmade : r.vouchFor C subject identity = .ok message) {member : Roster}
    (hsame : SameFamily r member) (now : SystemTime) :
    (∀ refusal, (member.receiveIntroduce C message r.selfId now).2.outcome ≠ .refused refusal) ↔
      Vouchable r subject := by
  have hrefused := refused_iff C member message r.selfId now
  have hvetted : Vetted C member message r.selfId ↔ Vetted C r message r.selfId :=
    ⟨SameFamily.vetted C ⟨hsame.devices.symm, hsame.tombstones.symm, hsame.epoch.symm⟩, hsame.vetted C⟩
  rw [← vetted_iff_vouchable C (vouchFor_ok C hmade) howner hkey, ← hvetted, ← not_iff_not, ← hrefused]
  simp only [ne_eq, not_forall, not_not]

theorem a_refuses_its_own_vouch :
    ¬ ∀ r, Reachable Crypto.plain r → ∀ identity owner, r.devices.get? r.selfId = some owner →
      Crypto.plain.fromBase64 owner.identityPk = some (Crypto.plain.publicKey identity) →
      ∀ subject message, r.vouchFor Crypto.plain subject identity = .ok message →
      ∀ member, SameFamily r member → ∀ now refusal,
        (member.receiveIntroduce Crypto.plain message r.selfId now).2.outcome ≠ .refused refusal := by
  intro h
  -- the server's list has deactivated the founder, which vouches all the same
  let r := run Crypto.plain founder [.reconcileServerList [⟨"a", true⟩]]
  have hr : Reachable Crypto.plain r := (Reachable.born (.found _ _)).run _
  exact h r hr "ka" ⟨"a", "ka", "a", "g", "admin", "", "a", .removed⟩ (by decide +kernel) (by decide +kernel) bJoins
    (vouchOf r bJoins) (by decide +kernel) r (.refl r) (.ofSecs 1750000000) (.introducerNotActive "a") (by decide +kernel)

theorem family_takes_vouch_for_b :
    (∀ refusal, (wornFamily.receiveIntroduce Crypto.plain (vouchOf wornFamily bJoins) "a" (.ofSecs 1750200000)).2.outcome ≠
        .refused refusal) ↔
      Vouchable wornFamily bJoins :=
  vouch_is_taken_iff (r := wornFamily) Crypto.plain
    (show wornFamily.devices.get? "a" = some ⟨"a", "ka", "a", "g", "admin", "", "a", .active⟩ by decide +kernel)
    (by decide +kernel)
    (show wornFamily.vouchFor Crypto.plain bJoins "ka" = .ok (vouchOf wornFamily bJoins) by decide +kernel)
    (.refl wornFamily) _

end Roster

end Beacon
