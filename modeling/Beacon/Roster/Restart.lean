/-
  Beacon.Roster.Restart — a roster written out and read back.

  The snapshot lists values and drops the keys they were filed under; `import` files each
  under the id it carries. As the code holds them the collections are plain maps
  (`RawRoster`), and such a roster comes back as it was exactly if every map is keyed by
  its values' own ids (`import_export_iff`).
  - Each write of the code passes a key of its own (`RawRoster.Write`), and the maps of a
    roster so written are keyed (`Written.keyed`).
  - `written_of_reachable`: what a run makes of a roster is so written.
  - `restart_loses_nothing`: so every roster a run reaches comes back whole, and with a
    record of its own device, without which `Client::restore` refuses it.
-/

import Beacon.Roster.Tombstones

namespace Beacon

open Lib

/-- `Roster`, its maps under whatever keys. -/
structure RawRoster where
  selfId : String
  devices : Std.ExtTreeMap String DeviceRecord compare
  tombstones : Std.ExtTreeMap String Tombstone compare
  epoch : UInt64
  churn : ChurnLog
  held : Std.ExtTreeMap String HeldAdmission compare
  removedMe : Std.ExtTreeSet String compare

namespace RawRoster

def exportSnapshot (r : RawRoster) : RosterSnapshot where
  v := rosterSnapshotVersion
  selfId := r.selfId
  devices := r.devices.toList.map Prod.snd
  tombstones := r.tombstones.toList.map Prod.snd
  epoch := r.epoch
  churn := r.churn
  held := r.held.toList.map Prod.snd
  removedMe := r.removedMe.toList

def importSnapshot (snapshot : RosterSnapshot) (selfId : String) : Except RosterSnapshotError RawRoster :=
  if snapshot.v ≠ rosterSnapshotVersion then .error (.unsupportedVersion snapshot.v)
  else if snapshot.selfId ≠ selfId then .error (.wrongDevice selfId snapshot.selfId)
  else .ok
    { selfId
      devices := .ofList (snapshot.devices.map fun (record : DeviceRecord) => (record.deviceId, record)) compare
      tombstones := .ofList (snapshot.tombstones.map fun (tombstone : Tombstone) => (tombstone.subject, tombstone)) compare
      epoch := snapshot.epoch
      churn := snapshot.churn
      held := .ofList (snapshot.held.map fun (held : HeldAdmission) => (held.message.subject.deviceId, held)) compare
      removedMe := .ofList snapshot.removedMe compare }

/-- Every map is keyed by its values' own ids. -/
structure Keyed (r : RawRoster) : Prop where
  devices : ∀ (d : String) (record : DeviceRecord), r.devices[d]? = some record → record.deviceId = d
  tombstones : ∀ (d : String) (tombstone : Tombstone), r.tombstones[d]? = some tombstone → tombstone.subject = d
  held : ∀ (d : String) (held : HeldAdmission), r.held[d]? = some held → held.message.subject.deviceId = d

theorem ofList_toList (peers : Std.ExtTreeSet String compare) : .ofList peers.toList compare = peers := by
  apply Std.ExtTreeSet.ext_mem
  intro k
  rw [Std.ExtTreeSet.mem_ofList, List.contains_iff_mem, Std.ExtTreeSet.mem_toList]

theorem import_export_iff (r : RawRoster) : importSnapshot r.exportSnapshot r.selfId = .ok r ↔ Keyed r := by
  have hread : importSnapshot r.exportSnapshot r.selfId = .ok
      { r with
        devices := Table.rekey DeviceRecord.deviceId r.devices
        tombstones := Table.rekey Tombstone.subject r.tombstones
        held := Table.rekey HeldAdmission.subjectId r.held
        removedMe := .ofList r.removedMe.toList compare } := by
    unfold importSnapshot
    rw [if_neg (show ¬ r.exportSnapshot.v ≠ rosterSnapshotVersion from not_not.mpr rfl),
      if_neg (show ¬ r.exportSnapshot.selfId ≠ r.selfId from not_not.mpr rfl)]
    rfl
  rw [hread, ofList_toList]
  constructor
  · intro h
    injection h with h
    refine ⟨Table.rekey_eq_self_iff.mp ?_, Table.rekey_eq_self_iff.mp ?_, Table.rekey_eq_self_iff.mp ?_⟩
    · exact congrArg RawRoster.devices h
    · exact congrArg RawRoster.tombstones h
    · exact congrArg RawRoster.held h
  · intro h
    have hheld : Table.rekey HeldAdmission.subjectId r.held = r.held := Table.rekey_eq_self_iff.mpr h.held
    rw [Table.rekey_eq_self_iff.mpr h.devices, Table.rekey_eq_self_iff.mpr h.tombstones, hheld]

/-! ## The writes, under the keys the code passes -/

/-- `admit`. -/
def admitRecord (r : RawRoster) (subject : VouchedSubject) (introducedBy : String) : RawRoster :=
  { r with devices := r.devices.insert subject.deviceId (.fromVouch subject introducedBy) }

/-- The quarantine of `receive_introduce`. -/
def hold (r : RawRoster) (message : RosterIntroduce) (introducer : String) (eventsInWindow : Nat) : RawRoster :=
  { r with held := r.held.insert message.subject.deviceId ⟨message, introducer, eventsInWindow⟩ }

/-- `held.remove`. -/
def release (r : RawRoster) (subject : String) : RawRoster := { r with held := r.held.erase subject }

/-- `devices.get_mut`, where there is a record. -/
def modify (r : RawRoster) (d : String) (f : DeviceRecord → DeviceRecord) : RawRoster :=
  { r with devices := r.devices.modify d f }

/-- `apply_tombstone`. -/
def applyTombstone (r : RawRoster) (subject : String) (reason : RemovalReason) (removedAt removedBy : String)
    (epoch : UInt64) : RawRoster :=
  { r with
    tombstones := r.tombstones.insert subject ⟨subject, reason, removedAt, removedBy, epoch⟩
    devices := r.devices.modify subject fun record => { record with state := .removed }
    churn := r.churn.forget subject
    held := r.held.erase subject
    epoch := max r.epoch epoch }

/-- One write of the code. -/
inductive Write (r : RawRoster) : RawRoster → Prop
  | bookkeeping (epoch : UInt64) (churn : ChurnLog) (removedMe : Std.ExtTreeSet String compare) :
      Write r { r with epoch := epoch, churn := churn, removedMe := removedMe }
  | admitted (subject : VouchedSubject) (introducedBy : String) : Write r (r.admitRecord subject introducedBy)
  | held (message : RosterIntroduce) (introducer : String) (eventsInWindow : Nat) :
      Write r (r.hold message introducer eventsInWindow)
  | released (subject : String) : Write r (r.release subject)
  | modified (d : String) (f : DeviceRecord → DeviceRecord) : (∀ a, (f a).deviceId = a.deviceId) →
      Write r (r.modify d f)
  | tombstoned (subject : String) (reason : RemovalReason) (removedAt removedBy : String) (epoch : UInt64) :
      Write r (r.applyTombstone subject reason removedAt removedBy epoch)

/-- `found`, under its own id. -/
def foundWith (own : DeviceRecord) : RawRoster where
  selfId := own.deviceId
  devices := (∅ : Std.ExtTreeMap String DeviceRecord compare).insert own.deviceId own
  tombstones := ∅
  epoch := 0
  churn := .new
  held := ∅
  removedMe := ∅

/-- `adopt`: the introducer's list under the ids its records carry, the own record under the id it was checked to name. -/
def adoptWith (own introducer : DeviceRecord) (devices : List DeviceRecord) (tombstones : List Tombstone)
    (epoch : UInt64) : RawRoster where
  selfId := own.deviceId
  devices := ((Std.ExtTreeMap.ofList (devices.map fun record => (record.deviceId, record)) compare).insert own.deviceId
    own).insertIfNew introducer.deviceId introducer
  tombstones := .ofList (tombstones.map fun tombstone => (tombstone.subject, tombstone)) compare
  epoch
  churn := .new
  held := ∅
  removedMe := ∅

theorem adoptWith_eq (own introducer : DeviceRecord) (devices : List DeviceRecord) (tombstones : List Tombstone)
    (epoch : UInt64) :
    adoptWith own introducer devices tombstones epoch =
      { selfId := own.deviceId
        devices := (((Table.ofList devices : Table DeviceRecord.deviceId).insert own).insertIfNew introducer).map
        tombstones := (Table.ofList tombstones : Table Tombstone.subject).map
        epoch
        churn := .new
        held := ∅
        removedMe := ∅ } := by
  unfold adoptWith
  rw [← Table.map_ofList, ← Table.map_ofList, Table.map_insertIfNew]
  rfl

/-- A roster the code has written, from its birth on. -/
inductive Written : RawRoster → Prop
  | found (own : DeviceRecord) : Written (foundWith own)
  | adopt (own introducer : DeviceRecord) (devices : List DeviceRecord) (tombstones : List Tombstone) (epoch : UInt64) :
      Written (adoptWith own introducer devices tombstones epoch)
  | wrote {r r' : RawRoster} : Written r → Write r r' → Written r'

variable {r r' : RawRoster}

theorem Keyed.write (h : Keyed r) (hwrite : Write r r') : Keyed r' := by
  let devices : Table DeviceRecord.deviceId := ⟨r.devices, h.devices⟩
  let tombstones : Table Tombstone.subject := ⟨r.tombstones, h.tombstones⟩
  let held : Table HeldAdmission.subjectId := ⟨r.held, h.held⟩
  cases hwrite with
  | bookkeeping _ _ _ => exact { h with }
  | admitted subject introducedBy => exact { h with devices := (devices.insert (.fromVouch subject introducedBy)).keyed }
  | held message introducer eventsInWindow =>
    exact { h with held := (held.insert ⟨message, introducer, eventsInWindow⟩).keyed }
  | released subject => exact { h with held := (held.erase subject).keyed }
  | modified d f hf => exact { h with devices := (devices.modify d f hf).keyed }
  | tombstoned subject reason removedAt removedBy epoch =>
    exact { devices := (Roster.markRemoved devices subject).keyed
            tombstones := (tombstones.insert ⟨subject, reason, removedAt, removedBy, epoch⟩).keyed
            held := (held.erase subject).keyed }

theorem Written.keyed (h : Written r) : Keyed r := by
  induction h with
  | found own =>
    exact { devices := ((Table.empty : Table DeviceRecord.deviceId).insert own).keyed
            tombstones := (Table.empty : Table Tombstone.subject).keyed
            held := (Table.empty : Table HeldAdmission.subjectId).keyed }
  | adopt own introducer devices tombstones epoch =>
    rw [adoptWith_eq]
    exact { devices := (((Table.ofList devices : Table DeviceRecord.deviceId).insert own).insertIfNew introducer).keyed
            tombstones := (Table.ofList tombstones : Table Tombstone.subject).keyed
            held := (Table.empty : Table HeldAdmission.subjectId).keyed }
  | wrote _ hwrite ih => exact ih.write hwrite

end RawRoster

namespace Roster

variable (C : Crypto)

/-- The roster as the code holds it. -/
def raw (r : Roster) : RawRoster where
  selfId := r.selfId
  devices := r.devices.map
  tombstones := r.tombstones.map
  epoch := r.epoch
  churn := r.churn
  held := r.held.map
  removedMe := r.removedMe

/-! ## What a run writes -/

theorem raw_edit {r r' : Roster} (h : Edit r r') : RawRoster.Write r.raw r'.raw := by
  cases h with
  | bookkeeping epoch churn removedMe => exact .bookkeeping epoch churn removedMe
  | tombstoned subject reason removedAt removedBy epoch => exact .tombstoned subject reason removedAt removedBy epoch
  | deactivated d => exact .modified d (fun record => { record with state := .removed }) fun _ => rfl
  | relabelled d f hf _ _ => exact .modified d f hf

theorem written_step {r : Roster} (h : RawRoster.Written r.raw) (op : Op C) : RawRoster.Written (step C r op).raw := by
  by_cases hop : OnAdmission C op
  · cases op with
    | receiveIntroduce message introducer now =>
      have hcases := receiveIntroduce_cases C r message introducer now
      show RawRoster.Written (r.receiveIntroduce C message introducer now).1.raw
      generalize r.receiveIntroduce C message introducer now = after at hcases ⊢
      cases hcases with
      | refused _ _ | alreadyKnown _ _ => exact h
      | held _ _ _ => exact h.wrote (.held message introducer _)
      | admitted _ _ _ =>
        exact (h.wrote (.bookkeeping r.epoch _ r.removedMe)).wrote (.admitted message.subject introducer)
    | approveHeld s =>
      have hcases := approveHeld_cases r s
      show RawRoster.Written (r.approveHeld s).1.raw
      generalize r.approveHeld s = after at hcases ⊢
      cases hcases with
      | absent _ => exact h
      | refused _ => exact h.wrote (.released s)
      | admitted held _ _ _ => exact (h.wrote (.released s)).wrote (.admitted held.message.subject held.introducer)
    | denyHeld s =>
      show RawRoster.Written (r.denyHeld s).1.raw
      unfold denyHeld
      split
      · exact h
      · exact h.wrote (.released s)
    | _ => exact hop.elim
  · exact Edits.rel (R := fun r r' => RawRoster.Written r.raw → RawRoster.Written r'.raw) (fun _ h => h)
      (fun h h' hr => h' (h hr)) (fun hedit hr => hr.wrote (raw_edit hedit)) (edits_step C hop) h

theorem written_of_reachable {r : Roster} (h : Reachable C r) : RawRoster.Written r.raw := by
  induction h with
  | born hborn =>
    cases hborn with
    | found me identity =>
      exact .found ⟨me.deviceId, C.toBase64 (C.publicKey identity), me.displayName, me.memberGroup, me.role,
        me.joinedAt, me.deviceId, .active⟩
    | @adopt selfId introducer devices tombstones epoch vouch _ hadopt =>
      obtain ⟨rfl, -, hout⟩ := outcome_adopt C hadopt
      have hwritten :=
        RawRoster.Written.adopt (.fromVouch vouch.subject introducer.deviceId) introducer devices tombstones epoch
      rw [RawRoster.adoptWith_eq] at hwritten
      rw [hout]
      exact hwritten
  | step op _ ih => exact written_step C ih op

/-! ## A run's rosters -/

theorem restart_loses_nothing (r : Roster) (h : Reachable C r) :
    RawRoster.importSnapshot r.raw.exportSnapshot r.selfId = .ok r.raw ∧
      importSnapshot r.exportSnapshot r.selfId = .ok r ∧ ∃ own, r.devices.get? r.selfId = some own :=
  ⟨(RawRoster.import_export_iff r.raw).mpr (written_of_reachable C h).keyed, import_export r,
    Table.contains_iff.mp (h.contains_self C)⟩

/-- `a` with `b` in the family and `c` removed from it. -/
def worn : Roster :=
  run Crypto.plain founder
    [introduction "b" "kb" "" "a" "ka", introduction "c" "kc" "" "a" "ka",
     .remove "c" .lost "" "ka" (.ofSecs 1750000000)]

theorem worn_restarts :
    RawRoster.importSnapshot worn.raw.exportSnapshot worn.selfId = .ok worn.raw ∧
      importSnapshot worn.exportSnapshot worn.selfId = .ok worn ∧ ∃ own, worn.devices.get? worn.selfId = some own :=
  restart_loses_nothing Crypto.plain worn ((Reachable.born (.found _ _)).run _)

end Roster

end Beacon
