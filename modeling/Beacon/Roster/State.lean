/-
  Beacon.Roster.State — what a device holds about its family (`beacon_roster::records`,
  and the state, queries and producing side of `beacon_roster::roster`).

  The four collections are tables keyed by the id their entries carry, so a record
  filed under another device's id cannot be built. `devices` and `tombstones` are
  separate and can disagree: a tombstone needs no record.
-/

import Beacon.Churn
import Beacon.Identity
import Beacon.Rfc3339
import Beacon.Lib.Table

namespace Beacon

open Lib

/-! ## Records -/

structure DeviceRecord where
  deviceId : String
  identityPk : String
  displayName : String
  memberGroup : String
  role : String
  joinedAt : String
  introducedBy : String
  state : DeviceState
  deriving DecidableEq, Repr

namespace DeviceRecord

def fromVouch (subject : VouchedSubject) (introducedBy : String) : DeviceRecord where
  deviceId := subject.deviceId
  identityPk := subject.identityPk
  displayName := subject.displayName
  memberGroup := subject.memberGroup
  role := subject.role
  joinedAt := subject.joinedAt
  introducedBy := introducedBy
  state := .active

def isActive (record : DeviceRecord) : Bool := record.state == .active

end DeviceRecord

structure Tombstone where
  subject : String
  reason : RemovalReason
  removedAt : String
  removedBy : String
  epoch : UInt64
  deriving DecidableEq, Repr

structure SelfDescription where
  deviceId : String
  displayName : String
  memberGroup : String
  role : String
  joinedAt : String
  deriving DecidableEq, Repr

def SelfDescription.subject (me : SelfDescription) (identityPk : String) : VouchedSubject where
  deviceId := me.deviceId
  identityPk := identityPk
  displayName := me.displayName
  memberGroup := me.memberGroup
  role := me.role
  joinedAt := me.joinedAt

/-! ## Outcomes -/

/-- `MAX_ACTIVE_DEVICES`. -/
def maxActiveDevices : Nat := 20

/-- `SNAPSHOT_VERSION`. -/
def rosterSnapshotVersion : UInt8 := 1

/-- An outcome and the ledger entries that accompany it. -/
structure Applied (α : Type) where
  outcome : α
  ledger : List LedgerEntry
  deriving Repr

inductive VouchRefusal where
  | introducerNotActive (introducer : String)
  | subjectTombstoned (subject : String)
  | selfVouch (subject : String)
  | sizeCapReached (active : Nat)
  | badSignature
  | malformedIdentityKey
  | identityChanged (subject : String)
  deriving DecidableEq, Repr

def VouchRefusal.toText : VouchRefusal → String
  | introducerNotActive introducer => "`" ++ introducer ++ "` is not an active member"
  | subjectTombstoned subject => "`" ++ subject ++ "` was removed from this family before"
  | selfVouch subject => "`" ++ subject ++ "` vouched for itself"
  | sizeCapReached active =>
    "the family already has " ++ toString active ++ " devices, the maximum is " ++ toString maxActiveDevices
  | badSignature => "the vouch signature did not verify"
  | malformedIdentityKey => "the vouch carried an unusable identity key"
  | identityChanged subject => "`" ++ subject ++ "` presented a different identity key"

inductive Admission where
  | admitted
  | alreadyKnown
  | held (eventsInWindow : Nat)
  | refused (refusal : VouchRefusal)
  deriving DecidableEq, Repr

inductive RemovalRefusal where
  | removerNotActive (remover : String)
  | badSignature
  deriving DecidableEq, Repr

def RemovalRefusal.toText : RemovalRefusal → String
  | removerNotActive remover => "`" ++ remover ++ "` is not an active member"
  | badSignature => "the removal signature did not verify"

inductive Removal where
  | applied
  | alreadyRemoved
  | aboutSelf
  | refused (refusal : RemovalRefusal)
  deriving DecidableEq, Repr

/-- A vouch waiting for this device's user to decide. -/
structure HeldAdmission where
  message : RosterIntroduce
  introducer : String
  eventsInWindow : Nat
  deriving DecidableEq, Repr

def HeldAdmission.subjectId (h : HeldAdmission) : String := h.message.subject.deviceId

/-- `Sync`, what a `roster_sync` did. -/
inductive SyncOutcome where
  | inSync
  | refused (sender : String)
  | merged (removalsApplied : Nat) (anomalies : List String)
  | badDigest
  deriving DecidableEq, Repr

structure ServerDevice where
  deviceId : String
  revoked : Bool
  deriving DecidableEq, Repr

inductive ServerFinding where
  | revokedByServer (deviceId : String)
  | normal (deviceId : String)
  | unvouched (deviceId : String)
  | unreachable (deviceId : String)
  deriving DecidableEq, Repr

/-! ## The roster -/

structure Roster where
  selfId : String
  devices : Table DeviceRecord.deviceId
  tombstones : Table Tombstone.subject
  epoch : UInt64
  churn : ChurnLog
  held : Table HeldAdmission.subjectId
  removedMe : Std.ExtTreeSet String compare

namespace Roster

/-! ### Construction -/

def found (C : Crypto) (me : SelfDescription) (identity : C.IdentityKey) : Applied Roster where
  outcome :=
    { selfId := me.deviceId
      devices := Table.empty.insert
        { deviceId := me.deviceId
          identityPk := C.toBase64 (C.publicKey identity)
          displayName := me.displayName
          memberGroup := me.memberGroup
          role := me.role
          joinedAt := me.joinedAt
          introducedBy := me.deviceId
          state := .active }
      tombstones := .empty
      epoch := 0
      churn := .new
      held := .empty
      removedMe := ∅ }
  ledger := [.localDecision me.deviceId (.deviceJoined me.deviceId)]

end Roster

def parseIdentity (C : Crypto) (encoded : String) : Except VouchRefusal C.PublicKey :=
  match C.fromBase64 encoded with
  | some key => .ok key
  | none => .error .malformedIdentityKey

def verifyVouch (C : Crypto) (introducer : C.PublicKey) (message : RosterIntroduce) : Except VouchRefusal Unit :=
  if C.verify introducer (.vouch message.payload) message.vouch then .ok () else .error .badSignature

namespace Roster

/-- The joining device's side of admission: the introducer's snapshot, taken whole. -/
def adopt (C : Crypto) (selfId : String) (introducer : DeviceRecord) (theirDevices : List DeviceRecord)
    (theirTombstones : List Tombstone) (theirEpoch : UInt64) (vouchForMe : RosterIntroduce) :
    Except VouchRefusal (Applied Roster) := do
  if vouchForMe.subject.deviceId ≠ selfId then
    throw (.selfVouch vouchForMe.subject.deviceId)
  let introducerKey ← parseIdentity C introducer.identityPk
  verifyVouch C introducerKey vouchForMe
  let tombstones : Table Tombstone.subject := .ofList theirTombstones
  if tombstones.contains selfId then
    throw (.subjectTombstoned selfId)
  let mine := DeviceRecord.fromVouch vouchForMe.subject introducer.deviceId
  return {
    outcome :=
      { selfId
        devices := ((Table.ofList theirDevices).insert mine).insertIfNew introducer
        tombstones
        epoch := theirEpoch
        churn := .new
        held := .empty
        removedMe := ∅ }
    ledger := theirDevices.map (fun record =>
        LedgerEntry.inbound record.deviceId none (.deviceJoined record.introducedBy)) ++
      [.localDecision selfId (.deviceJoined introducer.deviceId)] }

/-! ### Queries -/

def active (r : Roster) : List DeviceRecord := r.devices.values.filter (·.isActive)

def activeCount (r : Roster) : Nat := r.devices.values.countP (·.isActive)

def isActive (r : Roster) (deviceId : String) : Bool := (r.devices.get? deviceId).any (·.isActive)

/-- The key to check a bundle against; none for a device that is not active. -/
def identityOf (C : Crypto) (r : Roster) (deviceId : String) : Option C.PublicKey :=
  (r.devices.get? deviceId).bind fun record => if record.isActive then C.fromBase64 record.identityPk else none

/-- Devices this roster and that device hold removals for each other. -/
def splits (r : Roster) : List String := r.removedMe.toList.filter fun peer => r.tombstones.contains peer

theorem mem_splits {r : Roster} {peer : String} :
    peer ∈ r.splits ↔ r.removedMe.contains peer = true ∧ r.tombstones.contains peer = true := by
  rw [splits, List.mem_filter, Std.ExtTreeSet.mem_toList, Std.ExtTreeSet.contains_iff_mem]

/-! ### Internals -/

/-- One entry where `peer` and this device now hold removals for each other. -/
def splitLedger (r : Roster) (peer : String) : List LedgerEntry :=
  if r.removedMe.contains peer && r.tombstones.contains peer then [.localDecision peer (.familySplit peer)] else []

theorem familySplit_mem_splitLedger {r : Roster} {peer : String} (h : peer ∈ r.splits) :
    .localDecision peer (.familySplit peer) ∈ r.splitLedger peer := by
  obtain ⟨hme, ht⟩ := mem_splits.mp h
  simp [splitLedger, hme, ht]

def markRemoved (devices : Table DeviceRecord.deviceId) (deviceId : String) : Table DeviceRecord.deviceId :=
  devices.modify deviceId (fun record => { record with state := .removed }) fun _ => rfl

def admitDevice (r : Roster) (subject : VouchedSubject) (introducedBy : String) : Roster × List LedgerEntry :=
  ({ r with devices := r.devices.insert (.fromVouch subject introducedBy) },
   [.inbound subject.deviceId none (.deviceJoined introducedBy)])

def refuseVouch (r : Roster) (subject : String) (refusal : VouchRefusal) : Roster × Applied Admission :=
  (r, ⟨.refused refusal, [.inbound subject none (.vouchRejected refusal.toText)]⟩)

/-- Record a tombstone, deactivate the record and bump the epoch. -/
def applyTombstone (r : Roster) (subject : String) (reason : RemovalReason) (removedAt removedBy : String)
    (epoch : UInt64) : Roster × List LedgerEntry :=
  let r' : Roster :=
    { r with
      tombstones := r.tombstones.insert ⟨subject, reason, removedAt, removedBy, epoch⟩
      devices := markRemoved r.devices subject
      churn := r.churn.forget subject
      held := r.held.erase subject
      epoch := max r.epoch epoch }
  (r', [.inbound subject none (.deviceRemoved removedBy reason), .localDecision subject (.epochBumped r'.epoch)] ++
    r'.splitLedger subject)

/-! ### Producing messages -/

def vouchFor (C : Crypto) (r : Roster) (subject : VouchedSubject) (identity : C.IdentityKey) :
    Except VouchRefusal RosterIntroduce := do
  if r.tombstones.contains subject.deviceId then
    throw (.subjectTombstoned subject.deviceId)
  let _ ← parseIdentity C subject.identityPk
  if !r.isActive subject.deviceId && maxActiveDevices ≤ r.activeCount then
    throw (.sizeCapReached r.activeCount)
  match C.sign identity (.vouch ⟨subject, r.epoch⟩) with
  | none => throw .malformedIdentityKey
  | some vouch => return ⟨subject, r.epoch, vouch⟩

end Roster

/-- Parse a signed timestamp; an unreadable one just happened. -/
def timestampOr (text : String) (now : SystemTime) : SystemTime := (Rfc3339.parse text).getD now

namespace Roster

/-- A removal is charged to the device that signs it, unless that device is leaving. -/
def chargeRemoval (r : Roster) (remover subject removedAt : String) (now : SystemTime) : Roster :=
  if subject ≠ remover then { r with churn := r.churn.record remover (timestampOr removedAt now) now } else r

/-- Remove a device, here first; the message is the tombstone to broadcast. A refusal
    leaves the roster as it was. -/
def remove (C : Crypto) (r : Roster) (subject : String) (reason : RemovalReason) (removedAt : String)
    (identity : C.IdentityKey) (now : SystemTime) : Roster × Except RemovalRefusal (Applied RosterRemove) :=
  if !r.isActive r.selfId then (r, .error (.removerNotActive r.selfId))
  else
    -- `u64` addition: at the last epoch it wraps
    let epoch := r.epoch + 1
    match C.sign identity (.removal ⟨subject, reason, removedAt, epoch⟩) with
    | none => (r, .error .badSignature)
    | some sig =>
      let message : RosterRemove := ⟨subject, reason, removedAt, epoch, sig⟩
      let (r', ledger) :=
        (r.chargeRemoval r.selfId subject removedAt now).applyTombstone subject reason removedAt r.selfId epoch
      (r', .ok ⟨message, ledger⟩)

/-- `u64::MAX`. -/
def lastEpoch : UInt64 := 0xffffffffffffffff

/-- `remove` where the addition is checked, as in a build without optimisation: none is its panic. -/
def remove? (C : Crypto) (r : Roster) (subject : String) (reason : RemovalReason) (removedAt : String)
    (identity : C.IdentityKey) (now : SystemTime) :
    Option (Roster × Except RemovalRefusal (Applied RosterRemove)) :=
  if r.isActive r.selfId = true ∧ r.epoch = lastEpoch then none
  else some (r.remove C subject reason removedAt identity now)

/-- Every record, in id order; a tombstone without a record is not listed. -/
def syncDevices (r : Roster) : List SyncDevice :=
  r.devices.values.map fun record => ⟨record.deviceId, record.identityPk, record.state⟩

def sync (C : Crypto) (r : Roster) : RosterSync :=
  ⟨r.epoch, r.syncDevices, C.digestOf r.epoch r.syncDevices⟩

end Roster

end Beacon
