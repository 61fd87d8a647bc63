/-
  Beacon.Roster.Receive — the roster's receiving side: introductions and their
  quarantine, removals, `roster_sync`, labels, the server's device list, and the
  snapshot a restart goes through (`beacon_roster::roster`).

  Every sender is the device the session authenticated, never one a message claims.
-/

import Beacon.Roster.State

namespace Beacon

open Lib

namespace Roster

/-! ## Introductions -/

def receiveIntroduce (C : Crypto) (r : Roster) (message : RosterIntroduce) (introducer : String)
    (now : SystemTime) : Roster × Applied Admission :=
  let subjectId := message.subject.deviceId
  if !r.isActive introducer then r.refuseVouch subjectId (.introducerNotActive introducer)
  else if r.tombstones.contains subjectId then r.refuseVouch subjectId (.subjectTombstoned subjectId)
  else if subjectId = introducer then r.refuseVouch subjectId (.selfVouch subjectId)
  else if (r.devices.get? subjectId).any fun existing => existing.identityPk ≠ message.subject.identityPk then
    r.refuseVouch subjectId (.identityChanged subjectId)
  else if !r.isActive subjectId && maxActiveDevices ≤ r.activeCount then
    r.refuseVouch subjectId (.sizeCapReached r.activeCount)
  else
    match r.identityOf C introducer with
    | none => r.refuseVouch subjectId .malformedIdentityKey
    | some introducerKey =>
      match verifyVouch C introducerKey message with
      | .error refusal => r.refuseVouch subjectId refusal
      | .ok () =>
        match parseIdentity C message.subject.identityPk with
        | .error refusal => r.refuseVouch subjectId refusal
        | .ok _ =>
          if r.isActive subjectId then (r, ⟨.alreadyKnown, []⟩)
          else if r.churn.wouldExceed introducer now then
            let eventsInWindow := r.churn.countInWindow introducer now
            ({ r with held := r.held.insert ⟨message, introducer, eventsInWindow⟩ },
             ⟨.held eventsInWindow, [.inbound subjectId none (.admissionHeld eventsInWindow)]⟩)
          else
            let signedAt := timestampOr message.subject.joinedAt now
            let (r', ledger) :=
              { r with churn := r.churn.record introducer signedAt now }.admitDevice message.subject introducer
            (r', ⟨.admitted, ledger⟩)

/-- Approve a held admission. Neither the budget, the cap nor a key recorded meanwhile is consulted. -/
def approveHeld (r : Roster) (subject : String) : Roster × Applied (Option Admission) :=
  match r.held.get? subject with
  | none => (r, ⟨none, []⟩)
  | some held =>
    let r := { r with held := r.held.erase subject }
    let refuse := fun (refusal : VouchRefusal) =>
      (r, (⟨some (.refused refusal), [.inbound subject none (.admissionResolved false),
        .inbound subject none (.vouchRejected refusal.toText)]⟩ : Applied (Option Admission)))
    if !r.isActive held.introducer then refuse (.introducerNotActive held.introducer)
    else if r.tombstones.contains subject then refuse (.subjectTombstoned subject)
    else
      let (r', ledger) := r.admitDevice held.message.subject held.introducer
      (r', ⟨some .admitted, .inbound subject none (.admissionResolved true) :: ledger⟩)

def denyHeld (r : Roster) (subject : String) : Roster × Applied Bool :=
  match r.held.get? subject with
  | none => (r, ⟨false, []⟩)
  | some _ =>
    ({ r with held := r.held.erase subject }, ⟨true, [.inbound subject none (.admissionResolved false)]⟩)

/-! ## Removals -/

/-- Being told this device was removed: recorded, never tombstoned. The remover's
    recorded key counts, active or not. -/
def receiveRemovalOfSelf (C : Crypto) (r : Roster) (message : RosterRemove) (remover : String) :
    Roster × Applied Removal :=
  match (r.devices.get? remover).bind fun record => C.fromBase64 record.identityPk with
  | none => (r, ⟨.refused (.removerNotActive remover),
      [.inbound message.subject none (.vouchRejected ("`" ++ remover ++ "` is not in this family"))]⟩)
  | some key =>
    if !C.verify key (.removal message.payload) message.sig then
      (r, ⟨.refused .badSignature,
        [.inbound message.subject none (.vouchRejected RemovalRefusal.badSignature.toText)]⟩)
    else
      let r' := { r with removedMe := r.removedMe.insert remover, epoch := max r.epoch message.epoch }
      (r', ⟨.aboutSelf, .inbound remover none (.deviceRemoved remover message.reason) :: r'.splitLedger remover⟩)

def receiveRemove (C : Crypto) (r : Roster) (message : RosterRemove) (remover : String) (now : SystemTime) :
    Roster × Applied Removal :=
  if message.subject = r.selfId then r.receiveRemovalOfSelf C message remover
  else
    let refuse := fun (refusal : RemovalRefusal) =>
      (r, (⟨.refused refusal, [.inbound message.subject none (.vouchRejected refusal.toText)]⟩ : Applied Removal))
    if !r.isActive remover then refuse (.removerNotActive remover)
    else
      match r.identityOf C remover with
      | none => refuse .badSignature
      | some removerKey =>
        if !C.verify removerKey (.removal message.payload) message.sig then refuse .badSignature
        else
          -- counted, never refused
          let r := r.chargeRemoval remover message.subject message.removedAt now
          if r.tombstones.contains message.subject then (r, ⟨.alreadyRemoved, []⟩)
          else
            let (r', ledger) :=
              r.applyTombstone message.subject message.reason message.removedAt remover message.epoch
            (r', ⟨.applied, ledger⟩)

/-! ## Sync -/

structure Merge where
  roster : Roster
  ledger : List LedgerEntry
  anomalies : List String
  removalsApplied : Nat

/-- One reported device of the merge loop. -/
def mergeReported (message : RosterSync) (sender : String) (s : Merge) (reported : SyncDevice) : Merge :=
  match s.roster.devices.get? reported.deviceId with
  | none =>
    if s.roster.tombstones.contains reported.deviceId then s
    else { s with
      anomalies := s.anomalies ++ [reported.deviceId]
      ledger := s.ledger ++ [.inbound reported.deviceId none (.vouchRejected
        ("`" ++ sender ++ "` knows `" ++ reported.deviceId ++ "`, which no vouch has admitted here"))] }
  | some _ =>
    if reported.state = .removed then
      if reported.deviceId = s.roster.selfId then
        let roster := { s.roster with removedMe := s.roster.removedMe.insert sender }
        { s with roster, ledger := s.ledger ++ roster.splitLedger sender }
      else if s.roster.tombstones.contains reported.deviceId then s
      else
        let epoch := max s.roster.epoch message.epoch
        let (roster, entries) := s.roster.applyTombstone reported.deviceId .removed "" sender epoch
        { s with roster, ledger := s.ledger ++ entries, removalsApplied := s.removalsApplied + 1 }
    else s

def mergeDevices (r : Roster) (message : RosterSync) (sender : String) : Merge :=
  message.devices.foldl (mergeReported message sender) ⟨r, [], [], 0⟩

def receiveSync (C : Crypto) (r : Roster) (message : RosterSync) (sender : String) : Roster × Applied SyncOutcome :=
  if C.digestOf message.epoch message.devices ≠ message.digest then (r, ⟨.badDigest, []⟩)
  else if !r.isActive sender then (r, ⟨.refused sender, []⟩)
  else if message.epoch = r.epoch ∧ message.devices = r.syncDevices then (r, ⟨.inSync, []⟩)
  else
    let s := r.mergeDevices message sender
    let (roster, ledger) :=
      if s.roster.epoch < message.epoch then
        ({ s.roster with epoch := message.epoch },
         s.ledger ++ [.inbound sender none (.epochBumped message.epoch)])
      else (s.roster, s.ledger)
    (roster, ⟨.merged s.removalsApplied s.anomalies, ledger⟩)

/-! ## Labels -/

/-- One label: its value afterwards, and the entry where it changed. -/
def relabel (deviceId field : String) (new : Option String) (current : String) : String × List LedgerEntry :=
  match new with
  | some new => if new ≠ current then (new, [.inbound deviceId none (.labelsChanged field new)]) else (current, [])
  | none => (current, [])

def updateLabels (r : Roster) (deviceId : String) (displayName memberGroup role : Option String) :
    Roster × Applied Bool :=
  match r.devices.get? deviceId with
  | none => (r, ⟨false, []⟩)
  | some record =>
    let name := relabel deviceId "display_name" displayName record.displayName
    let group := relabel deviceId "member_group" memberGroup record.memberGroup
    let role := relabel deviceId "role" role record.role
    let ledger := name.2 ++ group.2 ++ role.2
    let set := fun (record : DeviceRecord) =>
      { record with displayName := name.1, memberGroup := group.1, role := role.1 }
    ({ r with devices := r.devices.modify deviceId set fun _ => rfl }, ⟨!ledger.isEmpty, ledger⟩)

/-! ## The server's device list -/

structure Reconcile where
  roster : Roster
  findings : List ServerFinding
  ledger : List LedgerEntry
  seen : Std.ExtTreeSet String compare

/-- One row of the server's list. -/
def reconcileRow (s : Reconcile) (device : ServerDevice) : Reconcile :=
  let s := { s with seen := s.seen.insert device.deviceId }
  match device.revoked, s.roster.devices.get? device.deviceId with
  | revoked, some record =>
    if record.isActive then
      if revoked then
        { s with
          findings := s.findings ++ [.revokedByServer device.deviceId]
          roster := { s.roster with devices := markRemoved s.roster.devices device.deviceId }
          ledger := s.ledger ++ [.localDecision device.deviceId (.deviceRemoved "server" .removed)] }
      else { s with findings := s.findings ++ [.normal device.deviceId] }
    else s
  | _, none =>
    { s with
      findings := s.findings ++ [.unvouched device.deviceId]
      ledger := s.ledger ++ [.localDecision device.deviceId .unvouchedDeviceListed] }

def reconcileServerList (r : Roster) (listed : List ServerDevice) : Roster × Applied (List ServerFinding) :=
  let s := listed.foldl reconcileRow ⟨r, [], [], ∅⟩
  let unreachable := s.roster.devices.values.filter fun record => record.isActive && !s.seen.contains record.deviceId
  (s.roster, ⟨s.findings ++ unreachable.map (.unreachable ·.deviceId), s.ledger⟩)

end Roster

/-! ## Persistence -/

structure RosterSnapshot where
  v : UInt8
  selfId : String
  devices : List DeviceRecord
  tombstones : List Tombstone
  epoch : UInt64
  churn : ChurnLog
  held : List HeldAdmission
  removedMe : List String

inductive RosterSnapshotError where
  | unsupportedVersion (found : UInt8)
  | wrongDevice (expected found : String)
  deriving DecidableEq, Repr

namespace Roster

def exportSnapshot (r : Roster) : RosterSnapshot where
  v := rosterSnapshotVersion
  selfId := r.selfId
  devices := r.devices.values
  tombstones := r.tombstones.values
  epoch := r.epoch
  churn := r.churn
  held := r.held.values
  removedMe := r.removedMe.toList

def importSnapshot (snapshot : RosterSnapshot) (selfId : String) : Except RosterSnapshotError Roster :=
  if snapshot.v ≠ rosterSnapshotVersion then .error (.unsupportedVersion snapshot.v)
  else if snapshot.selfId ≠ selfId then .error (.wrongDevice selfId snapshot.selfId)
  else .ok
    { selfId
      devices := .ofList snapshot.devices
      tombstones := .ofList snapshot.tombstones
      epoch := snapshot.epoch
      churn := snapshot.churn
      held := .ofList snapshot.held
      removedMe := .ofList snapshot.removedMe }

end Roster

end Beacon
