/-
  Beacon.Wire — the roster's wire types and the exact payloads its signatures cover
  (`beacon_protocol::roster`), and the part of the transparency ledger's vocabulary
  the roster writes (`beacon_protocol::ledger`).

  Membership events only: the message, consent and channel events of the ledger are
  written by other layers, in entries of their own (`EventEntry`), and `channel_offer`
  is not a roster message.
-/

import Mathlib.Order.Defs.LinearOrder

namespace Beacon

inductive DeviceState where
  | active
  | removed
  deriving DecidableEq, Repr

inductive RemovalReason where
  | left
  | removed
  | lost
  deriving DecidableEq, Repr

structure VouchedSubject where
  deviceId : String
  identityPk : String
  displayName : String
  memberGroup : String
  role : String
  joinedAt : String
  deriving DecidableEq, Repr

/-- What a vouch signs. -/
structure VouchPayload where
  subject : VouchedSubject
  epoch : UInt64
  deriving DecidableEq, Repr

structure RosterIntroduce where
  subject : VouchedSubject
  epoch : UInt64
  vouch : String
  deriving DecidableEq, Repr

def RosterIntroduce.payload (m : RosterIntroduce) : VouchPayload := ⟨m.subject, m.epoch⟩

/-- What a removal signs. -/
structure RemovalPayload where
  subject : String
  reason : RemovalReason
  removedAt : String
  epoch : UInt64
  deriving DecidableEq, Repr

structure RosterRemove where
  subject : String
  reason : RemovalReason
  removedAt : String
  epoch : UInt64
  sig : String
  deriving DecidableEq, Repr

def RosterRemove.payload (m : RosterRemove) : RemovalPayload := ⟨m.subject, m.reason, m.removedAt, m.epoch⟩

structure SyncDevice where
  deviceId : String
  identityPk : String
  state : DeviceState
  deriving DecidableEq, Repr

structure RosterSync where
  epoch : UInt64
  devices : List SyncDevice
  digest : String
  deriving DecidableEq, Repr

/-! ## The ledger -/

inductive Direction where
  | inbound
  | outbound
  | localDecision
  deriving DecidableEq, Repr

inductive LedgerEvent where
  | deviceJoined (vouchedBy : String)
  | deviceRemoved (removedBy : String) (reason : RemovalReason)
  | vouchRejected (reason : String)
  | admissionHeld (eventsInWindow : Nat)
  | admissionResolved (admitted : Bool)
  | unvouchedDeviceListed
  | epochBumped (epoch : UInt64)
  | familySplit (counterpart : String)
  | labelsChanged (field value : String)
  deriving DecidableEq, Repr

structure LedgerEntry where
  direction : Direction
  peer : String
  messageId : Option String
  event : LedgerEvent
  deriving DecidableEq, Repr

namespace LedgerEntry

def inbound (peer : String) (messageId : Option String) (event : LedgerEvent) : LedgerEntry :=
  ⟨.inbound, peer, messageId, event⟩

/-- `LedgerEntry::local`. -/
def localDecision (peer : String) (event : LedgerEvent) : LedgerEntry := ⟨.localDecision, peer, none, event⟩

end LedgerEntry

/-- A ledger entry with an event of another layer's. -/
structure EventEntry (Event : Type) where
  direction : Direction
  peer : String
  messageId : Option String
  event : Event
  deriving DecidableEq, Repr

namespace EventEntry

variable {Event : Type}

def inbound (peer : String) (messageId : Option String) (event : Event) : EventEntry Event :=
  ⟨.inbound, peer, messageId, event⟩

/-- `LedgerEntry::local`. -/
def localDecision (peer : String) (event : Event) : EventEntry Event := ⟨.localDecision, peer, none, event⟩

end EventEntry

end Beacon
