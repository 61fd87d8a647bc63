/-
  Beacon.Envelope — the envelope's boundary (`beacon_protocol::envelope` and `receive`): what a
  decrypted plaintext is taken for, and what the activity log says of it.

  `serde_json::from_slice` is a parameter. It yields the envelope's fields as the wire has
  them, or says why there are none.
  - `isKnown_ofStr`: a wire string that is no known type's name is carried as `unknown`.
  - `receive_unknownType`: what `receive` has checked when it concludes that.
  - `ignored_iff`: nothing leaves the device for such a message exactly while no peer holds
    the receipts grant. Its type is never sent, but a receipt for it goes the way of a
    receipt for any routine message.
-/

import Beacon.Canonical.Json
import Beacon.Consent
import Beacon.Rfc3339.Format

namespace Beacon

/-- `ENVELOPE_VERSION`. -/
def envelopeVersion : UInt8 := 1

namespace MessageType

/-- The wire string. -/
def asStr : MessageType → String
  | .location => "location"
  | .battery => "battery"
  | .sos => "sos"
  | .sosClear => "sos_clear"
  | .attention => "attention"
  | .geofenceEvent => "geofence_event"
  | .consentUpdate => "consent_update"
  | .configUpdate => "config_update"
  | .memberInfo => "member_info"
  | .rosterIntroduce => "roster_introduce"
  | .rosterRemove => "roster_remove"
  | .rosterSync => "roster_sync"
  | .channelOffer => "channel_offer"
  | .receipt => "receipt"
  | .unknown wireType => wireType

/-- `MessageType::from`. -/
def ofStr : String → MessageType
  | "location" => .location
  | "battery" => .battery
  | "sos" => .sos
  | "sos_clear" => .sosClear
  | "attention" => .attention
  | "geofence_event" => .geofenceEvent
  | "consent_update" => .consentUpdate
  | "config_update" => .configUpdate
  | "member_info" => .memberInfo
  | "roster_introduce" => .rosterIntroduce
  | "roster_remove" => .rosterRemove
  | "roster_sync" => .rosterSync
  | "channel_offer" => .channelOffer
  | "receipt" => .receipt
  | other => .unknown other

/-- A type's name is read back as the type, and every string is kept. -/
@[simp] theorem asStr_ofStr (s : String) : (ofStr s).asStr = s := by
  unfold ofStr
  split <;> rfl

theorem ofStr_asStr {t : MessageType} (h : t.isKnown = true) : ofStr t.asStr = t := by
  cases t with
  | unknown wireType => cases h
  | _ => rfl

theorem isKnown_ofStr (s : String) : (ofStr s).isKnown = false ↔ ∀ t : MessageType, t.isKnown = true → t.asStr ≠ s := by
  constructor
  · intro hunknown t hknown hname
    rw [← hname, ofStr_asStr hknown, hknown] at hunknown
    cases hunknown
  · intro h
    by_contra hknown
    exact h (ofStr s) (Bool.not_eq_false _ ▸ hknown) (asStr_ofStr s)

theorem eq_unknown {t : MessageType} (h : t.isKnown = false) : t = .unknown t.asStr := by
  cases t with
  | unknown wireType => rfl
  | _ => cases h

end MessageType

/-- What `serde_json` reads of an envelope; the type is still a string. -/
structure WireEnvelope where
  v : UInt8
  id : String
  seq : UInt64
  messageType : String
  sent : String
  sender : String
  body : Json

structure Envelope where
  v : UInt8
  id : String
  seq : UInt64
  messageType : MessageType
  sent : String
  sender : String
  body : Json

inductive RejectReason where
  | malformed (detail : String)
  | unsupportedVersion (found : UInt8)
  | emptyField (field : String)
  | bodyNotObject
  | badTimestamp (value : String)
  | senderMismatch (claimed authenticated : String)
  deriving DecidableEq, Repr

def Json.isObject : Json → Bool
  | .object _ => true
  | _ => false

namespace Envelope

def ofWire (wire : WireEnvelope) : Envelope :=
  ⟨wire.v, wire.id, wire.seq, .ofStr wire.messageType, wire.sent, wire.sender, wire.body⟩

/-- The structural rules that hold for every type; the first violated is the reason. -/
def validate (e : Envelope) : Except RejectReason Unit :=
  if e.v ≠ envelopeVersion then .error (.unsupportedVersion e.v)
  else if e.id.isEmpty then .error (.emptyField "id")
  else if e.sender.isEmpty then .error (.emptyField "sender")
  else if e.messageType.asStr.isEmpty then .error (.emptyField "type")
  else if !Rfc3339.isRfc3339 e.sent then .error (.badTimestamp e.sent)
  else if !e.body.isObject then .error .bodyNotObject
  else .ok ()

def checkSender (e : Envelope) (authenticated : String) : Except RejectReason Unit :=
  if e.sender = authenticated then .ok () else .error (.senderMismatch e.sender authenticated)

def withoutBody (e : Envelope) : Envelope := { e with body := .object [] }

end Envelope

/-- The ledger's events of receiving. -/
inductive ReceiveEvent where
  | received (messageType : MessageType)
  | receivedUnknownType (wireType : String)
  | rejected (reason : RejectReason)
  deriving DecidableEq, Repr

inductive Outcome where
  | accepted (e : Envelope)
  | unknownType (e : Envelope)
  | rejected (reason : RejectReason)

structure Reception where
  outcome : Outcome
  ledger : EventEntry ReceiveEvent

def rejected (peer : String) (messageId : Option String) (reason : RejectReason) : Reception :=
  ⟨.rejected reason, .inbound peer messageId (.rejected reason)⟩

section receive

variable (fromSlice : List UInt8 → Except String WireEnvelope)

def Envelope.decode (bytes : List UInt8) : Except RejectReason Envelope :=
  match fromSlice bytes with
  | .error detail => .error (.malformed detail)
  | .ok wire =>
    let envelope := Envelope.ofWire wire
    match envelope.validate with
    | .error reason => .error reason
    | .ok () => .ok envelope

def receive (plaintext : List UInt8) (authenticatedSender : String) : Reception :=
  match Envelope.decode fromSlice plaintext with
  | .error reason => rejected authenticatedSender none reason
  | .ok envelope =>
    match envelope.checkSender authenticatedSender with
    | .error reason => rejected authenticatedSender (some envelope.id) reason
    | .ok () =>
      if envelope.messageType.isKnown then
        ⟨.accepted envelope, .inbound authenticatedSender (some envelope.id) (.received envelope.messageType)⟩
      else
        ⟨.unknownType envelope.withoutBody,
          .inbound authenticatedSender (some envelope.id) (.receivedUnknownType envelope.messageType.asStr)⟩

/-- What is asked of a message whose type is not known: its body is dropped, the log names it
    against the device that sent it, and nothing leaves this one on its account. -/
structure Ignored (bytes : List UInt8) (sender : String) (e : Envelope) (s : ConsentState) : Prop where
  bodyDropped : e.body = .object []
  ledgered : ∃ wire, fromSlice bytes = .ok wire ∧
    (∀ t : MessageType, t.isKnown = true → t.asStr ≠ wire.messageType) ∧ e.messageType = .unknown wire.messageType ∧
    (receive fromSlice bytes sender).ledger = .inbound sender (some wire.id) (.receivedUnknownType wire.messageType)
  unsent : ∀ peer, (s.maySend (.message e.messageType) peer).isAllowed = false
  unacknowledged : ∀ peer, (s.maySend (.receiptFor e.messageType) peer).isAllowed = false

variable {fromSlice}

theorem decode_ok {bytes : List UInt8} {e : Envelope} (h : Envelope.decode fromSlice bytes = .ok e) :
    ∃ wire, fromSlice bytes = .ok wire ∧ e = .ofWire wire ∧ e.validate = .ok () := by
  unfold Envelope.decode at h
  split at h
  · cases h
  · rename_i wire hwire
    dsimp only at h
    split at h
    · cases h
    · rename_i hvalid
      cases h
      exact ⟨wire, hwire, rfl, hvalid⟩

theorem receive_unknownType {bytes : List UInt8} {sender : String} {e : Envelope}
    (h : (receive fromSlice bytes sender).outcome = .unknownType e) :
    ∃ wire, fromSlice bytes = .ok wire ∧ (Envelope.ofWire wire).validate = .ok () ∧ wire.sender = sender ∧
      (MessageType.ofStr wire.messageType).isKnown = false ∧ e = (Envelope.ofWire wire).withoutBody ∧
      (receive fromSlice bytes sender).ledger =
        .inbound sender (some wire.id) (.receivedUnknownType wire.messageType) := by
  unfold receive at h ⊢
  split at h
  · cases h
  · rename_i envelope hdecode
    obtain ⟨wire, hwire, rfl, hvalid⟩ := decode_ok hdecode
    split at h
    · cases h
    · rename_i hsender
      have hfrom : wire.sender = sender := by
        unfold Envelope.checkSender at hsender
        split at hsender
        · assumption
        · cases hsender
      split at h
      · cases h
      · rename_i hunknown
        cases h
        rw [Bool.not_eq_true] at hunknown
        refine ⟨wire, hwire, hvalid, hfrom, hunknown, rfl, ?_⟩
        rw [if_neg (Bool.not_eq_true _ ▸ hunknown)]
        show EventEntry.inbound sender (some wire.id)
          (ReceiveEvent.receivedUnknownType (MessageType.ofStr wire.messageType).asStr) = _
        rw [MessageType.asStr_ofStr]

end receive

namespace ConsentState

theorem maySend_unknown (s : ConsentState) (wireType peer : String) :
    (s.maySend (.message (.unknown wireType)) peer).isAllowed = false := rfl

theorem receiptFor_unknown (history : List Call) (wireType peer : String) :
    ((after history).maySend (.receiptFor (.unknown wireType)) peer).isAllowed = false ↔
      lastDecided history .receipts peer ≠ some true := by
  rw [maySend_receiptFor, if_neg (by simp [receiptMandatory]), isAllowed_requireGrant, ne_eq,
    ← hasGranted_after, Bool.not_eq_true]

end ConsentState

open ConsentState

/-- A message of an unknown type provokes nothing exactly while no peer holds the receipts grant. -/
theorem ignored_iff (fromSlice : List UInt8 → Except String WireEnvelope) (bytes : List UInt8) (sender : String)
    (e : Envelope) (history : List Call) (h : (receive fromSlice bytes sender).outcome = .unknownType e) :
    Ignored fromSlice bytes sender e (after history) ↔ ∀ peer, lastDecided history .receipts peer ≠ some true := by
  obtain ⟨wire, hwire, -, -, hunknown, rfl, hledger⟩ := receive_unknownType h
  have htype : (Envelope.ofWire wire).withoutBody.messageType = .unknown wire.messageType := by
    show MessageType.ofStr wire.messageType = _
    rw [MessageType.eq_unknown hunknown, MessageType.asStr_ofStr]
  constructor
  · intro hignored peer
    have hreceipt := hignored.unacknowledged peer
    rw [htype] at hreceipt
    exact (receiptFor_unknown history wire.messageType peer).mp hreceipt
  · intro hnone
    refine ⟨rfl, ⟨wire, hwire, (MessageType.isKnown_ofStr _).mp hunknown, htype, hledger⟩, fun peer => ?_, fun peer => ?_⟩
    · rw [htype]
      exact maySend_unknown _ _ _
    · rw [htype]
      exact (receiptFor_unknown history wire.messageType peer).mpr (hnone peer)

/-- A message of a type this build does not know, and a parser that reads it. -/
def presence : WireEnvelope :=
  ⟨1, "m1", 7, "presence", "2026-07-19T10:04:12Z", "dev_A", .object [("x", .number (.posInt 1))]⟩

def presenceText : String :=
  "\x7b\"v\":1,\"id\":\"m1\",\"seq\":7,\"type\":\"presence\",\"sent\":\"2026-07-19T10:04:12Z\"," ++
  "\"sender\":\"dev_A\",\"body\":\x7b\"x\":1\x7d\x7d"

def readPresence (bytes : List UInt8) : Except String WireEnvelope :=
  if bytes = Rfc3339.utf8 presenceText then .ok presence else .error "expected value at line 1 column 1"

theorem receive_presence : (receive readPresence (Rfc3339.utf8 presenceText) "dev_A").outcome =
    .unknownType (Envelope.ofWire presence).withoutBody := by
  have hread : readPresence (Rfc3339.utf8 presenceText) = .ok presence := if_pos rfl
  have hvalid : (Envelope.ofWire presence).validate = .ok () := by decide
  unfold receive Envelope.decode
  simp only [hread, hvalid]
  rfl

/-- While `dev_A` holds the receipts grant, it may be sent a receipt for its message. -/
theorem presence_acknowledged :
    (receive readPresence (Rfc3339.utf8 presenceText) "dev_A").outcome =
      .unknownType (Envelope.ofWire presence).withoutBody ∧
    ¬ Ignored readPresence (Rfc3339.utf8 presenceText) "dev_A" (Envelope.ofWire presence).withoutBody
      (after [.grant .receipts "dev_A"]) := by
  refine ⟨receive_presence, fun h => ?_⟩
  have hreceipt := h.unacknowledged "dev_A"
  revert hreceipt
  decide

theorem presence_ignored :
    Ignored readPresence (Rfc3339.utf8 presenceText) "dev_A" (Envelope.ofWire presence).withoutBody
      (after [.grant .receipts "dev_A", .revoke .receipts "dev_A"]) ↔
    ∀ peer, lastDecided [.grant .receipts "dev_A", .revoke .receipts "dev_A"] .receipts peer ≠ some true :=
  ignored_iff readPresence (Rfc3339.utf8 presenceText) "dev_A" _ _ receive_presence

end Beacon
