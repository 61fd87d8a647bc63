/-
  Beacon.Transport.Port — the two ports the outbox drains through: the transport
  (`sund_client::transport`) and the session layer's sealing (`sund_client::session`).

  Both are stateful, so each call takes the state of the world and returns the next
  one. `Ports` holds the calls of one pass, whatever answers them; `Ports.over` puts the
  session manager over any transport. `SealsByPeer` is what the session layer adds to
  any answer: whether a message can be sealed depends on the peer alone. `KnowsAddresses`
  is what the Sund transport adds: which channels it answers `UnknownChannel` on.
-/

import Beacon.Session
import Beacon.Time

namespace Beacon

abbrev ChannelId := String
abbrev MessageId := String

inductive Priority where
  | normal
  | high
  deriving DecidableEq, Repr

structure Outbound where
  ciphertext : Bytes
  priority : Priority
  ttl : Option Duration
  deriving DecidableEq, Repr

/-- One inbound message. -/
structure Delivery where
  id : MessageId
  ciphertext : Bytes
  receivedAt : SystemTime
  deriving DecidableEq, Repr

inductive TransportError where
  | unknownChannel (channel : ChannelId)
  | retired (channel : ChannelId)
  | backend (detail : String)
  deriving DecidableEq, Repr

/-! ## The ports -/

structure Ports (ω : Type) where
  /-- `SessionManager::encrypt`. -/
  encrypt : ω → String → Bytes → Except SessionError Bytes × ω
  /-- `Transport::send`. -/
  send : ω → ChannelId → Outbound → Except TransportError MessageId × ω

/-- Whether `encrypt` succeeds is a matter of the peer, and no call of a pass changes it. -/
structure SealsByPeer {ω : Type} (P : Ports ω) (sealable : ω → String → Bool) : Prop where
  encrypt : ∀ w peer plaintext, (P.encrypt w peer plaintext).1.isOk = sealable w peer
  afterEncrypt : ∀ w peer plaintext, sealable (P.encrypt w peer plaintext).2 = sealable w
  afterSend : ∀ w channel message, sealable (P.send w channel message).2 = sealable w

/-- `UnknownChannel` is the answer on a channel without an address, whatever is sent, and on
    no other; and no call of a pass gives a channel an address or takes it. -/
structure KnowsAddresses {ω : Type} (P : Ports ω) (unaddressed : ω → ChannelId → Bool) : Prop where
  unknown : ∀ w channel message, unaddressed w channel = true →
    (P.send w channel message).1 = .error (.unknownChannel channel)
  known : ∀ w channel message, unaddressed w channel = false →
    ∀ other, (P.send w channel message).1 ≠ .error (.unknownChannel other)
  afterEncrypt : ∀ w peer plaintext, unaddressed (P.encrypt w peer plaintext).2 = unaddressed w
  afterSend : ∀ w channel message, unaddressed (P.send w channel message).2 = unaddressed w

section Over

variable {O : Olm} {τ : Type} (send : τ → ChannelId → Outbound → Except TransportError MessageId × τ)

/-- The session manager, over any transport. -/
def Ports.over : Ports (SessionManager O × τ) where
  encrypt w peer plaintext := ((w.1.encrypt peer plaintext).1, ((w.1.encrypt peer plaintext).2, w.2))
  send w channel message := ((send w.2 channel message).1, (w.1, (send w.2 channel message).2))

theorem sealsByPeer_over {agrees : O.PublicKey → O.PublicKey → Bool} {usable : O.Session → Bool}
    (hO : O.SealsByKeys agrees usable) :
    SealsByPeer (Ports.over send) fun w => w.1.sealable agrees usable where
  encrypt w peer plaintext := (SessionManager.encrypt_sealable hO w.1 peer plaintext).2
  afterEncrypt w peer plaintext := (SessionManager.encrypt_sealable hO w.1 peer plaintext).1
  afterSend _ _ _ := rfl

end Over

/-- What one `send` answered. -/
structure Answer where
  channel : ChannelId
  result : Except TransportError MessageId

namespace Answer

def accepted (a : Answer) : Bool := a.result.isOk

/-- `Retired` or `UnknownChannel`, the two the outbox takes as final for the channel. -/
def terminal (a : Answer) : Bool :=
  match a.result with
  | .error (.retired _) | .error (.unknownChannel _) => true
  | _ => false

@[simp] theorem accepted_ok (c : ChannelId) (m : MessageId) : (⟨c, .ok m⟩ : Answer).accepted = true := rfl
@[simp] theorem accepted_error (c : ChannelId) (e : TransportError) : (⟨c, .error e⟩ : Answer).accepted = false := rfl
@[simp] theorem terminal_ok (c : ChannelId) (m : MessageId) : (⟨c, .ok m⟩ : Answer).terminal = false := rfl
@[simp] theorem terminal_backend (c : ChannelId) (detail : String) :
    (⟨c, .error (.backend detail)⟩ : Answer).terminal = false := rfl

end Answer

/-- The same ports, keeping every answer to a `send`. -/
def Ports.logged {ω : Type} (P : Ports ω) : Ports (ω × List Answer) where
  encrypt w peer plaintext := ((P.encrypt w.1 peer plaintext).1, ((P.encrypt w.1 peer plaintext).2, w.2))
  send w channel message :=
    ((P.send w.1 channel message).1,
     ((P.send w.1 channel message).2, w.2 ++ [⟨channel, (P.send w.1 channel message).1⟩]))

/-! ## Ports to run examples on -/

/-- A transport that takes everything. -/
def sendTaking : Unit → ChannelId → Outbound → Except TransportError MessageId × Unit := fun w _ _ => (.ok "", w)

/-- A transport that answers from a script and, out of script, accepts. -/
def sendScripted :
    List (Except TransportError MessageId) → ChannelId → Outbound →
      Except TransportError MessageId × List (Except TransportError MessageId)
  | [], _, _ => (.ok "", [])
  | answer :: rest, _, _ => (answer, rest)

abbrev Script := SessionManager Olm.plain × List (Except TransportError MessageId)

/-- Sessions with these peers, and these answers. -/
def script (peers : List String) (answers : List (Except TransportError MessageId)) : Script :=
  (.knowing peers, answers)

def Ports.scripted : Ports Script := .over sendScripted

end Beacon
