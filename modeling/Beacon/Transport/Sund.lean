/-
  Beacon.Transport.Sund — the transport port over Sund queues (`sund_client::sund_transport`).

  A channel is two one-way queues: the inbound one this device owns, and the outbound one
  the peer owns, which has to be attached before anything can be sent. The requests to the
  server (`sund_client::client`) are the calls of `SundServer`, which may answer anything;
  each takes the server's state and returns the next one.

  - `send_unaddressed`: nothing can be sent on a channel that was never declared, nor on
    one that is declared and not retired but has nothing attached; both answer the same.
  - `knowsAddresses_sund`: no other channel answers `UnknownChannel`, and sending gives no
    channel an address and takes none.
-/

import Beacon.Transport.Port

namespace Beacon

open Lib

/-! ## The server -/

abbrev Seed := Vector UInt8 32

/-- `QueueKey`, by the seed it comes from. -/
structure QueueKey where
  fromSeed : Seed

structure QueueIds where
  recipientId : String
  senderId : String
  deriving DecidableEq, Repr

structure QueueMessage where
  payload : Bytes
  ttl : Option Duration
  priority : Bool
  bindSenderKey : Bool

inductive HttpError where
  | network (detail : String)
  | tls (detail : String)
  | protocol (detail : String)
  deriving DecidableEq, Repr

def HttpError.toText : HttpError → String
  | network detail => "network: " ++ detail
  | tls detail => "cannot verify the server's identity: " ++ detail
  | protocol detail => "bad response: " ++ detail

inductive SundError where
  | http (error : HttpError)
  | unauthorized
  | notFound
  | rejected (message : String)
  | tooLarge
  | quotaExceeded
  | status (status : UInt16) (message : String)
  | malformed (detail : String)
  deriving DecidableEq, Repr

def SundError.toText : SundError → String
  | http error => error.toText
  | unauthorized => "unauthorized"
  | notFound => "not found"
  | rejected message => "rejected: " ++ message
  | tooLarge => "too large"
  | quotaExceeded => "the recipient's account is over its storage quota"
  | .status code message => "HTTP " ++ toString code ++ ": " ++ message
  | malformed detail => "unexpected response: " ++ detail

structure SundServer (σ : Type) where
  createQueue : σ → QueueKey → Except SundError QueueIds × σ
  retireQueue : σ → String → QueueKey → Except SundError Unit × σ
  sendToQueue : σ → String → QueueKey → QueueMessage → Except SundError MessageId × σ

/-- A server to run examples on: every request is granted. -/
def SundServer.granting : SundServer Unit :=
  ⟨fun w _ => (.ok ⟨"r", "s"⟩, w), fun w _ _ => (.ok (), w), fun w _ _ _ => (.ok "m", w)⟩

/-! ## The channels -/

structure OutboundQueue where
  senderId : String
  senderSeed : Seed
  bound : Bool

structure ChannelRecord where
  channel : ChannelId
  recipientSeed : Seed
  inbound : Option QueueIds
  outbound : Option OutboundQueue
  retired : Bool

structure SundTransport where
  channels : Table ChannelRecord.channel

def backend (error : SundError) : TransportError := .backend error.toText

/-- A queue that is not there: this pipe is gone. -/
def channelError (channel : ChannelId) : SundError → TransportError
  | .notFound => .retired channel
  | other => backend other

namespace SundTransport

def new : SundTransport := ⟨.empty⟩

def live (t : SundTransport) (channel : ChannelId) : Except TransportError ChannelRecord :=
  match t.channels.get? channel with
  | none => .error (.unknownChannel channel)
  | some record => if record.retired then .error (.retired channel) else .ok record

def put (t : SundTransport) (record : ChannelRecord) : SundTransport := ⟨t.channels.insert record⟩

def declare (t : SundTransport) (channel : ChannelId) (recipientSeed : Seed) : SundTransport :=
  ⟨t.channels.insertIfNew ⟨channel, recipientSeed, none, none, false⟩⟩

def attachOutbound (t : SundTransport) (channel : ChannelId) (senderId : String) (senderSeed : Seed) :
    Except TransportError Unit × SundTransport :=
  match t.live channel with
  | .error error => (.error error, t)
  | .ok record => (.ok (), t.put { record with outbound := some ⟨senderId, senderSeed, false⟩ })

variable {σ : Type} (S : SundServer σ)

/-- The two requests of a retirement: none where there is no queue, and one already gone is retired. -/
def retireInbound (server : σ) (record : ChannelRecord) : Except TransportError Unit × σ :=
  match record.inbound with
  | none => (.ok (), server)
  | some inbound =>
    match S.retireQueue server inbound.recipientId ⟨record.recipientSeed⟩ with
    | (.ok (), server) | (.error .notFound, server) => (.ok (), server)
    | (.error error, server) => (.error (backend error), server)

def rotateInbound (t : SundTransport) (server : σ) (channel : ChannelId) (newRecipientSeed : Seed) :
    Except TransportError QueueIds × SundTransport × σ :=
  match t.live channel with
  | .error error => (.error error, t, server)
  | .ok record =>
    match retireInbound S server record with
    | (.error error, server) => (.error error, t, server)
    | (.ok (), server) =>
      match S.createQueue server ⟨newRecipientSeed⟩ with
      | (.error error, server) => (.error (backend error), t, server)
      | (.ok ids, server) =>
        (.ok ids, t.put { record with recipientSeed := newRecipientSeed, inbound := some ids }, server)

/-- `Transport::open`. -/
def openChannel (t : SundTransport) (server : σ) (channel : ChannelId) :
    Except TransportError Unit × SundTransport × σ :=
  match t.live channel with
  | .error error => (.error error, t, server)
  | .ok record =>
    if record.inbound.isSome then (.ok (), t, server)
    else
      match S.createQueue server ⟨record.recipientSeed⟩ with
      | (.error error, server) => (.error (backend error), t, server)
      | (.ok ids, server) => (.ok (), t.put { record with inbound := some ids }, server)

def retire (t : SundTransport) (server : σ) (channel : ChannelId) : Except TransportError Unit × SundTransport × σ :=
  match t.live channel with
  | .error error => (.error error, t, server)
  | .ok record =>
    match retireInbound S server record with
    | (.error error, server) => (.error error, t, server)
    | (.ok (), server) => (.ok (), t.put { record with retired := true }, server)

/-- The queue a send on this channel goes to. -/
def outboundOf (t : SundTransport) (channel : ChannelId) : Except TransportError OutboundQueue :=
  match t.live channel with
  | .error error => .error error
  | .ok record =>
    match record.outbound with
    | none => .error (.unknownChannel channel)
    | some outbound => .ok outbound

/-- The queue's key is bound by the first send it accepts. -/
def bind (t : SundTransport) (channel : ChannelId) (senderId : String) : SundTransport :=
  ⟨t.channels.modify channel (fun record =>
    { record with
      outbound := record.outbound.map fun existing =>
        if existing.senderId = senderId then { existing with bound := true } else existing })
    fun _ => rfl⟩

def send (w : SundTransport × σ) (channel : ChannelId) (message : Outbound) :
    Except TransportError MessageId × (SundTransport × σ) :=
  match w.1.outboundOf channel with
  | .error error => (.error error, w)
  | .ok outbound =>
    match S.sendToQueue w.2 outbound.senderId ⟨outbound.senderSeed⟩
        ⟨message.ciphertext, message.ttl, message.priority == .high, !outbound.bound⟩ with
    | (.error error, server) => (.error (channelError channel error), (w.1, server))
    | (.ok id, server) => (.ok id, (if outbound.bound then w.1 else w.1.bind channel outbound.senderId, server))

/-! ## Where there is no address -/

/-- Declared and not retired, with nothing attached. -/
def awaitsAddress (t : SundTransport) (channel : ChannelId) : Bool :=
  (t.channels.get? channel).any fun record => !record.retired && record.outbound.isNone

def unaddressed (t : SundTransport) (channel : ChannelId) : Bool :=
  (t.channels.get? channel).isNone || t.awaitsAddress channel

theorem outboundOf_cases (t : SundTransport) (channel : ChannelId) :
    (t.unaddressed channel = true ∧ t.outboundOf channel = .error (.unknownChannel channel)) ∨
    (t.unaddressed channel = false ∧
      (t.outboundOf channel = .error (.retired channel) ∨ ∃ outbound, t.outboundOf channel = .ok outbound)) := by
  unfold unaddressed awaitsAddress outboundOf live
  cases hget : t.channels.get? channel with
  | none => exact Or.inl ⟨rfl, rfl⟩
  | some record =>
    cases hretired : record.retired with
    | true => exact Or.inr ⟨by simp [hretired], Or.inl (by simp [hretired])⟩
    | false =>
      cases hout : record.outbound with
      | none => exact Or.inl ⟨by simp [hretired, hout], by simp [hretired, hout]⟩
      | some outbound => exact Or.inr ⟨by simp [hout], Or.inr ⟨outbound, by simp [hretired, hout]⟩⟩

theorem send_unaddressed {w : SundTransport × σ} {channel : ChannelId} (h : w.1.unaddressed channel = true)
    (message : Outbound) : send S w channel message = (.error (.unknownChannel channel), w) := by
  rcases outboundOf_cases w.1 channel with ⟨-, hout⟩ | ⟨hno, -⟩
  · unfold send
    rw [hout]
  · rw [h] at hno
    cases hno

theorem unaddressed_bind (t : SundTransport) (channel : ChannelId) (senderId : String) :
    (t.bind channel senderId).unaddressed = t.unaddressed := by
  funext c
  unfold unaddressed awaitsAddress bind
  simp only [Table.get?_modify]
  by_cases hc : channel = c
  · rw [if_pos hc]
    cases t.channels.get? c with
    | none => rfl
    | some record => cases hout : record.outbound <;> simp [hout]
  · rw [if_neg hc]

theorem knowsAddresses_sund {O : Olm} :
    KnowsAddresses (Ports.over (O := O) (send S)) fun w => w.2.1.unaddressed where
  unknown w channel message h := by
    show (send S w.2 channel message).1 = _
    rw [send_unaddressed S h]
  known w channel message h other := by
    show (send S w.2 channel message).1 ≠ _
    unfold send
    rcases outboundOf_cases w.2.1 channel with ⟨hno, -⟩ | ⟨-, hout | ⟨outbound, hout⟩⟩
    · rw [h] at hno
      cases hno
    · rw [hout]
      simp
    · rw [hout]
      simp only []
      split
      next error _ _ => cases error <;> simp [channelError, backend]
      next => simp
  afterEncrypt _ _ _ := rfl
  afterSend w channel message := by
    show (send S w.2 channel message).2.1.unaddressed = w.2.1.unaddressed
    unfold send
    split
    · rfl
    · split
      · rfl
      next outbound _ _ _ _ _ =>
        show (if outbound.bound then w.2.1 else w.2.1.bind channel outbound.senderId).unaddressed = _
        split
        · rfl
        · exact unaddressed_bind _ _ _

end SundTransport

end Beacon
