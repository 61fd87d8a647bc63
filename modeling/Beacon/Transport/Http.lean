/-
  Beacon.Transport.Http — the client over an HTTP port (`sund_client::client` over
  `sund_client::http`), and the transport on top of it: what goes over the wire.

  A request is signed with the stamp drawn for it and performed; the status of the reply is
  mapped to an error, and the body of a good one read. The server may answer anything.
  Reading JSON and base64 is not part of the repository: `SundHttp` takes it as functions.
  - `planes_apart`: over every run of transport calls, with any replies, each request on the
    wire is either the creation of a queue, under the device's id and key, or a call on a
    queue of the channel the call is about, without the device's id and signed with the key
    that channel's record holds for that queue; each carries the one stamp drawn for it.
-/

import Beacon.Lib.Trace
import Beacon.Transport.Requests
import Beacon.Transport.Rotation
import Beacon.Rfc3339

namespace Beacon

open Lib

/-! ## The port -/

structure HttpResponse where
  status : UInt16
  body : Bytes
  deriving DecidableEq, Repr

/-- One message of a `recv` reply. -/
structure MessageView where
  id : String
  payload : String
  receivedAt : String
  expires : String
  deriving DecidableEq, Repr

/-- What a device presents when it enrolls. -/
structure Enrollment where
  token : String
  publicKey : Vector UInt8 32
  pushEndpoint : String
  capabilities : String
  deriving DecidableEq, Repr

structure Enrolled where
  deviceId : String
  accountId : String
  deriving DecidableEq, Repr

/-- One device as the wire carries it. -/
structure DeviceView where
  id : String
  publicKey : String
  pushEndpoint : String
  capabilities : String
  created : String
  lastSeen : String
  revoked : Bool
  deriving DecidableEq, Repr

/-- One device as the server lists it. -/
structure ServerDeviceRecord where
  id : String
  publicKey : Vector UInt8 32
  pushEndpoint : String
  capabilities : String
  created : Option SystemTime
  lastSeen : Option SystemTime
  revoked : Bool
  deriving DecidableEq, Repr

/-- What a client is built over. A body that does not read gives the reader's error. -/
structure SundHttp (σ : Type) where
  E : Ed25519
  sha256 : Bytes → Vector UInt8 32
  base64 : Bytes → String
  decode : String → Option Bytes
  /-- `DeviceKey::from_seed`. -/
  fromSeed : Seed → E.SigningKey
  publicKey : E.SigningKey → Vector UInt8 32
  /-- `HttpClient::execute`. -/
  execute : σ → HttpRequest → Except HttpError HttpResponse × σ
  /-- `StampSource::stamp`. -/
  stamp : σ → Stamp × σ
  /-- `SystemTime::now()`. -/
  now : σ → SystemTime
  readError : Bytes → Option String
  /-- `String::from_utf8_lossy(body).trim()`. -/
  asText : Bytes → String
  readMessageId : Bytes → Except String MessageId
  readMessages : Bytes → Except String (List MessageView)
  readDeleted : Bytes → Except String Nat
  readQueueIds : Bytes → Except String QueueIds
  readEnrolled : Bytes → Except String Enrolled
  readDevices : Bytes → Except String (List DeviceView)

namespace SundHttp

variable {σ : Type} (C : SundHttp σ)

def serverMessage (body : Bytes) : String := (C.readError body).getD (C.asText body)

def checkStatus (response : HttpResponse) : Except SundError HttpResponse :=
  if 200 ≤ response.status ∧ response.status ≤ 299 then .ok response
  else if response.status = 400 then .error (.rejected (C.serverMessage response.body))
  else if response.status = 401 then .error .unauthorized
  else if response.status = 404 then .error .notFound
  else if response.status = 413 then .error .tooLarge
  else if response.status = 507 then .error .quotaExceeded
  else .error (.status response.status (C.serverMessage response.body))

def perform (w : σ) (request : HttpRequest) : Except SundError HttpResponse × σ :=
  match C.execute w request with
  | (.error error, w) => (.error (.http error), w)
  | (.ok response, w) => (C.checkStatus response, w)

def performSigned (w : σ) (request : HttpRequest) (key : C.E.SigningKey) (deviceId : Option String) :
    Except SundError HttpResponse × σ :=
  let (stamp, w) := C.stamp w
  C.perform w (signedRequest C.E C.sha256 request key deviceId stamp)

/-- The call's request, signed and performed, and what `read` makes of the reply's body. -/
def signedCall {α : Type} (w : σ) (call : SignedCall) (key : C.E.SigningKey) (deviceId : Option String)
    (read : Bytes → Except SundError α) : Except SundError α × σ :=
  match call.request C.E C.base64 key with
  | .error error => (.error error, w)
  | .ok request =>
    match C.performSigned w request key deviceId with
    | (.error error, w) => (.error error, w)
    | (.ok response, w) => (read response.body, w)

/-- `parse_json`. -/
def parseJson {α : Type} (read : Bytes → Except String α) (body : Bytes) : Except SundError α :=
  match read body with
  | .error detail => .error (.malformed detail)
  | .ok value => .ok value

def decodeBase64 (text field : String) : Except SundError Bytes :=
  match C.decode text with
  | none => .error (.malformed (field ++ " is not base64"))
  | some bytes => .ok bytes

/-- The request of `SundClient::register`, which nobody signs. -/
def registration (enrollment : Enrollment) : HttpRequest :=
  jsonRequest .post "/v1/devices/register" (toJson (.object [
    ("token", .string enrollment.token),
    ("public_key", .string (C.base64 enrollment.publicKey.toList)),
    ("push_endpoint", .string enrollment.pushEndpoint),
    ("capabilities", .string enrollment.capabilities)]))

def register (w : σ) (enrollment : Enrollment) : Except SundError Enrolled × σ :=
  match C.perform w (C.registration enrollment) with
  | (.error error, w) => (.error error, w)
  | (.ok response, w) => (parseJson C.readEnrolled response.body, w)

/-! ## The calls on a queue -/

def sendToQueue (w : σ) (senderId : String) (key : QueueKey) (message : QueueMessage) : Except SundError MessageId × σ :=
  C.signedCall w (.sendToQueue senderId message) (C.fromSeed key.fromSeed) none (parseJson C.readMessageId)

structure QueuedMessage where
  id : String
  payload : Bytes
  receivedAt : Option SystemTime
  expires : Option SystemTime
  deriving DecidableEq, Repr

def queuedMessage (view : MessageView) : Except SundError QueuedMessage := do
  let payload ← C.decodeBase64 view.payload "payload"
  return ⟨view.id, payload, Rfc3339.parse view.receivedAt, Rfc3339.parse view.expires⟩

def receiveFromQueue (w : σ) (recipientId : String) (key : QueueKey) : Except SundError (List QueuedMessage) × σ :=
  C.signedCall w (.receiveFromQueue recipientId) (C.fromSeed key.fromSeed) none fun body => do
    let views ← parseJson C.readMessages body
    views.mapM C.queuedMessage

def acknowledge (w : σ) (recipientId : String) (key : QueueKey) (ids : List String) : Except SundError Nat × σ :=
  C.signedCall w (.acknowledge recipientId ids) (C.fromSeed key.fromSeed) none (parseJson C.readDeleted)

def retireQueue (w : σ) (recipientId : String) (key : QueueKey) : Except SundError Unit × σ :=
  C.signedCall w (.retireQueue recipientId) (C.fromSeed key.fromSeed) none fun _ => .ok ()

/-- `DeviceClient::create_queue`, the one call of the transport on the management plane. -/
def createQueue (deviceId : String) (deviceKey : C.E.SigningKey) (w : σ) (key : QueueKey) : Except SundError QueueIds × σ :=
  C.signedCall w (.createQueue (C.publicKey (C.fromSeed key.fromSeed))) deviceKey (some deviceId)
    (parseJson C.readQueueIds)

/-- `DeviceClient::publish_bundle`. -/
def publishBundle (deviceId : String) (deviceKey : C.E.SigningKey) (w : σ) (bundle : Bytes) : Except SundError Unit × σ :=
  C.signedCall w (.publishBundle bundle) deviceKey (some deviceId) fun _ => .ok ()

/-- `DeviceView::into_record`. -/
def intoRecord (view : DeviceView) : Except SundError ServerDeviceRecord := do
  let key ← C.decodeBase64 view.publicKey "public_key"
  if h : key.length = 32 then
    return {
      id := view.id
      publicKey := ⟨key.toArray, by simpa using h⟩
      pushEndpoint := view.pushEndpoint
      capabilities := view.capabilities
      created := Rfc3339.parse view.created
      lastSeen := Rfc3339.parse view.lastSeen
      revoked := view.revoked }
  else throw (.malformed "public_key is not 32 bytes")

/-- `DeviceClient::list_devices`. -/
def listDevices (deviceId : String) (deviceKey : C.E.SigningKey) (w : σ) :
    Except SundError (List ServerDeviceRecord) × σ :=
  C.signedCall w .listDevices deviceKey (some deviceId) fun body => do
    let views ← parseJson C.readDevices body
    views.mapM C.intoRecord

/-- The server as the transport of an enrolled device sees it. -/
def server (deviceId : String) (deviceKey : C.E.SigningKey) : SundServer σ where
  createQueue w key := C.createQueue deviceId deviceKey w key
  retireQueue w recipientId key := C.retireQueue w recipientId key
  sendToQueue w senderId key message := C.sendToQueue w senderId key message

/-! ## The tape of a run -/

/-- What went over the wire, and the stamps drawn. -/
structure Tape where
  requests : List HttpRequest
  stamps : List Stamp

/-- The same client, keeping a tape. -/
def taped : SundHttp (σ × Tape) :=
  { C with
    execute := fun w request =>
      ((C.execute w.1 request).1, ((C.execute w.1 request).2, { w.2 with requests := w.2.requests ++ [request] }))
    stamp := fun w => ((C.stamp w.1).1, ((C.stamp w.1).2, { w.2 with stamps := w.2.stamps ++ [(C.stamp w.1).1] }))
    now := fun w => C.now w.1 }

end SundHttp

namespace SundTransport

variable {σ : Type} (C : SundHttp σ)

/-! ## Reading and acknowledging -/

/-- What is left to hand over of one drain. -/
abbrev Snapshot := List Delivery

def subscribe (t : SundTransport) (w : σ) (channel : ChannelId) : Except TransportError Snapshot × σ :=
  match t.drains channel with
  | .error error => (.error error, w)
  | .ok (recipientId, key) =>
    match C.receiveFromQueue w recipientId key with
    | (.error error, w) => (.error (channelError channel error), w)
    | (.ok messages, w) => (.ok (messages.map fun m => ⟨m.id, m.payload, m.receivedAt.getD (C.now w)⟩), w)

def nextDelivery : Snapshot → Option Delivery × Snapshot
  | [] => (none, [])
  | delivery :: rest => (some delivery, rest)

def acknowledgeAll (t : SundTransport) (w : σ) (channel : ChannelId) (messages : List MessageId) :
    Except TransportError Unit × σ :=
  if messages.isEmpty then (.ok (), w)
  else
    match t.drains channel with
    | .error error => (.error error, w)
    | .ok (recipientId, key) =>
      match C.acknowledge w recipientId key messages with
      | (.error error, w) => (.error (channelError channel error), w)
      | (.ok _, w) => (.ok (), w)

/-- `Transport::ack`. -/
def ack (t : SundTransport) (w : σ) (channel : ChannelId) (message : MessageId) : Except TransportError Unit × σ :=
  t.acknowledgeAll C w channel [message]

/-! ## Storage -/

/-- Every channel's state, by channel. -/
def exportRecords (t : SundTransport) : List ChannelRecord := t.channels.values

/-- Replacing anything held for the same channels. -/
def importRecords (t : SundTransport) (records : List ChannelRecord) : SundTransport :=
  ⟨records.foldl Table.insert t.channels⟩

def channelIds (t : SundTransport) : List ChannelId := t.channels.values.map ChannelRecord.channel

/-! ## Runs -/

inductive Act where
  | declare (channel : ChannelId) (recipientSeed : Seed)
  | attachOutbound (channel : ChannelId) (senderId : String) (senderSeed : Seed)
  | openChannel (channel : ChannelId)
  | rotateInbound (channel : ChannelId) (newRecipientSeed : Seed)
  | retire (channel : ChannelId)
  | send (channel : ChannelId) (message : Outbound)
  | subscribe (channel : ChannelId)
  | acknowledgeAll (channel : ChannelId) (messages : List MessageId)
  | importRecords (records : List ChannelRecord)

/-- One call of the transport of an enrolled device. -/
def act (deviceId : String) (deviceKey : C.E.SigningKey) (s : SundTransport × σ) : Act → SundTransport × σ
  | .declare channel recipientSeed => (s.1.declare channel recipientSeed, s.2)
  | .attachOutbound channel senderId senderSeed => ((s.1.attachOutbound channel senderId senderSeed).2, s.2)
  | .openChannel channel => (s.1.openChannel (C.server deviceId deviceKey) s.2 channel).2
  | .rotateInbound channel newRecipientSeed =>
    (s.1.rotateInbound (C.server deviceId deviceKey) s.2 channel newRecipientSeed).2
  | .retire channel => (s.1.retire (C.server deviceId deviceKey) s.2 channel).2
  | .send channel message => (send (C.server deviceId deviceKey) s channel message).2
  | .subscribe channel => (s.1, (s.1.subscribe C s.2 channel).2)
  | .acknowledgeAll channel messages => (s.1, (s.1.acknowledgeAll C s.2 channel messages).2)
  | .importRecords records => (s.1.importRecords records, s.2)

/-- The record of the channel that a call is about. -/
def Act.record? (t : SundTransport) : Act → Option ChannelRecord
  | .declare channel _ | .attachOutbound channel _ _ | .openChannel channel | .rotateInbound channel _
  | .retire channel | .send channel _ | .subscribe channel | .acknowledgeAll channel _ => t.channels.get? channel
  | .importRecords _ => none

/-! ## What a call may do to the server -/

/-- Every request about a channel with this record relates the server's states: of its queues, with their keys. -/
structure Relates {ω : Type} (S : SundServer ω) (R : ω → ω → Prop) (held : Option ChannelRecord) : Prop where
  refl : ∀ w, R w w
  trans : ∀ w w' w'', R w w' → R w' w'' → R w w''
  create : ∀ w key, R w (S.createQueue w key).2
  retire : ∀ record inbound, held = some record → record.inbound = some inbound →
    ∀ w, R w (S.retireQueue w inbound.recipientId ⟨record.recipientSeed⟩).2
  send : ∀ record outbound, held = some record → record.outbound = some outbound →
    ∀ w message, R w (S.sendToQueue w outbound.senderId ⟨outbound.senderSeed⟩ message).2

section Relates

variable {ω : Type} {S : SundServer ω} {R : ω → ω → Prop} {t : SundTransport} {channel : ChannelId}
  (h : Relates S R (t.channels.get? channel))

include h

theorem relates_open (w : ω) : R w (t.openChannel S w channel).2.2 := by
  unfold openChannel
  split
  · exact h.refl w
  next record _ =>
    split
    · exact h.refl w
    · have hcreate := h.create w ⟨record.recipientSeed⟩
      split
      next heq => rwa [heq] at hcreate
      next heq => rwa [heq] at hcreate

theorem relates_retireInbound {record : ChannelRecord} (hrecord : t.live channel = .ok record) (w : ω) :
    R w (retireInbound S w record).2 := by
  unfold retireInbound
  split
  · exact h.refl w
  next inbound hinbound =>
    have hretire := h.retire record inbound (live_ok hrecord).1 hinbound w
    split
    next heq => rwa [heq] at hretire
    next heq => rwa [heq] at hretire
    next heq => rwa [heq] at hretire

theorem relates_rotate (w : ω) (newRecipientSeed : Seed) :
    R w (t.rotateInbound S w channel newRecipientSeed).2.2 := by
  unfold rotateInbound
  split
  · exact h.refl w
  next record hrecord =>
    have hretire := relates_retireInbound h hrecord w
    split
    next heq => rwa [heq] at hretire
    next server heq =>
      rw [heq] at hretire
      have hcreate := h.create server ⟨newRecipientSeed⟩
      split
      next heq => rw [heq] at hcreate; exact h.trans _ _ _ hretire hcreate
      next heq => rw [heq] at hcreate; exact h.trans _ _ _ hretire hcreate

theorem relates_retire (w : ω) : R w (t.retire S w channel).2.2 := by
  unfold retire
  split
  · exact h.refl w
  next record hrecord =>
    have hretire := relates_retireInbound h hrecord w
    split
    next heq => rwa [heq] at hretire
    next heq => rwa [heq] at hretire

theorem relates_send (w : ω) (message : Outbound) : R w (send S (t, w) channel message).2.2 := by
  unfold send
  split
  · exact h.refl _
  next outbound houtbound =>
    obtain ⟨record, hrecord, hsome⟩ : ∃ record, t.live channel = .ok record ∧ record.outbound = some outbound := by
      unfold outboundOf at houtbound
      split at houtbound
      · cases houtbound
      next record hrecord =>
        split at houtbound
        · cases houtbound
        next hsome =>
          cases houtbound
          exact ⟨record, hrecord, hsome⟩
    have hsend := h.send record outbound (live_ok hrecord).1 hsome w
      ⟨message.ciphertext, message.ttl, message.priority == .high, !outbound.bound⟩
    split
    next heq => rwa [heq] at hsend
    next heq => rwa [heq] at hsend

end Relates

theorem drains_ok {t : SundTransport} {channel : ChannelId} {id : String} {key : QueueKey}
    (h : t.drains channel = .ok (id, key)) :
    ∃ record inbound, t.channels.get? channel = some record ∧ record.inbound = some inbound ∧
      id = inbound.recipientId ∧ key = ⟨record.recipientSeed⟩ := by
  unfold drains recipientId recipientKey at h
  cases hrecord : t.live channel with
  | error error =>
    rw [hrecord] at h
    cases h
  | ok record =>
    obtain ⟨hget, -, -⟩ := live_ok hrecord
    rw [hrecord, hget] at h
    cases hinbound : record.inbound with
    | none =>
      simp only [hinbound] at h
      cases h
    | some inbound =>
      simp only [hinbound] at h
      cases h
      exact ⟨record, inbound, hget, hinbound, rfl, rfl⟩

end SundTransport

/-! ## The two planes -/

/-- The path of a call on one of a channel's queues, and the seed of the key that queue is under. -/
inductive OnQueue (record : ChannelRecord) : String → Seed → Prop
  | send {outbound : OutboundQueue} : record.outbound = some outbound →
      OnQueue record ("/v1/send/" ++ outbound.senderId) outbound.senderSeed
  | recv {inbound : QueueIds} : record.inbound = some inbound →
      OnQueue record ("/v1/recv/" ++ inbound.recipientId) record.recipientSeed
  | ack {inbound : QueueIds} : record.inbound = some inbound →
      OnQueue record ("/v1/ack/" ++ inbound.recipientId) record.recipientSeed
  | retire {inbound : QueueIds} : record.inbound = some inbound →
      OnQueue record ("/v1/retire/" ++ inbound.recipientId) record.recipientSeed

namespace SundHttp

variable {σ : Type} (C : SundHttp σ) (deviceId : String) (deviceKey : C.E.SigningKey)

/-- Signed by the device, under its id, with the stamp. -/
def OnManagement (r : HttpRequest) (s : Stamp) : Prop :=
  r.path = "/v1/queues" ∧
  r.headers = [("Content-Type", "application/json"), (headerDeviceId, deviceId), (headerTimestamp, s.timestamp),
    (headerNonce, s.nonce), (headerSignature, signRequest C.E C.sha256 deviceKey (r.toSign s))]

/-- On a queue of the channel with this record, signed with that queue's key, with the stamp and without a
    device's id. -/
def OnTransport (held : Option ChannelRecord) (r : HttpRequest) (s : Stamp) : Prop :=
  ∃ (record : ChannelRecord) (seed : Seed) (before : List (String × String)),
    held = some record ∧ OnQueue record r.path seed ∧
    r.headers = before ++ [(headerTimestamp, s.timestamp), (headerNonce, s.nonce),
      (headerSignature, signRequest C.E C.sha256 (C.fromSeed seed) (r.toSign s))] ∧
    ∀ header ∈ before, header = ("Content-Type", "application/json") ∨
      header = (headerSenderKey, C.E.keyToBase64 (C.E.verifyingKey (C.fromSeed seed)))

def OnOnePlane (held : Option ChannelRecord) (r : HttpRequest) (s : Stamp) : Prop :=
  C.OnManagement deviceId deviceKey r s ∨ C.OnTransport held r s

/-- The tape grew by requests that each satisfy `Q` with the stamp drawn for them. -/
def Grew (Q : HttpRequest → Stamp → Prop) (w w' : σ × Tape) : Prop :=
  ∃ requests stamps, w'.2.requests = w.2.requests ++ requests ∧ w'.2.stamps = w.2.stamps ++ stamps ∧
    List.Forall₂ Q requests stamps

theorem Grew.refl {Q : HttpRequest → Stamp → Prop} (w : σ × Tape) : Grew Q w w :=
  ⟨[], [], by simp, by simp, .nil⟩

theorem Grew.trans {Q : HttpRequest → Stamp → Prop} {w w' w'' : σ × Tape} (h : Grew Q w w') (h' : Grew Q w' w'') :
    Grew Q w w'' := by
  obtain ⟨requests, stamps, hr, hs, hall⟩ := h
  obtain ⟨requests', stamps', hr', hs', hall'⟩ := h'
  exact ⟨requests ++ requests', stamps ++ stamps', by rw [hr', hr, List.append_assoc], by rw [hs', hs, List.append_assoc],
    List.rel_append hall hall'⟩

variable {C deviceId deviceKey}

theorem grew_signedCall {α : Type} {Q : HttpRequest → Stamp → Prop} (w : σ × Tape) (call : SignedCall)
    (key : C.E.SigningKey) (device : Option String) (read : Bytes → Except SundError α)
    (hQ : ∀ request stamp, call.request C.E C.base64 key = .ok request →
      Q (signedRequest C.E C.sha256 request key device stamp) stamp) :
    Grew Q w (C.taped.signedCall w call key device read).2 := by
  unfold signedCall
  split
  · exact .refl w
  next request hrequest =>
    have hperformed : Grew Q w (C.taped.performSigned w request key device).2 := by
      refine ⟨[signedRequest C.E C.sha256 request key device (C.stamp w.1).1], [(C.stamp w.1).1], ?_, ?_,
        .cons (hQ request _ hrequest) .nil⟩
      · show (C.taped.perform _ _).2.2.requests = _
        unfold perform
        split
        next heq => exact congrArg (·.2.2.requests) heq.symm
        next heq => exact congrArg (·.2.2.requests) heq.symm
      · show (C.taped.perform _ _).2.2.stamps = _
        unfold perform
        split
        next heq => exact congrArg (·.2.2.stamps) heq.symm
        next heq => exact congrArg (·.2.2.stamps) heq.symm
    split
    next heq => rwa [heq] at hperformed
    next heq => rwa [heq] at hperformed

/-- A request to a queue, once signed with the queue's key. -/
theorem onTransport_signed {held : Option ChannelRecord} {record : ChannelRecord} {request : HttpRequest} {seed : Seed}
    (hheld : held = some record) (hqueue : OnQueue record request.path seed)
    (hheaders : ∀ header ∈ request.headers, header = ("Content-Type", "application/json") ∨
      header = (headerSenderKey, C.E.keyToBase64 (C.E.verifyingKey (C.fromSeed seed)))) (stamp : Stamp) :
    C.OnTransport held (signedRequest C.E C.sha256 request (C.fromSeed seed) none stamp) stamp := by
  refine ⟨record, seed, request.headers, hheld, hqueue, ?_, hheaders⟩
  have hsent := (signedRequest_eq C.E C.sha256 request (C.fromSeed seed) none stamp).2
  simpa using hsent

theorem onManagement_createQueue {publicKey : Vector UInt8 32} {request : HttpRequest}
    (h : (SignedCall.createQueue publicKey).request C.E C.base64 deviceKey = .ok request) (stamp : Stamp) :
    C.OnManagement deviceId deviceKey (signedRequest C.E C.sha256 request deviceKey (some deviceId) stamp) stamp := by
  cases h
  exact ⟨rfl, (signedRequest_eq C.E C.sha256 _ deviceKey (some deviceId) stamp).2⟩

/-- The requests about a channel with this record are each on one plane. -/
theorem relates_grew (held : Option ChannelRecord) :
    SundTransport.Relates (C.taped.server deviceId deviceKey) (Grew (C.OnOnePlane deviceId deviceKey held)) held where
  refl := Grew.refl
  trans _ _ _ := Grew.trans
  create w _ := grew_signedCall w _ deviceKey (some deviceId) _ fun _ stamp h =>
    Or.inl (onManagement_createQueue h stamp)
  retire record inbound hheld hinbound w := by
    refine grew_signedCall w (.retireQueue inbound.recipientId) (C.fromSeed record.recipientSeed) none _ ?_
    intro request stamp h
    obtain ⟨-, rfl⟩ := segment_request h
    exact Or.inr (onTransport_signed hheld (.retire hinbound) (by simp [HttpRequest.new]) stamp)
  send record outbound hheld houtbound w message := by
    refine grew_signedCall w (.sendToQueue outbound.senderId message) (C.fromSeed outbound.senderSeed) none _ ?_
    intro request stamp h
    obtain ⟨-, rfl⟩ := segment_request h
    refine Or.inr ?_
    cases message.bindSenderKey with
    | true => exact onTransport_signed hheld (.send houtbound) (by simp [jsonRequest, HttpRequest.new,
        HttpRequest.withHeader, HttpRequest.withBody]) stamp
    | false => exact onTransport_signed hheld (.send houtbound) (by simp [jsonRequest, HttpRequest.new,
        HttpRequest.withHeader, HttpRequest.withBody]) stamp

theorem grew_subscribe (t : SundTransport) (w : σ × Tape) (channel : ChannelId) :
    Grew (C.OnOnePlane deviceId deviceKey (t.channels.get? channel)) w (t.subscribe C.taped w channel).2 := by
  unfold SundTransport.subscribe
  split
  · exact .refl _
  next recipientId key hdrains =>
    obtain ⟨record, inbound, hheld, hinbound, rfl, rfl⟩ := SundTransport.drains_ok hdrains
    have hcall : Grew (C.OnOnePlane deviceId deviceKey (t.channels.get? channel)) w
        (C.taped.receiveFromQueue w inbound.recipientId ⟨record.recipientSeed⟩).2 := by
      refine grew_signedCall w (.receiveFromQueue inbound.recipientId) (C.fromSeed record.recipientSeed) none _ ?_
      intro request stamp h
      obtain ⟨-, rfl⟩ := segment_request h
      exact Or.inr (onTransport_signed hheld (.recv hinbound) (by simp [HttpRequest.new]) stamp)
    split
    next heq => rwa [heq] at hcall
    next heq => rwa [heq] at hcall

theorem grew_acknowledgeAll (t : SundTransport) (w : σ × Tape) (channel : ChannelId) (messages : List MessageId) :
    Grew (C.OnOnePlane deviceId deviceKey (t.channels.get? channel)) w
      (t.acknowledgeAll C.taped w channel messages).2 := by
  unfold SundTransport.acknowledgeAll
  split
  · exact .refl _
  split
  · exact .refl _
  next recipientId key hdrains =>
    obtain ⟨record, inbound, hheld, hinbound, rfl, rfl⟩ := SundTransport.drains_ok hdrains
    have hcall : Grew (C.OnOnePlane deviceId deviceKey (t.channels.get? channel)) w
        (C.taped.acknowledge w inbound.recipientId ⟨record.recipientSeed⟩ messages).2 := by
      refine grew_signedCall w (.acknowledge inbound.recipientId messages) (C.fromSeed record.recipientSeed) none _ ?_
      intro request stamp h
      obtain ⟨-, rfl⟩ := segment_request h
      exact Or.inr (onTransport_signed hheld (.ack hinbound) (by simp [jsonRequest, HttpRequest.new,
        HttpRequest.withHeader, HttpRequest.withBody]) stamp)
    split
    next heq => rwa [heq] at hcall
    next heq => rwa [heq] at hcall

theorem grew_act (s : SundTransport × σ × Tape) (a : SundTransport.Act) :
    Grew (C.OnOnePlane deviceId deviceKey (a.record? s.1)) s.2 (SundTransport.act C.taped deviceId deviceKey s a).2 := by
  have h : SundTransport.Relates (C.taped.server deviceId deviceKey)
    (Grew (C.OnOnePlane deviceId deviceKey (a.record? s.1))) (a.record? s.1) := relates_grew _
  cases a with
  | declare channel recipientSeed => exact .refl _
  | attachOutbound channel senderId senderSeed => exact .refl _
  | importRecords records => exact .refl _
  | openChannel channel => exact SundTransport.relates_open h s.2
  | rotateInbound channel newRecipientSeed => exact SundTransport.relates_rotate h s.2 newRecipientSeed
  | retire channel => exact SundTransport.relates_retire h s.2
  | send channel message => exact SundTransport.relates_send h s.2 message
  | subscribe channel => exact grew_subscribe s.1 s.2 channel
  | acknowledgeAll channel messages => exact grew_acknowledgeAll s.1 s.2 channel messages

/-- Whether a request carries the device's id tells its plane. -/
theorem deviceId_iff {held : Option ChannelRecord} {r : HttpRequest} {s : Stamp}
    (h : C.OnOnePlane deviceId deviceKey held r s) :
    (∃ id : String, (headerDeviceId, id) ∈ r.headers) ↔ r.path = "/v1/queues" := by
  rcases h with ⟨hpath, hheaders⟩ | ⟨record, seed, before, -, hqueue, hheaders, hbefore⟩
  · exact iff_of_true ⟨deviceId, by simp [hheaders]⟩ hpath
  refine iff_of_false ?_ ?_
  · rintro ⟨device, hdevice⟩
    rw [hheaders, List.mem_append] at hdevice
    rcases hdevice with hdevice | hdevice
    · have htype : headerDeviceId ≠ "Content-Type" := by decide
      have hsender : headerDeviceId ≠ headerSenderKey := by decide
      rcases hbefore _ hdevice with heq | heq
      · exact htype (Prod.mk.inj heq).1
      · exact hsender (Prod.mk.inj heq).1
    · simp only [List.mem_cons, Prod.mk.injEq, List.not_mem_nil, or_false] at hdevice
      rcases hdevice with ⟨heq, -⟩ | ⟨heq, -⟩ | ⟨heq, -⟩ <;> exact absurd heq (by decide)
  · -- the paths part at the fifth letter
    have hfifth : ∀ p id : String, (p ++ id).toList[4]? = p.toList[4]? → p.toList[4]? ≠ some 'q' →
        p ++ id ≠ "/v1/queues" := by
      intro p id hget hne heq
      apply hne
      rw [← hget, heq]
      rfl
    generalize r.path = path at hqueue ⊢
    cases hqueue <;> exact hfifth _ _ (by rw [String.toList_append, List.getElem?_append_left (by decide)]) (by decide)

/-- Over every run of the transport of an enrolled device, with any replies: each call's requests on the wire are each
    on one plane, under the record of the channel it is about as it finds it, with the one stamp drawn for it; and one
    carries the device's id exactly if it creates a queue. -/
theorem planes_apart (t : SundTransport) (w : σ) (acts : List SundTransport.Act) :
    Trace.EachStep (SundTransport.act C.taped deviceId deviceKey)
      (fun s a => Grew (fun r stamp => C.OnOnePlane deviceId deviceKey (a.record? s.1) r stamp ∧
        ((∃ id : String, (headerDeviceId, id) ∈ r.headers) ↔ r.path = "/v1/queues")) s.2
        (SundTransport.act C.taped deviceId deviceKey s a).2)
      (t, w, ⟨[], []⟩) acts := by
  have hsteps : Trace.EachStep (SundTransport.act C.taped deviceId deviceKey) (fun _ _ => True) (t, w, ⟨[], []⟩) acts :=
    Trace.eachStep_true _ _
  refine Trace.eachStep_mono (fun s a _ => ?_) hsteps
  have hgrew : Grew (C.OnOnePlane deviceId deviceKey (a.record? s.1)) s.2
    (SundTransport.act C.taped deviceId deviceKey s a).2 := grew_act s a
  obtain ⟨requests, stamps, hrequests, hstamps, hall⟩ := hgrew
  exact ⟨requests, stamps, hrequests, hstamps, hall.imp fun r stamp h => ⟨h, deviceId_iff h⟩⟩

end SundHttp

end Beacon
