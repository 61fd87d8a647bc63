/-
  Beacon.Transport.Requests — the requests a client signs (`sund_client::client`,
  `sund_client::http`) and the text each signature covers (`sund_client::sigauth`).

  The text is five lines: method, path, timestamp, nonce, and the digest of the body. The
  client writes no line break into a path, since an id passes `pathSegment` before it is
  made part of one, so the lines can be told apart again.
  - `oneLine_path`: no request a client builds has a line break in its path.
  - `signedRequest_eq`: what is sent is what was signed, and the stamp it was signed with.
  - `request_signature_means_one_request`: the text gives the request, and is no text that is
    signed for a bundle, a vouch or a removal.

  SHA-256 and base64 are not part of the repository: `sha256` and `base64` stand for them.
-/

import Beacon.Transport.Sund
import Beacon.Canonical.Signing

namespace Beacon

/-! ## HTTP -/

inductive Method where
  | get
  | post
  | put
  deriving DecidableEq, Repr

def Method.asStr : Method → String
  | get => "GET"
  | post => "POST"
  | put => "PUT"

structure HttpRequest where
  method : Method
  /-- Without query string or origin. -/
  path : String
  headers : List (String × String)
  body : Bytes
  deriving DecidableEq, Repr

namespace HttpRequest

def new (method : Method) (path : String) : HttpRequest := ⟨method, path, [], []⟩

def withBody (request : HttpRequest) (body : Bytes) : HttpRequest := { request with body := body }

def withHeader (request : HttpRequest) (name value : String) : HttpRequest :=
  { request with headers := request.headers ++ [(name, value)] }

end HttpRequest

structure Stamp where
  timestamp : String
  nonce : String
  deriving DecidableEq, Repr

/-! ## Signing -/

def headerDeviceId : String := "Sund-Device-Id"
def headerTimestamp : String := "Sund-Timestamp"
def headerNonce : String := "Sund-Nonce"
def headerSignature : String := "Sund-Signature"
def headerSenderKey : String := "Sund-Sender-Key"

structure RequestToSign where
  method : String
  path : String
  timestamp : String
  nonce : String
  body : Bytes
  deriving DecidableEq, Repr

/-- What `perform_signed` signs of a request. -/
def HttpRequest.toSign (request : HttpRequest) (stamp : Stamp) : RequestToSign :=
  ⟨request.method.asStr, request.path, stamp.timestamp, stamp.nonce, request.body⟩

section Signing

variable (E : Ed25519) (sha256 : Bytes → Vector UInt8 32)

def signingString (request : RequestToSign) : Bytes :=
  let hex := String.ofList ((sha256 request.body).toList.flatMap hexByte)
  utf8 ("\n".intercalate [request.method, request.path, request.timestamp, request.nonce, hex]).toList

/-- `DeviceKey::sign`. -/
def signRequest (key : E.SigningKey) (request : RequestToSign) : String :=
  E.encode (E.sign key (signingString sha256 request))

/-- The request `perform_signed` performs. A device id marks the management plane. -/
def signedRequest (request : HttpRequest) (key : E.SigningKey) (deviceId : Option String) (stamp : Stamp) :
    HttpRequest :=
  let signature := signRequest E sha256 key (request.toSign stamp)
  let request := match deviceId with
    | some deviceId => request.withHeader headerDeviceId deviceId
    | none => request
  ((request.withHeader headerTimestamp stamp.timestamp).withHeader headerNonce stamp.nonce).withHeader
    headerSignature signature

end Signing

/-! ## The routes -/

/-- `b.is_ascii_alphanumeric() || matches!(b, b'_' | b'-' | b'.')`. -/
def segmentByte (b : UInt8) : Bool :=
  (0x30 ≤ b && b ≤ 0x39) || (0x41 ≤ b && b ≤ 0x5A) || (0x61 ≤ b && b ≤ 0x7A) || b == 0x5F || b == 0x2D || b == 0x2E

/-- An id is refused rather than escaped. -/
def pathSegment (id : String) : Except SundError String :=
  if !id.isEmpty && (utf8 id.toList).all segmentByte then .ok id
  else .error (.malformed ("`" ++ id ++ "` is not a usable path segment"))

/-- `to_json`; no body holds a double. -/
def toJson (value : Json) : Bytes := utf8 (value.write fun _ => [])

def jsonRequest (method : Method) (path : String) (body : Bytes) : HttpRequest :=
  ((HttpRequest.new method path).withHeader "Content-Type" "application/json").withBody body

section Routes

variable (E : Ed25519) (base64 : Bytes → String)

namespace SundClient

def sendToQueue (senderId : String) (key : E.SigningKey) (message : QueueMessage) : Except SundError HttpRequest := do
  let segment ← pathSegment senderId
  let body := toJson (.object [
    ("payload", .string (base64 message.payload)),
    -- zero takes the server's default
    ("ttl", .number (.posInt (.ofNat ((message.ttl.map Duration.asSecs).getD 0)))),
    ("priority", .bool message.priority)])
  let request := jsonRequest .post ("/v1/send/" ++ segment) body
  return if message.bindSenderKey then request.withHeader headerSenderKey (E.keyToBase64 (E.verifyingKey key))
    else request

def receiveFromQueue (recipientId : String) : Except SundError HttpRequest := do
  let segment ← pathSegment recipientId
  return .new .get ("/v1/recv/" ++ segment)

def acknowledge (recipientId : String) (ids : List String) : Except SundError HttpRequest := do
  let segment ← pathSegment recipientId
  return jsonRequest .post ("/v1/ack/" ++ segment) (toJson (.object [("ids", .array (ids.map .string))]))

def retireQueue (recipientId : String) : Except SundError HttpRequest := do
  let segment ← pathSegment recipientId
  return .new .post ("/v1/retire/" ++ segment)

end SundClient

namespace DeviceClient

def listDevices : HttpRequest := .new .get "/v1/devices"

def revokeDevice (deviceId : String) : Except SundError HttpRequest := do
  let segment ← pathSegment deviceId
  return .new .post ("/v1/devices/" ++ segment ++ "/revoke")

def createInvitation : HttpRequest := .new .post "/v1/invitations"

def listInvitations : HttpRequest := .new .get "/v1/invitations"

def revokeInvitation (invitationId : String) : Except SundError HttpRequest := do
  let segment ← pathSegment invitationId
  return .new .post ("/v1/invitations/" ++ segment ++ "/revoke")

def publishBundle (bundle : Bytes) : HttpRequest :=
  jsonRequest .put "/v1/me/bundle" (toJson (.object [("bundle", .string (base64 bundle))]))

def fetchBundle (deviceId : String) : Except SundError HttpRequest := do
  let segment ← pathSegment deviceId
  return .new .get ("/v1/devices/" ++ segment ++ "/bundle")

def setPushEndpoint (endpoint : String) : HttpRequest :=
  jsonRequest .put "/v1/me/push" (toJson (.object [("push_endpoint", .string endpoint)]))

def createQueue (recipientPublicKey : Vector UInt8 32) : HttpRequest :=
  jsonRequest .post "/v1/queues" (toJson (.object [("recipient_key", .string (base64 recipientPublicKey.toList))]))

end DeviceClient

/-- A call of `SundClient` or `DeviceClient` that signs a request. -/
inductive SignedCall where
  | sendToQueue (senderId : String) (message : QueueMessage)
  | receiveFromQueue (recipientId : String)
  | acknowledge (recipientId : String) (ids : List String)
  | retireQueue (recipientId : String)
  | listDevices
  | revokeDevice (deviceId : String)
  | createInvitation
  | listInvitations
  | revokeInvitation (invitationId : String)
  | publishBundle (bundle : Bytes)
  | fetchBundle (deviceId : String)
  | setPushEndpoint (endpoint : String)
  | createQueue (recipientPublicKey : Vector UInt8 32)

/-- The request the call signs with the key, if it gets that far. -/
def SignedCall.request (key : E.SigningKey) : SignedCall → Except SundError HttpRequest
  | .sendToQueue senderId message => SundClient.sendToQueue E base64 senderId key message
  | .receiveFromQueue recipientId => SundClient.receiveFromQueue recipientId
  | .acknowledge recipientId ids => SundClient.acknowledge recipientId ids
  | .retireQueue recipientId => SundClient.retireQueue recipientId
  | .listDevices => .ok DeviceClient.listDevices
  | .revokeDevice deviceId => DeviceClient.revokeDevice deviceId
  | .createInvitation => .ok DeviceClient.createInvitation
  | .listInvitations => .ok DeviceClient.listInvitations
  | .revokeInvitation invitationId => DeviceClient.revokeInvitation invitationId
  | .publishBundle bundle => .ok (DeviceClient.publishBundle base64 bundle)
  | .fetchBundle deviceId => DeviceClient.fetchBundle deviceId
  | .setPushEndpoint endpoint => .ok (DeviceClient.setPushEndpoint endpoint)
  | .createQueue recipientPublicKey => .ok (DeviceClient.createQueue base64 recipientPublicKey)

end Routes

/-! ## One line each -/

/-- A text without a line break. -/
def OneLine (text : String) : Prop := '\n' ∉ text.toList

instance (text : String) : Decidable (OneLine text) := inferInstanceAs (Decidable (_ ∉ _))

theorem OneLine.append {a b : String} (ha : OneLine a) (hb : OneLine b) : OneLine (a ++ b) := by
  unfold OneLine at *
  rw [String.toList_append, List.mem_append, not_or]
  exact ⟨ha, hb⟩

theorem asStr_inj {a b : Method} (h : a.asStr = b.asStr) : a = b := by
  cases a <;> cases b <;> first | rfl | exact absurd h (by decide)

theorem oneLine_method (method : Method) : OneLine method.asStr := by
  cases method <;> decide +kernel

theorem oneLine_segment {id segment : String} (h : pathSegment id = .ok segment) : OneLine id ∧ segment = id := by
  unfold pathSegment at h
  split at h
  swap
  · cases h
  rename_i hsegment
  cases h
  refine ⟨fun hbreak => ?_, rfl⟩
  rw [Bool.and_eq_true, List.all_eq_true] at hsegment
  have hbyte := hsegment.2 0x0A (List.mem_flatMap.mpr ⟨'\n', hbreak, by decide⟩)
  exact absurd hbyte (by decide)

/-- A route takes an id of one line, as it is. -/
theorem segment_request {id : String} {build : String → HttpRequest} {request : HttpRequest}
    (h : (do let segment ← pathSegment id; return build segment) = .ok request) :
    OneLine id ∧ request = build id := by
  cases hsegment : pathSegment id with
  | error error =>
    rw [hsegment] at h
    cases h
  | ok segment =>
    rw [hsegment] at h
    cases h
    obtain ⟨hline, rfl⟩ := oneLine_segment hsegment
    exact ⟨hline, rfl⟩

theorem oneLine_path {E : Ed25519} {base64 : Bytes → String} {key : E.SigningKey} {call : SignedCall}
    {request : HttpRequest} (h : call.request E base64 key = .ok request) : OneLine request.path := by
  cases call with
  | sendToQueue senderId message =>
    obtain ⟨hline, rfl⟩ := segment_request h
    have hpath : OneLine ("/v1/send/" ++ senderId) := .append (by decide +kernel) hline
    cases message.bindSenderKey <;> exact hpath
  | receiveFromQueue | acknowledge | retireQueue =>
    obtain ⟨hline, rfl⟩ := segment_request h
    exact .append (by decide +kernel) hline
  | revokeDevice | revokeInvitation | fetchBundle =>
    obtain ⟨hline, rfl⟩ := segment_request h
    exact .append (.append (by decide +kernel) hline) (by decide +kernel)
  | listDevices | createInvitation | listInvitations =>
    cases h
    decide +kernel
  | publishBundle =>
    cases h
    exact (by decide +kernel : OneLine "/v1/me/bundle")
  | setPushEndpoint =>
    cases h
    exact (by decide +kernel : OneLine "/v1/me/push")
  | createQueue =>
    cases h
    exact (by decide +kernel : OneLine "/v1/queues")

/-- What is sent is what was signed. -/
theorem signedRequest_eq (E : Ed25519) (sha256 : Bytes → Vector UInt8 32) (request : HttpRequest) (key : E.SigningKey)
    (deviceId : Option String) (stamp : Stamp) :
    let sent := signedRequest E sha256 request key deviceId stamp
    sent.toSign stamp = request.toSign stamp ∧
      sent.headers = request.headers ++ (deviceId.map fun id => (headerDeviceId, id)).toList ++
        [(headerTimestamp, stamp.timestamp), (headerNonce, stamp.nonce),
          (headerSignature, signRequest E sha256 key (sent.toSign stamp))] := by
  cases deviceId with
  | none => exact ⟨rfl, by simp [signedRequest, HttpRequest.withHeader, HttpRequest.toSign]⟩
  | some id => exact ⟨rfl, by simp [signedRequest, HttpRequest.withHeader, HttpRequest.toSign]⟩

/-! ## Digests -/

theorem hexByte_inj {a b : UInt8} (h : hexByte a = hexByte b) : a = b := by
  have ha := a.toNat_lt
  have hb := b.toNat_lt
  simp only [hexByte, List.cons.injEq, and_true] at h
  have hhigh : a.toNat / 16 = b.toNat / 16 := by
    rw [← Json.hexValue_digitChar (a.toNat / 16) (by omega), h.1, Json.hexValue_digitChar _ (by omega)]
  have hlow : a.toNat % 16 = b.toNat % 16 := by
    rw [← Json.hexValue_digitChar (a.toNat % 16) (by omega), h.2, Json.hexValue_digitChar _ (by omega)]
  exact UInt8.toNat.inj (by omega)

theorem hex_inj {a b : Bytes} (h : a.flatMap hexByte = b.flatMap hexByte) : a = b := by
  induction a generalizing b with
  | nil =>
    cases b with
    | nil => rfl
    | cons y b => simp [hexByte] at h
  | cons x a ih =>
    cases b with
    | nil => simp [hexByte] at h
    | cons y b =>
      rw [List.flatMap_cons, List.flatMap_cons] at h
      obtain ⟨hbyte, hrest⟩ := List.append_inj h rfl
      rw [hexByte_inj hbyte, ih hrest]

theorem oneLine_hex (bytes : Bytes) : OneLine (String.ofList (bytes.flatMap hexByte)) := by
  have hdigit : ∀ n < 16, Nat.digitChar n ≠ '\n' := by decide
  unfold OneLine
  rw [String.toList_ofList, List.mem_flatMap]
  rintro ⟨byte, -, hbreak⟩
  have hbyte := byte.toNat_lt
  simp only [hexByte, List.mem_cons, List.not_mem_nil, or_false] at hbreak
  rcases hbreak with h | h
  · exact hdigit _ (by omega) h.symm
  · exact hdigit _ (by omega) h.symm

/-! ## One request -/

/-- Lines joined give the lines. -/
theorem lines_inj {lines lines' : List String} (hne : lines ≠ []) (hne' : lines' ≠ [])
    (hone : ∀ line ∈ lines, OneLine line) (hone' : ∀ line ∈ lines', OneLine line)
    (h : "\n".intercalate lines = "\n".intercalate lines') : lines = lines' := by
  have hbreak : ∀ {ls : List String}, (∀ line ∈ ls, OneLine line) → ∀ text ∈ ls.map String.toList, '\n' ∉ text := by
    intro ls hls text htext
    obtain ⟨line, hline, rfl⟩ := List.mem_map.mp htext
    exact hls line hline
  have hchars : ['\n'].intercalate (lines.map String.toList) = ['\n'].intercalate (lines'.map String.toList) := by
    have htexts := congrArg String.toList h
    rwa [String.toList_intercalate, String.toList_intercalate] at htexts
  have hsplit := congrArg (List.splitOn '\n') hchars
  rw [List.splitOn_intercalate _ (hbreak hone) (by simpa using hne),
    List.splitOn_intercalate _ (hbreak hone') (by simpa using hne')] at hsplit
  exact List.map_injective_iff.mpr (fun _ _ => String.toList_inj.mp) hsplit

def Stamp.OneLine (stamp : Stamp) : Prop := Beacon.OneLine stamp.timestamp ∧ Beacon.OneLine stamp.nonce

theorem signingString_inj {sha256 : Bytes → Vector UInt8 32} {request request' : HttpRequest} {stamp stamp' : Stamp}
    (hpath : OneLine request.path) (hpath' : OneLine request'.path) (hstamp : stamp.OneLine) (hstamp' : stamp'.OneLine)
    (h : signingString sha256 (request.toSign stamp) = signingString sha256 (request'.toSign stamp')) :
    request.method = request'.method ∧ request.path = request'.path ∧ stamp = stamp' ∧
      sha256 request.body = sha256 request'.body := by
  have hone : ∀ {r : HttpRequest} {s : Stamp}, OneLine r.path → s.OneLine →
      ∀ line ∈ [r.method.asStr, r.path, s.timestamp, s.nonce, .ofList ((sha256 r.body).toList.flatMap hexByte)],
        OneLine line := by
    intro r s hr hs line hline
    simp only [List.mem_cons, List.not_mem_nil, or_false] at hline
    rcases hline with rfl | rfl | rfl | rfl | rfl
    · exact oneLine_method _
    · exact hr
    · exact hs.1
    · exact hs.2
    · exact oneLine_hex _
  have hlines := lines_inj (by simp) (by simp) (hone hpath hstamp) (hone hpath' hstamp')
    (String.toList_inj.mp (utf8_inj h))
  simp only [List.cons.injEq, and_true] at hlines
  obtain ⟨hmethod, hsame, htimestamp, hnonce, hhex⟩ := hlines
  have hdigest := Vector.toList_inj.mp (hex_inj (String.ofList_injective hhex))
  refine ⟨asStr_inj hmethod, hsame, ?_, hdigest⟩
  cases stamp
  cases stamp'
  exact congrArg₂ Stamp.mk htimestamp hnonce

/-- The method begins the text. -/
theorem signingString_begins (sha256 : Bytes → Vector UInt8 32) (request : HttpRequest) (stamp : Stamp) :
    ∃ rest, signingString sha256 (request.toSign stamp) = utf8 request.method.asStr.toList ++ rest := by
  unfold signingString HttpRequest.toSign utf8
  simp only [String.toList_intercalate, List.map_cons, List.intercalate_cons_cons, List.append_assoc,
    List.flatMap_append]
  exact ⟨_, rfl⟩

theorem signingString_ne_signingBytes (sha256 : Bytes → Vector UInt8 32) (request : HttpRequest) (stamp : Stamp)
    (purpose : SignaturePurpose) (payload : Bytes) :
    signingString sha256 (request.toSign stamp) ≠ purpose.signingBytes payload := by
  intro h
  obtain ⟨rest, hbegins⟩ := signingString_begins sha256 request stamp
  have hdomain : (purpose.signingBytes payload).head? = some 0x66 := by
    cases purpose <;> rfl
  have hmethod : ∀ m : Method, ∃ b bytes, utf8 m.asStr.toList = b :: bytes ∧ b ≠ 0x66 := by
    intro m
    cases m
    · exact ⟨0x47, _, rfl, by decide⟩
    · exact ⟨0x50, _, rfl, by decide⟩
    · exact ⟨0x50, _, rfl, by decide⟩
  obtain ⟨b, bytes, hbytes, hb⟩ := hmethod request.method
  rw [← h, hbegins, hbytes] at hdomain
  exact hb (Option.some.inj hdomain)

theorem request_signature_means_one_request {E : Ed25519} {base64 : Bytes → String}
    (sha256 : Bytes → Vector UInt8 32) {key key' : E.SigningKey} {call call' : SignedCall}
    {request request' : HttpRequest} (hrequest : call.request E base64 key = .ok request)
    (hrequest' : call'.request E base64 key' = .ok request') (stamp stamp' : Stamp) :
    (stamp.OneLine → stamp'.OneLine → (sha256 request.body = sha256 request'.body → request.body = request'.body) →
      signingString sha256 (request.toSign stamp) = signingString sha256 (request'.toSign stamp') →
      request.method = request'.method ∧ request.path = request'.path ∧ stamp.timestamp = stamp'.timestamp ∧
        stamp.nonce = stamp'.nonce ∧ request.body = request'.body) ∧
    ∀ (purpose : SignaturePurpose) (payload : Bytes),
      signingString sha256 (request.toSign stamp) ≠ purpose.signingBytes payload := by
  refine ⟨?_, signingString_ne_signingBytes sha256 request stamp⟩
  intro hstamp hstamp' hcollision hsame
  obtain ⟨hmethod, hpath, rfl, hdigest⟩ :=
    signingString_inj (oneLine_path hrequest) (oneLine_path hrequest') hstamp hstamp' hsame
  exact ⟨hmethod, hpath, rfl, rfl, hcollision hdigest⟩

/-- The digest of an empty body, the only body here. -/
def sha256OfNothing (_ : Bytes) : Vector UInt8 32 :=
  #v[0xe3, 0xb0, 0xc4, 0x42, 0x98, 0xfc, 0x1c, 0x14, 0x9a, 0xfb, 0xf4, 0xc8, 0x99, 0x6f, 0xb9, 0x24,
    0x27, 0xae, 0x41, 0xe4, 0x64, 0x9b, 0x93, 0x4c, 0xa4, 0x95, 0x99, 0x1b, 0x78, 0x52, 0xb8, 0x55]

theorem lists_are_signed_apart :
    let stamp : Stamp := ⟨"2026-07-26T10:00:00Z", "n-1"⟩
    signingString sha256OfNothing (DeviceClient.listDevices.toSign stamp) ≠
      signingString sha256OfNothing (DeviceClient.listInvitations.toSign stamp) ∧
    ∀ (purpose : SignaturePurpose) (payload : Bytes),
      signingString sha256OfNothing (DeviceClient.listDevices.toSign stamp) ≠ purpose.signingBytes payload :=
  have hone : Stamp.OneLine ⟨"2026-07-26T10:00:00Z", "n-1"⟩ := by
    constructor <;> decide +kernel
  have hdevices : SignedCall.request Ed25519.plain latin1 (7 : UInt8) .listDevices = .ok DeviceClient.listDevices := rfl
  have hinvitations : SignedCall.request Ed25519.plain latin1 (7 : UInt8) .listInvitations =
      .ok DeviceClient.listInvitations := rfl
  have h := request_signature_means_one_request sha256OfNothing hdevices hinvitations
    ⟨"2026-07-26T10:00:00Z", "n-1"⟩ ⟨"2026-07-26T10:00:00Z", "n-1"⟩
  ⟨fun hsame => absurd (h.1 hone hone (fun _ => rfl) hsame).2.1 (by decide), h.2⟩

end Beacon
