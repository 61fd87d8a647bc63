/-
  Beacon.Session.Receive — the rest of the session manager (`sund_client::session`): the
  receive path, the peers it knows, and the fallback keys it publishes.

  `Vodozemac` adds to `Olm` the calls these make. A pre-key message names its session, and
  which one it names decides whether `decrypt` reads it in the current session or opens a
  new one over it; there is one session with each peer.
-/

import Beacon.Session

namespace Beacon

open Lib

/-! ## vodozemac, received and published with -/

/-- `DecryptionError`, with its text. -/
inductive DecryptionError where
  | missingMessageKey (detail : String)
  | tooBigMessageGap (detail : String)
  | other (detail : String)
  deriving DecidableEq, Repr

structure Vodozemac extends Olm where
  SessionId : Type
  [publicKeyEq : DecidableEq PublicKey]
  [sessionIdEq : DecidableEq SessionId]
  toBase64 : PublicKey → String
  curve25519Key : Account → PublicKey
  /-- `Account::fallback_key`: the unpublished one, with its key id. -/
  fallbackKey : Account → Option (String × PublicKey)
  generateFallbackKey : Account → Account
  markKeysAsPublished : Account → Account
  forgetFallbackKey : Account → Bool × Account
  sessionId : Session → SessionId
  /-- The session a pre-key message names; a normal message names none. -/
  preKeySession : Message → Option SessionId
  /-- `OlmMessage::from_parts`. -/
  fromParts : Nat → Bytes → Except String Message
  decrypt : Session → Message → Except DecryptionError Bytes × Session
  createInboundSession : Account → PublicKey → Message → Except String (Session × Bytes) × Account

attribute [instance] Vodozemac.publicKeyEq Vodozemac.sessionIdEq

/-! ## Bundles -/

/-- `BUNDLE_VERSION`. -/
def bundleVersion : UInt8 := 1

structure Bundle where
  v : UInt8
  deviceId : String
  identityPk : String
  curve25519 : String
  fallbackKey : String
  fallbackKeyId : String
  publishedAt : String
  deriving DecidableEq, Repr

structure SignedBundle where
  bundle : Bundle
  sig : String
  deriving DecidableEq, Repr

/-- The manager's device id and identity key, which it publishes under and never changes. -/
structure Publisher where
  deviceId : String
  identityPk : String
  sign : Bundle → Except String String

/-! ## The session manager -/

structure Decrypted where
  authenticatedSender : String
  plaintext : Bytes
  newSession : Bool
  deriving DecidableEq, Repr

/-- A failure that ends the session is told apart from a frame that is corrupt or forged. -/
def lost (peer : String) : DecryptionError → SessionError
  | .missingMessageKey detail => .sessionLost peer detail
  | .tooBigMessageGap detail => .sessionLost peer detail
  | .other detail => .olm detail

variable (V : Vodozemac)

def decodeFrame (frame : Bytes) : Except SessionError V.Message :=
  match frame with
  | [] => .error (.frame "empty frame")
  | version :: rest =>
    if version ≠ frameVersion then .error (.unsupportedFrameVersion version)
    else
      match rest with
      | [] => .error (.frame "frame has no message type")
      | messageType :: ciphertext =>
        match V.fromParts messageType.toNat ciphertext with
        | .ok message => .ok message
        | .error detail => .error (.frame detail)

namespace SessionManager

def create (account : V.Account) : SessionManager V.toOlm := ⟨account, .empty⟩

variable {V}

def sessionWith (m : SessionManager V.toOlm) (peer : String) : Option V.Session :=
  (m.peers.get? peer).bind (·.session)

/-! ### Keys of this device -/

def publishBundle (m : SessionManager V.toOlm) (me : Publisher) (publishedAt : String) :
    Except SessionError SignedBundle × SessionManager V.toOlm :=
  let account := if (V.fallbackKey m.account).isNone then V.generateFallbackKey m.account else m.account
  match V.fallbackKey account with
  | none => (.error (.olm "no fallback key available"), { m with account })
  | some (keyId, fallback) =>
    let bundle : Bundle :=
      { v := bundleVersion
        deviceId := me.deviceId
        identityPk := me.identityPk
        curve25519 := V.toBase64 (V.curve25519Key account)
        fallbackKey := V.toBase64 fallback
        fallbackKeyId := keyId
        publishedAt }
    match me.sign bundle with
    | .error detail => (.error (.canonical detail), { m with account })
    | .ok sig => (.ok ⟨bundle, sig⟩, { m with account := V.markKeysAsPublished account })

/-- What `publish_bundle` signs when this key is the one to publish. -/
def bundleOf (m : SessionManager V.toOlm) (me : Publisher) (shown : String × V.PublicKey) (publishedAt : String) :
    Bundle where
  v := bundleVersion
  deviceId := me.deviceId
  identityPk := me.identityPk
  curve25519 := V.toBase64 (V.curve25519Key m.account)
  fallbackKey := V.toBase64 shown.2
  fallbackKeyId := shown.1
  publishedAt := publishedAt

theorem publishBundle_shown {m : SessionManager V.toOlm} {me : Publisher} {shown : String × V.PublicKey}
    {publishedAt sig : String} (hshown : V.fallbackKey m.account = some shown)
    (hsign : me.sign (m.bundleOf me shown publishedAt) = .ok sig) :
    m.publishBundle me publishedAt =
      (.ok ⟨m.bundleOf me shown publishedAt, sig⟩, { m with account := V.markKeysAsPublished m.account }) := by
  rw [bundleOf] at hsign
  unfold publishBundle
  simp only [hshown, Option.isNone_some, Bool.false_eq_true, if_false, hsign, bundleOf]

def rotateFallbackKey (m : SessionManager V.toOlm) (me : Publisher) (publishedAt : String) :
    Except SessionError SignedBundle × SessionManager V.toOlm :=
  { m with account := V.generateFallbackKey m.account }.publishBundle me publishedAt

def forgetPreviousFallbackKey (m : SessionManager V.toOlm) : Bool × SessionManager V.toOlm :=
  let (forgotten, account) := V.forgetFallbackKey m.account
  (forgotten, { m with account })

/-! ### Keys of peers -/

/-- A changed Curve25519 identity drops the session; a rotated fallback key keeps it. -/
def learnPeer (m : SessionManager V.toOlm) (keys : PeerKeys V.toOlm) : SessionManager V.toOlm :=
  match m.peers.get? keys.deviceId with
  | some state =>
    if state.keys.curve25519 = keys.curve25519 then { m with peers := m.peers.insert { state with keys } }
    else { m with peers := m.peers.insert ⟨keys, none⟩ }
  | none => { m with peers := m.peers.insert ⟨keys, none⟩ }

def forgetPeer (m : SessionManager V.toOlm) (peer : String) : Bool × SessionManager V.toOlm :=
  (m.peers.contains peer, { m with peers := m.peers.erase peer })

/-! ### Receiving -/

/-- Reading a message in the current session. -/
def decryptInSession (m : SessionManager V.toOlm) (peer : String) (state : PeerState V.toOlm) (message : V.Message) :
    Except SessionError Decrypted × SessionManager V.toOlm :=
  match state.session with
  | none => (.error (.noSession peer), m)
  | some session =>
    match V.decrypt session message with
    | (.ok plaintext, session) =>
      (.ok ⟨peer, plaintext, false⟩, { m with peers := m.peers.insert { state with session := some session } })
    | (.error error, session) =>
      (.error (lost peer error), { m with peers := m.peers.insert { state with session := some session } })

/-- Opening the session a pre-key message names, over the current one. -/
def openInbound (m : SessionManager V.toOlm) (peer : String) (state : PeerState V.toOlm) (message : V.Message) :
    Except SessionError Decrypted × SessionManager V.toOlm :=
  match V.createInboundSession m.account state.keys.curve25519 message with
  | (.error detail, account) => (.error (.olm detail), { m with account })
  | (.ok (session, plaintext), account) =>
    (.ok ⟨peer, plaintext, true⟩, { account, peers := m.peers.insert { state with session := some session } })

def decrypt (m : SessionManager V.toOlm) (peer : String) (frame : Bytes) :
    Except SessionError Decrypted × SessionManager V.toOlm :=
  match m.peers.get? peer with
  | none => (.error (.unknownPeer peer), m)
  | some state =>
    match decodeFrame V frame with
    | .error error => (.error error, m)
    | .ok message =>
      match V.preKeySession message with
      | some id =>
        if state.session.any fun session => V.sessionId session = id then m.decryptInSession peer state message
        else m.openInbound peer state message
      | none => m.decryptInSession peer state message

/-- The ends of a decryption. -/
inductive Received (m : SessionManager V.toOlm) (peer : String) (frame : Bytes) :
    Except SessionError Decrypted × SessionManager V.toOlm → Prop
  | unread (error : SessionError) :
      (∀ state message, m.peers.get? peer = some state → decodeFrame V frame ≠ .ok message) →
      Received m peer frame (.error error, m)
  | noSession (state : PeerState V.toOlm) (message : V.Message) : m.peers.get? peer = some state →
      decodeFrame V frame = .ok message → V.preKeySession message = none → state.session = none →
      Received m peer frame (.error (.noSession peer), m)
  | read (state : PeerState V.toOlm) (message : V.Message) (session session' : V.Session) (plaintext : Bytes) :
      m.peers.get? peer = some state → decodeFrame V frame = .ok message → state.session = some session →
      (∀ id, V.preKeySession message = some id → V.sessionId session = id) →
      V.decrypt session message = (.ok plaintext, session') →
      Received m peer frame (.ok ⟨peer, plaintext, false⟩,
        { m with peers := m.peers.insert { state with session := some session' } })
  | lost (state : PeerState V.toOlm) (message : V.Message) (session session' : V.Session) (error : DecryptionError) :
      m.peers.get? peer = some state → decodeFrame V frame = .ok message → state.session = some session →
      (∀ id, V.preKeySession message = some id → V.sessionId session = id) →
      V.decrypt session message = (.error error, session') →
      Received m peer frame (.error (lost peer error),
        { m with peers := m.peers.insert { state with session := some session' } })
  | opened (state : PeerState V.toOlm) (message : V.Message) (id : V.SessionId) (session : V.Session)
      (plaintext : Bytes) (account : V.Account) : m.peers.get? peer = some state →
      decodeFrame V frame = .ok message → V.preKeySession message = some id →
      (∀ current, state.session = some current → V.sessionId current ≠ id) →
      V.createInboundSession m.account state.keys.curve25519 message = (.ok (session, plaintext), account) →
      Received m peer frame (.ok ⟨peer, plaintext, true⟩,
        { account, peers := m.peers.insert { state with session := some session } })
  | refused (state : PeerState V.toOlm) (message : V.Message) (id : V.SessionId) (detail : String)
      (account : V.Account) : m.peers.get? peer = some state → decodeFrame V frame = .ok message →
      V.preKeySession message = some id → (∀ current, state.session = some current → V.sessionId current ≠ id) →
      V.createInboundSession m.account state.keys.curve25519 message = (.error detail, account) →
      Received m peer frame (.error (.olm detail), { m with account })

theorem decryptInSession_cases {m : SessionManager V.toOlm} {peer : String} {frame : Bytes}
    {state : PeerState V.toOlm} {message : V.Message} (hget : m.peers.get? peer = some state)
    (hdecode : decodeFrame V frame = .ok message)
    (hcurrent : ∀ id, V.preKeySession message = some id →
      ∃ session, state.session = some session ∧ V.sessionId session = id) :
    Received m peer frame (m.decryptInSession peer state message) := by
  unfold decryptInSession
  cases hsession : state.session with
  | none =>
    refine .noSession state message hget hdecode ?_ hsession
    cases hid : V.preKeySession message with
    | none => rfl
    | some id =>
      obtain ⟨session, hs, -⟩ := hcurrent id hid
      rw [hsession] at hs
      cases hs
  | some session =>
    have hmatches : ∀ id, V.preKeySession message = some id → V.sessionId session = id := by
      intro id hid
      obtain ⟨session', hs, heq⟩ := hcurrent id hid
      rw [hsession] at hs
      cases hs
      exact heq
    simp only []
    rcases hresult : V.decrypt session message with ⟨error | plaintext, session'⟩
    · exact .lost state message session session' error hget hdecode hsession hmatches hresult
    · exact .read state message session session' plaintext hget hdecode hsession hmatches hresult

theorem decrypt_cases (m : SessionManager V.toOlm) (peer : String) (frame : Bytes) :
    Received m peer frame (m.decrypt peer frame) := by
  unfold decrypt
  cases hget : m.peers.get? peer with
  | none => exact .unread _ fun state message h => by rw [hget] at h; cases h
  | some state =>
    simp only []
    cases hdecode : decodeFrame V frame with
    | error error => exact .unread _ fun state message _ h => by rw [hdecode] at h; cases h
    | ok message =>
      simp only []
      cases hid : V.preKeySession message with
      | none => exact decryptInSession_cases hget hdecode fun id h => by rw [hid] at h; cases h
      | some id =>
        simp only []
        by_cases hany : (state.session.any fun session => V.sessionId session = id) = true
        · rw [if_pos hany]
          obtain ⟨session, hsession, heq⟩ := (Option.any_eq_true _ _).mp hany
          refine decryptInSession_cases hget hdecode fun id' h => ⟨session, hsession, ?_⟩
          rw [hid] at h
          cases h
          simpa using heq
        · rw [if_neg hany]
          have hother : ∀ current, state.session = some current → V.sessionId current ≠ id := by
            intro current hcurrent heq
            exact hany ((Option.any_eq_true _ _).mpr ⟨current, hcurrent, by simpa using heq⟩)
          unfold openInbound
          rcases hresult : V.createInboundSession m.account state.keys.curve25519 message with
            ⟨detail | ⟨session, plaintext⟩, account⟩
          · exact .refused state message id detail account hget hdecode hid hother hresult
          · exact .opened state message id session plaintext account hget hdecode hid hother hresult

end SessionManager

end Beacon
