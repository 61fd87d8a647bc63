/-
  Beacon.Session — the session layer (`sund_client::session`) as a sender uses it: the
  peers whose keys are known, the session with each, and `encrypt`.

  vodozemac is not part of the repository. `Olm` holds the calls made of it; an account
  and a session are values that a call takes and returns, so what it draws at random is
  part of them. `Olm.SealsByKeys` is what is relied on: a session is refused for key
  material no secret can be agreed with, and a session that seals keeps sealing.

  `SessionManager.sealable` is decided by the peer alone, and sealing a message for one
  peer changes it for nobody.
-/

import Mathlib.Order.Basic
import Beacon.Lib.Table

namespace Beacon

open Lib

abbrev Bytes := List UInt8

/-- Refusals of the session layer; what vodozemac and the bundle say arrives as text. -/
inductive SessionError where
  | unknownPeer (peer : String)
  | frame (detail : String)
  | unsupportedFrameVersion (found : UInt8)
  | sessionLost (peer detail : String)
  | noSession (peer : String)
  | olm (detail : String)
  | bundle (detail : String)
  | canonical (detail : String)
  deriving DecidableEq, Repr

def SessionError.toText : SessionError → String
  | unknownPeer peer => "no verified key material for `" ++ peer ++ "`"
  | frame detail => "malformed session frame: " ++ detail
  | unsupportedFrameVersion found => "unsupported session frame version " ++ toString found
  | sessionLost peer detail => "session with `" ++ peer ++ "` must be re-established: " ++ detail
  | noSession peer => "no session with `" ++ peer ++ "` to decrypt with"
  | olm detail => "olm: " ++ detail
  | bundle detail => detail
  | canonical detail => detail

/-! ## vodozemac -/

structure Olm where
  /-- `Curve25519PublicKey`. -/
  PublicKey : Type
  Account : Type
  Session : Type
  /-- `OlmMessage`. -/
  Message : Type
  createOutboundSession : Account → PublicKey → PublicKey → Except String Session × Account
  encrypt : Session → Bytes → Except String Message × Session
  /-- `OlmMessage::to_parts`: the message type and the bytes. -/
  toParts : Message → Nat × Bytes

structure Olm.SealsByKeys (O : Olm) (agrees : O.PublicKey → O.PublicKey → Bool) (usable : O.Session → Bool) :
    Prop where
  created : ∀ account identity fallback,
    (O.createOutboundSession account identity fallback).1.isOk = agrees identity fallback
  fresh : ∀ account identity fallback session,
    (O.createOutboundSession account identity fallback).1 = .ok session → usable session = true
  encrypt : ∀ session plaintext, (O.encrypt session plaintext).1.isOk = usable session
  kept : ∀ session plaintext, usable (O.encrypt session plaintext).2 = usable session

/-- A stand-in to run examples on: every key is good and a message is its own plaintext. -/
def Olm.plain : Olm where
  PublicKey := Unit
  Account := Unit
  Session := Unit
  Message := Bytes
  createOutboundSession account _ _ := (.ok (), account)
  encrypt session plaintext := (.ok plaintext, session)
  toParts message := (0, message)

theorem Olm.plain_sealsByKeys : Olm.plain.SealsByKeys (fun _ _ => true) (fun _ => true) :=
  ⟨fun _ _ _ => rfl, fun _ _ _ _ _ => rfl, fun _ _ => rfl, fun _ _ => rfl⟩

/-! ## The session manager -/

def frameVersion : UInt8 := 1

/-- `encode_frame`, of the message's parts. -/
def encodeFrame (parts : Nat × Bytes) : Bytes :=
  frameVersion :: (if parts.1 < 256 then UInt8.ofNat parts.1 else 255) :: parts.2

variable (O : Olm)

structure PeerKeys where
  deviceId : String
  /-- The vouched identity key, in base64. -/
  identityPk : String
  curve25519 : O.PublicKey
  /-- The one-time key of an outbound session. -/
  fallbackKey : O.PublicKey
  fallbackKeyId : String

structure PeerState where
  keys : PeerKeys O
  session : Option O.Session

def PeerState.deviceId {O : Olm} (state : PeerState O) : String := state.keys.deviceId

structure SessionManager where
  account : O.Account
  peers : Table (PeerState.deviceId (O := O))

namespace SessionManager

variable {O}

def hasSession (m : SessionManager O) (peer : String) : Bool :=
  (m.peers.get? peer).any fun state => state.session.isSome

def establishOutbound (m : SessionManager O) (peer : String) : Except SessionError Unit × SessionManager O :=
  match m.peers.get? peer with
  | none => (.error (.unknownPeer peer), m)
  | some state =>
    match O.createOutboundSession m.account state.keys.curve25519 state.keys.fallbackKey with
    | (.error detail, account) => (.error (.olm detail), { m with account })
    | (.ok session, account) =>
      (.ok (), { account, peers := m.peers.insert { state with session := some session } })

/-- `encrypt`, once there is a session. -/
def encryptInSession (m : SessionManager O) (peer : String) (plaintext : Bytes) :
    Except SessionError Bytes × SessionManager O :=
  match m.peers.get? peer with
  | none => (.error (.unknownPeer peer), m)
  | some state =>
    match state.session with
    | none => (.error (.noSession peer), m)
    | some session =>
      match O.encrypt session plaintext with
      | (.error detail, session) =>
        (.error (.olm detail), { m with peers := m.peers.insert { state with session := some session } })
      | (.ok message, session) =>
        (.ok (encodeFrame (O.toParts message)),
         { m with peers := m.peers.insert { state with session := some session } })

def encrypt (m : SessionManager O) (peer : String) (plaintext : Bytes) :
    Except SessionError Bytes × SessionManager O :=
  if m.hasSession peer then m.encryptInSession peer plaintext
  else
    match m.establishOutbound peer with
    | (.error error, m) => (.error error, m)
    | (.ok (), m) => m.encryptInSession peer plaintext

/-- A manager with good keys for these peers, to run examples on. -/
def knowing (peers : List String) : SessionManager Olm.plain :=
  ⟨(), .ofList (peers.map fun peer => ⟨⟨peer, "", (), (), ""⟩, none⟩)⟩

/-! ## Who can be sealed for -/

section Sealable

variable (agrees : O.PublicKey → O.PublicKey → Bool) (usable : O.Session → Bool)

def PeerState.sealable (state : PeerState O) : Bool :=
  match state.session with
  | some session => usable session
  | none => agrees state.keys.curve25519 state.keys.fallbackKey

/-- The peer's keys are known, and its session, or else one with those keys, seals. -/
def sealable (m : SessionManager O) (peer : String) : Bool :=
  (m.peers.get? peer).any (PeerState.sealable agrees usable)

variable {agrees usable}

theorem sealable_insert {m : SessionManager O} {account : O.Account} {state state' : PeerState O} {peer : String}
    (hget : m.peers.get? peer = some state) (hkeys : state'.keys = state.keys)
    (h : PeerState.sealable agrees usable state' = PeerState.sealable agrees usable state) :
    sealable agrees usable ⟨account, m.peers.insert state'⟩ = sealable agrees usable m := by
  have hold : state.deviceId = peer := Table.get?_key hget
  have hkey : state'.deviceId = peer := (congrArg PeerKeys.deviceId hkeys).trans hold
  funext p
  unfold sealable
  show ((m.peers.insert state').get? p).any _ = _
  rw [Table.get?_insert]
  by_cases hp : state'.deviceId = p
  · obtain rfl : peer = p := hkey.symm.trans hp
    rw [if_pos hp, hget, Option.any_some, Option.any_some, h]
  · rw [if_neg hp]

variable (hO : O.SealsByKeys agrees usable)

include hO

theorem establishOutbound_sealable {m : SessionManager O} {peer : String} (hnone : m.hasSession peer = false) :
    sealable agrees usable (m.establishOutbound peer).2 = sealable agrees usable m ∧
    (m.establishOutbound peer).1.isOk = sealable agrees usable m peer := by
  unfold establishOutbound
  cases hget : m.peers.get? peer with
  | none => exact ⟨rfl, by simp [sealable, hget, Except.isOk, Except.toBool]⟩
  | some state =>
    have hsession : state.session = none := by simpa [hasSession, hget] using hnone
    have hstate : PeerState.sealable agrees usable state = agrees state.keys.curve25519 state.keys.fallbackKey := by
      unfold PeerState.sealable
      rw [hsession]
    have hpeer : sealable agrees usable m peer = agrees state.keys.curve25519 state.keys.fallbackKey := by
      unfold sealable
      rw [hget, Option.any_some, hstate]
    have hcreated := hO.created m.account state.keys.curve25519 state.keys.fallbackKey
    have hfresh := hO.fresh m.account state.keys.curve25519 state.keys.fallbackKey
    rw [hpeer]
    simp only []
    rcases hc : O.createOutboundSession m.account state.keys.curve25519 state.keys.fallbackKey with
      ⟨_ | session, account⟩
    · rw [hc] at hcreated
      exact ⟨rfl, hcreated⟩
    · rw [hc] at hcreated hfresh
      refine ⟨sealable_insert hget rfl ?_, hcreated⟩
      rw [hstate, ← hcreated]
      exact hfresh session rfl

omit hO in
theorem hasSession_establishOutbound {m m' : SessionManager O} {peer : String}
    (h : m.establishOutbound peer = (.ok (), m')) : m'.hasSession peer = true := by
  unfold establishOutbound at h
  cases hget : m.peers.get? peer with
  | none => simp [hget] at h
  | some state =>
    simp only [hget] at h
    split at h
    · cases h
    · cases h
      have hkey : state.deviceId = peer := Table.get?_key hget
      simp [hasSession, Table.get?_insert, PeerState.deviceId, ← hkey]

theorem encryptInSession_sealable {m : SessionManager O} {peer : String} (hsome : m.hasSession peer = true)
    (plaintext : Bytes) :
    sealable agrees usable (m.encryptInSession peer plaintext).2 = sealable agrees usable m ∧
    (m.encryptInSession peer plaintext).1.isOk = sealable agrees usable m peer := by
  obtain ⟨state, hget, session, hsession⟩ :
      ∃ state, m.peers.get? peer = some state ∧ ∃ session, state.session = some session := by
    simpa [hasSession, Option.any_eq_true, Option.isSome_iff_exists] using hsome
  have hpeer : sealable agrees usable m peer = usable session := by
    unfold sealable PeerState.sealable
    rw [hget, Option.any_some, hsession]
  have hencrypt := hO.encrypt session plaintext
  have hkept := hO.kept session plaintext
  unfold encryptInSession
  rw [hpeer, hget]
  simp only [hsession]
  rcases he : O.encrypt session plaintext with ⟨_ | message, session'⟩
  all_goals
    rw [he] at hencrypt hkept
    refine ⟨sealable_insert hget rfl ?_, hencrypt⟩
    simpa only [PeerState.sealable, hsession] using hkept

/-- Sealing succeeds exactly for the peers that can be sealed for, and they stay the same. -/
theorem encrypt_sealable (m : SessionManager O) (peer : String) (plaintext : Bytes) :
    sealable agrees usable (m.encrypt peer plaintext).2 = sealable agrees usable m ∧
    (m.encrypt peer plaintext).1.isOk = sealable agrees usable m peer := by
  unfold encrypt
  by_cases hsession : m.hasSession peer = true
  · rw [if_pos hsession]
    exact encryptInSession_sealable hO hsession plaintext
  · rw [if_neg hsession]
    have hopen := establishOutbound_sealable hO (by simpa using hsession)
    rcases he : m.establishOutbound peer with ⟨error | _, m'⟩
    · rw [he] at hopen
      exact hopen
    · rw [he] at hopen
      have hin := encryptInSession_sealable hO (hasSession_establishOutbound he) plaintext
      exact ⟨hin.1.trans hopen.1, hin.2.trans (congrFun hopen.1 peer)⟩

end Sealable

end SessionManager

end Beacon
