/-
  Beacon.Identity — what the roster asks of cryptography.

  `sund_client::identity` signs a payload under a purpose (bundle, vouch or removal)
  with Ed25519, and the roster digests a sync payload with SHA-256. Neither primitive
  is part of the repository, so both are parameters: verification is a predicate of
  the key, the statement and the signature, and the digest a function of the payload.
  The two laws are what the code's own tests pin: a public key reads back from its
  base64 form, and a signature verifies under the key that made it.

  `sign` may fail only where the payload has no canonical encoding. The payloads here
  hold strings and `u64`s and no float, so a signature always exists.
-/

import Beacon.Wire

namespace Beacon

/-- What one signature is a statement about: the purpose, and the payload under it. -/
inductive Statement where
  | vouch (payload : VouchPayload)
  | removal (payload : RemovalPayload)
  deriving DecidableEq, Repr

structure Crypto where
  /-- `IdentityPublicKey`. -/
  PublicKey : Type
  /-- `IdentityKey`, the pair. -/
  IdentityKey : Type
  publicKey : IdentityKey → PublicKey
  /-- `IdentityPublicKey::from_base64(..).ok()`. -/
  fromBase64 : String → Option PublicKey
  toBase64 : PublicKey → String
  /-- `IdentityPublicKey::verify(..).is_ok()`. -/
  verify : PublicKey → Statement → String → Bool
  /-- `IdentityKey::sign(..).ok()`. -/
  sign : IdentityKey → Statement → Option String
  /-- `digest_of`: SHA-256 over the canonical sync payload, in hex. -/
  digestOf : UInt64 → List SyncDevice → String
  fromBase64_toBase64 : ∀ k, fromBase64 (toBase64 k) = some k
  verify_sign : ∀ k s, ∃ sig, sign k s = some sig ∧ verify (publicKey k) s sig = true

namespace Crypto

/-! ## A key that signs by naming itself

An instance to run examples on: a key pair is its own base64 text, every
text is a key, and a signature is the key's text before the statement's. -/

def reasonText : RemovalReason → String
  | .left => "left"
  | .removed => "removed"
  | .lost => "lost"

def statementText : Statement → String
  | .vouch p => "vouch/" ++ p.subject.deviceId ++ "/" ++ p.subject.identityPk ++ "/" ++ p.subject.displayName ++ "/" ++
      p.subject.memberGroup ++ "/" ++ p.subject.role ++ "/" ++ p.subject.joinedAt ++ "/" ++ toString p.epoch
  | .removal p => "removal/" ++ p.subject ++ "/" ++ reasonText p.reason ++ "/" ++ p.removedAt ++ "/" ++ toString p.epoch

def signText (key : String) (s : Statement) : String := key ++ ":" ++ statementText s

def plain : Crypto where
  PublicKey := String
  IdentityKey := String
  publicKey := id
  fromBase64 := some
  toBase64 := id
  verify key s sig := sig == signText key s
  sign key s := some (signText key s)
  digestOf epoch devices := toString epoch ++ "/" ++ String.join (devices.map (·.deviceId))
  fromBase64_toBase64 _ := rfl
  verify_sign k s := ⟨signText k s, rfl, by simp⟩

instance : DecidableEq plain.PublicKey := inferInstanceAs (DecidableEq String)

end Crypto

end Beacon
