/-
  Beacon.Session.Bundles — verifying a peer's published bundle (`sund_client::bundle`), the
  only way to key material a session is opened with.

  The caller says which device and which vouched identity it takes the bundle to be of.
  - `verify_ok`: a bundle that verifies is theirs, signed, and its keys are what it says.
  - `verify_bundleOf`: what a device publishes verifies, and yields the keys of its account.
-/

import Beacon.Canonical.Signing

namespace Beacon

open Lib

/-- The base64 form of a Curve25519 key, read. -/
structure KeyTexts (V : Vodozemac) where
  /-- `Curve25519PublicKey::from_base64`. -/
  fromBase64 : String → Except String V.PublicKey
  fromBase64_toBase64 : ∀ key, fromBase64 (V.toBase64 key) = .ok key
  toBase64_ne_empty : ∀ key, V.toBase64 key ≠ ""

/-- The refusals of `verify`. -/
inductive BundleError where
  | malformed (detail : String)
  | wrongIdentity (expected found : String)
  | badSignature (error : VerifyError)
  | badKeyMaterial (detail : String)
  | canonical (error : CanonicalError)
  deriving DecidableEq, Repr

section verify

variable (E : Ed25519) (ryu : UInt64 → List Char) {V : Vodozemac} (T : KeyTexts V)

def parseCurve25519 (encoded field : String) : Except BundleError V.PublicKey :=
  if encoded.isEmpty then .error (.badKeyMaterial ("`" ++ field ++ "` is empty"))
  else
    match T.fromBase64 encoded with
    | .error error => .error (.badKeyMaterial ("`" ++ field ++ "`: " ++ error))
    | .ok key => .ok key

/-- The keys of a bundle whose signature holds. -/
def SignedBundle.keys (signed : SignedBundle) (expectedB64 : String) : Except BundleError (PeerKeys V.toOlm) := do
  let curve25519 ← parseCurve25519 T signed.bundle.curve25519 "curve25519"
  let fallbackKey ← parseCurve25519 T signed.bundle.fallbackKey "fallback_key"
  return {
    deviceId := signed.bundle.deviceId
    identityPk := expectedB64
    curve25519
    fallbackKey
    fallbackKeyId := signed.bundle.fallbackKeyId }

def SignedBundle.verify (signed : SignedBundle) (expectedDeviceId : String) (expectedIdentity : E.VerifyingKey) :
    Except BundleError (PeerKeys V.toOlm) :=
  let expectedB64 := E.keyToBase64 expectedIdentity
  if signed.bundle.identityPk ≠ expectedB64 then .error (.wrongIdentity expectedB64 signed.bundle.identityPk)
  else if signed.bundle.deviceId ≠ expectedDeviceId then
    .error (.malformed
      ("bundle is for device `" ++ signed.bundle.deviceId ++ "`, expected `" ++ expectedDeviceId ++ "`"))
  else
    match toCanonicalJson ryu signed.bundle.toValue with
    | .error error => .error (.canonical error)
    | .ok canonical =>
      match E.verifyCanonical expectedIdentity .bundle canonical signed.sig with
      | .error error => .error (.badSignature error)
      | .ok () => signed.keys T expectedB64

end verify

section

variable {E : Ed25519} {ryu : UInt64 → List Char} {V : Vodozemac} {T : KeyTexts V}

theorem parseCurve25519_ok {encoded field : String} {key : V.PublicKey} (h : parseCurve25519 T encoded field = .ok key) :
    T.fromBase64 encoded = .ok key := by
  unfold parseCurve25519 at h
  split at h
  · cases h
  · split at h
    · cases h
    · rename_i hkey
      cases h
      exact hkey

theorem parseCurve25519_toBase64 (key : V.PublicKey) (field : String) :
    parseCurve25519 T (V.toBase64 key) field = .ok key := by
  unfold parseCurve25519
  rw [if_neg (by simpa using T.toBase64_ne_empty key), T.fromBase64_toBase64]

/-- What a verified bundle says. -/
structure Verified (E : Ed25519) (ryu : UInt64 → List Char) (T : KeyTexts V) (signed : SignedBundle)
    (expectedDeviceId : String) (expectedIdentity : E.VerifyingKey) (keys : PeerKeys V.toOlm) : Prop where
  deviceId : keys.deviceId = expectedDeviceId
  sameDevice : signed.bundle.deviceId = expectedDeviceId
  identityPk : keys.identityPk = E.keyToBase64 expectedIdentity
  sameIdentity : signed.bundle.identityPk = E.keyToBase64 expectedIdentity
  signature : E.verifyValue ryu expectedIdentity .bundle signed.bundle.toValue signed.sig = .ok ()
  curve25519 : T.fromBase64 signed.bundle.curve25519 = .ok keys.curve25519
  fallbackKey : T.fromBase64 signed.bundle.fallbackKey = .ok keys.fallbackKey

theorem SignedBundle.verify_ok {signed : SignedBundle} {expectedDeviceId : String} {expectedIdentity : E.VerifyingKey}
    {keys : PeerKeys V.toOlm} (h : signed.verify E ryu T expectedDeviceId expectedIdentity = .ok keys) :
    Verified E ryu T signed expectedDeviceId expectedIdentity keys := by
  unfold SignedBundle.verify at h
  by_cases hidentity : signed.bundle.identityPk = E.keyToBase64 expectedIdentity
  swap
  · rw [if_pos hidentity] at h
    cases h
  rw [if_neg (not_not_intro hidentity)] at h
  by_cases hdevice : signed.bundle.deviceId = expectedDeviceId
  swap
  · rw [if_pos hdevice] at h
    cases h
  rw [if_neg (not_not_intro hdevice)] at h
  cases hcanonical : toCanonicalJson ryu signed.bundle.toValue with
  | error error => simp [hcanonical] at h
  | ok canonical =>
    simp only [hcanonical] at h
    cases hverify : E.verifyCanonical expectedIdentity .bundle canonical signed.sig with
    | error error => simp [hverify] at h
    | ok _ =>
      simp only [hverify, SignedBundle.keys] at h
      cases hcurve : parseCurve25519 T signed.bundle.curve25519 "curve25519" with
      | error error => simp [hcurve, bind, Except.bind] at h
      | ok curve25519 =>
        cases hfallback : parseCurve25519 T signed.bundle.fallbackKey "fallback_key" with
        | error error => simp [hcurve, hfallback, bind, Except.bind] at h
        | ok fallbackKey =>
          simp only [hcurve, hfallback, bind, Except.bind, pure, Except.pure, Except.ok.injEq] at h
          subst h
          refine ⟨hdevice, hdevice, rfl, hidentity, ?_, parseCurve25519_ok hcurve, parseCurve25519_ok hfallback⟩
          rw [Ed25519.verifyValue, hcanonical]
          exact hverify

theorem SignedBundle.verify_eq {signed : SignedBundle} {expectedDeviceId : String} {expectedIdentity : E.VerifyingKey}
    (hidentity : signed.bundle.identityPk = E.keyToBase64 expectedIdentity)
    (hdevice : signed.bundle.deviceId = expectedDeviceId)
    (hsig : E.verifyValue ryu expectedIdentity .bundle signed.bundle.toValue signed.sig = .ok ()) :
    signed.verify E ryu T expectedDeviceId expectedIdentity = signed.keys T (E.keyToBase64 expectedIdentity) := by
  have hcanonical : toCanonicalJson ryu signed.bundle.toValue = .ok (utf8 (signed.bundle.toValue.json.write ryu)) :=
    toCanonicalJson_eq _ (Signed.bundle signed.bundle).toValue_noFloat
  rw [Ed25519.verifyValue, hcanonical] at hsig
  unfold SignedBundle.verify
  simp only [hidentity, hdevice, hcanonical, ne_eq, not_true_eq_false, if_false]
  simp only [] at hsig
  rw [hsig]

/-- A device's own bundle verifies under its identity key and yields the keys it published. -/
theorem verify_bundleOf (m : SessionManager V.toOlm) (deviceId : String) (key : E.SigningKey)
    (shown : String × V.PublicKey) (publishedAt : String) :
    ∃ sig, (publisher E ryu deviceId key).sign (m.bundleOf (publisher E ryu deviceId key) shown publishedAt) = .ok sig ∧
      SignedBundle.verify E ryu T ⟨m.bundleOf (publisher E ryu deviceId key) shown publishedAt, sig⟩ deviceId
          (E.verifyingKey key) =
        .ok ⟨deviceId, E.keyToBase64 (E.verifyingKey key), V.curve25519Key m.account, shown.2, shown.1⟩ := by
  let bundle := m.bundleOf (publisher E ryu deviceId key) shown publishedAt
  obtain ⟨sig, hsign, hverify⟩ := Ed25519.verifyValue_signValue ryu key .bundle
    (Signed.bundle bundle).toValue_noFloat
  rw [Signed.toValue] at hsign hverify
  refine ⟨sig, ?_, ?_⟩
  · have hsigned : (publisher E ryu deviceId key).sign bundle = .ok sig := by
      simp only [publisher, hsign]
      rfl
    exact hsigned
  · have hkeys : SignedBundle.verify E ryu T ⟨bundle, sig⟩ deviceId (E.verifyingKey key) =
        SignedBundle.keys T ⟨bundle, sig⟩ (E.keyToBase64 (E.verifyingKey key)) :=
      SignedBundle.verify_eq rfl rfl hverify
    refine hkeys.trans ?_
    have hcurve := parseCurve25519_toBase64 (T := T) (V.curve25519Key m.account) "curve25519"
    have hfallback := parseCurve25519_toBase64 (T := T) shown.2 "fallback_key"
    simp only [SignedBundle.keys, bundle, SessionManager.bundleOf, hcurve, hfallback]
    rfl

end

end Beacon
