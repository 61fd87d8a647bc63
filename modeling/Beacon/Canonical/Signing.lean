/-
  Beacon.Canonical.Signing — what an identity key signs (`sund_client::identity`), and the
  payloads it signs over.

  Ed25519 and base64 are not part of the repository: `Ed25519` holds the calls made of
  them, and `Ed25519.Binding` is what is taken of a signature, that it verifies over one
  text. A purpose's domain ends in the only NUL in it, so a text says which purpose it was
  signed for and what was signed.
  - `signingBytes_inj`: the signed text gives the purpose and the canonical payload.
  - `signature_has_one_meaning`: it gives the value, and so a signature makes one statement.
  - `Crypto.ofEd25519`, `publisher`: the signatures the roster and the session manager work
    with are these, and over their payloads there always is one.
-/

import Beacon.Identity
import Beacon.Session.Receive
import Beacon.Canonical.Encoding

namespace Beacon

open Json Lib.Code

/-! ## Purposes -/

inductive SignaturePurpose where
  | bundle
  | vouch
  | removal
  deriving DecidableEq, Repr

/-- `DOMAIN_VERSION`. -/
def domainVersion : String := "v1"

namespace SignaturePurpose

def asStr : SignaturePurpose → String
  | bundle => "bundle"
  | vouch => "vouch"
  | removal => "removal"

def domainText (purpose : SignaturePurpose) : Bytes :=
  utf8 ("family-beacon/" ++ purpose.asStr ++ "/" ++ domainVersion).toList

def domain (purpose : SignaturePurpose) : Bytes := purpose.domainText ++ [0]

def signingBytes (purpose : SignaturePurpose) (canonicalPayload : Bytes) : Bytes := purpose.domain ++ canonicalPayload

theorem domainText_inj {p q : SignaturePurpose} (h : p.domainText = q.domainText) : p = q := by
  have htext := utf8_inj h
  cases p <;> cases q <;> first | rfl | exact absurd htext (by decide)

theorem domainText_noNul (p : SignaturePurpose) : ∀ b ∈ p.domainText, (b != 0) = true := by
  cases p <;> decide +kernel

theorem signingBytes_inj {p q : SignaturePurpose} {a b : Bytes} (h : p.signingBytes a = q.signingBytes b) :
    p = q ∧ a = b := by
  have hnul : ∀ rest : Bytes, BeginsOutside (· != 0) (0 :: rest) := fun rest c hc => by cases hc; rfl
  simp only [signingBytes, domain, List.append_assoc, List.cons_append, List.nil_append] at h
  obtain ⟨htext, hrest⟩ := run_ends p.domainText_noNul q.domainText_noNul (hnul a) (hnul b) h
  exact ⟨domainText_inj htext, (List.cons.inj hrest).2⟩

end SignaturePurpose

/-! ## Signatures -/

/-- `ed25519_dalek`, with the base64 forms of its keys and signatures. -/
structure Ed25519 where
  SigningKey : Type
  VerifyingKey : Type
  Signature : Type
  verifyingKey : SigningKey → VerifyingKey
  sign : SigningKey → Bytes → Signature
  verify : VerifyingKey → Bytes → Signature → Bool
  keyToBase64 : VerifyingKey → String
  /-- `from_base64`: base64 of the 32 bytes of a key. -/
  keyFromBase64 : String → Option VerifyingKey
  encode : Signature → String
  /-- Base64 of 64 bytes. -/
  decode : String → Option Signature
  keyFromBase64_keyToBase64 : ∀ key, keyFromBase64 (keyToBase64 key) = some key
  decode_encode : ∀ signature, decode (encode signature) = some signature
  verify_sign : ∀ key text, verify (verifyingKey key) text (sign key text) = true

/-- A signature verifies under a key over one text. -/
def Ed25519.Binding (E : Ed25519) : Prop :=
  ∀ key signature text text', E.verify key text signature = true → E.verify key text' signature = true → text = text'

inductive VerifyError where
  | canonical (error : CanonicalError)
  | malformed
  | mismatch
  deriving DecidableEq, Repr

def VerifyError.toText : VerifyError → String
  | canonical error => error.toText
  | malformed => "malformed signature"
  | mismatch => "signature does not match"

namespace Ed25519

variable (E : Ed25519) (ryu : UInt64 → List Char)

def signCanonical (key : E.SigningKey) (purpose : SignaturePurpose) (canonicalPayload : Bytes) : String :=
  E.encode (E.sign key (purpose.signingBytes canonicalPayload))

/-- `IdentityKey::sign`. -/
def signValue (key : E.SigningKey) (purpose : SignaturePurpose) (payload : Value) : Except CanonicalError String := do
  let canonical ← toCanonicalJson ryu payload
  return E.signCanonical key purpose canonical

def verifyCanonical (key : E.VerifyingKey) (purpose : SignaturePurpose) (canonicalPayload : Bytes) (sig : String) :
    Except VerifyError Unit :=
  match E.decode sig with
  | none => .error .malformed
  | some signature =>
    if E.verify key (purpose.signingBytes canonicalPayload) signature then .ok () else .error .mismatch

/-- `IdentityPublicKey::verify`. -/
def verifyValue (key : E.VerifyingKey) (purpose : SignaturePurpose) (payload : Value) (sig : String) :
    Except VerifyError Unit :=
  match toCanonicalJson ryu payload with
  | .error error => .error (.canonical error)
  | .ok canonical => E.verifyCanonical key purpose canonical sig

variable {E ryu}

theorem verifyValue_ok {key : E.VerifyingKey} {purpose : SignaturePurpose} {payload : Value} {sig : String}
    (h : E.verifyValue ryu key purpose payload sig = .ok ()) :
    ∃ canonical signature, toCanonicalJson ryu payload = .ok canonical ∧ E.decode sig = some signature ∧
      E.verify key (purpose.signingBytes canonical) signature = true := by
  unfold verifyValue at h
  cases hcanonical : toCanonicalJson ryu payload with
  | error error => simp [hcanonical] at h
  | ok canonical =>
    simp only [hcanonical, verifyCanonical] at h
    cases hdecode : E.decode sig with
    | none => simp [hdecode] at h
    | some signature =>
      simp only [hdecode] at h
      split at h
      · rename_i hverify
        exact ⟨canonical, signature, rfl, rfl, hverify⟩
      · cases h

variable (ryu) in
/-- What is signed verifies under the key that signed it, for the purpose it was signed for. -/
theorem verifyValue_signValue (key : E.SigningKey) (purpose : SignaturePurpose) {payload : Value}
    (h : ¬HasFloat payload.json) : ∃ sig, E.signValue ryu key purpose payload = .ok sig ∧
      E.verifyValue ryu (E.verifyingKey key) purpose payload sig = .ok () := by
  have hcanonical : toCanonicalJson ryu payload = .ok (utf8 (payload.json.write ryu)) := toCanonicalJson_eq payload h
  refine ⟨_, by rw [signValue, hcanonical]; rfl, ?_⟩
  rw [verifyValue, hcanonical]
  simp [verifyCanonical, signCanonical, E.decode_encode, E.verify_sign]

end Ed25519

/-! ## Payloads -/

def RemovalReason.asStr : RemovalReason → String
  | left => "left"
  | removed => "removed"
  | lost => "lost"

def VouchedSubject.toValue (subject : VouchedSubject) : Value :=
  .struct
    [("device_id", .string subject.deviceId), ("identity_pk", .string subject.identityPk),
     ("display_name", .string subject.displayName), ("member_group", .string subject.memberGroup),
     ("role", .string subject.role), ("joined_at", .string subject.joinedAt)]

def VouchPayload.toValue (payload : VouchPayload) : Value :=
  .struct [("subject", payload.subject.toValue), ("epoch", .u64 payload.epoch)]

def RemovalPayload.toValue (payload : RemovalPayload) : Value :=
  .struct
    [("subject", .string payload.subject), ("reason", .string payload.reason.asStr),
     ("removed_at", .string payload.removedAt), ("epoch", .u64 payload.epoch)]

def Bundle.toValue (bundle : Bundle) : Value :=
  .struct
    [("v", .u64 bundle.v.toUInt64), ("device_id", .string bundle.deviceId), ("identity_pk", .string bundle.identityPk),
     ("curve25519", .string bundle.curve25519), ("fallback_key", .string bundle.fallbackKey),
     ("fallback_key_id", .string bundle.fallbackKeyId), ("published_at", .string bundle.publishedAt)]

/-- Everything an identity key signs, under the purpose it is signed for. -/
inductive Signed where
  | bundle (bundle : Bundle)
  | vouch (payload : VouchPayload)
  | removal (payload : RemovalPayload)
  deriving DecidableEq, Repr

namespace Signed

def purpose : Signed → SignaturePurpose
  | .bundle _ => .bundle
  | .vouch _ => .vouch
  | .removal _ => .removal

def toValue : Signed → Value
  | .bundle b => b.toValue
  | .vouch payload => payload.toValue
  | .removal payload => payload.toValue

end Signed

theorem VouchedSubject.toValue_inj {a b : VouchedSubject} (h : a.toValue = b.toValue) : a = b := by
  have hfields := Value.struct_inj (by simp) (by rfl) h
  simp only [List.cons.injEq, Prod.mk.injEq, Value.string, Value.mk.injEq, Json.string.injEq, true_and,
    and_true] at hfields
  cases a
  cases b
  simp_all

theorem VouchPayload.toValue_inj {a b : VouchPayload} (h : a.toValue = b.toValue) : a = b := by
  have hfields := Value.struct_inj (by simp) (by rfl) h
  simp only [List.cons.injEq, Prod.mk.injEq, Value.u64, Value.mk.injEq, Json.number.injEq,
    Json.Number.posInt.injEq, true_and, and_true] at hfields
  have hsubject : a.subject = b.subject := VouchedSubject.toValue_inj hfields.1
  cases a
  cases b
  simp_all

theorem RemovalReason.asStr_inj {a b : RemovalReason} (h : a.asStr = b.asStr) : a = b := by
  cases a <;> cases b <;> first | rfl | exact absurd h (by decide)

theorem RemovalPayload.toValue_inj {a b : RemovalPayload} (h : a.toValue = b.toValue) : a = b := by
  have hfields := Value.struct_inj (by simp) (by rfl) h
  simp only [List.cons.injEq, Prod.mk.injEq, Value.string, Value.u64, Value.mk.injEq, Json.string.injEq,
    Json.number.injEq, Json.Number.posInt.injEq, true_and, and_true] at hfields
  have hreason : a.reason = b.reason := RemovalReason.asStr_inj hfields.2.1
  cases a
  cases b
  simp_all

theorem Bundle.toValue_inj {a b : Bundle} (h : a.toValue = b.toValue) : a = b := by
  have hfields := Value.struct_inj (by simp) (by rfl) h
  simp only [List.cons.injEq, Prod.mk.injEq, Value.string, Value.u64, Value.mk.injEq, Json.string.injEq,
    Json.number.injEq, Json.Number.posInt.injEq, true_and, and_true] at hfields
  have hv : a.v = b.v := by
    have hnat := congrArg UInt64.toNat hfields.1
    rw [UInt8.toNat_toUInt64, UInt8.toNat_toUInt64] at hnat
    exact UInt8.toNat_inj.mp hnat
  cases a
  cases b
  simp_all

namespace Signed

theorem toValue_inj {s s' : Signed} (hpurpose : s.purpose = s'.purpose) (h : s.toValue = s'.toValue) : s = s' := by
  cases s with
  | bundle b =>
    cases s' with
    | bundle b' => rw [Bundle.toValue_inj h]
    | _ => cases hpurpose
  | vouch payload =>
    cases s' with
    | vouch payload' => rw [VouchPayload.toValue_inj h]
    | _ => cases hpurpose
  | removal payload =>
    cases s' with
    | removal payload' => rw [RemovalPayload.toValue_inj h]
    | _ => cases hpurpose

/-- No payload has a double in it. -/
theorem toValue_noFloat (s : Signed) : ¬HasFloat s.toValue.json := by
  cases s with
  | bundle b => exact Value.struct_noFloat (by simp [Value.string_noFloat, Value.u64_noFloat])
  | vouch payload =>
    have hsubject : ¬HasFloat payload.subject.toValue.json := Value.struct_noFloat (by simp [Value.string_noFloat])
    exact Value.struct_noFloat (by simp [hsubject, Value.u64_noFloat])
  | removal payload => exact Value.struct_noFloat (by simp [Value.string_noFloat, Value.u64_noFloat])

end Signed

/-! ## One encoding and one meaning -/

/-- Only a value without a double in it is encoded, a signed text was signed for one purpose
    over one value, and so a signature verifies over one bundle, vouch or removal. -/
theorem signature_has_one_meaning {E : Ed25519} (hE : E.Binding) (ryu : UInt64 → List Char) :
    (∀ v : Value, (∃ canonical, toCanonicalJson ryu v = .ok canonical) ↔ ¬HasFloat v.json) ∧
    (∀ (p q : SignaturePurpose) (v w : Value) (a b : Bytes), toCanonicalJson ryu v = .ok a →
      toCanonicalJson ryu w = .ok b → p.signingBytes a = q.signingBytes b → p = q ∧ v = w) ∧
    (∀ (key : E.VerifyingKey) (sig : String) (p q : SignaturePurpose) (v w : Value),
      E.verifyValue ryu key p v sig = .ok () → E.verifyValue ryu key q w sig = .ok () → p = q ∧ v = w) ∧
    ∀ (key : E.VerifyingKey) (sig : String) (s s' : Signed), E.verifyValue ryu key s.purpose s.toValue sig = .ok () →
      E.verifyValue ryu key s'.purpose s'.toValue sig = .ok () → s = s' := by
  have htext : ∀ (p q : SignaturePurpose) (v w : Value) (a b : Bytes), toCanonicalJson ryu v = .ok a →
      toCanonicalJson ryu w = .ok b → p.signingBytes a = q.signingBytes b → p = q ∧ v = w := by
    intro p q v w a b hv hw h
    obtain ⟨hpurpose, rfl⟩ := SignaturePurpose.signingBytes_inj h
    exact ⟨hpurpose, toCanonicalJson_inj hv hw⟩
  have hvalue : ∀ (key : E.VerifyingKey) (sig : String) (p q : SignaturePurpose) (v w : Value),
      E.verifyValue ryu key p v sig = .ok () → E.verifyValue ryu key q w sig = .ok () → p = q ∧ v = w := by
    intro key sig p q v w hv hw
    obtain ⟨a, signature, ha, hdecode, hverify⟩ := Ed25519.verifyValue_ok hv
    obtain ⟨b, signature', hb, hdecode', hverify'⟩ := Ed25519.verifyValue_ok hw
    obtain rfl := Option.some.inj (hdecode.symm.trans hdecode')
    exact htext p q v w a b ha hb (hE key signature _ _ hverify hverify')
  refine ⟨toCanonicalJson_isOk, htext, hvalue, fun key sig s s' hs hs' => ?_⟩
  obtain ⟨hpurpose, hsame⟩ := hvalue key sig _ _ _ _ hs hs'
  exact Signed.toValue_inj hpurpose hsame

/-- Bytes as text, a character each. -/
def latin1 (bytes : Bytes) : String := String.ofList (bytes.map Char.ofUInt8)

def ofLatin1 (text : String) : Bytes := text.toList.map Char.toUInt8

theorem ofLatin1_latin1 (bytes : Bytes) : ofLatin1 (latin1 bytes) = bytes := by
  have hbyte : ∀ b : UInt8, (Char.ofUInt8 b).toUInt8 = b := fun b => UInt8.toUInt8_toUInt32 b
  simp [ofLatin1, latin1, Function.comp_def, hbyte]

/-- A key is a byte, and its signature is the text with the key before it. -/
def Ed25519.plain : Ed25519 where
  SigningKey := UInt8
  VerifyingKey := UInt8
  Signature := Bytes
  verifyingKey key := key
  sign key text := key :: text
  verify key text signature := decide (signature = key :: text)
  keyToBase64 key := latin1 [key]
  keyFromBase64 text := (ofLatin1 text).head?
  encode := latin1
  decode text := some (ofLatin1 text)
  keyFromBase64_keyToBase64 key := by rw [ofLatin1_latin1]; rfl
  decode_encode signature := by rw [ofLatin1_latin1]
  verify_sign _ _ := decide_eq_true rfl

theorem Ed25519.plain_binding : Ed25519.plain.Binding := by
  intro (key : UInt8) (signature : Bytes) text text' h h'
  have h : signature = key :: text := of_decide_eq_true h
  have h' : signature = key :: text' := of_decide_eq_true h'
  exact (List.cons.inj (h.symm.trans h')).2

/-- The signature of a removal of `b` verifies over nothing else. -/
theorem removal_of_b_is_nothing_else :
    ∃ sig, Ed25519.plain.signValue (fun _ => []) (7 : UInt8) .removal (RemovalPayload.toValue ⟨"b", .lost, "", 3⟩) =
        .ok sig ∧
      ∀ s : Signed, Ed25519.plain.verifyValue (fun _ => []) (7 : UInt8) s.purpose s.toValue sig = .ok () →
        s = .removal ⟨"b", .lost, "", 3⟩ := by
  obtain ⟨sig, hsign, hverify⟩ := Ed25519.verifyValue_signValue (fun _ => [])
    (show Ed25519.plain.SigningKey from (7 : UInt8)) .removal (Signed.removal ⟨"b", .lost, "", 3⟩).toValue_noFloat
  exact ⟨sig, hsign, fun s hs =>
    (signature_has_one_meaning Ed25519.plain_binding (fun _ => [])).2.2.2 (7 : UInt8) sig s
      (.removal ⟨"b", .lost, "", 3⟩) hs hverify⟩

/-! ## The signatures of the model -/

def DeviceState.asStr : DeviceState → String
  | active => "active"
  | removed => "removed"

def SyncDevice.toValue (device : SyncDevice) : Value :=
  .struct
    [("device_id", .string device.deviceId), ("identity_pk", .string device.identityPk),
     ("state", .string device.state.asStr)]

/-- `SyncPayload`, which is digested and not signed. -/
def syncPayload (epoch : UInt64) (devices : List SyncDevice) : Value :=
  .struct [("epoch", .u64 epoch), ("devices", .array (devices.map SyncDevice.toValue))]

def Statement.signed : Statement → Signed
  | vouch payload => .vouch payload
  | removal payload => .removal payload

section model

variable (E : Ed25519) (ryu : UInt64 → List Char)

/-- The roster's cryptography; `sha256` gives the digest in hex. -/
def Crypto.ofEd25519 (sha256 : Bytes → String) : Crypto where
  PublicKey := E.VerifyingKey
  IdentityKey := E.SigningKey
  publicKey := E.verifyingKey
  fromBase64 := E.keyFromBase64
  toBase64 := E.keyToBase64
  verify key statement sig :=
    (E.verifyValue ryu key statement.signed.purpose statement.signed.toValue sig).isOk
  sign key statement := (E.signValue ryu key statement.signed.purpose statement.signed.toValue).toOption
  digestOf epoch devices := sha256 ((toCanonicalJson ryu (syncPayload epoch devices)).toOption.getD [])
  fromBase64_toBase64 := E.keyFromBase64_keyToBase64
  verify_sign key statement := by
    obtain ⟨sig, hsign, hverify⟩ :=
      Ed25519.verifyValue_signValue ryu key statement.signed.purpose statement.signed.toValue_noFloat
    exact ⟨sig, by rw [hsign]; rfl, by rw [hverify]; rfl⟩

/-- The publisher of a device with this identity key. -/
def publisher (deviceId : String) (key : E.SigningKey) : Publisher where
  deviceId := deviceId
  identityPk := E.keyToBase64 (E.verifyingKey key)
  sign bundle := (E.signValue ryu key .bundle bundle.toValue).mapError CanonicalError.toText

/-- A bundle is never refused its signature. -/
theorem publisher_signs (deviceId : String) (key : E.SigningKey) (bundle : Bundle) :
    ∃ sig, (publisher E ryu deviceId key).sign bundle = .ok sig := by
  obtain ⟨sig, hsign, _⟩ :=
    Ed25519.verifyValue_signValue ryu key .bundle (Signed.bundle bundle).toValue_noFloat
  refine ⟨sig, ?_⟩
  rw [Signed.toValue] at hsign
  simp only [publisher, hsign]
  rfl

end model

end Beacon
