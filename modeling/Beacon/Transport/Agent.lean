/-
  Beacon.Transport.Agent — who the server is: the pinned verifier and the errors of the
  shipping HTTP client (`sund_client::agent`), and what becomes of them on the way to the app
  (`beacon_client::error`).

  ureq, rustls and the platform's I/O errors are not part of the repository: `UreqError` has
  the variants the client tells apart, and `Verification` the calls a verifier makes.
  - `verifyServerCert_ok_iff`: the first presented certificate with the pinned key is the one
    trust anchor; no other is tried, and without one nothing is accepted.
  - `identity_failure_iff`: a call on the server is shown as a failure to verify it exactly if
    rustls is among the first eight causes of the failed request; and the same failure of a
    call through the transport port never is.
-/

import Beacon.Transport.Http

namespace Beacon

/-! ## Pinned mode -/

/-- `a.iter().zip(b).fold(0u8, |acc, (x, y)| acc | (x ^ y)) == 0`. -/
def fingerprintsMatch (a b : Vector UInt8 32) : Bool :=
  (a.toList.zip b.toList).foldl (fun acc p => acc ||| (p.1 ^^^ p.2)) 0 == 0

theorem foldl_or_eq_zero (pairs : List (UInt8 × UInt8)) (acc : UInt8) :
    pairs.foldl (fun acc p => acc ||| (p.1 ^^^ p.2)) acc = 0 ↔ acc = 0 ∧ ∀ p ∈ pairs, p.1 = p.2 := by
  induction pairs generalizing acc with
  | nil => simp
  | cons p pairs ih => simp [ih, UInt8.or_eq_zero_iff, and_assoc]

theorem fingerprintsMatch_iff (a b : Vector UInt8 32) : fingerprintsMatch a b = true ↔ a = b := by
  unfold fingerprintsMatch
  rw [beq_iff_eq, foldl_or_eq_zero]
  constructor
  · rintro ⟨-, h⟩
    refine Vector.toList_inj.mp (List.ext_getElem (by simp) fun i hi hi' => ?_)
    exact h (a.toList[i], b.toList[i]) (List.mem_iff_getElem.mpr ⟨i, by simpa using hi, by simp⟩)
  · rintro rfl
    refine ⟨rfl, fun p hp => ?_⟩
    obtain ⟨i, hi, rfl⟩ := List.mem_iff_getElem.mp hp
    simp

/-- The calls of rustls that a verifier makes. -/
structure Verification where
  Certificate : Type
  Anchor : Type
  /-- `rustls::Error`. -/
  Error : Type
  toText : Error → String
  general : String → Error
  /-- `UnixTime`. -/
  Time : Type
  /-- `ParsedCertificate::try_from`, and the DER of the public key info in it. -/
  parse : Certificate → Except Error Bytes
  /-- `RootCertStore::add`. -/
  anchor : Certificate → Except Error Anchor
  /-- `verify_server_cert_signed_by_trust_anchor`, with one anchor. -/
  chains : Certificate → Anchor → List Certificate → Time → Except Error Unit
  sha256 : Bytes → Vector UInt8 32

namespace Verification

variable (V : Verification)

def spkiFingerprint (certificate : V.Certificate) : Option (Vector UInt8 32) :=
  (V.parse certificate).toOption.map V.sha256

def matchesPin (pin : Vector UInt8 32) (certificate : V.Certificate) : Bool :=
  (V.spkiFingerprint certificate).any fun fingerprint => fingerprintsMatch fingerprint pin

def verifyServerCert (pin : Vector UInt8 32) (endEntity : V.Certificate) (intermediates : List V.Certificate)
    (now : V.Time) : Except V.Error Unit :=
  match (endEntity :: intermediates).find? (V.matchesPin pin) with
  | none => .error (V.general "server certificate does not match the pinned fingerprint")
  | some pinned =>
    match V.anchor pinned with
    | .error error => .error (V.general ("pinned certificate unusable: " ++ V.toText error))
    | .ok anchor =>
      match V.parse endEntity with
      | .error error => .error error
      | .ok _ => V.chains endEntity anchor intermediates now

/-- The certificate is good, and its key is the pinned one. -/
def Pinned (pin : Vector UInt8 32) (certificate : V.Certificate) : Prop :=
  ∃ spki, V.parse certificate = .ok spki ∧ V.sha256 spki = pin

theorem matchesPin_iff {pin : Vector UInt8 32} {certificate : V.Certificate} :
    V.matchesPin pin certificate = true ↔ V.Pinned pin certificate := by
  unfold matchesPin spkiFingerprint Pinned
  cases V.parse certificate with
  | error error => simp [Except.toOption]
  | ok spki => simp [Except.toOption, fingerprintsMatch_iff]

/-- A chain is accepted exactly if some presented certificate has the pinned key, and the leaf, itself a good
    certificate, chains to the first of these as the only root. -/
theorem verifyServerCert_ok_iff (pin : Vector UInt8 32) (endEntity : V.Certificate) (intermediates : List V.Certificate)
    (now : V.Time) : V.verifyServerCert pin endEntity intermediates now = .ok () ↔
      ∃ before pinned after anchor spki, endEntity :: intermediates = before ++ pinned :: after ∧
        (∀ certificate ∈ before, ¬ V.Pinned pin certificate) ∧ V.Pinned pin pinned ∧ V.anchor pinned = .ok anchor ∧
        V.parse endEntity = .ok spki ∧ V.chains endEntity anchor intermediates now = .ok () := by
  unfold verifyServerCert
  constructor
  · intro h
    cases hfind : (endEntity :: intermediates).find? (V.matchesPin pin) with
    | none =>
      rw [hfind] at h
      cases h
    | some pinned =>
      obtain ⟨hpinned, before, after, hsplit, hbefore⟩ := List.find?_eq_some_iff_append.mp hfind
      rw [hfind] at h
      simp only [] at h
      cases hanchor : V.anchor pinned with
      | error error =>
        rw [hanchor] at h
        cases h
      | ok anchor =>
        rw [hanchor] at h
        simp only [] at h
        cases hparse : V.parse endEntity with
        | error error =>
          rw [hparse] at h
          cases h
        | ok spki =>
          rw [hparse] at h
          refine ⟨before, pinned, after, anchor, spki, hsplit, fun certificate hc => ?_, V.matchesPin_iff.mp hpinned,
            hanchor, rfl, h⟩
          rw [← V.matchesPin_iff]
          simpa using hbefore certificate hc
  · rintro ⟨before, pinned, after, anchor, spki, hsplit, hbefore, hpinned, hanchor, hparse, hchains⟩
    have hfind : (endEntity :: intermediates).find? (V.matchesPin pin) = some pinned := by
      refine List.find?_eq_some_iff_append.mpr ⟨V.matchesPin_iff.mpr hpinned, before, after, hsplit, fun c hc => ?_⟩
      have hnot := hbefore c hc
      rw [← V.matchesPin_iff] at hnot
      simpa using hnot
    rw [hfind]
    simp only [hanchor, hparse, hchains]

end Verification

/-! ## The errors of a request -/

/-- An error with what it was caused by: an I/O error holds its inner error, any other names its source. -/
inductive Cause where
  | rustls
  | io (inner : Option Cause)
  | other (source : Option Cause)

/-- An I/O error: its text, and its inner error. -/
structure IoError where
  text : String
  inner : Option Cause

/-- `ureq::Error`, as far as it is told apart; the text is what it prints. -/
inductive UreqError where
  | tls (detail : String)
  | rustls (text : String)
  | io (error : IoError) (text : String)
  | timeout (text : String)
  | hostNotFound (text : String)
  | connectionFailed (text : String)
  | other (text : String)

/-- The next `links` links from here, looking for rustls. -/
def isTlsFailureWithin : Nat → Option Cause → Bool
  | 0, _ => false
  | _ + 1, none => false
  | _ + 1, some .rustls => true
  | links + 1, some (.io inner) => isTlsFailureWithin links inner
  | links + 1, some (.other source) => isTlsFailureWithin links source

def isTlsFailure (error : IoError) : Bool := isTlsFailureWithin 8 error.inner

def classify : UreqError → HttpError
  | .tls detail => .tls detail
  | .rustls text => .tls text
  | .io error text => if isTlsFailure error then .tls error.text else .network text
  | .timeout text | .hostNotFound text | .connectionFailed text => .network text
  | .other text => .protocol text

/-- What an error was caused by, and that in turn, as far as it goes. -/
def causes : Option Cause → List Cause
  | none => []
  | some .rustls => [.rustls]
  | some (.io inner) => .io inner :: causes inner
  | some (.other source) => .other source :: causes source

theorem isTlsFailureWithin_iff (links : Nat) (cause : Option Cause) :
    isTlsFailureWithin links cause = true ↔ Cause.rustls ∈ (causes cause).take links := by
  induction links generalizing cause with
  | zero => simp [isTlsFailureWithin]
  | succ links ih =>
    rcases cause with _ | _ | inner | source
    · simp [isTlsFailureWithin, causes]
    · simp [isTlsFailureWithin, causes]
    · simp [isTlsFailureWithin, causes, ih]
    · simp [isTlsFailureWithin, causes, ih]

/-- The server could not be verified, as the client finds out. -/
def UreqError.Unverified : UreqError → Prop
  | .tls _ | .rustls _ => True
  | .io error _ => Cause.rustls ∈ (causes error.inner).take 8
  | _ => False

/-! ## What the app is told -/

/-- `ClientError`, in full. -/
inductive AppError where
  | serverIdentity (detail : String)
  | network (detail : String)
  | unauthorized
  | notFound
  | serverRefused (detail : String)
  | protocol (detail : String)
  | address (detail : String)
  | state (detail : String)
  | session (detail : String)
  | roster (detail : String)
  | transport (detail : String)
  | rng (detail : String)
  deriving DecidableEq, Repr

namespace AppError

def isServerIdentity : AppError → Bool
  | serverIdentity _ => true
  | _ => false

def ofHttp : HttpError → AppError
  | .tls detail => serverIdentity detail
  | .network detail => network detail
  | .protocol detail => protocol detail

def ofSund : SundError → AppError
  | .http error => ofHttp error
  | .unauthorized => unauthorized
  | .notFound => notFound
  | .rejected detail => serverRefused detail
  | .tooLarge => serverRefused "the message is over the server's size cap"
  | .quotaExceeded => serverRefused "the recipient's account is over its storage quota"
  | .status code message => serverRefused ("HTTP " ++ toString code ++ ": " ++ message)
  | .malformed detail => protocol detail

end AppError

def TransportError.toText : TransportError → String
  | unknownChannel channel => "unknown channel \x60" ++ channel ++ "\x60"
  | retired channel => "channel \x60" ++ channel ++ "\x60 is retired"
  | backend detail => "transport backend: " ++ detail

def AppError.ofTransport (error : TransportError) : AppError := .transport error.toText

/-! ## From the wire to the app -/

namespace SundHttp

variable {σ : Type} (C : SundHttp σ) (run : σ → HttpRequest → Except UreqError (UInt16 × Except String Bytes) × σ)

/-- `HttpAgent::execute`: `run` is ureq's, and a body that breaks off gives a text. -/
def agentExecute (w : σ) (request : HttpRequest) : Except HttpError HttpResponse × σ :=
  match run w request with
  | (.error error, w) => (.error (classify error), w)
  | (.ok (_, .error detail), w) => (.error (.protocol detail), w)
  | (.ok (status, .ok body), w) => (.ok ⟨status, body⟩, w)

/-- The same client over the shipping HTTP client. -/
def overAgent : SundHttp σ := { C with execute := agentExecute run }

/-- The request could not be performed because the server could not be verified. -/
def Unverified (w : σ) (request : HttpRequest) : Prop := ∃ error, (run w request).1 = .error error ∧ error.Unverified

theorem classify_tls_iff (error : UreqError) : (∃ detail, classify error = .tls detail) ↔ error.Unverified := by
  cases error with
  | io error text =>
    have hwithin : isTlsFailure error = true ↔ Cause.rustls ∈ (causes error.inner).take 8 :=
      isTlsFailureWithin_iff 8 error.inner
    simp only [classify, UreqError.Unverified, ← hwithin]
    by_cases h : isTlsFailure error = true
    · simp [h]
    · simp [h]
  | tls | rustls => simp [classify, UreqError.Unverified]
  | timeout | hostNotFound | connectionFailed | other => simp [classify, UreqError.Unverified]

/-- No status is a failure to verify the server. -/
theorem checkStatus_not_tls (response : HttpResponse) {error : SundError} (h : C.checkStatus response = .error error)
    (detail : String) : error ≠ .http (.tls detail) := by
  unfold checkStatus at h
  repeat' split at h
  all_goals cases h
  all_goals simp

/-- A request fails over TLS exactly if the server could not be verified. -/
theorem perform_tls_iff (w : σ) (request : HttpRequest) :
    (∃ detail, ((C.overAgent run).perform w request).1 = .error (.http (.tls detail))) ↔ Unverified run w request := by
  unfold Unverified
  rcases hrun : run w request with ⟨error | ⟨status, detail | body⟩, w'⟩
  · have hperform : (C.overAgent run).perform w request = (.error (.http (classify error)), w') := by
      simp only [perform, overAgent, agentExecute, hrun]
    have hclassify := classify_tls_iff error
    simp only [hperform, Except.error.injEq, SundError.http.injEq, exists_eq_left', hclassify]
  · have hperform : (C.overAgent run).perform w request = (.error (.http (.protocol detail)), w') := by
      simp only [perform, overAgent, agentExecute, hrun]
    simp [hperform]
  · have hperform : (C.overAgent run).perform w request = (C.checkStatus ⟨status, body⟩, w') := by
      simp only [perform, overAgent, agentExecute, hrun]
      rfl
    simp only [hperform, reduceCtorEq, false_and, exists_false, iff_false, not_exists]
    exact fun detail h => C.checkStatus_not_tls ⟨status, body⟩ h detail rfl

theorem isServerIdentity_iff (error : SundError) :
    (AppError.ofSund error).isServerIdentity = true ↔ ∃ detail, error = .http (.tls detail) := by
  cases error with
  | http error => cases error <;> simp [AppError.ofSund, AppError.ofHttp, AppError.isServerIdentity]
  | unauthorized | notFound | tooLarge | quotaExceeded => simp [AppError.ofSund, AppError.isServerIdentity]
  | rejected | status | malformed => simp [AppError.ofSund, AppError.isServerIdentity]

/-- A failed request is shown as a failure to verify the server exactly if it was one, as rustls among its first eight
    causes tells. A send through the transport port that fails so gives a backend error with the reason in its text;
    the app is shown that as a failure of the transport. -/
theorem identity_failure_iff (w : σ) :
    (∀ request, (∃ error, ((C.overAgent run).perform w request).1 = .error error ∧
        (AppError.ofSund error).isServerIdentity = true) ↔ Unverified run w request) ∧
    ∀ (deviceId : String) (deviceKey : C.E.SigningKey) (t : SundTransport) (channel : ChannelId) (message : Outbound)
      (outbound : OutboundQueue) (request : HttpRequest), t.outboundOf channel = .ok outbound →
      SundClient.sendToQueue C.E C.base64 outbound.senderId (C.fromSeed outbound.senderSeed)
        ⟨message.ciphertext, message.ttl, message.priority == .high, !outbound.bound⟩ = .ok request →
      Unverified run (C.stamp w).2 (signedRequest C.E C.sha256 request (C.fromSeed outbound.senderSeed) none (C.stamp w).1) →
      ∃ detail, (SundTransport.send ((C.overAgent run).server deviceId deviceKey) (t, w) channel message).1 =
          .error (.backend ("cannot verify the server's identity: " ++ detail)) ∧
        (AppError.ofTransport (.backend ("cannot verify the server's identity: " ++ detail))).isServerIdentity = false := by
  constructor
  · intro request
    rw [← perform_tls_iff C run w request]
    simp only [isServerIdentity_iff]
    constructor
    · rintro ⟨error, herror, detail, rfl⟩
      exact ⟨detail, herror⟩
    · rintro ⟨detail, herror⟩
      exact ⟨_, herror, detail, rfl⟩
  · intro deviceId deviceKey t channel message outbound request hout hrequest hunverified
    obtain ⟨detail, hdetail⟩ := (perform_tls_iff C run _ _).mpr hunverified
    refine ⟨detail, ?_, rfl⟩
    have hsend : ∃ w', ((C.overAgent run).server deviceId deviceKey).sendToQueue w outbound.senderId
        ⟨outbound.senderSeed⟩ ⟨message.ciphertext, message.ttl, message.priority == .high, !outbound.bound⟩ =
          (.error (.http (.tls detail)), w') := by
      show ∃ w', (C.overAgent run).signedCall w (.sendToQueue outbound.senderId _) _ none _ = _
      unfold signedCall
      have hcall : (SignedCall.sendToQueue outbound.senderId
          ⟨message.ciphertext, message.ttl, message.priority == .high, !outbound.bound⟩).request (C.overAgent run).E
          (C.overAgent run).base64 ((C.overAgent run).fromSeed outbound.senderSeed) = .ok request := hrequest
      rw [hcall]
      have hperformed : ((C.overAgent run).performSigned w request ((C.overAgent run).fromSeed outbound.senderSeed)
          none).1 = .error (.http (.tls detail)) := hdetail
      rcases hresult : (C.overAgent run).performSigned w request ((C.overAgent run).fromSeed outbound.senderSeed) none
        with ⟨error | response, w'⟩
      · rw [hresult] at hperformed
        cases hperformed
        simp only [hresult]
        exact ⟨w', rfl⟩
      · rw [hresult] at hperformed
        cases hperformed
    obtain ⟨w', hw'⟩ := hsend
    unfold SundTransport.send
    simp only [hout, hw']
    rfl

end SundHttp

end Beacon
