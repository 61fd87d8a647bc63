/-
  Beacon.Client.Enroll — a device comes to be (`Client::enroll_with`), and what holds of it
  from then on.

  Enrolment is two requests: the registration, which nobody signs and which spends the
  invitation, and the upload of the device's bundle, signed as the device the server has just
  named. In between nothing leaves the device.
  - `found_cases`: the ends of an enrolment that the server has answered.
  - `enrolment`: over every server, what went over the wire, and what the device that is
    handed back is.
  - `reopened_run`: at every point of an enrolled device's life its blob opens as the device.
-/

import Beacon.Client.Device
import Beacon.Rfc3339.Format

namespace Beacon

open Lib Json

/-! ## The bundle on the wire -/

/-- `MAX_BUNDLE_BYTES`. -/
def maxBundleBytes : Nat := 8 * 1024

def Bundle.form : Form Bundle := .record
  [⟨"v", v, .u8⟩, ⟨"device_id", deviceId, .string⟩, ⟨"identity_pk", identityPk, .string⟩,
   ⟨"curve25519", curve25519, .string⟩, ⟨"fallback_key", fallbackKey, .string⟩,
   ⟨"fallback_key_id", fallbackKeyId, .string⟩, ⟨"published_at", publishedAt, .string⟩] fun {a b} h => by
  cases a; cases b; simpa using h

def SignedBundle.form : Form SignedBundle := .record
  [⟨"bundle", bundle, Bundle.form⟩, ⟨"sig", sig, .string⟩] fun {a b} h => by
  cases a; cases b; simpa using h

/-- `encode`; a bundle over the cap is refused with this text. -/
def SignedBundle.encode (signed : SignedBundle) : Except String Bytes :=
  let bytes := form.text signed
  if maxBundleBytes < bytes.length then
    .error ("bundle is " ++ toString bytes.length ++ " bytes, over the " ++ toString maxBundleBytes ++ " cap")
  else .ok bytes

/-! ## Enrolling -/

structure Profile where
  displayName : String
  memberGroup : String
  role : String
  deriving DecidableEq, Repr

namespace Stack

variable {σ : Type} (S : Stack σ) (address : ServerAddress) (invitation : String) (profile : Profile) (seeds : Seeds)
  (now : SystemTime)

/-- An empty endpoint means no pings. -/
def enrollment : Enrollment := ⟨invitation, S.publicKey (S.deviceKey seeds), "", ""⟩

def foundingSelf (deviceId : String) : SelfDescription :=
  ⟨deviceId, profile.displayName, profile.memberGroup, profile.role, Rfc3339.format now⟩

/-- `enroll_with`, once the server has answered the registration. -/
def found (enrolled : Enrolled) (w : σ) : Except AppError (Applied (Device S)) × σ :=
  let identity := S.identityKey seeds
  let (account, w) := S.newAccount w
  let founded := Roster.found S.crypto (foundingSelf profile now enrolled.deviceId) identity
  match (SessionManager.create S.vodozemac account).publishBundle
    (publisher S.E S.ryu enrolled.deviceId identity) (Rfc3339.format now) with
  | (.error error, _) => (.error (.session error.toText), w)
  | (.ok bundle, sessions) =>
    match bundle.encode with
    | .error detail => (.error (.session detail), w)
    | .ok bytes =>
      match S.publishBundle enrolled.deviceId (S.deviceKey seeds) w bytes with
      | (.error error, w) => (.error (.ofSund error), w)
      | (.ok (), w) =>
        (.ok
          { outcome :=
              { address
                accountId := enrolled.accountId
                deviceId := enrolled.deviceId
                deviceKey := S.deviceKey seeds
                identity
                roster := founded.outcome
                sessions
                transport := .new
                outbox := .new
                pickleKey := S.pickleKey seeds }
            ledger := founded.ledger }, w)

def enrollWith (w : σ) : Except AppError (Applied (Device S)) × σ :=
  match S.register w (S.enrollment invitation seeds) with
  | (.error error, w) => (.error (.ofSund error), w)
  | (.ok enrolled, w) => S.found address profile seeds now enrolled w

/-- The same stack, keeping a tape. -/
def taped : Stack (σ × SundHttp.Tape) :=
  { S with
    toSundHttp := S.toSundHttp.taped
    newAccount := fun w => ((S.newAccount w.1).1, ((S.newAccount w.1).2, w.2)) }

end Stack

/-! ## What goes over the wire -/

namespace SundHttp

variable {σ : Type} (C : SundHttp σ)

theorem perform_taped (w : σ) (tape : Tape) (request : HttpRequest) :
    C.taped.perform (w, tape) request =
      ((C.perform w request).1, (C.perform w request).2, { tape with requests := tape.requests ++ [request] }) := by
  unfold perform
  rcases hexecute : C.execute w request with ⟨error | response, w'⟩
  · simp only [taped, hexecute]
  · simp only [taped, hexecute]
    rfl

theorem signedCall_taped {α : Type} (w : σ) (tape : Tape) (call : SignedCall) (key : C.E.SigningKey)
    (device : Option String) (read : Bytes → Except SundError α) {request : HttpRequest}
    (h : call.request C.E C.base64 key = .ok request) :
    C.taped.signedCall (w, tape) call key device read =
      ((C.signedCall w call key device read).1, (C.signedCall w call key device read).2,
        ⟨tape.requests ++ [signedRequest C.E C.sha256 request key device (C.stamp w).1], tape.stamps ++ [(C.stamp w).1]⟩) := by
  have hcall : call.request C.taped.E C.taped.base64 key = .ok request := h
  have hperform := C.perform_taped (C.stamp w).2 ⟨tape.requests, tape.stamps ++ [(C.stamp w).1]⟩
    (signedRequest C.E C.sha256 request key device (C.stamp w).1)
  have hsigned : C.taped.performSigned (w, tape) request key device =
      ((C.performSigned w request key device).1, (C.performSigned w request key device).2,
        ⟨tape.requests ++ [signedRequest C.E C.sha256 request key device (C.stamp w).1],
          tape.stamps ++ [(C.stamp w).1]⟩) := hperform
  unfold signedCall
  simp only [h, hcall, hsigned]
  rcases C.performSigned w request key device with ⟨error | response, w'⟩
  · rfl
  · rfl

theorem register_taped (w : σ) (tape : Tape) (enrollment : Enrollment) :
    C.taped.register (w, tape) enrollment =
      ((C.register w enrollment).1, (C.register w enrollment).2,
        { tape with requests := tape.requests ++ [C.registration enrollment] }) := by
  have hperform := C.perform_taped w tape (C.registration enrollment)
  have hrequest : C.taped.registration enrollment = C.registration enrollment := rfl
  unfold register
  rw [hrequest, hperform]
  rcases C.perform w (C.registration enrollment) with ⟨error | response, w'⟩
  · rfl
  · rfl

end SundHttp

namespace Stack

variable {σ : Type} (S : Stack σ)

/-- The upload of a bundle, signed as this device. -/
def upload (seeds : Seeds) (deviceId : String) (bytes : Bytes) (stamp : Stamp) : HttpRequest :=
  signedRequest S.E S.sha256 (DeviceClient.publishBundle S.base64 bytes) (S.deviceKey seeds) (some deviceId) stamp

/-- Whose bundle it is: it verifies as this device's under its identity, for the keys of this account. -/
def BundleOf (seeds : Seeds) (deviceId : String) (account : S.vodozemac.Account) (signed : SignedBundle) : Prop :=
  ∃ shown, S.vodozemac.fallbackKey account = some shown ∧
    signed.verify S.E S.ryu S.pickling.toKeyTexts deviceId (S.E.verifyingKey (S.identityKey seeds)) =
      .ok ⟨deviceId, S.E.keyToBase64 (S.E.verifyingKey (S.identityKey seeds)), S.vodozemac.curve25519Key account,
        shown.2, shown.1⟩

/-- The bundle that a device just registered makes. -/
def firstBundle (seeds : Seeds) (now : SystemTime) (enrolled : Enrolled) (w : σ) : Except SessionError SignedBundle :=
  ((SessionManager.create S.vodozemac (S.newAccount w).1).publishBundle
    (publisher S.E S.ryu enrolled.deviceId (S.identityKey seeds)) (Rfc3339.format now)).1

/-- Why a device that is registered sends no bundle. -/
inductive Unsent (seeds : Seeds) (now : SystemTime) (enrolled : Enrolled) (w : σ) : AppError → Prop
  | unsigned {error : SessionError} : S.firstBundle seeds now enrolled w = .error error →
      Unsent seeds now enrolled w (.session error.toText)
  | oversize {signed : SignedBundle} {detail : String} : S.firstBundle seeds now enrolled w = .ok signed →
      signed.encode = .error detail → Unsent seeds now enrolled w (.session detail)

/-- A device as enrolment hands it back: alone in its family under its own vouch, knowing nobody, with nothing queued. -/
structure HandedBack (address : ServerAddress) (seeds : Seeds) (enrolled : Enrolled) (applied : Applied (Device S)) :
    Prop where
  sound : Device.Sound seeds.identity applied.outcome
  address : applied.outcome.address = address
  account : applied.outcome.accountId = enrolled.accountId
  device : applied.outcome.deviceId = enrolled.deviceId
  deviceKey : applied.outcome.deviceKey = S.deviceKey seeds
  alone : ∀ d, applied.outcome.roster.isActive d = true ↔ d = enrolled.deviceId
  vouched : (applied.outcome.roster.devices.get? enrolled.deviceId).map DeviceRecord.introducedBy = some enrolled.deviceId
  identified : applied.outcome.roster.identityOf S.crypto enrolled.deviceId =
    some (S.E.verifyingKey (S.identityKey seeds))
  ledgered : applied.ledger = [.localDecision enrolled.deviceId (.deviceJoined enrolled.deviceId)]
  strangers : ∀ peer, applied.outcome.sessions.peers.contains peer = false
  unconnected : applied.outcome.transport.channelIds = []
  idle : applied.outcome.outbox = .new

/-- A first bundle is the device's own, or there is none. -/
theorem publishBundle_fresh (seeds : Seeds) (deviceId publishedAt : String) (account : S.vodozemac.Account) :
    (∃ error, ((SessionManager.create S.vodozemac account).publishBundle
        (publisher S.E S.ryu deviceId (S.identityKey seeds)) publishedAt).1 = .error error) ∨
    ∃ signed account', (SessionManager.create S.vodozemac account).publishBundle
        (publisher S.E S.ryu deviceId (S.identityKey seeds)) publishedAt =
      (.ok signed, ⟨S.vodozemac.markKeysAsPublished account', .empty⟩) ∧ S.BundleOf seeds deviceId account' signed := by
  let account' := if (S.vodozemac.fallbackKey account).isNone then S.vodozemac.generateFallbackKey account else account
  let m : SessionManager S.vodozemac.toOlm := ⟨account', .empty⟩
  cases hshown : S.vodozemac.fallbackKey account' with
  | none =>
    refine Or.inl ⟨.olm "no fallback key available", ?_⟩
    show (SessionManager.publishBundle ⟨account, .empty⟩ _ _).1 = _
    unfold SessionManager.publishBundle
    simp only [account'] at hshown
    simp only [hshown]
  | some shown =>
    have hbundle := @verify_bundleOf S.E S.ryu _ S.pickling.toKeyTexts m deviceId (S.identityKey seeds) shown publishedAt
    obtain ⟨sig, hsign, hverify⟩ := hbundle
    refine Or.inr ⟨_, account', ?_, shown, hshown, hverify⟩
    show SessionManager.publishBundle ⟨account, .empty⟩ _ _ = _
    unfold SessionManager.publishBundle
    simp only [SessionManager.bundleOf, m, account'] at hshown hsign ⊢
    simp only [hshown, hsign]

section enrolment

variable (address : ServerAddress) (invitation : String) (profile : Profile) (seeds : Seeds) (now : SystemTime)

/-- The device that is handed back. -/
def handed (enrolled : Enrolled) (account : S.vodozemac.Account) : Applied (Device S) where
  outcome :=
    { address
      accountId := enrolled.accountId
      deviceId := enrolled.deviceId
      deviceKey := S.deviceKey seeds
      identity := S.identityKey seeds
      roster := Roster.founded S.crypto (foundingSelf profile now enrolled.deviceId) (S.identityKey seeds)
      sessions := ⟨S.vodozemac.markKeysAsPublished account, .empty⟩
      transport := .new
      outbox := .new
      pickleKey := S.pickleKey seeds }
  ledger := [.localDecision enrolled.deviceId (.deviceJoined enrolled.deviceId)]

theorem handedBack_handed (enrolled : Enrolled) (account : S.vodozemac.Account) :
    S.HandedBack address seeds enrolled (S.handed address profile seeds now enrolled account) where
  sound :=
    { identity := rfl
      pickleKey := rfl
      selfId := rfl
      reachable := .born (.found _ _)
      identified := fun peer state hget => by
        have hempty : (Table.empty : Table (PeerState.deviceId (O := S.vodozemac.toOlm))).get? peer = some state := hget
        rw [Table.get?_empty] at hempty
        cases hempty }
  address := rfl
  account := rfl
  device := rfl
  deviceKey := rfl
  alone d := by
    have hget := Table.get?_insert (.empty : Table DeviceRecord.deviceId)
      (DeviceRecord.fromVouch ((foundingSelf profile now enrolled.deviceId).subject
        (S.E.keyToBase64 (S.E.verifyingKey (S.identityKey seeds)))) enrolled.deviceId) d
    have hactive : (S.handed address profile seeds now enrolled account).outcome.roster.isActive d =
        (if enrolled.deviceId = d then some (DeviceRecord.fromVouch ((foundingSelf profile now enrolled.deviceId).subject
          (S.E.keyToBase64 (S.E.verifyingKey (S.identityKey seeds)))) enrolled.deviceId) else none).any
            (·.isActive) := by
      have hempty : (Table.empty : Table DeviceRecord.deviceId).get? d = none := Table.get?_empty d
      rw [← hempty]
      exact congrArg (Option.any _) hget
    rw [hactive]
    by_cases hd : enrolled.deviceId = d
    · rw [if_pos hd]
      exact iff_of_true rfl hd.symm
    · rw [if_neg hd]
      exact iff_of_false (by simp) fun h => hd h.symm
  vouched := by
    have hget := Table.get?_insert_self (.empty : Table DeviceRecord.deviceId)
      (DeviceRecord.fromVouch ((foundingSelf profile now enrolled.deviceId).subject
        (S.E.keyToBase64 (S.E.verifyingKey (S.identityKey seeds)))) enrolled.deviceId)
    exact congrArg (Option.map DeviceRecord.introducedBy) hget
  identified := by
    have hget := Table.get?_insert_self (.empty : Table DeviceRecord.deviceId)
      (DeviceRecord.fromVouch ((foundingSelf profile now enrolled.deviceId).subject
        (S.E.keyToBase64 (S.E.verifyingKey (S.identityKey seeds)))) enrolled.deviceId)
    refine (congrArg (Option.bind · fun record =>
      if record.isActive then S.crypto.fromBase64 record.identityPk else none) hget).trans ?_
    exact S.E.keyFromBase64_keyToBase64 _
  ledgered := rfl
  strangers peer := by
    show (Table.empty : Table (PeerState.deviceId (O := S.vodozemac.toOlm))).contains peer = false
    rw [Table.contains, Table.get?_empty]
    rfl
  unconnected := by
    show (Table.empty : Table ChannelRecord.channel).values.map _ = []
    rw [Table.values_empty]
    rfl
  idle := rfl

variable {S}

/-- What comes after the registration: no bundle and nothing sent, or one upload, and the device if it is taken. -/
theorem found_cases (enrolled : Enrolled) (w : σ) (tape : SundHttp.Tape) :
    let r := S.taped.found address profile seeds now enrolled (w, tape)
    (∃ error, S.Unsent seeds now enrolled w error ∧ r.1 = .error error ∧ r.2.2 = tape) ∨
    ∃ signed account bytes stamp, S.firstBundle seeds now enrolled w = .ok signed ∧ signed.encode = .ok bytes ∧
      S.BundleOf seeds enrolled.deviceId account signed ∧
      r.2.2 = ⟨tape.requests ++ [S.upload seeds enrolled.deviceId bytes stamp], tape.stamps ++ [stamp]⟩ ∧
      match (S.publishBundle enrolled.deviceId (S.deviceKey seeds) (S.newAccount w).2 bytes).1 with
      | .error error => r.1 = .error (.ofSund error)
      | .ok () => r.1 = .ok (S.taped.handed address profile seeds now enrolled account) := by
  intro r
  have hr : r = S.taped.found address profile seeds now enrolled (w, tape) := rfl
  have hnew : S.taped.newAccount (w, tape) = ((S.newAccount w).1, (S.newAccount w).2, tape) := rfl
  unfold found at hr
  rw [hnew] at hr
  simp only [] at hr
  split at hr
  next error _ hpublish =>
    exact Or.inl ⟨.session error.toText, .unsigned (congrArg Prod.fst hpublish), by rw [hr], by rw [hr]⟩
  next signed sessions hpublish =>
  have hfirst : S.firstBundle seeds now enrolled w = .ok signed := congrArg Prod.fst hpublish
  obtain ⟨account, hsessions, hbundle⟩ : ∃ account, sessions = ⟨S.vodozemac.markKeysAsPublished account, .empty⟩ ∧
      S.BundleOf seeds enrolled.deviceId account signed := by
    rcases S.publishBundle_fresh seeds enrolled.deviceId (Rfc3339.format now) (S.newAccount w).1 with
      ⟨error, herror⟩ | ⟨signed', account, hpublished, hbundle⟩
    · have hnone := (congrArg Prod.fst hpublish).symm.trans herror
      cases hnone
    · have hsame := hpublish.symm.trans hpublished
      cases hsame
      exact ⟨account, rfl, hbundle⟩
  split at hr
  next detail hencode => exact Or.inl ⟨.session detail, .oversize hfirst hencode, by rw [hr], by rw [hr]⟩
  next bytes hencode =>
  have hupload := S.signedCall_taped (S.newAccount w).2 tape (.publishBundle bytes) (S.deviceKey seeds)
    (some enrolled.deviceId) (fun _ => .ok ()) rfl
  refine Or.inr ⟨signed, account, bytes, (S.stamp (S.newAccount w).2).1, hfirst, hencode, hbundle, ?_⟩
  change S.taped.publishBundle enrolled.deviceId (S.deviceKey seeds) _ bytes =
    ((S.publishBundle enrolled.deviceId (S.deviceKey seeds) (S.newAccount w).2 bytes).1, _) at hupload
  split at hr
  next error w' hresult =>
    obtain ⟨hfailed, hworld⟩ := Prod.mk.inj (hupload.symm.trans hresult)
    rw [hr, hfailed]
    exact ⟨congrArg Prod.snd hworld.symm, rfl⟩
  next w' hresult =>
    obtain ⟨hdone, hworld⟩ := Prod.mk.inj (hupload.symm.trans hresult)
    rw [hr, hdone, hsessions]
    exact ⟨congrArg Prod.snd hworld.symm, rfl⟩

/-- Over every server: the invitation is presented once, in a request nobody signs. If it is not answered, or the bundle
    is not signed or is too long, there is no other request and no device. Otherwise the one other request is the
    upload, signed as the device just named, of a bundle that is this device's own; and the device is handed back
    exactly if the upload is taken. -/
theorem enrolment (address : ServerAddress) (invitation : String) (profile : Profile) (seeds : Seeds) (now : SystemTime)
    (w : σ) :
    let r := S.taped.enrollWith address invitation profile seeds now (w, ⟨[], []⟩)
    let registered := S.register w (S.enrollment invitation seeds)
    let registration := S.registration (S.enrollment invitation seeds)
    (∃ error, registered.1 = .error error ∧ r.1 = .error (.ofSund error) ∧ r.2.2 = ⟨[registration], []⟩) ∨
    ∃ enrolled, registered.1 = .ok enrolled ∧
      ((∃ error, S.Unsent seeds now enrolled registered.2 error ∧ r.1 = .error error ∧ r.2.2 = ⟨[registration], []⟩) ∨
      ∃ signed account bytes stamp, S.firstBundle seeds now enrolled registered.2 = .ok signed ∧
        signed.encode = .ok bytes ∧ S.BundleOf seeds enrolled.deviceId account signed ∧
        r.2.2 = ⟨[registration, S.upload seeds enrolled.deviceId bytes stamp], [stamp]⟩ ∧
        match (S.publishBundle enrolled.deviceId (S.deviceKey seeds) (S.newAccount registered.2).2 bytes).1 with
        | .error error => r.1 = .error (.ofSund error)
        | .ok () => ∃ applied, r.1 = .ok applied ∧ S.taped.HandedBack address seeds enrolled applied ∧
            applied.outcome.sessions.account = S.vodozemac.markKeysAsPublished account) := by
  intro r registered registration
  have hregister : S.taped.register (w, ⟨[], []⟩) (S.taped.enrollment invitation seeds) =
      (registered.1, registered.2, ⟨[registration], []⟩) := S.register_taped w ⟨[], []⟩ _
  have hr : r = S.taped.enrollWith address invitation profile seeds now (w, ⟨[], []⟩) := rfl
  unfold enrollWith at hr
  rw [hregister] at hr
  cases hanswer : registered.1 with
  | error error =>
    rw [hanswer] at hr
    exact Or.inl ⟨error, rfl, by rw [hr], by rw [hr]⟩
  | ok enrolled =>
    rw [hanswer] at hr
    simp only [] at hr
    refine Or.inr ⟨enrolled, rfl, ?_⟩
    rcases found_cases address profile seeds now enrolled registered.2 ⟨[registration], []⟩ with
      hunsent | ⟨signed, account, bytes, stamp, hfirst, hencode, hbundle, htape, hend⟩
    · rw [← hr] at hunsent
      exact Or.inl hunsent
    · rw [← hr] at htape hend
      refine Or.inr ⟨signed, account, bytes, stamp, hfirst, hencode, hbundle, htape, ?_⟩
      cases hupload : (S.publishBundle enrolled.deviceId (S.deviceKey seeds) (S.newAccount registered.2).2 bytes).1 with
      | error error =>
        rw [hupload] at hend
        exact hend
      | ok _ =>
        rw [hupload] at hend
        exact ⟨_, hend, S.taped.handedBack_handed address profile seeds now enrolled account, rfl⟩

variable {address invitation profile seeds now}

theorem enrollWith_ok {w w' : σ} {applied : Applied (Device S)}
    (h : S.enrollWith address invitation profile seeds now w = (.ok applied, w')) :
    ∃ enrolled account, applied = S.handed address profile seeds now enrolled account := by
  unfold enrollWith at h
  split at h
  · cases h
  next enrolled w₁ _ =>
    unfold found at h
    simp only [] at h
    split at h
    · cases h
    next signed sessions hpublish =>
      split at h
      · cases h
      split at h
      · cases h
      cases h
      rcases S.publishBundle_fresh seeds enrolled.deviceId (Rfc3339.format now) (S.newAccount w₁).1 with
        ⟨error, herror⟩ | ⟨signed', account, hpublished, -⟩
      · rw [hpublish] at herror
        cases herror
      · cases hpublish.symm.trans hpublished
        exact ⟨enrolled, account, rfl⟩

end enrolment

end Stack

/-! ## A device's life -/

namespace Device

variable {σ : Type} {S : Stack σ} {identitySeed : Seed}

/-- A device under this identity seed: enrolled, used, closed and reopened. -/
inductive Lived (S : Stack σ) (identitySeed : Seed) : Device S × σ → Prop
  | enrolled (address : ServerAddress) (invitation : String) (profile : Profile) (deviceSeed : Seed) (now : SystemTime)
      {w w' : σ} {applied : Applied (Device S)} :
      S.enrollWith address invitation profile ⟨deviceSeed, identitySeed⟩ now w = (.ok applied, w') →
      Lived S identitySeed (applied.outcome, w')
  | used (op : Op S) {s : Device S × σ} : Lived S identitySeed s → Lived S identitySeed (step s op)
  | reopened (deviceSeed : Seed) (w' : σ) {d d' : Device S} {w : σ} : Lived S identitySeed (d, w) → d.state.InRange →
      openWith S d.snapshot ⟨deviceSeed, identitySeed⟩ = .ok d' → Lived S identitySeed (d', w')

theorem Lived.sound {s : Device S × σ} (h : Lived S identitySeed s) : Sound identitySeed s.1 := by
  induction h with
  | enrolled address invitation profile deviceSeed now henrolled =>
    obtain ⟨enrolled, account, rfl⟩ := Stack.enrollWith_ok henrolled
    exact (S.handedBack_handed address profile ⟨deviceSeed, identitySeed⟩ now enrolled account).sound
  | used op _ ih => exact ih.step op
  | reopened deviceSeed _ _ hrange hopened ih =>
    rename_i d d' _ _
    rw [openWith_snapshot ih ((ClientState.fits_iff _).mpr hrange)] at hopened
    cases hparse : ServerAddress.parse d.address.display with
    | error error =>
      rw [hparse] at hopened
      cases hopened
    | ok address =>
      rw [hparse] at hopened
      cases hopened
      exact { ih with }

theorem Lived.run {s : Device S × σ} (h : Lived S identitySeed s) (ops : List (Op S)) :
    Lived S identitySeed (Trace.run step s ops) :=
  Trace.inv_run (P := fun _ _ => True) (fun _ op _ hs => hs.used op) h (Trace.eachStep_true _ _)

/-- At every point of its life, whatever was done with it and however often it was reopened, a device's blob opens under
    its identity seed as the device, but for the key it signs requests with, exactly if its address reads back from its
    text. Under an identity with another public key it does not open. -/
theorem reopened_run {s : Device S × σ} (h : Lived S identitySeed s) (hrange : s.1.state.InRange) :
    (∀ deviceSeed, openWith S s.1.snapshot ⟨deviceSeed, identitySeed⟩ =
        .ok { s.1 with deviceKey := S.fromSeed deviceSeed } ↔
      ServerAddress.parse s.1.address.display = .ok s.1.address) ∧
    ∀ other d', S.E.keyToBase64 (S.E.verifyingKey (S.identityKey other)) ≠
        S.E.keyToBase64 (S.E.verifyingKey (S.fromSeed identitySeed)) → openWith S s.1.snapshot other ≠ .ok d' := by
  have hfits := (ClientState.fits_iff _).mpr hrange
  constructor
  · intro deviceSeed
    rw [openWith_snapshot h.sound hfits]
    cases ServerAddress.parse s.1.address.display with
    | error error => exact iff_of_false (fun h => by cases h) fun h => by cases h
    | ok address =>
      constructor
      · intro hopened
        exact congrArg Except.ok (Device.mk.inj (Except.ok.inj hopened)).1
      · intro haddress
        cases haddress
        rfl
  · intro other d' hother hopened
    unfold openWith snapshot at hopened
    rw [ClientState.decode_encode S.readsState hfits] at hopened
    have hforeign : SessionManager.importStore S.E S.pickling s.1.state.sessions
        (Beacon.publisher S.E S.ryu s.1.state.deviceId (S.identityKey other)) (S.pickleKey other) =
          .error (.wrongIdentity (S.E.keyToBase64 (S.E.verifyingKey (S.identityKey other)))
            (S.E.keyToBase64 (S.E.verifyingKey s.1.identity))) := by
      have hversion : ¬ s.1.state.sessions.v ≠ storeVersion := not_not_intro rfl
      have hdevice : ¬ s.1.state.sessions.deviceId ≠
          (Beacon.publisher S.E S.ryu s.1.state.deviceId (S.identityKey other)).deviceId := not_not_intro rfl
      have hkey : s.1.state.sessions.identityPk ≠
          (Beacon.publisher S.E S.ryu s.1.state.deviceId (S.identityKey other)).identityPk := by
        rw [← h.sound.identity] at hother
        exact hother.symm
      unfold SessionManager.importStore
      rw [if_neg hversion, if_neg hdevice, if_pos hkey]
      rfl
    change ((ServerAddress.parse s.1.address.display).mapError AppError.ofAddress >>= fun address =>
      restore S address s.1.state other) = _ at hopened
    cases hparse : ServerAddress.parse s.1.address.display with
    | error error =>
      rw [hparse] at hopened
      cases hopened
    | ok address =>
      rw [hparse] at hopened
      change restore S address s.1.state other = _ at hopened
      unfold restore at hopened
      simp only [hforeign] at hopened
      cases hopened

/-- A stack over a server that takes everything, and names the device and its account. -/
noncomputable def obliging : Stack Unit where
  E := Ed25519.plain
  sha256 bytes := Vector.ofFn fun i => bytes.getD i 0
  base64 := latin1
  decode text := some (ofLatin1 text)
  fromSeed seed := (seed[0] : UInt8)
  publicKey (key : UInt8) := Vector.replicate 32 key
  execute w _ := (.ok ⟨201, []⟩, w)
  stamp w := (⟨"2026-07-26T10:00:00Z", "n-1"⟩, w)
  now _ := ⟨0⟩
  readError _ := none
  asText _ := ""
  readMessageId _ := .error "EOF while parsing a value"
  readMessages _ := .error "EOF while parsing a value"
  readDeleted _ := .error "EOF while parsing a value"
  readQueueIds _ := .ok ⟨"rcp_1", "snd_1"⟩
  readEnrolled _ := .ok ⟨"dev_A", "acc_1"⟩
  readDevices _ := .error "EOF while parsing a value"
  vodozemac := SessionManager.letters
  pickling := SessionManager.letterPickles
  newAccount w := ((2 : Nat), w)
  ryu _ := []
  readState := ClientState.form.reader
  readsState := ClientState.reads_reader

/-- The device learns a peer's keys and opens a session with it, opens a channel, and queues a message. -/
noncomputable def firstDay : List (Op obliging) :=
  [.session (.learnPeer SessionManager.bundleOfA "a" (7 : UInt8)), .session (.establishOutbound "a"),
   .transport (.declare "dev_A:a" (.replicate 32 5)), .transport (.openChannel "dev_A:a"),
   .enqueue ⟨"dev_A:a", "a", [5], .normal, none, none, none⟩ ⟨0⟩]

/-- One more message, after the device was reopened. -/
noncomputable def nextDay : Op obliging := .enqueue ⟨"dev_A:a", "a", [6], .normal, none, none, none⟩ ⟨1⟩

/-- The session with the peer, the channel under its queue's seed, and both messages. -/
def Kept (d : Device obliging) : Prop :=
  d.sessions.hasSession "a" = true ∧ d.transport.drains "dev_A:a" = .ok ("rcp_1", ⟨.replicate 32 5⟩) ∧
    d.outbox.entries.map Entry.id = [0, 1]

noncomputable instance (d : Device obliging) : Decidable (Kept d) := inferInstanceAs (Decidable (_ ∧ _ ∧ _))

/-- Enrolled, used, closed and reopened, and used again. -/
theorem reopened_as_itself :
    ∃ s : Device obliging × Unit, Lived obliging (Vector.replicate 32 7) s ∧ Kept s.1 ∧
      openWith obliging s.1.snapshot ⟨Vector.replicate 32 2, Vector.replicate 32 7⟩ =
        .ok { s.1 with deviceKey := obliging.fromSeed (Vector.replicate 32 2) } := by
  let address : ServerAddress := ⟨.webPki, "beacon.lan", 443⟩
  let seeds : Seeds := ⟨Vector.replicate 32 1, Vector.replicate 32 7⟩
  let otherDay (s : Device obliging × Unit) : Device obliging × Unit :=
    step ({ s.1 with deviceKey := obliging.fromSeed (Vector.replicate 32 9) }, ()) nextDay
  have haddress : ServerAddress.parse address.display = .ok address := by decide +kernel
  have hused : (match (obliging.enrollWith address "invitation" ⟨"Ana", "family", "phone"⟩ seeds ⟨0⟩ ()).1 with
      | .ok applied =>
        let s := Trace.run step (applied.outcome, ()) firstDay
        decide (s.1.state.InRange ∧ (otherDay s).1.state.InRange ∧ Kept (otherDay s).1)
      | .error _ => false) = true := by decide +kernel
  rcases henrolled : obliging.enrollWith address "invitation" ⟨"Ana", "family", "phone"⟩ seeds ⟨0⟩ () with
    ⟨error | applied, w⟩
  · rw [henrolled] at hused
    cases hused
  rw [henrolled] at hused
  obtain ⟨hrange, hagain, hkept⟩ := of_decide_eq_true hused
  have hlived := (Lived.enrolled _ _ _ _ _ henrolled).run firstDay
  obtain ⟨enrolled, account, rfl⟩ := Stack.enrollWith_ok henrolled
  have hreopened := ((reopened_run hlived hrange).1 (Vector.replicate 32 9)).mpr haddress
  have hlived' := (Lived.reopened _ () hlived hrange hreopened).used nextDay
  exact ⟨_, hlived', hkept, ((reopened_run hlived' hagain).1 _).mpr haddress⟩

end Device

end Beacon
