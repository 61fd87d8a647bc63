/-
  Beacon.Client.Device — a device as one object (`beacon_client::Client`, in full): its
  membership, its sessions, its transport and its outbox, under one pair of seeds; and the
  way it is closed and reopened.

  Each layer is what its own modules model. A step of a device is a call of one of them, or a
  pass of the outbox over the session manager and the transport.
  - `Sound.step`: what holds the layers of a device together, every call keeps.
  - `openWith_snapshot`: what opening a device's own blob gives.
-/

import Beacon.Address.Display
import Beacon.Client
import Beacon.Client.State
import Beacon.Outbox.Runs
import Beacon.Session.Attribution

namespace Beacon

open Lib

/-! ## Seeds -/

structure Seeds where
  device : Seed
  identity : Seed

/-- `PICKLE_DOMAIN`. -/
def pickleDomain : Bytes := utf8 "family-beacon/session-pickle/v1".toList ++ [0]

/-- What a device is built over, beside its connection to the server. -/
structure Stack (σ : Type) extends SundHttp σ where
  vodozemac : Vodozemac
  pickling : Pickling vodozemac
  /-- `Account::new`. -/
  newAccount : σ → vodozemac.Account × σ
  ryu : UInt64 → List Char
  /-- `serde_json::from_slice`, to a state. -/
  readState : Bytes → Except String ClientState
  readsState : ClientState.Reads readState

namespace Stack

variable {σ : Type} (S : Stack σ)

/-- What the roster asks of the same keys. -/
def crypto : Crypto := Crypto.ofEd25519 S.E S.ryu fun bytes => .ofList ((S.sha256 bytes).toList.flatMap hexByte)

def deviceKey (seeds : Seeds) : S.E.SigningKey := S.fromSeed seeds.device

def identityKey (seeds : Seeds) : S.E.SigningKey := S.fromSeed seeds.identity

/-- `Seeds::pickle_key`. -/
def pickleKey (seeds : Seeds) : Bytes := (S.sha256 (pickleDomain ++ seeds.identity.toList)).toList

end Stack

/-! ## Errors shown -/

def AddressError.toText : AddressError → String
  | unknownScheme => "not a sund:// or sund+webpki:// address"
  | invalidHost => "invalid host"
  | invalidPort => "missing or invalid port"
  | invalidFingerprint => "a sund:// address needs a #fingerprint of 64 lowercase hex characters"
  | unexpectedFingerprint => "a sund+webpki:// address must not carry a fragment"
  | ipLiteralNotAllowed => "a sund+webpki:// address must name a host, not an IP"
  | trailingGarbage => "a server address is a host and port, nothing more"

def StoreError.toText : StoreError → String
  | unsupportedVersion found => "unsupported store version " ++ toString found
  | wrongDevice expected found => "store belongs to \x60" ++ found ++ "\x60, restoring as \x60" ++ expected ++ "\x60"
  | wrongIdentity expected found =>
    "store was written under identity \x60" ++ found ++ "\x60, restoring with \x60" ++ expected ++ "\x60"
  | undecryptable detail => "could not decrypt store: " ++ detail
  | badKeyMaterial detail => "bad stored key material: " ++ detail

def SnapshotError.toText : SnapshotError → String
  | unsupportedVersion found => "unsupported outbox version " ++ toString found

def AppError.ofAddress (error : AddressError) : AppError := .address error.toText

def AppError.ofStore (error : StoreError) : AppError := .session error.toText

/-! ## The device -/

/-- The session manager and the transport's client hold the device's id each; it is one. -/
structure Device {σ : Type} (S : Stack σ) where
  address : ServerAddress
  accountId : String
  deviceId : String
  deviceKey : S.E.SigningKey
  /-- The session manager's. -/
  identity : S.E.SigningKey
  roster : Roster
  sessions : SessionManager S.vodozemac.toOlm
  transport : SundTransport
  outbox : Outbox
  pickleKey : Bytes

namespace Device

variable {σ : Type} {S : Stack σ}

def publisher (d : Device S) : Publisher := Beacon.publisher S.E S.ryu d.deviceId d.identity

def state (d : Device S) : ClientState where
  deviceId := d.deviceId
  accountId := d.accountId
  server := d.address.display
  roster := d.roster.exportSnapshot
  sessions := d.sessions.exportStore S.pickling d.publisher d.pickleKey
  channels := d.transport.exportRecords
  outbox := d.outbox.exportSnapshot

/-- `Client::snapshot`; the state holds nothing that is not written. -/
def snapshot (d : Device S) : Bytes := d.state.encode

variable (S) in
/-- `Client::restore`. -/
def restore (address : ServerAddress) (state : ClientState) (seeds : Seeds) : Except AppError (Device S) := do
  let identity := S.identityKey seeds
  let pickleKey := S.pickleKey seeds
  let sessions ← (SessionManager.importStore S.E S.pickling state.sessions
    (Beacon.publisher S.E S.ryu state.deviceId identity) pickleKey).mapError AppError.ofStore
  let roster ← (Roster.importSnapshot state.roster state.deviceId).mapError fun error => .state error.toText
  if (roster.devices.get? state.deviceId).isNone then
    throw (.state ("stored roster carries no record for \x60" ++ state.deviceId ++ "\x60"))
  let outbox ← (Outbox.importSnapshot state.outbox).mapError fun error => .state error.toText
  return {
    address
    accountId := state.accountId
    deviceId := state.deviceId
    deviceKey := S.deviceKey seeds
    identity
    roster
    sessions
    transport := SundTransport.new.importRecords state.channels
    outbox
    pickleKey }

variable (S) in
/-- `Client::open_with`: the address is the stored one. -/
def openWith (blob : Bytes) (seeds : Seeds) : Except AppError (Device S) := do
  let state ← ClientState.decode S.readState blob
  let address ← (ServerAddress.parse state.server).mapError AppError.ofAddress
  restore S address state seeds

/-! ## A device's life -/

/-- A call of one of the layers. -/
inductive Op (S : Stack σ) where
  | roster (op : Roster.Op S.crypto)
  | session (call : SessionManager.SessionCall S.E)
  | transport (act : SundTransport.Act)
  | enqueue (message : Enqueue) (now : SystemTime)
  | drain (now : SystemTime) (budget : Nat)
  | forgetPeer (peer : String)

/-- The two ports of an outbox pass: the session manager, and the transport of this device. -/
def ports (d : Device S) : Ports (SessionManager S.vodozemac.toOlm × SundTransport × σ) :=
  .over (SundTransport.send (S.server d.deviceId d.deviceKey))

def drained (d : Device S) (w : σ) (now : SystemTime) (budget : Nat) :
    Drained (SessionManager S.vodozemac.toOlm × SundTransport × σ) :=
  d.outbox.drain d.ports (d.sessions, d.transport, w) now budget

def step (s : Device S × σ) : Op S → Device S × σ
  | .roster op => ({ s.1 with roster := s.1.roster.step S.crypto op }, s.2)
  | .session call => ({ s.1 with sessions := SessionManager.managerCall S.ryu S.pickling s.1.publisher s.1.sessions call }, s.2)
  | .transport act =>
    let acted := SundTransport.act S.toSundHttp s.1.deviceId s.1.deviceKey (s.1.transport, s.2) act
    ({ s.1 with transport := acted.1 }, acted.2)
  | .enqueue message now => ({ s.1 with outbox := (s.1.outbox.enqueue message now).1 }, s.2)
  | .drain now budget =>
    let drained := s.1.drained s.2 now budget
    ({ s.1 with outbox := drained.outbox, sessions := drained.world.1, transport := drained.world.2.1 },
      drained.world.2.2)
  | .forgetPeer peer => ({ s.1 with outbox := (s.1.outbox.forgetPeer peer).1 }, s.2)

end Device

/-! ## What a step keeps -/

namespace SessionManager

variable {E : Ed25519} {V : Vodozemac} {m : SessionManager V.toOlm}

theorem identified_set {p : String} {state : PeerState V.toOlm} (h : Identified E m) (hget : m.peers.get? p = some state)
    (account : V.Account) (session : Option V.Session) :
    Identified E ⟨account, m.peers.insert { state with session }⟩ := by
  intro peer state' hget'
  have hinserted : (m.peers.insert { state with session }).get? peer = some state' := hget'
  rw [Table.get?_insert] at hinserted
  split at hinserted
  · cases hinserted
    exact h p state hget
  · exact h peer state' hinserted

theorem identified_of_peers {m' : SessionManager V.toOlm} (h : Identified E m) (hpeers : m'.peers = m.peers) :
    Identified E m' := by
  intro peer state hget
  exact h peer state (hpeers ▸ hget)

theorem identified_establishOutbound (h : Identified E m) (p : String) : Identified E (m.establishOutbound p).2 := by
  unfold establishOutbound
  split
  · exact h
  next state hget =>
    split
    · exact identified_of_peers h rfl
    next session account _ => exact identified_set h hget account (some session)

theorem identified_encryptInSession (h : Identified E m) (p : String) (plaintext : Bytes) :
    Identified E (m.encryptInSession p plaintext).2 := by
  unfold encryptInSession
  split
  · exact h
  next state hget =>
    split
    · exact h
    · split
      next session _ => exact identified_set h hget m.account (some session)
      next session _ => exact identified_set h hget m.account (some session)

theorem identified_encrypt (h : Identified E m) (p : String) (plaintext : Bytes) :
    Identified E (m.encrypt p plaintext).2 := by
  unfold encrypt
  split
  · exact identified_encryptInSession h p plaintext
  · have hestablished := identified_establishOutbound h p
    split
    next heq => rwa [heq] at hestablished
    next heq =>
      rw [heq] at hestablished
      exact identified_encryptInSession hestablished p plaintext

theorem identified_decrypt (h : Identified E m) (p : String) (frame : Bytes) : Identified E (m.decrypt p frame).2 := by
  have hcases := decrypt_cases m p frame
  generalize m.decrypt p frame = result at hcases ⊢
  cases hcases with
  | unread | noSession => exact h
  | read state _ _ session' _ hget => exact identified_set h hget m.account (some session')
  | lost state _ _ session' _ hget => exact identified_set h hget m.account (some session')
  | opened state _ _ session _ account hget => exact identified_set h hget account (some session)
  | refused => exact identified_of_peers h rfl

theorem identified_managerCall {ryu : UInt64 → List Char} {P : Pickling V} {me : Publisher} (h : Identified E m)
    (call : SessionCall E) : Identified E (managerCall ryu P me m call) := by
  cases call with
  | publishBundle publishedAt => exact identified_of_peers h (peers_publishBundle m publishedAt)
  | rotateFallbackKey publishedAt =>
    exact identified_of_peers h
      (peers_publishBundle { m with account := V.generateFallbackKey m.account } publishedAt)
  | forgetPreviousFallbackKey => exact identified_of_peers h rfl
  | learnPeer signed p identity =>
    rw [managerCall]
    cases hverify : signed.verify E ryu P.toKeyTexts p identity with
    | error _ => exact h
    | ok keys =>
      intro peer state hget
      rcases learnPeer_get? hget with ⟨-, hkeys, -⟩ | hget
      · exact ⟨identity, hkeys ▸ (SignedBundle.verify_ok hverify).identityPk⟩
      · exact h peer state hget
  | forgetPeer p =>
    intro peer state hget
    have herased : (m.peers.erase p).get? peer = some state := hget
    rw [Table.get?_erase] at herased
    split at herased
    · cases herased
    · exact h peer state herased
  | establishOutbound p => exact identified_establishOutbound h p
  | encrypt p plaintext => exact identified_encrypt h p plaintext
  | decrypt p frame => exact identified_decrypt h p frame
  | exportStore _ => exact h
  | importStore _ => exact h

end SessionManager

namespace Outbox

variable {ω : Type} {P : Ports ω} {I : ω → Prop}

theorem attempts_keeps (hencrypt : ∀ w peer plaintext, I w → I (P.encrypt w peer plaintext).2)
    (hsend : ∀ w channel message, I w → I (P.send w channel message).2) (o : Outbox) {w : ω} (h : I w)
    (now budget : Nat) : I (o.attempts P w now budget).world := by
  have hopening : I (o.opening w now).world := h
  show I (Trace.run (attempt P now) (o.opening w now) ((o.expire now).1.due now budget)).world
  refine Trace.inv_run (P := fun _ _ => True) (Q := fun s : Pass ω => I s.world) ?_ hopening
    (Trace.eachStep_true _ _)
  intro s e _ hs
  have hsealed := hencrypt s.world e.peer e.plaintext hs
  have hsent := fun frame => hsend (P.encrypt s.world e.peer e.plaintext).2 e.channel (e.outbound frame) hsealed
  have hcases := attempt_cases P now s e
  generalize attempt P now s e = s' at hcases ⊢
  cases hcases with
  | skipped => exact hs
  | unsealed _ _ _ he => rwa [he] at hsealed
  | sent frame _ _ _ _ he hw =>
    have hworld := hsent frame
    rwa [he, hw] at hworld
  | dropped frame _ _ _ _ _ he hw =>
    have hworld := hsent frame
    rwa [he, hw] at hworld
  | refused frame _ _ _ _ he hw =>
    have hworld := hsent frame
    rwa [he, hw] at hworld

/-- What both ports keep of the world, a pass keeps. -/
theorem drain_keeps (hencrypt : ∀ w peer plaintext, I w → I (P.encrypt w peer plaintext).2)
    (hsend : ∀ w channel message, I w → I (P.send w channel message).2) (o : Outbox) {w : ω} (h : I w)
    (now : SystemTime) (budget : Nat) : I (o.drain P w now budget).world := by
  have hworld : (o.drain P w now budget).world = (o.attempts P w now.unixSeconds budget).world :=
    (swept _ _ (dead_nodup _)).world
  rw [hworld]
  exact attempts_keeps hencrypt hsend o h _ _

end Outbox

namespace Device

variable {σ : Type} {S : Stack σ} {identitySeed : Seed}

/-- A device under this identity seed, whose layers fit together. -/
structure Sound (identitySeed : Seed) (d : Device S) : Prop where
  identity : d.identity = S.fromSeed identitySeed
  pickleKey : d.pickleKey = S.pickleKey ⟨identitySeed, identitySeed⟩
  selfId : d.roster.selfId = d.deviceId
  reachable : Roster.Reachable S.crypto d.roster
  identified : SessionManager.Identified S.E d.sessions

theorem Sound.step {s : Device S × σ} (h : Sound identitySeed s.1) (op : Op S) : Sound identitySeed (step s op).1 := by
  cases op with
  | roster op => exact { h with selfId := (Roster.step_selfId S.crypto _ op).trans h.selfId, reachable := .step op h.reachable }
  | session call => exact { h with identified := SessionManager.identified_managerCall h.identified call }
  | transport act => exact { h with }
  | enqueue message now => exact { h with }
  | drain now budget =>
    have hdrained : SessionManager.Identified S.E (s.1.drained s.2 now budget).world.1 := by
      refine Outbox.drain_keeps (P := s.1.ports) (I := fun w => SessionManager.Identified S.E w.1) ?_ ?_ s.1.outbox
        (w := (s.1.sessions, s.1.transport, s.2)) h.identified now budget
      · exact fun w peer plaintext hw => SessionManager.identified_encrypt hw peer plaintext
      · exact fun _ _ _ hw => hw
    exact { h with identified := hdrained }
  | forgetPeer peer => exact { h with }

/-! ## Closed and reopened -/

theorem import_export (t : SundTransport) : SundTransport.new.importRecords t.exportRecords = t := by
  unfold SundTransport.importRecords SundTransport.exportRecords
  exact congrArg SundTransport.mk (Table.ofList_values t.channels)

/-- A device's blob opens as the device at the address that its stored text is read as. -/
theorem openWith_snapshot {d : Device S} (h : Sound identitySeed d) (hfits : ClientState.form.Fits d.state)
    (deviceSeed : Seed) : openWith S d.snapshot ⟨deviceSeed, identitySeed⟩ =
      ((ServerAddress.parse d.address.display).mapError AppError.ofAddress).map fun address =>
        { d with address, deviceKey := S.fromSeed deviceSeed } := by
  have hsessions : SessionManager.importStore S.E S.pickling d.state.sessions
      (Beacon.publisher S.E S.ryu d.state.deviceId (S.identityKey ⟨deviceSeed, identitySeed⟩))
      (S.pickleKey ⟨deviceSeed, identitySeed⟩) = .ok d.sessions := by
    have hexported := SessionManager.importStore_exportStore (P := S.pickling) h.identified d.publisher d.pickleKey
    rw [h.pickleKey, publisher, h.identity] at hexported
    rw [state, publisher, h.pickleKey, h.identity]
    exact hexported
  have hroster : Roster.importSnapshot d.state.roster d.state.deviceId = .ok d.roster := by
    rw [show d.state.deviceId = d.roster.selfId from h.selfId.symm]
    exact Roster.import_export d.roster
  obtain ⟨own, hown⟩ := Table.contains_iff.mp (h.reachable.contains_self S.crypto)
  rw [h.selfId] at hown
  have hown : (d.roster.devices.get? d.state.deviceId).isNone = false := by
    rw [show d.state.deviceId = d.deviceId from rfl, hown]
    rfl
  have houtbox : Outbox.importSnapshot d.state.outbox = .ok d.outbox := rfl
  unfold openWith snapshot
  rw [ClientState.decode_encode S.readsState hfits]
  show ((ServerAddress.parse d.address.display).mapError AppError.ofAddress >>= fun address =>
    restore S address d.state ⟨deviceSeed, identitySeed⟩) = _
  cases ServerAddress.parse d.address.display with
  | error error => rfl
  | ok address =>
    show restore S address d.state ⟨deviceSeed, identitySeed⟩ = .ok _
    unfold restore
    simp only [hsessions, hroster, houtbox, Except.mapError, bind, Except.bind, pure, Except.pure, hown]
    have htransport := import_export d.transport
    have hidentity := h.identity
    have hpickle := h.pickleKey
    cases d
    simp_all [state, Stack.deviceKey, Stack.identityKey, Stack.pickleKey]

end Device

end Beacon
