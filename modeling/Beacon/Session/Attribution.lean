/-
  Beacon.Session.Attribution — whose session it is that a frame is read in.

  An Olm session is with one Curve25519 identity key, the one it was created with
  (`Vodozemac.Authenticates`). The session manager creates sessions under the key it holds
  for the peer only, drops a peer's session when that key changes, and stores and restores
  both together.
  - `keeps_managerCall`: a call that learns no bundle keeps every peer's keys, and gives it
    no session but one with its key.
  - `session_is_with_verified_key`: in every run a session is with the key held for its peer,
    and a decrypted frame was sealed under the key of a bundle verified for the device that
    it is attributed to.
-/

import Beacon.Session.Store
import Beacon.Session.Ideal
import Beacon.Lib.Trace

namespace Beacon

open Lib

/-- Olm as a session's owner relies on it: `remote` is the identity key a session was created
    with, `sealer` the one a message was sealed under. -/
structure Vodozemac.Authenticates (V : Vodozemac) (remote : V.Session → V.PublicKey)
    (sealer : V.Message → V.PublicKey) : Prop where
  outbound : ∀ account identity fallback session,
    (V.createOutboundSession account identity fallback).1 = .ok session → remote session = identity
  inbound : ∀ account identity message session plaintext,
    (V.createInboundSession account identity message).1 = .ok (session, plaintext) →
      remote session = identity ∧ sealer message = identity
  encrypt : ∀ session plaintext, remote (V.encrypt session plaintext).2 = remote session
  decrypt : ∀ session message, remote (V.decrypt session message).2 = remote session
  reads : ∀ session message plaintext, (V.decrypt session message).1 = .ok plaintext → sealer message = remote session

namespace SessionManager

/-! ## Runs -/

/-- `learnPeer` is called with what `verify` gives. `importStore` reads back one of the stores
    written so far, not always the last, under the pickle key it was written under. -/
inductive SessionCall (E : Ed25519) where
  | publishBundle (publishedAt : String)
  | rotateFallbackKey (publishedAt : String)
  | forgetPreviousFallbackKey
  | learnPeer (signed : SignedBundle) (peer : String) (identity : E.VerifyingKey)
  | forgetPeer (peer : String)
  | establishOutbound (peer : String)
  | encrypt (peer : String) (plaintext : Bytes)
  | decrypt (peer : String) (frame : Bytes)
  | exportStore (pickleKey : Bytes)
  | importStore (index : Nat)

/-- A manager, and the stores written of it with the pickle key of each. -/
structure Stored (V : Vodozemac) where
  manager : SessionManager V.toOlm
  stores : List (SessionStore × Bytes)

section

variable {E : Ed25519} (ryu : UInt64 → List Char) {V : Vodozemac} (P : Pickling V) (me : Publisher)

def managerCall (m : SessionManager V.toOlm) : SessionCall E → SessionManager V.toOlm
  | .publishBundle publishedAt => (m.publishBundle me publishedAt).2
  | .rotateFallbackKey publishedAt => (m.rotateFallbackKey me publishedAt).2
  | .forgetPreviousFallbackKey => m.forgetPreviousFallbackKey.2
  | .learnPeer signed peer identity =>
    match signed.verify E ryu P.toKeyTexts peer identity with
    | .ok keys => m.learnPeer keys
    | .error _ => m
  | .forgetPeer peer => (m.forgetPeer peer).2
  | .establishOutbound peer => (m.establishOutbound peer).2
  | .encrypt peer plaintext => (m.encrypt peer plaintext).2
  | .decrypt peer frame => (m.decrypt peer frame).2
  | .exportStore _ => m
  | .importStore _ => m

def sessionCall (s : Stored V) : SessionCall E → Stored V
  | .exportStore pickleKey => { s with stores := s.stores ++ [(s.manager.exportStore P me pickleKey, pickleKey)] }
  | .importStore index =>
    match s.stores[index]? with
    | none => s
    | some (store, pickleKey) =>
      match SessionManager.importStore E P store me pickleKey with
      | .ok manager => { s with manager }
      | .error _ => s
  | c => { s with manager := managerCall ryu P me s.manager c }

/-- The manager of a new account, after the calls. -/
abbrev sessionRun (account : V.Account) (calls : List (SessionCall E)) : Stored V :=
  Trace.run (sessionCall ryu P me) ⟨create V account, []⟩ calls

/-! ## What a call does to the peers -/

variable (remote : V.Session → V.PublicKey)

/-- A peer held after was held before, under the same keys, and its session is one with its
    key or has gone on from the one it had. -/
def Keeps (m m' : SessionManager V.toOlm) : Prop :=
  ∀ peer state', m'.peers.get? peer = some state' → ∃ state, m.peers.get? peer = some state ∧
    state'.keys = state.keys ∧ ∀ session', state'.session = some session' →
      remote session' = state.keys.curve25519 ∨ ∃ session, state.session = some session ∧ remote session' = remote session

variable {ryu P me remote}

theorem keeps_of_peers {m m' : SessionManager V.toOlm} (h : m'.peers = m.peers) : Keeps remote m m' := by
  intro peer state hstate
  rw [h] at hstate
  exact ⟨state, hstate, rfl, fun session hsession => Or.inr ⟨session, hsession, rfl⟩⟩

theorem Keeps.trans {m m' m'' : SessionManager V.toOlm} (h : Keeps remote m m') (h' : Keeps remote m' m'') :
    Keeps remote m m'' := by
  intro peer state'' hstate''
  obtain ⟨state', hstate', hkeys', hsession'⟩ := h' peer state'' hstate''
  obtain ⟨state, hstate, hkeys, hsession⟩ := h peer state' hstate'
  refine ⟨state, hstate, hkeys'.trans hkeys, fun session'' hs'' => ?_⟩
  rcases hsession' session'' hs'' with hremote | ⟨session', hs', hremote⟩
  · exact Or.inl (hkeys ▸ hremote)
  · rw [hremote]
    exact hsession session' hs'

/-- A new session for a peer, or its old one moved on. -/
theorem keeps_set {m : SessionManager V.toOlm} {p : String} {state : PeerState V.toOlm} {session : V.Session}
    (hget : m.peers.get? p = some state) (account : V.Account)
    (h : remote session = state.keys.curve25519 ∨
      ∃ current, state.session = some current ∧ remote session = remote current) :
    Keeps remote m ⟨account, m.peers.insert { state with session := some session }⟩ := by
  intro peer state' hstate'
  have hinserted : (m.peers.insert { state with session := some session }).get? peer = some state' := hstate'
  rw [Table.get?_insert] at hinserted
  split at hinserted
  · rename_i hpeer
    have hsame : p = peer := (Table.get?_key hget).symm.trans hpeer
    cases hinserted
    refine ⟨state, hsame ▸ hget, rfl, fun session' hsession' => ?_⟩
    cases hsession'
    exact h
  · exact keeps_of_peers rfl peer state' hinserted

theorem peers_publishBundle (m : SessionManager V.toOlm) (publishedAt : String) :
    (m.publishBundle me publishedAt).2.peers = m.peers := by
  unfold publishBundle
  simp only []
  split
  · rfl
  · split <;> rfl

theorem keeps_forgetPeer (m : SessionManager V.toOlm) (p : String) : Keeps remote m (m.forgetPeer p).2 := by
  intro peer state hstate
  have herased : (m.peers.erase p).get? peer = some state := hstate
  rw [Table.get?_erase] at herased
  split at herased
  · cases herased
  · exact keeps_of_peers rfl peer state herased

section

variable {sealer : V.Message → V.PublicKey} (hV : V.Authenticates remote sealer)

include hV

theorem keeps_establishOutbound (m : SessionManager V.toOlm) (p : String) : Keeps remote m (m.establishOutbound p).2 := by
  unfold establishOutbound
  cases hget : m.peers.get? p with
  | none => exact keeps_of_peers rfl
  | some state =>
    have hcreated := hV.outbound m.account state.keys.curve25519 state.keys.fallbackKey
    simp only []
    rcases hcreate : V.createOutboundSession m.account state.keys.curve25519 state.keys.fallbackKey with
      ⟨_ | session, account⟩
    · exact keeps_of_peers rfl
    · rw [hcreate] at hcreated
      exact keeps_set hget account (Or.inl (hcreated session rfl))

theorem keeps_encryptInSession (m : SessionManager V.toOlm) (p : String) (plaintext : Bytes) :
    Keeps remote m (m.encryptInSession p plaintext).2 := by
  unfold encryptInSession
  cases hget : m.peers.get? p with
  | none => exact keeps_of_peers rfl
  | some state =>
    simp only []
    cases hsession : state.session with
    | none => exact keeps_of_peers rfl
    | some session =>
      have hkept := hV.encrypt session plaintext
      simp only []
      rcases hencrypt : V.encrypt session plaintext with ⟨_ | message, session'⟩
      all_goals
        rw [hencrypt] at hkept
        exact keeps_set hget m.account (Or.inr ⟨session, hsession, hkept⟩)

theorem keeps_encrypt (m : SessionManager V.toOlm) (p : String) (plaintext : Bytes) :
    Keeps remote m (m.encrypt p plaintext).2 := by
  unfold encrypt
  split
  · exact keeps_encryptInSession hV m p plaintext
  · have hestablish := keeps_establishOutbound hV m p
    rcases he : m.establishOutbound p with ⟨error | _, m'⟩ <;> rw [he] at hestablish
    · exact hestablish
    · exact hestablish.trans (keeps_encryptInSession hV m' p plaintext)

theorem keeps_decrypt (m : SessionManager V.toOlm) (p : String) (frame : Bytes) :
    Keeps remote m (m.decrypt p frame).2 := by
  have hcases := decrypt_cases m p frame
  generalize m.decrypt p frame = result at hcases ⊢
  cases hcases with
  | unread _ _ => exact keeps_of_peers rfl
  | noSession _ _ _ _ _ _ => exact keeps_of_peers rfl
  | read state message session session' _ hget _ hsession _ hdecrypt =>
    have hkept := hV.decrypt session message
    rw [hdecrypt] at hkept
    exact keeps_set hget m.account (Or.inr ⟨session, hsession, hkept⟩)
  | lost state message session session' _ hget _ hsession _ hdecrypt =>
    have hkept := hV.decrypt session message
    rw [hdecrypt] at hkept
    exact keeps_set hget m.account (Or.inr ⟨session, hsession, hkept⟩)
  | opened state message _ session plaintext account hget _ _ _ hcreate =>
    have hcreated := hV.inbound m.account state.keys.curve25519 message session plaintext (by rw [hcreate])
    exact keeps_set hget account (Or.inl hcreated.1)
  | refused _ _ _ _ _ _ _ _ _ _ => exact keeps_of_peers rfl

/-- Every call but `learnPeer`. -/
theorem keeps_managerCall (m : SessionManager V.toOlm) {c : SessionCall E}
    (hc : ∀ signed peer identity, c ≠ .learnPeer signed peer identity) : Keeps remote m (managerCall ryu P me m c) := by
  cases c with
  | publishBundle publishedAt => exact keeps_of_peers (peers_publishBundle m publishedAt)
  | rotateFallbackKey publishedAt =>
    exact keeps_of_peers (peers_publishBundle { m with account := V.generateFallbackKey m.account } publishedAt)
  | forgetPreviousFallbackKey => exact keeps_of_peers rfl
  | learnPeer signed peer identity => exact absurd rfl (hc signed peer identity)
  | forgetPeer peer => exact keeps_forgetPeer m peer
  | establishOutbound peer => exact keeps_establishOutbound hV m peer
  | encrypt peer plaintext => exact keeps_encrypt hV m peer plaintext
  | decrypt peer frame => exact keeps_decrypt hV m peer frame
  | exportStore _ => exact keeps_of_peers rfl
  | importStore _ => exact keeps_of_peers rfl

end

/-! ## Learning a bundle -/

/-- What is held for a peer after its bundle was learned: the session stays only under the
    same Curve25519 key. -/
theorem learnPeer_get? {m : SessionManager V.toOlm} {keys : PeerKeys V.toOlm} {peer : String} {state : PeerState V.toOlm}
    (h : (m.learnPeer keys).peers.get? peer = some state) :
    (keys.deviceId = peer ∧ state.keys = keys ∧ ∀ session, state.session = some session →
        ∃ before, m.peers.get? peer = some before ∧ before.session = some session ∧
          before.keys.curve25519 = keys.curve25519) ∨
      m.peers.get? peer = some state := by
  have hinsert : ∀ inserted : PeerState V.toOlm, (m.peers.insert inserted).get? peer = some state →
      (inserted.deviceId = peer ∧ inserted = state) ∨ m.peers.get? peer = some state := by
    intro inserted hget
    rw [Table.get?_insert] at hget
    split at hget
    · rename_i hpeer
      exact Or.inl ⟨hpeer, Option.some.inj hget⟩
    · exact Or.inr hget
  unfold learnPeer at h
  cases hget : m.peers.get? keys.deviceId with
  | none =>
    simp only [hget] at h
    rcases hinsert _ h with ⟨hpeer, rfl⟩ | hold
    · exact Or.inl ⟨hpeer, rfl, fun session hsession => by cases hsession⟩
    · exact Or.inr hold
  | some before =>
    simp only [hget] at h
    split at h
    · rename_i hcurve
      rcases hinsert _ h with ⟨hpeer, rfl⟩ | hold
      · have hpeer : keys.deviceId = peer := hpeer
        exact Or.inl ⟨hpeer, rfl, fun session hsession => ⟨before, hpeer ▸ hget, hsession, hcurve⟩⟩
      · exact Or.inr hold
    · rcases hinsert _ h with ⟨hpeer, rfl⟩ | hold
      · exact Or.inl ⟨hpeer, rfl, fun session hsession => by cases hsession⟩
      · exact Or.inr hold

/-! ## Over a run -/

/-- A session is with the key held for its peer. -/
def InPlace (remote : V.Session → V.PublicKey) (m : SessionManager V.toOlm) : Prop :=
  ∀ peer state session, m.peers.get? peer = some state → state.session = some session →
    state.keys.deviceId = peer ∧ remote session = state.keys.curve25519

/-- The keys held for a peer are of a bundle verified for it in one of the calls. -/
def Learned (ryu : UInt64 → List Char) (P : Pickling V) (calls : List (SessionCall E)) (m : SessionManager V.toOlm) :
    Prop :=
  ∀ peer state, m.peers.get? peer = some state → ∃ signed identity, .learnPeer signed peer identity ∈ calls ∧
    signed.verify E ryu P.toKeyTexts peer identity = .ok state.keys

theorem Learned.mono {calls more : List (SessionCall E)} {m : SessionManager V.toOlm} (h : Learned ryu P calls m) :
    Learned ryu P (calls ++ more) m := by
  intro peer state hget
  obtain ⟨signed, identity, hmem, hverify⟩ := h peer state hget
  exact ⟨signed, identity, List.mem_append_left _ hmem, hverify⟩

theorem Learned.identified {calls : List (SessionCall E)} {m : SessionManager V.toOlm} (h : Learned ryu P calls m) :
    Identified E m := by
  intro peer state hget
  obtain ⟨signed, identity, _, hverify⟩ := h peer state hget
  exact ⟨identity, (SignedBundle.verify_ok hverify).identityPk⟩

theorem Keeps.inPlace {m m' : SessionManager V.toOlm} (h : Keeps remote m m') (hm : InPlace remote m) :
    InPlace remote m' := by
  intro peer state' session' hget' hsession'
  obtain ⟨state, hget, hkeys, hsessions⟩ := h peer state' hget'
  refine ⟨show PeerState.deviceId state' = peer from Table.get?_key hget', ?_⟩
  rw [hkeys]
  rcases hsessions session' hsession' with hremote | ⟨session, hsession, hremote⟩
  · exact hremote
  · rw [hremote]
    exact (hm peer state session hget hsession).2

theorem learnPeer_inPlace {m : SessionManager V.toOlm} (hm : InPlace remote m) (keys : PeerKeys V.toOlm) :
    InPlace remote (m.learnPeer keys) := by
  intro peer state session hget hsession
  rcases learnPeer_get? hget with ⟨hpeer, hkeys, hsessions⟩ | hold
  · obtain ⟨before, hbefore, hsame, hcurve⟩ := hsessions session hsession
    refine ⟨hkeys ▸ hpeer, ?_⟩
    rw [hkeys, ← hcurve]
    exact (hm peer before session hbefore hsame).2
  · exact hm peer state session hold hsession

section

variable {sealer : V.Message → V.PublicKey} (hV : V.Authenticates remote sealer)

include hV

theorem inPlace_managerCall {m : SessionManager V.toOlm} (hm : InPlace remote m) (c : SessionCall E) :
    InPlace remote (managerCall ryu P me m c) := by
  by_cases hc : ∃ signed peer identity, c = .learnPeer signed peer identity
  · obtain ⟨signed, peer, identity, rfl⟩ := hc
    rw [managerCall]
    cases signed.verify E ryu P.toKeyTexts peer identity with
    | error _ => exact hm
    | ok keys => exact learnPeer_inPlace hm keys
  · simp only [not_exists] at hc
    exact (keeps_managerCall hV m hc).inPlace hm

theorem learned_managerCall {calls : List (SessionCall E)} {m : SessionManager V.toOlm} (hm : Learned ryu P calls m)
    (c : SessionCall E) : Learned ryu P (calls ++ [c]) (managerCall ryu P me m c) := by
  by_cases hc : ∃ signed peer identity, c = .learnPeer signed peer identity
  · obtain ⟨signed, p, identity, rfl⟩ := hc
    rw [managerCall]
    cases hverify : signed.verify E ryu P.toKeyTexts p identity with
    | error _ => exact hm.mono
    | ok keys =>
      intro peer state' hget'
      rcases learnPeer_get? hget' with ⟨hpeer, hkeys, _⟩ | hget
      · have hp : p = peer := (SignedBundle.verify_ok hverify).deviceId.symm.trans hpeer
        subst hp
        exact ⟨signed, identity, List.mem_append_right _ (List.mem_singleton.mpr rfl), hkeys ▸ hverify⟩
      · exact hm.mono peer state' hget
  · simp only [not_exists] at hc
    intro peer state' hget'
    have hkeeps : Keeps remote m (managerCall ryu P me m c) := keeps_managerCall hV m hc
    obtain ⟨state, hget, hkeys, _⟩ := hkeeps peer state' hget'
    rw [hkeys]
    exact hm.mono peer state hget

omit hV in
/-- The manager is sound, and so was it whenever it was stored. -/
structure Sound (ryu : UInt64 → List Char) (P : Pickling V) (me : Publisher) (remote : V.Session → V.PublicKey)
    (calls : List (SessionCall E)) (s : Stored V) : Prop where
  learned : Learned ryu P calls s.manager
  inPlace : InPlace remote s.manager
  stored : ∀ store pickleKey, (store, pickleKey) ∈ s.stores → ∃ m : SessionManager V.toOlm,
    store = m.exportStore P me pickleKey ∧ Learned ryu P calls m ∧ InPlace remote m

theorem sound_sessionCall {calls : List (SessionCall E)} {s : Stored V} (hs : Sound ryu P me remote calls s)
    (c : SessionCall E) : Sound ryu P me remote (calls ++ [c]) (sessionCall ryu P me s c) := by
  have hstores : ∀ store pickleKey, (store, pickleKey) ∈ s.stores → ∃ m : SessionManager V.toOlm,
      store = m.exportStore P me pickleKey ∧ Learned ryu P (calls ++ [c]) m ∧ InPlace remote m := by
    intro store pickleKey hmem
    obtain ⟨m, hstore, hlearned, hplace⟩ := hs.stored store pickleKey hmem
    exact ⟨m, hstore, hlearned.mono, hplace⟩
  have hcall : Sound ryu P me remote (calls ++ [c]) { s with manager := managerCall ryu P me s.manager c } :=
    ⟨learned_managerCall hV hs.learned c, inPlace_managerCall hV hs.inPlace c, hstores⟩
  cases c with
  | exportStore pickleKey =>
    refine ⟨hs.learned.mono, hs.inPlace, fun store key hmem => ?_⟩
    rcases List.mem_append.mp hmem with hmem | hmem
    · exact hstores store key hmem
    · cases List.mem_singleton.mp hmem
      exact ⟨s.manager, rfl, hs.learned.mono, hs.inPlace⟩
  | importStore index =>
    rw [sessionCall]
    cases hget : s.stores[index]? with
    | none => exact hcall
    | some entry =>
      obtain ⟨store, pickleKey⟩ := entry
      obtain ⟨m, rfl, hlearned, hplace⟩ := hstores store pickleKey (List.mem_of_getElem? hget)
      simp only [importStore_exportStore hlearned.identified]
      exact ⟨hlearned, hplace, hstores⟩
  | _ => exact hcall

theorem sessionRun_sound (account : V.Account) (calls : List (SessionCall E)) :
    Sound ryu P me remote calls (sessionRun ryu P me account calls) := by
  have hnone : ∀ peer state, (create V account).peers.get? peer ≠ some state := by
    intro peer state h
    have h : (Table.empty : Table (PeerState.deviceId (O := V.toOlm))).get? peer = some state := h
    rw [Table.get?_empty] at h
    cases h
  refine Trace.run_prefix_induction (M := fun done s => Sound ryu P me remote done s) ?_
    fun done c _ _ h => sound_sessionCall hV h c
  exact ⟨fun peer state h => absurd h (hnone peer state), fun peer state _ h => absurd h (hnone peer state),
    fun _ _ h => absurd h List.not_mem_nil⟩

/-- What is decrypted was sealed under the key held for the peer it came from. -/
theorem decrypt_sealer {m : SessionManager V.toOlm} (hm : InPlace remote m) {peer : String} {frame : Bytes}
    {decrypted : Decrypted} (h : (m.decrypt peer frame).1 = .ok decrypted) :
    decrypted.authenticatedSender = peer ∧ ∃ message state, decodeFrame V frame = .ok message ∧
      m.peers.get? peer = some state ∧ sealer message = state.keys.curve25519 := by
  have hcases := decrypt_cases m peer frame
  generalize m.decrypt peer frame = result at hcases h
  cases hcases with
  | unread _ _ => cases h
  | noSession _ _ _ _ _ _ => cases h
  | read state message session session' plaintext hget hdecode hsession _ hdecrypt =>
    cases h
    have hread := hV.reads session message plaintext (by rw [hdecrypt])
    exact ⟨rfl, message, state, hdecode, hget, hread.trans (hm peer state session hget hsession).2⟩
  | lost _ _ _ _ _ _ _ _ _ _ => cases h
  | opened state message _ session plaintext account hget hdecode _ _ hcreate =>
    cases h
    have hcreated := hV.inbound m.account state.keys.curve25519 message session plaintext (by rw [hcreate])
    exact ⟨rfl, message, state, hdecode, hget, hcreated.2⟩
  | refused _ _ _ _ _ _ _ _ _ _ => cases h

theorem session_is_with_verified_key (account : V.Account) (calls : List (SessionCall E)) :
    Trace.EachState (sessionCall ryu P me) (fun s => InPlace remote s.manager) ⟨create V account, []⟩ calls ∧
    ∀ before peer frame after decrypted, calls = before ++ .decrypt peer frame :: after →
      ((sessionRun ryu P me account before).manager.decrypt peer frame).1 = .ok decrypted →
      ∃ message state signed identity, decodeFrame V frame = .ok message ∧
        (sessionRun ryu P me account before).manager.peers.get? decrypted.authenticatedSender = some state ∧
        .learnPeer signed decrypted.authenticatedSender identity ∈ before ∧
        signed.verify E ryu P.toKeyTexts decrypted.authenticatedSender identity = .ok state.keys ∧
        sealer message = state.keys.curve25519 := by
  constructor
  · exact Trace.eachState_iff.mpr fun before _ _ => (sessionRun_sound hV account before).inPlace
  · intro before peer frame after decrypted _ h
    have hsound : Sound ryu P me remote before (sessionRun ryu P me account before) := sessionRun_sound hV account before
    obtain ⟨rfl, message, state, hdecode, hget, hsealer⟩ := decrypt_sealer hV hsound.inPlace h
    obtain ⟨signed, identity, hmem, hverify⟩ := hsound.learned _ state hget
    exact ⟨message, state, signed, identity, hdecode, hget, hmem, hverify, hsealer⟩

end

end

/-! ## A letter that names its sender

An instance to run examples on: keys are numbers, an account is its key, a session is its own
key and the remote one, and a message says who it is from and who it is for. -/

structure Letter where
  sender : Nat
  recipient : Nat
  body : Bytes

def letterParts (letter : Letter) : Nat × Bytes :=
  (0, [letter.sender, letter.recipient].flatMap Ideal.encodeNat ++ letter.body)

def letterOfParts (_ : Nat) (bytes : Bytes) : Except String Letter :=
  match Ideal.decodeNats 2 bytes with
  | some ([sender, recipient], body) => .ok ⟨sender, recipient, body⟩
  | _ => .error "a letter is cut short"

/-- Whether the letter is from the remote key to one's own. -/
def isOf (own remote : Nat) (letter : Letter) : Bool := letter.sender == remote && letter.recipient == own

theorem sender_of_isOf {own remote : Nat} {letter : Letter} (h : isOf own remote letter = true) :
    letter.sender = remote := beq_iff_eq.mp (Bool.and_eq_true_iff.mp h).1

abbrev letters : Vodozemac where
  PublicKey := Nat
  Account := Nat
  Session := Nat × Nat
  Message := Letter
  SessionId := Nat × Nat
  createOutboundSession account identity _ := (.ok (account, identity), account)
  encrypt session plaintext := (.ok ⟨session.1, session.2, plaintext⟩, session)
  toParts := letterParts
  toBase64 key := toString key
  curve25519Key account := account
  fallbackKey account := some ("0", account)
  generateFallbackKey account := account
  markKeysAsPublished account := account
  forgetFallbackKey account := (false, account)
  sessionId session := session
  preKeySession letter := some (letter.recipient, letter.sender)
  fromParts := letterOfParts
  decrypt session letter :=
    (if isOf session.1 session.2 letter then .ok letter.body else .error (.other "invalid MAC"), session)
  createInboundSession account identity letter :=
    (if isOf account identity letter then .ok ((account, identity), letter.body) else .error "invalid MAC", account)

def letterPickles : Pickling letters where
  fromBase64 text := .ok (Nat.ofDigitChars 10 text.toList 0)
  fromBase64_toBase64 key := by
    have hvalue : Nat.ofDigitChars 10 (toString (key : Nat)).toList 0 = key := by simp
    exact congrArg Except.ok hvalue
  toBase64_ne_empty key := by simp
  pickleAccount account _ := latin1 (Ideal.encodeNat account)
  accountFromPickle pickle _ :=
    match Ideal.decodeNat (ofLatin1 pickle) with
    | some (account, _) => .ok account
    | none => .error "a pickle is cut short"
  pickleSession session _ := latin1 ([session.1, session.2].flatMap Ideal.encodeNat)
  sessionFromPickle pickle _ :=
    match Ideal.decodeNats 2 (ofLatin1 pickle) with
    | some ([own, remote], _) => .ok (own, remote)
    | _ => .error "a pickle is cut short"
  accountFromPickle_pickleAccount account _ := by
    have hdecode := Ideal.decodeNat_encodeNat account []
    rw [List.append_nil] at hdecode
    rw [ofLatin1_latin1, hdecode]
  sessionFromPickle_pickleSession session _ := by
    have hdecode := Ideal.decodeNats_flatMap [session.1, session.2] []
    rw [List.append_nil, List.length_cons, List.length_singleton] at hdecode
    rw [ofLatin1_latin1]
    simp only [hdecode]

theorem letters_authenticates : letters.Authenticates (fun session => (session : Nat × Nat).2) Letter.sender where
  outbound _ _ _ _ h := by cases h; rfl
  inbound account identity letter session plaintext h := by
    have h : (if isOf account identity letter then .ok ((account, identity), letter.body)
      else .error "invalid MAC" : Except String ((Nat × Nat) × Bytes)) = .ok (session, plaintext) := h
    split at h
    · rename_i hof
      cases h
      exact ⟨rfl, sender_of_isOf hof⟩
    · cases h
  encrypt _ _ := rfl
  decrypt _ _ := rfl
  reads session letter plaintext h := by
    have h : (if isOf session.1 session.2 letter then .ok letter.body
      else .error (.other "invalid MAC") : Except DecryptionError Bytes) = .ok plaintext := h
    split at h
    · rename_i hof
      exact sender_of_isOf hof
    · cases h

/-- The bundle `a` signs with its identity key 7; its Curve25519 key is 1. -/
def bundleOfA : SignedBundle :=
  let bundle : Bundle := ⟨bundleVersion, "a", latin1 [7], "1", "1", "0", ""⟩
  ⟨bundle, (Ed25519.plain.signValue (fun _ => []) (7 : UInt8) .bundle bundle.toValue).toOption.getD ""⟩

def frameFromA : Bytes := encodeFrame (letterParts ⟨1, 2, [5]⟩)

/-- `b` learns the bundle and stores itself, forgets `a`, and comes back from the store. -/
def callsOfB : List (SessionCall Ed25519.plain) :=
  [.learnPeer bundleOfA "a" (7 : UInt8), .exportStore [1], .forgetPeer "a", .importStore 0]

theorem frame_from_a_is_as :
    ∃ message state signed identity, decodeFrame letters frameFromA = .ok message ∧
      (sessionRun (fun _ => []) letterPickles ⟨"b", "", fun _ => .ok ""⟩ (2 : Nat) callsOfB).manager.peers.get? "a" =
        some state ∧
      .learnPeer signed "a" identity ∈ callsOfB ∧
      signed.verify Ed25519.plain (fun _ => []) letterPickles.toKeyTexts "a" identity = .ok state.keys ∧
      message.sender = state.keys.curve25519 :=
  (@session_is_with_verified_key Ed25519.plain (fun _ => []) letters letterPickles ⟨"b", "", fun _ => .ok ""⟩ _ _
    letters_authenticates (2 : Nat) (callsOfB ++ [.decrypt "a" frameFromA])).2
    callsOfB "a" frameFromA [] ⟨"a", [5], true⟩ rfl (by decide +kernel)

end SessionManager

end Beacon
