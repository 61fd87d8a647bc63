/-
  Beacon.Session.Store — the session manager across process death (`sund_client::session_store`).

  Keys are stored as base64 and read back; the account and the sessions are pickled and
  encrypted by vodozemac, so `Pickling` takes them as it does the rest: what was pickled
  under a key is read back under that key.
  - `importStore_exportStore`: a manager whose peers have readable identity keys comes back
    as it was.
-/

import Beacon.Session.Bundles

namespace Beacon

open Lib

/-- `STORE_VERSION`. -/
def storeVersion : UInt8 := 1

inductive StoreError where
  | unsupportedVersion (found : UInt8)
  | wrongDevice (expected found : String)
  | wrongIdentity (expected found : String)
  | undecryptable (detail : String)
  | badKeyMaterial (detail : String)
  deriving DecidableEq, Repr

structure StoredPeer where
  deviceId : String
  identityPk : String
  curve25519 : String
  fallbackKey : String
  fallbackKeyId : String
  session : Option String
  deriving DecidableEq, Repr

structure SessionStore where
  v : UInt8
  deviceId : String
  identityPk : String
  account : String
  peers : List StoredPeer
  deriving DecidableEq, Repr

/-- Encrypted pickles, under a pickle key. -/
structure Pickling (V : Vodozemac) extends KeyTexts V where
  pickleAccount : V.Account → Bytes → String
  accountFromPickle : String → Bytes → Except String V.Account
  pickleSession : V.Session → Bytes → String
  sessionFromPickle : String → Bytes → Except String V.Session
  accountFromPickle_pickleAccount : ∀ account key, accountFromPickle (pickleAccount account key) key = .ok account
  sessionFromPickle_pickleSession : ∀ session key, sessionFromPickle (pickleSession session key) key = .ok session

namespace SessionManager

section

variable (E : Ed25519) {V : Vodozemac} (P : Pickling V)

def storePeer (pickleKey : Bytes) (state : PeerState V.toOlm) : StoredPeer where
  deviceId := state.deviceId
  identityPk := state.keys.identityPk
  curve25519 := V.toBase64 state.keys.curve25519
  fallbackKey := V.toBase64 state.keys.fallbackKey
  fallbackKeyId := state.keys.fallbackKeyId
  session := state.session.map fun session => P.pickleSession session pickleKey

/-- `export`. -/
def exportStore (m : SessionManager V.toOlm) (me : Publisher) (pickleKey : Bytes) : SessionStore where
  v := storeVersion
  deviceId := me.deviceId
  identityPk := me.identityPk
  account := P.pickleAccount m.account pickleKey
  peers := m.peers.values.map (storePeer P pickleKey)

def curve (encoded deviceId field : String) : Except StoreError V.PublicKey :=
  (P.fromBase64 encoded).mapError fun error => .badKeyMaterial ("`" ++ deviceId ++ "` " ++ field ++ ": " ++ error)

/-- `IdentityPublicKey::from_base64`, and back. -/
def readIdentity (encoded deviceId : String) : Except StoreError String :=
  match E.keyFromBase64 encoded with
  | none => .error (.badKeyMaterial ("`" ++ deviceId ++ "` identity_pk: " ++ VerifyError.malformed.toText))
  | some key => .ok (E.keyToBase64 key)

def readSession (pickleKey : Bytes) : Option String → Except StoreError (Option V.Session)
  | none => .ok none
  | some pickle => ((P.sessionFromPickle pickle pickleKey).mapError .undecryptable).map some

/-- A stored peer's keys and session. -/
def readPeer (pickleKey : Bytes) (peer : StoredPeer) : Except StoreError (PeerState V.toOlm) := do
  let identityPk ← readIdentity E peer.identityPk peer.deviceId
  let curve25519 ← curve P peer.curve25519 peer.deviceId "curve25519"
  let fallbackKey ← curve P peer.fallbackKey peer.deviceId "fallback_key"
  let session ← readSession P pickleKey peer.session
  return {
    keys := { deviceId := peer.deviceId, identityPk, curve25519, fallbackKey, fallbackKeyId := peer.fallbackKeyId }
    session }

def restorePeer (m : SessionManager V.toOlm) (state : PeerState V.toOlm) : SessionManager V.toOlm :=
  { m with peers := m.peers.insert state }

def restorePeers (pickleKey : Bytes) (m : SessionManager V.toOlm) :
    List StoredPeer → Except StoreError (SessionManager V.toOlm)
  | [] => .ok m
  | peer :: peers => do
    let state ← readPeer E P pickleKey peer
    restorePeers pickleKey (m.restorePeer state) peers

/-- `import`. -/
def importStore (store : SessionStore) (me : Publisher) (pickleKey : Bytes) :
    Except StoreError (SessionManager V.toOlm) :=
  if store.v ≠ storeVersion then .error (.unsupportedVersion store.v)
  else if store.deviceId ≠ me.deviceId then .error (.wrongDevice me.deviceId store.deviceId)
  else if store.identityPk ≠ me.identityPk then .error (.wrongIdentity me.identityPk store.identityPk)
  else do
    let account ← (P.accountFromPickle store.account pickleKey).mapError .undecryptable
    restorePeers E P pickleKey ⟨account, .empty⟩ store.peers

end

variable {E : Ed25519} {V : Vodozemac} {P : Pickling V}

/-- Every peer's identity key is one. -/
def Identified (E : Ed25519) (m : SessionManager V.toOlm) : Prop :=
  ∀ peer state, m.peers.get? peer = some state → ∃ identity, state.keys.identityPk = E.keyToBase64 identity

theorem readPeer_storePeer (pickleKey : Bytes) {state : PeerState V.toOlm}
    (h : ∃ identity, state.keys.identityPk = E.keyToBase64 identity) :
    readPeer E P pickleKey (storePeer P pickleKey state) = .ok state := by
  obtain ⟨identity, hidentity⟩ := h
  have hread : readIdentity E state.keys.identityPk state.deviceId = .ok state.keys.identityPk := by
    rw [readIdentity, hidentity, E.keyFromBase64_keyToBase64]
  have hcurve : ∀ key field, curve P (V.toBase64 key) state.deviceId field = .ok key := by
    intro key field
    rw [curve, P.fromBase64_toBase64]
    rfl
  have hsession : readSession P pickleKey (state.session.map fun session => P.pickleSession session pickleKey) =
      .ok state.session := by
    cases state.session with
    | none => rfl
    | some session =>
      rw [Option.map_some, readSession, P.sessionFromPickle_pickleSession]
      rfl
  simp only [readPeer, storePeer, hread, hcurve, hsession]
  rfl

theorem restorePeers_storePeers (pickleKey : Bytes) {states : List (PeerState V.toOlm)}
    (h : ∀ state ∈ states, ∃ identity, state.keys.identityPk = E.keyToBase64 identity) (m : SessionManager V.toOlm) :
    restorePeers E P pickleKey m (states.map (storePeer P pickleKey)) =
      .ok { m with peers := states.foldl Table.insert m.peers } := by
  induction states generalizing m with
  | nil => rfl
  | cons state states ih =>
    rw [List.map_cons, restorePeers, readPeer_storePeer pickleKey (h state List.mem_cons_self)]
    exact ih (fun s hs => h s (List.mem_cons_of_mem _ hs)) _

theorem importStore_exportStore {m : SessionManager V.toOlm} (h : Identified E m) (me : Publisher) (pickleKey : Bytes) :
    importStore E P (m.exportStore P me pickleKey) me pickleKey = .ok m := by
  have hpeers : restorePeers E P pickleKey ⟨m.account, .empty⟩ (m.peers.values.map (storePeer P pickleKey)) =
      .ok ⟨m.account, .ofList m.peers.values⟩ :=
    restorePeers_storePeers pickleKey (fun state hstate => h _ state (Table.mem_values.mp hstate)) _
  rw [Table.ofList_values] at hpeers
  simp only [importStore, exportStore, ne_eq, not_true_eq_false, if_false, P.accountFromPickle_pickleAccount]
  exact hpeers

end SessionManager

end Beacon
