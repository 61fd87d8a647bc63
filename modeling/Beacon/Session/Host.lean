/-
  Beacon.Session.Host — bundles by way of a host that may hand out anything: devices publish
  theirs and fetch each other's, and what a fetch brings is for the host to choose.

  It may be an older bundle, another device's, one of the host's own making, or one whose
  signature was made for something else. What the host cannot do is sign for a device.
  - `Honest.offered`: what verifies as a peer's bundle is one that the peer signed, whatever
    else its identity key has signed.
  - `host_run`: so the keys held for a peer are the peer's own, and still open sessions exactly
    if they came in its newest bundle, or in the one before and it has not given that up.
-/

import Beacon.Session.Attribution
import Beacon.Session.Fallback
import Beacon.Session.Stream

namespace Beacon

open Lib

/-- The text that is signed. -/
def Signed.text (ryu : UInt64 → List Char) (s : Signed) : Bytes :=
  s.purpose.signingBytes (utf8 (s.toValue.json.write ryu))

/-- The bundles among the texts. -/
def bundlesOf (signed : List Signed) : List Bundle :=
  signed.filterMap fun s =>
    match s with
    | .bundle b => some b
    | _ => none

theorem mem_bundlesOf {signed : List Signed} {b : Bundle} : b ∈ bundlesOf signed ↔ .bundle b ∈ signed := by
  unfold bundlesOf
  rw [List.mem_filterMap]
  constructor
  · rintro ⟨s, hs, hb⟩
    cases s with
    | bundle b' =>
      cases hb
      exact hs
    | vouch | removal => cases hb
  · intro h
    exact ⟨_, h, rfl⟩

@[simp] theorem bundlesOf_bundle (signed : List Signed) (b : Bundle) :
    bundlesOf (signed ++ [.bundle b]) = bundlesOf signed ++ [b] := by
  simp [bundlesOf]

@[simp] theorem bundlesOf_signed (signed : List Signed) (statement : Statement) :
    bundlesOf (signed ++ [statement.signed]) = bundlesOf signed := by
  cases statement <;> simp [bundlesOf, Statement.signed]

namespace Ideal

/-! ## The devices and the host -/

structure Fleet where
  manager : String → Manager
  /-- All that each device has signed with its identity key. -/
  signed : String → List Signed

/-- A call that is about sessions alone. -/
def Conversing : Call → Prop
  | .forgetPeer _ | .establishOutbound _ | .encrypt _ _ | .decrypt _ _ => True
  | .publishBundle _ _ | .rotateFallbackKey _ _ | .forgetPreviousFallbackKey | .learnPeer _ => False

namespace Fleet

inductive Event where
  | publish (device publishedAt : String)
  | rotate (device publishedAt : String)
  /-- `forget_previous_fallback_key`. -/
  | discard (device : String)
  /-- A vouch or a removal is signed. -/
  | state (device : String) (statement : Statement)
  /-- The host hands out this as the peer's bundle. -/
  | fetch (device peer : String) (offered : SignedBundle)
  | call (device : String) (call : Call)

variable (E : Ed25519) (ryu : UInt64 → List Char) (T : KeyTexts vodozemac) (key : String → E.SigningKey)

def released (f : Fleet) (device : String) (result : Except SessionError SignedBundle × Manager) : Fleet where
  manager := Function.update f.manager device result.2
  signed :=
    match result.1 with
    | .ok signed => Function.update f.signed device (f.signed device ++ [.bundle signed.bundle])
    | .error _ => f.signed

def step (f : Fleet) : Event → Fleet
  | .publish device publishedAt =>
    f.released device ((f.manager device).publishBundle (publisher E ryu device (key device)) publishedAt)
  | .rotate device publishedAt =>
    f.released device ((f.manager device).rotateFallbackKey (publisher E ryu device (key device)) publishedAt)
  | .discard device =>
    { f with manager := Function.update f.manager device (f.manager device).forgetPreviousFallbackKey.2 }
  | .state device statement =>
    { f with signed := Function.update f.signed device (f.signed device ++ [statement.signed]) }
  | .fetch device peer offered =>
    match offered.verify E ryu T peer (E.verifyingKey (key peer)) with
    | .ok keys => { f with manager := Function.update f.manager device ((f.manager device).learnPeer keys) }
    | .error _ => f
  | .call device c => { f with manager := Function.update f.manager device (call (f.manager device) c) }

abbrev run (f : Fleet) (events : List Event) : Fleet := Trace.run (step E ryu T key) f events

def start (number : String → Nat) : Fleet := ⟨fun device => created (number device), fun _ => []⟩

/-- A signature that holds under the peer's identity key is over a text that was signed with that key. -/
def Unforged (f : Fleet) (peer : String) (offered : SignedBundle) : Prop :=
  ∀ canonical signature, toCanonicalJson ryu offered.bundle.toValue = .ok canonical →
    E.decode offered.sig = some signature →
    E.verify (E.verifyingKey (key peer)) (SignaturePurpose.bundle.signingBytes canonical) signature = true →
    ∃ device, E.verifyingKey (key device) = E.verifyingKey (key peer) ∧
      ∃ s ∈ f.signed device, s.text ryu = SignaturePurpose.bundle.signingBytes canonical

def Fair (f : Fleet) : Event → Prop
  | .fetch _ peer offered => Unforged E ryu key f peer offered
  | .call _ c => Conversing c
  | .publish _ _ | .rotate _ _ | .discard _ | .state _ _ => True

end Fleet

/-! ## Sessions leave the keys alone -/

/-- What a conversation leaves as it was: this device's own keys, and those it holds of others. -/
structure Tended (m m' : Manager) : Prop where
  device : m'.account.device = m.account.device
  fallback : m'.account.fallback = m.account.fallback
  previous : m'.account.previous = m.account.previous
  generated : m.account.generated ≤ m'.account.generated
  keys : ∀ peer state', m'.peers.get? peer = some state' →
    ∃ state, m.peers.get? peer = some state ∧ state.keys = state'.keys

namespace Tended

variable {m m' m'' : Manager}

theorem refl (m : Manager) : Tended m m := ⟨rfl, rfl, rfl, Nat.le_refl _, fun _ state h => ⟨state, h, rfl⟩⟩

theorem trans (h : Tended m m') (h' : Tended m' m'') : Tended m m'' := by
  refine ⟨h'.device.trans h.device, h'.fallback.trans h.fallback, h'.previous.trans h.previous,
    h.generated.trans h'.generated, fun peer state hget => ?_⟩
  obtain ⟨state', hget', hkeys'⟩ := h'.keys peer state hget
  obtain ⟨state'', hget'', hkeys''⟩ := h.keys peer state' hget'
  exact ⟨state'', hget'', hkeys''.trans hkeys'⟩

/-- A session is set. -/
theorem set {peer : String} {state : PeerState vodozemac.toOlm} (hget : m.peers.get? peer = some state)
    {account : Account} (haccount : account = m.account ∨ account = { m.account with generated := m.account.generated + 1 })
    (session : Option Session) : Tended m ⟨account, m.peers.insert { state with session }⟩ := by
  have hkeys : ∀ p state', (m.peers.insert { state with session }).get? p = some state' →
      ∃ s, m.peers.get? p = some s ∧ s.keys = state'.keys := by
    intro p state' hget'
    have hstate : state.deviceId = peer := Table.get?_key hget
    have hkey : ({ state with session } : PeerState vodozemac.toOlm).deviceId = peer := hstate
    rw [Table.get?_insert, hkey] at hget'
    split at hget'
    next hp =>
      cases hget'
      exact ⟨state, hp ▸ hget, rfl⟩
    next => exact ⟨state', hget', rfl⟩
  rcases haccount with rfl | rfl
  · exact ⟨rfl, rfl, rfl, Nat.le_refl _, hkeys⟩
  · exact ⟨rfl, rfl, rfl, Nat.le_succ _, hkeys⟩

theorem establishOutbound (m : Manager) (peer : String) : Tended m (m.establishOutbound peer).2 := by
  unfold SessionManager.establishOutbound
  cases hget : m.peers.get? peer with
  | none => exact refl m
  | some state => exact set hget (Or.inr rfl) (some _)

theorem encryptInSession (m : Manager) (peer : String) (plaintext : Bytes) :
    Tended m (m.encryptInSession peer plaintext).2 := by
  unfold SessionManager.encryptInSession
  cases hget : m.peers.get? peer with
  | none => exact refl m
  | some state =>
    simp only []
    split
    · exact refl m
    · split
      · exact set hget (Or.inl rfl) (some _)
      · exact set hget (Or.inl rfl) (some _)

theorem encrypt (m : Manager) (peer : String) (plaintext : Bytes) : Tended m (m.encrypt peer plaintext).2 := by
  unfold SessionManager.encrypt
  split
  · exact encryptInSession m peer plaintext
  · have hopen := establishOutbound m peer
    split
    next heq => rwa [heq] at hopen
    next heq =>
      rw [heq] at hopen
      exact hopen.trans (encryptInSession _ peer plaintext)

theorem decrypt (m : Manager) (peer : String) (frame : Bytes) : Tended m (m.decrypt peer frame).2 := by
  have hcases := SessionManager.decrypt_cases m peer frame
  generalize m.decrypt peer frame = result at hcases ⊢
  cases hcases with
  | unread | noSession => exact refl m
  | read state message session session' plaintext hget => exact set hget (Or.inl rfl) (some session')
  | lost state message session session' error hget => exact set hget (Or.inl rfl) (some session')
  | opened state message id session plaintext account hget hdecode hid hother hcreate =>
    have haccount := account_createInbound m.account state.keys.curve25519 message
    exact set hget (Or.inl ((congrArg Prod.snd hcreate).symm.trans haccount)) (some session)
  | refused state message id detail account hget hdecode hid hother hcreate =>
    obtain rfl : m.account = account :=
      (account_createInbound m.account state.keys.curve25519 message).symm.trans (congrArg Prod.snd hcreate)
    exact refl m

theorem forgetPeer (m : Manager) (peer : String) : Tended m (m.forgetPeer peer).2 := by
  refine ⟨rfl, rfl, rfl, Nat.le_refl _, fun p state hget => ?_⟩
  have hget' : (m.peers.erase peer).get? p = some state := hget
  rw [Table.get?_erase] at hget'
  split at hget'
  · cases hget'
  · exact ⟨state, hget', rfl⟩

theorem call {c : Call} (h : Conversing c) (m : Manager) : Tended m (call m c) := by
  cases c with
  | publishBundle | rotateFallbackKey | forgetPreviousFallbackKey | learnPeer => exact h.elim
  | forgetPeer peer => exact forgetPeer m peer
  | establishOutbound peer => exact establishOutbound m peer
  | encrypt peer plaintext => exact encrypt m peer plaintext
  | decrypt peer frame => exact decrypt m peer frame

end Tended

/-! ## A device's own bundles -/

/-- The numbers of the fallback keys in a device's bundles, oldest first, and what its account holds of them. -/
structure Minted (a : Account) (bundles : List Bundle) (numbers : List Nat) : Prop where
  keys : bundles.map (·.fallbackKey) = numbers.map fun n => vodozemac.toBase64 ⟨a.device, n⟩
  increasing : numbers.Pairwise (· < ·)
  below : ∀ n ∈ numbers, n < a.generated
  current : a.fallback = numbers.getLast?.map fun n => (n, true)
  previous : ∀ n, a.previous = some n → numbers.dropLast.getLast? = some n

namespace Minted

variable {a a' : Account} {bundles : List Bundle} {numbers : List Nat}

theorem unshown (h : Minted a bundles numbers) : a.fallbackKey = none := by
  unfold Account.fallbackKey
  rw [h.current]
  cases numbers.getLast? <;> rfl

theorem next (h : Minted a bundles numbers) {b : Bundle} (hb : b.fallbackKey = vodozemac.toBase64 ⟨a.device, a.generated⟩) :
    Minted a.generateFallbackKey.markKeysAsPublished (bundles ++ [b]) (numbers ++ [a.generated]) := by
  refine ⟨?_, ?_, fun n hn => ?_, ?_, fun n hn => ?_⟩
  · rw [List.map_append, List.map_append, h.keys, List.map_singleton, List.map_singleton, hb]
    rfl
  · rw [List.pairwise_append]
    refine ⟨h.increasing, List.pairwise_singleton _ _, fun n hn m hm => ?_⟩
    rw [List.mem_singleton.mp hm]
    exact h.below n hn
  · show n < a.generated + 1
    rcases List.mem_append.mp hn with hn | hn
    · have := h.below n hn
      omega
    · rw [List.mem_singleton.mp hn]
      omega
  · rw [List.getLast?_append]
    rfl
  · rw [List.dropLast_concat]
    have hprevious : a.fallback.map Prod.fst = some n := hn
    rw [h.current, Option.map_map] at hprevious
    simpa [Function.comp_def] using hprevious

theorem discard (h : Minted a bundles numbers) : Minted a.forgetFallbackKey.2 bundles numbers :=
  ⟨h.keys, h.increasing, h.below, h.current, fun n hn => by cases hn⟩

theorem tended {m m' : Manager} (h : Minted m.account bundles numbers) (ht : Tended m m') :
    Minted m'.account bundles numbers := by
  refine ⟨?_, h.increasing, fun n hn => Nat.lt_of_lt_of_le (h.below n hn) ht.generated, ?_, ?_⟩
  · rw [ht.device]
    exact h.keys
  · rw [ht.fallback]
    exact h.current
  · rw [ht.previous]
    exact h.previous

/-- Of the keys of its bundles a device holds that of the newest, and that of the one before until it is given up. -/
theorem holds_iff (h : Minted a bundles numbers) {place n : Nat} (hplace : numbers[place]? = some n) :
    a.holds ⟨a.device, n⟩ = true ↔
      place + 1 = numbers.length ∨ place + 2 = numbers.length ∧ a.previous ≠ none := by
  have hlt : place < numbers.length := (List.getElem?_eq_some_iff.mp hplace).1
  have hnodup : numbers.Nodup := h.increasing.imp Nat.ne_of_lt
  have hat : ∀ i, numbers[i]? = some n ↔ place = i := by
    intro i
    rw [← hplace, eq_comm]
    exact List.getElem?_inj hlt hnodup
  have hnewest : a.fallback.any (fun current => current.1 == n) = true ↔ place + 1 = numbers.length := by
    rw [h.current, List.getLast?_eq_getElem?, Option.any_map]
    have hlast := hat (numbers.length - 1)
    cases hget : numbers[numbers.length - 1]? with
    | none =>
      rw [List.getElem?_eq_none_iff] at hget
      omega
    | some m =>
      rw [hget, Option.some.injEq] at hlast
      simp only [Option.any_some, beq_iff_eq, hlast]
      omega
  have hbefore : a.previous = some n ↔ place + 2 = numbers.length ∧ a.previous ≠ none := by
    constructor
    · intro hprevious
      have hsecond := h.previous n hprevious
      rw [List.getLast?_dropLast] at hsecond
      split at hsecond
      · cases hsecond
      · have := (hat _).mp hsecond
        exact ⟨by omega, by rw [hprevious]; simp⟩
    · rintro ⟨hsecond, hsome⟩
      obtain ⟨m, hprevious⟩ := Option.ne_none_iff_exists'.mp hsome
      have hm := h.previous m hprevious
      rw [List.getLast?_dropLast, if_neg (by omega)] at hm
      have hn := (hat (numbers.length - 2)).mpr (by omega)
      rw [hprevious, ← hm, hn]
  unfold Account.holds
  rw [beq_self_eq_true, Bool.true_and, Bool.or_eq_true, hnewest, beq_iff_eq, hbefore]

end Minted

/-! ## Whose the keys are -/

namespace Fleet

section

variable (E : Ed25519) (key : String → E.SigningKey) (number : String → Nat)

/-- The peer's own keys: under the identity vouched for it, of its account, and of a bundle it signed. -/
structure Genuine (f : Fleet) (peer : String) (keys : PeerKeys vodozemac.toOlm) : Prop where
  identityPk : keys.identityPk = E.keyToBase64 (E.verifyingKey (key peer))
  curve25519 : keys.curve25519 = ⟨number peer, 0⟩
  fallbackKey : ∃ b ∈ bundlesOf (f.signed peer), b.fallbackKey = vodozemac.toBase64 keys.fallbackKey

structure Honest (f : Fleet) : Prop where
  device : ∀ d, (f.manager d).account.device = number d
  own : ∀ d, ∀ b ∈ bundlesOf (f.signed d), b.deviceId = d ∧ b.curve25519 = vodozemac.toBase64 ⟨number d, 0⟩
  minted : ∀ d, ∃ numbers, Minted (f.manager d).account (bundlesOf (f.signed d)) numbers
  known : ∀ d peer state, (f.manager d).peers.get? peer = some state → Genuine E key number f peer state.keys

end

section

variable {E : Ed25519} {ryu : UInt64 → List Char} {T : KeyTexts vodozemac} {key : String → E.SigningKey}
  {number : String → Nat} {f : Fleet}

/-- One device goes on, and signs more. -/
theorem Honest.goes_on (h : Honest E key number f) (device : String) (m : Manager) (more : List Signed)
    (hdevice : m.account.device = (f.manager device).account.device)
    (hown : ∀ b ∈ bundlesOf more, b.deviceId = device ∧ b.curve25519 = vodozemac.toBase64 ⟨number device, 0⟩)
    (hminted : ∃ numbers, Minted m.account (bundlesOf (f.signed device ++ more)) numbers)
    (hknown : ∀ peer state', m.peers.get? peer = some state' →
      (∃ state, (f.manager device).peers.get? peer = some state ∧ state.keys = state'.keys) ∨
        Genuine E key number f peer state'.keys) :
    Honest E key number
      ⟨Function.update f.manager device m, Function.update f.signed device (f.signed device ++ more)⟩ := by
  have hmore : ∀ d, ∀ b ∈ bundlesOf (f.signed d),
      b ∈ bundlesOf (Function.update f.signed device (f.signed device ++ more) d) := by
    intro d b hb
    by_cases hd : d = device
    · subst hd
      rw [Function.update_self, bundlesOf, List.filterMap_append]
      exact List.mem_append_left _ hb
    · rwa [Function.update_of_ne hd]
  have hgenuine : ∀ peer keys, Genuine E key number f peer keys → Genuine E key number
      ⟨Function.update f.manager device m, Function.update f.signed device (f.signed device ++ more)⟩ peer keys := by
    intro peer keys hkeys
    obtain ⟨b, hb, htext⟩ := hkeys.fallbackKey
    exact ⟨hkeys.identityPk, hkeys.curve25519, b, hmore peer b hb, htext⟩
  constructor
  · intro d
    by_cases hd : d = device
    · subst hd
      simp only [Function.update_self]
      exact hdevice.trans (h.device d)
    · simp only [Function.update_of_ne hd]
      exact h.device d
  · intro d b hb
    by_cases hd : d = device
    · subst hd
      simp only [Function.update_self, bundlesOf, List.filterMap_append, List.mem_append] at hb
      exact hb.elim (h.own d b) (hown b)
    · simp only [Function.update_of_ne hd] at hb
      exact h.own d b hb
  · intro d
    by_cases hd : d = device
    · subst hd
      simp only [Function.update_self]
      exact hminted
    · simp only [Function.update_of_ne hd]
      exact h.minted d
  · intro d peer state hget
    refine hgenuine peer _ ?_
    by_cases hd : d = device
    · subst hd
      simp only [Function.update_self] at hget
      rcases hknown peer state hget with ⟨before, hbefore, hkeys⟩ | hkeys
      · exact hkeys ▸ h.known d peer before hbefore
      · exact hkeys
    · simp only [Function.update_of_ne hd] at hget
      exact h.known d peer state hget

/-- As before, with nothing signed. -/
theorem Honest.silent (h : Honest E key number f) (device : String) (m : Manager)
    (hdevice : m.account.device = (f.manager device).account.device)
    (hminted : ∀ numbers, Minted (f.manager device).account (bundlesOf (f.signed device)) numbers →
      Minted m.account (bundlesOf (f.signed device)) numbers)
    (hknown : ∀ peer state', m.peers.get? peer = some state' →
      (∃ state, (f.manager device).peers.get? peer = some state ∧ state.keys = state'.keys) ∨
        Genuine E key number f peer state'.keys) :
    Honest E key number { f with manager := Function.update f.manager device m } := by
  obtain ⟨numbers, hnumbers⟩ := h.minted device
  have hminted' := hminted numbers hnumbers
  have hgoes := h.goes_on device m [] hdevice (fun b hb => by cases hb)
    ⟨numbers, by rw [List.append_nil]; exact hminted'⟩ hknown
  rwa [List.append_nil, Function.update_eq_self] at hgoes

/-- A rotation, from any account, and what it signs. -/
theorem rotated (E : Ed25519) (ryu : UInt64 → List Char) (device : String) (key : E.SigningKey) (m : Manager)
    (publishedAt : String) :
    ∃ signed, m.rotateFallbackKey (publisher E ryu device key) publishedAt = (.ok signed, Publications.withNextKey m) ∧
      signed.bundle.deviceId = device ∧ signed.bundle.curve25519 = vodozemac.toBase64 m.account.identity ∧
      signed.bundle.fallbackKey = vodozemac.toBase64 ⟨m.account.device, m.account.generated⟩ := by
  let made : Manager := { m with account := m.account.generateFallbackKey }
  obtain ⟨sig, hsign⟩ := publisher_signs E ryu device key
    (made.bundleOf (publisher E ryu device key) (toString m.account.generated, ⟨m.account.device, m.account.generated⟩)
      publishedAt)
  exact ⟨_, SessionManager.publishBundle_shown (m := made) rfl hsign, rfl, rfl, rfl⟩

theorem Honest.rotate (h : Honest E key number f) (device publishedAt : String) :
    Honest E key number (f.released device
      ((f.manager device).rotateFallbackKey (publisher E ryu device (key device)) publishedAt)) := by
  obtain ⟨signed, hok, hdevice, hcurve, hfallback⟩ := rotated E ryu device (key device) (f.manager device) publishedAt
  obtain ⟨numbers, hminted⟩ := h.minted device
  unfold released
  rw [hok]
  refine h.goes_on device _ [.bundle signed.bundle] rfl (fun b hb => ?_) ⟨numbers ++ [(f.manager device).account.generated], ?_⟩
    fun peer state hget => Or.inl ⟨state, hget, rfl⟩
  · rw [mem_bundlesOf, List.mem_singleton] at hb
    cases hb
    refine ⟨hdevice, hcurve.trans ?_⟩
    rw [← h.device device]
    rfl
  · rw [bundlesOf_bundle]
    exact hminted.next hfallback

theorem Honest.publish (h : Honest E key number f) (device publishedAt : String) :
    Honest E key number (f.released device
      ((f.manager device).publishBundle (publisher E ryu device (key device)) publishedAt)) := by
  obtain ⟨numbers, hminted⟩ := h.minted device
  rw [Publications.publish_eq_rotate hminted.unshown]
  exact h.rotate device publishedAt

/-- What verifies as the peer's bundle is one that the peer signed. -/
theorem Honest.offered (h : Honest E key number f) {peer : String} {offered : SignedBundle}
    {keys : PeerKeys vodozemac.toOlm} (hforged : Unforged E ryu key f peer offered)
    (hverify : offered.verify E ryu T peer (E.verifyingKey (key peer)) = .ok keys) :
    keys.deviceId = peer ∧ Genuine E key number f peer keys := by
  have hverified := SignedBundle.verify_ok hverify
  obtain ⟨canonical, signature, hcanonical, hdecode, hholds⟩ := Ed25519.verifyValue_ok hverified.signature
  obtain ⟨device, -, s, hs, htext⟩ := hforged canonical signature hcanonical hdecode hholds
  obtain ⟨hpurpose, hsame⟩ := SignaturePurpose.signingBytes_inj htext
  have hs' : s = .bundle offered.bundle := by
    refine Signed.toValue_inj hpurpose (toCanonicalJson_inj ?_ hcanonical)
    rw [toCanonicalJson_eq _ s.toValue_noFloat, hsame]
  subst hs'
  have hmem := mem_bundlesOf.mpr hs
  obtain ⟨hdevice, hcurve⟩ := h.own device _ hmem
  obtain rfl : device = peer := hdevice.symm.trans hverified.sameDevice
  obtain ⟨numbers, hminted⟩ := h.minted device
  obtain ⟨n, -, hn⟩ : ∃ n ∈ numbers, offered.bundle.fallbackKey =
      vodozemac.toBase64 ⟨(f.manager device).account.device, n⟩ := by
    have hkey : offered.bundle.fallbackKey ∈ (bundlesOf (f.signed device)).map (·.fallbackKey) := List.mem_map_of_mem hmem
    rw [hminted.keys, List.mem_map] at hkey
    obtain ⟨n, hn, hsame⟩ := hkey
    exact ⟨n, hn, hsame.symm⟩
  have hread := hverified.curve25519
  have hread' := hverified.fallbackKey
  rw [hcurve, T.fromBase64_toBase64] at hread
  rw [hn, T.fromBase64_toBase64] at hread'
  refine ⟨hverified.deviceId, hverified.identityPk, (Except.ok.inj hread).symm, offered.bundle, hmem, ?_⟩
  rw [hn, ← Except.ok.inj hread']

theorem account_learnPeer (m : Manager) (keys : PeerKeys vodozemac.toOlm) : (m.learnPeer keys).account = m.account := by
  unfold SessionManager.learnPeer
  split
  · split <;> rfl
  · rfl

theorem Honest.step (h : Honest E key number f) {event : Event} (hfair : Fair E ryu key f event) :
    Honest E key number (step E ryu T key f event) := by
  cases event with
  | publish device publishedAt => exact h.publish device publishedAt
  | rotate device publishedAt => exact h.rotate device publishedAt
  | discard device =>
    exact h.silent device _ rfl (fun _ hminted => hminted.discard) fun peer state hget => Or.inl ⟨state, hget, rfl⟩
  | state device statement =>
    have hgoes := h.goes_on device (f.manager device) [statement.signed] rfl
      (fun b hb => by cases statement <;> simp [bundlesOf, Statement.signed] at hb)
      (by rw [bundlesOf_signed]; exact h.minted device) fun peer state hget => Or.inl ⟨state, hget, rfl⟩
    rwa [Function.update_eq_self] at hgoes
  | fetch device peer offered =>
    unfold Fleet.step
    simp only []
    cases hverify : offered.verify E ryu T peer (E.verifyingKey (key peer)) with
    | error => exact h
    | ok keys =>
      obtain ⟨hdevice, hgenuine⟩ := h.offered hfair hverify
      have haccount := account_learnPeer (f.manager device) keys
      refine h.silent device _ (congrArg _ haccount) (fun _ hminted => haccount ▸ hminted) fun p state hget => ?_
      rcases SessionManager.learnPeer_get? hget with ⟨hp, hkeys, -⟩ | hold
      · rw [hkeys, ← hp, hdevice]
        exact Or.inr hgenuine
      · exact Or.inl ⟨state, hold, rfl⟩
  | call device c =>
    have htended := Tended.call hfair (f.manager device)
    exact h.silent device _ htended.device (fun _ hminted => hminted.tended htended) fun peer state hget =>
      Or.inl (htended.keys peer state hget)

theorem honest_start : Honest E key number (start number) := by
  refine ⟨fun _ => rfl, fun d b hb => (List.not_mem_nil hb).elim, fun d => ⟨[], ?_⟩, fun d peer state hget => ?_⟩
  · exact ⟨rfl, .nil, fun n hn => (List.not_mem_nil hn).elim, rfl, fun n hn => nomatch hn⟩
  · have hnone : (SessionManager.create vodozemac (.new (number d))).peers.get? peer = none := Table.get?_empty peer
    exact nomatch hnone.symm.trans hget

theorem honest_run (events : List Event)
    (hfair : Trace.EachStep (step E ryu T key) (Fair E ryu key) (start number) events) :
    Honest E key number (run E ryu T key (start number) events) :=
  Trace.inv_run (fun _ _ hstep h => h.step hstep) honest_start hfair

variable (E ryu T key number)

/-- Whatever the host hands out, short of forging signatures: what a device holds for a peer are the peer's own keys, and
    the peer can still read what is sealed to them exactly if they came in the newest of its bundles, or in the one before
    and it has not given that up. So two devices are ready to exchange messages as soon as each holds such keys of the
    other, and no session. -/
theorem host_run (events : List Event)
    (hfair : Trace.EachStep (step E ryu T key) (Fair E ryu key) (start number) events) :
    let f := run E ryu T key (start number) events
    (∀ device peer state, (f.manager device).peers.get? peer = some state →
      state.keys.identityPk = E.keyToBase64 (E.verifyingKey (key peer)) ∧
      state.keys.curve25519 = (f.manager peer).account.identity ∧
      ∃ place bundle, (bundlesOf (f.signed peer))[place]? = some bundle ∧
        bundle.fallbackKey = vodozemac.toBase64 state.keys.fallbackKey ∧
        ((f.manager peer).account.holds state.keys.fallbackKey = true ↔
          place + 1 = (bundlesOf (f.signed peer)).length ∨
          place + 2 = (bundlesOf (f.signed peer)).length ∧ (f.manager peer).account.previous ≠ none)) ∧
    ∀ name : Side → String, number (name .left) ≠ number (name .right) →
      (Pair.Ready name ⟨fun side => f.manager (name side), fun _ => []⟩ ↔
        ∀ side, ∃ state, (f.manager (name side)).peers.get? (name side.other) = some state ∧ state.session = none ∧
          (f.manager (name side.other)).account.holds state.keys.fallbackKey = true) := by
  intro f
  have h : Honest E key number f := honest_run events hfair
  have hidentity : ∀ peer, (⟨number peer, 0⟩ : Key) = (f.manager peer).account.identity := by
    intro peer
    rw [← h.device peer]
    rfl
  refine ⟨fun device peer state hget => ?_, fun name hname => ⟨fun hready side => ?_, fun hside => ?_⟩⟩
  · have hkeys := h.known device peer state hget
    obtain ⟨b, hb, htext⟩ := hkeys.fallbackKey
    obtain ⟨place, hplace⟩ := List.mem_iff_getElem?.mp hb
    obtain ⟨numbers, hminted⟩ := h.minted peer
    have hlength : (bundlesOf (f.signed peer)).length = numbers.length := by
      have := congrArg List.length hminted.keys
      simpa using this
    obtain ⟨n, hn, hkey⟩ : ∃ n, numbers[place]? = some n ∧ state.keys.fallbackKey = ⟨(f.manager peer).account.device, n⟩ := by
      have hat := congrArg (·[place]?) hminted.keys
      simp only [List.getElem?_map, hplace, Option.map_some] at hat
      obtain ⟨n, hn, hsame⟩ := Option.map_eq_some_iff.mp hat.symm
      exact ⟨n, hn, toBase64_inj (htext.symm.trans hsame.symm)⟩
    refine ⟨hkeys.identityPk, hkeys.curve25519.trans (hidentity peer), place, b, hplace, htext, ?_⟩
    rw [hlength, hkey]
    exact hminted.holds_iff hn
  · obtain ⟨state, hget, hsession, -, hholds⟩ := hready.keys side
    exact ⟨state, hget, hsession, hholds⟩
  · refine ⟨fun side => ?_, ?_, fun _ => rfl⟩
    · obtain ⟨state, hget, hsession, hholds⟩ := hside side
      have hkeys := h.known _ _ state hget
      exact ⟨state, hget, hsession, hkeys.curve25519.trans (hidentity _), hholds⟩
    · rw [h.device, h.device]
      exact hname

end

/-! ## Two devices and a host -/

theorem signed_fetch {E : Ed25519} {ryu : UInt64 → List Char} {T : KeyTexts vodozemac} {key : String → E.SigningKey}
    (f : Fleet) (device peer : String) (offered : SignedBundle) :
    (step E ryu T key f (.fetch device peer offered)).signed = f.signed := by
  unfold step
  simp only []
  split <;> rfl

theorem unforged_of_signed {E : Ed25519} {ryu : UInt64 → List Char} {key : String → E.SigningKey} {f : Fleet}
    {peer : String} {offered : SignedBundle} (h : .bundle offered.bundle ∈ f.signed peer) :
    Unforged E ryu key f peer offered := by
  intro canonical signature hcanonical _ _
  refine ⟨peer, rfl, .bundle offered.bundle, h, ?_⟩
  have htext : toCanonicalJson ryu (Signed.bundle offered.bundle).toValue = .ok _ :=
    toCanonicalJson_eq _ (Signed.bundle offered.bundle).toValue_noFloat
  obtain rfl := Except.ok.inj (htext.symm.trans hcanonical)
  rfl

end Fleet

/-- A key's text, read. -/
def readKey (text : String) : Except String Key :=
  match text.toList.dropWhile Char.isDigit with
  | '.' :: number =>
    .ok ⟨Nat.ofDigitChars 10 (text.toList.takeWhile Char.isDigit) 0, Nat.ofDigitChars 10 number 0⟩
  | _ => .error "not a key"

def keyTexts : KeyTexts vodozemac where
  fromBase64 := readKey
  fromBase64_toBase64 key := by
    have htext : (vodozemac.toBase64 key).toList =
        (toString key.device).toList ++ '.' :: (toString key.number).toList := by
      show (toString key.device ++ "." ++ toString key.number).toList = _
      rw [String.toList_append, String.toList_append, List.append_assoc]
      rfl
    have hdigits := Json.digits_isDigit key.device
    have hdrop : (vodozemac.toBase64 key).toList.dropWhile Char.isDigit = '.' :: (toString key.number).toList := by
      rw [htext, List.dropWhile_append_of_pos hdigits]
      rfl
    have htake : (vodozemac.toBase64 key).toList.takeWhile Char.isDigit = (toString key.device).toList := by
      rw [htext, List.takeWhile_append_of_pos hdigits]
      exact List.append_nil _
    unfold readKey
    rw [hdrop, htake]
    simp only [Nat.toString_eq_repr, Nat.toList_repr, Nat.ofDigitChars_ten_toDigits]
  toBase64_ne_empty key := by
    intro hempty
    have hlist := congrArg String.toList hempty
    simp at hlist

/-- What the device would publish first. -/
def firstBundle (device : String) (number : Nat) (key : UInt8) : SignedBundle :=
  match ((created number).publishBundle (publisher Ed25519.plain (fun _ => []) device key) "").1 with
  | .ok signed => signed
  | .error _ => ⟨⟨0, "", "", "", "", "", ""⟩, ""⟩

def hostKeys (device : String) : Ed25519.plain.SigningKey := if device = "a" then (1 : UInt8) else (2 : UInt8)

def hostNumbers (device : String) : Nat := if device = "a" then 1 else if device = "b" then 2 else 3

/-- `a` has rotated its key when the host hands `b` the bundle from before. -/
def staleBundle : List Fleet.Event :=
  [.publish "a" "", .publish "b" "", .rotate "a" "", .fetch "b" "a" (firstBundle "a" 1 1),
    .fetch "a" "b" (firstBundle "b" 2 2)]

open Fleet in
theorem stale_bundle_ready : Pair.Ready twoNames
    ⟨fun side => (run Ed25519.plain (fun _ => []) keyTexts hostKeys (start hostNumbers) staleBundle).manager
      (twoNames side), fun _ => []⟩ := by
  have hfair : Trace.EachStep (step Ed25519.plain (fun _ => []) keyTexts hostKeys)
      (Fair Ed25519.plain (fun _ => []) hostKeys) (start hostNumbers) staleBundle := by
    refine ⟨trivial, trivial, trivial, ?_, ?_, trivial⟩
    · apply unforged_of_signed
      decide +kernel
    · apply unforged_of_signed
      rw [signed_fetch]
      decide +kernel
  refine ((host_run Ed25519.plain (fun _ => []) keyTexts hostKeys hostNumbers staleBundle hfair).2 twoNames
    (by decide)).mpr fun side => ?_
  have hheld : ∀ side ∈ [Side.left, Side.right],
      (((run Ed25519.plain (fun _ => []) keyTexts hostKeys (start hostNumbers) staleBundle).manager
        (twoNames side)).peers.get? (twoNames side.other)).any (fun state => state.session.isNone &&
          ((run Ed25519.plain (fun _ => []) keyTexts hostKeys (start hostNumbers) staleBundle).manager
            (twoNames side.other)).account.holds state.keys.fallbackKey) = true := by
    decide +kernel
  have hside : side ∈ [Side.left, Side.right] := by cases side <;> decide
  obtain ⟨state, hget, hstate⟩ := (Option.any_eq_true _ _).mp (hheld side hside)
  rw [Bool.and_eq_true, Option.isNone_iff_eq_none] at hstate
  exact ⟨state, hget, hstate.1, hstate.2⟩

end Ideal

end Beacon
