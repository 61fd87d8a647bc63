/-
  Beacon.Session.Replay — a frame that was accepted once, delivered again.

  A session's message keys go as they are used, and a frame is for one end of one session.
  But a session that is replaced takes its used keys with it, and a fallback key opens the
  same inbound session again.
  - `accepted_once`: in a run that never opens an inbound session again which the peer had
    before (`Reopens`), a frame accepted once is refused ever after, and changes nothing.
  - `replayed_opener_is_accepted`: the frame that opened a session, replayed once the peer
    has opened another, is accepted and puts the old session back.
-/

import Beacon.Session.Ideal
import Beacon.Lib.Trace

namespace Beacon

open Lib

namespace Ideal

/-! ## Runs of a manager -/

inductive Call where
  | publishBundle (me : Publisher) (publishedAt : String)
  | rotateFallbackKey (me : Publisher) (publishedAt : String)
  | forgetPreviousFallbackKey
  | learnPeer (keys : PeerKeys vodozemac.toOlm)
  | forgetPeer (peer : String)
  | establishOutbound (peer : String)
  | encrypt (peer : String) (plaintext : Bytes)
  | decrypt (peer : String) (frame : Bytes)

def call (m : Manager) : Call → Manager
  | .publishBundle me publishedAt => (m.publishBundle me publishedAt).2
  | .rotateFallbackKey me publishedAt => (m.rotateFallbackKey me publishedAt).2
  | .forgetPreviousFallbackKey => m.forgetPreviousFallbackKey.2
  | .learnPeer keys => m.learnPeer keys
  | .forgetPeer peer => (m.forgetPeer peer).2
  | .establishOutbound peer => (m.establishOutbound peer).2
  | .encrypt peer plaintext => (m.encrypt peer plaintext).2
  | .decrypt peer frame => (m.decrypt peer frame).2

/-- A device that never had an account. -/
def created (device : Nat) : Manager := .create vodozemac (.new device)

abbrev runs (device : Nat) (calls : List Call) : Manager := Trace.run call (created device) calls

/-- The call decrypts this frame from the peer. -/
def Accepts (peer : String) (frame : Bytes) (m : Manager) (c : Call) : Prop :=
  c = .decrypt peer frame ∧ (m.decrypt peer frame).1.isOk = true

/-- After the call, the peer's current session is an inbound one with these keys. -/
def Answers (peer : String) (keys : SessionKeys) (m : Manager) (c : Call) : Prop :=
  ∃ session, (call m c).sessionWith peer = some session ∧ session.inbound = true ∧ session.keys = keys

/-- The call opens an inbound session: the frame is a pre-key message of another session than
    the current one, under the identity key verified for the peer, to this device and to a
    fallback key it still holds. -/
structure Opens (m : Manager) (peer : String) (frame : Bytes) (message : Message) (keys : SessionKeys) : Prop where
  decodes : decodeFrame vodozemac frame = .ok message
  preKey : message.preKeySession = some keys
  known : ∃ state, m.peers.get? peer = some state ∧ keys.identityKey = state.keys.curve25519 ∧
    ∀ current, state.session = some current → current.keys ≠ keys
  holds : m.account.holds keys.oneTimeKey = true
  recipient : ∃ index plaintext, message = .preKey keys m.account.identity index plaintext

/-- The call opens an inbound session that the peer had before in the run. -/
def Reopens (device : Nat) (before : List Call) : Call → Prop
  | .decrypt peer frame => ∃ message keys, Opens (runs device before) peer frame message keys ∧
      Trace.SomeStep call (Answers peer keys) (created device) before
  | _ => False

/-! ## What the other calls do to the sessions -/

/-- The keys are of a session this account has opened. -/
def Own (a : Account) (keys : SessionKeys) : Prop :=
  keys.baseKey.device = a.device ∧ keys.baseKey.number < a.generated

/-- Where a session held after some calls comes from, if none of them was a decryption. -/
inductive Traced (m m' : Manager) (peer : String) (session : Session) : Prop
  | kept (before : Session) : m.sessionWith peer = some before → session.keys = before.keys →
      session.inbound = before.inbound → session.received = before.received → Traced m m' peer session
  | established : session.inbound = false → session.keys.baseKey.device = m.account.device →
      m.account.generated ≤ session.keys.baseKey.number → session.keys.baseKey.number < m'.account.generated →
      Traced m m' peer session

structure Follows (m m' : Manager) : Prop where
  device : m'.account.device = m.account.device
  generated : m.account.generated ≤ m'.account.generated
  traced : ∀ peer session, m'.sessionWith peer = some session → Traced m m' peer session

theorem Follows.trans {m n k : Manager} (h : Follows m n) (h' : Follows n k) : Follows m k := by
  refine ⟨h'.device.trans h.device, h.generated.trans h'.generated, fun peer session hs => ?_⟩
  cases h'.traced peer session hs with
  | kept before hbefore hkeys hinbound hreceived =>
    cases h.traced peer before hbefore with
    | kept first hfirst hkeys' hinbound' hreceived' =>
      exact .kept first hfirst (hkeys.trans hkeys') (hinbound.trans hinbound') (hreceived.trans hreceived')
    | established hout hdevice hge hlt =>
      refine .established (hinbound.trans hout) ?_ ?_ ?_ <;> rw [hkeys]
      · exact hdevice
      · exact hge
      · exact Nat.lt_of_lt_of_le hlt h'.generated
  | established hout hdevice hge hlt =>
    exact .established hout (hdevice.trans h.device) (h.generated.trans hge) hlt

theorem sessionWith_insert (m : Manager) (account : Account) (state : PeerState vodozemac.toOlm) (peer : String) :
    SessionManager.sessionWith (V := vodozemac) ⟨account, m.peers.insert state⟩ peer =
      if state.deviceId = peer then state.session else m.sessionWith peer := by
  unfold SessionManager.sessionWith
  rw [Table.get?_insert]
  split <;> rfl

theorem sessionWith_of_get? {m : Manager} {peer : String} {state : PeerState vodozemac.toOlm}
    (h : m.peers.get? peer = some state) : m.sessionWith peer = state.session := by
  simp [SessionManager.sessionWith, h]

theorem sessionWith_set {m : Manager} {peer : String} {state : PeerState vodozemac.toOlm}
    (hget : m.peers.get? peer = some state) (account : Account) (session : Session) (p : String) :
    SessionManager.sessionWith (V := vodozemac)
      ⟨account, m.peers.insert { state with session := some session }⟩ p =
      if peer = p then some session else m.sessionWith p := by
  have hdevice : state.deviceId = peer := Table.get?_key hget
  rw [sessionWith_insert]
  show (if state.deviceId = p then some session else m.sessionWith p) = _
  rw [hdevice]

theorem of_sessionWith_set {m : Manager} {peer : String} {state : PeerState vodozemac.toOlm}
    (hget : m.peers.get? peer = some state) {account : Account} {session s : Session} {p : String}
    (hs : SessionManager.sessionWith (V := vodozemac)
      ⟨account, m.peers.insert { state with session := some session }⟩ p = some s) :
    peer = p ∧ session = s ∨ m.sessionWith p = some s := by
  rw [sessionWith_set hget] at hs
  split at hs
  · rename_i hp
    exact Or.inl ⟨hp, Option.some.inj hs⟩
  · exact Or.inr hs

/-- A call that touches no session. -/
theorem follows_of_peers {m m' : Manager} (hpeers : m'.peers = m.peers) (hdevice : m'.account.device = m.account.device)
    (hgenerated : m.account.generated ≤ m'.account.generated) : Follows m m' := by
  refine ⟨hdevice, hgenerated, fun peer session h => ?_⟩
  unfold SessionManager.sessionWith at h
  rw [hpeers] at h
  exact .kept session h rfl rfl rfl

/-- A call that writes one peer's state. -/
theorem follows_insert {m : Manager} (account : Account) {state : PeerState vodozemac.toOlm}
    (hdevice : account.device = m.account.device) (hgenerated : m.account.generated ≤ account.generated)
    (h : ∀ session, state.session = some session → Traced m ⟨account, m.peers.insert state⟩ state.deviceId session) :
    Follows m ⟨account, m.peers.insert state⟩ := by
  refine ⟨hdevice, hgenerated, fun peer session hs => ?_⟩
  rw [sessionWith_insert] at hs
  split at hs
  · rename_i hpeer
    exact hpeer ▸ h session hs
  · exact .kept session hs rfl rfl rfl

theorem follows_publishBundle (m : Manager) (me : Publisher) (publishedAt : String) :
    Follows m (m.publishBundle me publishedAt).2 := by
  have hgenerate : Follows m ⟨m.account.generateFallbackKey, m.peers⟩ := follows_of_peers rfl rfl (Nat.le_succ _)
  unfold SessionManager.publishBundle
  by_cases hnone : (vodozemac.fallbackKey m.account).isNone = true
  · rw [if_pos hnone]
    simp only []
    split
    · exact hgenerate
    · split <;> exact follows_of_peers rfl rfl (Nat.le_succ _)
  · rw [if_neg hnone]
    simp only []
    split
    · exact follows_of_peers rfl rfl (Nat.le_refl _)
    · split <;> exact follows_of_peers rfl rfl (Nat.le_refl _)

theorem follows_learnPeer (m : Manager) (keys : PeerKeys vodozemac.toOlm) : Follows m (m.learnPeer keys) := by
  unfold SessionManager.learnPeer
  cases hget : m.peers.get? keys.deviceId with
  | none => exact follows_insert m.account rfl (Nat.le_refl _) fun session h => by cases h
  | some state =>
    simp only []
    split
    · refine follows_insert m.account rfl (Nat.le_refl _) fun session h => ?_
      exact .kept session ((sessionWith_of_get? hget).trans h) rfl rfl rfl
    · exact follows_insert m.account rfl (Nat.le_refl _) fun session h => by cases h

theorem follows_forgetPeer (m : Manager) (peer : String) : Follows m (m.forgetPeer peer).2 := by
  refine ⟨rfl, Nat.le_refl _, fun p session h => ?_⟩
  have hget : ((m.peers.erase peer).get? p).bind (·.session) = some session := h
  rw [Table.get?_erase] at hget
  split at hget
  · cases hget
  · exact .kept session hget rfl rfl rfl

theorem follows_establishOutbound (m : Manager) (peer : String) : Follows m (m.establishOutbound peer).2 := by
  unfold SessionManager.establishOutbound
  cases hget : m.peers.get? peer with
  | none => exact follows_of_peers rfl rfl (Nat.le_refl _)
  | some state =>
    refine follows_insert { m.account with generated := m.account.generated + 1 } rfl (Nat.le_succ _) ?_
    intro session h
    cases h
    exact .established rfl rfl (Nat.le_refl _) (Nat.lt_succ_self _)

theorem follows_encryptInSession (m : Manager) (peer : String) (plaintext : Bytes) :
    Follows m (m.encryptInSession peer plaintext).2 := by
  unfold SessionManager.encryptInSession
  cases hget : m.peers.get? peer with
  | none => exact follows_of_peers rfl rfl (Nat.le_refl _)
  | some state =>
    simp only []
    cases hsession : state.session with
    | none => exact follows_of_peers rfl rfl (Nat.le_refl _)
    | some session =>
      refine follows_insert m.account rfl (Nat.le_refl _) fun session' h => ?_
      cases h
      have hpeer : PeerState.deviceId state = peer := Table.get?_key hget
      refine .kept session ?_ rfl rfl rfl
      rw [← hsession]
      show m.sessionWith state.deviceId = _
      rw [hpeer]
      exact sessionWith_of_get? hget

theorem follows_encrypt (m : Manager) (peer : String) (plaintext : Bytes) :
    Follows m (m.encrypt peer plaintext).2 := by
  unfold SessionManager.encrypt
  split
  · exact follows_encryptInSession m peer plaintext
  · have hestablish := follows_establishOutbound m peer
    rcases he : m.establishOutbound peer with ⟨error | _, m'⟩ <;> rw [he] at hestablish
    · exact hestablish
    · exact hestablish.trans (follows_encryptInSession m' peer plaintext)

/-- Every call but a decryption. -/
theorem follows_call (m : Manager) (c : Call) (hc : ∀ peer frame, c ≠ .decrypt peer frame) : Follows m (call m c) := by
  cases c with
  | publishBundle me publishedAt => exact follows_publishBundle m me publishedAt
  | rotateFallbackKey me publishedAt =>
    have hgenerate : Follows m ⟨m.account.generateFallbackKey, m.peers⟩ := follows_of_peers rfl rfl (Nat.le_succ _)
    exact hgenerate.trans (follows_publishBundle _ me publishedAt)
  | forgetPreviousFallbackKey => exact follows_of_peers rfl rfl (Nat.le_refl _)
  | learnPeer keys => exact follows_learnPeer m keys
  | forgetPeer peer => exact follows_forgetPeer m peer
  | establishOutbound peer => exact follows_establishOutbound m peer
  | encrypt peer plaintext => exact follows_encrypt m peer plaintext
  | decrypt peer frame => exact absurd rfl (hc peer frame)

/-! ## Decryptions -/

/-- The ends of a decryption: a refusal changes nothing. -/
inductive Took (m : Manager) (peer : String) (frame : Bytes) : Except SessionError Decrypted × Manager → Prop
  | refused (error : SessionError) : Took m peer frame (.error error, m)
  | read (state : PeerState vodozemac.toOlm) (message : Message) (session : Session) : m.peers.get? peer = some state →
      decodeFrame vodozemac frame = .ok message → state.session = some session → session.isFor message = true →
      message.index ∉ session.received →
      Took m peer frame (.ok ⟨peer, message.plaintext, false⟩,
        { m with peers := m.peers.insert { state with
            session := some { session with heard := true, received := message.index :: session.received } } })
  | opened (state : PeerState vodozemac.toOlm) (message : Message) (keys : SessionKeys) (index : Nat) :
      m.peers.get? peer = some state → Opens m peer frame message keys → message.index = index →
      Took m peer frame (.ok ⟨peer, message.plaintext, true⟩,
        { m with peers := m.peers.insert { state with
            session := some ⟨keys, m.account.identity, true, true, 0, [index]⟩ } })

theorem decrypt_took (m : Manager) (peer : String) (frame : Bytes) : Took m peer frame (m.decrypt peer frame) := by
  have hcases := m.decrypt_cases peer frame
  generalize m.decrypt peer frame = after at hcases ⊢
  cases hcases with
  | unread error _ => exact .refused error
  | noSession state message _ _ _ _ => exact .refused _
  | read state message session session' plaintext hget hdecode hsession _ hresult =>
    rcases session.decrypt_cases message with ⟨⟨hfor, hnew⟩, hread⟩ | ⟨-, error, hread⟩
    · cases hread.symm.trans hresult
      exact .read state message session hget hdecode hsession hfor hnew
    · cases hread.symm.trans hresult
  | lost state message session session' error hget _ hsession _ hresult =>
    rcases session.decrypt_cases message with ⟨-, hread⟩ | ⟨-, error, hread⟩
    · cases hread.symm.trans hresult
    cases hread.symm.trans hresult
    have hsame : m.peers.insert { state with session := some session } = m.peers := by
      rw [← hsession, Table.insert_eq_self_iff]
      rw [show PeerState.deviceId _ = peer from Table.get?_key hget]
      exact hget
    rw [hsame]
    exact .refused _
  | opened state message id session plaintext account hget hdecode hid hother hresult =>
    cases message with
    | normal keys fromInbound index text => cases hid
    | preKey keys recipient index text =>
      rcases m.account.createInbound_cases state.keys.curve25519 keys recipient index text with
        ⟨⟨hidentity, hholds, rfl⟩, hopens⟩ | ⟨-, detail, hopens⟩
      · cases hopens.symm.trans hresult
        cases hid
        exact .opened state _ id index hget
          ⟨hdecode, rfl, ⟨state, hget, hidentity, hother⟩, hholds, ⟨index, _, rfl⟩⟩ rfl
      · cases hopens.symm.trans hresult
  | refused state message id detail account _ _ hid _ hresult =>
    cases message with
    | normal keys fromInbound index text => cases hid
    | preKey keys recipient index text =>
      rcases m.account.createInbound_cases state.keys.curve25519 keys recipient index text with
        ⟨-, hopens⟩ | ⟨-, detail, hopens⟩
      · cases hopens.symm.trans hresult
      · cases hopens.symm.trans hresult
        exact .refused _

/-! ## Accepted once -/

/-- Of a run so far: a session is one this account opened or one a frame opened in the run,
    and whatever was accepted has lost its message key, if its session is still there. -/
structure Guarded (device : Nat) (before : List Call) (m : Manager) : Prop where
  inbound : ∀ peer session, m.sessionWith peer = some session → session.inbound = true →
    Trace.SomeStep call (Answers peer session.keys) (created device) before
  outbound : ∀ peer session, m.sessionWith peer = some session → session.inbound = false → Own m.account session.keys
  accepted : ∀ peer frame, Trace.SomeStep call (Accepts peer frame) (created device) before →
    ∃ message, decodeFrame vodozemac frame = .ok message ∧
      (message.fromInbound = false → Trace.SomeStep call (Answers peer message.keys) (created device) before) ∧
      (message.fromInbound = true → Own m.account message.keys) ∧
      ∀ session, m.sessionWith peer = some session → session.isFor message = true → message.index ∈ session.received

section Guarded

variable {device : Nat} {before : List Call}

theorem Own.mono {a a' : Account} {keys : SessionKeys} (h : Own a keys) (hdevice : a'.device = a.device)
    (hgenerated : a.generated ≤ a'.generated) : Own a' keys :=
  ⟨h.1.trans hdevice.symm, Nat.lt_of_lt_of_le h.2 hgenerated⟩

theorem someStep_snoc_left {P : Manager → Call → Prop} {m : Manager} {c : Call}
    (h : Trace.SomeStep call P m before) : Trace.SomeStep call P m (before ++ [c]) :=
  Trace.someStep_snoc.mpr (Or.inl h)

theorem guarded_created (device : Nat) : Guarded device [] (created device) := by
  have hnone : ∀ peer, (created device).sessionWith peer = none := fun peer => by
    simp [created, SessionManager.create, SessionManager.sessionWith]
  refine ⟨fun peer session h => ?_, fun peer session h => ?_, fun peer frame h => h.elim⟩
  · rw [hnone] at h; cases h
  · rw [hnone] at h; cases h

theorem Guarded.call {c : Call} (h : Guarded device before (runs device before))
    (hc : ∀ peer frame, c ≠ .decrypt peer frame) :
    Guarded device (before ++ [c]) (Ideal.call (runs device before) c) := by
  have hfollows := follows_call (runs device before) c hc
  refine ⟨fun peer session hs hin => ?_, fun peer session hs hout => ?_, fun peer frame haccepts => ?_⟩
  · cases hfollows.traced peer session hs with
    | kept first hfirst hkeys hinbound _ =>
      rw [hkeys]
      exact someStep_snoc_left (h.inbound peer first hfirst (hinbound ▸ hin))
    | established hout _ _ _ => rw [hin] at hout; cases hout
  · cases hfollows.traced peer session hs with
    | kept first hfirst hkeys hinbound _ =>
      rw [hkeys]
      exact (h.outbound peer first hfirst (hinbound ▸ hout)).mono hfollows.device hfollows.generated
    | established _ hdevice _ hlt => exact ⟨hdevice.trans hfollows.device.symm, hlt⟩
  · rcases Trace.someStep_snoc.mp haccepts with haccepts | ⟨hdecrypt, -⟩
    swap
    · exact absurd hdecrypt (hc peer frame)
    obtain ⟨message, hdecode, hanswers, hown, hused⟩ := h.accepted peer frame haccepts
    refine ⟨message, hdecode, fun hout => someStep_snoc_left (hanswers hout),
      fun hin => (hown hin).mono hfollows.device hfollows.generated, fun session hs hfor => ?_⟩
    cases hfollows.traced peer session hs with
    | kept first hfirst hkeys hinbound hreceived =>
      rw [hreceived]
      refine hused first hfirst ?_
      rw [isFor_iff, hkeys, hinbound] at hfor
      exact isFor_iff.mpr hfor
    | established hout _ hge _ =>
      -- a session opened now is not the one the message was read in
      obtain ⟨hkeys, hside⟩ := isFor_iff.mp hfor
      rw [hout] at hside
      have hlt := (hown hside).2
      rw [hkeys] at hlt
      omega

theorem Guarded.decrypt {peer : String} {frame : Bytes} (h : Guarded device before (runs device before))
    (hnot : ¬ Reopens device before (.decrypt peer frame)) :
    Guarded device (before ++ [.decrypt peer frame]) (Ideal.call (runs device before) (.decrypt peer frame)) := by
  have htook := decrypt_took (runs device before) peer frame
  have hstep : ∀ p f, Trace.SomeStep Ideal.call (Accepts p f) (created device) (before ++ [.decrypt peer frame]) →
      Trace.SomeStep Ideal.call (Accepts p f) (created device) before ∨
        p = peer ∧ f = frame ∧ ((runs device before).decrypt peer frame).1.isOk = true := by
    intro p f hp
    rcases Trace.someStep_snoc.mp hp with hp | ⟨heq, hok⟩
    · exact Or.inl hp
    · cases heq
      exact Or.inr ⟨rfl, rfl, hok⟩
  have hanswered : ∀ keys session,
      ((runs device before).decrypt peer frame).2.sessionWith peer = some session →
      session.inbound = true → session.keys = keys →
      Trace.SomeStep Ideal.call (Answers peer keys) (created device) (before ++ [.decrypt peer frame]) :=
    fun keys session hs hin hkeys => Trace.someStep_snoc.mpr (Or.inr ⟨session, hs, hin, hkeys⟩)
  show Guarded device _ ((runs device before).decrypt peer frame).2
  generalize (runs device before).decrypt peer frame = after at htook hstep hanswered ⊢
  cases htook with
  | refused error =>
    refine ⟨fun p session hs hin => someStep_snoc_left (h.inbound p session hs hin), h.outbound, fun p f hp => ?_⟩
    rcases hstep p f hp with hp | ⟨-, -, hok⟩
    · obtain ⟨message, hdecode, hanswers, hown, hused⟩ := h.accepted p f hp
      exact ⟨message, hdecode, fun hout => someStep_snoc_left (hanswers hout), hown, hused⟩
    · cases hok
  | read state message session hget hdecode hsession hfor hnew =>
    have hwith : (runs device before).sessionWith peer = some session := (sessionWith_of_get? hget).trans hsession
    obtain ⟨hkeys, hside⟩ := isFor_iff.mp hfor
    refine ⟨fun p s hs hin => ?_, fun p s hs hout => ?_, fun p f hp => ?_⟩
    · rcases of_sessionWith_set hget hs with ⟨rfl, rfl⟩ | hs
      · exact someStep_snoc_left (h.inbound peer session hwith hin)
      · exact someStep_snoc_left (h.inbound p s hs hin)
    · rcases of_sessionWith_set hget hs with ⟨rfl, rfl⟩ | hs
      · exact h.outbound peer session hwith hout
      · exact h.outbound p s hs hout
    · rcases hstep p f hp with hp | ⟨rfl, rfl, -⟩
      · obtain ⟨message', hdecode', hanswers, hown, hused⟩ := h.accepted p f hp
        refine ⟨message', hdecode', fun hout => someStep_snoc_left (hanswers hout), hown, fun s hs hfor' => ?_⟩
        rcases of_sessionWith_set hget hs with ⟨rfl, rfl⟩ | hs
        · exact List.mem_cons_of_mem _ (hused session hwith (isFor_iff.mpr (isFor_iff.mp hfor')))
        · exact hused s hs hfor'
      · refine ⟨message, hdecode, fun hout => ?_, fun hin => ?_, fun s hs _ => ?_⟩
        · rw [hout] at hside
          rw [hkeys]
          exact someStep_snoc_left (h.inbound p session hwith (by simpa using hside.symm))
        · rw [hin] at hside
          rw [hkeys]
          exact h.outbound p session hwith (by simpa using hside.symm)
        · rw [sessionWith_set hget, if_pos rfl] at hs
          cases hs
          exact List.mem_cons_self
  | opened state message keys index hget hopens hindex =>
    obtain ⟨index', plaintext, hmessage⟩ := hopens.recipient
    refine ⟨fun p s hs hin => ?_, fun p s hs hout => ?_, fun p f hp => ?_⟩
    · rcases of_sessionWith_set hget hs with ⟨rfl, rfl⟩ | hs'
      · exact hanswered keys _ hs hin rfl
      · exact someStep_snoc_left (h.inbound p s hs' hin)
    · rcases of_sessionWith_set hget hs with ⟨-, rfl⟩ | hs
      · cases hout
      · exact h.outbound p s hs hout
    · rcases hstep p f hp with hp | ⟨rfl, rfl, -⟩
      · obtain ⟨message', hdecode', hanswers, hown, hused⟩ := h.accepted p f hp
        refine ⟨message', hdecode', fun hout => someStep_snoc_left (hanswers hout), hown, fun s hs hfor => ?_⟩
        rcases of_sessionWith_set hget hs with ⟨rfl, rfl⟩ | hs
        · -- the session is new, so no message of it was accepted before
          obtain ⟨hkeys, hside⟩ := isFor_iff.mp hfor
          have hbefore := hanswers hside
          rw [hkeys] at hbefore
          exact absurd ⟨message, keys, hopens, hbefore⟩ hnot
        · exact hused s hs hfor
      · refine ⟨message, hopens.decodes, fun _ => ?_, fun hin => ?_, fun s hs _ => ?_⟩
        · refine hanswered message.keys _ (by rw [sessionWith_set hget, if_pos rfl]) rfl ?_
          rw [hmessage]
          rfl
        · rw [hmessage] at hin; cases hin
        · rw [sessionWith_set hget, if_pos rfl] at hs
          cases hs
          rw [hindex]
          exact List.mem_singleton_self _

end Guarded

theorem guarded_run (device : Nat) (calls : List Call)
    (h : ∀ before c after, calls = before ++ c :: after → ¬ Reopens device before c) :
    Guarded device calls (runs device calls) := by
  refine Trace.run_prefix_induction (M := fun before m => m = runs device before ∧ Guarded device before m)
    ⟨rfl, guarded_created device⟩ (fun before c after hsplit hbefore => ?_) |>.2
  obtain ⟨-, hguarded⟩ := hbefore
  refine ⟨(Trace.run_snoc _ _ _).symm, ?_⟩
  cases c with
  | decrypt peer frame => exact hguarded.decrypt (h before _ after hsplit)
  | _ => exact hguarded.call fun _ _ hc => by cases hc

/-- In a run that reopens no session: a frame accepted once from a peer is refused whenever
    the peer's channel brings it again, and the refusal changes nothing. -/
theorem accepted_once (device : Nat) (calls : List Call)
    (h : ∀ before c after, calls = before ++ c :: after → ¬ Reopens device before c) (before after : List Call)
    (peer : String) (frame : Bytes) (hsplit : calls = before ++ .decrypt peer frame :: after)
    (haccepted : Trace.SomeStep call (Accepts peer frame) (created device) before) :
    ((runs device before).decrypt peer frame).1.isOk = false ∧
      ((runs device before).decrypt peer frame).2 = runs device before := by
  have hguarded : Guarded device before (runs device before) := by
    refine guarded_run device before fun pre c post hpre => h pre c (post ++ .decrypt peer frame :: after) ?_
    rw [hsplit, hpre, List.append_assoc]
    rfl
  obtain ⟨message, hdecode, hanswers, -, hused⟩ := hguarded.accepted peer frame haccepted
  have hnot := h before _ after hsplit
  have htook := decrypt_took (runs device before) peer frame
  generalize (runs device before).decrypt peer frame = result at htook ⊢
  cases htook with
  | refused error => exact ⟨rfl, rfl⟩
  | read state message' session hget hdecode' hsession hfor hnew =>
    obtain rfl : message = message' := Except.ok.inj (hdecode.symm.trans hdecode')
    exact absurd (hused session ((sessionWith_of_get? hget).trans hsession) hfor) hnew
  | opened state message' keys index _ hopens _ =>
    obtain rfl : message = message' := Except.ok.inj (hdecode.symm.trans hopens.decodes)
    obtain ⟨index', plaintext, hmessage⟩ := hopens.recipient
    have hkeys : message.keys = keys := by rw [hmessage]; rfl
    have hbefore := hanswers (by rw [hmessage]; rfl)
    rw [hkeys] at hbefore
    exact absurd ⟨message, keys, hopens, hbefore⟩ hnot

/-! ## An opener replayed -/

/-- `a`, which is device 0, has the keys of `b`, which is device 1. -/
def alice : Manager := (created 0).learnPeer ⟨"b", "kb", ⟨1, 0⟩, ⟨1, 1⟩, "1"⟩

def frameOf (m : Manager) : Bytes :=
  match (m.encrypt "b" [7]).1 with
  | .ok frame => frame
  | .error _ => []

/-- The frame that opens `a`'s first session with `b`. -/
def opener : Bytes := frameOf alice

/-- `b` publishes its keys, learns `a`'s, and decrypts the opener. -/
def opened : List Call :=
  [.publishBundle ⟨"b", "kb", fun _ => .ok ""⟩ "", .learnPeer ⟨"a", "ka", ⟨0, 0⟩, ⟨0, 9⟩, "9"⟩, .decrypt "a" opener]

instance (peer : String) (frame : Bytes) (m : Manager) : (c : Call) → Decidable (Accepts peer frame m c)
  | .decrypt p f =>
    if h : p = peer ∧ f = frame then
      if hok : (m.decrypt peer frame).1.isOk = true then .isTrue ⟨by rw [h.1, h.2], hok⟩
      else .isFalse fun ha => hok ha.2
    else .isFalse fun ha => h (by cases ha.1; exact ⟨rfl, rfl⟩)
  | .publishBundle _ _ => .isFalse fun ha => by cases ha.1
  | .rotateFallbackKey _ _ => .isFalse fun ha => by cases ha.1
  | .forgetPreviousFallbackKey => .isFalse fun ha => by cases ha.1
  | .learnPeer _ => .isFalse fun ha => by cases ha.1
  | .forgetPeer _ => .isFalse fun ha => by cases ha.1
  | .establishOutbound _ => .isFalse fun ha => by cases ha.1
  | .encrypt _ _ => .isFalse fun ha => by cases ha.1

theorem not_reopens_opened (before : List Call) (c : Call) (after : List Call)
    (hsplit : opened ++ [.decrypt "a" opener] = before ++ c :: after) : ¬ Reopens 1 before c := by
  intro hreopens
  have hsession : (runs 1 opened).sessionWith "a" =
      some ⟨⟨⟨0, 0⟩, ⟨0, 1⟩, ⟨1, 1⟩⟩, ⟨1, 0⟩, true, true, 0, [0]⟩ := by decide +kernel
  have hopener : decodeFrame vodozemac opener = .ok (.preKey ⟨⟨0, 0⟩, ⟨0, 1⟩, ⟨1, 1⟩⟩ ⟨1, 0⟩ 0 [7]) :=
    decodeFrame_encodeFrame _
  rcases before with _ | ⟨c₁, _ | ⟨c₂, _ | ⟨c₃, _ | ⟨c₄, before⟩⟩⟩⟩
  · simp only [opened, List.nil_append, List.cons_append, List.cons.injEq] at hsplit
    rw [← hsplit.1] at hreopens
    exact hreopens
  · simp only [opened, List.nil_append, List.cons_append, List.cons.injEq] at hsplit
    rw [← hsplit.2.1] at hreopens
    exact hreopens
  · -- the opener arrives for the first time: there was no session yet
    simp only [opened, List.nil_append, List.cons_append, List.cons.injEq] at hsplit
    obtain ⟨rfl, rfl, rfl, -⟩ := hsplit
    obtain ⟨message, keys, -, hbefore⟩ := hreopens
    rcases hbefore with ⟨session, hs, -⟩ | ⟨session, hs, -⟩ | hbefore
    · have hnone : (call (created 1) (.publishBundle ⟨"b", "kb", fun _ => .ok ""⟩ "")).sessionWith "a" = none := by
        decide +kernel
      rw [hnone] at hs; cases hs
    · have hnone : (call (call (created 1) (.publishBundle ⟨"b", "kb", fun _ => .ok ""⟩ ""))
          (.learnPeer ⟨"a", "ka", ⟨0, 0⟩, ⟨0, 9⟩, "9"⟩)).sessionWith "a" = none := by decide +kernel
      rw [hnone] at hs; cases hs
    · exact hbefore
  · -- and then again: its session is the current one
    simp only [opened, List.nil_append, List.cons_append, List.cons.injEq] at hsplit
    obtain ⟨rfl, rfl, rfl, rfl, -⟩ := hsplit
    obtain ⟨message, keys, hopens, -⟩ := hreopens
    obtain ⟨state, hget, -, hother⟩ := hopens.known
    have hmessage := Except.ok.inj (hopener.symm.trans hopens.decodes)
    have hkeys := hopens.preKey
    rw [← hmessage] at hkeys
    cases hkeys
    exact hother _ ((sessionWith_of_get? hget).symm.trans hsession) rfl
  · have hlength := congrArg List.length hsplit
    simp [opened] at hlength

theorem opener_accepted_once :
    ((runs 1 opened).decrypt "a" opener).1.isOk = false ∧ ((runs 1 opened).decrypt "a" opener).2 = runs 1 opened :=
  accepted_once 1 (opened ++ [.decrypt "a" opener]) not_reopens_opened opened [] "a" opener rfl (by decide +kernel)

/-- Then `a` opens another session, and `b` decrypts a frame of it. -/
def reestablished : List Call :=
  opened ++ [.decrypt "a" (frameOf ((alice.encrypt "b" [7]).2.establishOutbound "b").2)]

theorem replayed_opener_is_accepted :
    ¬ ∀ (device : Nat) (before : List Call) (peer : String) (frame : Bytes),
      Trace.SomeStep call (Accepts peer frame) (created device) before →
        ((runs device before).decrypt peer frame).1.isOk = false ∧
          ((runs device before).decrypt peer frame).2.sessionWith peer = (runs device before).sessionWith peer := by
  intro h
  have hrefused := (h 1 reestablished "a" opener (by decide +kernel)).1
  exact absurd hrefused (by decide +kernel)

end Ideal

end Beacon
