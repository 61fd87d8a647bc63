/-
  Beacon.Session.Stream — two managers over a network that gives no guarantee: any frame
  ever sealed may be delivered at any time, again, or never, and meanwhile both managers
  deal with other peers as they like.

  An `End` of a link is used here with everything it ever sent as its flight; `Streaming` is
  where two such ends stand as long as no side opens a session while the other has one.
  - `stream_run`: sealing then never fails, and a delivery decrypts exactly if it is the first
    of its frame, to the plaintext that was sealed.
-/

import Beacon.Session.Pair

namespace Beacon

open Lib

namespace Ideal

/-! ## The network -/

structure Net where
  manager : Side → Manager
  /-- What a side has sealed for the other, oldest first: the plaintexts and the frames. -/
  sealed : Side → List (Bytes × Bytes)

/-- A call about other peers that leaves this account's own keys in place. -/
def Elsewhere (peer : String) : Call → Prop
  | .learnPeer keys => keys.deviceId ≠ peer
  | .forgetPeer p | .establishOutbound p | .encrypt p _ | .decrypt p _ => p ≠ peer
  | .publishBundle _ _ | .rotateFallbackKey _ _ | .forgetPreviousFallbackKey => False

namespace Net

inductive Event where
  | encrypt (side : Side) (plaintext : Bytes)
  /-- The frame at this place of what the side has sealed. -/
  | deliver (side : Side) (place : Nat)
  | aside (side : Side) (call : Call)

variable (name : Side → String)

def step (n : Net) : Event → Net
  | .encrypt side plaintext =>
    match (n.manager side).encrypt (name side.other) plaintext with
    | (.ok frame, m) =>
      { manager := Function.update n.manager side m
        sealed := Function.update n.sealed side (n.sealed side ++ [(plaintext, frame)]) }
    | (.error _, m) => { n with manager := Function.update n.manager side m }
  | .deliver side place =>
    match (n.sealed side)[place]? with
    | none => n
    | some (_, frame) =>
      { n with manager := Function.update n.manager side.other ((n.manager side.other).decrypt (name side) frame).2 }
  | .aside side c => { n with manager := Function.update n.manager side (call (n.manager side) c) }

abbrev run (n : Net) (events : List Event) : Net := Trace.run (step name) n events

/-- No side opens a session while the other has one. -/
def Fair (n : Net) : Event → Prop
  | .encrypt side _ => (n.manager side).sessionWith (name side.other) = none →
      (n.manager side.other).sessionWith (name side) = none
  | .deliver _ _ => True
  | .aside side c => Elsewhere (name side.other) c

/-- The frame at this place is there, and is delivered. -/
def Delivers (side : Side) (place : Nat) (n : Net) (event : Event) : Prop :=
  event = .deliver side place ∧ place < (n.sealed side).length

def ofPair (p : Pair) : Net := ⟨p.manager, fun _ => []⟩

theorem sealed_deliver (n : Net) (side : Side) (place : Nat) : (n.step name (.deliver side place)).sealed = n.sealed := by
  unfold step
  simp only []
  split <;> rfl

theorem deliver_none {n : Net} {side : Side} {place : Nat} (h : (n.sealed side)[place]? = none) :
    n.step name (.deliver side place) = n := by
  unfold step
  simp only [h]

theorem deliver_some {n : Net} {side : Side} {place : Nat} {plaintext frame : Bytes}
    (h : (n.sealed side)[place]? = some (plaintext, frame)) :
    (n.step name (.deliver side place)).manager =
      Function.update n.manager side.other ((n.manager side.other).decrypt (name side) frame).2 := by
  unfold step
  simp only [h]

/-- What a side was asked to seal for the other. -/
def asked (side : Side) (events : List Event) : List Bytes :=
  events.filterMap fun event =>
    match event with
    | .encrypt s plaintext => if s = side then some plaintext else none
    | _ => none

end Net

/-! ## Dealings with others -/

theorem account_createInbound (a : Account) (identity : Key) (message : Message) :
    (a.createInboundSession identity message).2 = a := by
  cases message with
  | normal keys side index plaintext => rfl
  | preKey keys recipient index plaintext =>
    rcases a.createInbound_cases identity keys recipient index plaintext with ⟨-, hopens⟩ | ⟨-, detail, hfails⟩
    · rw [hopens]
    · rw [hfails]

/-- What such a call leaves as it was. -/
structure Untouched (peer : String) (m m' : Manager) : Prop where
  device : m'.account.device = m.account.device
  holds : ∀ key, m'.account.holds key = m.account.holds key
  state : m'.peers.get? peer = m.peers.get? peer

namespace Untouched

variable {peer p : String} {m m' m'' : Manager}

theorem refl (peer : String) (m : Manager) : Untouched peer m m := ⟨rfl, fun _ => rfl, rfl⟩

theorem trans (h : Untouched peer m m') (h' : Untouched peer m' m'') : Untouched peer m m'' :=
  ⟨h'.device.trans h.device, fun key => (h'.holds key).trans (h.holds key), h'.state.trans h.state⟩

theorem insert (hne : p ≠ peer) (state : PeerState vodozemac.toOlm) (hstate : state.deviceId = p) (account : Account)
    (hdevice : account.device = m.account.device) (hholds : ∀ key, account.holds key = m.account.holds key) :
    Untouched peer m ⟨account, m.peers.insert state⟩ := by
  refine ⟨hdevice, hholds, ?_⟩
  show (m.peers.insert state).get? peer = _
  rw [Table.get?_insert, if_neg (hstate ▸ hne)]

theorem set (hne : p ≠ peer) {state : PeerState vodozemac.toOlm} (hget : m.peers.get? p = some state)
    (account : Account) (session : Option Session) (hdevice : account.device = m.account.device)
    (hholds : ∀ key, account.holds key = m.account.holds key) :
    Untouched peer m ⟨account, m.peers.insert { state with session }⟩ := by
  have hstate : state.deviceId = p := Table.get?_key hget
  exact insert hne { state with session } hstate account hdevice hholds

theorem establishOutbound (hne : p ≠ peer) (m : Manager) : Untouched peer m (m.establishOutbound p).2 := by
  unfold SessionManager.establishOutbound
  cases hget : m.peers.get? p with
  | none => exact refl peer m
  | some state => exact set hne hget { m.account with generated := m.account.generated + 1 } (some _) rfl fun _ => rfl

theorem encryptInSession (hne : p ≠ peer) (m : Manager) (plaintext : Bytes) :
    Untouched peer m (m.encryptInSession p plaintext).2 := by
  unfold SessionManager.encryptInSession
  cases hget : m.peers.get? p with
  | none => exact refl peer m
  | some state =>
    simp only []
    split
    · exact refl peer m
    · split
      · exact set hne hget m.account (some _) rfl fun _ => rfl
      · exact set hne hget m.account (some _) rfl fun _ => rfl

theorem encrypt (hne : p ≠ peer) (m : Manager) (plaintext : Bytes) : Untouched peer m (m.encrypt p plaintext).2 := by
  unfold SessionManager.encrypt
  split
  · exact encryptInSession hne m plaintext
  · have hopen := establishOutbound hne m
    split
    next heq => rwa [heq] at hopen
    next heq =>
      rw [heq] at hopen
      exact hopen.trans (encryptInSession hne _ plaintext)

theorem learnPeer (keys : PeerKeys vodozemac.toOlm) (hne : keys.deviceId ≠ peer) (m : Manager) :
    Untouched peer m (m.learnPeer keys) := by
  unfold SessionManager.learnPeer
  cases hget : m.peers.get? keys.deviceId with
  | none => exact insert hne ⟨keys, none⟩ rfl m.account rfl fun _ => rfl
  | some state =>
    simp only []
    split
    · exact insert hne { state with keys } rfl m.account rfl fun _ => rfl
    · exact insert hne ⟨keys, none⟩ rfl m.account rfl fun _ => rfl

theorem forgetPeer (hne : p ≠ peer) (m : Manager) : Untouched peer m (m.forgetPeer p).2 := by
  refine ⟨rfl, fun _ => rfl, ?_⟩
  show (m.peers.erase p).get? peer = _
  rw [Table.get?_erase, if_neg hne]

theorem decrypt (hne : p ≠ peer) (m : Manager) (frame : Bytes) : Untouched peer m (m.decrypt p frame).2 := by
  have hcases := SessionManager.decrypt_cases m p frame
  generalize m.decrypt p frame = result at hcases ⊢
  cases hcases with
  | unread | noSession => exact refl peer m
  | read state message session session' plaintext hget => exact set hne hget m.account (some session') rfl fun _ => rfl
  | lost state message session session' error hget => exact set hne hget m.account (some session') rfl fun _ => rfl
  | opened state message id session plaintext account hget hdecode hid hother hcreate =>
    obtain rfl : m.account = account :=
      (account_createInbound m.account state.keys.curve25519 message).symm.trans (congrArg Prod.snd hcreate)
    exact set hne hget m.account (some session) rfl fun _ => rfl
  | refused state message id detail account hget hdecode hid hother hcreate =>
    obtain rfl : m.account = account :=
      (account_createInbound m.account state.keys.curve25519 message).symm.trans (congrArg Prod.snd hcreate)
    exact refl peer m

theorem call {c : Call} (h : Elsewhere peer c) (m : Manager) : Untouched peer m (call m c) := by
  cases c with
  | publishBundle | rotateFallbackKey | forgetPreviousFallbackKey => exact h.elim
  | learnPeer keys => exact learnPeer keys h m
  | forgetPeer p => exact forgetPeer h m
  | establishOutbound p => exact establishOutbound h m
  | encrypt p plaintext => exact encrypt h m plaintext
  | decrypt p frame => exact decrypt h m frame

end Untouched

/-! ## The two ends -/

/-- All that one end has sent in a session, in order. -/
structure InSession (keys : SessionKeys) (fromInbound : Bool) (sent : Nat) (messages : List Message) : Prop where
  length : messages.length = sent
  message : ∀ (i : Nat) (m : Message), messages[i]? = some m → m.keys = keys ∧ m.fromInbound = fromInbound ∧ m.index = i

theorem InSession.snoc {keys : SessionKeys} {fromInbound : Bool} {sent : Nat} {messages : List Message} {m : Message}
    (h : InSession keys fromInbound sent messages) (hkeys : m.keys = keys) (hside : m.fromInbound = fromInbound)
    (hindex : m.index = sent) : InSession keys fromInbound (sent + 1) (messages ++ [m]) := by
  refine ⟨by rw [List.length_append, h.length]; rfl, fun i n hn => ?_⟩
  rcases Nat.lt_or_ge i messages.length with hi | hi
  · rw [List.getElem?_append_left hi] at hn
    exact h.message i n hn
  · rw [List.getElem?_append_right hi, List.getElem?_singleton] at hn
    split at hn
    · cases hn
      exact ⟨hkeys, hside, by rw [hindex, ← h.length]; omega⟩
    · cases hn

/-- `x` opened the session that `y` answered. -/
structure Shared (x y : End) (s t : Session) : Prop where
  outbound : x.session = some s ∧ s.inbound = false
  inbound : y.session = some t ∧ t.inbound = true ∧ t.heard = true
  keys : t.keys = s.keys
  sent : InSession s.keys false s.sent x.flight
  back : InSession s.keys true t.sent y.flight

/-- `x` opened the session, if anyone did. `atY` are the places of what `x` sent that `y` has read, and `atX` the other
    way round. -/
inductive Streaming (x y : End) (atY atX : List Nat) : Prop
  | idle : x.session = none → y.session = none → x.flight = [] → y.flight = [] → atY = [] → atX = [] →
      Streaming x y atY atX
  | opened (s : Session) : Opening x y s → s.received = [] → InSession s.keys false s.sent x.flight →
      y.session = none → y.flight = [] → atY = [] → atX = [] → Streaming x y atY atX
  | joined (s t : Session) : Shared x y s t → t.received = atY → s.received = atX → Streaming x y atY atX

namespace Streaming

variable {x y : End} {atX atY : List Nat} {m : Message} {i : Nat}

theorem send (hxy : Bound x y) (hyx : Bound y x) (h : Streaming x y atY atX) (plaintext : Bytes) :
    Streaming (x.send plaintext) y atY atX := by
  cases h with
  | idle hx hy hfx hfy hatY hatX =>
    refine .opened _ (.fresh hxy hyx hx hfx plaintext) (by simp [End.sealing, hx]) ?_ hy hfy hatY hatX
    rw [send_fresh hx, hfx]
    exact InSession.snoc ⟨rfl, fun i m hm => by cases hm⟩ rfl rfl rfl
  | opened s hopening hreceived hsent hy hfy hatY hatX =>
    refine .opened _ (hopening.send plaintext) hreceived ?_ hy hfy hatY hatX
    obtain ⟨hkeys, hside, hindex⟩ := message_of_outbound hopening.outbound plaintext
    rw [send_held hopening.session]
    exact hsent.snoc hkeys hside hindex
  | joined s t hshared hatY hatX =>
    obtain ⟨hkeys, hside, hindex⟩ := message_of_outbound hshared.outbound.2 plaintext
    refine .joined { s with sent := s.sent + 1 } t ?_ hatY hatX
    rw [send_held hshared.outbound.1]
    exact { hshared with outbound := ⟨rfl, hshared.outbound.2⟩, sent := hshared.sent.snoc hkeys hside hindex }

/-- The other end sends, and does not open a session while there is one. -/
theorem send_back (hxy : Bound x y) (hyx : Bound y x) (h : Streaming x y atY atX) (plaintext : Bytes)
    (hfair : y.session = none → x.session = none) :
    Streaming x (y.send plaintext) atY atX ∨ Streaming (y.send plaintext) x atX atY := by
  cases h with
  | idle hx hy hfx hfy hatY hatX => exact Or.inr (send hyx hxy (.idle hy hx hfy hfx hatX hatY) plaintext)
  | opened s hopening _ _ hy =>
    have hnone := hopening.session.symm.trans (hfair hy)
    cases hnone
  | joined s t hshared hatY hatX =>
    obtain ⟨hsession, hinbound, hheard⟩ := hshared.inbound
    refine Or.inl (.joined s { t with sent := t.sent + 1 } ?_ hatY hatX)
    rw [send_held hsession, message_heard hheard]
    exact { hshared with
      inbound := ⟨rfl, hinbound, hheard⟩
      back := hshared.back.snoc hshared.keys hinbound rfl }

/-- The message is of the session at hand, and was read in it. -/
def Used (e : End) (m : Message) : Prop :=
  ∃ s, e.session = some s ∧ m.keys = s.keys ∧ m.fromInbound = (!s.inbound) ∧ m.index ∈ s.received

theorem take_used {e : End} (h : Used e m) : e.take m = none := by
  obtain ⟨s, hs, hkeys, -, hused⟩ := h
  have hread : e.session.bind (End.read · m) = none := by
    rw [hs]
    exact if_neg fun h => h.2 hused
  cases m with
  | normal keys fromInbound index plaintext => exact hread
  | preKey keys recipient index plaintext =>
    have hsame : s.keys = keys := hkeys.symm
    have hcurrent : (e.session.any fun s => s.keys = keys) = true := by simp [hs, hsame]
    unfold End.take
    simp only []
    rw [if_pos hcurrent]
    exact hread

theorem receive_refused {e : End} (h : e.take m = none) : e.receive m = e := by
  unfold End.receive
  rw [h]
  rfl

/-- What the other end makes of a message that was sent to it. -/
theorem deliver (h : Streaming x y atY atX) (hm : x.flight[i]? = some m) :
    (i ∉ atY ∧ (y.take m).isSome = true ∧ Streaming x (y.receive m) (i :: atY) atX) ∨
      i ∈ atY ∧ Used y m := by
  cases h with
  | idle _ _ hfx =>
    rw [hfx] at hm
    cases hm
  | opened s hopening hreceived hsent hy hfy hatY hatX =>
    obtain ⟨hkeys, hside, hindex⟩ := hsent.message i m hm
    obtain ⟨index, plaintext, rfl⟩ := hopening.flight m (List.mem_of_getElem? hm)
    obtain rfl : index = i := hindex
    have htake := take_opener hopening.opened (fun t ht => by rw [hy] at ht; cases ht) index plaintext
    refine Or.inl ⟨by rw [hatY]; exact List.not_mem_nil, by rw [htake]; rfl, ?_⟩
    rw [receive_of_take htake]
    refine .joined s ⟨s.keys, s.recipient, true, true, 0, [index]⟩ ?_ (by rw [hatY]) (hreceived.trans hatX.symm)
    refine ⟨⟨hopening.session, hopening.outbound⟩, ⟨rfl, rfl, rfl⟩, rfl, hsent, ?_⟩
    rw [hfy]
    exact ⟨rfl, fun i m hm => by cases hm⟩
  | joined s t hshared hatY hatX =>
    obtain ⟨hsession, hinbound, hheard⟩ := hshared.inbound
    obtain ⟨hkeys, hside, hindex⟩ := hshared.sent.message i m hm
    have hkeys' : m.keys = t.keys := hkeys.trans hshared.keys.symm
    have hside' : m.fromInbound = !t.inbound := by rw [hside, hinbound]; rfl
    rw [← hindex, ← hatY]
    by_cases hread : m.index ∈ t.received
    · exact Or.inr ⟨hread, t, hsession, hkeys', hside', hread⟩
    · have htake := take_awaited hsession hkeys' hside' hread
      refine Or.inl ⟨hread, by rw [htake]; rfl, ?_⟩
      rw [receive_of_take htake]
      refine .joined s { t with heard := true, received := m.index :: t.received } ?_ rfl hatX
      exact { hshared with inbound := ⟨rfl, hinbound, rfl⟩ }

theorem deliver_back (h : Streaming x y atY atX) (hm : y.flight[i]? = some m) :
    (i ∉ atX ∧ (x.take m).isSome = true ∧ Streaming (x.receive m) y atY (i :: atX)) ∨
      i ∈ atX ∧ Used x m := by
  cases h with
  | idle _ _ _ hfy =>
    rw [hfy] at hm
    cases hm
  | opened _ _ _ _ _ hfy =>
    rw [hfy] at hm
    cases hm
  | joined s t hshared hatY hatX =>
    obtain ⟨hsession, houtbound⟩ := hshared.outbound
    obtain ⟨hkeys, hside, hindex⟩ := hshared.back.message i m hm
    have hside' : m.fromInbound = !s.inbound := by rw [hside, houtbound]; rfl
    rw [← hindex, ← hatX]
    by_cases hread : m.index ∈ s.received
    · exact Or.inr ⟨hread, s, hsession, hkeys, hside', hread⟩
    · have htake := take_awaited hsession hkeys hside' hread
      refine Or.inl ⟨hread, by rw [htake]; rfl, ?_⟩
      rw [receive_of_take htake]
      refine .joined { s with heard := true, received := m.index :: s.received } t ?_ hatY rfl
      exact { hshared with outbound := ⟨rfl, houtbound⟩ }

/-- It is untouched by what an account does elsewhere. -/
theorem congr {x' y' : End} (h : Streaming x y atY atX) (hsame : SameKeys y y') (hx : x'.session = x.session)
    (hy : y'.session = y.session) (hfx : x'.flight = x.flight) (hfy : y'.flight = y.flight) :
    Streaming x' y' atY atX := by
  cases h with
  | idle hnx hny hex hey hatY hatX =>
    exact .idle (hx.trans hnx) (hy.trans hny) (hfx.trans hex) (hfy.trans hey) hatY hatX
  | opened s hopening hreceived hsent hny hey hatY hatX =>
    refine .opened s ?_ hreceived (hfx ▸ hsent) (hy.trans hny) (hfy.trans hey) hatY hatX
    exact ⟨hx.trans hopening.session, hopening.outbound, hopening.unheard, hopening.opened.congr hsame,
      hfx ▸ hopening.flight⟩
  | joined s t hshared hatY hatX =>
    refine .joined s t ?_ hatY hatX
    exact ⟨⟨hx.trans hshared.outbound.1, hshared.outbound.2⟩, ⟨hy.trans hshared.inbound.1, hshared.inbound.2⟩,
      hshared.keys, hfx ▸ hshared.sent, hfy ▸ hshared.back⟩

end Streaming

/-! ## The managers over the network -/

/-- A frame that decrypts is read as the plaintext of its message. -/
theorem decrypt_plaintext {m : Manager} {peer : String} {message : Message} {d : Decrypted}
    (h : (m.decrypt peer (encodeFrame message.toParts)).1 = .ok d) :
    d.authenticatedSender = peer ∧ d.plaintext = message.plaintext := by
  have hdecode := decodeFrame_encodeFrame message
  have hcases := SessionManager.decrypt_cases m peer (encodeFrame message.toParts)
  generalize m.decrypt peer (encodeFrame message.toParts) = result at hcases h
  cases hcases with
  | unread | noSession | lost | refused => cases h
  | read state message' session session' plaintext _ hdecode' _ _ hdecrypt =>
    cases h
    obtain rfl := Except.ok.inj (hdecode.symm.trans hdecode')
    rcases session.decrypt_cases message with ⟨-, hread⟩ | ⟨-, error, hrefuse⟩
    · exact ⟨rfl, Except.ok.inj (congrArg Prod.fst (hdecrypt.symm.trans hread))⟩
    · cases hdecrypt.symm.trans hrefuse
  | opened state message' id session plaintext account _ hdecode' hid _ hcreate =>
    cases h
    obtain rfl := Except.ok.inj (hdecode.symm.trans hdecode')
    rcases message with ⟨keys, recipient, index, text⟩ | ⟨keys, side, index, text⟩
    · rcases m.account.createInbound_cases state.keys.curve25519 keys recipient index text with
        ⟨-, hopens⟩ | ⟨-, detail, hfails⟩
      · have hopened := Except.ok.inj (congrArg Prod.fst (hcreate.symm.trans hopens))
        exact ⟨rfl, congrArg Prod.snd hopened⟩
      · cases hcreate.symm.trans hfails
    · cases hid

/-- A frame that was read in the session at hand is reported as the loss of that session, and changes nothing. -/
theorem decrypt_used {m : Manager} {peer : String} {e : End} {message : Message} (h : Meets m peer e)
    (hused : Streaming.Used e message) : (m.decrypt peer (encodeFrame message.toParts)).1 =
      .error (.sessionLost peer "the message key is used") ∧
    Meets (m.decrypt peer (encodeFrame message.toParts)).2 peer e := by
  obtain ⟨hok, hmeets⟩ := decrypt_meets h message
  rw [Streaming.receive_refused (Streaming.take_used hused)] at hmeets
  refine ⟨?_, hmeets⟩
  obtain ⟨s, hs, hkeys, hside, hindex⟩ := hused
  obtain ⟨state, hget, -, -, hsession⟩ := h.state
  have hread : s.decrypt message = (.error (.missingMessageKey "the message key is used"), s) := by
    unfold Session.decrypt
    rw [if_pos (isFor_iff.mpr ⟨hkeys, hside⟩), if_pos hindex]
  have hin : (m.decryptInSession peer state message).1 = .error (.sessionLost peer "the message key is used") := by
    unfold SessionManager.decryptInSession
    rw [hsession, hs]
    simp only [hread]
    rfl
  unfold SessionManager.decrypt
  rw [hget, decodeFrame_encodeFrame]
  cases message with
  | normal keys fromInbound index plaintext => exact hin
  | preKey keys recipient index plaintext =>
    have hsame : s.keys = keys := hkeys.symm
    have hcurrent : (state.session.any fun session => vodozemac.sessionId session = keys) = true := by
      simp [hsession, hs, hsame]
    simp only [Message.preKeySession, hcurrent, if_true]
    exact hin

section Network

variable {name : Side → String} {n : Net} {l : Link} {read : Side → List Nat}

/-- The managers are the ends, and what they sealed is all that the ends sent. -/
structure Displays (name : Side → String) (n : Net) (l : Link) : Prop where
  meets : ∀ side, Meets (n.manager side) (name side.other) (l side)
  sealed : ∀ side, n.sealed side = (l side).flight.map fun m => (m.plaintext, encodeFrame m.toParts)

/-- Where a run stands; `read` are the places of what a side sent that the other has read. -/
structure Flowing (name : Side → String) (n : Net) (l : Link) (read : Side → List Nat) : Prop where
  displays : Displays name n l
  faced : l.Faced
  streaming : ∃ x, Streaming (l x) (l x.other) (read x) (read x.other)

theorem streaming_at (side : Side) : (∃ x, Streaming (l x) (l x.other) (read x) (read x.other)) ↔
    Streaming (l side) (l side.other) (read side) (read side.other) ∨
      Streaming (l side.other) (l side) (read side.other) (read side) := by
  constructor
  · rintro ⟨x, h⟩
    rcases Side.eq_or_other x side with rfl | rfl
    · exact Or.inl h
    · rw [Side.other_other] at h
      exact Or.inr h
  · rintro (h | h)
    · exact ⟨side, h⟩
    · refine ⟨side.other, ?_⟩
      rw [Side.other_other]
      exact h

theorem Link.Faced.update (h : l.Faced) {side : Side} {e : End} (hsame : SameKeys (l side) e) :
    Link.Faced (Function.update l side e) := by
  have hends : ∀ s, SameKeys (l s) (Function.update l side e s) := by
    intro s
    by_cases hs : s = side
    · rw [hs, Function.update_self]
      exact hsame
    · rw [Function.update_of_ne hs]
      exact .refl _
  exact fun s => (h s).congr (hends s) (hends s.other)

/-- One side's manager and end change. -/
theorem Displays.update (h : Displays name n l) {side : Side} {m : Manager} {e : End}
    (hmeets : Meets m (name side.other) e) {sealed : List (Bytes × Bytes)}
    (hsealed : sealed = e.flight.map fun m => (m.plaintext, encodeFrame m.toParts)) :
    Displays name ⟨Function.update n.manager side m, Function.update n.sealed side sealed⟩ (Function.update l side e) := by
  constructor
  · intro s
    by_cases hs : s = side
    · subst hs
      simpa using hmeets
    · simpa [hs] using h.meets s
  · intro s
    by_cases hs : s = side
    · subst hs
      simpa using hsealed
    · simpa [hs] using h.sealed s

theorem Displays.update_manager (h : Displays name n l) {side : Side} {m : Manager} {e : End}
    (hmeets : Meets m (name side.other) e) (hflight : e.flight = (l side).flight) :
    Displays name { n with manager := Function.update n.manager side m } (Function.update l side e) := by
  have hsealed : n.sealed side = e.flight.map fun m => (m.plaintext, encodeFrame m.toParts) := by
    rw [hflight]
    exact h.sealed side
  have hupdate := h.update hmeets hsealed
  rwa [Function.update_eq_self] at hupdate

theorem Flowing.encrypt (h : Flowing name n l read) {side : Side} {plaintext : Bytes}
    (hfair : Net.Fair name n (.encrypt side plaintext)) :
    Flowing name (n.step name (.encrypt side plaintext)) (Function.update l side ((l side).send plaintext)) read ∧
      ∃ frame, (n.step name (.encrypt side plaintext)).sealed =
        Function.update n.sealed side (n.sealed side ++ [(plaintext, frame)]) := by
  obtain ⟨m, hencrypt, hmeets⟩ := encrypt_meets (h.displays.meets side) plaintext
  have hstep : n.step name (.encrypt side plaintext) =
      ⟨Function.update n.manager side m, Function.update n.sealed side
        (n.sealed side ++ [(plaintext, encodeFrame (End.message (l side).sealing plaintext).toParts)])⟩ := by
    unfold Net.step
    simp only [hencrypt]
  have hplaintext : (End.message (l side).sealing plaintext).plaintext = plaintext := by
    unfold End.message
    split <;> rfl
  rw [hstep]
  refine ⟨⟨h.displays.update (hmeets.flight _) ?_, h.faced.update (same_send _ _), ?_⟩, _, rfl⟩
  · rw [h.displays.sealed side]
    simp [hplaintext]
  · obtain ⟨hthis, hother⟩ := h.faced.both side
    rw [streaming_at side, Function.update_self, Function.update_of_ne (Side.other_ne side)]
    rcases (streaming_at side).mp h.streaming with hs | hs
    · exact Or.inl (hs.send hthis hother plaintext)
    · refine (hs.send_back hother hthis plaintext fun hnone => ?_).symm
      have hfair' := hfair ((h.displays.meets side).sessionWith.trans hnone)
      have hsession := (h.displays.meets side.other).sessionWith
      rw [Side.other_other] at hsession
      exact hsession.symm.trans hfair'

theorem Flowing.message (h : Flowing name n l read) {side : Side} {place : Nat} {plaintext frame : Bytes}
    (hget : (n.sealed side)[place]? = some (plaintext, frame)) :
    ∃ m, (l side).flight[place]? = some m ∧ plaintext = m.plaintext ∧ frame = encodeFrame m.toParts := by
  rw [h.displays.sealed side, List.getElem?_map, Option.map_eq_some_iff] at hget
  obtain ⟨m, hm, heq⟩ := hget
  cases heq
  exact ⟨m, hm, rfl, rfl⟩

/-- What a delivery does: the first of its frame is read, and a repeat is not. -/
theorem Flowing.deliver (h : Flowing name n l read) {side : Side} {place : Nat} {plaintext frame : Bytes}
    (hget : (n.sealed side)[place]? = some (plaintext, frame)) :
    (place ∉ read side ∧ (∃ d, ((n.manager side.other).decrypt (name side) frame).1 = .ok d ∧
        d.authenticatedSender = name side ∧ d.plaintext = plaintext) ∧
      ∃ l', Flowing name (n.step name (.deliver side place)) l' (Function.update read side (place :: read side))) ∨
    place ∈ read side ∧
      ((n.manager side.other).decrypt (name side) frame).1 =
        .error (.sessionLost (name side) "the message key is used") ∧
      Flowing name (n.step name (.deliver side place)) l read := by
  obtain ⟨m, hm, rfl, rfl⟩ := h.message hget
  let after := ((n.manager side.other).decrypt (name side) (encodeFrame m.toParts)).2
  have hstep : n.step name (.deliver side place) = { n with manager := Function.update n.manager side.other after } := by
    unfold Net.step
    simp only [hget]
    rfl
  have hmeets := h.displays.meets side.other
  rw [Side.other_other] at hmeets
  -- the reader is the end that answers, or the one that opened
  have hread : (place ∉ read side ∧ ((l side.other).take m).isSome = true ∧
        (Streaming (l side) ((l side.other).receive m) (place :: read side) (read side.other) ∨
          Streaming ((l side.other).receive m) (l side) (read side.other) (place :: read side))) ∨
      place ∈ read side ∧ Streaming.Used (l side.other) m := by
    rcases (streaming_at side).mp h.streaming with hs | hs
    · exact (hs.deliver hm).imp (fun ⟨hnew, htake, hs'⟩ => ⟨hnew, htake, Or.inl hs'⟩) id
    · exact (hs.deliver_back hm).imp (fun ⟨hnew, htake, hs'⟩ => ⟨hnew, htake, Or.inr hs'⟩) id
  rcases hread with ⟨hnew, htake, hs⟩ | ⟨hold, hused⟩
  · obtain ⟨hok, hmeets'⟩ := decrypt_meets hmeets m
    refine Or.inl ⟨hnew, ?_, Function.update l side.other ((l side.other).receive m), ?_⟩
    · rw [htake] at hok
      cases hresult : ((n.manager side.other).decrypt (name side) (encodeFrame m.toParts)).1 with
      | error error =>
        rw [hresult] at hok
        cases hok
      | ok d => exact ⟨d, rfl, decrypt_plaintext hresult⟩
    · rw [hstep]
      refine ⟨h.displays.update_manager ?_ rfl, h.faced.update (same_receive _ _), ?_⟩
      · rw [Side.other_other]
        exact hmeets'
      · rw [streaming_at side, Function.update_self, Function.update_self, Function.update_of_ne (Side.ne_other side),
          Function.update_of_ne (Side.other_ne side)]
        exact hs
  · obtain ⟨herror, hmeets'⟩ := decrypt_used hmeets hused
    refine Or.inr ⟨hold, herror, ?_⟩
    have hupdate : Displays name { n with manager := Function.update n.manager side.other after }
        (Function.update l side.other (l side.other)) :=
      h.displays.update_manager (by rw [Side.other_other]; exact hmeets') rfl
    rw [Function.update_eq_self] at hupdate
    rw [hstep]
    exact ⟨hupdate, h.faced, h.streaming⟩

theorem Flowing.aside (h : Flowing name n l read) {side : Side} {c : Call} (hc : Elsewhere (name side.other) c) :
    ∃ l', Flowing name (n.step name (.aside side c)) l' read := by
  have huntouched := Untouched.call hc (n.manager side)
  have haccount := (h.displays.meets side).account
  let e : End := { l side with account := (call (n.manager side) c).account }
  have hsame : SameKeys (l side) e := by
    refine ⟨?_, fun key => ?_, rfl, rfl⟩
    · rw [← haccount]
      exact huntouched.device
    · rw [← haccount]
      exact huntouched.holds key
  refine ⟨Function.update l side e, h.displays.update_manager ⟨rfl, ?_⟩ rfl,
    h.faced.update hsame, ?_⟩
  · rw [huntouched.state]
    exact (h.displays.meets side).state
  · rw [streaming_at side, Function.update_self, Function.update_of_ne (Side.other_ne side)]
    rcases (streaming_at side).mp h.streaming with hs | hs
    · exact Or.inl (hs.congr (.refl _) rfl rfl rfl rfl)
    · exact Or.inr (hs.congr hsame rfl rfl rfl rfl)

/-- Where a run stands that has read exactly what was delivered. -/
theorem flowing_run {p : Pair} (hready : p.Ready name) (events : List Net.Event)
    (hfair : Trace.EachStep (Net.step name) (Net.Fair name) (Net.ofPair p) events) :
    ∃ l read, Flowing name (Net.run name (Net.ofPair p) events) l read ∧
      (∀ side, ((Net.run name (Net.ofPair p) events).sealed side).map Prod.fst = Net.asked side events) ∧
      ∀ side place, place ∈ read side ↔
        Trace.SomeStep (Net.step name) (Net.Delivers side place) (Net.ofPair p) events := by
  have hsteps := Trace.eachStep_iff.mp hfair
  refine Trace.run_prefix_induction (M := fun pre n => ∃ l read, Flowing name n l read ∧
    (∀ side, (n.sealed side).map Prod.fst = Net.asked side pre) ∧ ∀ side place, place ∈ read side ↔
      Trace.SomeStep (Net.step name) (Net.Delivers side place) (Net.ofPair p) pre) ?_ ?_
  · obtain ⟨l, hshows, hfaced, htogether⟩ := hready.shows
    have hflight : ∀ side, (l side).flight = [] := fun side =>
      List.map_eq_nil_iff.mp ((hshows.flight side).symm.trans (hready.flight side))
    refine ⟨l, fun _ => [], ⟨⟨hshows.meets, fun side => by rw [hflight]; rfl⟩, hfaced, .left, ?_⟩, fun _ => rfl,
      fun side place => ⟨fun h => absurd h List.not_mem_nil, fun h => (Trace.someStep_nil _ h).elim⟩⟩
    cases htogether with
    | idle hx hy hfx hfy => exact .idle hx hy hfx hfy rfl rfl
    | opened s _ _ _ hne => exact absurd (hflight .left) hne
    | joined s t hjoined =>
      obtain ⟨state, hget, hnone, -⟩ := hready.keys .left
      have hsession := (hshows.meets .left).sessionWith
      rw [sessionWith_of_get? hget, hnone, hjoined.outbound.1] at hsession
      cases hsession
  · rintro pre event post hsplit ⟨l, read, hflowing, hasked, hread⟩
    have hgood := hsteps pre event post hsplit
    cases event with
    | encrypt side plaintext =>
      obtain ⟨hflowing', frame, hsealed⟩ := hflowing.encrypt hgood
      refine ⟨_, read, hflowing', fun s => ?_, fun s place => ?_⟩
      · rw [hsealed]
        unfold Net.asked at hasked ⊢
        by_cases hs : s = side
        · subst hs
          simp [hasked]
        · simp [hs, Ne.symm hs, hasked]
      · rw [Trace.someStep_snoc, hread]
        simp [Net.Delivers]
    | aside side c =>
      obtain ⟨l', hflowing'⟩ := hflowing.aside hgood
      refine ⟨l', read, hflowing', fun s => ?_, fun s place => ?_⟩
      · refine (hasked s).trans ?_
        simp [Net.asked]
      · rw [Trace.someStep_snoc, hread]
        simp [Net.Delivers]
    | deliver side place =>
      have hasked' : ∀ s, ((Net.step name (Trace.run (Net.step name) (Net.ofPair p) pre)
          (.deliver side place)).sealed s).map Prod.fst = Net.asked s (pre ++ [.deliver side place]) := by
        intro s
        rw [Net.sealed_deliver, hasked]
        simp [Net.asked]
      cases hget : ((Trace.run (Net.step name) (Net.ofPair p) pre).sealed side)[place]? with
      | none =>
        refine ⟨l, read, (Net.deliver_none name hget).symm ▸ hflowing, hasked', fun s i => ?_⟩
        rw [Trace.someStep_snoc, hread]
        refine ⟨Or.inl, fun h => h.resolve_right ?_⟩
        rintro ⟨heq, hlt⟩
        cases heq
        exact absurd (List.getElem?_eq_none_iff.mp hget) (by omega)
      | some sealed =>
        obtain ⟨plaintext, frame⟩ := sealed
        have hlt : place < ((Trace.run (Net.step name) (Net.ofPair p) pre).sealed side).length :=
          (List.getElem?_eq_some_iff.mp hget).1
        rcases hflowing.deliver hget with ⟨-, -, l', hflowing'⟩ | ⟨hold, -, hflowing'⟩
        · refine ⟨l', _, hflowing', hasked', fun s i => ?_⟩
          rw [Trace.someStep_snoc, ← hread]
          by_cases hs : s = side
          · subst hs
            rw [Function.update_self, List.mem_cons, or_comm]
            refine or_congr_right ⟨fun h => by rw [h]; exact ⟨rfl, hlt⟩, fun h => ?_⟩
            cases h.1
            rfl
          · rw [Function.update_of_ne hs]
            refine ⟨Or.inl, fun h => h.resolve_right fun h => ?_⟩
            cases h.1
            exact hs rfl
        · refine ⟨l, read, hflowing', hasked', fun s i => ?_⟩
          rw [Trace.someStep_snoc, ← hread]
          refine ⟨Or.inl, fun h => h.elim id fun h => ?_⟩
          cases h.1
          exact hold

/-- The second of two frames, delivered twice before the first is. -/
def shuffled : List Net.Event :=
  [.encrypt .left [7], .encrypt .left [8], .deliver .left 1, .encrypt .right [9], .deliver .left 1]

end Network

end Ideal

end Beacon
