/-
  Beacon.Session.Link — two managers that hold each other's verified keys, and the frames
  between them, delivered in order and none lost.

  A manager is towards its peer an `End`: an account, a session, the messages under way.
  `encrypt` and `decrypt` are `End.send` and `End.receive` there (`encrypt_meets`,
  `decrypt_meets`), so a run of the pair is a run of its two ends (`shows_run`). What a
  step is to the ends is said once, by `exchange_step`.
-/

import Mathlib.Logic.Function.Basic
import Beacon.Session.Replay

namespace Beacon

open Lib

namespace Ideal

inductive Side where
  | left
  | right
  deriving DecidableEq, Repr

namespace Side

def other : Side → Side
  | left => right
  | right => left

@[simp] theorem other_other (side : Side) : side.other.other = side := by cases side <;> rfl
@[simp] theorem other_ne (side : Side) : side.other ≠ side := by cases side <;> decide
@[simp] theorem ne_other (side : Side) : side ≠ side.other := by cases side <;> decide

theorem eq_or_other (a b : Side) : a = b ∨ a = b.other := by cases a <;> cases b <;> decide

end Side

/-! ## Two managers and the frames between them -/

structure Pair where
  manager : Side → Manager
  /-- The frames of a side that are not delivered yet, oldest first. -/
  flight : Side → List Bytes

namespace Pair

inductive Event where
  | encrypt (side : Side) (plaintext : Bytes)
  | deliver (side : Side)

variable (name : Side → String)

def step (p : Pair) : Event → Pair
  | .encrypt side plaintext =>
    match (p.manager side).encrypt (name side.other) plaintext with
    | (.ok frame, m) =>
      { manager := Function.update p.manager side m
        flight := Function.update p.flight side (p.flight side ++ [frame]) }
    | (.error _, m) => { p with manager := Function.update p.manager side m }
  | .deliver side =>
    match p.flight side with
    | [] => p
    | frame :: rest =>
      { manager := Function.update p.manager side.other ((p.manager side.other).decrypt (name side) frame).2
        flight := Function.update p.flight side rest }

abbrev run (p : Pair) (events : List Event) : Pair := Trace.run (step name) p events

/-- Each side holds the other's verified keys and no session with it, and nothing is in flight. -/
structure Ready (p : Pair) : Prop where
  keys : ∀ side, ∃ state, (p.manager side).peers.get? (name side.other) = some state ∧ state.session = none ∧
    state.keys.curve25519 = (p.manager side.other).account.identity ∧
    (p.manager side.other).account.holds state.keys.fallbackKey = true
  distinct : (p.manager .left).account.device ≠ (p.manager .right).account.device
  flight : ∀ side, p.flight side = []

def sessionOf (p : Pair) (side : Side) : Option Session := (p.manager side).sessionWith (name side.other)

/-- What a delivery brings decrypts. -/
def Decrypts (p : Pair) : Event → Prop
  | .deliver side => ∀ frame rest, p.flight side = frame :: rest →
      ((p.manager side.other).decrypt (name side) frame).1.isOk = true
  | .encrypt _ _ => True

/-- What a delivery brings is refused. -/
def Refuses (p : Pair) : Event → Prop
  | .deliver side => ∀ frame rest, p.flight side = frame :: rest →
      ((p.manager side.other).decrypt (name side) frame).1.isOk = false
  | .encrypt _ _ => True

/-- Both sides hold the same session, and whatever is sent from here on decrypts. -/
structure OneSession (p : Pair) : Prop where
  same : ∃ s t, sessionOf name p .left = some s ∧ sessionOf name p .right = some t ∧ s.keys = t.keys
  decrypts : ∀ later, Trace.EachStep (step name) (Decrypts name) p later

/-- A side opens a session while a frame of the other side is on its way to it. -/
def Crosses (p : Pair) : Event → Prop
  | .encrypt side _ => sessionOf name p side = none ∧ p.flight side.other ≠ []
  | .deliver _ => False

end Pair

/-! ## The two ends of the link -/

/-- A side as the other one meets it: its account, the keys it holds of the other, its session
    with it and the messages it has under way. -/
structure End where
  account : Account
  curve25519 : Key
  fallbackKey : Key
  session : Option Session
  flight : List Message

namespace End

def message (s : Session) (plaintext : Bytes) : Message :=
  if s.heard then .normal s.keys s.inbound s.sent plaintext else .preKey s.keys s.recipient s.sent plaintext

/-- The session a message is sealed in: the one at hand, or a fresh one. -/
def sealing (e : End) : Session :=
  e.session.getD
    ⟨⟨e.account.identity, ⟨e.account.device, e.account.generated⟩, e.fallbackKey⟩, e.curve25519, false, false, 0, []⟩

def send (e : End) (plaintext : Bytes) : End :=
  { e with
    account := if e.session.isSome then e.account else { e.account with generated := e.account.generated + 1 }
    session := some { e.sealing with sent := e.sealing.sent + 1 }
    flight := e.flight ++ [message e.sealing plaintext] }

/-- The session after reading a message, if it can be read. -/
def read (s : Session) (m : Message) : Option Session :=
  if s.isFor m = true ∧ m.index ∉ s.received then some { s with heard := true, received := m.index :: s.received }
  else none

/-- The session after a message that decrypts. -/
def take (e : End) (m : Message) : Option Session :=
  match m with
  | .normal _ _ _ _ => e.session.bind (read · m)
  | .preKey keys recipient index _ =>
    if e.session.any (·.keys = keys) then e.session.bind (read · m)
    else if keys.identityKey = e.curve25519 ∧ e.account.holds keys.oneTimeKey = true ∧
        recipient = e.account.identity then
      some ⟨keys, recipient, true, true, 0, [index]⟩
    else none

def receive (e : End) (m : Message) : End := { e with session := (e.take m).orElse fun _ => e.session }

end End

/-- The manager is this end towards `peer`. -/
structure Meets (m : Manager) (peer : String) (e : End) : Prop where
  account : m.account = e.account
  state : ∃ state, m.peers.get? peer = some state ∧ state.keys.curve25519 = e.curve25519 ∧
    state.keys.fallbackKey = e.fallbackKey ∧ state.session = e.session

theorem Meets.sessionWith {m : Manager} {peer : String} {e : End} (h : Meets m peer e) :
    m.sessionWith peer = e.session := by
  obtain ⟨state, hget, -, -, hsession⟩ := h.state
  rw [sessionWith_of_get? hget, hsession]

theorem meets_insert {m : Manager} {peer : String} {e : End} {state : PeerState vodozemac.toOlm}
    (hget : m.peers.get? peer = some state) (hcurve : state.keys.curve25519 = e.curve25519)
    (hfallback : state.keys.fallbackKey = e.fallbackKey) (session : Session) :
    Meets ⟨e.account, m.peers.insert { state with session := some session }⟩ peer
      { e with session := some session } := by
  have hdevice : state.deviceId = peer := Table.get?_key hget
  refine ⟨rfl, { state with session := some session }, ?_, hcurve, hfallback, rfl⟩
  show (m.peers.insert _).get? peer = _
  rw [Table.get?_insert]
  exact if_pos hdevice

theorem encryptInSession_meets {m : Manager} {peer : String} {e : End} (h : Meets m peer e) {session : Session}
    (hsession : e.session = some session) (plaintext : Bytes) :
    ∃ m', m.encryptInSession peer plaintext = (.ok (encodeFrame (End.message session plaintext).toParts), m') ∧
      Meets m' peer { e with session := some { session with sent := session.sent + 1 } } := by
  obtain ⟨state, hget, hcurve, hfallback, hstate⟩ := h.state
  refine ⟨⟨e.account, m.peers.insert { state with session := some { session with sent := session.sent + 1 } }⟩, ?_,
    meets_insert hget hcurve hfallback _⟩
  unfold SessionManager.encryptInSession
  rw [hget]
  simp only [hstate, hsession]
  rw [← h.account]
  rfl

theorem encrypt_meets {m : Manager} {peer : String} {e : End} (h : Meets m peer e) (plaintext : Bytes) :
    ∃ m', m.encrypt peer plaintext = (.ok (encodeFrame (End.message e.sealing plaintext).toParts), m') ∧
      Meets m' peer { e.send plaintext with flight := e.flight } := by
  unfold SessionManager.encrypt
  cases hsession : e.session with
  | some session =>
    have hhas : m.hasSession peer = true := by
      obtain ⟨state, hget, -, -, hstate⟩ := h.state
      simp [SessionManager.hasSession, hget, hstate, hsession]
    obtain ⟨m', hencrypt, hmeets⟩ := encryptInSession_meets h hsession plaintext
    refine ⟨m', ?_, ?_⟩
    · rw [if_pos hhas, hencrypt]
      simp [End.sealing, hsession]
    · simpa [End.send, End.sealing, hsession] using hmeets
  | none =>
    obtain ⟨state, hget, hcurve, hfallback, hstate⟩ := h.state
    have hhas : m.hasSession peer = false := by simp [SessionManager.hasSession, hget, hstate, hsession]
    rw [if_neg (by simp [hhas])]
    -- the session is opened first
    let fresh : End := { e with account := { e.account with generated := e.account.generated + 1 } }
    have hopen : m.establishOutbound peer =
        (.ok (), ⟨fresh.account, m.peers.insert { state with session := some e.sealing }⟩) := by
      unfold SessionManager.establishOutbound
      rw [hget]
      simp only []
      rw [h.account, hcurve, hfallback]
      simp only [End.sealing, hsession, Option.getD_none]
      rfl
    have hmeets : Meets ⟨fresh.account, m.peers.insert { state with session := some e.sealing }⟩ peer
        { fresh with session := some e.sealing } := meets_insert (e := fresh) hget hcurve hfallback _
    obtain ⟨m', hencrypt, hmeets'⟩ := encryptInSession_meets hmeets rfl plaintext
    refine ⟨m', ?_, ?_⟩
    · rw [hopen]
      exact hencrypt
    · simpa [End.send, hsession, fresh] using hmeets'

theorem read_cases (s : Session) (message : Message) :
    (∃ s', End.read s message = some s' ∧ s.decrypt message = (.ok message.plaintext, s')) ∨
      End.read s message = none ∧ ∃ error, s.decrypt message = (.error error, s) := by
  rcases s.decrypt_cases message with ⟨hread, hdecrypt⟩ | ⟨hnot, hdecrypt⟩
  · exact Or.inl ⟨_, if_pos hread, hdecrypt⟩
  · exact Or.inr ⟨if_neg hnot, hdecrypt⟩

theorem decryptInSession_meets {m : Manager} {peer : String} {e : End} (h : Meets m peer e)
    {state : PeerState vodozemac.toOlm} (hget : m.peers.get? peer = some state)
    (hcurve : state.keys.curve25519 = e.curve25519) (hfallback : state.keys.fallbackKey = e.fallbackKey)
    (hstate : state.session = e.session) (message : Message) :
    (m.decryptInSession peer state message).1.isOk = (e.session.bind (End.read · message)).isSome ∧
      Meets (m.decryptInSession peer state message).2 peer
        { e with session := (e.session.bind (End.read · message)).orElse fun _ => e.session } := by
  unfold SessionManager.decryptInSession
  rw [hstate]
  cases hsession : e.session with
  | none =>
    refine ⟨rfl, ?_⟩
    have hsame : ({ e with session := none } : End) = e := by rw [← hsession]
    show Meets m peer { e with session := none }
    rw [hsame]
    exact h
  | some session =>
    simp only [Option.bind_some]
    rcases read_cases session message with ⟨session', hread, hdecrypt⟩ | ⟨hread, error, hdecrypt⟩
    · rw [hread, hdecrypt]
      refine ⟨rfl, ?_⟩
      show Meets ⟨m.account, m.peers.insert { state with session := some session' }⟩ peer _
      rw [h.account]
      exact meets_insert hget hcurve hfallback session'
    · rw [hread, hdecrypt]
      refine ⟨rfl, ?_⟩
      show Meets ⟨m.account, m.peers.insert { state with session := some session }⟩ peer _
      rw [h.account]
      exact meets_insert hget hcurve hfallback session

theorem decrypt_meets {m : Manager} {peer : String} {e : End} (h : Meets m peer e) (message : Message) :
    (m.decrypt peer (encodeFrame message.toParts)).1.isOk = (e.take message).isSome ∧
      Meets (m.decrypt peer (encodeFrame message.toParts)).2 peer (e.receive message) := by
  obtain ⟨state, hget, hcurve, hfallback, hstate⟩ := h.state
  have hread := decryptInSession_meets h hget hcurve hfallback hstate message
  unfold SessionManager.decrypt
  rw [hget, decodeFrame_encodeFrame]
  cases message with
  | normal keys fromInbound index plaintext => exact hread
  | preKey keys recipient index plaintext =>
    have hmatches : (state.session.any fun session => vodozemac.sessionId session = keys) =
        e.session.any (·.keys = keys) := by rw [hstate]
    simp only [Message.preKeySession, hmatches]
    unfold End.receive End.take
    by_cases hany : e.session.any (·.keys = keys) = true
    · simp only [if_pos hany]
      exact hread
    · simp only [if_neg hany]
      unfold SessionManager.openInbound
      rw [h.account, hcurve]
      rcases e.account.createInbound_cases e.curve25519 keys recipient index plaintext with
        ⟨hopens, hcreate⟩ | ⟨hnot, detail, hcreate⟩
      · rw [if_pos hopens, show vodozemac.createInboundSession e.account e.curve25519 _ = _ from hcreate]
        exact ⟨rfl, meets_insert hget hcurve hfallback _⟩
      · rw [if_neg hnot, show vodozemac.createInboundSession e.account e.curve25519 _ = _ from hcreate]
        refine ⟨rfl, ?_⟩
        show Meets ⟨e.account, m.peers⟩ peer e
        rw [← h.account]
        exact h

/-! ## The pair is its two ends -/

abbrev Link := Side → End

namespace Link

def step (l : Link) : Pair.Event → Link
  | .encrypt side plaintext => Function.update l side ((l side).send plaintext)
  | .deliver side =>
    match (l side).flight with
    | [] => l
    | message :: rest =>
      Function.update (Function.update l side { l side with flight := rest }) side.other
        ((l side.other).receive message)

abbrev run (l : Link) (events : List Pair.Event) : Link := Trace.run step l events

def Crosses (l : Link) : Pair.Event → Prop
  | .encrypt side _ => (l side).session = none ∧ (l side.other).flight ≠ []
  | .deliver _ => False

end Link

/-- What a step of the link can be to its ends `x` and `y`, and when the openings cross in it. -/
inductive Exchange (x y : End) : Prop → End → End → Prop
  | still : Exchange x y False x y
  | sends (plaintext : Bytes) : Exchange x y (x.session = none ∧ y.flight ≠ []) (x.send plaintext) y
  | answers (plaintext : Bytes) : Exchange x y (y.session = none ∧ x.flight ≠ []) x (y.send plaintext)
  | delivers (m : Message) (rest : List Message) : x.flight = m :: rest →
      Exchange x y False { x with flight := rest } (y.receive m)
  | hears (m : Message) (rest : List Message) : y.flight = m :: rest →
      Exchange x y False (x.receive m) { y with flight := rest }

namespace Link

theorem step_encrypt (l : Link) (side : Side) (plaintext : Bytes) :
    l.step (.encrypt side plaintext) side = (l side).send plaintext ∧
      l.step (.encrypt side plaintext) side.other = l side.other :=
  ⟨Function.update_self .., Function.update_of_ne (Side.other_ne side) ..⟩

theorem step_deliver {l : Link} {side : Side} {m : Message} {rest : List Message}
    (hflight : (l side).flight = m :: rest) :
    l.step (.deliver side) side = { l side with flight := rest } ∧
      l.step (.deliver side) side.other = (l side.other).receive m := by
  unfold step
  simp only [hflight]
  exact ⟨by rw [Function.update_of_ne (Side.ne_other side), Function.update_self], Function.update_self ..⟩

theorem exchange_step (l : Link) (event : Pair.Event) (x : Side) :
    Exchange (l x) (l x.other) (l.Crosses event) (l.step event x) (l.step event x.other) := by
  cases event with
  | encrypt side plaintext =>
    obtain ⟨hside, hother⟩ := step_encrypt l side plaintext
    rcases Side.eq_or_other x side with rfl | rfl
    · rw [hside, hother]
      exact .sends plaintext
    · rw [Side.other_other, hside, hother]
      exact .answers plaintext
  | deliver side =>
    cases hflight : (l side).flight with
    | nil =>
      have hstill : l.step (.deliver side) = l := by
        unfold step
        simp only [hflight]
      rw [hstill]
      exact .still
    | cons m rest =>
      obtain ⟨hside, hother⟩ := step_deliver hflight
      rcases Side.eq_or_other x side with rfl | rfl
      · rw [hside, hother]
        exact .delivers m rest hflight
      · rw [Side.other_other, hside, hother]
        exact .hears m rest hflight

end Link

/-- The managers are the ends, towards each other, and the frames in flight their messages. -/
structure Shows (name : Side → String) (p : Pair) (l : Link) : Prop where
  meets : ∀ side, Meets (p.manager side) (name side.other) (l side)
  flight : ∀ side, p.flight side = (l side).flight.map fun message => encodeFrame message.toParts

variable (name : Side → String)

theorem Meets.flight {m : Manager} {peer : String} {e : End} (h : Meets m peer e) (flight : List Message) :
    Meets m peer { e with flight := flight } := ⟨h.account, h.state⟩

theorem shows_step {p : Pair} {l : Link} (h : Shows name p l) (event : Pair.Event) :
    Shows name (p.step name event) (l.step event) := by
  cases event with
  | encrypt side plaintext =>
    obtain ⟨m, hencrypt, hmeets⟩ := encrypt_meets (h.meets side) plaintext
    unfold Pair.step Link.step
    simp only [hencrypt]
    refine ⟨fun s => ?_, fun s => ?_⟩ <;> dsimp only
    · by_cases hs : s = side
      · subst hs
        rw [Function.update_self, Function.update_self]
        exact hmeets.flight _
      · rw [Function.update_of_ne hs, Function.update_of_ne hs]
        exact h.meets s
    · by_cases hs : s = side
      · subst hs
        rw [Function.update_self, Function.update_self, h.flight]
        simp [End.send]
      · rw [Function.update_of_ne hs, Function.update_of_ne hs]
        exact h.flight s
  | deliver side =>
    unfold Pair.step Link.step
    simp only []
    have hflight := h.flight side
    cases hl : (l side).flight with
    | nil =>
      rw [hl] at hflight
      simp only [hflight, List.map_nil]
      exact h
    | cons message rest =>
      rw [hl, List.map_cons] at hflight
      obtain ⟨-, hmeets⟩ := decrypt_meets (h.meets side.other) message
      rw [Side.other_other] at hmeets
      simp only [hflight]
      refine ⟨fun s => ?_, fun s => ?_⟩ <;> dsimp only
      · rcases Side.eq_or_other s side with rfl | rfl
        · rw [Function.update_of_ne (Side.ne_other s), Function.update_of_ne (Side.ne_other s), Function.update_self]
          exact (h.meets s).flight rest
        · rw [Function.update_self, Function.update_self, Side.other_other]
          exact hmeets
      · rcases Side.eq_or_other s side with rfl | rfl
        · rw [Function.update_self, Function.update_of_ne (Side.ne_other s), Function.update_self]
        · rw [Function.update_of_ne (Side.other_ne side), Function.update_self, h.flight]
          rfl

theorem shows_run {p : Pair} {l : Link} (h : Shows name p l) (events : List Pair.Event) :
    Shows name (p.run name events) (l.run events) := by
  induction events generalizing p l with
  | nil => exact h
  | cons event events ih => exact ih (shows_step name h event)

theorem Shows.sessionOf {name : Side → String} {p : Pair} {l : Link} (h : Shows name p l) (side : Side) :
    p.sessionOf name side = (l side).session := (h.meets side).sessionWith

end Ideal

end Beacon
