/-
  Beacon.Session.Ideal — vodozemac as it is meant to work, with nothing to break and no
  bound to run into.

  A key is its device and its number there, so a fresh one is new everywhere. A session
  is named by the three keys it was opened with and has two ends. The outbound end sends
  pre-key messages until it has heard from the other; an inbound end is made of a pre-key
  message. A message is read by the end it is for, once: its key goes with the reading. A
  fallback key opens any number of inbound sessions, until two rotations later.
-/

import Beacon.Session.Receive

namespace Beacon

namespace Ideal

structure Key where
  device : Nat
  number : Nat
  deriving DecidableEq, Repr

/-- The keys a session is opened with, which are its id (`SessionKeys`). -/
structure SessionKeys where
  identityKey : Key
  baseKey : Key
  oneTimeKey : Key
  deriving DecidableEq, Repr

/-- The identity key is number 0; `generated` is the next number. -/
structure Account where
  device : Nat
  generated : Nat
  /-- The current fallback key, and whether it is published. -/
  fallback : Option (Nat × Bool)
  previous : Option Nat
  deriving DecidableEq, Repr

structure Session where
  keys : SessionKeys
  /-- The identity key it was opened to; nobody else can agree on its secret. -/
  recipient : Key
  inbound : Bool
  heard : Bool
  sent : Nat
  /-- The messages read, whose keys are gone. -/
  received : List Nat
  deriving DecidableEq, Repr

inductive Message where
  | preKey (keys : SessionKeys) (recipient : Key) (index : Nat) (plaintext : Bytes)
  | normal (keys : SessionKeys) (fromInbound : Bool) (index : Nat) (plaintext : Bytes)
  deriving DecidableEq, Repr

namespace Message

def keys : Message → SessionKeys
  | preKey keys _ _ _ => keys
  | normal keys _ _ _ => keys

/-- Whether the inbound end sent it; only the outbound end sends pre-key messages. -/
def fromInbound : Message → Bool
  | preKey _ _ _ _ => false
  | normal _ fromInbound _ _ => fromInbound

def index : Message → Nat
  | preKey _ _ index _ => index
  | normal _ _ index _ => index

def plaintext : Message → Bytes
  | preKey _ _ _ plaintext => plaintext
  | normal _ _ _ plaintext => plaintext

def preKeySession : Message → Option SessionKeys
  | preKey keys _ _ _ => some keys
  | normal _ _ _ _ => none

end Message

/-! ## Accounts -/

namespace Account

/-- `Account::new`. -/
def new (device : Nat) : Account := ⟨device, 1, none, none⟩

def identity (a : Account) : Key := ⟨a.device, 0⟩

def fallbackKey (a : Account) : Option (String × Key) :=
  match a.fallback with
  | some (number, false) => some (toString number, ⟨a.device, number⟩)
  | _ => none

def generateFallbackKey (a : Account) : Account :=
  { a with generated := a.generated + 1, fallback := some (a.generated, false), previous := a.fallback.map Prod.fst }

def markKeysAsPublished (a : Account) : Account :=
  { a with fallback := a.fallback.map fun key => (key.1, true) }

def forgetFallbackKey (a : Account) : Bool × Account := (a.previous.isSome, { a with previous := none })

/-- The account holds the private half of this fallback key. -/
def holds (a : Account) (key : Key) : Bool :=
  key.device == a.device && (a.fallback.any (fun current => current.1 == key.number) || a.previous == some key.number)

def createOutboundSession (a : Account) (identity fallback : Key) : Except String Session × Account :=
  (.ok
    { keys := ⟨a.identity, ⟨a.device, a.generated⟩, fallback⟩
      recipient := identity
      inbound := false
      heard := false
      sent := 0
      received := [] },
   { a with generated := a.generated + 1 })

def createInboundSession (a : Account) (theirIdentity : Key) : Message → Except String (Session × Bytes) × Account
  | .normal _ _ _ _ => (.error "not a pre-key message", a)
  | .preKey keys recipient index plaintext =>
    if keys.identityKey ≠ theirIdentity then (.error "the identity key does not match", a)
    else if !a.holds keys.oneTimeKey then (.error "the one-time key is unknown", a)
    else if recipient ≠ a.identity then (.error "invalid MAC", a)
    else
      let session : Session :=
        { keys, recipient
          inbound := true
          heard := true
          sent := 0
          received := [index] }
      (.ok (session, plaintext), a)

end Account

/-! ## Sessions -/

namespace Session

def encrypt (s : Session) (plaintext : Bytes) : Except String Message × Session :=
  let message :=
    if s.heard then .normal s.keys s.inbound s.sent plaintext else .preKey s.keys s.recipient s.sent plaintext
  (.ok message, { s with sent := s.sent + 1 })

/-- The message is of this session, from its other end. -/
def isFor (s : Session) (message : Message) : Bool :=
  message.keys == s.keys && message.fromInbound != s.inbound

def decrypt (s : Session) (message : Message) : Except DecryptionError Bytes × Session :=
  if s.isFor message then
    if message.index ∈ s.received then (.error (.missingMessageKey "the message key is used"), s)
    else (.ok message.plaintext, { s with heard := true, received := message.index :: s.received })
  else (.error (.other "invalid MAC"), s)

end Session

/-! ## What comes of a message -/

theorem isFor_iff {session : Session} {message : Message} :
    session.isFor message = true ↔ message.keys = session.keys ∧ message.fromInbound = !session.inbound := by
  unfold Session.isFor
  cases session.inbound <;> cases message.fromInbound <;> simp

theorem Session.decrypt_cases (s : Session) (message : Message) :
    (s.isFor message = true ∧ message.index ∉ s.received) ∧
        s.decrypt message =
          (.ok message.plaintext, { s with heard := true, received := message.index :: s.received }) ∨
      ¬(s.isFor message = true ∧ message.index ∉ s.received) ∧ ∃ error, s.decrypt message = (.error error, s) := by
  unfold Session.decrypt
  by_cases hfor : s.isFor message = true
  · by_cases hused : message.index ∈ s.received
    · exact Or.inr ⟨fun h => h.2 hused, _, by rw [if_pos hfor, if_pos hused]⟩
    · exact Or.inl ⟨⟨hfor, hused⟩, by rw [if_pos hfor, if_neg hused]⟩
  · exact Or.inr ⟨fun h => hfor h.1, _, by rw [if_neg hfor]⟩

/-- A pre-key message opens a session, or is refused; the account stays as it is. -/
theorem Account.createInbound_cases (a : Account) (identity : Key) (keys : SessionKeys) (recipient : Key) (index : Nat)
    (plaintext : Bytes) :
    (keys.identityKey = identity ∧ a.holds keys.oneTimeKey = true ∧ recipient = a.identity) ∧
        a.createInboundSession identity (.preKey keys recipient index plaintext) =
          (.ok (⟨keys, recipient, true, true, 0, [index]⟩, plaintext), a) ∨
      ¬(keys.identityKey = identity ∧ a.holds keys.oneTimeKey = true ∧ recipient = a.identity) ∧
        ∃ detail, a.createInboundSession identity (.preKey keys recipient index plaintext) = (.error detail, a) := by
  by_cases hidentity : keys.identityKey = identity
  swap
  · exact Or.inr ⟨fun h => hidentity h.1, "the identity key does not match", by
      simp [Account.createInboundSession, hidentity]⟩
  by_cases hholds : a.holds keys.oneTimeKey = true
  swap
  · exact Or.inr ⟨fun h => hholds h.2.1, "the one-time key is unknown", by
      simp [Account.createInboundSession, hidentity, hholds]⟩
  by_cases hrecipient : recipient = a.identity
  · exact Or.inl ⟨⟨hidentity, hholds, hrecipient⟩, by
      simp [Account.createInboundSession, hidentity, hholds, hrecipient]⟩
  · exact Or.inr ⟨fun h => hrecipient h.2.2, "invalid MAC", by
      simp [Account.createInboundSession, hidentity, hholds, hrecipient]⟩

/-! ## Messages as bytes -/

def encodeNat (n : Nat) : Bytes := List.replicate n 1 ++ [0]

def decodeNat : Bytes → Option (Nat × Bytes)
  | [] => none
  | b :: rest => if b = 0 then some (0, rest) else (decodeNat rest).map fun p => (p.1 + 1, p.2)

def decodeNats : Nat → Bytes → Option (List Nat × Bytes)
  | 0, bytes => some ([], bytes)
  | count + 1, bytes =>
    match decodeNat bytes with
    | none => none
    | some (n, rest) => (decodeNats count rest).map fun p => (n :: p.1, p.2)

def SessionKeys.toNats (k : SessionKeys) : List Nat :=
  [k.identityKey.device, k.identityKey.number, k.baseKey.device, k.baseKey.number, k.oneTimeKey.device,
    k.oneTimeKey.number]

/-- The message type is 0 for a pre-key message and 1 for a normal one. -/
def Message.toParts : Message → Nat × Bytes
  | preKey keys recipient index plaintext =>
    (0, (keys.toNats ++ [recipient.device, recipient.number, index]).flatMap encodeNat ++ plaintext)
  | normal keys fromInbound index plaintext =>
    (1, (keys.toNats ++ [fromInbound.toNat, index]).flatMap encodeNat ++ plaintext)

def Message.fromParts (messageType : Nat) (bytes : Bytes) : Except String Message :=
  match messageType with
  | 0 =>
    match decodeNats 9 bytes with
    | some ([a, b, c, d, e, f, g, h, index], plaintext) =>
      .ok (.preKey ⟨⟨a, b⟩, ⟨c, d⟩, ⟨e, f⟩⟩ ⟨g, h⟩ index plaintext)
    | _ => .error "a pre-key message is cut short"
  | 1 =>
    match decodeNats 8 bytes with
    | some ([a, b, c, d, e, f, side, index], plaintext) =>
      .ok (.normal ⟨⟨a, b⟩, ⟨c, d⟩, ⟨e, f⟩⟩ (side == 1) index plaintext)
    | _ => .error "a normal message is cut short"
  | _ => .error "unknown message type"

theorem decodeNat_encodeNat (n : Nat) (rest : Bytes) : decodeNat (encodeNat n ++ rest) = some (n, rest) := by
  induction n with
  | zero => rfl
  | succ n ih =>
    show decodeNat (1 :: (encodeNat n ++ rest)) = _
    rw [decodeNat, if_neg (by decide), ih]
    rfl

theorem decodeNats_flatMap (l : List Nat) (rest : Bytes) :
    decodeNats l.length (l.flatMap encodeNat ++ rest) = some (l, rest) := by
  induction l with
  | nil => rfl
  | cons n l ih =>
    rw [List.flatMap_cons, List.append_assoc, List.length_cons, decodeNats, decodeNat_encodeNat]
    simp only [ih, Option.map_some]

theorem fromParts_toParts (message : Message) :
    Message.fromParts message.toParts.1 message.toParts.2 = .ok message := by
  cases message with
  | preKey keys recipient index plaintext =>
    have hdecode : decodeNats 9 ((keys.toNats ++ [recipient.device, recipient.number, index]).flatMap encodeNat ++
        plaintext) = some (keys.toNats ++ [recipient.device, recipient.number, index], plaintext) :=
      decodeNats_flatMap (keys.toNats ++ [recipient.device, recipient.number, index]) plaintext
    simp only [Message.toParts, Message.fromParts, hdecode]
    rfl
  | normal keys fromInbound index plaintext =>
    have hdecode : decodeNats 8 ((keys.toNats ++ [fromInbound.toNat, index]).flatMap encodeNat ++ plaintext) =
        some (keys.toNats ++ [fromInbound.toNat, index], plaintext) :=
      decodeNats_flatMap (keys.toNats ++ [fromInbound.toNat, index]) plaintext
    simp only [Message.toParts, Message.fromParts, hdecode]
    cases fromInbound <;> rfl

end Ideal

/-! ## The ideal -/

abbrev Ideal.vodozemac : Vodozemac where
  PublicKey := Ideal.Key
  Account := Ideal.Account
  Session := Ideal.Session
  Message := Ideal.Message
  SessionId := Ideal.SessionKeys
  createOutboundSession := Ideal.Account.createOutboundSession
  encrypt := Ideal.Session.encrypt
  toParts := Ideal.Message.toParts
  toBase64 key := toString key.device ++ "." ++ toString key.number
  curve25519Key := Ideal.Account.identity
  fallbackKey := Ideal.Account.fallbackKey
  generateFallbackKey := Ideal.Account.generateFallbackKey
  markKeysAsPublished := Ideal.Account.markKeysAsPublished
  forgetFallbackKey := Ideal.Account.forgetFallbackKey
  sessionId := Ideal.Session.keys
  preKeySession := Ideal.Message.preKeySession
  fromParts := Ideal.Message.fromParts
  decrypt := Ideal.Session.decrypt
  createInboundSession := Ideal.Account.createInboundSession

namespace Ideal

abbrev Manager := SessionManager vodozemac.toOlm

theorem decodeFrame_encodeFrame (message : Message) :
    decodeFrame vodozemac (encodeFrame message.toParts) = .ok message := by
  have hparts := fromParts_toParts message
  have htype : message.toParts.1 < 256 := by cases message <;> simp [Message.toParts]
  have hround : (UInt8.ofNat message.toParts.1).toNat = message.toParts.1 := by
    rw [UInt8.toNat_ofNat', Nat.mod_eq_of_lt htype]
  unfold encodeFrame decodeFrame
  rw [if_pos htype]
  simp only [ne_eq, not_true_eq_false, if_false, hround]
  rw [hparts]

end Ideal

end Beacon
