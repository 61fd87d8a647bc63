/-
  Beacon.Session.Openings — where the two ends of a link stand, and what a step of one of
  them makes of it.

  - `Together`: nobody has opened a session, or one side has, or both are on it. It holds
    until a side opens a session while the other's opening is on its way
    (`together_send_back`).
  - `Apart`: the openings have crossed. Each side takes the other's session over its own,
    and keeps it.
  - Once all is delivered, ends apart are `Adrift`: each sends in a session the other no
    longer has, and refuses what it gets.
-/

import Beacon.Session.Link

namespace Beacon.Ideal

/-! ## Where the two ends stand -/

/-- What is under way from one end of a session can be read at the other, each message once. -/
structure Awaited (keys : SessionKeys) (fromInbound : Bool) (sent : Nat) (received : List Nat)
    (flight : List Message) : Prop where
  message : ∀ m ∈ flight, m.keys = keys ∧ m.fromInbound = fromInbound ∧ m.index < sent ∧ m.index ∉ received
  distinct : (flight.map Message.index).Nodup
  received : ∀ i ∈ received, i < sent

theorem awaited_nil (keys : SessionKeys) (fromInbound : Bool) (sent : Nat) : Awaited keys fromInbound sent [] [] := by
  refine ⟨fun m hm => ?_, List.nodup_nil, fun i hi => ?_⟩
  · cases hm
  · cases hi

theorem Awaited.send {keys : SessionKeys} {fromInbound : Bool} {sent : Nat} {received : List Nat}
    {flight : List Message} (h : Awaited keys fromInbound sent received flight) {m : Message} (hkeys : m.keys = keys)
    (hside : m.fromInbound = fromInbound) (hindex : m.index = sent) :
    Awaited keys fromInbound (sent + 1) received (flight ++ [m]) := by
  refine ⟨fun n hn => ?_, ?_, fun i hi => Nat.lt_succ_of_lt (h.received i hi)⟩
  · rcases List.mem_append.mp hn with hn | hn
    · obtain ⟨hk, hs, hlt, hnot⟩ := h.message n hn
      exact ⟨hk, hs, Nat.lt_succ_of_lt hlt, hnot⟩
    · rw [List.mem_singleton] at hn
      subst hn
      refine ⟨hkeys, hside, by omega, fun hmem => ?_⟩
      have := h.received _ hmem
      omega
  · rw [List.map_append, List.nodup_append]
    refine ⟨h.distinct, by simp, fun i hi j hj => ?_⟩
    obtain ⟨n, hn, rfl⟩ := List.mem_map.mp hi
    obtain rfl : j = m.index := by simpa using hj
    have := (h.message n hn).2.2.1
    omega

theorem Awaited.receive {keys : SessionKeys} {fromInbound : Bool} {sent : Nat} {received : List Nat} {m : Message}
    {rest : List Message} (h : Awaited keys fromInbound sent received (m :: rest)) :
    Awaited keys fromInbound sent (m.index :: received) rest := by
  have hhead := h.message m List.mem_cons_self
  have hdistinct := h.distinct
  rw [List.map_cons, List.nodup_cons] at hdistinct
  refine ⟨fun n hn => ?_, hdistinct.2, fun i hi => ?_⟩
  · obtain ⟨hk, hs, hlt, hnot⟩ := h.message n (List.mem_cons_of_mem _ hn)
    refine ⟨hk, hs, hlt, fun hmem => ?_⟩
    rcases List.mem_cons.mp hmem with heq | hmem
    · exact hdistinct.1 (List.mem_map.mpr ⟨n, hn, heq⟩)
    · exact hnot hmem
  · rcases List.mem_cons.mp hi with rfl | hi
    · exact hhead.2.2.1
    · exact h.received i hi

/-- A session opened to `y`, as `y` will check it. -/
structure OpenedTo (y : End) (keys : SessionKeys) (recipient : Key) : Prop where
  identity : keys.identityKey = y.curve25519
  holds : y.account.holds keys.oneTimeKey = true
  recipient : recipient = y.account.identity

/-- `x` holds keys of `y`'s, and they are two devices. -/
structure Bound (x y : End) : Prop where
  identity : x.curve25519 = y.account.identity
  holds : y.account.holds x.fallbackKey = true
  distinct : x.account.device ≠ y.account.device

/-- Every message is a pre-key message of this session. -/
def PreKeys (keys : SessionKeys) (recipient : Key) (flight : List Message) : Prop :=
  ∀ m ∈ flight, ∃ index plaintext, m = .preKey keys recipient index plaintext

/-- `x` opened the session that `y` answered; all that is under way can be read. -/
structure Joined (x y : End) (s t : Session) : Prop where
  outbound : x.session = some s ∧ s.inbound = false
  inbound : y.session = some t ∧ t.inbound = true ∧ t.heard = true
  keys : t.keys = s.keys
  flight : Awaited s.keys false s.sent t.received x.flight
  back : Awaited s.keys true t.sent s.received y.flight

/-- `x` has opened `s` and heard nothing. -/
structure Opening (x y : End) (s : Session) : Prop where
  session : x.session = some s
  outbound : s.inbound = false
  unheard : s.heard = false
  opened : OpenedTo y s.keys s.recipient
  flight : PreKeys s.keys s.recipient x.flight

/-- The openings have not crossed: `x` opened, if anyone did. -/
inductive Together (x y : End) : Prop
  | idle : x.session = none → y.session = none → x.flight = [] → y.flight = [] → Together x y
  | opened (s : Session) : Opening x y s → s.received = [] → Awaited s.keys false s.sent [] x.flight →
      x.flight ≠ [] → y.session = none → y.flight = [] → Together x y
  | joined (s t : Session) : Joined x y s t → Together x y

/-- A message of a side that has the session `theirs` now and opened `mine` before. -/
def Stray (mine theirs : SessionKeys) (m : Message) : Prop :=
  (∃ recipient index plaintext, m = .preKey mine recipient index plaintext) ∨
    ∃ index plaintext, m = .normal theirs true index plaintext

/-- `x` has taken the session `t` of `y`'s over its own, whose keys are `mine`. -/
structure Taken (x y : End) (t : Session) (mine : SessionKeys) : Prop where
  session : x.session = some t
  inbound : t.inbound = true
  heard : t.heard = true
  identity : t.keys.identityKey = y.account.identity
  flight : ∀ m ∈ x.flight, Stray mine t.keys m

/-- The openings have crossed. -/
inductive Apart (x y : End) : Prop
  | crossed (s t : Session) : Opening x y s → Opening y x t → x.flight ≠ [] → y.flight ≠ [] → Apart x y
  /-- `y` has taken `x`'s session, and its own opening is still ahead of `x`. -/
  | half (s t : Session) (mine : SessionKeys) (recipient : Key) (index : Nat) (plaintext : Bytes)
      (rest : List Message) : Opening x y s → Taken y x t mine → t.keys = s.keys → OpenedTo x mine recipient →
      y.flight = .preKey mine recipient index plaintext :: rest → Apart x y
  | diverged (s t : Session) : Taken x y s t.keys → Taken y x t s.keys → Apart x y

/-- `x` answers a session and sends in it only. -/
structure Adrift (x : End) (keys : SessionKeys) : Prop where
  session : ∃ s, x.session = some s ∧ s.keys = keys ∧ s.inbound = true ∧ s.heard = true
  flight : ∀ m ∈ x.flight, ∃ index plaintext, m = .normal keys true index plaintext

/-! ## What an end makes of a message -/

theorem receive_of_take {e : End} {m : Message} {s : Session} (h : e.take m = some s) :
    e.receive m = { e with session := some s } := by
  unfold End.receive
  rw [h]
  rfl

theorem take_awaited {e : End} {s : Session} {m : Message} (hs : e.session = some s) (hkeys : m.keys = s.keys)
    (hside : m.fromInbound = !s.inbound) (hnew : m.index ∉ s.received) :
    e.take m = some { s with heard := true, received := m.index :: s.received } := by
  have hread : e.session.bind (End.read · m) = some { s with heard := true, received := m.index :: s.received } := by
    rw [hs]
    exact if_pos ⟨isFor_iff.mpr ⟨hkeys, hside⟩, hnew⟩
  cases m with
  | normal keys fromInbound index plaintext => exact hread
  | preKey keys recipient index plaintext =>
    have hsame : s.keys = keys := hkeys.symm
    have hcurrent : (e.session.any fun s => s.keys = keys) = true := by simp [hs, hsame]
    unfold End.take
    simp only []
    rw [if_pos hcurrent]
    exact hread

theorem take_opener {e : End} {keys : SessionKeys} {recipient : Key} (h : OpenedTo e keys recipient)
    (hother : ∀ s, e.session = some s → s.keys ≠ keys) (index : Nat) (plaintext : Bytes) :
    e.take (.preKey keys recipient index plaintext) = some ⟨keys, recipient, true, true, 0, [index]⟩ := by
  have hnot : ¬ (e.session.any fun s => s.keys = keys) = true := by
    intro hany
    obtain ⟨s, hs, heq⟩ := (Option.any_eq_true _ _).mp hany
    exact hother s hs (by simpa using heq)
  unfold End.take
  simp only []
  rw [if_neg hnot, if_pos ⟨h.identity, h.holds, h.recipient⟩]

/-- A message that opens nothing leaves the session it finds, read or not. -/
theorem receive_current {e : End} {s : Session} {m : Message} (hs : e.session = some s)
    (hm : ∀ keys, m.preKeySession = some keys → keys = s.keys) :
    ∃ s', e.receive m = { e with session := some s' } ∧ s'.keys = s.keys ∧ s'.inbound = s.inbound ∧
      (s.heard = true → s'.heard = true) := by
  have htake : e.take m = e.session.bind (End.read · m) := by
    cases m with
    | normal keys fromInbound index plaintext => rfl
    | preKey keys recipient index plaintext =>
      unfold End.take
      simp only []
      rw [if_pos]
      rw [hs]
      simpa using (hm keys rfl).symm
  unfold End.receive
  rw [htake, hs, Option.bind_some]
  unfold End.read
  split
  · exact ⟨_, rfl, rfl, rfl, fun _ => rfl⟩
  · exact ⟨s, by rw [← hs]; rfl, rfl, rfl, id⟩

/-! ## What an end sends -/

theorem send_held {e : End} {s : Session} (hs : e.session = some s) (plaintext : Bytes) :
    e.send plaintext =
      { e with session := some { s with sent := s.sent + 1 }, flight := e.flight ++ [End.message s plaintext] } := by
  simp [End.send, End.sealing, hs]

theorem send_fresh {e : End} (hnone : e.session = none) (plaintext : Bytes) :
    e.send plaintext =
      { e with
        account := { e.account with generated := e.account.generated + 1 }
        session := some { e.sealing with sent := 1 }
        flight := e.flight ++ [.preKey e.sealing.keys e.sealing.recipient 0 plaintext] } := by
  simp [End.send, End.sealing, hnone, End.message]

theorem openedTo_sealing {x y : End} (hxy : Bound x y) (hyx : Bound y x) (hnone : x.session = none) :
    OpenedTo y x.sealing.keys x.sealing.recipient := by
  unfold End.sealing
  rw [hnone]
  exact ⟨hyx.identity.symm, hxy.holds, hxy.identity⟩

theorem message_unheard {s : Session} (h : s.heard = false) (plaintext : Bytes) :
    End.message s plaintext = .preKey s.keys s.recipient s.sent plaintext := by
  simp [End.message, h]

theorem message_heard {s : Session} (h : s.heard = true) (plaintext : Bytes) :
    End.message s plaintext = .normal s.keys s.inbound s.sent plaintext := by
  simp [End.message, h]

theorem PreKeys.snoc {keys : SessionKeys} {recipient : Key} {flight : List Message}
    (h : PreKeys keys recipient flight) (index : Nat) (plaintext : Bytes) :
    PreKeys keys recipient (flight ++ [.preKey keys recipient index plaintext]) := by
  intro m hm
  rcases List.mem_append.mp hm with hm | hm
  · exact h m hm
  · exact ⟨index, plaintext, List.mem_singleton.mp hm⟩

theorem preKeys_singleton (keys : SessionKeys) (recipient : Key) (index : Nat) (plaintext : Bytes) :
    PreKeys keys recipient [.preKey keys recipient index plaintext] := by
  intro m hm
  exact ⟨index, plaintext, List.mem_singleton.mp hm⟩

theorem message_of_outbound {s : Session} (h : s.inbound = false) (plaintext : Bytes) :
    (End.message s plaintext).keys = s.keys ∧ (End.message s plaintext).fromInbound = false ∧
      (End.message s plaintext).index = s.sent := by
  unfold End.message
  split
  · exact ⟨rfl, h, rfl⟩
  · exact ⟨rfl, rfl, rfl⟩

/-! ## What the other side goes by -/

/-- The two are one device, with the same keys and the same view of the other. -/
structure SameKeys (e e' : End) : Prop where
  device : e'.account.device = e.account.device
  holds : ∀ key, e'.account.holds key = e.account.holds key
  curve25519 : e'.curve25519 = e.curve25519
  fallbackKey : e'.fallbackKey = e.fallbackKey

theorem SameKeys.identity {e e' : End} (h : SameKeys e e') : e'.account.identity = e.account.identity :=
  congrArg (Key.mk · 0) h.device

theorem SameKeys.refl (e : End) : SameKeys e e := ⟨rfl, fun _ => rfl, rfl, rfl⟩

theorem same_send (e : End) (plaintext : Bytes) : SameKeys e (e.send plaintext) := by
  unfold End.send
  cases e.session with
  | none => exact ⟨rfl, fun _ => rfl, rfl, rfl⟩
  | some s => exact ⟨rfl, fun _ => rfl, rfl, rfl⟩

theorem same_flight (e : End) (flight : List Message) : SameKeys e { e with flight := flight } :=
  ⟨rfl, fun _ => rfl, rfl, rfl⟩

theorem same_receive (e : End) (m : Message) : SameKeys e (e.receive m) := ⟨rfl, fun _ => rfl, rfl, rfl⟩

theorem OpenedTo.congr {e e' : End} {keys : SessionKeys} {recipient : Key} (h : OpenedTo e keys recipient)
    (hsame : SameKeys e e') : OpenedTo e' keys recipient := by
  refine ⟨?_, ?_, ?_⟩
  · rw [hsame.curve25519]
    exact h.identity
  · rw [hsame.holds]
    exact h.holds
  · rw [hsame.identity]
    exact h.recipient

theorem Bound.congr {x x' y y' : End} (h : Bound x y) (hx : SameKeys x x') (hy : SameKeys y y') : Bound x' y' := by
  refine ⟨?_, ?_, ?_⟩
  · rw [hx.curve25519, hy.identity]
    exact h.identity
  · rw [hx.fallbackKey, hy.holds]
    exact h.holds
  · rw [hx.device, hy.device]
    exact h.distinct

theorem Opening.congr {x y y' : End} {s : Session} (h : Opening x y s) (hy : SameKeys y y') : Opening x y' s :=
  ⟨h.session, h.outbound, h.unheard, h.opened.congr hy, h.flight⟩

theorem Taken.congr {x y y' : End} {t : Session} {mine : SessionKeys} (h : Taken x y t mine) (hy : SameKeys y y') :
    Taken x y' t mine := by
  refine ⟨h.session, h.inbound, h.heard, ?_, h.flight⟩
  rw [hy.identity]
  exact h.identity

/-! ## Together -/

section Together

variable {x y : End} {s t : Session} {m : Message} {rest : List Message} {plaintext : Bytes}

theorem Opening.fresh (hxy : Bound x y) (hyx : Bound y x) (hx : x.session = none) (hflight : x.flight = [])
    (plaintext : Bytes) : Opening (x.send plaintext) y { x.sealing with sent := 1 } := by
  have hopened := openedTo_sealing hxy hyx hx
  rw [send_fresh hx, hflight]
  refine ⟨rfl, ?_, ?_, hopened, ?_⟩
  · simp [End.sealing, hx]
  · simp [End.sealing, hx]
  · exact preKeys_singleton _ _ 0 plaintext

theorem Opening.send (h : Opening x y s) (plaintext : Bytes) :
    Opening (x.send plaintext) y { s with sent := s.sent + 1 } := by
  rw [send_held h.session, message_unheard h.unheard]
  exact ⟨rfl, h.outbound, h.unheard, h.opened, h.flight.snoc _ _⟩

theorem Opening.delivered (h : Opening x y s) (hflight : x.flight = m :: rest) :
    (∃ index plaintext, m = .preKey s.keys s.recipient index plaintext) ∧ Opening { x with flight := rest } y s := by
  have hpre := h.flight
  rw [hflight] at hpre
  exact ⟨hpre m List.mem_cons_self,
    h.session, h.outbound, h.unheard, h.opened, fun n hn => hpre n (List.mem_cons_of_mem _ hn)⟩

theorem Joined.send (h : Joined x y s t) (plaintext : Bytes) :
    Joined (x.send plaintext) y { s with sent := s.sent + 1 } t := by
  obtain ⟨hkeys, hside, hindex⟩ := message_of_outbound h.outbound.2 plaintext
  rw [send_held h.outbound.1]
  exact ⟨⟨rfl, h.outbound.2⟩, h.inbound, h.keys, h.flight.send hkeys hside hindex, h.back⟩

theorem Joined.send_back (h : Joined x y s t) (plaintext : Bytes) :
    Joined x (y.send plaintext) s { t with sent := t.sent + 1 } := by
  obtain ⟨hsession, hinbound, hheard⟩ := h.inbound
  rw [send_held hsession, message_heard hheard]
  exact ⟨h.outbound, ⟨rfl, hinbound, hheard⟩, h.keys, h.flight, h.back.send h.keys hinbound rfl⟩

theorem Joined.deliver (h : Joined x y s t) (hflight : x.flight = m :: rest) :
    (y.take m).isSome = true ∧ ∃ t', Joined { x with flight := rest } (y.receive m) s t' := by
  obtain ⟨hsession, hinbound, hheard⟩ := h.inbound
  have hawaited := h.flight
  rw [hflight] at hawaited
  obtain ⟨hkeys, hside, -, hnew⟩ := hawaited.message m List.mem_cons_self
  have htake := take_awaited hsession (hkeys.trans h.keys.symm) (by rw [hside, hinbound]; rfl) hnew
  rw [receive_of_take htake, htake]
  exact ⟨rfl, _, h.outbound, ⟨rfl, hinbound, rfl⟩, h.keys, hawaited.receive, h.back⟩

theorem Joined.deliver_back (h : Joined x y s t) (hflight : y.flight = m :: rest) :
    (x.take m).isSome = true ∧ ∃ s', Joined (x.receive m) { y with flight := rest } s' t := by
  have hawaited := h.back
  rw [hflight] at hawaited
  obtain ⟨hkeys, hside, -, hnew⟩ := hawaited.message m List.mem_cons_self
  have htake := take_awaited h.outbound.1 hkeys (by rw [hside, h.outbound.2]; rfl) hnew
  rw [receive_of_take htake, htake]
  exact ⟨rfl, _, ⟨rfl, h.outbound.2⟩, h.inbound, h.keys, h.flight, hawaited.receive⟩

theorem together_send (hxy : Bound x y) (hyx : Bound y x) (h : Together x y) (plaintext : Bytes) :
    Together (x.send plaintext) y := by
  cases h with
  | idle hx hy hfx hfy =>
    refine .opened _ (.fresh hxy hyx hx hfx plaintext) ?_ ?_ (by simp [End.send]) hy hfy
    · simp [End.sealing, hx]
    · rw [send_fresh hx, hfx]
      exact (awaited_nil x.sealing.keys false 0).send rfl rfl rfl
  | opened s hx hreceived hawaited hne hy hfy =>
    refine .opened _ (hx.send plaintext) hreceived ?_ (by simp [End.send]) hy hfy
    rw [send_held hx.session, message_unheard hx.unheard]
    exact hawaited.send rfl rfl rfl
  | joined s t h => exact .joined _ _ (h.send plaintext)

/-- The side that opens has nothing on its way to it. -/
theorem Together.not_crosses (h : Together x y) : ¬(x.session = none ∧ y.flight ≠ []) := by
  intro hcrosses
  cases h with
  | idle hx hy hfx hfy => exact hcrosses.2 hfy
  | opened s hx => rw [hx.session] at hcrosses; cases hcrosses.1
  | joined s t h => rw [h.outbound.1] at hcrosses; cases hcrosses.1

theorem together_deliver (h : Together x y) (hflight : x.flight = m :: rest) :
    Together { x with flight := rest } (y.receive m) := by
  cases h with
  | idle hx hy hfx hfy => rw [hflight] at hfx; cases hfx
  | opened s hx hreceived hawaited hne hy hfy =>
    rw [hflight] at hawaited
    obtain ⟨⟨index, plaintext, rfl⟩, hx'⟩ := hx.delivered hflight
    have htake := take_opener hx.opened (fun s' hs' => by rw [hy] at hs'; cases hs') index plaintext
    rw [receive_of_take htake]
    refine .joined s _ ⟨⟨hx.session, hx.outbound⟩, ⟨rfl, rfl, rfl⟩, rfl, hawaited.receive, ?_⟩
    show Awaited s.keys true 0 s.received y.flight
    rw [hfy, hreceived]
    exact awaited_nil _ _ _
  | joined s t h =>
    obtain ⟨-, t', h'⟩ := h.deliver hflight
    exact .joined _ _ h'

theorem together_deliver_back (h : Together x y) (hflight : y.flight = m :: rest) :
    Together (x.receive m) { y with flight := rest } := by
  cases h with
  | idle hx hy hfx hfy => rw [hflight] at hfy; cases hfy
  | opened s hx hreceived hawaited hne hy hfy => rw [hflight] at hfy; cases hfy
  | joined s t h =>
    obtain ⟨-, s', h'⟩ := h.deliver_back hflight
    exact .joined _ _ h'

/-- The other end sends: it answers, or it is the one that opens, or the openings cross. -/
theorem together_send_back (hxy : Bound x y) (hyx : Bound y x) (h : Together x y) (plaintext : Bytes) :
    (¬(y.session = none ∧ x.flight ≠ []) ∧
      (Together x (y.send plaintext) ∨ Together (y.send plaintext) x)) ∨
    (y.session = none ∧ x.flight ≠ []) ∧ Apart x (y.send plaintext) := by
  cases h with
  | idle hx hy hfx hfy =>
    exact Or.inl ⟨fun h => h.2 hfx, Or.inr (together_send hyx hxy (.idle hy hx hfy hfx) plaintext)⟩
  | opened s hx hreceived hawaited hne hy hfy =>
    refine Or.inr ⟨⟨hy, hne⟩, ?_⟩
    have hy' := Opening.fresh hyx hxy hy hfy plaintext
    exact .crossed s _ (hx.congr (same_send y plaintext)) hy' hne (by simp [End.send])
  | joined s t h =>
    refine Or.inl ⟨fun hnone => ?_, Or.inl (.joined _ _ (h.send_back plaintext))⟩
    rw [h.inbound.1] at hnone
    cases hnone.1

end Together

/-! ## Apart -/

section Apart

variable {x y : End} {s t : Session} {m : Message} {rest : List Message} {mine : SessionKeys}

theorem Taken.send (h : Taken x y t mine) (plaintext : Bytes) :
    Taken (x.send plaintext) y { t with sent := t.sent + 1 } mine := by
  rw [send_held h.session, message_heard h.heard]
  refine ⟨rfl, h.inbound, h.heard, h.identity, fun m hm => ?_⟩
  rcases List.mem_append.mp hm with hm | hm
  · exact h.flight m hm
  · refine Or.inr ⟨t.sent, plaintext, ?_⟩
    rw [List.mem_singleton.mp hm, h.inbound]

/-- A session it has taken is kept, whatever comes for that session. -/
theorem Taken.receive (h : Taken x y t mine) (hm : ∀ keys, m.preKeySession = some keys → keys = t.keys) :
    ∃ t', Taken (x.receive m) y t' mine ∧ t'.keys = t.keys := by
  obtain ⟨t', hreceive, hkeys, hinbound, hheard⟩ := receive_current h.session hm
  rw [hreceive]
  refine ⟨t', ⟨rfl, hinbound.trans h.inbound, hheard h.heard, ?_, ?_⟩, hkeys⟩
  · rw [hkeys]
    exact h.identity
  · rw [hkeys]
    exact h.flight

/-- The opening of the other side takes the place of the session it opened itself. -/
theorem Opening.receive (hxy : Bound x y) (hyx : Bound y x) (h : Opening y x t) {keys : SessionKeys} {recipient : Key}
    (hopened : OpenedTo y keys recipient) (index : Nat) (plaintext : Bytes) :
    ∃ t', Taken (y.receive (.preKey keys recipient index plaintext)) x t' t.keys ∧ t'.keys = keys := by
  have hother : ∀ s', y.session = some s' → s'.keys ≠ keys := by
    intro s' hs' heq
    rw [h.session] at hs'
    cases hs'
    have hidentity := h.opened.identity.symm.trans ((congrArg SessionKeys.identityKey heq).trans hopened.identity)
    rw [hxy.identity, hyx.identity] at hidentity
    exact hxy.distinct (congrArg Key.device hidentity).symm
  rw [receive_of_take (take_opener hopened hother index plaintext)]
  refine ⟨_, ⟨rfl, rfl, rfl, hopened.identity.trans hyx.identity, fun m hm => ?_⟩, rfl⟩
  obtain ⟨i, p, hpre⟩ := h.flight m hm
  exact Or.inl ⟨_, i, p, hpre⟩

theorem Taken.delivered (h : Taken x y t mine) (hflight : x.flight = m :: rest) :
    Stray mine t.keys m ∧ Taken { x with flight := rest } y t mine := by
  have hstray := h.flight
  rw [hflight] at hstray
  exact ⟨hstray m List.mem_cons_self,
    h.session, h.inbound, h.heard, h.identity, fun n hn => hstray n (List.mem_cons_of_mem _ hn)⟩

theorem Stray.preKeySession {theirs : SessionKeys} (h : Stray mine theirs m) (keys : SessionKeys)
    (hkeys : m.preKeySession = some keys) : keys = mine := by
  rcases h with ⟨recipient, index, plaintext, rfl⟩ | ⟨index, plaintext, rfl⟩
  · exact (Option.some.inj hkeys).symm
  · cases hkeys

theorem apart_send (h : Apart x y) (plaintext : Bytes) : Apart (x.send plaintext) y := by
  have hsame := same_send x plaintext
  cases h with
  | crossed s t hx hy hfx hfy =>
    refine .crossed _ t (hx.send plaintext) (hy.congr hsame) ?_ hfy
    simp [End.send]
  | half s t mine recipient index text rest hx hy hkeys hopened hflight =>
    exact .half _ t mine recipient index text rest (hx.send plaintext) (hy.congr hsame) hkeys (hopened.congr hsame)
      hflight
  | diverged s t hx hy => exact .diverged _ t (hx.send plaintext) (hy.congr hsame)

theorem apart_send_back (h : Apart x y) (plaintext : Bytes) : Apart x (y.send plaintext) := by
  have hsame := same_send y plaintext
  cases h with
  | crossed s t hx hy hfx hfy =>
    refine .crossed s _ (hx.congr hsame) (hy.send plaintext) hfx ?_
    simp [End.send]
  | half s t mine recipient index text rest hx hy hkeys hopened hflight =>
    refine .half s _ mine recipient index text (rest ++ [End.message y.sealing plaintext]) (hx.congr hsame)
      (hy.send plaintext) hkeys hopened ?_
    show y.flight ++ _ = _
    rw [hflight, List.cons_append]
  | diverged s t hx hy => exact .diverged s { t with sent := t.sent + 1 } (hx.congr hsame) (hy.send plaintext)

theorem apart_deliver (hxy : Bound x y) (hyx : Bound y x) (h : Apart x y) (hflight : x.flight = m :: rest) :
    Apart { x with flight := rest } (y.receive m) := by
  have hsame := same_receive y m
  have hrest := same_flight x rest
  cases h with
  | crossed s t hx hy hfx hfy =>
    obtain ⟨⟨index, plaintext, rfl⟩, hx'⟩ := hx.delivered hflight
    obtain ⟨t', htaken, hkeys⟩ := Opening.receive hxy hyx hy hx.opened index plaintext
    obtain ⟨n, rest', hfy⟩ := List.exists_cons_of_ne_nil hfy
    obtain ⟨⟨index', plaintext', rfl⟩, -⟩ := hy.delivered hfy
    exact .half s t' t.keys t.recipient index' plaintext' rest' (hx'.congr hsame) (htaken.congr hrest) hkeys
      (hy.opened.congr hrest) hfy
  | half s t mine recipient index text rest' hx hy hkeys hopened hback =>
    obtain ⟨⟨index', plaintext', rfl⟩, hx'⟩ := hx.delivered hflight
    obtain ⟨t', htaken, hkeys'⟩ := hy.receive (m := .preKey s.keys s.recipient index' plaintext')
      fun keys h => (Option.some.inj h).symm.trans hkeys.symm
    exact .half s t' mine recipient index text rest' (hx'.congr hsame) (htaken.congr hrest)
      (hkeys'.trans hkeys) (hopened.congr hrest) hback
  | diverged s t hx hy =>
    obtain ⟨hstray, hx'⟩ := hx.delivered hflight
    obtain ⟨t', htaken, hkeys⟩ := hy.receive hstray.preKeySession
    refine .diverged s t' ?_ (htaken.congr hrest)
    rw [hkeys]
    exact hx'.congr hsame

theorem apart_deliver_back (hxy : Bound x y) (hyx : Bound y x) (h : Apart x y) (hflight : y.flight = m :: rest) :
    Apart (x.receive m) { y with flight := rest } ∨ Apart { y with flight := rest } (x.receive m) := by
  have hsame := same_receive x m
  cases h with
  | crossed s t hx hy hfx hfy => exact Or.inr (apart_deliver hyx hxy (.crossed t s hy hx hfy hfx) hflight)
  | half s t mine recipient index text rest' hx hy hkeys hopened hback =>
    refine Or.inl ?_
    obtain ⟨-, hy'⟩ := hy.delivered hflight
    rw [hback] at hflight
    cases hflight
    obtain ⟨s', htaken, hkeys'⟩ := Opening.receive hyx hxy hx hopened index text
    refine .diverged s' t ?_ ?_
    · rw [hkeys]
      exact htaken.congr (same_flight y rest)
    · rw [hkeys']
      exact hy'.congr hsame
  | diverged s t hx hy => exact Or.inr (apart_deliver hyx hxy (.diverged t s hy hx) hflight)

/-- With nothing left in flight each is on the session that the other opened. -/
theorem apart_adrift (hxy : Bound x y) (h : Apart x y) (hfx : x.flight = []) (hfy : y.flight = []) :
    ∃ mine theirs, Adrift x mine ∧ Adrift y theirs ∧ mine ≠ theirs := by
  have hnone : ∀ {e : End}, e.flight = [] → ∀ keys : SessionKeys, ∀ m ∈ e.flight,
      ∃ index plaintext, m = .normal keys true index plaintext := fun hempty _ m hm => by rw [hempty] at hm; cases hm
  cases h with
  | crossed s t hx hy hne _ => exact absurd hfx hne
  | half s t mine recipient index text rest hx hy hkeys hopened hback => rw [hback] at hfy; cases hfy
  | diverged s t hx hy =>
    refine ⟨s.keys, t.keys, ⟨⟨s, hx.session, rfl, hx.inbound, hx.heard⟩, hnone hfx _⟩,
      ⟨⟨t, hy.session, rfl, hy.inbound, hy.heard⟩, hnone hfy _⟩, fun heq => ?_⟩
    have hidentity := hx.identity.symm.trans ((congrArg SessionKeys.identityKey heq).trans hy.identity)
    exact hxy.distinct (congrArg Key.device hidentity).symm

theorem Adrift.send {keys : SessionKeys} (h : Adrift x keys) (plaintext : Bytes) : Adrift (x.send plaintext) keys := by
  obtain ⟨s, hs, rfl, hinbound, hheard⟩ := h.session
  rw [send_held hs, message_heard hheard]
  refine ⟨⟨_, rfl, rfl, hinbound, hheard⟩, fun m hm => ?_⟩
  rcases List.mem_append.mp hm with hm | hm
  · exact h.flight m hm
  · refine ⟨s.sent, plaintext, ?_⟩
    rw [List.mem_singleton.mp hm, hinbound]

/-- What comes for another session is refused, and nothing changes. -/
theorem Adrift.refuses {keys theirs : SessionKeys} (hx : Adrift x keys) (hy : Adrift y theirs) (hne : keys ≠ theirs)
    (hflight : x.flight = m :: rest) :
    y.take m = none ∧ Adrift { x with flight := rest } keys ∧ Adrift (y.receive m) theirs := by
  have hmessages := hx.flight
  rw [hflight] at hmessages
  obtain ⟨index, plaintext, rfl⟩ := hmessages m List.mem_cons_self
  obtain ⟨t, ht, rfl, -, -⟩ := hy.session
  have hnot : ¬ t.isFor (.normal keys true index plaintext) = true := fun hfor => hne (isFor_iff.mp hfor).1
  have htake : y.take (.normal keys true index plaintext) = none := by
    show y.session.bind (End.read · _) = none
    rw [ht]
    exact if_neg fun h => hnot h.1
  refine ⟨htake, ⟨hx.session, fun n hn => hmessages n (List.mem_cons_of_mem _ hn)⟩, ?_⟩
  unfold End.receive
  rw [htake]
  exact hy

end Apart

end Beacon.Ideal
