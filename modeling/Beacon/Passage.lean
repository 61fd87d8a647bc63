/-
  Beacon.Passage — a message on its way between two devices: each with its outbox and its
  session manager, over the in-process transport that two clones of stand in for two devices.

  A pass of an outbox seals and sends; whoever reads a channel decrypts what waits there, at
  any place, as often as it likes. What the two managers do with other peers, and what other
  clones do to the transport, goes on meanwhile.
  - `Carried`: each message that waits was sealed for the reader by the sender, in one place
    of all it ever sealed for it, and no two are in one place.
  - `passage_run`: whatever waits between the two decrypts, the first time it is read, to what
    the sender's outbox reported under that message's id; and no two reports share an id.
-/

import Mathlib.Data.List.Pairwise
import Beacon.Outbox.InProcess
import Beacon.Session.Stream

namespace Beacon

open Lib

namespace Passage

open Beacon.Ideal (vodozemac Side Manager Net Pair Link Flowing Elsewhere)
open MemoryTransport (State Call)

/-! ## The two devices -/

structure Road where
  outbox : Side → Outbox
  manager : Side → Manager
  transport : State
  /-- What each side's reports say went out on its channel: under which id, and what. -/
  handed : Side → List (MessageId × Bytes)

def start (p : Pair) : Road := ⟨fun _ => .new, p.manager, MemoryTransport.new, fun _ => []⟩

inductive Event where
  | enqueue (side : Side) (message : Enqueue) (now : SystemTime)
  | drain (side : Side) (now : SystemTime) (budget : Nat)
  | forgetPeer (side : Side) (peer : String)
  | restart (side : Side)
  /-- Another clone of the transport. -/
  | call (call : Call)
  | aside (side : Side) (call : Ideal.Call)
  /-- The other side decrypts what waits at this place on the side's channel. -/
  | read (side : Side) (place : Nat)

section

variable (name : Side → String) (channel : Side → ChannelId) (clock : Nat → SystemTime)

/-- The messages of a report that went out on the channel, by the entries they were. -/
def reported (c : ChannelId) (o : Outbox) (sent : List SentEntry) : List (MessageId × Bytes) :=
  (sent.filter fun s => s.channel = c).map fun s =>
    (s.messageId, ((o.entries.find? fun e => e.id = s.id).map Entry.plaintext).getD [])

def Road.drained (r : Road) (side : Side) (now : SystemTime) (budget : Nat) : Drained (Manager × State) :=
  (r.outbox side).drain (Outbox.inProcess clock) (r.manager side, r.transport) now budget

/-- A call of an outbox that has nothing to do with its ports. -/
def Road.queue (r : Road) (side : Side) (event : Outbox.Event (Manager × State)) : Road :=
  { r with outbox := Function.update r.outbox side ((r.outbox side).step (Outbox.inProcess clock) event) }

def step (r : Road) : Event → Road
  | .enqueue side message now => r.queue clock side (.enqueue message now)
  | .forgetPeer side peer => r.queue clock side (.forgetPeer peer)
  | .restart side => r.queue clock side .restart
  | .drain side now budget =>
    let drained := r.drained clock side now budget
    { outbox := Function.update r.outbox side drained.outbox
      manager := Function.update r.manager side drained.world.1
      transport := drained.world.2
      handed := Function.update r.handed side
        (r.handed side ++ reported (channel side) (r.outbox side) drained.report.sent) }
  | .call call => { r with transport := MemoryTransport.step r.transport call }
  | .aside side call => { r with manager := Function.update r.manager side (Ideal.call (r.manager side) call) }
  | .read side place =>
    match (r.transport.pendingOn (channel side))[place]? with
    | none => r
    | some d =>
      let after := ((r.manager side.other).decrypt (name side) d.ciphertext).2
      { r with manager := Function.update r.manager side.other after }

abbrev run (r : Road) (events : List Event) : Road := Trace.run (step name channel clock) r events

/-- A side's channel is for the other side, and only it sends there; and no pass opens a session while the other side
    has one. -/
def Fair (r : Road) : Event → Prop
  | .enqueue side message _ =>
    (message.channel = channel side → message.peer = name side.other) ∧ message.channel ≠ channel side.other
  | .drain side now budget => (r.manager side).sessionWith (name side.other) = none →
      (r.drained clock side now budget).world.1.sessionWith (name side.other) ≠ none →
      (r.manager side.other).sessionWith (name side) = none
  | .call (.send c _ _) => ∀ side, c ≠ channel side
  | .call _ => True
  | .aside side call => Elsewhere (name side.other) call
  | .forgetPeer _ _ | .restart _ | .read _ _ => True

/-- The message under this id on the side's channel is read. -/
def Reads (side : Side) (id : MessageId) (r : Road) : Event → Prop
  | .read s place => s = side ∧ ((r.transport.pendingOn (channel side))[place]?).any fun d => d.id = id
  | _ => False

instance (side : Side) (id : MessageId) (r : Road) : (event : Event) → Decidable (Reads channel side id r event)
  | .read _ _ => inferInstanceAs (Decidable (_ ∧ _))
  | .enqueue _ _ _ | .drain _ _ _ | .forgetPeer _ _ | .restart _ | .call _ | .aside _ _ => .isFalse fun h => h

end

/-! ## What is on its way -/

/-- A message that went out: its id, its place in what was sealed for the other side, and what it says. -/
structure Slip where
  id : MessageId
  place : Nat
  plaintext : Bytes

/-- Told apart by either of their numbers. -/
def Slip.Apart (a b : Slip) : Prop := a.id ≠ b.id ∧ a.place ≠ b.place

instance : Std.Symm Slip.Apart := ⟨fun _ _ h => ⟨h.1.symm, h.2.symm⟩⟩

section

variable (name : Side → String) (channel : Side → ChannelId)

/-- `slips` are the messages that went out of each side on its channel, and `read` the places of those the other has
    read. -/
structure Carried (t : State) (n : Net) (read : Side → List Nat) (slips : Side → List Slip) : Prop where
  flowing : ∃ l, Flowing name n l read
  given : ∀ side, ∀ s ∈ slips side, ∃ k ≤ t.nextId, s.id = State.messageId k
  sealed : ∀ side, ∀ s ∈ slips side, ∃ frame, (n.sealed side)[s.place]? = some (s.plaintext, frame)
  distinct : ∀ side, (slips side).Pairwise Slip.Apart
  pending : ∀ side, ∀ d ∈ t.pendingOn (channel side), ∃ s ∈ slips side, s.id = d.id ∧
    (n.sealed side)[s.place]? = some (s.plaintext, d.ciphertext)
  read : ∀ side, ∀ place ∈ read side, ∃ s ∈ slips side, s.place = place

end

namespace Carried

variable {name : Side → String} {channel : Side → ChannelId} {t t' : State} {n n' : Net} {read : Side → List Nat}
  {slips : Side → List Slip}

theorem eq_of {side : Side} (h : Carried name channel t n read slips) {a b : Slip} (ha : a ∈ slips side)
    (hb : b ∈ slips side) (heq : a.id = b.id ∨ a.place = b.place) : a = b := by
  by_contra hne
  have hapart := (h.distinct side).forall ha hb hne
  exact heq.elim hapart.1 hapart.2

/-- More was sealed. -/
theorem sealing (h : Carried name channel t n read slips) (hflowing : ∃ l, Flowing name n' l read)
    (hmore : ∀ side, n.sealed side <+: n'.sealed side) : Carried name channel t n' read slips := by
  have hkept : ∀ (side : Side) (place : Nat) (x : Bytes × Bytes),
      (n.sealed side)[place]? = some x → (n'.sealed side)[place]? = some x := by
    intro side place x hx
    obtain ⟨more, hmore⟩ := hmore side
    rw [← hmore, List.getElem?_append_left (List.getElem?_eq_some_iff.mp hx).1]
    exact hx
  refine { h with flowing := hflowing, sealed := fun side s hs => ?_, pending := fun side d hd => ?_ }
  · obtain ⟨frame, hframe⟩ := h.sealed side s hs
    exact ⟨frame, hkept side _ _ hframe⟩
  · obtain ⟨s, hs, hid, hframe⟩ := h.pending side d hd
    exact ⟨s, hs, hid, hkept side _ _ hframe⟩

/-- The transport went on, and put nothing on the two channels. -/
theorem elsewhere (h : Carried name channel t n read slips) (hnext : t.nextId ≤ t'.nextId)
    (hpending : ∀ side, ∀ d ∈ t'.pendingOn (channel side), d ∈ t.pendingOn (channel side)) :
    Carried name channel t' n read slips := by
  refine { h with given := fun side s hs => ?_, pending := fun side d hd => h.pending side d (hpending side d hd) }
  obtain ⟨k, hk, hid⟩ := h.given side s hs
  exact ⟨k, Nat.le_trans hk hnext, hid⟩

theorem mem_post {side s : Side} {new x : Slip} :
    x ∈ Function.update slips side (slips side ++ [new]) s ↔ x ∈ slips s ∨ s = side ∧ x = new := by
  by_cases hs : s = side
  · subst hs
    simp
  · simp [hs]

/-- A frame was sealed, and taken on the side's channel. -/
theorem sent (h : Carried name channel t n read slips) {side : Side} {plaintext frame : Bytes} {now : SystemTime}
    (hflowing : ∃ l, Flowing name n' l read)
    (hsealed : n'.sealed = Function.update n.sealed side (n.sealed side ++ [(plaintext, frame)]))
    (hnext : t'.nextId = t.nextId + 1)
    (hthis : t'.pendingOn (channel side) = t.pendingOn (channel side) ++ [⟨State.messageId t'.nextId, frame, now⟩])
    (hother : t'.pendingOn (channel side.other) = t.pendingOn (channel side.other)) :
    Carried name channel t' n' read (Function.update slips side
      (slips side ++ [⟨State.messageId t'.nextId, (n.sealed side).length, plaintext⟩])) := by
  have hmore : ∀ s, n.sealed s <+: n'.sealed s := by
    intro s
    rw [hsealed]
    by_cases hs : s = side
    · subst hs
      rw [Function.update_self]
      exact List.prefix_append _ _
    · simp only [Function.update_of_ne hs]
      exact List.prefix_rfl
  have hlast : (n'.sealed side)[(n.sealed side).length]? = some (plaintext, frame) := by
    rw [hsealed, Function.update_self]
    simp
  have hold := h.sealing hflowing hmore
  have hgiven : ∀ s, ∀ x ∈ slips s, ∃ k ≤ t'.nextId, x.id = State.messageId k := by
    intro s x hx
    obtain ⟨k, hk, hid⟩ := h.given s x hx
    exact ⟨k, by omega, hid⟩
  have hfresh : ∀ x ∈ slips side, x.Apart ⟨State.messageId t'.nextId, (n.sealed side).length, plaintext⟩ := by
    intro x hx
    constructor
    · intro hid
      obtain ⟨k, hk, hk'⟩ := h.given side x hx
      have := MemoryTransport.messageId_injective (hk'.symm.trans hid)
      omega
    · intro hplace
      obtain ⟨f, hf⟩ := h.sealed side x hx
      have := (List.getElem?_eq_some_iff.mp hf).1
      simp only at hplace
      omega
  constructor
  · exact hflowing
  · intro s x hx
    rcases mem_post.mp hx with hx | ⟨-, rfl⟩
    · exact hgiven s x hx
    · exact ⟨t'.nextId, Nat.le_refl _, rfl⟩
  · intro s x hx
    rcases mem_post.mp hx with hx | ⟨rfl, rfl⟩
    · exact hold.sealed s x hx
    · exact ⟨frame, hlast⟩
  · intro s
    by_cases hs : s = side
    · subst hs
      rw [Function.update_self, List.pairwise_append]
      refine ⟨h.distinct s, List.pairwise_singleton _ _, fun x hx y hy => ?_⟩
      rw [List.mem_singleton.mp hy]
      exact hfresh x hx
    · rw [Function.update_of_ne hs]
      exact h.distinct s
  · intro s d hd
    have hcases : d ∈ t.pendingOn (channel s) ∨ s = side ∧ d = ⟨State.messageId t'.nextId, frame, now⟩ := by
      rcases Side.eq_or_other s side with rfl | rfl
      · rw [hthis, List.mem_append, List.mem_singleton] at hd
        exact hd.imp_right fun hd => ⟨rfl, hd⟩
      · exact Or.inl (hother ▸ hd)
    rcases hcases with hd | ⟨rfl, rfl⟩
    · obtain ⟨x, hx, hrest⟩ := hold.pending s d hd
      exact ⟨x, mem_post.mpr (Or.inl hx), hrest⟩
    · exact ⟨_, mem_post.mpr (Or.inr ⟨rfl, rfl⟩), rfl, hlast⟩
  · intro s place hplace
    obtain ⟨x, hx, heq⟩ := h.read s place hplace
    exact ⟨x, mem_post.mpr (Or.inl hx), heq⟩

/-- What waits is read by the other side: in full the first time, and not again. -/
theorem reads (h : Carried name channel t n read slips) {side : Side} {d : Delivery}
    (hd : d ∈ t.pendingOn (channel side)) :
    ∃ s ∈ slips side, s.id = d.id ∧ (n.sealed side)[s.place]? = some (s.plaintext, d.ciphertext) ∧
      ((s.place ∉ read side ∧ (∃ x, ((n.manager side.other).decrypt (name side) d.ciphertext).1 = .ok x ∧
          x.authenticatedSender = name side ∧ x.plaintext = s.plaintext) ∧
        Carried name channel t (n.step name (.deliver side s.place))
          (Function.update read side (s.place :: read side)) slips) ∨
      s.place ∈ read side ∧ ((n.manager side.other).decrypt (name side) d.ciphertext).1 =
          .error (.sessionLost (name side) "the message key is used") ∧
        Carried name channel t (n.step name (.deliver side s.place)) read slips) := by
  obtain ⟨s, hs, hid, hplace⟩ := h.pending side d hd
  obtain ⟨l, hflowing⟩ := h.flowing
  have hmore : ∀ s', n.sealed s' <+: (n.step name (.deliver side s.place)).sealed s' := by
    intro s'
    simp only [Net.sealed_deliver]
    exact List.prefix_rfl
  refine ⟨s, hs, hid, hplace, ?_⟩
  rcases hflowing.deliver hplace with ⟨hnew, hdecrypts, l', hflowing'⟩ | ⟨hold, hlost, hflowing'⟩
  · refine Or.inl ⟨hnew, hdecrypts, ?_⟩
    refine { h with
      flowing := ⟨l', hflowing'⟩
      sealed := fun s' x hx => ?_
      pending := fun s' x hx => ?_
      read := fun s' place hp => ?_ }
    · rw [Net.sealed_deliver]
      exact h.sealed s' x hx
    · rw [Net.sealed_deliver]
      exact h.pending s' x hx
    · by_cases hs' : s' = side
      · subst hs'
        rw [Function.update_self, List.mem_cons] at hp
        rcases hp with rfl | hp
        · exact ⟨s, hs, rfl⟩
        · exact h.read s' place hp
      · rw [Function.update_of_ne hs'] at hp
        exact h.read s' place hp
  · exact Or.inr ⟨hold, hlost, h.sealing ⟨l, hflowing'⟩ hmore⟩

end Carried

/-! ## A pass -/

theorem sent_ok {s t : State} {c : ChannelId} {message : Outbound} {now : SystemTime} {id : MessageId}
    (h : s.send c message now = (.ok id, t)) : id = State.messageId t.nextId ∧ t.nextId = s.nextId + 1 ∧
      ∀ c', t.pendingOn c' =
        if c = c' then s.pendingOn c' ++ [⟨id, message.ciphertext, now⟩] else s.pendingOn c' := by
  have hstep : MemoryTransport.step s (.send c message now) = t := congrArg Prod.snd h
  rcases (MemoryTransport.send_cases s c message now).2 with ⟨-, hok, heffect⟩ | ⟨-, ⟨error, reason, herror, -⟩, -⟩
  · have hnext := (MemoryTransport.id_of_effect heffect).2
    rw [hstep] at hnext
    have hid : id = State.messageId (s.nextId + 1) := Except.ok.inj ((congrArg Prod.fst h).symm.trans hok)
    refine ⟨by rw [hnext, hid], hnext, fun c' => ?_⟩
    rw [← hstep, MemoryTransport.pendingOn_step, heffect, MemoryTransport.editsOn_one, hid]
    split <;> rfl
  · cases (congrArg Prod.fst h).symm.trans herror

theorem sent_error {s t : State} {c : ChannelId} {message : Outbound} {now : SystemTime} {error : TransportError}
    (h : s.send c message now = (.error error, t)) : s.nextId ≤ t.nextId ∧ ∀ c', t.pendingOn c' = s.pendingOn c' := by
  have hstep : MemoryTransport.step s (.send c message now) = t := congrArg Prod.snd h
  refine ⟨hstep ▸ MemoryTransport.nextId_le_step s _, fun c' => ?_⟩
  rcases (MemoryTransport.send_cases s c message now).2 with ⟨-, hok, -⟩ | ⟨-, -, heffect⟩
  · cases (congrArg Prod.fst h).symm.trans hok
  · rw [← hstep, MemoryTransport.pendingOn_step, heffect]
    rfl

section Pass

variable {name : Side → String} {channel : Side → ChannelId} {clock : Nat → SystemTime} {manager : Side → Manager}
  {side : Side} {o : Outbox} {read : Side → List Nat} {slips : Side → List Slip}

theorem session_encryptInSession {m : Manager} {p : String} (h : m.sessionWith p ≠ none) (peer : String)
    (plaintext : Bytes) : (m.encryptInSession peer plaintext).2.sessionWith p ≠ none := by
  unfold SessionManager.encryptInSession
  cases hget : m.peers.get? peer with
  | none => exact h
  | some state =>
    simp only []
    split
    · exact h
    · split
      all_goals
        show SessionManager.sessionWith (V := vodozemac) ⟨m.account, m.peers.insert _⟩ p ≠ none
        rw [Ideal.sessionWith_set hget]
        split
        · exact Option.some_ne_none _
        · exact h

/-- Sealing ends no session. -/
theorem session_encrypt {m : Manager} {p : String} (h : m.sessionWith p ≠ none) (peer : String) (plaintext : Bytes) :
    (m.encrypt peer plaintext).2.sessionWith p ≠ none := by
  have hopened : (m.establishOutbound peer).2.sessionWith p ≠ none := by
    unfold SessionManager.establishOutbound
    cases hget : m.peers.get? peer with
    | none => exact h
    | some state =>
      show SessionManager.sessionWith (V := vodozemac)
        ⟨{ m.account with generated := m.account.generated + 1 }, m.peers.insert _⟩ p ≠ none
      rw [Ideal.sessionWith_set hget]
      split
      · exact Option.some_ne_none _
      · exact h
  unfold SessionManager.encrypt
  split
  · exact session_encryptInSession h peer plaintext
  · split
    next heq => rwa [heq] at hopened
    next heq =>
      rw [heq] at hopened
      exact session_encryptInSession hopened peer plaintext

theorem inProcess_encrypt {w w' : Manager × State} {peer : String} {plaintext : Bytes}
    {result : Except SessionError Bytes} (h : (Outbox.inProcess clock).encrypt w peer plaintext = (result, w')) :
    w.1.encrypt peer plaintext = (result, w'.1) ∧ w'.2 = w.2 := by
  cases h
  exact ⟨rfl, rfl⟩

theorem inProcess_send {w w' : Manager × State} {c : ChannelId} {message : Outbound}
    {result : Except TransportError MessageId} (h : (Outbox.inProcess clock).send w c message = (result, w')) :
    w.2.send c message (clock w.2.nextId) = (result, w'.2) ∧ w'.1 = w.1 := by
  cases h
  exact ⟨rfl, rfl⟩

theorem session_attempt {s : Pass (Manager × State)} {p : String} (h : s.world.1.sessionWith p ≠ none) (now : Nat)
    (e : Entry) : (Outbox.attempt (Outbox.inProcess clock) now s e).world.1.sessionWith p ≠ none := by
  have hsealed : ∀ {result : Except SessionError Bytes} {w : Manager × State},
      (Outbox.inProcess clock).encrypt s.world e.peer e.plaintext = (result, w) → w.1.sessionWith p ≠ none := by
    intro result w hseal
    have hkept := session_encrypt h e.peer e.plaintext
    rwa [(inProcess_encrypt hseal).1] at hkept
  have hsent : ∀ {w w' : Manager × State} {frame : Bytes} {result : Except TransportError MessageId},
      (Outbox.inProcess clock).send w e.channel (e.outbound frame) = (result, w') →
      w.1.sessionWith p ≠ none → w'.1.sessionWith p ≠ none := by
    intro w w' frame result hsend hw
    rwa [(inProcess_send hsend).2]
  have hcases := Outbox.attempt_cases (Outbox.inProcess clock) now s e
  generalize Outbox.attempt (Outbox.inProcess clock) now s e = s' at hcases ⊢
  cases hcases with
  | skipped => exact h
  | unsealed error w _ hseal => exact hsealed hseal
  | dropped frame w error w' reason _ hseal hsend => exact hsent hsend (hsealed hseal)
  | refused frame w detail w' _ hseal hsend => exact hsent hsend (hsealed hseal)
  | sent frame w messageId w' _ hseal hsend => exact hsent hsend (hsealed hseal)

theorem session_attempts {s : Pass (Manager × State)} {p : String} (h : s.world.1.sessionWith p ≠ none) {now : Nat}
    (es : List Entry) : (Trace.run (Outbox.attempt (Outbox.inProcess clock) now) s es).world.1.sessionWith p ≠ none :=
  Trace.inv_run (P := fun _ _ => True) (Q := fun s : Pass (Manager × State) => s.world.1.sessionWith p ≠ none)
    (fun _ e _ hs => session_attempt hs now e) h (Trace.eachStep_true _ _)

/-- Sealing for one peer, whoever it is. -/
theorem seals {n : Net} {l : Link} {m m' : Manager} {peer : String} {plaintext : Bytes}
    {result : Except SessionError Bytes} (h : Flowing name n l read) (hmanager : n.manager = Function.update manager side m)
    (hopen : m.sessionWith (name side.other) = none → m'.sessionWith (name side.other) ≠ none →
      (manager side.other).sessionWith (name side) = none)
    (hencrypt : m.encrypt peer plaintext = (result, m')) :
    ∃ n', (∃ l', Flowing name n' l' read) ∧ n'.manager = Function.update manager side m' ∧
      ((peer = name side.other ∧ ∃ frame, result = .ok frame ∧
          n'.sealed = Function.update n.sealed side (n.sealed side ++ [(plaintext, frame)])) ∨
        peer ≠ name side.other ∧ n'.sealed = n.sealed) := by
  have hm : n.manager side = m := by rw [hmanager, Function.update_self]
  have hother : n.manager side.other = manager side.other := by
    rw [hmanager, Function.update_of_ne (Side.other_ne side)]
  by_cases hpeer : peer = name side.other
  · subst hpeer
    obtain ⟨m'', hok, hmeets⟩ := Ideal.encrypt_meets (h.displays.meets side) plaintext
    rw [hm, hencrypt] at hok
    obtain ⟨hframe, rfl⟩ := Prod.mk.inj hok
    have hfair : Net.Fair name n (.encrypt side plaintext) := by
      intro hnone
      rw [hm] at hnone
      rw [hother]
      refine hopen hnone ?_
      rw [hmeets.sessionWith]
      exact Option.some_ne_none _
    obtain ⟨hflowing, -⟩ := h.encrypt hfair
    let frame := encodeFrame (Ideal.End.message (l side).sealing plaintext).toParts
    have hstep : n.step name (.encrypt side plaintext) =
        ⟨Function.update n.manager side m', Function.update n.sealed side (n.sealed side ++ [(plaintext, frame)])⟩ := by
      unfold Net.step
      simp only [hm, hencrypt, hframe]
      rfl
    refine ⟨_, ⟨_, hflowing⟩, ?_, Or.inl ⟨rfl, frame, hframe, ?_⟩⟩
    · rw [hstep, hmanager]
      exact Function.update_idem ..
    · rw [hstep]
  · have haside : ∃ l', Flowing name (n.step name (.aside side (.encrypt peer plaintext))) l' read := h.aside hpeer
    have hcall : Ideal.call (n.manager side) (.encrypt peer plaintext) = m' := by
      rw [hm]
      exact congrArg Prod.snd hencrypt
    refine ⟨_, haside, ?_, Or.inr ⟨hpeer, rfl⟩⟩
    show Function.update n.manager side (Ideal.call (n.manager side) (.encrypt peer plaintext)) = _
    rw [hcall, hmanager]
    exact Function.update_idem ..

/-- A pass of one side's outbox after some of its attempts. -/
def Passing (name : Side → String) (channel : Side → ChannelId) (manager : Side → Manager) (side : Side) (o : Outbox)
    (read : Side → List Nat) (slips : Side → List Slip) (s : Pass (Manager × State)) : Prop :=
  ∃ n more, n.manager = Function.update manager side s.world.1 ∧
    Carried name channel s.world.2 n read (Function.update slips side (slips side ++ more)) ∧
    (more.map fun x => (x.id, x.plaintext)) = reported (channel side) o s.report.sent

theorem find?_entry {e : Entry} (he : e ∈ o.entries) : (o.entries.find? fun a => a.id = e.id) = some e := by
  cases hfind : o.entries.find? fun a => a.id = e.id with
  | none =>
    have hnot := List.find?_eq_none.mp hfind e he
    simp at hnot
  | some a =>
    have hid : a.id = e.id := by simpa using List.find?_some hfind
    rw [o.eq_of_id (List.mem_of_find?_eq_some hfind) he hid]

theorem reported_snoc {c : ChannelId} {sent : List SentEntry} {e : Entry} (he : e ∈ o.entries) (id : MessageId)
    (now : Nat) : reported c o (sent ++ [e.sent id now]) =
      reported c o sent ++ if e.channel = c then [(id, e.plaintext)] else [] := by
  have hfind := find?_entry he
  have hid : (e.sent id now).id = e.id := rfl
  have hchannel : (e.sent id now).channel = e.channel := rfl
  have hmessage : (e.sent id now).messageId = id := rfl
  unfold reported
  rw [List.filter_append, List.map_append]
  congr 1
  by_cases hc : e.channel = c
  · simp [hchannel, hc, hid, hmessage, hfind]
  · simp [hchannel, hc]

/-- Where an attempt puts nothing on the side's channel. -/
theorem Passing.quiet {s s' : Pass (Manager × State)} {e : Entry} {result : Except SessionError Bytes} {m' : Manager}
    (h : Passing name channel manager side o read slips s)
    (hopen : s.world.1.sessionWith (name side.other) = none → s'.world.1.sessionWith (name side.other) ≠ none →
      (manager side.other).sessionWith (name side) = none)
    (hencrypt : s.world.1.encrypt e.peer e.plaintext = (result, m')) (hmanager : s'.world.1 = m')
    (hnext : s.world.2.nextId ≤ s'.world.2.nextId)
    (hpending : ∀ side, ∀ d ∈ s'.world.2.pendingOn (channel side), d ∈ s.world.2.pendingOn (channel side))
    (hreport : reported (channel side) o s'.report.sent = reported (channel side) o s.report.sent) :
    Passing name channel manager side o read slips s' := by
  obtain ⟨n, more, hn, hcarried, hmore⟩ := h
  obtain ⟨l, hflowing⟩ := hcarried.flowing
  rw [hmanager] at hopen
  obtain ⟨n', hflowing', hn', hsealed⟩ := seals hflowing hn hopen hencrypt
  have hprefix : ∀ x, n.sealed x <+: n'.sealed x := by
    intro x
    rcases hsealed with ⟨-, frame, -, hsealed⟩ | ⟨-, hsealed⟩
    · rw [hsealed]
      by_cases hx : x = side
      · subst hx
        rw [Function.update_self]
        exact List.prefix_append _ _
      · simp only [Function.update_of_ne hx]
        exact List.prefix_rfl
    · simp only [hsealed]
      exact List.prefix_rfl
  refine ⟨n', more, by rw [hmanager]; exact hn', (hcarried.sealing hflowing' hprefix).elsewhere hnext hpending,
    by rw [hreport]; exact hmore⟩

theorem Passing.step {s s' : Pass (Manager × State)} {e : Entry} {now : Nat}
    (h : Passing name channel manager side o read slips s) (he : e ∈ o.entries)
    (hpeer : e.channel = channel side → e.peer = name side.other) (hother : e.channel ≠ channel side.other)
    (hopen : s.world.1.sessionWith (name side.other) = none → s'.world.1.sessionWith (name side.other) ≠ none →
      (manager side.other).sessionWith (name side) = none)
    (hs : Outbox.Attempted (Outbox.inProcess clock) now s e s') :
    Passing name channel manager side o read slips s' := by
  cases hs with
  | skipped reason hfailed => exact h
  | unsealed error w _ hseal =>
    obtain ⟨hencrypt, hw⟩ := inProcess_encrypt hseal
    exact h.quiet hopen hencrypt rfl (by rw [hw]) (fun x d hd => by rw [hw] at hd; exact hd) rfl
  | dropped frame w error w' reason _ hseal hsend hfinal =>
    obtain ⟨hencrypt, hw⟩ := inProcess_encrypt hseal
    obtain ⟨hcall, hw'⟩ := inProcess_send hsend
    obtain ⟨hnext, hpending⟩ := sent_error hcall
    rw [hw] at hnext hpending
    exact h.quiet hopen hencrypt hw' hnext (fun x d hd => by rw [← hpending]; exact hd) rfl
  | refused frame w detail w' _ hseal hsend =>
    obtain ⟨hencrypt, hw⟩ := inProcess_encrypt hseal
    obtain ⟨hcall, hw'⟩ := inProcess_send hsend
    obtain ⟨hnext, hpending⟩ := sent_error hcall
    rw [hw] at hnext hpending
    exact h.quiet hopen hencrypt hw' hnext (fun x d hd => by rw [← hpending]; exact hd) rfl
  | sent frame w messageId w' _ hseal hsend =>
    obtain ⟨hencrypt, hw⟩ := inProcess_encrypt hseal
    obtain ⟨hcall, hw'⟩ := inProcess_send hsend
    obtain ⟨hid, hnext, hpending⟩ := sent_ok hcall
    rw [hw] at hnext hpending
    by_cases hchannel : e.channel = channel side
    · obtain ⟨n, more, hn, hcarried, hmore⟩ := h
      obtain ⟨l, hflowing⟩ := hcarried.flowing
      have hopen : s.world.1.sessionWith (name side.other) = none → w.1.sessionWith (name side.other) ≠ none →
          (manager side.other).sessionWith (name side) = none := by
        rw [← hw']
        exact hopen
      obtain ⟨n', hflowing', hn', ⟨-, frame', hframe, hsealed⟩ | ⟨hne, -⟩⟩ := seals hflowing hn hopen hencrypt
      · cases hframe
        have hposted := hcarried.sent hflowing' hsealed hnext
          (by rw [hpending, if_pos hchannel, ← hid]; rfl) (by rw [hpending, if_neg hother])
        rw [Function.update_self, Function.update_idem, List.append_assoc] at hposted
        refine ⟨n', _, by rw [hw']; exact hn', hposted, ?_⟩
        show _ = reported (channel side) o (s.report.sent ++ [e.sent messageId now])
        rw [List.map_append, hmore, reported_snoc he, if_pos hchannel, hid]
        rfl
      · exact absurd (hpeer hchannel) hne
    · refine h.quiet hopen hencrypt hw' (by rw [hnext]; omega) (fun x d hd => ?_) ?_
      · rw [hpending] at hd
        rcases Side.eq_or_other x side with rfl | rfl
        · rwa [if_neg hchannel] at hd
        · rwa [if_neg hother] at hd
      · show reported (channel side) o (s.report.sent ++ [e.sent messageId now]) = _
        rw [reported_snoc he, if_neg hchannel, List.append_nil]

theorem passing_drain {r : Road} {n : Net} (hn : n.manager = r.manager)
    (hcarried : Carried name channel r.transport n read slips)
    (hentries : ∀ e ∈ (r.outbox side).entries,
      (e.channel = channel side → e.peer = name side.other) ∧ e.channel ≠ channel side.other)
    (now : SystemTime) (budget : Nat)
    (hopen : (r.manager side).sessionWith (name side.other) = none →
      (r.drained clock side now budget).world.1.sessionWith (name side.other) ≠ none →
      (r.manager side.other).sessionWith (name side) = none) :
    ∃ n more, n.manager = Function.update r.manager side (r.drained clock side now budget).world.1 ∧
      Carried name channel (r.drained clock side now budget).world.2 n read
        (Function.update slips side (slips side ++ more)) ∧
      (more.map fun x => (x.id, x.plaintext)) =
        reported (channel side) (r.outbox side) (r.drained clock side now budget).report.sent := by
  let o := r.outbox side
  have hopening : Passing name channel r.manager side o read slips (o.opening (r.manager side, r.transport) now.unixSeconds) := by
    refine ⟨n, [], ?_, ?_, rfl⟩
    · rw [hn]
      exact (Function.update_eq_self ..).symm
    · rw [List.append_nil, Function.update_eq_self]
      exact hcarried
  have hworld : (r.drained clock side now budget).world =
      (o.attempts (Outbox.inProcess clock) (r.manager side, r.transport) now.unixSeconds budget).world :=
    (Outbox.swept _ _ (Outbox.dead_nodup _)).world
  have hpass : Passing name channel r.manager side o read slips
      (o.attempts (Outbox.inProcess clock) (r.manager side, r.transport) now.unixSeconds budget) := by
    refine Trace.run_prefix_induction (M := fun _ s => Passing name channel r.manager side o read slips s) hopening ?_
    intro pre e post hsplit hs
    have hdue : e ∈ (o.expire now.unixSeconds).1.due now.unixSeconds budget := by rw [hsplit]; simp
    have hmem : e ∈ o.entries := List.filter_sublist.subset (Outbox.mem_due hdue).1
    obtain ⟨hpeer, hother⟩ := hentries e hmem
    refine hs.step hmem hpeer hother (fun hnone hsome => ?_) (Outbox.attempt_cases (Outbox.inProcess clock) _ _ e)
    -- the session that this attempt opens was not there before the pass, and is there after it
    refine hopen ?_ ?_
    · by_contra hbefore
      exact session_attempts hbefore pre hnone
    · rw [hworld, Outbox.attempts, hsplit, Trace.run_append]
      exact session_attempts hsome post
  obtain ⟨n', more, hn', hcarried', hmore⟩ := hpass
  have hsent : (r.drained clock side now budget).report.sent =
      (o.attempts (Outbox.inProcess clock) (r.manager side, r.transport) now.unixSeconds budget).report.sent :=
    Outbox.finish_sent _
  rw [hworld, hsent]
  exact ⟨n', more, hn', hcarried', hmore⟩

/-- What another clone does puts nothing on a channel it does not send on. -/
theorem pendingOn_call {t : State} {call : Call} {c : ChannelId} (hcall : ∀ message now, call ≠ .send c message now)
    {d : Delivery} (hd : d ∈ (MemoryTransport.step t call).pendingOn c) : d ∈ t.pendingOn c := by
  rw [MemoryTransport.pendingOn_step] at hd
  rcases heffect : MemoryTransport.effect t call with _ | ⟨c', e⟩
  · rwa [heffect] at hd
  · rw [heffect, MemoryTransport.editsOn_one] at hd
    split at hd
    next hc =>
      subst hc
      cases e with
      | take p => exact List.mem_of_mem_filter hd
      | add m =>
        cases call with
        | openChannel => cases heffect
        | retire => simp [MemoryTransport.effect] at heffect
        | ack => simp [MemoryTransport.effect] at heffect
        | send c message now =>
          simp only [MemoryTransport.effect] at heffect
          split at heffect
          · cases heffect
            exact absurd rfl (hcall message now)
          · cases heffect
    next => exact hd

end Pass

/-! ## A run -/

section Run

variable {name : Side → String} {channel : Side → ChannelId} {clock : Nat → SystemTime} {p : Pair}

/-- Where a run of the two devices stands. -/
structure Standing (name : Side → String) (channel : Side → ChannelId) (clock : Nat → SystemTime) (p : Pair)
    (events : List Event) (r : Road) (n : Net) (read : Side → List Nat) (slips : Side → List Slip) : Prop where
  manager : n.manager = r.manager
  carried : Carried name channel r.transport n read slips
  handed : ∀ side, r.handed side = (slips side).map fun s => (s.id, s.plaintext)
  reads : ∀ side id, Trace.SomeStep (step name channel clock) (Reads channel side id) (start p) events ↔
    ∃ s ∈ slips side, s.id = id ∧ s.place ∈ read side
  entries : ∀ side, ∀ e ∈ (r.outbox side).entries,
    (e.channel = channel side → e.peer = name side.other) ∧ e.channel ≠ channel side.other

theorem entries_queue {r : Road} {side : Side} (event : Outbox.Event (Manager × State))
    (h : ∀ side, ∀ e ∈ (r.outbox side).entries,
      (e.channel = channel side → e.peer = name side.other) ∧ e.channel ≠ channel side.other)
    (hevent : ∀ message now, event = .enqueue message now →
      (message.channel = channel side → message.peer = name side.other) ∧ message.channel ≠ channel side.other) :
    ∀ s, ∀ e ∈ (Function.update r.outbox side ((r.outbox side).step (Outbox.inProcess clock) event) s).entries,
      (e.channel = channel s → e.peer = name s.other) ∧ e.channel ≠ channel s.other := by
  intro s e he
  by_cases hs : s = side
  · subst hs
    rw [Function.update_self] at he
    rcases Outbox.mem_step _ he with ⟨a, ha, hsame⟩ | ⟨message, now, rfl, -, hchannel, hpeer, -⟩
    · rw [← Entry.channel_eq hsame, ← Entry.peer_eq hsame]
      exact h s a ha
    · rw [hchannel, hpeer]
      exact hevent message now rfl
  · rw [Function.update_of_ne hs] at he
    exact h s e he

theorem standing_start (hready : p.Ready name) :
    ∃ n read slips, Standing name channel clock p [] (start p) n read slips := by
  obtain ⟨l, read, hflowing, -, hread⟩ := Ideal.flowing_run hready [] trivial
  have hunread : ∀ side, read side = [] := by
    intro side
    refine List.eq_nil_iff_forall_not_mem.mpr fun place hplace => ?_
    exact (hread side place).mp hplace
  refine ⟨Net.ofPair p, read, fun _ => [], rfl, ?_, fun _ => rfl, fun side id => ?_, fun side e he => by cases he⟩
  · refine ⟨⟨l, hflowing⟩, fun _ s hs => (List.not_mem_nil hs).elim, fun _ s hs => (List.not_mem_nil hs).elim,
      fun _ => .nil, fun side d hd => ?_, fun side place hplace => ?_⟩
    · have hnone : (start p).transport.pendingOn (channel side) = [] := by
        simp [start, MemoryTransport.new, State.pendingOn]
      rw [hnone] at hd
      cases hd
    · rw [hunread] at hplace
      cases hplace
  · refine ⟨fun h => h.elim, ?_⟩
    rintro ⟨s, hs, -⟩
    cases hs

section Step

variable {events : List Event} {r : Road} {n : Net} {read : Side → List Nat} {slips : Side → List Slip}

theorem Standing.snoc (hrun : r = Trace.run (step name channel clock) (start p) events)
    (h : Standing name channel clock p events r n read slips) (event : Event) (side : Side) (id : MessageId) :
    Trace.SomeStep (step name channel clock) (Reads channel side id) (start p) (events ++ [event]) ↔
      (∃ s ∈ slips side, s.id = id ∧ s.place ∈ read side) ∨ Reads channel side id r event := by
  rw [Trace.someStep_snoc, h.reads, hrun]

/-- Where nothing is read, what has been read stays. -/
theorem Standing.unread (hrun : r = Trace.run (step name channel clock) (start p) events)
    (h : Standing name channel clock p events r n read slips) (event : Event) (side : Side) (id : MessageId)
    (hnot : ¬ Reads channel side id r event) :
    Trace.SomeStep (step name channel clock) (Reads channel side id) (start p) (events ++ [event]) ↔
      ∃ s ∈ slips side, s.id = id ∧ s.place ∈ read side := by
  rw [h.snoc hrun]
  exact ⟨fun hread => hread.resolve_right hnot, Or.inl⟩

theorem reads_read {side s : Side} {place : Nat} {d : Delivery} {id : MessageId}
    (hget : (r.transport.pendingOn (channel side))[place]? = some d) :
    Reads channel s id r (.read side place) ↔ side = s ∧ d.id = id := by
  show side = s ∧ _ ↔ _
  refine and_congr_right fun hs => ?_
  rw [← hs]
  simp [hget]

theorem mem_update_append {side s : Side} {more : List Slip} {x : Slip} (hx : x ∈ slips s) :
    x ∈ Function.update slips side (slips side ++ more) s := by
  by_cases hs : s = side
  · subst hs
    rw [Function.update_self]
    exact List.mem_append_left _ hx
  · rwa [Function.update_of_ne hs]

theorem Standing.drain (hrun : r = Trace.run (step name channel clock) (start p) events)
    (h : Standing name channel clock p events r n read slips) {side : Side} {now : SystemTime} {budget : Nat}
    (hfair : Fair name channel clock r (.drain side now budget)) :
    ∃ n slips, Standing name channel clock p (events ++ [.drain side now budget])
      (step name channel clock r (.drain side now budget)) n read slips := by
  obtain ⟨n', more, hn', hcarried', hmore⟩ := passing_drain h.manager h.carried (h.entries side) now budget hfair
  refine ⟨n', _, hn', hcarried', fun s => ?_, fun s id => ?_, ?_⟩
  · show Function.update r.handed side (r.handed side ++ reported (channel side) (r.outbox side) _) s = _
    by_cases hs : s = side
    · subst hs
      rw [Function.update_self, Function.update_self, List.map_append, hmore, h.handed]
    · rw [Function.update_of_ne hs, Function.update_of_ne hs]
      exact h.handed s
  · rw [h.unread hrun (.drain side now budget) s id (fun h : False => h)]
    -- what was read is a slip from before
    constructor
    · rintro ⟨x, hx, hid, hplace⟩
      exact ⟨x, mem_update_append hx, hid, hplace⟩
    · rintro ⟨x, hx, hid, hplace⟩
      obtain ⟨y, hy, hsame⟩ := h.carried.read s x.place hplace
      obtain rfl := hcarried'.eq_of (mem_update_append hy) hx (Or.inr hsame)
      exact ⟨y, hy, hid, hplace⟩
  · exact entries_queue (.drain (r.manager side, r.transport) now budget) h.entries (by simp)

theorem Standing.reading (hrun : r = Trace.run (step name channel clock) (start p) events)
    (h : Standing name channel clock p events r n read slips) {side : Side} {place : Nat} {d : Delivery}
    (hget : (r.transport.pendingOn (channel side))[place]? = some d) :
    ∃ n read slips, Standing name channel clock p (events ++ [.read side place])
      (step name channel clock r (.read side place)) n read slips := by
  obtain ⟨x, hx, hid, hsealed, hends⟩ := h.carried.reads (List.mem_of_getElem? hget)
  let after := ((r.manager side.other).decrypt (name side) d.ciphertext).2
  have hstep : step name channel clock r (.read side place) =
      { r with manager := Function.update r.manager side.other after } := by
    unfold step
    simp only [hget]
    rfl
  have hmanager : (n.step name (.deliver side x.place)).manager = Function.update r.manager side.other after := by
    rw [Net.deliver_some name hsealed, h.manager]
  rw [hstep]
  rcases hends with ⟨hnew, -, hcarried'⟩ | ⟨hold, -, hcarried'⟩
  · refine ⟨_, _, slips, hmanager, hcarried', h.handed, fun s id => ?_, h.entries⟩
    rw [h.snoc hrun, reads_read hget]
    by_cases hs : s = side
    · subst hs
      rw [Function.update_self]
      constructor
      · rintro (⟨y, hy, hyid, hplace⟩ | ⟨-, rfl⟩)
        · exact ⟨y, hy, hyid, List.mem_cons_of_mem _ hplace⟩
        · exact ⟨x, hx, hid, List.mem_cons_self⟩
      · rintro ⟨y, hy, hyid, hplace⟩
        rcases List.mem_cons.mp hplace with hsame | hplace
        · obtain rfl := h.carried.eq_of hy hx (Or.inr hsame)
          exact Or.inr ⟨rfl, hid.symm.trans hyid⟩
        · exact Or.inl ⟨y, hy, hyid, hplace⟩
    · rw [Function.update_of_ne hs]
      exact ⟨fun hread => hread.resolve_right fun hread => hs hread.1.symm, Or.inl⟩
  · refine ⟨_, _, slips, hmanager, hcarried', h.handed, fun s id => ?_, h.entries⟩
    rw [h.snoc hrun, reads_read hget]
    refine ⟨fun hread => hread.elim (fun h => h) ?_, Or.inl⟩
    rintro ⟨rfl, rfl⟩
    exact ⟨x, hx, hid, hold⟩

theorem Standing.step (hrun : r = Trace.run (step name channel clock) (start p) events)
    (h : Standing name channel clock p events r n read slips) (event : Event) (hfair : Fair name channel clock r event) :
    ∃ n read slips, Standing name channel clock p (events ++ [event]) (Passage.step name channel clock r event) n read slips := by
  cases event with
  | enqueue side message now =>
    refine ⟨n, read, slips, h.manager, h.carried, h.handed, fun s id => h.unread hrun _ s id fun h : False => h,
      entries_queue _ h.entries ?_⟩
    rintro m t heq
    cases heq
    exact hfair
  | forgetPeer side peer =>
    exact ⟨n, read, slips, h.manager, h.carried, h.handed, fun s id => h.unread hrun _ s id fun h : False => h,
      entries_queue _ h.entries (by simp)⟩
  | restart side =>
    exact ⟨n, read, slips, h.manager, h.carried, h.handed, fun s id => h.unread hrun _ s id fun h : False => h,
      entries_queue _ h.entries (by simp)⟩
  | call call =>
    refine ⟨n, read, slips, h.manager, ?_, h.handed, fun s id => h.unread hrun _ s id fun h : False => h, h.entries⟩
    refine h.carried.elsewhere (MemoryTransport.nextId_le_step _ _) fun side d hd => pendingOn_call ?_ hd
    rintro message now rfl
    exact hfair side rfl
  | aside side c =>
    obtain ⟨l, hflowing⟩ := h.carried.flowing
    have haside : ∃ l', Flowing name (n.step name (.aside side c)) l' read := hflowing.aside hfair
    refine ⟨_, read, slips, ?_, h.carried.sealing haside fun _ => List.prefix_rfl, h.handed,
      fun s id => h.unread hrun _ s id fun h : False => h, h.entries⟩
    show Function.update n.manager side (Ideal.call (n.manager side) c) = _
    rw [h.manager]
    rfl
  | drain side now budget =>
    obtain ⟨n', slips', h'⟩ := h.drain hrun hfair
    exact ⟨n', read, slips', h'⟩
  | read side place =>
    cases hget : (r.transport.pendingOn (channel side))[place]? with
    | none =>
      have hstill : Passage.step name channel clock r (.read side place) = r := by
        unfold Passage.step
        simp only [hget]
      rw [hstill]
      refine ⟨n, read, slips, h.manager, h.carried, h.handed, fun s id => h.unread hrun _ s id ?_, h.entries⟩
      rintro ⟨rfl, hany⟩
      rw [hget] at hany
      cases hany
    | some d => exact h.reading hrun hget

end Step

theorem standing_run (hready : p.Ready name) (events : List Event)
    (hfair : Trace.EachStep (step name channel clock) (Fair name channel clock) (start p) events) :
    ∃ n read slips, Standing name channel clock p events (run name channel clock (start p) events) n read slips := by
  have hsteps := Trace.eachStep_iff.mp hfair
  refine Trace.run_prefix_induction (M := fun pre r => ∃ n read slips, Standing name channel clock p pre r n read slips)
    (standing_start hready) ?_
  rintro pre event post hsplit ⟨n, read, slips, hstanding⟩
  exact hstanding.step rfl event (hsteps pre event post hsplit)

/-- What waits, and what comes of reading it. -/
theorem Standing.waiting {events : List Event} {r : Road} {n : Net} {read : Side → List Nat} {slips : Side → List Slip}
    (h : Standing name channel clock p events r n read slips) {side : Side} {d : Delivery}
    (hd : d ∈ r.transport.pendingOn (channel side)) :
    ∃ plaintext, (d.id, plaintext) ∈ r.handed side ∧
      let before := Trace.SomeStep (Passage.step name channel clock) (Reads channel side d.id) (start p) events
      (¬ before → ∃ x, ((r.manager side.other).decrypt (name side) d.ciphertext).1 = .ok x ∧
        x.authenticatedSender = name side ∧ x.plaintext = plaintext) ∧
      (before → ((r.manager side.other).decrypt (name side) d.ciphertext).1 =
        .error (.sessionLost (name side) "the message key is used")) := by
  obtain ⟨x, hx, hid, hsealed, hends⟩ := h.carried.reads hd
  rw [h.manager] at hends
  refine ⟨x.plaintext, ?_, ?_⟩
  · rw [h.handed side, ← hid]
    exact List.mem_map_of_mem hx
  · have hbefore := h.reads side d.id
    rcases hends with ⟨hnew, hdecrypts, -⟩ | ⟨hold, hlost, -⟩
    · refine ⟨fun _ => hdecrypts, fun h' => ?_⟩
      obtain ⟨y, hy, hyid, hplace⟩ := hbefore.mp h'
      obtain rfl := h.carried.eq_of hy hx (Or.inl (hyid.trans hid.symm))
      exact absurd hplace hnew
    · exact ⟨fun h' => absurd (hbefore.mpr ⟨x, hx, hid, hold⟩) h', fun _ => hlost⟩

end Run

/-- Left sends two messages; right reads the second, and then the second again. -/
def twoMessages : List Event :=
  [.call (.openChannel "ab"), .enqueue .left ⟨"ab", "b", [7], .normal, none, none, none⟩ ⟨0⟩,
   .enqueue .left ⟨"ab", "b", [8], .normal, none, none, none⟩ ⟨0⟩, .drain .left ⟨0⟩ 8, .read .left 1, .read .left 1]

def twoChannels : Side → ChannelId
  | .left => "ab"
  | .right => "ba"

end Passage

end Beacon
