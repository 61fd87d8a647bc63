/-
  Beacon.Letters — envelopes carried by the stack: what one device encodes and queues
  (`Envelope::encode`, `Outbox::enqueue`), and what the other makes of the frames it reads
  (`SessionManager::decrypt`, `receive`).

  The road is that of Beacon.Passage. Whatever a side queues for its channel is the encoding
  of an envelope, which `serde_json` reads back; nothing else is asked of the envelope, so
  it may be of another version, or name a sender that is not its own.
  - `Verdict`: what is to become of an envelope, by the device whose session delivered it.
  - `sourced_run`: what a side's reports say went out on its channel was queued for it.
  - `letters_run`: each message is heard when it is first read and never again, and gets the
    verdict on its envelope under the device that sealed it.
-/

import Beacon.Canonical.Encoding
import Beacon.Envelope
import Beacon.Outbox.Bounds
import Beacon.Passage

namespace Beacon

open Lib

/-! ## Envelopes -/

namespace Envelope

def toWire (e : Envelope) : WireEnvelope := ⟨e.v, e.id, e.seq, e.messageType.asStr, e.sent, e.sender, e.body⟩

/-- The fields, as they are declared. -/
def toJson (e : Envelope) : Json :=
  .object [("v", .number (.posInt e.v.toUInt64)), ("id", .string e.id), ("seq", .number (.posInt e.seq)),
    ("type", .string e.messageType.asStr), ("sent", .string e.sent), ("sender", .string e.sender), ("body", e.body)]

def encode (ryu : UInt64 → List Char) (e : Envelope) : Bytes := utf8 (e.toJson.write ryu)

/-- Under the type that its wire string is read as. -/
def reread (e : Envelope) : Envelope := .ofWire e.toWire

theorem validate_reread (e : Envelope) : e.reread.validate = e.validate := by
  have htype : e.reread.messageType.asStr = e.messageType.asStr := MessageType.asStr_ofStr _
  unfold validate
  rw [htype]
  rfl

theorem checkSender_cases (e : Envelope) (sender : String) :
    e.sender = sender ∧ e.checkSender sender = .ok () ∨
    e.sender ≠ sender ∧ e.checkSender sender = .error (.senderMismatch e.sender sender) := by
  unfold checkSender
  by_cases h : e.sender = sender
  · exact Or.inl ⟨h, if_pos h⟩
  · exact Or.inr ⟨h, if_neg h⟩

end Envelope

/-- What becomes of an envelope that `sender`'s session delivered, and whom the log names for it. -/
structure Verdict (sender : String) (e : Envelope) (r : Reception) : Prop where
  peer : r.ledger.peer = sender
  named : r.ledger.messageId = some e.id ↔ e.validate = .ok ()
  accepted : ∀ e', r.outcome = .accepted e' ↔
    e' = e.reread ∧ e.validate = .ok () ∧ e.sender = sender ∧ e.reread.messageType.isKnown = true
  unknownType : ∀ e', r.outcome = .unknownType e' ↔
    e' = e.reread.withoutBody ∧ e.validate = .ok () ∧ e.sender = sender ∧ e.reread.messageType.isKnown = false
  rejected : ∀ reason, r.outcome = .rejected reason ↔
    e.validate = .error reason ∨
    e.validate = .ok () ∧ e.sender ≠ sender ∧ reason = .senderMismatch e.sender sender

section

variable {fromSlice : Bytes → Except String WireEnvelope}

theorem decode_letter {e : Envelope} {bytes : Bytes} (h : fromSlice bytes = .ok e.toWire) :
    Envelope.decode fromSlice bytes = match e.validate with
      | .error reason => .error reason
      | .ok () => .ok e.reread := by
  unfold Envelope.decode
  rw [h, ← e.validate_reread]
  rfl

theorem receive_letter {e : Envelope} {bytes : Bytes} (h : fromSlice bytes = .ok e.toWire) (sender : String) :
    Verdict sender e (receive fromSlice bytes sender) := by
  have hdecode := decode_letter h
  unfold receive
  cases hvalid : e.validate with
  | error reason =>
    rw [hvalid] at hdecode
    rw [hdecode]
    constructor <;> simp [rejected, EventEntry.inbound, hvalid]
  | ok =>
    rw [hvalid] at hdecode
    rw [hdecode]
    have hid : e.reread.id = e.id := rfl
    rcases e.reread.checkSender_cases sender with ⟨hsender, hcheck⟩ | ⟨hsender, hcheck⟩
    · have hsender : e.sender = sender := hsender
      cases hknown : e.reread.messageType.isKnown
      · constructor <;> simp [hcheck, hknown, hsender, hvalid, hid, EventEntry.inbound, eq_comm (a := e.reread.withoutBody)]
      · constructor <;> simp [hcheck, hknown, hsender, hvalid, hid, EventEntry.inbound, eq_comm (a := e.reread)]
    · have hsender : e.sender ≠ sender := hsender
      have hclaimed : e.reread.sender = e.sender := rfl
      constructor <;> simp [hcheck, hclaimed, rejected, hsender, hvalid, hid, EventEntry.inbound,
        eq_comm (a := RejectReason.senderMismatch e.sender sender)]

end

namespace Passage

open Beacon.Ideal (Side Manager Pair)
open MemoryTransport (State)

variable {name : Side → String} {channel : Side → ChannelId} {clock : Nat → SystemTime}

/-! ## Where a message comes from -/

/-- The side queued this plaintext for its channel. -/
def Queued (channel : Side → ChannelId) (side : Side) (events : List Event) (plaintext : Bytes) : Prop :=
  ∃ message now, .enqueue side message now ∈ events ∧ message.channel = channel side ∧ message.plaintext = plaintext

theorem Queued.snoc {side : Side} {events : List Event} {plaintext : Bytes} (h : Queued channel side events plaintext)
    (event : Event) : Queued channel side (events ++ [event]) plaintext := by
  obtain ⟨message, now, hmem, hrest⟩ := h
  exact ⟨message, now, List.mem_append_left _ hmem, hrest⟩

structure Sourced (channel : Side → ChannelId) (events : List Event) (r : Road) : Prop where
  entries : ∀ side, ∀ e ∈ (r.outbox side).entries, e.channel = channel side → Queued channel side events e.plaintext
  handed : ∀ side, ∀ x ∈ r.handed side, Queued channel side events x.2

theorem mem_enqueue {o : Outbox} {message : Enqueue} {now : SystemTime} {e : Entry}
    (h : e ∈ (o.enqueue message now).1.entries) : e ∈ o.entries ∨ e = message.entry o.nextId now := by
  have hcases := Outbox.enqueue_cases o message now
  generalize o.enqueue message now = result at h hcases
  cases hcases with
  | refused => exact Or.inl h
  | added _ hentries =>
    rw [hentries, List.mem_append, List.mem_singleton] at h
    exact h
  | replaced _ hsplit hentries =>
    rw [hentries, List.mem_append, List.mem_singleton] at h
    refine h.imp_left fun h => ?_
    rw [hsplit]
    simpa using (List.mem_append.mp h).imp_right Or.inr

/-- A report speaks of entries that were queued. -/
theorem sent_entry {ω : Type} {P : Ports ω} {o : Outbox} {world : ω} {now : SystemTime} {budget : Nat} {s : SentEntry}
    (h : s ∈ (o.drain P world now budget).report.sent) : ∃ e ∈ o.entries, s.id = e.id ∧ s.channel = e.channel := by
  have hsent : (o.drain P world now budget).report.sent = (o.attempts P world now.unixSeconds budget).report.sent :=
    Outbox.finish_sent _
  rw [hsent] at h
  have hall : ∀ s ∈ (o.attempts P world now.unixSeconds budget).report.sent, ∃ e ∈ o.entries,
      s.id = e.id ∧ s.channel = e.channel := by
    refine Trace.run_prefix_induction (M := fun _ (t : Pass ω) => ∀ s ∈ t.report.sent, ∃ e ∈ o.entries,
      s.id = e.id ∧ s.channel = e.channel) (fun s hs => (List.not_mem_nil hs).elim) ?_
    intro pre e post hsplit ih s hs
    have hdue : e ∈ (o.expire now.unixSeconds).1.due now.unixSeconds budget := by rw [hsplit]; simp
    have hmem : e ∈ o.entries := List.filter_sublist.subset (Outbox.mem_due hdue).1
    have hcases := Outbox.attempt_cases P now.unixSeconds
      (Trace.run (Outbox.attempt P now.unixSeconds) (o.opening world now.unixSeconds) pre) e
    generalize Trace.run (Outbox.attempt P now.unixSeconds) (o.opening world now.unixSeconds) pre = t at ih hs hcases
    generalize Outbox.attempt P now.unixSeconds t e = t' at hs hcases
    cases hcases with
    | sent frame w messageId =>
      rcases List.mem_append.mp hs with hs | hs
      · exact ih s hs
      · rw [List.mem_singleton.mp hs]
        exact ⟨e, hmem, rfl, rfl⟩
    | _ => exact ih s hs
  exact hall s h

theorem mem_reported {o : Outbox} {c : ChannelId} {sent : List SentEntry}
    (hsent : ∀ s ∈ sent, ∃ e ∈ o.entries, s.id = e.id ∧ s.channel = e.channel) {x : MessageId × Bytes}
    (h : x ∈ reported c o sent) : ∃ e ∈ o.entries, e.channel = c ∧ e.plaintext = x.2 := by
  obtain ⟨s, hs, rfl⟩ := List.mem_map.mp h
  obtain ⟨hs, hchannel⟩ := List.mem_filter.mp hs
  obtain ⟨e, he, hid, hsame⟩ := hsent s hs
  refine ⟨e, he, hsame.symm.trans (by simpa using hchannel), ?_⟩
  rw [hid, find?_entry he]
  rfl

section Sourced

variable {events : List Event} {r : Road}

theorem Sourced.queue (h : Sourced channel events r) {side : Side} {event : Event}
    {q : Outbox.Event (Manager × State)}
    (hevent : ∀ message now, q = .enqueue message now → event = .enqueue side message now) :
    ∀ s, ∀ e ∈ (Function.update r.outbox side ((r.outbox side).step (Outbox.inProcess clock) q) s).entries,
      e.channel = channel s → Queued channel s (events ++ [event]) e.plaintext := by
  intro s e he hchannel
  by_cases hs : s = side
  · subst hs
    rw [Function.update_self] at he
    cases q with
    | enqueue message now =>
      rcases mem_enqueue he with he | rfl
      · exact (h.entries s e he hchannel).snoc event
      · exact ⟨message, now, by simp [hevent message now rfl], hchannel, rfl⟩
    | _ =>
      rcases Outbox.mem_step _ he with ⟨a, ha, hsame⟩ | ⟨message, now, heq, -⟩
      · have hplaintext : a.plaintext = e.plaintext := by
          show a.message.plaintext = e.message.plaintext
          rw [hsame]
        rw [← hplaintext]
        exact (h.entries s a ha ((Entry.channel_eq hsame).trans hchannel)).snoc event
      · cases heq
  · rw [Function.update_of_ne hs] at he
    exact (h.entries s e he hchannel).snoc event

theorem Sourced.step (h : Sourced channel events r) (event : Event) :
    Sourced channel (events ++ [event]) (Passage.step name channel clock r event) := by
  have hstill : ∀ side, ∀ e ∈ (r.outbox side).entries, e.channel = channel side →
      Queued channel side (events ++ [event]) e.plaintext :=
    fun side e he hchannel => (h.entries side e he hchannel).snoc event
  have hkept : ∀ side, ∀ x ∈ r.handed side, Queued channel side (events ++ [event]) x.2 :=
    fun side x hx => (h.handed side x hx).snoc event
  cases event with
  | enqueue side message now =>
    refine ⟨h.queue ?_, hkept⟩
    rintro _ _ heq
    cases heq
    rfl
  | forgetPeer side peer => exact ⟨h.queue (by simp), hkept⟩
  | restart side => exact ⟨h.queue (by simp), hkept⟩
  | drain side now budget =>
    refine ⟨h.queue (q := .drain (r.manager side, r.transport) now budget) (by simp), fun s x hx => ?_⟩
    by_cases hs : s = side
    · subst hs
      have hx : x ∈ r.handed s ++ reported (channel s) (r.outbox s) (r.drained clock s now budget).report.sent := by
        simpa [Passage.step] using hx
      rcases List.mem_append.mp hx with hx | hx
      · exact hkept s x hx
      · obtain ⟨e, he, hchannel, hplaintext⟩ := mem_reported (fun _ => sent_entry) hx
        rw [← hplaintext]
        exact hstill s e he hchannel
    · refine hkept s x ?_
      simpa [Passage.step, hs] using hx
  | call call => exact ⟨hstill, hkept⟩
  | aside side c => exact ⟨hstill, hkept⟩
  | read side place =>
    unfold Passage.step
    simp only []
    split
    · exact ⟨hstill, hkept⟩
    · exact ⟨hstill, hkept⟩

theorem sourced_run (p : Pair) (events : List Event) :
    Sourced channel events (run name channel clock (start p) events) := by
  refine Trace.run_prefix_induction (M := fun pre r => Sourced channel pre r) ?_ fun pre event post _ h => h.step event
  exact ⟨fun _ e he => (List.not_mem_nil he).elim, fun _ x hx => (List.not_mem_nil hx).elim⟩

end Sourced

/-! ## What is heard -/

section

variable (fromSlice : Bytes → Except String WireEnvelope) (ryu : UInt64 → List Char)
  (name : Side → String) (channel : Side → ChannelId)

/-- A plaintext that says this, to its sender and to whoever parses it. -/
structure Letter (e : Envelope) (plaintext : Bytes) : Prop where
  written : plaintext = e.encode ryu
  read : fromSlice plaintext = .ok e.toWire

/-- What `receive` is given when the other side reads the side's channel: nothing, where the frame does not decrypt. -/
def heard (side : Side) (r : Road) : Event → List (MessageId × Reception)
  | .read s place =>
    if s = side then
      match (r.transport.pendingOn (channel side))[place]? with
      | none => []
      | some d =>
        match ((r.manager side.other).decrypt (name side) d.ciphertext).1 with
        | .ok x => [(d.id, receive fromSlice x.plaintext x.authenticatedSender)]
        | .error _ => []
    else []
  | _ => []

end

section Hearing

variable {fromSlice : Bytes → Except String WireEnvelope} {ryu : UInt64 → List Char} {p : Pair} {events : List Event}
  {r : Road} {side : Side}

theorem Letter.toWire_eq {e e' : Envelope} {plaintext : Bytes} (h : Letter fromSlice ryu e plaintext)
    (h' : Letter fromSlice ryu e' plaintext) : e.toWire = e'.toWire :=
  Except.ok.inj (h.read.symm.trans h'.read)

theorem Letter.reread_eq {e e' : Envelope} {plaintext : Bytes} (h : Letter fromSlice ryu e plaintext)
    (h' : Letter fromSlice ryu e' plaintext) : e.reread = e'.reread :=
  congrArg Envelope.ofWire (h.toWire_eq h')

theorem reads_iff {id : MessageId} {event : Event} : Reads channel side id r event ↔
    ∃ place d, event = .read side place ∧ (r.transport.pendingOn (channel side))[place]? = some d ∧ d.id = id := by
  constructor
  · intro h
    cases event with
    | read s place =>
      obtain ⟨rfl, hany⟩ := h
      cases hget : (r.transport.pendingOn (channel s))[place]? with
      | none =>
        rw [hget] at hany
        cases hany
      | some d =>
        rw [hget] at hany
        exact ⟨place, d, rfl, hget, by simpa using hany⟩
    | _ => exact h.elim
  · rintro ⟨place, d, rfl, hget, hid⟩
    exact ⟨rfl, by simpa [hget] using hid⟩

theorem heard_nil {event : Event} (h : ∀ id, ¬ Reads channel side id r event) :
    heard fromSlice name channel side r event = [] := by
  cases event with
  | read s place =>
    by_cases hs : s = side
    · subst hs
      cases hget : (r.transport.pendingOn (channel s))[place]? with
      | none => simp [heard, hget]
      | some d => exact absurd (reads_iff.mpr ⟨place, d, rfl, hget, rfl⟩) (h d.id)
    · simp [heard, hs]
  | _ => rfl

theorem handed_step (r : Road) (event : Event) (side : Side) :
    r.handed side <+: (step name channel clock r event).handed side := by
  cases event with
  | drain s now budget =>
    show _ <+: Function.update r.handed s _ side
    by_cases hs : side = s
    · subst hs
      rw [Function.update_self]
      exact List.prefix_append _ _
    · rw [Function.update_of_ne hs]
  | read s place =>
    unfold step
    simp only []
    split <;> exact List.prefix_rfl
  | _ => exact List.prefix_rfl

/-- What has been heard of a side after a run. -/
structure Hearing (fromSlice : Bytes → Except String WireEnvelope) (name : Side → String) (channel : Side → ChannelId)
    (clock : Nat → SystemTime) (p : Pair) (side : Side) (events : List Event) (r : Road) : Prop where
  once : ((Trace.log (step name channel clock) (heard fromSlice name channel side) (start p) events).map Prod.fst).Nodup
  reads : ∀ id,
    id ∈ (Trace.log (step name channel clock) (heard fromSlice name channel side) (start p) events).map Prod.fst ↔
    Trace.SomeStep (step name channel clock) (Reads channel side id) (start p) events
  received : ∀ entry ∈ Trace.log (step name channel clock) (heard fromSlice name channel side) (start p) events,
    ∃ plaintext, (entry.1, plaintext) ∈ r.handed side ∧ entry.2 = receive fromSlice plaintext (name side)

/-- Nothing new is heard of what has been read before. -/
theorem Hearing.silent {event : Event} (hrun : r = run name channel clock (start p) events)
    (h : Hearing fromSlice name channel clock p side events r) (hnothing : heard fromSlice name channel side r event = [])
    (hbefore : ∀ id, Reads channel side id r event →
      Trace.SomeStep (step name channel clock) (Reads channel side id) (start p) events) :
    Hearing fromSlice name channel clock p side (events ++ [event]) (step name channel clock r event) := by
  subst hrun
  have hlog : Trace.log (step name channel clock) (heard fromSlice name channel side) (start p) (events ++ [event]) =
      Trace.log (step name channel clock) (heard fromSlice name channel side) (start p) events := by
    rw [Trace.log_snoc, hnothing, List.append_nil]
  constructor
  · rw [hlog]
    exact h.once
  · intro id
    rw [hlog, h.reads, Trace.someStep_snoc]
    exact ⟨Or.inl, fun hor => hor.elim (fun hread => hread) (hbefore id)⟩
  · rw [hlog]
    intro entry hentry
    obtain ⟨plaintext, hhanded, hreceive⟩ := h.received entry hentry
    exact ⟨plaintext, (handed_step _ event side).subset hhanded, hreceive⟩

theorem Hearing.step {n : Ideal.Net} {read : Side → List Nat} {slips : Side → List Slip}
    (hrun : r = run name channel clock (start p) events)
    (h : Hearing fromSlice name channel clock p side events r)
    (hstanding : Standing name channel clock p events r n read slips) (event : Event) :
    Hearing fromSlice name channel clock p side (events ++ [event]) (Passage.step name channel clock r event) := by
  by_cases hreads : ∃ id, Reads channel side id r event
  · obtain ⟨id, hid⟩ := hreads
    obtain ⟨place, d, rfl, hget, -⟩ := reads_iff.mp hid
    have hsame : ∀ id, Reads channel side id r (.read side place) ↔ id = d.id :=
      fun id => (reads_read hget).trans (by simp [eq_comm])
    obtain ⟨plaintext, hhanded, hfirst, hagain⟩ := hstanding.waiting (List.mem_of_getElem? hget)
    by_cases hbefore : Trace.SomeStep (Passage.step name channel clock) (Reads channel side d.id) (start p) events
    · -- the frame is taken for the loss of the session
      refine h.silent hrun ?_ fun id hid => (hsame id).mp hid ▸ hbefore
      simp [heard, hget, hagain hbefore]
    · obtain ⟨x, hx, hsender, hplaintext⟩ := hfirst hbefore
      have hone : heard fromSlice name channel side r (.read side place) =
          [(d.id, receive fromSlice plaintext (name side))] := by
        simp [heard, hget, hx, hsender, hplaintext]
      subst hrun
      constructor
      · rw [Trace.log_snoc, hone, List.map_append]
        refine List.nodup_append.mpr ⟨h.once, List.nodup_singleton _, fun a ha b hb hab => ?_⟩
        have hsameId : a = d.id := hab.trans (List.mem_singleton.mp hb)
        rw [hsameId] at ha
        exact hbefore ((h.reads d.id).mp ha)
      · intro id
        rw [Trace.log_snoc, hone, List.map_append, List.mem_append, h.reads, Trace.someStep_snoc, hsame]
        exact or_congr_right List.mem_singleton
      · rw [Trace.log_snoc, hone]
        intro entry hentry
        rcases List.mem_append.mp hentry with hentry | hentry
        · obtain ⟨text, htext, hreceive⟩ := h.received entry hentry
          exact ⟨text, (handed_step _ _ side).subset htext, hreceive⟩
        · rw [List.mem_singleton.mp hentry]
          exact ⟨plaintext, (handed_step _ _ side).subset hhanded, rfl⟩
  · have hnot : ∀ id, ¬ Reads channel side id r event := fun id hid => hreads ⟨id, hid⟩
    exact h.silent hrun (heard_nil hnot) fun id hid => (hnot id hid).elim

theorem hearing_run (hready : p.Ready name) (events : List Event)
    (hfair : Trace.EachStep (step name channel clock) (Fair name channel clock) (start p) events) :
    Hearing fromSlice name channel clock p side events (run name channel clock (start p) events) := by
  refine Trace.run_prefix_induction (M := fun pre r => Hearing fromSlice name channel clock p side pre r)
    ⟨List.nodup_nil, fun id => iff_of_false List.not_mem_nil fun h => h, fun _ h => (List.not_mem_nil h).elim⟩ ?_
  intro pre event post hsplit h
  rw [hsplit] at hfair
  obtain ⟨n, read, slips, hstanding⟩ := standing_run hready pre (Trace.eachStep_append.mp hfair).1
  exact h.step rfl hstanding event

end Hearing

/-- Left's own. -/
def fromLeft : Envelope := ⟨1, "e1", 1, .sos, "2026-07-19T10:04:12Z", "a", .object []⟩

/-- Sealed by left as well, but it says it is right's. -/
def fromNobody : Envelope := ⟨1, "e2", 2, .sos, "2026-07-19T10:04:12Z", "b", .object []⟩

def readTwo (bytes : Bytes) : Except String WireEnvelope :=
  if bytes = fromLeft.encode (fun _ => []) then .ok fromLeft.toWire
  else if bytes = fromNobody.encode (fun _ => []) then .ok fromNobody.toWire
  else .error "expected value at line 1 column 1"

/-- Right reads the second, the first, and the second again. -/
def twoLetters : List Event :=
  [.call (.openChannel "ab"), .enqueue .left ⟨"ab", "b", fromLeft.encode fun _ => [], .normal, none, none, none⟩ ⟨0⟩,
   .enqueue .left ⟨"ab", "b", fromNobody.encode fun _ => [], .normal, none, none, none⟩ ⟨0⟩, .drain .left ⟨0⟩ 8,
   .read .left 1, .read .left 0, .read .left 1]

end Passage

end Beacon
