/-
  Beacon.Outbox.InProcess — the outbox over the in-process transport: what it reports, and
  what the transport then holds.

  This transport answers a send by the state of the channel alone and never with a backend
  error, so in one pass a channel takes everything or nothing.
  - `handing`: a pass hands over exactly the messages it reports sent, in that order, each
    under the id it reports and with a frame sealed from its plaintext.
  - `handed_over_run`: over every run of outbox and transport, whoever else calls the
    transport, a message reported sent waits on its channel until it is acknowledged or the
    channel is retired; none is reported both sent and dropped, and no two share an id.
-/

import Beacon.Outbox.Accounts
import Beacon.Transport.Memory

namespace Beacon

open Lib

namespace MemoryTransport

/-- Open, and not retired. -/
def State.taking (s : State) (channel : ChannelId) : Bool := (s.channels[channel]?).any fun entry => !entry.retired

/-- A send with the clock as it stands at that send. -/
def State.sendAt (clock : Nat → SystemTime) (s : State) (channel : ChannelId) (message : Outbound) :
    Except TransportError MessageId × State :=
  s.send channel message (clock s.nextId)

theorem taking_put (s : State) (channel : ChannelId) (entry : Channel) (c : ChannelId) :
    (s.put channel entry).taking c = if channel = c then !entry.retired else s.taking c := by
  unfold State.taking
  rw [put_get]
  split <;> simp

/-- A send is taken where the channel takes, and refused for good where it does not; no channel changes in that. -/
theorem send_cases (s : State) (channel : ChannelId) (message : Outbound) (now : SystemTime) :
    (s.send channel message now).2.taking = s.taking ∧
    ((s.taking channel = true ∧
        (s.send channel message now).1 = .ok (State.messageId (s.nextId + 1)) ∧
        effect s (.send channel message now) =
          some (channel, .add ⟨State.messageId (s.nextId + 1), message.ciphertext, now⟩)) ∨
      (s.taking channel = false ∧
        (∃ error reason, (s.send channel message now).1 = .error error ∧ error.final = some reason) ∧
        effect s (.send channel message now) = none)) := by
  rcases hget : s.channels[channel]? with _ | entry
  · have htaking : s.taking channel = false := by rw [State.taking, hget]; rfl
    have hsend : s.send channel message now = (.error (.unknownChannel channel), { s with nextId := s.nextId + 1 }) := by
      simp only [State.send, hget]
    simp only [effect, hsend]
    exact ⟨rfl, Or.inr ⟨htaking, ⟨_, _, rfl, rfl⟩, trivial⟩⟩
  · have htaking : s.taking channel = !entry.retired := by rw [State.taking, hget]; rfl
    cases hretired : entry.retired with
    | true =>
      have hsend : s.send channel message now = (.error (.retired channel), { s with nextId := s.nextId + 1 }) := by
        simp only [State.send, hget, hretired, if_true]
      simp only [effect, hsend]
      exact ⟨rfl, Or.inr ⟨by rw [htaking, hretired]; rfl, ⟨_, _, rfl, rfl⟩, trivial⟩⟩
    | false =>
      have htakes : s.taking channel = true := by rw [htaking, hretired]; rfl
      simp only [effect, State.send, hget, hretired, Bool.false_eq_true, if_false]
      refine ⟨?_, Or.inl ⟨htakes, trivial, trivial⟩⟩
      funext c
      rw [taking_put]
      split
      next hc => rw [← hc, htakes]; rfl
      next => rfl

end MemoryTransport

namespace Outbox

open MemoryTransport (State Call)

variable {O : Olm} (clock : Nat → SystemTime)

/-- The session manager over the in-process transport. -/
abbrev inProcess : Ports (SessionManager O × State) := .over (State.sendAt clock)

/-! ## One pass -/

/-- The transport holds for this report what was sealed of the entry it is about, by the session manager as the pass
    from `start` has it when it comes to that entry. -/
def Handed (now : Nat) (start : Pass (SessionManager O × State)) (done : List Entry) (sent : SentEntry)
    (held : ChannelId × Delivery) : Prop :=
  sent.channel = held.1 ∧ sent.messageId = held.2.id ∧
  ∃ before e after, done = before ++ e :: after ∧ e.id = sent.id ∧ e.channel = sent.channel ∧
    ((Trace.run (attempt (inProcess clock) now) start before).world.1.encrypt e.peer e.plaintext).1 =
      .ok held.2.ciphertext

/-- A pass from `start` after `done`, in terms of the transport it began with. -/
structure Handing (now : Nat) (start : Pass (SessionManager O × State)) (m : State) (done : List Entry)
    (s : Pass (SessionManager O × State)) : Prop where
  taking : s.world.2.taking = m.taking
  sent : ∀ id ∈ s.sentIds, ∃ e ∈ done, e.id = id ∧ m.taking e.channel = true
  failed : ∀ c reason, s.failedChannels[c]? = some reason → reason = .noSession ∧ m.taking c = false
  handed : ∃ (calls : List Call) (held : List (ChannelId × Delivery)),
    s.world.2 = MemoryTransport.run m calls ∧
    MemoryTransport.effects m calls = held.map (fun h => (h.1, .add h.2)) ∧
    List.Forall₂ (Handed clock now start done) s.report.sent held

variable {clock} {m : State} {done : List Entry} {start s s' : Pass (SessionManager O × State)} {now : Nat} {e : Entry}

theorem handing_opening (o : Outbox) (sessions : SessionManager O) (m : State) (now : Nat) :
    Handing clock now (o.opening (sessions, m) now) m [] (o.opening (sessions, m) now) where
  taking := rfl
  sent _ h := by cases h
  failed c reason h := by simp [opening] at h
  handed := ⟨[], [], rfl, rfl, .nil⟩

theorem handed_mono {sent : SentEntry} {held : ChannelId × Delivery} (h : Handed clock now start done sent held)
    (e : Entry) : Handed clock now start (done ++ [e]) sent held := by
  obtain ⟨hchannel, hid, before, a, after, rfl, hrest⟩ := h
  refine ⟨hchannel, hid, before, a, after ++ [e], ?_, hrest⟩
  rw [List.append_assoc, List.cons_append]

/-- An attempt that sends nothing, and after which the transport has taken nothing in. -/
theorem Handing.quiet (h : Handing clock now start m done s) (hsent : s'.sentIds = s.sentIds)
    (hreport : s'.report.sent = s.report.sent)
    (hfailed : ∀ c reason, s'.failedChannels[c]? = some reason → reason = .noSession ∧ m.taking c = false)
    (hworld : s'.world.2 = s.world.2 ∨ ∃ call, MemoryTransport.effect s.world.2 call = none ∧
      s'.world.2 = MemoryTransport.step s.world.2 call ∧ s'.world.2.taking = s.world.2.taking) :
    Handing clock now start m (done ++ [e]) s' := by
  obtain ⟨calls, held, hrun, heffects, hmatch⟩ := h.handed
  have hmatch' : List.Forall₂ (Handed clock now start (done ++ [e])) s'.report.sent held := by
    rw [hreport]
    exact hmatch.imp fun _ _ hh => handed_mono hh e
  refine ⟨?_, fun id hid => ?_, hfailed, ?_⟩
  · rcases hworld with hsame | ⟨call, -, -, hsame⟩
    · rw [hsame]
      exact h.taking
    · exact hsame.trans h.taking
  · rw [hsent] at hid
    obtain ⟨a, ha, hrest⟩ := h.sent id hid
    exact ⟨a, List.mem_append_left _ ha, hrest⟩
  · rcases hworld with hsame | ⟨call, hnone, hstep, -⟩
    · exact ⟨calls, held, hsame.trans hrun, heffects, hmatch'⟩
    · refine ⟨calls ++ [call], held, ?_, ?_, hmatch'⟩
      · rw [hstep, hrun, MemoryTransport.run_snoc]
      · rw [MemoryTransport.effects_append, heffects, ← hrun]
        simp [MemoryTransport.effects, hnone]

theorem Handing.step (hreached : s = Trace.run (attempt (inProcess clock) now) start done)
    (h : Handing clock now start m done s) (hs : Attempted (inProcess clock) now s e s') :
    Handing clock now start m (done ++ [e]) s' := by
  -- the two calls of an attempt, each on its half of the world
  have hencrypt : ∀ {r : Except SessionError Bytes} {world : SessionManager O × State},
      (inProcess clock).encrypt s.world e.peer e.plaintext = (r, world) →
      world.2 = s.world.2 ∧ (s.world.1.encrypt e.peer e.plaintext).1 = r := by
    intro r world he
    cases he
    exact ⟨rfl, rfl⟩
  have hcall : ∀ {frame : Bytes} {sealedWorld world : SessionManager O × State} {r : Except TransportError MessageId},
      sealedWorld.2 = s.world.2 → (inProcess clock).send sealedWorld e.channel (e.outbound frame) = (r, world) →
      r = (s.world.2.send e.channel (e.outbound frame) (clock s.world.2.nextId)).1 ∧
      world.2 = (s.world.2.send e.channel (e.outbound frame) (clock s.world.2.nextId)).2 := by
    intro frame sealedWorld world r hsame hsend
    rw [← hsame]
    cases hsend
    exact ⟨rfl, rfl⟩
  cases hs with
  | skipped reason hfailed => exact h.quiet rfl rfl h.failed (Or.inl rfl)
  | unsealed error world _ he => exact h.quiet rfl rfl h.failed (Or.inl (hencrypt he).1)
  | refused frame sealedWorld detail world _ he hsend =>
    obtain ⟨hanswer, -⟩ := hcall (hencrypt he).1 hsend
    rcases (MemoryTransport.send_cases s.world.2 e.channel (e.outbound frame) (clock s.world.2.nextId)).2 with
      ⟨-, hok, -⟩ | ⟨-, ⟨error, reason, herr, hfinal⟩, -⟩
    · rw [hok] at hanswer
      cases hanswer
    · rw [herr] at hanswer
      cases hanswer
      cases hfinal
  | dropped frame sealedWorld error world reason hnone he hsend hfinal =>
    obtain ⟨hanswer, hworld⟩ := hcall (hencrypt he).1 hsend
    obtain ⟨htaking, hcases⟩ :=
      MemoryTransport.send_cases s.world.2 e.channel (e.outbound frame) (clock s.world.2.nextId)
    rcases hcases with ⟨-, hok, -⟩ | ⟨hrefuses, -, heffect⟩
    · rw [hok] at hanswer
      cases hanswer
    · refine h.quiet rfl rfl (fun c reason' hc => ?_)
        (Or.inr ⟨.send e.channel (e.outbound frame) (clock s.world.2.nextId), heffect, hworld, ?_⟩)
      · change (s.failedChannels.insert e.channel .noSession)[c]? = some reason' at hc
        rw [failed_insert] at hc
        split at hc
        next heq =>
          rw [← heq, ← h.taking]
          exact ⟨(Option.some.inj hc).symm, hrefuses⟩
        next => exact h.failed c reason' hc
      · show world.2.taking = _
        rw [hworld]
        exact htaking
  | sent frame sealedWorld messageId world hnone he hsend =>
    obtain ⟨hsame, hsealed⟩ := hencrypt he
    obtain ⟨hanswer, hworld⟩ := hcall hsame hsend
    obtain ⟨htaking, hcases⟩ :=
      MemoryTransport.send_cases s.world.2 e.channel (e.outbound frame) (clock s.world.2.nextId)
    rcases hcases with ⟨htakes, hok, heffect⟩ | ⟨-, ⟨error, reason, herr, -⟩, -⟩
    · rw [hok] at hanswer
      cases hanswer
      obtain ⟨calls, held, hrun, heffects, hmatch⟩ := h.handed
      refine ⟨?_, fun id hid => ?_, h.failed,
        calls ++ [.send e.channel (e.outbound frame) (clock s.world.2.nextId)],
        held ++ [(e.channel, ⟨State.messageId (s.world.2.nextId + 1), frame, clock s.world.2.nextId⟩)], ?_, ?_, ?_⟩
      · show world.2.taking = _
        rw [hworld, htaking]
        exact h.taking
      · rcases List.mem_append.mp hid with hid | hid
        · obtain ⟨a, ha, hrest⟩ := h.sent id hid
          exact ⟨a, List.mem_append_left _ ha, hrest⟩
        · rw [List.mem_singleton.mp hid]
          exact ⟨e, by simp, rfl, by rw [← h.taking]; exact htakes⟩
      · show world.2 = _
        rw [hworld, MemoryTransport.run_snoc, ← hrun]
        rfl
      · rw [MemoryTransport.effects_append, heffects, ← hrun]
        simp only [MemoryTransport.effects, heffect, Option.toList_some, List.append_nil, List.map_append]
        rfl
      · refine List.rel_append (hmatch.imp fun _ _ hh => handed_mono hh e) (.cons ?_ .nil)
        exact ⟨rfl, rfl, done, e, [], rfl, rfl, rfl, by rw [← hreached]; exact hsealed⟩
    · rw [herr] at hanswer
      cases hanswer

variable (clock) in
theorem handing (o : Outbox) (sessions : SessionManager O) (m : State) (now budget : Nat) :
    Handing clock now (o.opening (sessions, m) now) m ((o.expire now).1.due now budget)
      (o.attempts (inProcess clock) (sessions, m) now budget) :=
  Trace.run_prefix_induction (M := fun done s => Handing clock now (o.opening (sessions, m) now) m done s)
    (handing_opening o sessions m now) fun _ e _ _ h => h.step rfl (attempt_cases (inProcess clock) now _ e)

variable (clock) in
/-- No channel is both sent on and dead in a pass. -/
theorem noMixedChannel_inProcess (o : Outbox) (sessions : SessionManager O) (m : State) (now : SystemTime)
    (budget : Nat) : NoMixedChannel (inProcess clock) o (sessions, m) now budget := by
  rw [noMixedChannel_iff]
  have h := handing clock o sessions m now.unixSeconds budget
  intro c hsome hdead
  obtain ⟨e, he, hsent, rfl⟩ := hsome
  obtain ⟨a, ha, hid, htaking⟩ := h.sent e.id hsent
  obtain rfl := (o.expire now.unixSeconds).1.eq_of_id (mem_due ha).1 (mem_due he).1 hid
  rw [(h.failed _ _ hdead).2] at htaking
  cases htaking

variable (clock) in
/-- What a pass did to the transport: it took in, in order, what the pass reports sent. -/
theorem handed_drain (o : Outbox) (sessions : SessionManager O) (m : State) (now : SystemTime) (budget : Nat) :
    ∃ (calls : List Call) (held : List (ChannelId × Delivery)),
      (o.drain (inProcess clock) (sessions, m) now budget).world.2 = MemoryTransport.run m calls ∧
      MemoryTransport.effects m calls = held.map (fun h => (h.1, .add h.2)) ∧
      List.Forall₂ (Handed clock now.unixSeconds (o.opening (sessions, m) now.unixSeconds)
          ((o.expire now.unixSeconds).1.due now.unixSeconds budget))
        (o.drain (inProcess clock) (sessions, m) now budget).report.sent held := by
  obtain ⟨calls, held, hrun, heffects, hmatch⟩ := (handing clock o sessions m now.unixSeconds budget).handed
  refine ⟨calls, held, ?_, heffects, ?_⟩
  · have hworld : (o.drain (inProcess clock) (sessions, m) now budget).world =
        (o.attempts (inProcess clock) (sessions, m) now.unixSeconds budget).world := (swept _ _ (dead_nodup _)).world
    rw [hworld, hrun]
  · unfold drain
    rw [finish_sent]
    exact hmatch

variable (clock) in
/-- Each channel holds after a pass what it held before, and then what the pass reports sent on it. -/
theorem pendingOn_drain (o : Outbox) (sessions : SessionManager O) (m : State) (now : SystemTime) (budget : Nat) :
    ∃ held : List (ChannelId × Delivery),
      (∀ c, (o.drain (inProcess clock) (sessions, m) now budget).world.2.pendingOn c =
        m.pendingOn c ++ (held.filter fun h => h.1 = c).map Prod.snd) ∧
      List.Forall₂ (Handed clock now.unixSeconds (o.opening (sessions, m) now.unixSeconds)
          ((o.expire now.unixSeconds).1.due now.unixSeconds budget))
        (o.drain (inProcess clock) (sessions, m) now budget).report.sent held := by
  obtain ⟨calls, held, hworld, heffects, hmatch⟩ := handed_drain clock o sessions m now budget
  refine ⟨held, fun c => ?_, hmatch⟩
  rw [hworld, MemoryTransport.pendingOn_run, heffects, MemoryTransport.editsOn, List.filter_map, List.map_map]
  generalize m.pendingOn c = l
  show List.foldl Backlog.edit l ((held.filter fun h => h.1 = c).map fun h => Backlog.Edit.add h.2) = _
  induction held.filter fun h => h.1 = c generalizing l with
  | nil => simp
  | cons h held ih => simp [ih, Backlog.edit]

/-! ## A run -/

namespace InProcess

variable (O clock)

inductive Event where
  | enqueue (message : Enqueue) (now : SystemTime)
  | drain (sessions : SessionManager O) (now : SystemTime) (budget : Nat)
  | forgetPeer (peer : String)
  | restart
  /-- Another clone of the transport. -/
  | call (call : Call)

/-- The outbox with what it reported, the transport, and what the reports say was sent where. -/
structure Desk where
  books : Books
  transport : State
  handed : List (ChannelId × MessageId)

def Desk.new : Desk := ⟨.new, MemoryTransport.new, []⟩

def Desk.drained (s : Desk) (sessions : SessionManager O) (now : SystemTime) (budget : Nat) :
    Drained (SessionManager O × State) :=
  s.books.outbox.drain (inProcess clock) (sessions, s.transport) now budget

def step (s : Desk) : Event O → Desk
  | .enqueue message now => { s with books := note (inProcess (O := O) clock) s.books (.enqueue message now) }
  | .forgetPeer peer => { s with books := note (inProcess (O := O) clock) s.books (.forgetPeer peer) }
  | .restart => { s with books := note (inProcess (O := O) clock) s.books .restart }
  | .call call => { s with transport := MemoryTransport.step s.transport call }
  | .drain sessions now budget =>
    { books := note (inProcess clock) s.books (.drain (sessions, s.transport) now budget)
      transport := (s.drained O clock sessions now budget).world.2
      handed := s.handed ++ (s.drained O clock sessions now budget).report.sent.map fun e => (e.channel, e.messageId) }

abbrev run (s : Desk) (events : List (Event O)) : Desk := Trace.run (step O clock) s events

/-- The message waits on its channel. -/
def Waits (s : Desk) (h : ChannelId × MessageId) : Prop := ∃ d ∈ s.transport.pendingOn h.1, d.id = h.2

/-- A call that takes the message off its channel. -/
def Takes (h : ChannelId × MessageId) (call : Call) : Prop := call = .ack h.1 h.2 ∨ call = .retire h.1

variable {O clock}

structure Kept (s : Desk) : Prop where
  closed : Closed s.books
  neverBoth : NeverBoth s.books
  accepted : ∃ calls, s.transport = MemoryTransport.run MemoryTransport.new calls ∧
    (s.handed.map Prod.snd).Sublist
      ((MemoryTransport.acceptedBy (MemoryTransport.effects MemoryTransport.new calls)).map Delivery.id)

variable (clock) in
theorem kept_books {s : Desk} (h : Kept s) (e : Outbox.Event (SessionManager O × State))
    (hclean : CleanPass (inProcess clock) s.books e) :
    Closed (note (inProcess clock) s.books e) ∧ NeverBoth (note (inProcess clock) s.books e) :=
  ⟨closed_note _ e h.closed, (neverBoth_note_iff _ e h.closed h.neverBoth).mpr hclean⟩

theorem acceptedBy_append (fx gx : List (ChannelId × Backlog.Edit Delivery)) :
    MemoryTransport.acceptedBy (fx ++ gx) = MemoryTransport.acceptedBy fx ++ MemoryTransport.acceptedBy gx := by
  simp [MemoryTransport.acceptedBy, Backlog.added]

theorem acceptedBy_held (held : List (ChannelId × Delivery)) :
    MemoryTransport.acceptedBy (held.map fun h => (h.1, .add h.2)) = held.map Prod.snd := by
  induction held with
  | nil => rfl
  | cons h held ih => exact congrArg (h.2 :: ·) ih

/-- The ids a report gives its sends are those under which the transport holds them. -/
theorem handed_ids {done : List Entry} {sent : List SentEntry} {held : List (ChannelId × Delivery)}
    (h : List.Forall₂ (Handed clock now start done) sent held) :
    (sent.map fun e => (e.channel, e.messageId)) = held.map fun h => (h.1, h.2.id) := by
  induction h with
  | nil => rfl
  | cons hmatch _ ih => rw [List.map_cons, List.map_cons, ih, hmatch.1, hmatch.2.1]

theorem kept_step {s : Desk} (h : Kept s) (event : Event O) : Kept (step O clock s event) := by
  obtain ⟨calls, hrun, hsub⟩ := h.accepted
  cases event with
  | enqueue message now =>
    obtain ⟨hclosed, hnever⟩ := kept_books clock h (.enqueue message now) trivial
    exact ⟨hclosed, hnever, h.accepted⟩
  | forgetPeer peer =>
    obtain ⟨hclosed, hnever⟩ := kept_books clock h (.forgetPeer peer) trivial
    exact ⟨hclosed, hnever, h.accepted⟩
  | restart =>
    obtain ⟨hclosed, hnever⟩ := kept_books clock h .restart trivial
    exact ⟨hclosed, hnever, h.accepted⟩
  | call call =>
    refine ⟨h.closed, h.neverBoth, calls ++ [call], ?_, ?_⟩
    · show MemoryTransport.step s.transport call = _
      rw [MemoryTransport.run_snoc, hrun]
    · rw [MemoryTransport.effects_append, acceptedBy_append, List.map_append]
      exact hsub.trans (List.sublist_append_left _ _)
  | drain sessions now budget =>
    obtain ⟨hclosed, hnever⟩ := kept_books clock h (.drain (sessions, s.transport) now budget)
      (noMixedChannel_inProcess clock s.books.outbox sessions s.transport now budget)
    obtain ⟨more, held, hworld, heffects, hmatch⟩ :=
      handed_drain clock s.books.outbox sessions s.transport now budget
    refine ⟨hclosed, hnever, calls ++ more, ?_, ?_⟩
    · show (s.drained O clock sessions now budget).world.2 = _
      rw [Desk.drained, hworld, hrun]
      exact (Trace.run_append _ _ _).symm
    · show ((s.handed ++ _).map Prod.snd).Sublist _
      rw [Desk.drained, handed_ids hmatch, MemoryTransport.effects_append, ← hrun, heffects, acceptedBy_append,
        acceptedBy_held, List.map_append, List.map_append, List.map_map, List.map_map]
      exact hsub.append (List.Sublist.refl _)

theorem kept_new : Kept Desk.new where
  closed id hid := by rcases hid with hid | hid <;> cases hid
  neverBoth id hid := by cases hid
  accepted := ⟨[], rfl, List.Sublist.refl _⟩

theorem kept_run (events : List (Event O)) : Kept (run O clock .new events) :=
  Trace.inv_run (Q := Kept) (fun _ e _ h => kept_step h e) kept_new (Trace.eachStep_true _ _)

/-- Only an acknowledgement or a retirement takes a waiting message. -/
theorem waits_call {s : Desk} {h : ChannelId × MessageId} (hw : Waits s h) (call : Call) :
    Waits { s with transport := MemoryTransport.step s.transport call } h ∨ Takes h call := by
  obtain ⟨d, hd, hid⟩ := hw
  unfold Waits
  simp only [MemoryTransport.pendingOn_step]
  rcases heffect : MemoryTransport.effect s.transport call with _ | ⟨c, e⟩
  · exact Or.inl ⟨d, hd, hid⟩
  · rw [MemoryTransport.editsOn_one]
    split
    swap
    · exact Or.inl ⟨d, hd, hid⟩
    next hc =>
      cases e with
      | add m => exact Or.inl ⟨d, List.mem_append_left _ hd, hid⟩
      | take p =>
        by_cases hp : p d = true
        · right
          cases call with
          | openChannel channel => cases heffect
          | send channel message now =>
            simp only [MemoryTransport.effect] at heffect
            split at heffect <;> simp at heffect
          | retire channel =>
            simp only [MemoryTransport.effect, Option.ite_none_right_eq_some, Option.some.injEq, Prod.mk.injEq] at heffect
            exact Or.inr (by rw [heffect.2.1, hc])
          | ack channel message =>
            simp only [MemoryTransport.effect, Option.ite_none_right_eq_some, Option.some.injEq, Prod.mk.injEq,
              Backlog.Edit.take.injEq] at heffect
            obtain ⟨-, rfl, rfl⟩ := heffect
            left
            rw [← hc, ← hid, of_decide_eq_true hp]
        · exact Or.inl ⟨d, List.mem_filter.mpr ⟨hd, by simpa using hp⟩, hid⟩

/-- What waits after a pass: what waited before it, and what it reports sent. -/
theorem waits_drain {s : Desk} {h : ChannelId × MessageId} (sessions : SessionManager O) (now : SystemTime)
    (budget : Nat) (hw : Waits s h ∨
      h ∈ (s.drained O clock sessions now budget).report.sent.map fun e => (e.channel, e.messageId)) :
    Waits (step O clock s (.drain sessions now budget)) h := by
  obtain ⟨held, hpending, hmatch⟩ := pendingOn_drain clock s.books.outbox sessions s.transport now budget
  show ∃ d ∈ (s.drained O clock sessions now budget).world.2.pendingOn h.1, d.id = h.2
  rw [Desk.drained, hpending]
  rcases hw with ⟨d, hd, hid⟩ | hsent
  · exact ⟨d, List.mem_append_left _ hd, hid⟩
  · rw [Desk.drained, handed_ids hmatch] at hsent
    obtain ⟨x, hx, rfl⟩ := List.mem_map.mp hsent
    exact ⟨x.2, List.mem_append_right _ (List.mem_map_of_mem (List.mem_filter.mpr ⟨hx, by simp⟩)), rfl⟩

/-- Every pass accounts for every message, and puts on the channels what it reports sent, sealed from its plaintext and
    in that order. Over a run none is reported both sent and dropped, no two sent ones share
    an id, and one reported sent waits on its channel until it is acknowledged or the channel is retired. -/
theorem handed_over_run (events : List (Event O)) :
    (∀ (o : Outbox) (sessions : SessionManager O) (m : State) (now : SystemTime) (budget : Nat),
      AccountsFor o (o.drain (inProcess clock) (sessions, m) now budget) ∧
      ∃ held : List (ChannelId × Delivery),
        (∀ c, (o.drain (inProcess clock) (sessions, m) now budget).world.2.pendingOn c =
          m.pendingOn c ++ (held.filter fun h => h.1 = c).map Prod.snd) ∧
        List.Forall₂ (Handed clock now.unixSeconds (o.opening (sessions, m) now.unixSeconds)
          ((o.expire now.unixSeconds).1.due now.unixSeconds budget))
          (o.drain (inProcess clock) (sessions, m) now budget).report.sent held) ∧
    NeverBoth (run O clock .new events).books ∧
    ((run O clock .new events).handed.map Prod.snd).Nodup ∧
    ∀ h ∈ (run O clock .new events).handed, Waits (run O clock .new events) h ∨
      ∃ pre call post, events = pre ++ .call call :: post ∧ h ∈ (run O clock .new pre).handed ∧ Takes h call := by
  have hkept : Kept (run O clock .new events) := kept_run events
  obtain ⟨calls, -, hsub⟩ := hkept.accepted
  refine ⟨fun o sessions m now budget =>
      ⟨(accounts_iff _ o _ now budget).mpr (noMixedChannel_inProcess clock o sessions m now budget),
        pendingOn_drain clock o sessions m now budget⟩,
    hkept.neverBoth, (MemoryTransport.accepted_ids_nodup MemoryTransport.new calls).sublist hsub, ?_⟩
  refine Trace.run_prefix_induction (s := Desk.new) (M := fun pre s => ∀ h ∈ s.handed, Waits s h ∨
    ∃ before call after, pre = before ++ .call call :: after ∧ h ∈ (run O clock .new before).handed ∧ Takes h call)
    (fun h hh => by cases hh) ?_
  intro pre event post _ ih h hh
  have hearlier : (∃ before call after, pre = before ++ .call call :: after ∧
      h ∈ (run O clock .new before).handed ∧ Takes h call) →
      ∃ before call after, pre ++ [event] = before ++ .call call :: after ∧
        h ∈ (run O clock .new before).handed ∧ Takes h call := by
    rintro ⟨before, call, after, rfl, hrest⟩
    exact ⟨before, call, after ++ [event], by simp, hrest⟩
  cases event with
  | enqueue message now => exact (ih h hh).imp id hearlier
  | forgetPeer peer => exact (ih h hh).imp id hearlier
  | restart => exact (ih h hh).imp id hearlier
  | call call =>
    rcases ih h hh with hwaits | hgone
    · rcases waits_call hwaits call with hwaits | htakes
      · exact Or.inl hwaits
      · exact Or.inr ⟨pre, call, [], rfl, hh, htakes⟩
    · exact Or.inr (hearlier hgone)
  | drain sessions now budget =>
    rcases List.mem_append.mp hh with hold | hnew
    · exact (ih h hold).imp (fun hwaits => waits_drain sessions now budget (Or.inl hwaits)) hearlier
    · exact Or.inl (waits_drain sessions now budget (Or.inr hnew))

end InProcess

end Outbox

end Beacon
