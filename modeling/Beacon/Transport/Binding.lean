/-
  Beacon.Transport.Binding — the sender key of a queue, between a channel and a server that
  binds the first key it accepts for a sender id and refuses any other from then on.

  A send takes two critical sections with the request in between (`send_eq_line`: with nothing
  else going on they make up `SundTransport.send`), and `attach_outbound` may come at any
  point. It replaces the channel's key whatever sender id it is called with, so an offer that
  is delivered again takes the bound key away.
  - `in_service_iff`: whoever has been reached stays so exactly if no sender id is attached
    again once a send to it has succeeded, or while one is on its way.
-/

import Mathlib.Logic.Function.Basic
import Beacon.Transport.Sund
import Beacon.Lib.Trace

namespace Beacon

open Lib

namespace Binding

/-! ## The server -/

/-- The seed of the key bound for each sender id. -/
abbrev Keys := String → Option Seed

/-- A queue takes its first key from the header; from then on it takes no other. -/
def accepts (keys : Keys) (senderId : String) (key : QueueKey) (bindSenderKey : Bool) : Bool :=
  match keys senderId with
  | some bound => bound == key.fromSeed
  | none => bindSenderKey

/-- What becomes of a request apart from its key: the answer arrives, is lost on the way, or
    there is some other refusal. -/
inductive Reply where
  | granted (id : MessageId)
  | lost (error : SundError)
  | refused (error : SundError)

def sendToQueue (reply : Reply) (keys : Keys) (senderId : String) (key : QueueKey) (message : QueueMessage) :
    Except SundError MessageId × Keys :=
  let bound : Keys :=
    if accepts keys senderId key message.bindSenderKey then Function.update keys senderId (some key.fromSeed) else keys
  match reply with
  | .granted id => (if accepts keys senderId key message.bindSenderKey then .ok id else .error .unauthorized, bound)
  | .lost error => (.error error, bound)
  | .refused error => (.error error, keys)

/-- No queue is created or retired here. -/
def server (reply : Reply) : SundServer Keys where
  createQueue keys _ := (.error .unauthorized, keys)
  retireQueue keys _ _ := (.error .unauthorized, keys)
  sendToQueue := sendToQueue reply

/-! ## A channel and its sends -/

structure Sending where
  outbound : OutboundQueue
  message : QueueMessage
  /-- A send to its sender id had succeeded when it began. -/
  late : Bool
  answer : Option (Except SundError MessageId)

structure Line where
  transport : SundTransport
  keys : Keys
  inFlight : List Sending
  /-- Where the sends that have succeeded went. -/
  reached : List OutboundQueue

inductive LineEvent where
  | attachOutbound (senderId : String) (senderSeed : Seed)
  | begin (message : Outbound)
  | request (index : Nat) (reply : Reply)
  | finish (index : Nat)

def queueMessage (message : Outbound) (outbound : OutboundQueue) : QueueMessage :=
  ⟨message.ciphertext, message.ttl, message.priority == .high, !outbound.bound⟩

/-- `begin` and `finish` are the critical sections of `send`. -/
def lineStep (channel : ChannelId) (l : Line) : LineEvent → Line
  | .attachOutbound senderId senderSeed =>
    { l with transport := (l.transport.attachOutbound channel senderId senderSeed).2 }
  | .begin message =>
    match l.transport.outboundOf channel with
    | .error _ => l
    | .ok outbound =>
      let late := l.reached.any fun reached => reached.senderId == outbound.senderId
      { l with inFlight := l.inFlight ++ [⟨outbound, queueMessage message outbound, late, none⟩] }
  | .request index reply =>
    match l.inFlight[index]? with
    | some ⟨outbound, message, late, none⟩ =>
      let result := sendToQueue reply l.keys outbound.senderId ⟨outbound.senderSeed⟩ message
      { l with keys := result.2, inFlight := l.inFlight.set index ⟨outbound, message, late, some result.1⟩ }
    | _ => l
  | .finish index =>
    match l.inFlight[index]? with
    | some ⟨_, _, _, some (.error _)⟩ => { l with inFlight := l.inFlight.eraseIdx index }
    | some ⟨outbound, _, _, some (.ok _)⟩ =>
      { l with
        transport := if outbound.bound then l.transport else l.transport.bind channel outbound.senderId
        inFlight := l.inFlight.eraseIdx index
        reached := l.reached ++ [outbound] }
    | _ => l

/-- A send that nothing comes in between is the transport's. -/
theorem send_eq_line (transport : SundTransport) (keys : Keys) (reached : List OutboundQueue) (channel : ChannelId)
    (message : Outbound) (reply : Reply) :
    let after := Trace.run (lineStep channel) ⟨transport, keys, [], reached⟩ [.begin message, .request 0 reply, .finish 0]
    (after.transport, after.keys) = (SundTransport.send (server reply) (transport, keys) channel message).2 := by
  intro after
  unfold SundTransport.send
  cases hout : transport.outboundOf channel with
  | error error => simp [after, lineStep, hout]
  | ok outbound =>
    have hmessage : (⟨message.ciphertext, message.ttl, message.priority == .high, !outbound.bound⟩ : QueueMessage) =
      queueMessage message outbound := rfl
    simp only [server, hmessage]
    rcases hsend : sendToQueue reply keys outbound.senderId ⟨outbound.senderSeed⟩ (queueMessage message outbound) with
      ⟨error | id, keys'⟩
    · simp [after, lineStep, hout, hsend]
    · simp [after, lineStep, hout, hsend]

/-! ## Staying in service -/

/-- If a send to the queue's sender id has succeeded, one from here is signed with the key it
    was signed with, and the server does not refuse the key. -/
def WellSigned (l : Line) (outbound : OutboundQueue) : Prop :=
  ∀ reached ∈ l.reached, reached.senderId = outbound.senderId → outbound.senderSeed = reached.senderSeed ∧
    accepts l.keys outbound.senderId ⟨outbound.senderSeed⟩ (!outbound.bound) = true

/-- A send that starts now, or has started after a success, is well signed. -/
structure InService (channel : ChannelId) (l : Line) : Prop where
  next : ∀ outbound, l.transport.outboundOf channel = .ok outbound → WellSigned l outbound
  inFlight : ∀ sending ∈ l.inFlight, sending.late = true → WellSigned l sending.outbound

/-- The event gives a sender id that was reached another key: it attaches it again, or it is
    the success of a send that was on its way when it was attached again. -/
def LocksOut (channel : ChannelId) (l : Line) : LineEvent → Prop
  | .attachOutbound senderId senderSeed => (∃ record, l.transport.live channel = .ok record) ∧
      ∃ reached ∈ l.reached, reached.senderId = senderId ∧ reached.senderSeed ≠ senderSeed
  | .finish index => ∃ sending id outbound, l.inFlight[index]? = some sending ∧ sending.answer = some (.ok id) ∧
      l.transport.outboundOf channel = .ok outbound ∧ outbound.senderId = sending.outbound.senderId ∧
      outbound.senderSeed ≠ sending.outbound.senderSeed
  | _ => False

/-- A key that was accepted is bound. -/
structure Bound (l : Line) : Prop where
  reached : ∀ reached ∈ l.reached, l.keys reached.senderId = some reached.senderSeed
  answered : ∀ sending ∈ l.inFlight, ∀ id, sending.answer = some (.ok id) →
    l.keys sending.outbound.senderId = some sending.outbound.senderSeed
  late : ∀ sending ∈ l.inFlight, sending.late = true →
    ∃ reached ∈ l.reached, reached.senderId = sending.outbound.senderId

theorem wellSigned_iff {l : Line} (hl : Bound l) {outbound : OutboundQueue} :
    WellSigned l outbound ↔
      ∀ reached ∈ l.reached, reached.senderId = outbound.senderId → outbound.senderSeed = reached.senderSeed := by
  constructor
  · intro h reached hmem hsame
    exact (h reached hmem hsame).1
  · intro h reached hmem hsame
    have hseed := h reached hmem hsame
    refine ⟨hseed, ?_⟩
    rw [accepts, ← hsame, hl.reached reached hmem, hseed]
    exact beq_self_eq_true _

/-! ### What the events do -/

theorem sendToQueue_keeps (reply : Reply) {keys : Keys} {senderId id : String} {seed seed' : Seed} (message : QueueMessage)
    (h : keys id = some seed) : (sendToQueue reply keys senderId ⟨seed'⟩ message).2 id = some seed := by
  have hupdate : (if accepts keys senderId ⟨seed'⟩ message.bindSenderKey then
      Function.update keys senderId (some seed') else keys) id = some seed := by
    split
    · rename_i haccepts
      by_cases hid : id = senderId
      · subst hid
        rw [accepts, h] at haccepts
        rw [Function.update_self, beq_iff_eq.mp haccepts]
      · rw [Function.update_of_ne hid]
        exact h
    · exact h
  cases reply with
  | granted _ => exact hupdate
  | lost _ => exact hupdate
  | refused _ => exact h

theorem sendToQueue_ok {reply : Reply} {keys : Keys} {senderId : String} {seed : Seed} {message : QueueMessage}
    {id : MessageId} (h : (sendToQueue reply keys senderId ⟨seed⟩ message).1 = .ok id) :
    (sendToQueue reply keys senderId ⟨seed⟩ message).2 senderId = some seed := by
  cases reply with
  | granted _ =>
    simp only [sendToQueue] at h ⊢
    split at h
    · rename_i haccepts
      rw [if_pos haccepts, Function.update_self]
    · cases h
  | lost _ => cases h
  | refused _ => cases h

theorem outboundOf_attach {t : SundTransport} {channel : ChannelId} {record : ChannelRecord}
    (hlive : t.live channel = .ok record) (senderId : String) (senderSeed : Seed) :
    (t.attachOutbound channel senderId senderSeed).2.outboundOf channel = .ok ⟨senderId, senderSeed, false⟩ := by
  have hrecord : t.channels.get? channel = some record ∧ record.retired = false := by
    unfold SundTransport.live at hlive
    split at hlive
    · cases hlive
    next found hget =>
      split at hlive
      · cases hlive
      next hretired =>
        injection hlive with hfound
        subst hfound
        exact ⟨hget, by simpa using hretired⟩
  rcases hrecord with ⟨hget, hretired⟩
  have hput : (t.attachOutbound channel senderId senderSeed).2.channels.get? channel =
      some { record with outbound := some ⟨senderId, senderSeed, false⟩ } := by
    have hkey : record.channel = channel := Table.get?_key hget
    simp [SundTransport.attachOutbound, hlive, SundTransport.put, hkey]
  simp [SundTransport.outboundOf, SundTransport.live, hput, hretired]

theorem attach_of_not_live {t : SundTransport} {channel : ChannelId} (h : ¬ ∃ record, t.live channel = .ok record)
    (senderId : String) (senderSeed : Seed) : (t.attachOutbound channel senderId senderSeed).2 = t := by
  unfold SundTransport.attachOutbound
  cases hlive : t.live channel with
  | error error => rfl
  | ok record => exact absurd ⟨record, hlive⟩ h

theorem outboundOf_bind (t : SundTransport) (channel : ChannelId) (senderId : String) :
    (t.bind channel senderId).outboundOf channel = (t.outboundOf channel).map fun existing =>
      if existing.senderId = senderId then { existing with bound := true } else existing := by
  unfold SundTransport.outboundOf SundTransport.live SundTransport.bind
  simp only [Table.get?_modify, if_pos]
  cases hget : t.channels.get? channel with
  | none => rfl
  | some record =>
    cases hretired : record.retired with
    | true => simp [hretired, Except.map]
    | false => cases hout : record.outbound <;> simp [hretired, hout, Except.map]

/-- A success changes neither where the next send goes nor what signs it. -/
theorem outboundOf_success (t : SundTransport) (channel : ChannelId) (outbound : OutboundQueue) :
    ∃ f : OutboundQueue → OutboundQueue,
      (∀ next, (f next).senderId = next.senderId ∧ (f next).senderSeed = next.senderSeed) ∧
      (if outbound.bound then t else t.bind channel outbound.senderId).outboundOf channel =
        (t.outboundOf channel).map f := by
  cases outbound.bound with
  | true =>
    refine ⟨id, fun _ => ⟨rfl, rfl⟩, ?_⟩
    cases hout : t.outboundOf channel <;> simp [hout, Except.map]
  | false =>
    refine ⟨_, fun next => ?_, outboundOf_bind t channel outbound.senderId⟩
    split <;> exact ⟨rfl, rfl⟩

/-! ### Each event -/

theorem finish_of_success {channel : ChannelId} {l : Line} {index : Nat} {sending : Sending} {id : MessageId}
    (hget : l.inFlight[index]? = some sending) (hanswer : sending.answer = some (.ok id)) :
    lineStep channel l (.finish index) =
      { l with
        transport := if sending.outbound.bound then l.transport
          else l.transport.bind channel sending.outbound.senderId
        inFlight := l.inFlight.eraseIdx index
        reached := l.reached ++ [sending.outbound] } := by
  rcases sending with ⟨outbound, message, late, answer⟩
  cases hanswer
  simp [lineStep, hget]

/-- No answer that succeeded is taken in: the sends that have, the keys and the next send stay. -/
theorem finish_of_no_success (channel : ChannelId) {l : Line} {index : Nat}
    (h : ¬ ∃ sending id, l.inFlight[index]? = some sending ∧ sending.answer = some (.ok id)) :
    ∃ inFlight, (∀ sending ∈ inFlight, sending ∈ l.inFlight) ∧
      lineStep channel l (.finish index) = { l with inFlight := inFlight } := by
  simp only [lineStep]
  split
  next => exact ⟨_, fun _ => List.mem_of_mem_eraseIdx, rfl⟩
  next outbound message late id hget => exact absurd ⟨_, id, hget, rfl⟩ h
  next => exact ⟨l.inFlight, fun _ => id, rfl⟩

theorem bound_lineStep (channel : ChannelId) {l : Line} (hl : Bound l) (e : LineEvent) :
    Bound (lineStep channel l e) := by
  cases e with
  | attachOutbound senderId senderSeed => exact ⟨hl.reached, hl.answered, hl.late⟩
  | begin message =>
    simp only [lineStep]
    cases hout : l.transport.outboundOf channel with
    | error error => exact hl
    | ok outbound =>
      refine ⟨hl.reached, ?_, ?_⟩
      · intro sending hmem id hok
        rcases List.mem_append.mp hmem with hmem | hmem
        · exact hl.answered sending hmem id hok
        · rw [List.mem_singleton.mp hmem] at hok
          cases hok
      · intro sending hmem hlate
        rcases List.mem_append.mp hmem with hmem | hmem
        · exact hl.late sending hmem hlate
        · rw [List.mem_singleton.mp hmem] at hlate ⊢
          simpa using hlate
  | request index reply =>
    simp only [lineStep]
    split
    next outbound message late hget =>
      refine ⟨?_, ?_, ?_⟩
      · intro reached hmem
        exact sendToQueue_keeps reply message (hl.reached reached hmem)
      · intro sending hmem id hok
        rcases List.mem_or_eq_of_mem_set hmem with hmem | rfl
        · exact sendToQueue_keeps reply message (hl.answered sending hmem id hok)
        · exact sendToQueue_ok (Option.some.inj hok)
      · intro sending hmem hlate
        rcases List.mem_or_eq_of_mem_set hmem with hmem | rfl
        · exact hl.late sending hmem hlate
        · exact hl.late ⟨outbound, message, late, none⟩ (List.mem_of_getElem? hget) hlate
    next => exact hl
  | finish index =>
    by_cases hsuccess : ∃ sending id, l.inFlight[index]? = some sending ∧ sending.answer = some (.ok id)
    · rcases hsuccess with ⟨sending, id, hget, hanswer⟩
      rw [finish_of_success hget hanswer]
      refine ⟨?_, fun other hmem => hl.answered other (List.mem_of_mem_eraseIdx hmem), ?_⟩
      · intro reached hmem
        rcases List.mem_append.mp hmem with hmem | hmem
        · exact hl.reached reached hmem
        · rw [List.mem_singleton.mp hmem]
          exact hl.answered sending (List.mem_of_getElem? hget) id hanswer
      · intro other hmem hlate
        rcases hl.late other (List.mem_of_mem_eraseIdx hmem) hlate with ⟨reached, hreached, hsame⟩
        exact ⟨reached, List.mem_append_left _ hreached, hsame⟩
    · rcases finish_of_no_success channel hsuccess with ⟨inFlight, hsub, hstep⟩
      rw [hstep]
      exact ⟨hl.reached, fun other hmem => hl.answered other (hsub other hmem),
        fun other hmem => hl.late other (hsub other hmem)⟩

/-- What is asked of a queue depends on the sends that have succeeded alone. -/
theorem wellSigned_congr {l l' : Line} (hl : Bound l) (hl' : Bound l') (hreached : l'.reached = l.reached)
    (outbound : OutboundQueue) : WellSigned l' outbound ↔ WellSigned l outbound := by
  rw [wellSigned_iff hl', wellSigned_iff hl, hreached]

/-- A send that started after a success is signed with the key that is bound. -/
theorem late_bound {channel : ChannelId} {l : Line} (hl : Bound l) (hs : InService channel l) {sending : Sending}
    (hmem : sending ∈ l.inFlight) (hlate : sending.late = true) :
    l.keys sending.outbound.senderId = some sending.outbound.senderSeed := by
  rcases hl.late sending hmem hlate with ⟨reached, hreached, hsame⟩
  have hseed := (hs.inFlight sending hmem hlate reached hreached hsame).1
  rw [hseed, ← hsame]
  exact hl.reached reached hreached

theorem inService_attach_iff {channel : ChannelId} {l : Line} (hl : Bound l) (hs : InService channel l)
    (senderId : String) (senderSeed : Seed) :
    InService channel (lineStep channel l (.attachOutbound senderId senderSeed)) ↔
      ¬ LocksOut channel l (.attachOutbound senderId senderSeed) := by
  have hl' := bound_lineStep channel hl (.attachOutbound senderId senderSeed)
  by_cases hlive : ∃ record, l.transport.live channel = .ok record
  · have hnext : (lineStep channel l (.attachOutbound senderId senderSeed)).transport.outboundOf channel =
        .ok ⟨senderId, senderSeed, false⟩ := by
      rcases hlive with ⟨record, hrecord⟩
      exact outboundOf_attach hrecord senderId senderSeed
    constructor
    · intro h hlocks
      rcases hlocks with ⟨-, reached, hmem, hsame, hseed⟩
      exact hseed (h.next _ hnext reached hmem hsame).1.symm
    · intro h
      refine ⟨?_, ?_⟩
      · intro outbound hout
        obtain rfl : (⟨senderId, senderSeed, false⟩ : OutboundQueue) = outbound := by
          rw [hnext] at hout
          exact Except.ok.inj hout
        apply (wellSigned_iff hl').mpr
        intro reached hmem hsame
        by_contra hseed
        exact h ⟨hlive, reached, hmem, hsame, fun heq => hseed heq.symm⟩
      · intro sending hmem hlate
        exact (wellSigned_congr hl hl' rfl _).mpr (hs.inFlight sending hmem hlate)
  · have hstay : lineStep channel l (.attachOutbound senderId senderSeed) = l := by
      simp only [lineStep]
      rw [attach_of_not_live hlive]
    rw [hstay]
    exact iff_of_true hs fun h => hlive h.1

theorem inService_begin {channel : ChannelId} {l : Line} (hl : Bound l) (hs : InService channel l) (message : Outbound) :
    InService channel (lineStep channel l (.begin message)) := by
  have hl' := bound_lineStep channel hl (.begin message)
  simp only [lineStep] at hl' ⊢
  cases hout : l.transport.outboundOf channel with
  | error error => exact hs
  | ok outbound =>
    simp only [hout] at hl'
    have hsame := wellSigned_congr hl hl' rfl
    refine ⟨?_, ?_⟩
    · intro next hnext
      exact (hsame next).mpr (hs.next next hnext)
    · intro sending hmem hlate
      rcases List.mem_append.mp hmem with hmem | hmem
      · exact (hsame _).mpr (hs.inFlight sending hmem hlate)
      · rw [List.mem_singleton.mp hmem]
        exact (hsame outbound).mpr (hs.next outbound hout)

theorem inService_request {channel : ChannelId} {l : Line} (hl : Bound l) (hs : InService channel l) (index : Nat)
    (reply : Reply) : InService channel (lineStep channel l (.request index reply)) := by
  have hl' := bound_lineStep channel hl (.request index reply)
  simp only [lineStep] at hl' ⊢
  split
  next outbound message late hget =>
    simp only [hget] at hl'
    have hsame := wellSigned_congr hl hl' rfl
    refine ⟨?_, ?_⟩
    · intro next hnext
      exact (hsame next).mpr (hs.next next hnext)
    · intro sending hmem hlate
      apply (hsame _).mpr
      rcases List.mem_or_eq_of_mem_set hmem with hmem | rfl
      · exact hs.inFlight sending hmem hlate
      · exact hs.inFlight ⟨outbound, message, late, none⟩ (List.mem_of_getElem? hget) hlate
  next => exact hs

theorem inService_finish_iff {channel : ChannelId} {l : Line} (hl : Bound l) (hs : InService channel l) (index : Nat) :
    InService channel (lineStep channel l (.finish index)) ↔ ¬ LocksOut channel l (.finish index) := by
  have hl' := bound_lineStep channel hl (.finish index)
  by_cases hsuccess : ∃ sending id, l.inFlight[index]? = some sending ∧ sending.answer = some (.ok id)
  · rcases hsuccess with ⟨sending, id, hget, hanswer⟩
    have hmem := List.mem_of_getElem? hget
    rw [finish_of_success hget hanswer] at hl' ⊢
    rcases outboundOf_success l.transport channel sending.outbound with ⟨f, hf, hnext⟩
    constructor
    · intro h hlocks
      rcases hlocks with ⟨sending', _, outbound, hget', -, hout, hsame, hseed⟩
      obtain rfl : sending = sending' := Option.some.inj (hget.symm.trans hget')
      have hsigned := h.next (f outbound) (by rw [hnext, hout]; rfl) sending.outbound (by simp)
      rw [(hf outbound).1, (hf outbound).2] at hsigned
      exact hseed (hsigned hsame.symm).1
    · intro h
      refine ⟨?_, ?_⟩
      · intro next hout'
        rw [hnext] at hout'
        cases hout : l.transport.outboundOf channel with
        | error error =>
          rw [hout] at hout'
          cases hout'
        | ok outbound =>
          obtain rfl : f outbound = next := by
            rw [hout] at hout'
            exact Except.ok.inj hout'
          apply (wellSigned_iff hl').mpr
          intro reached hreached hsame
          rw [(hf outbound).1] at hsame
          rw [(hf outbound).2]
          rcases List.mem_append.mp hreached with hreached | hreached
          · exact (hs.next outbound hout reached hreached hsame).1
          · rw [List.mem_singleton.mp hreached] at hsame ⊢
            by_contra hseed
            exact h ⟨sending, id, outbound, hget, hanswer, hout, hsame.symm, hseed⟩
      · intro other hother hlate
        have hother' := List.mem_of_mem_eraseIdx hother
        apply (wellSigned_iff hl').mpr
        intro reached hreached hsame
        rcases List.mem_append.mp hreached with hreached | hreached
        · exact (hs.inFlight other hother' hlate reached hreached hsame).1
        · rw [List.mem_singleton.mp hreached] at hsame ⊢
          -- both keys are the one that is bound for the sender id
          have hbound := late_bound hl hs hother' hlate
          have hbound' := hl.answered sending hmem id hanswer
          rw [← hsame, hbound'] at hbound
          exact (Option.some.inj hbound).symm
  · rcases finish_of_no_success channel hsuccess with ⟨inFlight, hsub, hstep⟩
    rw [hstep] at hl' ⊢
    have hsame := wellSigned_congr hl hl' rfl
    constructor
    · intro _ hlocks
      rcases hlocks with ⟨sending, id, -, hget, hanswer, -⟩
      exact hsuccess ⟨sending, id, hget, hanswer⟩
    · intro _
      exact ⟨fun next hnext => (hsame next).mpr (hs.next next hnext), fun sending hmem hlate =>
        (hsame _).mpr (hs.inFlight sending (hsub sending hmem) hlate)⟩

/-! ## Every run -/

/-- The channel and the server before the first event; nothing has been sent. -/
def Line.start (transport : SundTransport) (keys : Keys) : Line := ⟨transport, keys, [], []⟩

theorem bound_start (transport : SundTransport) (keys : Keys) : Bound (.start transport keys) where
  reached _ h := absurd h List.not_mem_nil
  answered _ h := absurd h List.not_mem_nil
  late _ h := absurd h List.not_mem_nil

theorem inService_start (channel : ChannelId) (transport : SundTransport) (keys : Keys) :
    InService channel (.start transport keys) where
  next _ _ _ h := absurd h List.not_mem_nil
  inFlight _ h := absurd h List.not_mem_nil

/-- Whoever a send has reached stays in service, whatever the server's keys and answers are
    and however the steps of the sends come between each other, exactly if no event gives a
    sender id that was reached another key. -/
theorem in_service_iff (channel : ChannelId) (transport : SundTransport) (keys : Keys) (events : List LineEvent) :
    Trace.EachState (lineStep channel) (InService channel) (.start transport keys) events ↔
      Trace.EachStep (lineStep channel) (fun l e => ¬ LocksOut channel l e) (.start transport keys) events := by
  refine Trace.eachState_iff_eachStep (I := Bound) (A := fun _ => True) (fun _ e _ hl _ _ => bound_lineStep channel hl e)
    (fun l e _ hl hs => ?_) (fun _ _ => trivial) (bound_start transport keys) (inService_start channel transport keys)
  cases e with
  | attachOutbound senderId senderSeed => exact inService_attach_iff hl hs senderId senderSeed
  | begin message => exact iff_of_true (inService_begin hl hs message) id
  | request index reply => exact iff_of_true (inService_request hl hs index reply) id
  | finish index => exact inService_finish_iff hl hs index

/-- The seeds of the attachments. -/
def seeds (events : List LineEvent) : List Seed :=
  events.filterMap fun
    | .attachOutbound _ senderSeed => some senderSeed
    | _ => none

/-- The offer of a queue is delivered again after a send to it has succeeded. -/
def offeredAgain (senderId : String) (senderSeed again : Seed) : List LineEvent :=
  [.attachOutbound senderId senderSeed, .begin ⟨[], .normal, none⟩, .request 0 (.granted "m"), .finish 0,
    .attachOutbound senderId again]

/-- The seed is new each time, and the next send is signed with a key the server refuses. -/
theorem reattached_queue_is_locked_out : ¬ ∀ (channel : ChannelId) (transport : SundTransport) (keys : Keys)
    (events : List LineEvent), (seeds events).Nodup →
      Trace.EachState (lineStep channel) (InService channel) (.start transport keys) events := by
  intro h
  have hrun := (h "c" (SundTransport.new.declare "c" (.replicate 32 0)) (fun _ => none)
    (offeredAgain "s" (.replicate 32 1) (.replicate 32 2)) (by decide)).last
  have hreached : ⟨"s", .replicate 32 1, false⟩ ∈ (Trace.run (lineStep "c")
      (.start (SundTransport.new.declare "c" (.replicate 32 0)) fun _ => none)
      (offeredAgain "s" (.replicate 32 1) (.replicate 32 2))).reached := List.mem_cons_self
  have hsigned := hrun.next ⟨"s", .replicate 32 2, false⟩ rfl _ hreached rfl
  exact absurd hsigned.1 (by decide)

end Binding

end Beacon
