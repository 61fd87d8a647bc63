/-
  Beacon.Transport.Memory — the in-process transport (`sund_client::memory`) that the
  layers above are tested on, and that two clones of stand in for two devices.

  - `waiting_run`: after any calls by any of its clones, what waits on a channel is what
    was accepted on it and neither acknowledged nor retired since, in the order it was
    sent; and no two accepted messages have one id.
  - `subscription_run`: what one subscription delivers while the clones go on calling. It
    hands out nothing twice and in the order of the sends; but it looks at a place in the
    list, so it passes over as many messages as were acknowledged behind it.
  - `consume_run`: a reader that acknowledges each message before it pulls the next gets
    every other one, and the rest stay; one that reads all and then acknowledges leaves none.
-/

import Mathlib.Data.List.Nodup
import Std.Data.String.ToNat
import Beacon.Lib.Backlog
import Beacon.Lib.Trace
import Beacon.Transport.Port

namespace Beacon

open Lib

namespace MemoryTransport

/-- What is stored of a message is what is delivered of it. -/
structure Channel where
  pending : List Delivery
  retired : Bool

/-- What the clones share. -/
structure State where
  channels : Std.ExtTreeMap ChannelId Channel compare
  nextId : Nat

def new : State := ⟨∅, 0⟩

namespace State

def put (s : State) (channel : ChannelId) (entry : Channel) : State :=
  { s with channels := s.channels.insert channel entry }

@[simp] theorem nextId_put (s : State) (channel : ChannelId) (entry : Channel) :
    (s.put channel entry).nextId = s.nextId := rfl

/-- `Transport::open`. -/
def openChannel (s : State) (channel : ChannelId) : Except TransportError Unit × State :=
  match s.channels[channel]? with
  | some existing => if existing.retired then (.error (.retired channel), s) else (.ok (), s)
  | none => (.ok (), s.put channel ⟨[], false⟩)

def retire (s : State) (channel : ChannelId) : Except TransportError Unit × State :=
  match s.channels[channel]? with
  | none => (.error (.unknownChannel channel), s)
  | some _ => (.ok (), s.put channel ⟨[], true⟩)

def messageId (n : Nat) : MessageId := "m" ++ toString n

/-- The id is used up whether or not the message is taken. -/
def send (s : State) (channel : ChannelId) (message : Outbound) (now : SystemTime) :
    Except TransportError MessageId × State :=
  let s := { s with nextId := s.nextId + 1 }
  let id := messageId s.nextId
  match s.channels[channel]? with
  | none => (.error (.unknownChannel channel), s)
  | some entry =>
    if entry.retired then (.error (.retired channel), s)
    else
      let pending := entry.pending ++ [⟨id, message.ciphertext, now⟩]
      (.ok id, s.put channel { entry with pending })

/-- The channel, unless it is unknown or retired. -/
def withChannel (s : State) (channel : ChannelId) : Except TransportError Channel :=
  match s.channels[channel]? with
  | none => .error (.unknownChannel channel)
  | some entry => if entry.retired then .error (.retired channel) else .ok entry

def ack (s : State) (channel : ChannelId) (message : MessageId) : Except TransportError Unit × State :=
  match s.withChannel channel with
  | .error error => (.error error, s)
  | .ok entry =>
    let pending := entry.pending.filter fun m => m.id ≠ message
    (.ok (), s.put channel { entry with pending })

/-- What waits on the channel; nothing on one that was never opened. -/
def pendingOn (s : State) (channel : ChannelId) : List Delivery :=
  (s.channels[channel]?).elim [] Channel.pending

end State

/-! ## Calls and what they do to a channel -/

inductive Call where
  | openChannel (channel : ChannelId)
  | retire (channel : ChannelId)
  | send (channel : ChannelId) (message : Outbound) (now : SystemTime)
  | ack (channel : ChannelId) (message : MessageId)

def step (s : State) : Call → State
  | .openChannel channel => (s.openChannel channel).2
  | .retire channel => (s.retire channel).2
  | .send channel message now => (s.send channel message now).2
  | .ack channel message => (s.ack channel message).2

abbrev run (s : State) (calls : List Call) : State := Trace.run step s calls

theorem run_snoc (s : State) (calls : List Call) (call : Call) : run s (calls ++ [call]) = step (run s calls) call :=
  Trace.run_snoc s calls call

/-- What a call that succeeds does to its channel; opening one does nothing to what waits. -/
def effect (s : State) : Call → Option (ChannelId × Backlog.Edit Delivery)
  | .openChannel _ => none
  | .retire channel => if (s.retire channel).1.isOk then some (channel, .take fun _ => true) else none
  | .send channel message now =>
    match (s.send channel message now).1 with
    | .ok id => some (channel, .add ⟨id, message.ciphertext, now⟩)
    | .error _ => none
  | .ack channel message => if (s.ack channel message).1.isOk then some (channel, .take fun m => m.id = message) else none

def effects : State → List Call → List (ChannelId × Backlog.Edit Delivery)
  | _, [] => []
  | s, call :: calls => (effect s call).toList ++ effects (step s call) calls

/-- Those on one channel. -/
def editsOn (c : ChannelId) (fx : List (ChannelId × Backlog.Edit Delivery)) : List (Backlog.Edit Delivery) :=
  (fx.filter fun f => f.1 = c).map Prod.snd

/-- The messages taken in, whatever the channel. -/
def acceptedBy (fx : List (ChannelId × Backlog.Edit Delivery)) : List Delivery := Backlog.added (fx.map Prod.snd)

/-! ## What waits -/

theorem pendingOn_put (s : State) (channel : ChannelId) (entry : Channel) (c : ChannelId) :
    (s.put channel entry).pendingOn c = if channel = c then entry.pending else s.pendingOn c := by
  unfold State.pendingOn State.put
  rw [Std.ExtTreeMap.getElem?_insert]
  by_cases hc : channel = c <;> simp [hc]

theorem pendingOn_of_get {s : State} {c : ChannelId} {entry : Channel} (h : s.channels[c]? = some entry) :
    s.pendingOn c = entry.pending := by
  rw [State.pendingOn, h]
  rfl

theorem pendingOn_of_none {s : State} {c : ChannelId} (h : s.channels[c]? = none) : s.pendingOn c = [] := by
  rw [State.pendingOn, h]
  rfl

theorem withChannel_cases (s : State) (channel : ChannelId) :
    (∃ error, s.withChannel channel = .error error) ∨
    ∃ entry, s.channels[channel]? = some entry ∧ entry.retired = false ∧ s.withChannel channel = .ok entry := by
  unfold State.withChannel
  cases hget : s.channels[channel]? with
  | none => exact Or.inl ⟨_, rfl⟩
  | some entry =>
    cases hretired : entry.retired with
    | true => exact Or.inl ⟨_, by simp [hretired]; rfl⟩
    | false => exact Or.inr ⟨entry, rfl, hretired, by simp [hretired]⟩

theorem editsOn_one (c channel : ChannelId) (e : Backlog.Edit Delivery) :
    editsOn c (some (channel, e)).toList = if channel = c then [e] else [] := by
  by_cases hc : channel = c <;> simp [editsOn, hc]

theorem pendingOn_step (s : State) (call : Call) (c : ChannelId) :
    (step s call).pendingOn c = (editsOn c (effect s call).toList).foldl Backlog.edit (s.pendingOn c) := by
  cases call with
  | openChannel channel =>
    rcases hget : s.channels[channel]? with _ | entry
    · simp only [step, effect, State.openChannel, hget, pendingOn_put]
      split
      next hc =>
        rw [← hc, pendingOn_of_none hget]
        rfl
      next => rfl
    · simp only [step, effect, State.openChannel, hget]
      split <;> rfl
  | retire channel =>
    rcases hget : s.channels[channel]? with _ | entry
    · simp only [step, effect, State.retire, hget]
      rfl
    · simp only [step, effect, State.retire, hget, pendingOn_put, Except.isOk, Except.toBool, if_true, editsOn_one]
      split
      next => simp [Backlog.edit]
      next => rfl
  | send channel message now =>
    rcases hget : s.channels[channel]? with _ | entry
    · simp only [step, effect, State.send, hget]
      rfl
    · cases hretired : entry.retired with
      | true =>
        simp only [step, effect, State.send, hget, hretired, if_true]
        rfl
      | false =>
        simp only [step, effect, State.send, hget, hretired, Bool.false_eq_true, if_false, pendingOn_put, editsOn_one]
        split
        next hc =>
          rw [← hc, pendingOn_of_get hget]
          rfl
        next => rfl
  | ack channel message =>
    rcases withChannel_cases s channel with ⟨error, herr⟩ | ⟨entry, hget, -, hok⟩
    · simp only [step, effect, State.ack, herr]
      rfl
    · simp only [step, effect, State.ack, hok, pendingOn_put, Except.isOk, Except.toBool, if_true, editsOn_one]
      split
      next hc =>
        rw [← hc, pendingOn_of_get hget]
        simp [Backlog.edit]
      next => rfl

theorem editsOn_append (c : ChannelId) (fx gx : List (ChannelId × Backlog.Edit Delivery)) :
    editsOn c (fx ++ gx) = editsOn c fx ++ editsOn c gx := by
  simp [editsOn]

theorem pendingOn_run (s : State) (calls : List Call) (c : ChannelId) :
    (run s calls).pendingOn c = (editsOn c (effects s calls)).foldl Backlog.edit (s.pendingOn c) := by
  induction calls generalizing s with
  | nil => rfl
  | cons call calls ih =>
    show (run (step s call) calls).pendingOn c = _
    rw [ih, pendingOn_step, effects, editsOn_append, List.foldl_append]

/-! ## Ids -/

theorem messageId_injective : Function.Injective State.messageId := by
  intro m n h
  exact Nat.repr_injective ((String.append_right_inj "m").mp h)

theorem nextId_le_step (s : State) (call : Call) : s.nextId ≤ (step s call).nextId := by
  cases call with
  | openChannel channel => simp only [step, State.openChannel]; split <;> (try split) <;> simp
  | retire channel => simp only [step, State.retire]; split <;> simp
  | send channel message now => simp only [step, State.send]; split <;> (try split) <;> simp
  | ack channel message => simp only [step, State.ack]; split <;> simp

/-- An accepted message has the id its send used up. -/
theorem id_of_effect {s : State} {call : Call} {c : ChannelId} {m : Delivery} (h : effect s call = some (c, .add m)) :
    m.id = State.messageId (s.nextId + 1) ∧ (step s call).nextId = s.nextId + 1 := by
  cases call with
  | openChannel channel => cases h
  | retire channel => simp [effect] at h
  | ack channel message => simp [effect] at h
  | send channel message now =>
    simp only [effect, step, State.send] at h ⊢
    cases hget : s.channels[channel]? with
    | none => simp [hget] at h
    | some entry =>
      cases hretired : entry.retired with
      | true => simp [hget, hretired] at h
      | false =>
        simp only [hget, hretired, Bool.false_eq_true, if_false, Option.some.injEq, Prod.mk.injEq,
          Backlog.Edit.add.injEq] at h ⊢
        rw [← h.2]
        exact ⟨rfl, rfl⟩

/-- What a run takes in gets ids that were not given out before it, in the order of the sends. -/
theorem accepted_ids (s : State) (calls : List Call) :
    ∃ ns : List Nat, (acceptedBy (effects s calls)).map Delivery.id = ns.map State.messageId ∧
      ns.Pairwise (· < ·) ∧ ∀ n ∈ ns, s.nextId < n := by
  induction calls generalizing s with
  | nil => exact ⟨[], rfl, .nil, by simp⟩
  | cons call calls ih =>
    obtain ⟨ns, hids, hsorted, hfresh⟩ := ih (step s call)
    have hmono := nextId_le_step s call
    have hrest : ∀ fx, acceptedBy (fx ++ effects (step s call) calls) =
        acceptedBy fx ++ acceptedBy (effects (step s call) calls) := by
      intro fx
      simp [acceptedBy, Backlog.added]
    rw [effects, hrest, List.map_append, hids]
    rcases heffect : effect s call with _ | ⟨c, _ | p⟩
    · exact ⟨ns, rfl, hsorted, fun n hn => Nat.lt_of_le_of_lt hmono (hfresh n hn)⟩
    · obtain ⟨hid, hnext⟩ := id_of_effect heffect
      refine ⟨(s.nextId + 1) :: ns, ?_, List.pairwise_cons.mpr ⟨fun n hn => ?_, hsorted⟩, fun n hn => ?_⟩
      · simp [acceptedBy, Backlog.added, hid]
      · rw [← hnext]
        exact hfresh n hn
      · rcases List.mem_cons.mp hn with rfl | hn
        · exact Nat.lt_succ_self _
        · exact Nat.lt_of_le_of_lt hmono (hfresh n hn)
    · exact ⟨ns, rfl, hsorted, fun n hn => Nat.lt_of_le_of_lt hmono (hfresh n hn)⟩

theorem accepted_ids_nodup (s : State) (calls : List Call) :
    ((acceptedBy (effects s calls)).map Delivery.id).Nodup := by
  obtain ⟨ns, hids, hsorted, -⟩ := accepted_ids s calls
  rw [hids]
  exact List.Nodup.map messageId_injective (hsorted.imp Nat.ne_of_lt)

/-- After any calls: on each channel waits what was accepted on it and neither acknowledged nor retired since, in
    the order it was sent; and no two accepted messages, on whatever channels, have one id. -/
theorem waiting_run (calls : List Call) :
    (∀ c, (run new calls).pendingOn c = Backlog.outstanding (editsOn c (effects new calls))) ∧
    ((acceptedBy (effects new calls)).map Delivery.id).Nodup := by
  refine ⟨fun c => ?_, accepted_ids_nodup new calls⟩
  have hempty : new.pendingOn c = [] := by simp [new, State.pendingOn]
  rw [pendingOn_run, Backlog.edits_eq, hempty]
  rfl

/-! ## One subscription -/

structure Subscription where
  channel : ChannelId
  cursor : Nat

def State.subscribe (s : State) (channel : ChannelId) : Except TransportError Subscription :=
  match s.withChannel channel with
  | .error error => .error error
  | .ok _ => .ok ⟨channel, 0⟩

def State.nextDelivery (s : State) (sub : Subscription) : Except TransportError (Option Delivery) × Subscription :=
  match s.withChannel sub.channel with
  | .error error => (.error error, sub)
  | .ok entry =>
    match entry.pending[sub.cursor]? with
    | some stored => (.ok (some stored), { sub with cursor := sub.cursor + 1 })
    | none => (.ok none, sub)

/-- What happens while it is open: a call by anyone, or a pull. -/
inductive Moment where
  | call (call : Call)
  | pull

/-- The calls among them. -/
def callsOf (moments : List Moment) : List Call :=
  moments.filterMap fun m => match m with | .call call => some call | .pull => none

/-- A subscription, and all it has delivered. -/
structure Watch where
  state : State
  sub : Subscription
  delivered : List Delivery

namespace Watch

def step (w : Watch) : Moment → Watch
  | .call call => { w with state := MemoryTransport.step w.state call }
  | .pull =>
    match w.state.nextDelivery w.sub with
    | (.ok (some delivery), sub) => { w with sub, delivered := w.delivered ++ [delivery] }
    | (_, sub) => { w with sub }

abbrev run (w : Watch) (moments : List Moment) : Watch := Trace.run step w moments

def reader (w : Watch) : Backlog.Reader Delivery := ⟨w.sub.cursor, w.delivered⟩

/-- What waits on its channel. -/
def waiting (w : Watch) : List Delivery := w.state.pendingOn w.sub.channel

/-- What waits behind its place and was never delivered by it. -/
def passedOver (w : Watch) : List Delivery := w.reader.passed w.waiting

theorem channel_step (w : Watch) (m : Moment) : (w.step m).sub.channel = w.sub.channel := by
  cases m with
  | call call => rfl
  | pull =>
    unfold step State.nextDelivery
    rcases withChannel_cases w.state w.sub.channel with ⟨error, herr⟩ | ⟨entry, -, -, hok⟩
    · simp only [herr]
    · simp only [hok]
      cases entry.pending[w.sub.cursor]? <;> rfl

/-- A pull reads at its place, or finds the channel gone. -/
theorem pull_cases (w : Watch) :
    w.step .pull = w ∨ (w.step .pull).state = w.state ∧ (w.step .pull).reader = w.reader.next w.waiting := by
  unfold step State.nextDelivery
  rcases withChannel_cases w.state w.sub.channel with ⟨error, herr⟩ | ⟨entry, hget, -, hok⟩
  · simp only [herr, true_or]
  · right
    have hwaiting : w.waiting = entry.pending := pendingOn_of_get hget
    simp only [hok, reader, Backlog.Reader.next, hwaiting]
    cases entry.pending[w.sub.cursor]? <;> exact ⟨rfl, rfl⟩

/-- A relation of the reader to its list that edits and pulls keep, the edits with everything they add
    put to the log, holds after any moments. -/
theorem run_keeps {R : List Delivery → List Delivery → Backlog.Reader Delivery → Prop}
    (hedits : ∀ log items r es, (log ++ Backlog.added es).Nodup → R log items r →
      R (log ++ Backlog.added es) (es.foldl Backlog.edit items) r)
    (hnext : ∀ log items r, R log items r → R log items (r.next items)) {log : List Delivery} {w : Watch}
    (moments : List Moment) (h : R log w.waiting w.reader)
    (hnd : (log ++ Backlog.added (editsOn w.sub.channel (effects w.state (callsOf moments)))).Nodup) :
    R (log ++ Backlog.added (editsOn w.sub.channel (effects w.state (callsOf moments))))
      (w.run moments).waiting (w.run moments).reader := by
  induction moments generalizing w log with
  | nil => simpa [callsOf, effects, editsOn, Backlog.added] using h
  | cons m moments ih =>
    cases m with
    | call call =>
      have hsplit : log ++ Backlog.added (editsOn w.sub.channel (effects w.state (callsOf (.call call :: moments)))) =
          log ++ Backlog.added (editsOn w.sub.channel (effect w.state call).toList) ++
            Backlog.added (editsOn w.sub.channel (effects (MemoryTransport.step w.state call) (callsOf moments))) := by
        show log ++ Backlog.added (editsOn w.sub.channel (effects w.state (call :: callsOf moments))) = _
        rw [effects, editsOn_append, Backlog.added_append, List.append_assoc]
      rw [hsplit] at hnd ⊢
      refine ih (w := w.step (.call call)) ?_ hnd
      have hstep := hedits _ _ _ (editsOn w.sub.channel (effect w.state call).toList) (List.nodup_append.mp hnd).1 h
      unfold waiting at hstep
      rw [← pendingOn_step] at hstep
      exact hstep
    | pull =>
      show R (log ++ Backlog.added (editsOn w.sub.channel (effects w.state (callsOf moments))))
        ((w.step .pull).run moments).waiting ((w.step .pull).run moments).reader
      rcases pull_cases w with hsame | ⟨hstate, hreader⟩
      · rw [hsame]
        exact ih h hnd
      · have hchannel := channel_step w .pull
        have hpulled := @ih log (w.step .pull)
        rw [hchannel, hstate] at hpulled
        refine hpulled ?_ hnd
        rw [waiting, hchannel, hstate, hreader]
        exact hnext _ _ _ h

theorem follows_run {log : List Delivery} {w : Watch} (moments : List Moment)
    (h : Backlog.Follows log w.waiting w.reader)
    (hnd : (log ++ Backlog.added (editsOn w.sub.channel (effects w.state (callsOf moments)))).Nodup) :
    Backlog.Follows (log ++ Backlog.added (editsOn w.sub.channel (effects w.state (callsOf moments))))
      (w.run moments).waiting (w.run moments).reader :=
  run_keeps (R := Backlog.Follows) (fun _ _ _ es _ h => h.edits es) (fun _ _ _ h => h.next) moments h hnd

theorem missed_run {log : List Delivery} {w : Watch} {m : Delivery} (moments : List Moment)
    (h : Backlog.Missed log w.waiting w.reader m)
    (hnd : (log ++ Backlog.added (editsOn w.sub.channel (effects w.state (callsOf moments)))).Nodup) :
    m ∉ (w.run moments).delivered :=
  (run_keeps (R := fun log items r => Backlog.Missed log items r m) (fun _ _ _ es hnd h => h.edits es hnd)
    (fun _ _ _ h => h.next) moments h hnd).unread

theorem state_run (w : Watch) (moments : List Moment) :
    (w.run moments).state = MemoryTransport.run w.state (callsOf moments) ∧
    (w.run moments).sub.channel = w.sub.channel := by
  induction moments generalizing w with
  | nil => exact ⟨rfl, rfl⟩
  | cons m moments ih =>
    obtain ⟨hstate, hchannel⟩ := ih (w.step m)
    rw [channel_step] at hchannel
    refine ⟨hstate.trans ?_, hchannel⟩
    cases m with
    | call call => rfl
    | pull =>
      rcases pull_cases w with hsame | ⟨hsame, -⟩
      · rw [hsame]
        rfl
      · rw [hsame]
        rfl

end Watch

/-! ## What it delivers -/

/-- The messages a run takes in on one channel. -/
def acceptedOn (c : ChannelId) (calls : List Call) : List Delivery := Backlog.added (editsOn c (effects new calls))

theorem acceptedOn_sublist (c : ChannelId) (calls : List Call) :
    (acceptedOn c calls).Sublist (acceptedBy (effects new calls)) :=
  (List.filter_sublist.map Prod.snd).filterMap _

theorem acceptedOn_nodup (c : ChannelId) (calls : List Call) : ((acceptedOn c calls).map Delivery.id).Nodup :=
  (accepted_ids_nodup new calls).sublist ((acceptedOn_sublist c calls).map _)

theorem effects_append (s : State) (calls more : List Call) :
    effects s (calls ++ more) = effects s calls ++ effects (run s calls) more := by
  induction calls generalizing s with
  | nil => rfl
  | cons call calls ih =>
    show effects s (call :: (calls ++ more)) = _
    rw [effects, effects, ih, List.append_assoc]
    rfl

theorem acceptedOn_append (c : ChannelId) (calls more : List Call) :
    acceptedOn c (calls ++ more) = acceptedOn c calls ++ Backlog.added (editsOn c (effects (run new calls) more)) := by
  rw [acceptedOn, effects_append, editsOn_append, Backlog.added_append]
  rfl

theorem waiting_sublist (c : ChannelId) (calls : List Call) :
    ((run new calls).pendingOn c).Sublist (acceptedOn c calls) := by
  rw [(waiting_run calls).1]
  exact Backlog.outstanding_sublist _

/-- A subscription after these calls and, once it is open, these moments. -/
abbrev watched (calls : List Call) (sub : Subscription) (moments : List Moment) : Watch :=
  Watch.run ⟨run new calls, sub, []⟩ moments

/-- A subscription opened after any calls, while anyone goes on calling: it delivers in the order of the sends and
    nothing twice; of what waits it has passed over as many messages as it delivered and were taken since, while
    the list still reaches its place; and it never delivers one it has passed over. -/
theorem subscription_run (calls : List Call) {c : ChannelId} {sub : Subscription}
    (hsub : (run new calls).subscribe c = .ok sub) (moments : List Moment) :
    ((watched calls sub moments).delivered.Sublist (acceptedOn c (calls ++ callsOf moments)) ∧
      ((watched calls sub moments).delivered.map Delivery.id).Nodup) ∧
    (watched calls sub moments).passedOver.length +
        ((watched calls sub moments).delivered.filter (· ∈ (watched calls sub moments).waiting)).length =
      min (watched calls sub moments).delivered.length (watched calls sub moments).waiting.length ∧
    ∀ m ∈ (watched calls sub moments).passedOver, ∀ more, m ∉ (watched calls sub (moments ++ more)).delivered := by
  have hopened : sub = ⟨c, 0⟩ := by
    unfold State.subscribe at hsub
    split at hsub
    · cases hsub
    · exact (Except.ok.inj hsub).symm
  subst hopened
  generalize hw : watched calls ⟨c, 0⟩ moments = w
  have hlog : ∀ more, (acceptedOn c more).Nodup := fun more => .of_map _ (acceptedOn_nodup c more)
  have hfollows : Backlog.Follows (acceptedOn c (calls ++ callsOf moments)) w.waiting w.reader := by
    rw [← hw, acceptedOn_append]
    refine Watch.follows_run (w := ⟨run new calls, ⟨c, 0⟩, []⟩) moments (Backlog.follows_start (waiting_sublist c calls)) ?_
    rw [← acceptedOn_append]
    exact hlog _
  obtain ⟨hstate, hchannel⟩ := Watch.state_run ⟨run new calls, ⟨c, 0⟩, []⟩ moments
  change (watched calls ⟨c, 0⟩ moments).state = _ at hstate
  change (watched calls ⟨c, 0⟩ moments).sub.channel = c at hchannel
  rw [hw] at hstate hchannel
  have hstate' : w.state = run new (calls ++ callsOf moments) := by
    rw [hstate]
    exact (Trace.run_append _ _ _).symm
  have hwaiting : w.waiting.Sublist (acceptedOn c (calls ++ callsOf moments)) := by
    rw [Watch.waiting, hchannel, hstate']
    exact waiting_sublist c _
  refine ⟨⟨hfollows.read_sublist, (acceptedOn_nodup c _).sublist (hfollows.read_sublist.map _)⟩,
    hfollows.passed_count (hlog _) ((hlog _).sublist hwaiting), fun m hm more => ?_⟩
  rw [watched, Watch.run, Trace.run_append]
  change m ∉ ((watched calls ⟨c, 0⟩ moments).run more).delivered
  rw [hw]
  refine Watch.missed_run more (Backlog.missed_of_passed hwaiting (hlog _) hm) ?_
  rw [hchannel, hstate']
  show (acceptedOn c (calls ++ callsOf moments) ++ _).Nodup
  rw [← acceptedOn_append]
  exact hlog _

/-- Two messages wait; the first is delivered and acknowledged, and the second is passed over. -/
theorem subscription_passing_over :
    ((watched [.openChannel "c", .send "c" ⟨[1], .normal, none⟩ ⟨0⟩, .send "c" ⟨[2], .normal, none⟩ ⟨0⟩] ⟨"c", 0⟩
        [.pull, .call (.ack "c" "m1"), .pull]).delivered.map Delivery.id).Nodup ∧
    (watched [.openChannel "c", .send "c" ⟨[1], .normal, none⟩ ⟨0⟩, .send "c" ⟨[2], .normal, none⟩ ⟨0⟩] ⟨"c", 0⟩
        [.pull, .call (.ack "c" "m1"), .pull]).passedOver.map Delivery.id = ["m2"] :=
  ⟨(subscription_run [.openChannel "c", .send "c" ⟨[1], .normal, none⟩ ⟨0⟩, .send "c" ⟨[2], .normal, none⟩ ⟨0⟩]
    (show (run new _).subscribe "c" = .ok ⟨"c", 0⟩ from rfl) [.pull, .call (.ack "c" "m1"), .pull]).1.2,
    by decide +kernel⟩

/-! ## Acknowledging while reading -/

/-- The first of a list, the third, and so on. -/
def everyOther {α : Type} : List α → List α
  | [] => []
  | [a] => [a]
  | a :: _ :: l => a :: everyOther l

/-- Pull, acknowledge, and again, until nothing comes. -/
def consume : Nat → State → Subscription → List Delivery × State
  | 0, s, _ => ([], s)
  | fuel + 1, s, sub =>
    match s.nextDelivery sub with
    | (.ok (some delivery), sub) =>
      let rest := consume fuel (s.ack sub.channel delivery.id).2 sub
      (delivery :: rest.1, rest.2)
    | _ => ([], s)

/-- Pull until nothing comes. -/
def drain : Nat → State → Subscription → List Delivery
  | 0, _, _ => []
  | fuel + 1, s, sub =>
    match s.nextDelivery sub with
    | (.ok (some delivery), sub) => delivery :: drain fuel s sub
    | _ => []

def ackAll (s : State) (channel : ChannelId) (deliveries : List Delivery) : State :=
  deliveries.foldl (fun s delivery => (s.ack channel delivery.id).2) s

theorem nextDelivery_open {s : State} {c : ChannelId} {entry : Channel} (hget : s.channels[c]? = some entry)
    (hopen : entry.retired = false) (n : Nat) :
    s.nextDelivery ⟨c, n⟩ =
      match entry.pending[n]? with
      | some delivery => (.ok (some delivery), ⟨c, n + 1⟩)
      | none => (.ok none, ⟨c, n⟩) := by
  simp only [State.nextDelivery, State.withChannel, hget, hopen, Bool.false_eq_true, if_false]

/-- Acknowledging on an open channel takes the message off it, and touches no other. -/
theorem ack_open {s : State} {c : ChannelId} {entry : Channel} (hget : s.channels[c]? = some entry)
    (hopen : entry.retired = false) (id : MessageId) :
    (s.ack c id).2 = s.put c { entry with pending := entry.pending.filter fun m => m.id ≠ id } := by
  simp only [State.ack, State.withChannel, hget, hopen, Bool.false_eq_true, if_false]

theorem put_get (s : State) (c : ChannelId) (entry : Channel) (c' : ChannelId) :
    (s.put c entry).channels[c']? = if c = c' then some entry else s.channels[c']? := by
  simp [State.put, Std.ExtTreeMap.getElem?_insert]

/-- Ids being distinct, the message at the reader's place is the one that goes. -/
theorem filter_place {passed rest : List Delivery} {d : Delivery} (hnd : ((passed ++ d :: rest).map Delivery.id).Nodup) :
    ((passed ++ d :: rest).filter fun m => m.id ≠ d.id) = passed ++ rest := by
  rw [List.map_append, List.map_cons] at hnd
  have hnot := (List.nodup_cons.mp (List.nodup_middle.mp hnd)).1
  rw [List.mem_append, not_or] at hnot
  have hkeep : ∀ l : List Delivery, d.id ∉ l.map Delivery.id → (l.filter fun m => m.id ≠ d.id) = l := by
    intro l hl
    refine List.filter_eq_self.mpr fun m hm => decide_eq_true fun heq => hl ?_
    rw [← heq]
    exact List.mem_map_of_mem hm
  rw [List.filter_append, List.filter_cons_of_neg (by simp), hkeep _ hnot.1, hkeep _ hnot.2]

theorem consume_open (fuel : Nat) {s : State} {c : ChannelId} {passed rest : List Delivery}
    (hget : s.channels[c]? = some ⟨passed ++ rest, false⟩) (hnd : ((passed ++ rest).map Delivery.id).Nodup)
    (hfuel : rest.length ≤ fuel) :
    (consume fuel s ⟨c, passed.length⟩).1 = everyOther rest ∧
    (consume fuel s ⟨c, passed.length⟩).2.pendingOn c = passed ++ everyOther rest.tail ∧
    ∀ other, other ≠ c → (consume fuel s ⟨c, passed.length⟩).2.pendingOn other = s.pendingOn other := by
  induction fuel generalizing s passed rest with
  | zero =>
    obtain rfl := List.length_eq_zero_iff.mp (Nat.le_zero.mp hfuel)
    exact ⟨rfl, pendingOn_of_get hget, fun _ _ => rfl⟩
  | succ fuel ih =>
    have hnext := nextDelivery_open hget rfl passed.length
    rcases rest with _ | ⟨d, rest⟩
    · simp only [List.append_nil, List.getElem?_eq_none (Nat.le_refl _)] at hnext
      simp only [consume, hnext]
      exact ⟨rfl, pendingOn_of_get hget, fun _ _ => trivial⟩
    · simp only [List.getElem?_append_right (Nat.le_refl _), Nat.sub_self, List.getElem?_cons_zero] at hnext
      simp only [consume, hnext]
      have hacked := ack_open hget rfl d.id
      simp only [filter_place hnd] at hacked
      rw [hacked]
      have hother : ∀ other, other ≠ c → (s.put c ⟨passed ++ rest, false⟩).pendingOn other = s.pendingOn other := by
        intro other hne
        rw [pendingOn_put, if_neg (Ne.symm hne)]
      have hnd' : ((passed ++ rest).map Delivery.id).Nodup :=
        hnd.sublist (((List.sublist_cons_self d rest).append_left passed).map _)
      have hgot := put_get s c ⟨passed ++ rest, false⟩ c
      rw [if_pos rfl] at hgot
      -- the message after `d` is behind the reader now
      rcases rest with _ | ⟨skipped, rest⟩
      · have hdone : consume fuel (s.put c ⟨passed ++ [], false⟩) ⟨c, passed.length + 1⟩ =
            ([], s.put c ⟨passed ++ [], false⟩) := by
          cases fuel with
          | zero => rfl
          | succ fuel =>
            have hnone := nextDelivery_open hgot rfl (passed.length + 1)
            simp only [List.append_nil, List.getElem?_eq_none (Nat.le_succ _)] at hnone ⊢
            simp only [consume, hnone]
        rw [hdone]
        exact ⟨rfl, pendingOn_of_get hgot, hother⟩
      · have hshift : passed ++ skipped :: rest = (passed ++ [skipped]) ++ rest := by simp
        rw [hshift] at hgot hnd' hother ⊢
        have hlength : passed.length + 1 = (passed ++ [skipped]).length := by simp
        rw [hlength]
        have hfuel' : rest.length ≤ fuel := by
          simp only [List.length_cons] at hfuel
          omega
        obtain ⟨hread, hleft, hrest⟩ := ih hgot hnd' hfuel'
        refine ⟨by rw [hread]; rfl, ?_, fun other hne => (hrest other hne).trans (hother other hne)⟩
        rw [hleft]
        cases rest <;> simp [everyOther]

theorem drain_open (fuel : Nat) {s : State} {c : ChannelId} {entry : Channel} (hget : s.channels[c]? = some entry)
    (hopen : entry.retired = false) (n : Nat) (hfuel : entry.pending.length ≤ n + fuel) :
    drain fuel s ⟨c, n⟩ = entry.pending.drop n := by
  induction fuel generalizing n with
  | zero => exact (List.drop_of_length_le hfuel).symm
  | succ fuel ih =>
    have hnext := nextDelivery_open hget hopen n
    by_cases hlt : n < entry.pending.length
    · rw [List.getElem?_eq_getElem hlt] at hnext
      simp only [drain, hnext]
      rw [ih (n + 1) (by omega), ← List.drop_eq_getElem_cons hlt]
    · rw [List.getElem?_eq_none (Nat.le_of_not_lt hlt)] at hnext
      simp only [drain, hnext]
      exact (List.drop_of_length_le (Nat.le_of_not_lt hlt)).symm

theorem ackAll_open (deliveries : List Delivery) {s : State} {c : ChannelId} {entry : Channel}
    (hget : s.channels[c]? = some entry) (hopen : entry.retired = false) :
    (ackAll s c deliveries).pendingOn c = entry.pending.filter fun m => m.id ∉ deliveries.map Delivery.id := by
  induction deliveries generalizing s entry with
  | nil =>
    rw [ackAll, List.foldl_nil, pendingOn_of_get hget]
    simp
  | cons d deliveries ih =>
    show (ackAll (s.ack c d.id).2 c deliveries).pendingOn c = _
    rw [ack_open hget hopen]
    have hgot := put_get s c { entry with pending := entry.pending.filter fun m => m.id ≠ d.id } c
    rw [if_pos rfl] at hgot
    rw [ih hgot hopen, List.filter_filter]
    congr 1
    funext m
    simp only [List.map_cons, List.mem_cons, not_or, Bool.decide_and, Bool.and_comm]

/-- After any calls, on an open channel: a reader that acknowledges each message before it pulls the next gets every
    other message and leaves the others waiting; one that reads all first gets all, and leaves none. -/
theorem consume_run (calls : List Call) {c : ChannelId} {sub : Subscription}
    (hsub : (run new calls).subscribe c = .ok sub) {fuel : Nat} (hfuel : ((run new calls).pendingOn c).length ≤ fuel) :
    ((consume fuel (run new calls) sub).1 = everyOther ((run new calls).pendingOn c) ∧
      (consume fuel (run new calls) sub).2.pendingOn c = everyOther ((run new calls).pendingOn c).tail) ∧
    drain fuel (run new calls) sub = (run new calls).pendingOn c ∧
    (ackAll (run new calls) c (drain fuel (run new calls) sub)).pendingOn c = [] := by
  unfold State.subscribe at hsub
  rcases withChannel_cases (run new calls) c with ⟨error, herr⟩ | ⟨entry, hget, hopen, hok⟩
  · rw [herr] at hsub
    cases hsub
  rw [hok] at hsub
  obtain rfl : ⟨c, 0⟩ = sub := Except.ok.inj hsub
  have hpending := pendingOn_of_get hget
  have hnd : (entry.pending.map Delivery.id).Nodup := by
    rw [← hpending]
    exact (acceptedOn_nodup c calls).sublist ((waiting_sublist c calls).map _)
  rw [hpending] at hfuel ⊢
  have hentry : (run new calls).channels[c]? = some ⟨[] ++ entry.pending, false⟩ := by
    rw [hget, ← hopen]
    rfl
  obtain ⟨hread, hleft, -⟩ := consume_open fuel hentry hnd hfuel
  have hdrain := drain_open fuel hget hopen 0 (by omega)
  rw [List.drop_zero] at hdrain
  refine ⟨⟨hread, hleft⟩, hdrain, ?_⟩
  rw [hdrain, ackAll_open _ hget hopen, List.filter_eq_nil_iff]
  intro m hm
  simpa using List.mem_map_of_mem hm

/-- Of three messages the second is left. -/
theorem consume_three :
    let calls : List Call := [.openChannel "c", .send "c" ⟨[1], .normal, none⟩ ⟨0⟩, .send "c" ⟨[2], .normal, none⟩ ⟨0⟩,
      .send "c" ⟨[3], .normal, none⟩ ⟨0⟩]
    (consume 3 (run new calls) ⟨"c", 0⟩).1.map Delivery.id = ["m1", "m3"] ∧
    (consume 3 (run new calls) ⟨"c", 0⟩).2.pendingOn "c" = everyOther ((run new calls).pendingOn "c").tail :=
  ⟨by decide +kernel, (consume_run [.openChannel "c", .send "c" ⟨[1], .normal, none⟩ ⟨0⟩,
    .send "c" ⟨[2], .normal, none⟩ ⟨0⟩, .send "c" ⟨[3], .normal, none⟩ ⟨0⟩]
    (show (run new _).subscribe "c" = .ok ⟨"c", 0⟩ from rfl) (show _ ≤ 3 by decide +kernel)).1.2⟩

end MemoryTransport

end Beacon
