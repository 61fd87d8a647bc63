/-
  Beacon.Transport.Clones — calls through clones of one transport, in any order of steps.

  A call alternates critical sections on the shared channel table with requests to the
  server; `Shared` keeps where each call is, and every section and every answered request is
  one event, so a list of events is an interleaving. A request that is answered with an error
  has done nothing, and no queue id is handed out twice (`Fresh`). With nothing else going on
  the sections of a call make up the functions of `Beacon.Transport.Sund` (`open_alone`,
  `rotate_alone`, `retire_alone`).
  - `clones_use_own_keys`: what any interleaving keeps, and what it keeps where no call is
    overtaken between two of its sections.
  - Two calls that open one channel make two queues, and only one is ever taken down
    (`two_opens_leave_a_queue`).
-/

import Mathlib.Logic.Function.Basic
import Beacon.Transport.Rotation
import Beacon.Lib.Trace

namespace Beacon

open Lib

namespace Clones

/-- What is done with what `recipient_id` and `recipient_key` read. -/
inductive Use where
  | receive
  | acknowledge (messages : List MessageId)
  deriving DecidableEq, Repr

inductive Call where
  | openChannel (channel : ChannelId)
  | rotateInbound (channel : ChannelId) (newRecipientSeed : Seed)
  | retire (channel : ChannelId)
  /-- `subscribe` and `acknowledge_all`. -/
  | drain (channel : ChannelId) (use : Use)
  deriving DecidableEq, Repr

/-- Where a call is, with its local variables: before a critical section, or at a request. -/
inductive Phase where
  | idle
  | openStart (channel : ChannelId)
  | openRequest (channel : ChannelId) (seed : Seed)
  | openInstall (channel : ChannelId) (seed : Seed) (ids : QueueIds)
  | rotateStart (channel : ChannelId) (newSeed : Seed)
  | rotateKey (channel : ChannelId) (newSeed : Seed) (previous : QueueIds)
  | rotateRetire (channel : ChannelId) (newSeed : Seed) (previous : QueueIds) (key : QueueKey)
  -- the code has done with `previous` by now; it is kept for what is said about it
  | rotateRequest (channel : ChannelId) (newSeed : Seed) (previous : Option QueueIds)
  | rotateInstall (channel : ChannelId) (newSeed : Seed) (previous : Option QueueIds) (ids : QueueIds)
  | retireStart (channel : ChannelId)
  | retireKey (channel : ChannelId) (inbound : QueueIds)
  | retireRequest (channel : ChannelId) (inbound : QueueIds) (key : QueueKey)
  | retireMark (channel : ChannelId) (inbound : Option QueueIds)
  | drainStart (channel : ChannelId) (use : Use)
  | drainKey (channel : ChannelId) (use : Use) (recipientId : String)
  | drainRequest (channel : ChannelId) (use : Use) (recipientId : String) (key : QueueKey)

def Call.start : Call → Phase
  | openChannel channel => .openStart channel
  | rotateInbound channel newSeed => .rotateStart channel newSeed
  | retire channel => .retireStart channel
  | drain channel use => .drainStart channel use

/-- A queue, the channel it was created for and the key it was created with. -/
structure Made where
  channel : ChannelId
  ids : QueueIds
  key : QueueKey
  deriving DecidableEq

/-- A receive, acknowledge or retire request. -/
structure Signed where
  recipientId : String
  key : QueueKey
  deriving DecidableEq

structure Shared where
  transport : SundTransport
  calls : Nat → Phase
  made : List Made
  /-- Queues an `open` had no use for when it came back with them. -/
  unused : List QueueIds
  /-- Queues taken down on the server. -/
  gone : List String
  requests : List Signed
  returned : List (Call × Except TransportError (Option QueueIds))

inductive Event where
  | call (i : Nat) (call : Call)
  /-- The next critical section of call `i`. -/
  | enter (i : Nat)
  /-- The answer to its request for a queue. -/
  | created (i : Nat) (answer : Except SundError QueueIds)
  /-- The answer to any other request. -/
  | answered (i : Nat) (answer : Except SundError Unit)

namespace Shared

def goto (s : Shared) (i : Nat) (phase : Phase) : Shared := { s with calls := Function.update s.calls i phase }

def finish (s : Shared) (i : Nat) (call : Call) (result : Except TransportError (Option QueueIds)) : Shared :=
  { s.goto i .idle with returned := s.returned ++ [(call, result)] }

def put (s : Shared) (record : ChannelRecord) : Shared := { s with transport := s.transport.put record }

def make (s : Shared) (channel : ChannelId) (ids : QueueIds) (seed : Seed) : Shared :=
  { s with made := s.made ++ [⟨channel, ids, ⟨seed⟩⟩] }

/-- The queue was created with this key. -/
def owns (s : Shared) (recipientId : String) (key : QueueKey) : Bool :=
  s.made.any fun made => made.ids.recipientId == recipientId && made.key == key

def sign (s : Shared) (recipientId : String) (key : QueueKey) : Shared :=
  { s with requests := s.requests ++ [⟨recipientId, key⟩] }

/-- No other key takes a queue down, whatever the answer. -/
def takeDown (s : Shared) (recipientId : String) (key : QueueKey) : Shared :=
  { s with gone := if s.owns recipientId key then s.gone ++ [recipientId] else s.gone }

/-! ### The critical sections -/

/-- `recipient_key`, for a call that goes on with the key. -/
def readKey (s : Shared) (i : Nat) (channel : ChannelId) (call : Call) (next : QueueKey → Phase) : Shared :=
  match s.transport.recipientKey channel with
  | .error error => s.finish i call (.error error)
  | .ok key => s.goto i (next key)

def openStart (s : Shared) (i : Nat) (channel : ChannelId) : Shared :=
  match s.transport.live channel with
  | .error error => s.finish i (.openChannel channel) (.error error)
  | .ok record =>
    if record.inbound.isSome then s.finish i (.openChannel channel) (.ok none)
    else s.goto i (.openRequest channel record.recipientSeed)

/-- The first result wins, and the queue this one created is simply never used. -/
def openInstall (s : Shared) (i : Nat) (channel : ChannelId) (ids : QueueIds) : Shared :=
  match s.transport.live channel with
  | .error error => s.finish i (.openChannel channel) (.error error)
  | .ok record =>
    match record.inbound with
    | none => (s.put { record with inbound := some ids }).finish i (.openChannel channel) (.ok none)
    | some _ => { s with unused := s.unused ++ [ids] }.finish i (.openChannel channel) (.ok none)

def rotateStart (s : Shared) (i : Nat) (channel : ChannelId) (newSeed : Seed) : Shared :=
  match s.transport.live channel with
  | .error error => s.finish i (.rotateInbound channel newSeed) (.error error)
  | .ok record =>
    match record.inbound with
    | none => s.goto i (.rotateRequest channel newSeed none)
    | some previous => s.goto i (.rotateKey channel newSeed previous)

def rotateInstall (s : Shared) (i : Nat) (channel : ChannelId) (newSeed : Seed) (ids : QueueIds) : Shared :=
  match s.transport.live channel with
  | .error error => s.finish i (.rotateInbound channel newSeed) (.error error)
  | .ok record =>
    (s.put { record with recipientSeed := newSeed, inbound := some ids }).finish i (.rotateInbound channel newSeed)
      (.ok (some ids))

def retireStart (s : Shared) (i : Nat) (channel : ChannelId) : Shared :=
  match s.transport.live channel with
  | .error error => s.finish i (.retire channel) (.error error)
  | .ok record =>
    match record.inbound with
    | none => s.goto i (.retireMark channel none)
    | some inbound => s.goto i (.retireKey channel inbound)

def retireMark (s : Shared) (i : Nat) (channel : ChannelId) : Shared :=
  match s.transport.channels.get? channel with
  | none => s.finish i (.retire channel) (.error (.unknownChannel channel))
  | some record => (s.put { record with retired := true }).finish i (.retire channel) (.ok none)

/-- `acknowledge_all` makes no request for no messages. -/
def drainStart (s : Shared) (i : Nat) (channel : ChannelId) (use : Use) : Shared :=
  if use = .acknowledge [] then s.finish i (.drain channel use) (.ok none)
  else
    match s.transport.recipientId channel with
    | .error error => s.finish i (.drain channel use) (.error error)
    | .ok recipientId => s.goto i (.drainKey channel use recipientId)

def enter (s : Shared) (i : Nat) : Shared :=
  match s.calls i with
  | .openStart channel => s.openStart i channel
  | .openInstall channel _ ids => s.openInstall i channel ids
  | .rotateStart channel newSeed => s.rotateStart i channel newSeed
  | .rotateKey channel newSeed previous =>
    s.readKey i channel (.rotateInbound channel newSeed) (.rotateRetire channel newSeed previous)
  | .rotateInstall channel newSeed _ ids => s.rotateInstall i channel newSeed ids
  | .retireStart channel => s.retireStart i channel
  | .retireKey channel inbound => s.readKey i channel (.retire channel) (.retireRequest channel inbound)
  | .retireMark channel _ => s.retireMark i channel
  | .drainStart channel use => s.drainStart i channel use
  | .drainKey channel use recipientId =>
    s.readKey i channel (.drain channel use) (.drainRequest channel use recipientId)
  | _ => s

/-! ### The requests -/

def created (s : Shared) (i : Nat) (answer : Except SundError QueueIds) : Shared :=
  match s.calls i with
  | .openRequest channel seed =>
    match answer with
    | .error error => s.finish i (.openChannel channel) (.error (backend error))
    | .ok ids => (s.make channel ids seed).goto i (.openInstall channel seed ids)
  | .rotateRequest channel newSeed previous =>
    match answer with
    | .error error => s.finish i (.rotateInbound channel newSeed) (.error (backend error))
    | .ok ids => (s.make channel ids newSeed).goto i (.rotateInstall channel newSeed previous ids)
  | _ => s

def answered (s : Shared) (i : Nat) (answer : Except SundError Unit) : Shared :=
  match s.calls i with
  | .rotateRetire channel newSeed previous key =>
    match answer with
    | .ok () | .error .notFound =>
      ((s.sign previous.recipientId key).takeDown previous.recipientId key).goto i
        (.rotateRequest channel newSeed (some previous))
    | .error error =>
      (s.sign previous.recipientId key).finish i (.rotateInbound channel newSeed) (.error (backend error))
  | .retireRequest channel inbound key =>
    match answer with
    | .ok () | .error .notFound =>
      ((s.sign inbound.recipientId key).takeDown inbound.recipientId key).goto i (.retireMark channel (some inbound))
    | .error error => (s.sign inbound.recipientId key).finish i (.retire channel) (.error (backend error))
  | .drainRequest channel use recipientId key =>
    match answer with
    | .ok () => (s.sign recipientId key).finish i (.drain channel use) (.ok none)
    | .error error =>
      (s.sign recipientId key).finish i (.drain channel use) (.error (channelError channel error))
  | _ => s

def step (s : Shared) : Event → Shared
  | .call i call =>
    match s.calls i with
    | .idle => s.goto i call.start
    | _ => s
  | .enter i => s.enter i
  | .created i answer => s.created i answer
  | .answered i answer => s.answered i answer

abbrev run (s : Shared) (events : List Event) : Shared := Trace.run step s events

/-! ### What a step does -/

theorem calls_goto (s : Shared) (i : Nat) (phase : Phase) (j : Nat) :
    (s.goto i phase).calls j = if j = i then phase else s.calls j :=
  Function.update_apply ..

theorem calls_finish (s : Shared) (i : Nat) (call : Call) (result : Except TransportError (Option QueueIds)) (j : Nat) :
    (s.finish i call result).calls j = if j = i then .idle else s.calls j :=
  Function.update_apply ..

/-- Where a call goes on to when it has only read the table. -/
inductive Reads (s : Shared) : Phase → Phase → Prop
  | openStart {channel : ChannelId} {record : ChannelRecord} : s.transport.live channel = .ok record →
      record.inbound = none → Reads s (.openStart channel) (.openRequest channel record.recipientSeed)
  | rotateUnopened {channel : ChannelId} {newSeed : Seed} {record : ChannelRecord} :
      s.transport.live channel = .ok record → record.inbound = none →
      Reads s (.rotateStart channel newSeed) (.rotateRequest channel newSeed none)
  | rotateStart {channel : ChannelId} {newSeed : Seed} {record : ChannelRecord} {previous : QueueIds} :
      s.transport.live channel = .ok record → record.inbound = some previous →
      Reads s (.rotateStart channel newSeed) (.rotateKey channel newSeed previous)
  | rotateKey {channel : ChannelId} {newSeed : Seed} {previous : QueueIds} {record : ChannelRecord} :
      s.transport.channels.get? channel = some record →
      Reads s (.rotateKey channel newSeed previous) (.rotateRetire channel newSeed previous ⟨record.recipientSeed⟩)
  | retireUnopened {channel : ChannelId} {record : ChannelRecord} : s.transport.live channel = .ok record →
      record.inbound = none → Reads s (.retireStart channel) (.retireMark channel none)
  | retireStart {channel : ChannelId} {record : ChannelRecord} {inbound : QueueIds} :
      s.transport.live channel = .ok record → record.inbound = some inbound →
      Reads s (.retireStart channel) (.retireKey channel inbound)
  | retireKey {channel : ChannelId} {inbound : QueueIds} {record : ChannelRecord} :
      s.transport.channels.get? channel = some record →
      Reads s (.retireKey channel inbound) (.retireRequest channel inbound ⟨record.recipientSeed⟩)
  | drainStart {channel : ChannelId} {use : Use} {recipientId : String} :
      s.transport.recipientId channel = .ok recipientId →
      Reads s (.drainStart channel use) (.drainKey channel use recipientId)
  | drainKey {channel : ChannelId} {use : Use} {recipientId : String} {record : ChannelRecord} :
      s.transport.channels.get? channel = some record →
      Reads s (.drainKey channel use recipientId) (.drainRequest channel use recipientId ⟨record.recipientSeed⟩)

end Shared

/-- A queue the server made for the call, and the call is still to install. -/
def Phase.installs : Phase → Option (ChannelId × QueueIds)
  | openInstall channel _ ids => some (channel, ids)
  | rotateInstall channel _ _ ids => some (channel, ids)
  | _ => none

/-- The queue, and the key it would be retired or drained with. -/
def Phase.signs : Phase → Option (String × QueueKey)
  | rotateRetire _ _ previous key => some (previous.recipientId, key)
  | retireRequest _ inbound key => some (inbound.recipientId, key)
  | drainRequest _ _ recipientId key => some (recipientId, key)
  | _ => none

/-- The queue whose key the call reads next. -/
def Phase.held : Phase → Option (ChannelId × String)
  | rotateKey channel _ previous => some (channel, previous.recipientId)
  | retireKey channel inbound => some (channel, inbound.recipientId)
  | drainKey channel _ recipientId => some (channel, recipientId)
  | _ => none

/-- The queue the call has had retired. -/
def Phase.retired : Phase → Option QueueIds
  | rotateRequest _ _ previous => previous
  | rotateInstall _ _ previous _ => previous
  | retireMark _ inbound => inbound
  | _ => none

namespace Shared

/-- Nothing comes of the event but a read, an end, a request or a change to one record. -/
inductive Steps (s : Shared) : Event → Shared → Prop
  | still (event : Event) : Steps s event s
  | called (i : Nat) (call : Call) : s.calls i = .idle → Steps s (.call i call) (s.goto i call.start)
  | reads (i : Nat) {phase : Phase} : s.Reads (s.calls i) phase → Steps s (.enter i) (s.goto i phase)
  /-- The call ends, and has found nothing to install its queue in if it has one. -/
  | ends (i : Nat) (call : Call) (result : Except TransportError (Option QueueIds)) :
      (∀ channel ids, (s.calls i).installs = some (channel, ids) → (s.transport.live channel).isOk = false) →
      (∀ channel, call = .retire channel → result.isOk = false) → Steps s (.enter i) (s.finish i call result)
  | createdForOpen {i : Nat} {channel : ChannelId} {seed : Seed} (ids : QueueIds) :
      s.calls i = .openRequest channel seed →
      Steps s (.created i (.ok ids)) ((s.make channel ids seed).goto i (.openInstall channel seed ids))
  | createdForRotation {i : Nat} {channel : ChannelId} {newSeed : Seed} {previous : Option QueueIds} (ids : QueueIds) :
      s.calls i = .rotateRequest channel newSeed previous →
      Steps s (.created i (.ok ids)) ((s.make channel ids newSeed).goto i (.rotateInstall channel newSeed previous ids))
  | createRefused (i : Nat) (call : Call) (error : TransportError) (answer : Except SundError QueueIds) :
      (s.calls i).installs = none → Steps s (.created i answer) (s.finish i call (.error error))
  | retired {i : Nat} {ids : QueueIds} {key : QueueKey} {phase : Phase} (answer : Except SundError Unit) :
      (s.calls i).signs = some (ids.recipientId, key) → phase.installs = none → phase.signs = none →
      phase.retired = some ids → Steps s (.answered i answer)
        (((s.sign ids.recipientId key).takeDown ids.recipientId key).goto i phase)
  | answered {i : Nat} {recipientId : String} {key : QueueKey} (call : Call)
      (result : Except TransportError (Option QueueIds)) (answer : Except SundError Unit) :
      (s.calls i).signs = some (recipientId, key) → (∀ channel, call = .retire channel → result.isOk = false) →
      Steps s (.answered i answer) ((s.sign recipientId key).finish i call result)
  | opened {i : Nat} {channel : ChannelId} {seed : Seed} {ids : QueueIds} {record : ChannelRecord} :
      s.calls i = .openInstall channel seed ids → s.transport.live channel = .ok record → record.inbound = none →
      Steps s (.enter i) ((s.put { record with inbound := some ids }).finish i (.openChannel channel) (.ok none))
  | openedElsewhere {i : Nat} {channel : ChannelId} {seed : Seed} {ids : QueueIds} :
      s.calls i = .openInstall channel seed ids →
      Steps s (.enter i) ({ s with unused := s.unused ++ [ids] }.finish i (.openChannel channel) (.ok none))
  | rotated {i : Nat} {channel : ChannelId} {newSeed : Seed} {previous : Option QueueIds} {ids : QueueIds}
      {record : ChannelRecord} : s.calls i = .rotateInstall channel newSeed previous ids →
      s.transport.live channel = .ok record →
      Steps s (.enter i) ((s.put { record with recipientSeed := newSeed, inbound := some ids }).finish i
        (.rotateInbound channel newSeed) (.ok (some ids)))
  | marked {i : Nat} {channel : ChannelId} {inbound : Option QueueIds} {record : ChannelRecord} :
      s.calls i = .retireMark channel inbound → s.transport.channels.get? channel = some record →
      Steps s (.enter i) ((s.put { record with retired := true }).finish i (.retire channel) (.ok none))

theorem steps_readKey (s : Shared) (i : Nat) (channel : ChannelId) (call : Call) (next : QueueKey → Phase)
    (hnext : ∀ record, s.transport.channels.get? channel = some record →
      s.Reads (s.calls i) (next ⟨record.recipientSeed⟩)) (hinstalls : (s.calls i).installs = none) :
    s.Steps (.enter i) (s.readKey i channel call next) := by
  unfold readKey SundTransport.recipientKey
  cases hget : s.transport.channels.get? channel with
  | none => exact .ends i call _ (by simp [hinstalls]) (fun _ _ => rfl)
  | some record => exact .reads i (hnext record hget)

theorem steps_enter (s : Shared) (i : Nat) : s.Steps (.enter i) (s.enter i) := by
  unfold enter
  cases hphase : s.calls i with
  | openStart channel =>
    have hends := fun result h => Steps.ends (s := s) i (.openChannel channel) result
      (by simp [hphase, Phase.installs]) h
    simp only [openStart]
    cases hrecord : s.transport.live channel with
    | error error => exact hends _ (by simp)
    | ok record =>
      simp only []
      cases hinbound : record.inbound with
      | some ids => exact hends _ (by simp)
      | none => exact .reads i (hphase ▸ Reads.openStart hrecord hinbound)
  | openInstall channel seed ids =>
    simp only [openInstall]
    cases hrecord : s.transport.live channel with
    | error error =>
      refine .ends i _ _ (fun _ _ h => ?_) (by simp)
      rw [hphase] at h
      cases h
      rw [hrecord]
      rfl
    | ok record =>
      simp only []
      cases hinbound : record.inbound with
      | none => exact .opened hphase hrecord hinbound
      | some _ => exact .openedElsewhere hphase
  | rotateStart channel newSeed =>
    simp only [rotateStart]
    cases hrecord : s.transport.live channel with
    | error error => exact .ends i _ _ (by simp [hphase, Phase.installs]) (by simp)
    | ok record =>
      simp only []
      cases hinbound : record.inbound with
      | none => exact .reads i (hphase ▸ Reads.rotateUnopened hrecord hinbound)
      | some previous => exact .reads i (hphase ▸ Reads.rotateStart hrecord hinbound)
  | rotateKey channel newSeed previous =>
    exact s.steps_readKey i channel _ _ (fun record h => hphase ▸ Reads.rotateKey h) (by simp [hphase, Phase.installs])
  | rotateInstall channel newSeed previous ids =>
    simp only [rotateInstall]
    cases hrecord : s.transport.live channel with
    | error error =>
      refine .ends i _ _ (fun _ _ h => ?_) (by simp)
      rw [hphase] at h
      cases h
      rw [hrecord]
      rfl
    | ok record => exact .rotated hphase hrecord
  | retireStart channel =>
    simp only [retireStart]
    cases hrecord : s.transport.live channel with
    | error error => exact .ends i _ _ (by simp [hphase, Phase.installs]) (fun _ _ => rfl)
    | ok record =>
      simp only []
      cases hinbound : record.inbound with
      | none => exact .reads i (hphase ▸ Reads.retireUnopened hrecord hinbound)
      | some inbound => exact .reads i (hphase ▸ Reads.retireStart hrecord hinbound)
  | retireKey channel inbound =>
    exact s.steps_readKey i channel _ _ (fun record h => hphase ▸ Reads.retireKey h) (by simp [hphase, Phase.installs])
  | retireMark channel inbound =>
    simp only [retireMark]
    cases hget : s.transport.channels.get? channel with
    | none => exact .ends i _ _ (by simp [hphase, Phase.installs]) (fun _ _ => rfl)
    | some record => exact .marked hphase hget
  | drainStart channel use =>
    simp only [drainStart]
    split
    · exact .ends i _ _ (by simp [hphase, Phase.installs]) (by simp)
    · cases hid : s.transport.recipientId channel with
      | error error => exact .ends i _ _ (by simp [hphase, Phase.installs]) (by simp)
      | ok recipientId => exact .reads i (hphase ▸ Reads.drainStart hid)
  | drainKey channel use recipientId =>
    exact s.steps_readKey i channel _ _ (fun record h => hphase ▸ Reads.drainKey h) (by simp [hphase, Phase.installs])
  | _ => exact .still _

theorem steps_step (s : Shared) (event : Event) : s.Steps event (s.step event) := by
  cases event with
  | call i call =>
    simp only [step]
    cases hphase : s.calls i with
    | idle => exact .called i call hphase
    | _ => exact .still _
  | enter i => exact s.steps_enter i
  | created i answer =>
    show s.Steps _ (s.created i answer)
    unfold created
    cases hphase : s.calls i with
    | openRequest channel seed =>
      cases answer with
      | error error => exact .createRefused i _ _ _ (by simp [hphase, Phase.installs])
      | ok ids => exact .createdForOpen ids hphase
    | rotateRequest channel newSeed previous =>
      cases answer with
      | error error => exact .createRefused i _ _ _ (by simp [hphase, Phase.installs])
      | ok ids => exact .createdForRotation ids hphase
    | _ => exact .still _
  | answered i answer =>
    show s.Steps _ (s.answered i answer)
    unfold answered
    cases hphase : s.calls i with
    | rotateRetire channel newSeed previous key =>
      have hsigns : (s.calls i).signs = some (previous.recipientId, key) := by rw [hphase]; rfl
      simp only []
      split
      · exact .retired _ hsigns rfl rfl rfl
      · exact .retired _ hsigns rfl rfl rfl
      · exact .answered _ _ _ hsigns (by simp)
    | retireRequest channel inbound key =>
      have hsigns : (s.calls i).signs = some (inbound.recipientId, key) := by rw [hphase]; rfl
      simp only []
      split
      · exact .retired _ hsigns rfl rfl rfl
      · exact .retired _ hsigns rfl rfl rfl
      · exact .answered _ _ _ hsigns (fun _ _ => rfl)
    | drainRequest channel use recipientId key =>
      have hsigns : (s.calls i).signs = some (recipientId, key) := by rw [hphase]; rfl
      cases answer with
      | ok => exact .answered _ _ _ hsigns (by simp)
      | error error => exact .answered _ _ _ hsigns (by simp)
    | _ => exact .still _

theorem Reads.no_install {s : Shared} {phase phase' : Phase} (h : s.Reads phase phase') :
    phase.installs = none ∧ phase'.installs = none ∧ phase'.retired = none := by
  cases h <;> exact ⟨rfl, rfl, rfl⟩

theorem forall_calls_goto {s : Shared} {i : Nat} {phase : Phase} {P : Phase → Prop} (hphase : P phase)
    (h : ∀ j, P (s.calls j)) (j : Nat) : P ((s.goto i phase).calls j) := by
  rw [calls_goto]
  split
  · exact hphase
  · exact h j

/-! ## A call on its own -/

section Alone

variable {σ : Type} (S : SundServer σ) (server : σ) {s : Shared} {i : Nat}

/-- The call is over and has left this table and this result. -/
def Returns (s s' : Shared) (i : Nat) (call : Call) (t : SundTransport)
    (result : Except TransportError (Option QueueIds)) : Prop :=
  s'.calls i = .idle ∧ s'.transport = t ∧ s'.returned = s.returned ++ [(call, result)]

theorem step_call (hidle : s.calls i = .idle) (call : Call) : s.step (.call i call) = s.goto i call.start := by
  simp only [step, hidle]

@[simp] theorem calls_goto_self (s : Shared) (i : Nat) (phase : Phase) : (s.goto i phase).calls i = phase :=
  Function.update_self ..

@[simp] theorem calls_finish_self (s : Shared) (i : Nat) (call : Call)
    (result : Except TransportError (Option QueueIds)) : (s.finish i call result).calls i = .idle :=
  Function.update_self ..

@[simp] theorem transport_goto (s : Shared) (i : Nat) (phase : Phase) : (s.goto i phase).transport = s.transport := rfl

theorem returns_finish {s s' : Shared} {i : Nat} {call : Call} {t : SundTransport}
    {result : Except TransportError (Option QueueIds)} (ht : s'.transport = t) (hreturned : s'.returned = s.returned) :
    s.Returns (s'.finish i call result) i call t result :=
  ⟨calls_finish_self .., ht, by rw [← hreturned]; rfl⟩

theorem open_alone (hidle : s.calls i = .idle) (channel : ChannelId) :
    ∃ events, s.Returns (s.run (.call i (.openChannel channel) :: events)) i (.openChannel channel)
      (s.transport.openChannel S server channel).2.1
      ((s.transport.openChannel S server channel).1.map fun _ => none) := by
  simp only [run, Trace.run_cons, step_call hidle, Call.start]
  unfold SundTransport.openChannel
  cases hrecord : s.transport.live channel with
  | error error =>
    refine ⟨[.enter i], ?_⟩
    simp only [Trace.run_cons, Trace.run_nil, step, enter, calls_goto_self, openStart, transport_goto, hrecord]
    exact returns_finish rfl rfl
  | ok record =>
    cases hinbound : record.inbound with
    | some ids =>
      refine ⟨[.enter i], ?_⟩
      simp only [Trace.run_cons, Trace.run_nil, step, enter, calls_goto_self, openStart, transport_goto, hrecord,
        hinbound, Option.isSome_some, if_true]
      exact returns_finish rfl rfl
    | none =>
      simp only [hinbound, Option.isSome_none, Bool.false_eq_true, if_false]
      rcases hcreate : S.createQueue server ⟨record.recipientSeed⟩ with ⟨error | ids, server'⟩
      · refine ⟨[.enter i, .created i (.error error)], ?_⟩
        simp only [Trace.run_cons, Trace.run_nil, step, enter, created, calls_goto_self, openStart, transport_goto,
          hrecord, hinbound, Option.isSome_none, Bool.false_eq_true, if_false]
        exact returns_finish rfl rfl
      · refine ⟨[.enter i, .created i (.ok ids), .enter i], ?_⟩
        simp only [Trace.run_cons, Trace.run_nil, step, enter, created, calls_goto_self, openStart, openInstall, make,
          transport_goto, hrecord, hinbound, Option.isSome_none, Bool.false_eq_true, if_false]
        exact returns_finish rfl rfl

theorem answered_rotateRetire {channel : ChannelId} {newSeed : Seed} {previous : QueueIds} {key : QueueKey}
    (hphase : s.calls i = .rotateRetire channel newSeed previous key) {answer : Except SundError Unit}
    (h : SundTransport.Retires answer) :
    s.answered i answer = ((s.sign previous.recipientId key).takeDown previous.recipientId key).goto i
      (.rotateRequest channel newSeed (some previous)) := by
  unfold answered
  rw [hphase]
  rcases h with rfl | rfl <;> rfl

theorem answered_rotateRetire_refused {channel : ChannelId} {newSeed : Seed} {previous : QueueIds} {key : QueueKey}
    (hphase : s.calls i = .rotateRetire channel newSeed previous key) {error : SundError} (h : error ≠ .notFound) :
    s.answered i (.error error) =
      (s.sign previous.recipientId key).finish i (.rotateInbound channel newSeed) (.error (backend error)) := by
  unfold answered
  rw [hphase]
  cases error with
  | notFound => exact absurd rfl h
  | _ => rfl

/-- From the request for another queue on. -/
theorem rotate_created {s₀ s' : Shared} {before : List Event} (hbefore : Trace.run step s₀ before = s')
    {channel : ChannelId} {newSeed : Seed} {previous : Option QueueIds}
    (hphase : s'.calls i = .rotateRequest channel newSeed previous) (hreturned : s'.returned = s.returned)
    {record : ChannelRecord} (hrecord : s'.transport.live channel = .ok record) (answer : Except SundError QueueIds) :
    ∃ events, match answer with
      | .error error => s.Returns (Trace.run step s₀ events) i (.rotateInbound channel newSeed) s'.transport
          (.error (backend error))
      | .ok ids => s.Returns (Trace.run step s₀ events) i (.rotateInbound channel newSeed)
          (s'.transport.put { record with recipientSeed := newSeed, inbound := some ids }) (.ok (some ids)) := by
  cases answer with
  | error error =>
    refine ⟨before ++ [.created i (.error error)], ?_⟩
    simp only [Trace.run_append, hbefore, Trace.run_cons, Trace.run_nil, step, created, hphase]
    exact returns_finish rfl hreturned
  | ok ids =>
    refine ⟨before ++ [.created i (.ok ids), .enter i], ?_⟩
    simp only [Trace.run_append, hbefore, Trace.run_cons, Trace.run_nil, step, created, hphase, enter, calls_goto_self,
      rotateInstall, make, transport_goto, hrecord]
    exact returns_finish rfl hreturned

theorem rotate_alone (hidle : s.calls i = .idle) (channel : ChannelId) (newSeed : Seed) :
    ∃ events, s.Returns (s.run (.call i (.rotateInbound channel newSeed) :: events)) i (.rotateInbound channel newSeed)
      (s.transport.rotateInbound S server channel newSeed).2.1
      ((s.transport.rotateInbound S server channel newSeed).1.map some) := by
  simp only [run, Trace.run_cons, step_call hidle, Call.start]
  unfold SundTransport.rotateInbound
  cases hrecord : s.transport.live channel with
  | error error =>
    refine ⟨[.enter i], ?_⟩
    simp only [Trace.run_cons, Trace.run_nil, step, enter, calls_goto_self, rotateStart, transport_goto, hrecord]
    exact returns_finish rfl rfl
  | ok record =>
    have hget := (SundTransport.live_ok hrecord).1
    simp only []
    cases hinbound : record.inbound with
    | none =>
      have hstart : Trace.run step (s.goto i (.rotateStart channel newSeed)) [.enter i] =
          (s.goto i (.rotateStart channel newSeed)).goto i (.rotateRequest channel newSeed none) := by
        simp only [Trace.run_cons, Trace.run_nil, step, enter, calls_goto_self, rotateStart, transport_goto, hrecord,
          hinbound]
      have hretire : SundTransport.retireInbound S server record = (.ok (), server) := by
        rw [SundTransport.retireInbound, hinbound]
      obtain ⟨events, h⟩ := rotate_created (s := s) hstart (calls_goto_self ..) rfl hrecord
        (S.createQueue server ⟨newSeed⟩).1
      simp only [hretire]
      rcases hcreate : S.createQueue server ⟨newSeed⟩ with ⟨error | ids, server'⟩
      · rw [hcreate] at h
        exact ⟨events, h⟩
      · rw [hcreate] at h
        exact ⟨events, h⟩
    | some previous =>
      obtain ⟨asking, hasking, hphase, htransport, hreturned⟩ : ∃ asking,
          Trace.run step (s.goto i (.rotateStart channel newSeed)) [.enter i, .enter i] = asking ∧
          asking.calls i = .rotateRetire channel newSeed previous ⟨record.recipientSeed⟩ ∧
          asking.transport = s.transport ∧ asking.returned = s.returned := by
        simp only [Trace.run_cons, Trace.run_nil, step, enter, calls_goto_self, rotateStart, readKey,
          SundTransport.recipientKey, transport_goto, hrecord, hinbound, hget]
        exact ⟨_, rfl, calls_goto_self .., rfl, rfl⟩
      rw [← htransport] at hrecord
      by_cases hretires :
          SundTransport.Retires (S.retireQueue server previous.recipientId ⟨record.recipientSeed⟩).1
      · rw [SundTransport.retireInbound_of_retires S hinbound hretires]
        generalize S.retireQueue server previous.recipientId ⟨record.recipientSeed⟩ = asked at hretires
        have hanswered : Trace.run step (s.goto i (.rotateStart channel newSeed))
            ([.enter i, .enter i] ++ [.answered i asked.1]) = asking.answered i asked.1 := by
          rw [Trace.run_append, hasking]
          rfl
        rw [answered_rotateRetire hphase hretires] at hanswered
        obtain ⟨events, h⟩ := rotate_created (s := s) hanswered (calls_goto_self ..) hreturned hrecord
          (S.createQueue asked.2 ⟨newSeed⟩).1
        simp only [← htransport]
        rcases hcreate : S.createQueue asked.2 ⟨newSeed⟩ with ⟨error | ids, server'⟩
        · rw [hcreate] at h
          exact ⟨events, h⟩
        · rw [hcreate] at h
          exact ⟨events, h⟩
      · obtain ⟨error, hanswer, hother, hretire⟩ := SundTransport.retireInbound_of_not_retires S hinbound hretires
        rw [hretire]
        refine ⟨[.enter i, .enter i] ++ [.answered i (.error error)], ?_⟩
        rw [Trace.run_append, hasking, Trace.run_cons, Trace.run_nil, step, answered_rotateRetire_refused hphase hother]
        exact returns_finish htransport hreturned

theorem answered_retireRequest {channel : ChannelId} {inbound : QueueIds} {key : QueueKey}
    (hphase : s.calls i = .retireRequest channel inbound key) {answer : Except SundError Unit}
    (h : SundTransport.Retires answer) :
    s.answered i answer = ((s.sign inbound.recipientId key).takeDown inbound.recipientId key).goto i
      (.retireMark channel (some inbound)) := by
  unfold answered
  rw [hphase]
  rcases h with rfl | rfl <;> rfl

theorem answered_retireRequest_refused {channel : ChannelId} {inbound : QueueIds} {key : QueueKey}
    (hphase : s.calls i = .retireRequest channel inbound key) {error : SundError} (h : error ≠ .notFound) :
    s.answered i (.error error) =
      (s.sign inbound.recipientId key).finish i (.retire channel) (.error (backend error)) := by
  unfold answered
  rw [hphase]
  cases error with
  | notFound => exact absurd rfl h
  | _ => rfl

theorem retire_alone (hidle : s.calls i = .idle) (channel : ChannelId) :
    ∃ events, s.Returns (s.run (.call i (.retire channel) :: events)) i (.retire channel)
      (s.transport.retire S server channel).2.1
      ((s.transport.retire S server channel).1.map fun _ => none) := by
  simp only [run, Trace.run_cons, step_call hidle, Call.start]
  unfold SundTransport.retire
  cases hrecord : s.transport.live channel with
  | error error =>
    refine ⟨[.enter i], ?_⟩
    simp only [Trace.run_cons, Trace.run_nil, step, enter, calls_goto_self, retireStart, transport_goto, hrecord]
    exact returns_finish rfl rfl
  | ok record =>
    have hget := (SundTransport.live_ok hrecord).1
    simp only []
    cases hinbound : record.inbound with
    | none =>
      have hretire : SundTransport.retireInbound S server record = (.ok (), server) := by
        rw [SundTransport.retireInbound, hinbound]
      refine ⟨[.enter i, .enter i], ?_⟩
      simp only [hretire, Trace.run_cons, Trace.run_nil, step, enter, calls_goto_self, retireStart, retireMark,
        transport_goto, hrecord, hinbound, hget]
      exact returns_finish rfl rfl
    | some inbound =>
      obtain ⟨asking, hasking, hphase, htransport, hreturned⟩ : ∃ asking,
          Trace.run step (s.goto i (.retireStart channel)) [.enter i, .enter i] = asking ∧
          asking.calls i = .retireRequest channel inbound ⟨record.recipientSeed⟩ ∧
          asking.transport = s.transport ∧ asking.returned = s.returned := by
        simp only [Trace.run_cons, Trace.run_nil, step, enter, calls_goto_self, retireStart, readKey,
          SundTransport.recipientKey, transport_goto, hrecord, hinbound, hget]
        exact ⟨_, rfl, calls_goto_self .., rfl, rfl⟩
      by_cases hretires : SundTransport.Retires (S.retireQueue server inbound.recipientId ⟨record.recipientSeed⟩).1
      · rw [SundTransport.retireInbound_of_retires S hinbound hretires]
        refine ⟨[.enter i, .enter i] ++
          [.answered i (S.retireQueue server inbound.recipientId ⟨record.recipientSeed⟩).1, .enter i], ?_⟩
        rw [Trace.run_append, hasking]
        simp only [Trace.run_cons, Trace.run_nil, step, answered_retireRequest hphase hretires, enter, calls_goto_self,
          retireMark, transport_goto, sign, takeDown, htransport, hget]
        exact returns_finish (by rw [← hinbound]; rfl) hreturned
      · obtain ⟨error, hanswer, hother, hretire⟩ := SundTransport.retireInbound_of_not_retires S hinbound hretires
        rw [hretire]
        refine ⟨[.enter i, .enter i] ++ [.answered i (.error error)], ?_⟩
        rw [Trace.run_append, hasking, Trace.run_cons, Trace.run_nil, step,
          answered_retireRequest_refused hphase hother]
        exact returns_finish htransport hreturned

/-- `subscribe` and `acknowledge_all` come to the queue on record with the key on record. -/
theorem drain_alone (hidle : s.calls i = .idle) (channel : ChannelId) {use : Use} (huse : use ≠ .acknowledge [])
    {recipientId : String} {key : QueueKey} (h : s.transport.drains channel = .ok (recipientId, key)) :
    (s.run [.call i (.drain channel use), .enter i, .enter i]).calls i = .drainRequest channel use recipientId key := by
  unfold SundTransport.drains at h
  cases hid : s.transport.recipientId channel with
  | error error =>
    rw [hid] at h
    cases h
  | ok id =>
    cases hkey : s.transport.recipientKey channel with
    | error error =>
      rw [hid, hkey] at h
      cases h
    | ok own =>
      rw [hid, hkey] at h
      cases h
      simp only [run, Trace.run_cons, Trace.run_nil, step_call hidle, Call.start]
      simp only [step, enter, calls_goto_self, drainStart, if_neg huse, transport_goto, hid, readKey, hkey]

end Alone

/-! ## The stored queue and the stored seed -/

/-- The inbound queue stored for a channel was created for it under the stored recipient seed. -/
def StoredUnderSeed (s : Shared) : Prop :=
  ∀ channel record ids, s.transport.channels.get? channel = some record → record.inbound = some ids →
    ⟨channel, ids, ⟨record.recipientSeed⟩⟩ ∈ s.made

/-- The seed of the channel as long as it is not opened. -/
def Awaits (s : Shared) (channel : ChannelId) (seed : Seed) : Prop :=
  ∀ record, s.transport.channels.get? channel = some record → record.inbound = none → record.recipientSeed = seed

/-- A queue that is to be installed was created under the seed that will be on record then. -/
def Sound (s : Shared) : Phase → Prop
  | .openRequest channel seed => s.Awaits channel seed
  | .openInstall channel seed ids => s.Awaits channel seed ∧ ⟨channel, ids, ⟨seed⟩⟩ ∈ s.made
  | .rotateInstall channel newSeed _ ids => ⟨channel, ids, ⟨newSeed⟩⟩ ∈ s.made
  | _ => True

structure Stores (s : Shared) : Prop where
  stored : s.StoredUnderSeed
  sound : ∀ i, s.Sound (s.calls i)

theorem sound_mono (s s' : Shared) (hawaits : ∀ channel seed, s.Awaits channel seed → s'.Awaits channel seed)
    (hmade : s.made ⊆ s'.made) {phase : Phase} (h : s.Sound phase) : s'.Sound phase := by
  cases phase with
  | openRequest channel seed => exact hawaits _ _ h
  | openInstall channel seed ids => exact ⟨hawaits _ _ h.1, hmade h.2⟩
  | rotateInstall channel newSeed previous ids => exact hmade h
  | _ => trivial

/-- A section that ends the call with a record that has a queue, or that keeps queue and seed. -/
theorem Stores.put {s : Shared} (hs : s.Stores) {record : ChannelRecord} (i : Nat) (call : Call)
    (result : Except TransportError (Option QueueIds))
    (hqueue : ∀ ids, record.inbound = some ids → ⟨record.channel, ids, ⟨record.recipientSeed⟩⟩ ∈ s.made)
    (hseed : record.inbound = none → ∃ was, s.transport.channels.get? record.channel = some was ∧
      was.inbound = none ∧ was.recipientSeed = record.recipientSeed) :
    ((s.put record).finish i call result).Stores := by
  have hget := fun channel => SundTransport.get?_put s.transport record channel
  refine ⟨fun channel found ids hfound hinbound => ?_, ?_⟩
  · rw [show ((s.put record).finish i call result).transport.channels.get? channel = _ from hget channel] at hfound
    split at hfound
    next heq =>
      cases hfound
      exact heq ▸ hqueue ids hinbound
    next => exact hs.stored channel found ids hfound hinbound
  · refine forall_calls_goto trivial fun j => ?_
    refine sound_mono s ((s.put record).finish i call result) (fun channel seed h found hfound hnone => ?_)
      (fun _ => id) (hs.sound j)
    rw [show ((s.put record).finish i call result).transport.channels.get? channel = _ from hget channel] at hfound
    split at hfound
    next heq =>
      cases hfound
      obtain ⟨was, hwas, hinbound, hsame⟩ := hseed hnone
      exact hsame ▸ h was (heq ▸ hwas) hinbound
    next => exact h found hfound hnone

theorem Stores.make {s : Shared} (hs : s.Stores) (channel : ChannelId) (ids : QueueIds) (seed : Seed) :
    (s.make channel ids seed).Stores :=
  ⟨fun c record ids hget hinbound => List.mem_append_left _ (hs.stored c record ids hget hinbound),
    fun i => sound_mono s (s.make channel ids seed) (fun _ _ => id) (List.subset_append_left _ _) (hs.sound i)⟩

theorem Stores.goto {s : Shared} (hs : s.Stores) (i : Nat) {phase : Phase} (h : s.Sound phase) :
    (s.goto i phase).Stores :=
  ⟨hs.stored, forall_calls_goto (P := s.Sound) h hs.sound⟩

theorem Stores.finish {s : Shared} (hs : s.Stores) (i : Nat) (call : Call)
    (result : Except TransportError (Option QueueIds)) : (s.finish i call result).Stores :=
  ⟨hs.stored, forall_calls_goto (P := s.Sound) trivial hs.sound⟩

theorem Reads.sound {s : Shared} {phase phase' : Phase} (h : s.Reads phase phase') : s.Sound phase' := by
  cases h with
  | openStart hlive hinbound =>
    intro record hget _
    rw [(SundTransport.live_ok hlive).1, Option.some.injEq] at hget
    rw [hget]
  | _ => trivial

theorem stores_step {s : Shared} (hs : s.Stores) (event : Event) : (s.step event).Stores := by
  have h := s.steps_step event
  generalize s.step event = s' at h ⊢
  cases h with
  | still => exact hs
  | called i call => exact hs.goto i (by cases call <;> trivial)
  | reads i hreads => exact hs.goto i hreads.sound
  | ends i call result => exact hs.finish i call result
  | @createdForOpen i channel seed ids hphase =>
    have hawaits : s.Awaits channel seed := by
      have h := hs.sound i
      rwa [hphase] at h
    exact (hs.make channel ids seed).goto i ⟨hawaits, List.mem_append_right _ (List.mem_singleton_self _)⟩
  | createdForRotation ids hphase =>
    exact (hs.make _ ids _).goto _ (List.mem_append_right _ (List.mem_singleton_self _))
  | createRefused i call error => exact hs.finish i call (.error error)
  | @retired i ids key phase answer hsigns hinstalls _ hretired =>
    refine ⟨hs.stored, forall_calls_goto (P := s.Sound) ?_ hs.sound⟩
    cases phase with
    | rotateInstall => cases hinstalls
    | rotateRequest | retireMark => trivial
    | _ => cases hretired
  | answered => exact ⟨hs.stored, forall_calls_goto (P := s.Sound) trivial hs.sound⟩
  | @opened i channel seed ids record hphase hlive hinbound =>
    obtain ⟨hget, hchannel, -⟩ := SundTransport.live_ok hlive
    have h := hs.sound i
    rw [hphase] at h
    refine hs.put i _ _ (fun ids' hids => ?_) (by simp)
    cases hids
    rw [h.1 record hget hinbound, hchannel]
    exact h.2
  | openedElsewhere => exact ⟨hs.stored, forall_calls_goto (P := s.Sound) trivial hs.sound⟩
  | @rotated i channel newSeed previous ids record hphase hlive =>
    have h := hs.sound i
    rw [hphase] at h
    refine hs.put i _ _ (fun ids' hids => ?_) (by simp)
    cases hids
    rw [(SundTransport.live_ok hlive).2.1]
    exact h
  | @marked i channel inbound record hphase hget =>
    obtain rfl := Table.get?_key hget
    exact hs.put i _ _ (fun ids hids => hs.stored _ record ids hget hids) fun hnone => ⟨record, hget, hnone, rfl⟩

/-! ## The key of each request -/

/-- A call that reads a key holds the id of the queue on record: none was rotated in since it
    read that one. -/
def ReadsOwnKey (s : Shared) : Event → Prop
  | .enter i => ∀ held ∈ (s.calls i).held, (s.transport.inbound held.1).map (·.recipientId) = some held.2
  | _ => True

/-- A call signs with the key of the queue, and goes on as if it were retired only if it is gone. -/
def Keyed (s : Shared) (phase : Phase) : Prop :=
  (∀ recipientId key, phase.signs = some (recipientId, key) → s.owns recipientId key = true) ∧
  ∀ ids, phase.retired = some ids → ids.recipientId ∈ s.gone

structure Keys (s : Shared) : Prop where
  keyed : ∀ i, s.Keyed (s.calls i)
  requests : ∀ signed ∈ s.requests, s.owns signed.recipientId signed.key = true

theorem owns_of_mem {s : Shared} {made : Made} (h : made ∈ s.made) : s.owns made.ids.recipientId made.key = true :=
  List.any_eq_true.mpr ⟨made, h, by simp⟩

theorem owns_make {s : Shared} {recipientId : String} {key : QueueKey} (h : s.owns recipientId key = true)
    (channel : ChannelId) (ids : QueueIds) (seed : Seed) : (s.make channel ids seed).owns recipientId key = true := by
  unfold owns make at *
  rw [List.any_append, h, Bool.true_or]

theorem keyed_of_none {s : Shared} {phase : Phase} (hsigns : phase.signs = none) (hretired : phase.retired = none) :
    s.Keyed phase :=
  ⟨by simp [hsigns], by simp [hretired]⟩

theorem Keys.goto {s : Shared} (hs : s.Keys) (i : Nat) {phase : Phase} (h : s.Keyed phase) : (s.goto i phase).Keys :=
  ⟨forall_calls_goto (P := s.Keyed) h hs.keyed, hs.requests⟩

theorem Keys.finish {s : Shared} (hs : s.Keys) (i : Nat) (call : Call)
    (result : Except TransportError (Option QueueIds)) : (s.finish i call result).Keys :=
  ⟨forall_calls_goto (P := s.Keyed) (keyed_of_none rfl rfl) hs.keyed, hs.requests⟩

/-- What is on record is of no account here. -/
theorem Keys.put {s : Shared} (hs : s.Keys) (record : ChannelRecord) : (s.put record).Keys := ⟨hs.keyed, hs.requests⟩

theorem Keys.make {s : Shared} (hs : s.Keys) (channel : ChannelId) (ids : QueueIds) (seed : Seed) :
    (s.make channel ids seed).Keys :=
  ⟨fun i => ⟨fun recipientId key h => owns_make ((hs.keyed i).1 recipientId key h) channel ids seed, (hs.keyed i).2⟩,
    fun signed h => owns_make (hs.requests signed h) channel ids seed⟩

theorem Keys.sign {s : Shared} (hs : s.Keys) {recipientId : String} {key : QueueKey}
    (h : s.owns recipientId key = true) : (s.sign recipientId key).Keys := by
  refine ⟨hs.keyed, fun signed hsigned => ?_⟩
  rcases List.mem_append.mp hsigned with hsigned | hsigned
  · exact hs.requests signed hsigned
  · rw [List.mem_singleton.mp hsigned]
    exact h

theorem Keys.takeDown {s : Shared} (hs : s.Keys) {recipientId : String} {key : QueueKey}
    (h : s.owns recipientId key = true) :
    (s.takeDown recipientId key).Keys ∧ recipientId ∈ (s.takeDown recipientId key).gone := by
  have hgone : (s.takeDown recipientId key).gone = s.gone ++ [recipientId] := if_pos h
  refine ⟨⟨fun i => ⟨(hs.keyed i).1, fun ids hids => ?_⟩, hs.requests⟩, ?_⟩
  · rw [hgone]
    exact List.mem_append_left _ ((hs.keyed i).2 ids hids)
  · rw [hgone]
    exact List.mem_append_right _ (List.mem_singleton_self _)

/-- The key a call reads is the key of the queue on record. -/
theorem Reads.keyed {s : Shared} (hs : s.StoredUnderSeed) {i : Nat} {phase : Phase}
    (h : s.Reads (s.calls i) phase) (hkey : s.ReadsOwnKey (.enter i)) : s.Keyed phase := by
  have hkeyed : ∀ {channel : ChannelId} {record : ChannelRecord} {recipientId : String},
      s.transport.channels.get? channel = some record → (s.calls i).held = some (channel, recipientId) →
        s.owns recipientId ⟨record.recipientSeed⟩ = true := by
    intro channel record recipientId hget hheld
    have h := hkey (channel, recipientId) hheld
    simp only [SundTransport.inbound, hget, Option.bind_some, Option.map_eq_some_iff] at h
    obtain ⟨ids, hinbound, rfl⟩ := h
    exact owns_of_mem (hs channel record ids hget hinbound)
  refine ⟨fun recipientId key hsigns => ?_, by simp [h.no_install.2.2]⟩
  generalize hphase : s.calls i = before at h
  rw [hphase] at hkeyed
  cases h with
  | rotateKey hget =>
    cases hsigns
    exact hkeyed hget rfl
  | retireKey hget =>
    cases hsigns
    exact hkeyed hget rfl
  | drainKey hget =>
    cases hsigns
    exact hkeyed hget rfl
  | _ => cases hsigns

theorem keys_step {s : Shared} (hs : s.Keys) (hstored : s.StoredUnderSeed) (event : Event)
    (hkey : s.ReadsOwnKey event) : (s.step event).Keys := by
  have h := s.steps_step event
  generalize s.step event = s' at h ⊢
  cases h with
  | still => exact hs
  | called i call => exact hs.goto i (by cases call <;> exact keyed_of_none rfl rfl)
  | reads i hreads => exact hs.goto i (hreads.keyed hstored hkey)
  | ends i call result => exact hs.finish i call result
  | createdForOpen ids hphase => exact (hs.make _ ids _).goto _ (keyed_of_none rfl rfl)
  | @createdForRotation i channel newSeed previous ids hphase =>
    have h := hs.keyed i
    rw [hphase] at h
    exact (hs.make channel ids newSeed).goto i ⟨by simp [Phase.signs], h.2⟩
  | createRefused i call error => exact hs.finish i call (.error error)
  | @retired i ids key phase answer hsigns _ hnone hretired =>
    have howns := (hs.keyed i).1 _ _ hsigns
    obtain ⟨hdown, hgone⟩ := (hs.sign howns).takeDown howns
    refine hdown.goto i ⟨by simp [hnone], fun ids' hids => ?_⟩
    rw [hretired, Option.some.injEq] at hids
    exact hids ▸ hgone
  | @answered i recipientId key call result answer hsigns =>
    exact (hs.sign ((hs.keyed i).1 _ _ hsigns)).finish i call result
  | opened | rotated | marked => exact (hs.put _).finish _ _ _
  | openedElsewhere => exact ⟨forall_calls_goto (P := s.Keyed) (keyed_of_none rfl rfl) hs.keyed, hs.requests⟩

/-! ## Where every queue is -/

/-- A call installs what it was given on the channel as it found it: not retired since, and with
    the queue it has had retired still on record. -/
def Undisturbed (s : Shared) : Event → Prop
  | .enter i =>
    match s.calls i with
    | .openInstall channel _ _ => (s.transport.live channel).isOk = true
    | .rotateInstall channel _ previous _ =>
      (s.transport.live channel).isOk = true ∧ s.transport.inbound channel = previous
    | .retireMark channel inbound => s.transport.inbound channel = inbound
    | _ => True
  | _ => True

/-- Gone, not needed, on record or yet to be installed. -/
def Accounted (s : Shared) (made : Made) : Prop :=
  made.ids.recipientId ∈ s.gone ∨ made.ids ∈ s.unused ∨ s.transport.inbound made.channel = some made.ids ∨
    ∃ i, (s.calls i).installs = some (made.channel, made.ids)

/-- A channel that was retired has no queue on record but one that is gone. -/
def Down (s : Shared) (channel : ChannelId) : Prop :=
  ∃ record, s.transport.channels.get? channel = some record ∧ record.retired = true ∧
    ∀ ids, record.inbound = some ids → ids.recipientId ∈ s.gone

structure Accounts (s : Shared) : Prop where
  accounted : ∀ made ∈ s.made, s.Accounted made
  down : ∀ channel, (.retire channel, .ok none) ∈ s.returned → s.Down channel

theorem installs_of_signs {phase : Phase} {signed : String × QueueKey} (h : phase.signs = some signed) :
    phase.installs = none := by
  cases phase with
  | rotateRetire | retireRequest | drainRequest => rfl
  | _ => cases h

theorem installs_of_ends {s : Shared} {i : Nat} (hundisturbed : s.Undisturbed (.enter i))
    (h : ∀ channel ids, (s.calls i).installs = some (channel, ids) → (s.transport.live channel).isOk = false) :
    (s.calls i).installs = none := by
  cases hphase : s.calls i with
  | openInstall channel seed ids =>
    simp only [Undisturbed, hphase] at hundisturbed
    rw [h channel ids (by rw [hphase]; rfl)] at hundisturbed
    cases hundisturbed
  | rotateInstall channel newSeed previous ids =>
    simp only [Undisturbed, hphase] at hundisturbed
    rw [h channel ids (by rw [hphase]; rfl)] at hundisturbed
    cases hundisturbed.1
  | _ => rfl

theorem Accounted.goto {s : Shared} {made : Made} (h : s.Accounted made) {i : Nat}
    (hnone : (s.calls i).installs = none) (phase : Phase) : (s.goto i phase).Accounted made := by
  rcases h with hgone | hunused | hstored | ⟨j, hj⟩
  · exact Or.inl hgone
  · exact Or.inr (Or.inl hunused)
  · exact Or.inr (Or.inr (Or.inl hstored))
  · refine Or.inr (Or.inr (Or.inr ⟨j, ?_⟩))
    rw [calls_goto, if_neg]
    · exact hj
    · rintro rfl
      rw [hnone] at hj
      cases hj

/-- No call but one that retires the channel returns that it has. -/
theorem retired_before {returned : List (Call × Except TransportError (Option QueueIds))} {call : Call}
    {result : Except TransportError (Option QueueIds)} {channel : ChannelId}
    (hnot : call = .retire channel → result.isOk = false)
    (h : (.retire channel, .ok none) ∈ returned ++ [(call, result)]) : (.retire channel, .ok none) ∈ returned := by
  rcases List.mem_append.mp h with h | h
  · exact h
  · cases List.mem_singleton.mp h
    cases hnot rfl

theorem Accounts.goto {s : Shared} (hs : s.Accounts) {i : Nat} (hnone : (s.calls i).installs = none) (phase : Phase) :
    (s.goto i phase).Accounts :=
  ⟨fun made h => (hs.accounted made h).goto hnone phase, hs.down⟩

theorem Accounts.finish {s : Shared} (hs : s.Accounts) {i : Nat} (hnone : (s.calls i).installs = none) {call : Call}
    {result : Except TransportError (Option QueueIds)} (hnot : ∀ channel, call = .retire channel → result.isOk = false) :
    (s.finish i call result).Accounts :=
  ⟨fun made h => (hs.accounted made h).goto hnone .idle, fun channel h => hs.down channel (retired_before (hnot channel) h)⟩

theorem inbound_put (s : Shared) (record : ChannelRecord) (channel : ChannelId) :
    (s.put record).transport.inbound channel =
      if record.channel = channel then record.inbound else s.transport.inbound channel := by
  show ((s.transport.put record).channels.get? channel).bind (·.inbound) = _
  rw [SundTransport.get?_put]
  split <;> rfl

/-- The call's own queue is the one it puts on record, and one it puts it over is gone. -/
theorem Accounted.install {s : Shared} {made : Made} (h : s.Accounted made) {i : Nat} {record : ChannelRecord}
    (hown : ∀ channel ids, (s.calls i).installs = some (channel, ids) →
      record.channel = channel ∧ record.inbound = some ids)
    (hover : ∀ ids, s.transport.inbound record.channel = some ids → record.inbound = some ids ∨ ids.recipientId ∈ s.gone)
    (call : Call) (result : Except TransportError (Option QueueIds)) :
    ((s.put record).finish i call result).Accounted made := by
  have hstored : (s.put record).transport.inbound made.channel = some made.ids →
      ((s.put record).finish i call result).Accounted made := fun h => Or.inr (Or.inr (Or.inl h))
  rw [inbound_put] at hstored
  rcases h with hgone | hunused | hinbound | ⟨j, hj⟩
  · exact Or.inl hgone
  · exact Or.inr (Or.inl hunused)
  · by_cases heq : record.channel = made.channel
    · rw [if_pos heq] at hstored
      rcases hover made.ids (heq ▸ hinbound) with hsame | hgone
      · exact hstored hsame
      · exact Or.inl hgone
    · rw [if_neg heq] at hstored
      exact hstored hinbound
  · by_cases hij : j = i
    · subst hij
      obtain ⟨hchannel, hids⟩ := hown _ _ hj
      rw [if_pos hchannel] at hstored
      exact hstored hids
    · refine Or.inr (Or.inr (Or.inr ⟨j, ?_⟩))
      rw [calls_finish, if_neg hij]
      exact hj

theorem Down.put {s : Shared} {channel : ChannelId} (h : s.Down channel) {record : ChannelRecord}
    (hne : record.channel ≠ channel) : (s.put record).Down channel := by
  obtain ⟨found, hget, hretired, hgone⟩ := h
  refine ⟨found, ?_, hretired, hgone⟩
  show (s.transport.put record).channels.get? channel = some found
  rw [SundTransport.get?_put, if_neg hne]
  exact hget

theorem Down.ne_of_live {s : Shared} {channel : ChannelId} (h : s.Down channel) {record : ChannelRecord}
    (hlive : s.transport.live record.channel = .ok record) : record.channel ≠ channel := by
  rintro rfl
  obtain ⟨hget, -, hnot⟩ := SundTransport.live_ok hlive
  obtain ⟨found, hfound, hretired, -⟩ := h
  rw [hget] at hfound
  cases hfound
  rw [hnot] at hretired
  cases hretired

theorem Accounts.make {s : Shared} (hs : s.Accounts) {i : Nat} (hnone : (s.calls i).installs = none)
    {channel : ChannelId} {ids : QueueIds} {phase : Phase} (hphase : phase.installs = some (channel, ids))
    (seed : Seed) : ((s.make channel ids seed).goto i phase).Accounts := by
  refine ⟨fun made hmade => ?_, hs.down⟩
  rcases List.mem_append.mp hmade with hmade | hmade
  · have haccounted : (s.make channel ids seed).Accounted made := hs.accounted made hmade
    exact haccounted.goto hnone phase
  · rw [List.mem_singleton.mp hmade]
    exact Or.inr (Or.inr (Or.inr ⟨i, by rw [calls_goto, if_pos rfl, hphase]⟩))

theorem Accounts.sign {s : Shared} (hs : s.Accounts) (recipientId : String) (key : QueueKey) :
    (s.sign recipientId key).Accounts := ⟨hs.accounted, hs.down⟩

theorem Accounts.takeDown {s : Shared} (hs : s.Accounts) (recipientId : String) (key : QueueKey) :
    (s.takeDown recipientId key).Accounts := by
  have hgone : s.gone ⊆ (s.takeDown recipientId key).gone := by
    unfold Shared.takeDown
    dsimp only
    split
    · exact List.subset_append_left _ _
    · exact fun _ => id
  refine ⟨fun made hmade => (hs.accounted made hmade).imp (fun h => hgone h) id, fun channel h => ?_⟩
  obtain ⟨record, hget, hretired, hdown⟩ := hs.down channel h
  exact ⟨record, hget, hretired, fun ids hids => hgone (hdown ids hids)⟩

/-- A section that puts a queue on the record of a live channel. -/
theorem Accounts.install {s : Shared} (hs : s.Accounts) {i : Nat} {record : ChannelRecord} {ids : QueueIds}
    (hlive : s.transport.live record.channel = .ok record) (hown : (s.calls i).installs = some (record.channel, ids))
    (hover : ∀ ids, record.inbound = some ids → ids.recipientId ∈ s.gone) (seed : Seed) {call : Call}
    {result : Except TransportError (Option QueueIds)} (hnot : ∀ channel, call = .retire channel → result.isOk = false) :
    ((s.put { record with recipientSeed := seed, inbound := some ids }).finish i call result).Accounts := by
  refine ⟨fun made hmade => (hs.accounted made hmade).install (fun channel' ids' hinstalls => ?_) (fun ids' h => ?_) _ _,
    fun channel h => ?_⟩
  · rw [hown] at hinstalls
    cases hinstalls
    exact ⟨rfl, rfl⟩
  · rw [SundTransport.inbound, (SundTransport.live_ok hlive).1] at h
    exact Or.inr (hover ids' h)
  · have hdown := hs.down channel (retired_before (hnot channel) h)
    exact hdown.put (show record.channel ≠ channel from hdown.ne_of_live hlive)

theorem accounts_step {s : Shared} (hs : s.Accounts) (hkeys : s.Keys) (event : Event)
    (hundisturbed : s.Undisturbed event) : (s.step event).Accounts := by
  have h := s.steps_step event
  generalize s.step event = s' at h ⊢
  cases h with
  | still => exact hs
  | called i call hidle => exact hs.goto (by rw [hidle]; rfl) _
  | reads i hreads => exact hs.goto hreads.no_install.1 _
  | ends i call result hends hnot => exact hs.finish (installs_of_ends hundisturbed hends) hnot
  | createRefused i call error answer hnone => exact hs.finish hnone (fun _ _ => rfl)
  | createdForOpen ids hphase => exact hs.make (by rw [hphase]; rfl) rfl _
  | createdForRotation ids hphase => exact hs.make (by rw [hphase]; rfl) rfl _
  | @retired i ids key phase answer hsigns =>
    exact ((hs.sign ids.recipientId key).takeDown ids.recipientId key).goto (installs_of_signs hsigns) phase
  | @answered i recipientId key call result answer hsigns hnot =>
    exact (hs.sign recipientId key).finish (installs_of_signs hsigns) hnot
  | @opened i channel seed ids record hphase hlive hinbound =>
    obtain rfl := (SundTransport.live_ok hlive).2.1
    exact hs.install hlive (by rw [hphase]; rfl) (by simp [hinbound]) record.recipientSeed (by simp)
  | @openedElsewhere i channel seed ids hphase =>
    refine ⟨fun made hmade => ?_, fun channel h => hs.down channel (retired_before (by simp) h)⟩
    rcases hs.accounted made hmade with hgone | hunused | hstored | ⟨j, hj⟩
    · exact Or.inl hgone
    · exact Or.inr (Or.inl (List.mem_append_left _ hunused))
    · exact Or.inr (Or.inr (Or.inl hstored))
    · by_cases hij : j = i
      · subst hij
        rw [hphase] at hj
        cases hj
        exact Or.inr (Or.inl (List.mem_append_right _ (List.mem_singleton_self _)))
      · refine Or.inr (Or.inr (Or.inr ⟨j, ?_⟩))
        rw [calls_finish, if_neg hij]
        exact hj
  | @rotated i channel newSeed previous ids record hphase hlive =>
    obtain ⟨hget, rfl, -⟩ := SundTransport.live_ok hlive
    -- the queue it puts its own over is the one it has had retired
    simp only [Undisturbed, hphase, SundTransport.inbound, hget, Option.bind_some] at hundisturbed
    refine hs.install hlive (by rw [hphase]; rfl) (fun was hwas => ?_) newSeed (by simp)
    refine (hkeys.keyed i).2 was ?_
    rw [hphase, ← hwas, hundisturbed.2]
    rfl
  | @marked i channel inbound record hphase hget =>
    obtain rfl := Table.get?_key hget
    have hinbound : s.transport.inbound record.channel = record.inbound := by rw [SundTransport.inbound, hget]; rfl
    simp only [Undisturbed, hphase, hinbound] at hundisturbed
    refine ⟨fun made hmade => (hs.accounted made hmade).install (fun _ _ h => ?_) (fun ids h => Or.inl ?_) _ _,
      fun channel h => ?_⟩
    · rw [hphase] at h
      cases h
    · rwa [hinbound] at h
    by_cases heq : record.channel = channel
    · refine ⟨{ record with retired := true }, ?_, rfl, fun ids hids => (hkeys.keyed i).2 ids ?_⟩
      · show (s.transport.put _).channels.get? channel = _
        rw [SundTransport.get?_put, if_pos heq]
      · rw [hphase, ← hundisturbed]
        exact hids
    · exact (hs.down channel (retired_before (fun h => absurd (Call.retire.inj h) heq) h)).put heq

/-! ## Over a whole run -/

/-- The server hands out no id twice. -/
def Fresh (s : Shared) : Event → Prop
  | .created _ (.ok ids) => ∀ made ∈ s.made, made.ids.recipientId ≠ ids.recipientId
  | _ => True

def start (t : SundTransport) (made : List Made) : Shared := ⟨t, fun _ => .idle, made, [], [], [], []⟩

/-- The queues on record are all there are, each with the key it was created with. -/
structure Restored (t : SundTransport) (made : List Made) : Prop where
  stored : (start t made).StoredUnderSeed
  onRecord : ∀ queue ∈ made, t.inbound queue.channel = some queue.ids
  distinct : (made.map (·.ids.recipientId)).Nodup

def Distinct (s : Shared) : Prop := (s.made.map (·.ids.recipientId)).Nodup

/-- The queue was created, and with that key. -/
def SignedWithOwnKey (s : Shared) (signed : Signed) : Prop :=
  (∃ made ∈ s.made, made.ids.recipientId = signed.recipientId) ∧
  ∀ made ∈ s.made, made.ids.recipientId = signed.recipientId → made.key = signed.key

/-- Nothing created for the channel is left on the server but what an `open` had no use for. -/
def TakenDown (s : Shared) (channel : ChannelId) : Prop :=
  ∀ made ∈ s.made, made.channel = channel → made.ids.recipientId ∈ s.gone ∨ made.ids ∈ s.unused

theorem distinct_make {s : Shared} (hs : s.Distinct) {ids : QueueIds}
    (hfresh : ∀ made ∈ s.made, made.ids.recipientId ≠ ids.recipientId) (channel : ChannelId) (seed : Seed) :
    (s.make channel ids seed).Distinct := by
  unfold Distinct make
  rw [List.map_append, List.map_singleton, ← List.concat_eq_append, List.nodup_concat]
  refine ⟨?_, hs⟩
  rw [List.mem_map]
  rintro ⟨made, hmade, heq⟩
  exact hfresh made hmade heq

theorem distinct_step {s : Shared} (hs : s.Distinct) (event : Event) (hfresh : s.Fresh event) :
    (s.step event).Distinct := by
  have h := s.steps_step event
  generalize s.step event = s' at h ⊢
  cases h with
  | createdForOpen ids hphase => exact distinct_make hs hfresh _ _
  | createdForRotation ids hphase => exact distinct_make hs hfresh _ _
  | _ => exact hs

theorem signedWithOwnKey_of_owns {s : Shared} (hdistinct : s.Distinct) {signed : Signed}
    (h : s.owns signed.recipientId signed.key = true) : s.SignedWithOwnKey signed := by
  obtain ⟨made, hmade, hboth⟩ := List.any_eq_true.mp h
  simp only [Bool.and_eq_true, beq_iff_eq] at hboth
  refine ⟨⟨made, hmade, hboth.1⟩, fun other hother hid => ?_⟩
  rw [List.inj_on_of_nodup_map hdistinct hother hmade (hid.trans hboth.1.symm)]
  exact hboth.2

theorem Accounts.takenDown {s : Shared} (hs : s.Accounts) (hidle : ∀ i, s.calls i = .idle) {channel : ChannelId}
    (h : (.retire channel, .ok none) ∈ s.returned) : s.TakenDown channel := by
  rintro made hmade rfl
  rcases hs.accounted made hmade with hgone | hunused | hstored | ⟨i, hi⟩
  · exact Or.inl hgone
  · exact Or.inr hunused
  · obtain ⟨record, hget, -, hdown⟩ := hs.down made.channel h
    rw [SundTransport.inbound, hget] at hstored
    exact Or.inl (hdown made.ids hstored)
  · rw [hidle i] at hi
    cases hi

section Runs

variable {t : SundTransport} {made : List Made} {events : List Event}

theorem stores_run (hmade : Restored t made) : ((start t made).run events).Stores :=
  Trace.inv_run (Q := Stores) (fun _ event _ hs => stores_step hs event) ⟨hmade.stored, fun _ => trivial⟩
    (Trace.eachStep_true _ _)

theorem keys_run (hmade : Restored t made) (hkeys : Trace.EachStep step ReadsOwnKey (start t made) events) :
    ((start t made).run events).Stores ∧ ((start t made).run events).Keys := by
  have hstart : (start t made).Keys := ⟨fun _ => keyed_of_none rfl rfl, by simp [start]⟩
  exact Trace.inv_run (Q := fun s => s.Stores ∧ s.Keys)
    (fun _ event hkey hs => ⟨stores_step hs.1 event, keys_step hs.2 hs.1.stored event hkey⟩)
    ⟨⟨hmade.stored, fun _ => trivial⟩, hstart⟩ hkeys

theorem accounts_run (hmade : Restored t made) (hkeys : Trace.EachStep step ReadsOwnKey (start t made) events)
    (hundisturbed : Trace.EachStep step Undisturbed (start t made) events) :
    ((start t made).run events).Accounts := by
  have hstart : (start t made).Accounts :=
    ⟨fun queue hqueue => Or.inr (Or.inr (Or.inl (hmade.onRecord queue hqueue))), by simp [start]⟩
  have hnil := keys_run hmade (show Trace.EachStep step ReadsOwnKey (start t made) [] from trivial)
  exact (Trace.inv_run (Q := fun s => (s.Stores ∧ s.Keys) ∧ s.Accounts)
    (fun _ event h hs =>
      ⟨⟨stores_step hs.1.1 event, keys_step hs.1.2 hs.1.1.stored event h.1⟩, accounts_step hs.2 hs.1.2 event h.2⟩)
    ⟨hnil, hstart⟩ (Trace.eachStep_and.mpr ⟨hkeys, hundisturbed⟩)).2

end Runs

/-- Whatever the order, the stored queue was created under the stored seed; a call that reads the
    key of the queue it holds signs with that queue's own; and calls that install what they were
    given on the channel as they found it leave none of a retired channel's queues behind. -/
theorem clones_use_own_keys {t : SundTransport} {made : List Made} (hmade : Restored t made) {events : List Event}
    (hfresh : Trace.EachStep step Fresh (start t made) events) :
    ((start t made).run events).StoredUnderSeed ∧
    (Trace.EachStep step ReadsOwnKey (start t made) events →
      (∀ signed ∈ ((start t made).run events).requests, ((start t made).run events).SignedWithOwnKey signed) ∧
      (Trace.EachStep step Undisturbed (start t made) events →
        (∀ i, ((start t made).run events).calls i = .idle) →
        ∀ channel, (.retire channel, .ok none) ∈ ((start t made).run events).returned →
          ((start t made).run events).TakenDown channel)) := by
  have hdistinct : ((start t made).run events).Distinct :=
    Trace.inv_run (Q := Distinct) (fun _ event hfresh hs => distinct_step hs event hfresh) hmade.distinct hfresh
  refine ⟨(stores_run hmade).stored, fun hkeys => ⟨fun signed hsigned => ?_, fun hundisturbed hidle channel h => ?_⟩⟩
  · exact signedWithOwnKey_of_owns hdistinct ((keys_run hmade hkeys).2.requests signed hsigned)
  · exact (accounts_run hmade hkeys hundisturbed).takenDown hidle h

instance (s : Shared) : (event : Event) → Decidable (s.Fresh event)
  | .created _ (.ok ids) => inferInstanceAs (Decidable (∀ made ∈ s.made, made.ids.recipientId ≠ ids.recipientId))
  | .created _ (.error _) => .isTrue trivial
  | .call .. | .enter _ | .answered .. => .isTrue trivial

instance (s : Shared) : (event : Event) → Decidable (s.ReadsOwnKey event)
  | .enter i => inferInstanceAs (Decidable (∀ held ∈ (s.calls i).held, _ = some held.2))
  | .call .. | .created .. | .answered .. => .isTrue trivial

instance (s : Shared) (event : Event) : Decidable (s.Undisturbed event) := by
  cases event with
  | enter i =>
    unfold Undisturbed
    dsimp only
    split <;> infer_instance
  | _ => exact .isTrue trivial

/-- One declared channel, not yet opened. -/
def declared : SundTransport := SundTransport.new.declare "dev_A:dev_B" (.replicate 32 7)

theorem restored_declared : Restored declared [] where
  stored channel record ids hget hinbound := by
    have hnone : declared.inbound channel = none := by
      unfold declared SundTransport.declare SundTransport.inbound
      rw [Table.insertIfNew, if_neg (by decide +kernel), Table.get?_insert]
      split
      · rfl
      · rw [SundTransport.new, Table.get?_empty]
        rfl
    rw [SundTransport.inbound, show declared.channels.get? channel = some record from hget, Option.bind_some,
      hinbound] at hnone
    cases hnone
  onRecord := by simp
  distinct := by simp

/-- A call of its own for each thing that is done, one after another. -/
def inTurn : List Event :=
  [.call 0 (.openChannel "dev_A:dev_B"), .enter 0, .created 0 (.ok ⟨"rcp_0", "snd_0"⟩), .enter 0,
    .call 0 (.rotateInbound "dev_A:dev_B" (.replicate 32 8)), .call 1 (.drain "dev_A:dev_B" .receive),
    .enter 0, .enter 1, .enter 1, .enter 0, .answered 1 (.ok ()), .answered 0 (.ok ()),
    .created 0 (.ok ⟨"rcp_1", "snd_1"⟩), .enter 0,
    .call 1 (.retire "dev_A:dev_B"), .enter 1, .enter 1, .answered 1 (.ok ()), .enter 1]

theorem in_turn_uses_own_keys :
    ((start declared []).run inTurn).StoredUnderSeed ∧
    (∀ signed ∈ ((start declared []).run inTurn).requests, ((start declared []).run inTurn).SignedWithOwnKey signed) ∧
    (.retire "dev_A:dev_B", .ok none) ∈ ((start declared []).run inTurn).returned ∧
    ((start declared []).run inTurn).TakenDown "dev_A:dev_B" := by
  have hfresh : Trace.EachStep step Fresh (start declared []) inTurn := by decide +kernel
  have hkeys : Trace.EachStep step ReadsOwnKey (start declared []) inTurn := by decide +kernel
  have hundisturbed : Trace.EachStep step Undisturbed (start declared []) inTurn := by decide +kernel
  have hreturned : (.retire "dev_A:dev_B", .ok none) ∈ ((start declared []).run inTurn).returned := by decide +kernel
  have hidle : ∀ i, ((start declared []).run inTurn).calls i = .idle := by
    intro i
    match i with
    | 0 | 1 | _ + 2 => rfl
  obtain ⟨hstored, hrest⟩ := clones_use_own_keys restored_declared hfresh
  obtain ⟨hsigned, hdown⟩ := hrest hkeys
  exact ⟨hstored, hsigned, hreturned, hdown hundisturbed hidle _ hreturned⟩

/-- Both calls find no queue on record and ask for one; the second comes back with its own when the
    first's is there. The channel is retired once both are over. -/
def twoOpens : List Event :=
  [.call 0 (.openChannel "dev_A:dev_B"), .call 1 (.openChannel "dev_A:dev_B"), .enter 0, .enter 1,
    .created 0 (.ok ⟨"rcp_0", "snd_0"⟩), .created 1 (.ok ⟨"rcp_1", "snd_1"⟩), .enter 0, .enter 1,
    .call 0 (.retire "dev_A:dev_B"), .enter 0, .enter 0, .answered 0 (.ok ()), .enter 0]

/-- All calls have returned, `retire` with `Ok`, and the second queue is still there. -/
theorem two_opens_leave_a_queue :
    Restored declared [] ∧ Trace.EachStep step Fresh (start declared []) twoOpens ∧
    (∀ i, ((start declared []).run twoOpens).calls i = .idle) ∧
    (.retire "dev_A:dev_B", .ok none) ∈ ((start declared []).run twoOpens).returned ∧
    ∃ made ∈ ((start declared []).run twoOpens).made, made.channel = "dev_A:dev_B" ∧
      made.ids.recipientId ∉ ((start declared []).run twoOpens).gone := by
  refine ⟨restored_declared, by decide +kernel, fun i => ?_, by decide +kernel, by decide +kernel⟩
  match i with
  | 0 | 1 | _ + 2 => rfl

/-- A drain that reads the id before a rotation and the key after it signs with another queue's key. -/
def rotatedUnder : List Event :=
  [.call 0 (.openChannel "dev_A:dev_B"), .enter 0, .created 0 (.ok ⟨"rcp_0", "snd_0"⟩), .enter 0,
    .call 0 (.drain "dev_A:dev_B" .receive), .enter 0,
    .call 1 (.rotateInbound "dev_A:dev_B" (.replicate 32 8)), .enter 1, .enter 1, .answered 1 (.ok ()),
    .created 1 (.ok ⟨"rcp_1", "snd_1"⟩), .enter 1, .enter 0, .answered 0 (.error .unauthorized)]

example : ⟨"rcp_0", ⟨.replicate 32 8⟩⟩ ∈ ((start declared []).run rotatedUnder).requests ∧
    ((start declared []).run rotatedUnder).owns "rcp_0" ⟨.replicate 32 8⟩ = false := by decide +kernel

end Shared

end Clones

end Beacon
