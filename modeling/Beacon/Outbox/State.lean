/-
  Beacon.Outbox.State — the queue of messages waiting to go out (`sund_client::outbox`).

  Ids only ever grow and an entry is only ever appended, changed in place or taken out,
  so a queue's ids are strictly increasing and below the next one. `Outbox` carries
  that as two fields, and `retain`, `backOff` and `push` are the edits that keep them.
-/

import Mathlib.Algebra.Group.Nat.Defs
import Mathlib.Data.List.Sort
import Mathlib.Data.Prod.Lex
import Mathlib.Order.BoundedOrder.Basic
import Beacon.Transport.Port

namespace Beacon

/-! ## Constants -/

/-- `SNAPSHOT_VERSION` of the outbox store. -/
def outboxSnapshotVersion : UInt8 := 1

def maxQueuedPerChannel : Nat := 200

/-- `BACKOFF_BASE`, in seconds. -/
def backoffBase : Nat := 30

/-- `BACKOFF_CEILING`, in seconds. -/
def backoffCeiling : Nat := 15 * 60

/-- In seconds. The shift stays below 2^17, so nothing saturates before the ceiling. -/
def backoffFor (attempts : Nat) : Nat := min (backoffBase * 2 ^ min attempts 16) backoffCeiling

/-! ## What goes in and what comes out -/

structure Enqueue where
  channel : ChannelId
  peer : String
  plaintext : Bytes
  priority : Priority
  ttl : Option Duration
  expiresAt : Option SystemTime
  coalesceKey : Option String
  deriving DecidableEq, Repr

/-- A message that neither expires nor is superseded. -/
def Enqueue.durable (channel : ChannelId) (peer : String) (priority : Priority) : Enqueue :=
  { channel, peer, plaintext := [], priority, ttl := none, expiresAt := none, coalesceKey := none }

inductive EnqueueError where
  | full (channel : ChannelId)
  deriving DecidableEq, Repr

inductive DropReason where
  | expired
  | superseded
  | channelRetired
  | channelUnknown
  | peerForgotten
  deriving DecidableEq, Repr

inductive DeferReason where
  | unreachable (detail : String)
  | sessionLost
  | peerUnknown
  | noSession
  deriving DecidableEq, Repr

/-- `Sent`, one message that went out. -/
structure SentEntry where
  id : Nat
  channel : ChannelId
  peer : String
  messageId : MessageId
  queuedFor : Duration
  deriving DecidableEq, Repr

structure Dropped where
  id : Nat
  channel : ChannelId
  peer : String
  reason : DropReason
  deriving DecidableEq, Repr

structure Deferred where
  id : Nat
  channel : ChannelId
  peer : String
  reason : DeferReason
  attempts : Nat
  deriving DecidableEq, Repr

structure DrainReport where
  sent : List SentEntry
  dropped : List Dropped
  deferred : List Deferred
  deriving DecidableEq, Repr

structure Entry where
  id : Nat
  channel : ChannelId
  peer : String
  plaintext : Bytes
  highPriority : Bool
  ttlSecs : Option Nat
  expiresAtSecs : Option Nat
  coalesceKey : Option String
  enqueuedAtSecs : Nat
  attempts : Nat
  notBeforeSecs : Nat
  deriving DecidableEq, Repr

namespace Entry

def priority (e : Entry) : Priority := if e.highPriority then .high else .normal

def isDurable (e : Entry) : Bool := e.expiresAtSecs.isNone

def expiredAt (e : Entry) (now : Nat) : Bool := e.expiresAtSecs.any fun at' => at' ≤ now

def dropped (e : Entry) (reason : DropReason) : Dropped := ⟨e.id, e.channel, e.peer, reason⟩

def deferred (e : Entry) (reason : DeferReason) (attempts : Nat) : Deferred :=
  ⟨e.id, e.channel, e.peer, reason, attempts⟩

/-- One more failed attempt, at second `now`. -/
def backedOff (e : Entry) (now : Nat) : Entry :=
  { e with attempts := e.attempts + 1, notBeforeSecs := now + backoffFor (e.attempts + 1) }

/-- The sort key of a pass: urgent first, then oldest first. -/
def dueKey (e : Entry) : Bool ×ₗ Nat ×ₗ Nat := toLex (!e.highPriority, toLex (e.enqueuedAtSecs, e.id))

/-- What a pass never changes about an entry: everything but the backoff. -/
def message (e : Entry) : Entry := { e with attempts := 0, notBeforeSecs := 0 }

theorem id_eq {a e : Entry} (h : a.message = e.message) : a.id = e.id := (Entry.mk.inj h).1
theorem channel_eq {a e : Entry} (h : a.message = e.message) : a.channel = e.channel := (Entry.mk.inj h).2.1
theorem peer_eq {a e : Entry} (h : a.message = e.message) : a.peer = e.peer := (Entry.mk.inj h).2.2.1

theorem enqueuedAtSecs_eq {a e : Entry} (h : a.message = e.message) : a.enqueuedAtSecs = e.enqueuedAtSecs := by
  have hat : a.message.enqueuedAtSecs = e.message.enqueuedAtSecs := by rw [h]
  exact hat

@[simp] theorem message_backedOff (e : Entry) (now : Nat) : (e.backedOff now).message = e.message := rfl

end Entry

/-! ## The queue -/

structure Outbox where
  entries : List Entry
  nextId : Nat
  increasing : (entries.map Entry.id).Pairwise (· < ·)
  below : ∀ e ∈ entries, e.id < nextId

namespace Outbox

def new : Outbox := ⟨[], 0, .nil, fun _ h => by cases h⟩

def ids (o : Outbox) : List Nat := o.entries.map Entry.id

theorem ids_nodup (o : Outbox) : o.ids.Nodup := o.increasing.imp Nat.ne_of_lt

/-- Entries are told apart by their ids. -/
theorem eq_of_id (o : Outbox) {a b : Entry} (ha : a ∈ o.entries) (hb : b ∈ o.entries) (h : a.id = b.id) : a = b :=
  List.inj_on_of_nodup_map o.ids_nodup ha hb h

/-- The queue without some of its entries. -/
def sublist (o : Outbox) (entries : List Entry) (h : entries.Sublist o.entries) : Outbox where
  entries
  nextId := o.nextId
  increasing := o.increasing.sublist (h.map Entry.id)
  below e he := o.below e (h.subset he)

def retain (o : Outbox) (keep : Entry → Bool) : Outbox := o.sublist (o.entries.filter keep) List.filter_sublist

/-- The first entry that satisfies `p`, taken out. -/
def removeFirst (o : Outbox) (p : Entry → Bool) : Outbox := o.sublist (o.entries.eraseP p) List.eraseP_sublist

theorem map_id_backOff (entries : List Entry) (id now : Nat) :
    (entries.map fun e => if e.id = id then e.backedOff now else e).map Entry.id = entries.map Entry.id := by
  rw [List.map_map]
  refine List.map_congr_left fun e _ => ?_
  simp only [Function.comp]
  split <;> rfl

/-- Ids being distinct, the entry with this id is the one at the index the pass is at. -/
def backOff (o : Outbox) (id now : Nat) : Outbox where
  entries := o.entries.map fun e => if e.id = id then e.backedOff now else e
  nextId := o.nextId
  increasing := by rw [map_id_backOff]; exact o.increasing
  below e he := by
    obtain ⟨a, ha, rfl⟩ := List.mem_map.mp he
    split <;> exact o.below a ha

/-- `entry` appended under the next id. -/
def push (o : Outbox) (entry : Entry) (h : entry.id = o.nextId) : Outbox where
  entries := o.entries ++ [entry]
  nextId := o.nextId + 1
  increasing := by
    rw [List.map_append, List.pairwise_append]
    refine ⟨o.increasing, List.pairwise_singleton _ _, fun a ha b hb => ?_⟩
    obtain ⟨e, he, rfl⟩ := List.mem_map.mp ha
    obtain rfl : b = entry.id := by simpa using hb
    rw [h]; exact o.below e he
  below e he := by
    rcases List.mem_append.mp he with he | he
    · exact Nat.lt_succ_of_lt (o.below e he)
    · rw [List.mem_singleton.mp he, h]; exact Nat.lt_succ_self _

/-- The queue a message is pushed on: without the entry it supersedes, or at a full
    channel without the oldest entry that may go stale. -/
def makeRoom (o : Outbox) (message : Enqueue) : Except EnqueueError (Outbox × Option Dropped) :=
  let sameKey := fun (e : Entry) => e.channel == message.channel && e.coalesceKey == message.coalesceKey
  match if message.coalesceKey.isSome then o.entries.find? sameKey else none with
  | some old => .ok (o.removeFirst sameKey, some (old.dropped .superseded))
  | none =>
    if o.entries.countP (fun e => e.channel == message.channel) < maxQueuedPerChannel then .ok (o, none)
    else
      let stale := fun (e : Entry) => e.channel == message.channel && !e.isDurable
      match o.entries.find? stale with
      | some old => .ok (o.removeFirst stale, some (old.dropped .expired))
      | none => .error (.full message.channel)

def enqueue (o : Outbox) (message : Enqueue) (now : SystemTime) :
    Outbox × Except EnqueueError (Nat × Option Dropped) :=
  match o.makeRoom message with
  | .error error => (o, .error error)
  | .ok (o, superseded) =>
    let seconds := now.unixSeconds
    let entry : Entry :=
      { id := o.nextId
        channel := message.channel
        peer := message.peer
        plaintext := message.plaintext
        highPriority := message.priority == .high
        ttlSecs := message.ttl.map Duration.asSecs
        expiresAtSecs := message.expiresAt.map SystemTime.unixSeconds
        coalesceKey := message.coalesceKey
        enqueuedAtSecs := seconds
        attempts := 0
        notBeforeSecs := seconds }
    (o.push entry rfl, .ok (o.nextId, superseded))

def forgetPeer (o : Outbox) (peer : String) : Outbox × List Dropped :=
  (o.retain fun e => e.peer ≠ peer,
   (o.entries.filter fun e => e.peer = peer).map (·.dropped .peerForgotten))

end Outbox

/-! ## Persistence -/

/-- The snapshot's fields are the outbox's own, and no other code builds one. -/
structure OutboxSnapshot where
  v : UInt8
  outbox : Outbox

inductive SnapshotError where
  | unsupportedVersion (found : UInt8)
  deriving DecidableEq, Repr

namespace Outbox

def exportSnapshot (o : Outbox) : OutboxSnapshot := ⟨outboxSnapshotVersion, o⟩

def importSnapshot (snapshot : OutboxSnapshot) : Except SnapshotError Outbox :=
  if snapshot.v ≠ outboxSnapshotVersion then .error (.unsupportedVersion snapshot.v) else .ok snapshot.outbox

end Outbox

end Beacon
