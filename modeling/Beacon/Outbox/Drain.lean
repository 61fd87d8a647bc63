/-
  Beacon.Outbox.Drain — one pass over the queue (`Outbox::drain`): expiry, the due
  entries in order up to a budget, one attempt each, then the sweep of the channels
  that turned out dead.

  A pass visits each entry once and changes it only then, so an attempt is given the
  entry as the pass found it. Entries leave the queue at the end, not at their attempt.
-/

import Mathlib.Data.List.Destutter
import Mathlib.Data.List.Sort
import Mathlib.Data.String.Basic
import Beacon.Outbox.State
import Beacon.Lib.Trace

namespace Beacon

open Lib

namespace DrainReport

def empty : DrainReport := ⟨[], [], []⟩

def addDeferred (report : DrainReport) (deferred : Deferred) : DrainReport :=
  { report with deferred := report.deferred ++ [deferred] }

def addDropped (report : DrainReport) (dropped : Dropped) : DrainReport :=
  { report with dropped := report.dropped ++ [dropped] }

def addSent (report : DrainReport) (sent : SentEntry) : DrainReport :=
  { report with sent := report.sent ++ [sent] }

/-- Peers whose sessions the caller must re-establish before the next drain. -/
def needsSession (report : DrainReport) : List String :=
  (((report.deferred.filter fun d => d.reason = .sessionLost ∨ d.reason = .noSession).map (·.peer)).insertionSort
    (· ≤ ·)).destutter (· ≠ ·)

end DrainReport

/-- Where a pass is between two attempts. -/
structure Pass (ω : Type) where
  outbox : Outbox
  world : ω
  report : DrainReport
  sentIds : List Nat
  droppedIds : List Nat
  failedChannels : Std.ExtTreeMap ChannelId DeferReason compare

structure Drained (ω : Type) where
  outbox : Outbox
  world : ω
  report : DrainReport

def sealReason : SessionError → DeferReason
  | .sessionLost _ _ => .sessionLost
  | .unknownPeer _ => .peerUnknown
  | .noSession _ => .noSession
  | other => .unreachable other.toText

def Entry.outbound (e : Entry) (frame : Bytes) : Outbound := ⟨frame, e.priority, e.ttlSecs.map Duration.fromSecs⟩

def Entry.sent (e : Entry) (messageId : MessageId) (now : Nat) : SentEntry :=
  ⟨e.id, e.channel, e.peer, messageId, .fromSecs (now - e.enqueuedAtSecs)⟩

namespace Outbox

/-- 1. Expiry, first and unconditionally. -/
def expire (o : Outbox) (now : Nat) : Outbox × List Dropped :=
  (o.retain fun e => !e.expiredAt now, (o.entries.filter fun e => e.expiredAt now).map (·.dropped .expired))

/-- 2. What is due, urgent first, then oldest first. -/
def due (o : Outbox) (now budget : Nat) : List Entry :=
  ((o.entries.filter fun e => e.notBeforeSecs ≤ now).insertionSort fun a b => a.dueKey ≤ b.dueKey).take budget

variable {ω : Type}

/-- `Retired` or `UnknownChannel`: the entry is dropped and its channel is dead. -/
def dropDead (s : Pass ω) (world : ω) (entry : Entry) (reason : DropReason) : Pass ω :=
  { s with
    world
    report := s.report.addDropped (entry.dropped reason)
    droppedIds := s.droppedIds ++ [entry.id]
    failedChannels := s.failedChannels.insert entry.channel .noSession }

/-- 3. One due entry. -/
def attempt (P : Ports ω) (now : Nat) (s : Pass ω) (entry : Entry) : Pass ω :=
  match s.failedChannels[entry.channel]? with
  | some reason => { s with report := s.report.addDeferred (entry.deferred reason entry.attempts) }
  | none =>
    match P.encrypt s.world entry.peer entry.plaintext with
    | (.error error, world) =>
      { s with
        world
        report := s.report.addDeferred (entry.deferred (sealReason error) (entry.attempts + 1))
        outbox := s.outbox.backOff entry.id now }
    | (.ok frame, world) =>
      match P.send world entry.channel (entry.outbound frame) with
      | (.ok messageId, world) =>
        { s with
          world
          report := s.report.addSent (entry.sent messageId now)
          sentIds := s.sentIds ++ [entry.id] }
      | (.error (.retired _), world) => dropDead s world entry .channelRetired
      | (.error (.unknownChannel _), world) => dropDead s world entry .channelUnknown
      | (.error (.backend detail), world) =>
        let reason := DeferReason.unreachable detail
        { s with
          world
          report := s.report.addDeferred (entry.deferred reason (entry.attempts + 1))
          failedChannels := s.failedChannels.insert entry.channel reason
          outbox := s.outbox.backOff entry.id now }

/-- A dead channel's backlog: every entry on it that the pass has not dropped by itself. -/
def doomed (s : Pass ω) (channel : ChannelId) (e : Entry) : Bool :=
  e.channel == channel && !s.droppedIds.contains e.id

def deadReason (s : Pass ω) (channel : ChannelId) : DropReason :=
  if s.report.dropped.any fun d => d.channel == channel && d.reason == .channelRetired then .channelRetired
  else .channelUnknown

/-- 4. A dead channel takes its backlog with it; a deferred record gives way to the drop. -/
def sweep (s : Pass ω) (channel : ChannelId) : Pass ω :=
  let backlog := s.outbox.entries.filter (doomed s channel)
  { s with
    outbox := s.outbox.retain fun e => !doomed s channel e
    report := { s.report with
      dropped := s.report.dropped ++ backlog.map (·.dropped (deadReason s channel))
      deferred := s.report.deferred.filter fun d => !(backlog.map Entry.id).contains d.id } }

def dead (s : Pass ω) : List ChannelId :=
  (s.failedChannels.toList.filter fun failed => failed.2 == .noSession).map Prod.fst

/-- 5. Everything sent or dropped leaves the queue. -/
def finish (s : Pass ω) : Drained ω :=
  let s := (dead s).foldl sweep s
  ⟨s.outbox.retain fun e => !s.sentIds.contains e.id && !s.droppedIds.contains e.id, s.world, s.report⟩

/-- The pass before its first attempt. -/
def opening (o : Outbox) (world : ω) (now : Nat) : Pass ω where
  outbox := (o.expire now).1
  world
  report := { DrainReport.empty with dropped := (o.expire now).2 }
  sentIds := []
  droppedIds := []
  failedChannels := ∅

def attempts (P : Ports ω) (o : Outbox) (world : ω) (now budget : Nat) : Pass ω :=
  Trace.run (attempt P now) (o.opening world now) ((o.expire now).1.due now budget)

def drain (P : Ports ω) (o : Outbox) (world : ω) (now : SystemTime) (budget : Nat) : Drained ω :=
  finish (o.attempts P world now.unixSeconds budget)

end Outbox

end Beacon
