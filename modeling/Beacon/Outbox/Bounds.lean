/-
  Beacon.Outbox.Bounds — a queue that stays bounded, and what it gives up for that.

  - `enqueue_cases`: one message more is one entry more, at the end, and at most one less.
    The one that goes is the one the message supersedes, or else the oldest that may go
    stale; a channel full of durable messages refuses, and nothing is changed.
  - `queue_stays_bounded`: so a channel never holds more than its share, never two entries
    under one coalescing key, and ids are never used twice, over every run.

  A drain and a forgotten peer only take out, and what they leave is what was there
  but for the backoff; neither bound looks at that.
-/

import Beacon.Outbox.Runs

namespace Beacon

open Lib

/-- The entry a message becomes. -/
def Enqueue.entry (message : Enqueue) (id : Nat) (now : SystemTime) : Entry where
  id := id
  channel := message.channel
  peer := message.peer
  plaintext := message.plaintext
  highPriority := message.priority == .high
  ttlSecs := message.ttl.map Duration.asSecs
  expiresAtSecs := message.expiresAt.map SystemTime.unixSeconds
  coalesceKey := message.coalesceKey
  enqueuedAtSecs := now.unixSeconds
  attempts := 0
  notBeforeSecs := now.unixSeconds

namespace Outbox

/-! ## One enqueue -/

/-- The entry taken out for a message, and why. -/
inductive Spent (o : Outbox) (message : Enqueue) (old : Entry) : DropReason → Prop
  | superseded : SameKey message old → Spent o message old .superseded
  | evicted : Stale message old → (∀ e ∈ o.entries, Stale message e → old.id ≤ e.id) →
      maxQueuedPerChannel ≤ o.queuedOn message.channel → Spent o message old .expired

inductive Enqueued (o : Outbox) (message : Enqueue) (now : SystemTime) :
    Outbox × Except EnqueueError (Nat × Option Dropped) → Prop
  | refused : maxQueuedPerChannel ≤ o.queuedOn message.channel →
      (∀ e ∈ o.entries, e.channel = message.channel → e.isDurable = true) →
      Enqueued o message now (o, .error (.full message.channel))
  | added (o' : Outbox) : o'.entries = o.entries ++ [message.entry o.nextId now] → o'.nextId = o.nextId + 1 →
      Enqueued o message now (o', .ok (o.nextId, none))
  | replaced (o' : Outbox) {before after : List Entry} {old : Entry} {reason : DropReason} :
      o.entries = before ++ old :: after → o'.entries = before ++ after ++ [message.entry o.nextId now] →
      o'.nextId = o.nextId + 1 → Spent o message old reason →
      Enqueued o message now (o', .ok (o.nextId, some (old.dropped reason)))

/-- Ids grow along the queue, so the first of a kind is the oldest. -/
theorem oldest_of_first {o : Outbox} {before after : List Entry} {old : Entry} {p : Entry → Prop}
    (ho : o.entries = before ++ old :: after) (hbefore : ∀ e ∈ before, ¬ p e) :
    ∀ e ∈ o.entries, p e → old.id ≤ e.id := by
  intro e he hp
  have hincreasing := o.increasing
  rw [ho, List.map_append, List.map_cons, List.pairwise_append, List.pairwise_cons] at hincreasing
  rw [ho] at he
  rcases List.mem_append.mp he with he | he
  · exact absurd hp (hbefore e he)
  · rcases List.mem_cons.mp he with rfl | he
    · exact Nat.le_refl _
    · exact Nat.le_of_lt (hincreasing.2.1.1 e.id (List.mem_map_of_mem he))

theorem enqueue_cases (o : Outbox) (message : Enqueue) (now : SystemTime) :
    Enqueued o message now (o.enqueue message now) := by
  have hroom := makeRoom_cases o message
  unfold enqueue
  generalize o.makeRoom message = room at hroom
  cases hroom with
  | refused hfresh hfull hdurable =>
    refine .refused hfull fun e he hc => ?_
    by_contra hstale
    exact hdurable e he ⟨hc, by simpa using hstale⟩
  | spare => exact .added _ rfl rfl
  | superseded o' hsplit hentries hnext hsame =>
    obtain ⟨entries, nextId, _, _⟩ := o'
    subst hentries hnext
    exact .replaced _ hsplit rfl rfl (.superseded hsame)
  | evicted o' hsplit hentries hnext hfresh hfull hstale hbefore =>
    obtain ⟨entries, nextId, _, _⟩ := o'
    subst hentries hnext
    exact .replaced _ hsplit rfl rfl (.evicted hstale (oldest_of_first hsplit hbefore) hfull)

/-! ## The bounds -/

/-- How many of the channel's entries have this key. -/
def keyedOn (o : Outbox) (c : ChannelId) (key : String) : Nat :=
  o.entries.countP fun e => e.channel == c && e.coalesceKey == some key

structure Bounded (o : Outbox) : Prop where
  share : ∀ c, o.queuedOn c ≤ maxQueuedPerChannel
  keyed : ∀ c key, o.keyedOn c key ≤ 1

theorem bounded_new : Bounded new := ⟨fun _ => Nat.zero_le _, fun _ _ => Nat.zero_le _⟩

theorem countP_message {l l' : List Entry} (h : (l'.map Entry.message).Sublist (l.map Entry.message))
    {p : Entry → Bool} (hp : ∀ e : Entry, p e.message = p e) : l'.countP p ≤ l.countP p := by
  have hsame : ∀ k : List Entry, (k.map Entry.message).countP p = k.countP p := by
    intro k
    rw [List.countP_map]
    exact List.countP_congr fun e _ => by rw [Function.comp, hp]
  calc l'.countP p = (l'.map Entry.message).countP p := (hsame l').symm
    _ ≤ (l.map Entry.message).countP p := h.countP_le
    _ = l.countP p := hsame l

/-- Taking out keeps the bounds, and so does backing off. -/
theorem Bounded.of_sublist {o o' : Outbox} (h : Bounded o)
    (hsub : (o'.entries.map Entry.message).Sublist (o.entries.map Entry.message)) : Bounded o' where
  share c := (countP_message hsub fun _ => rfl).trans (h.share c)
  keyed c key := (countP_message hsub fun _ => rfl).trans (h.keyed c key)

theorem queuedOn_push (o : Outbox) (entry : Entry) (hid : entry.id = o.nextId) (c : ChannelId) :
    (o.push entry hid).queuedOn c = o.queuedOn c + if entry.channel = c then 1 else 0 := by
  show (o.entries ++ [entry]).countP _ = _
  rw [List.countP_append, List.countP_singleton]
  simp [queuedOn]

theorem keyedOn_push (o : Outbox) (entry : Entry) (hid : entry.id = o.nextId) (c : ChannelId) (key : String) :
    (o.push entry hid).keyedOn c key =
      o.keyedOn c key + if entry.channel = c ∧ entry.coalesceKey = some key then 1 else 0 := by
  show (o.entries ++ [entry]).countP _ = _
  rw [List.countP_append, List.countP_singleton]
  simp [keyedOn]

section Without

variable {o o' : Outbox} {before after : List Entry} {old : Entry}

theorem sublist_without (ho : o.entries = before ++ old :: after) (ho' : o'.entries = before ++ after) :
    o'.entries.Sublist o.entries := by
  rw [ho, ho']
  exact (List.sublist_cons_self _ _).append_left _

theorem queuedOn_without (ho : o.entries = before ++ old :: after) (ho' : o'.entries = before ++ after) (c : ChannelId) :
    o.queuedOn c = o'.queuedOn c + if old.channel = c then 1 else 0 := by
  rw [queuedOn, queuedOn, ho, ho', List.countP_append, List.countP_append, List.countP_cons, Nat.add_assoc]
  simp

theorem keyedOn_without (ho : o.entries = before ++ old :: after) (ho' : o'.entries = before ++ after) (c : ChannelId)
    (key : String) :
    o.keyedOn c key = o'.keyedOn c key + if old.channel = c ∧ old.coalesceKey = some key then 1 else 0 := by
  rw [keyedOn, keyedOn, ho, ho', List.countP_append, List.countP_append, List.countP_cons, Nat.add_assoc]
  simp

end Without

theorem keyedOn_eq_zero {o : Outbox} {message : Enqueue} {key : String} (hkey : message.coalesceKey = some key)
    (h : ∀ e ∈ o.entries, ¬ SameKey message e) : o.keyedOn message.channel key = 0 := by
  refine List.countP_eq_zero.mpr fun e he hsame => h e he ?_
  simpa [SameKey, hkey] using hsame

theorem Bounded.push {o : Outbox} (h : Bounded o) {entry : Entry} (hid : entry.id = o.nextId)
    (hshare : o.queuedOn entry.channel < maxQueuedPerChannel)
    (hkeyed : ∀ key, entry.coalesceKey = some key → o.keyedOn entry.channel key = 0) : Bounded (o.push entry hid) where
  share c := by
    have hcap := h.share c
    rw [queuedOn_push]
    split
    · rename_i hc
      subst hc
      omega
    · omega
  keyed c key := by
    have hone := h.keyed c key
    rw [keyedOn_push]
    split
    · rename_i hmatch
      obtain ⟨rfl, hkey⟩ := hmatch
      have hnone := hkeyed key hkey
      omega
    · omega

theorem Bounded.enqueue {o : Outbox} (h : Bounded o) (message : Enqueue) (now : SystemTime) :
    Bounded (o.enqueue message now).1 := by
  have hroom := makeRoom_cases o message
  have hcap := h.share message.channel
  unfold Outbox.enqueue
  generalize o.makeRoom message = room at hroom
  cases hroom with
  | refused => exact h
  | spare hfresh hspare => exact h.push rfl hspare fun key hkey => keyedOn_eq_zero hkey hfresh
  | superseded o' hsplit hentries _ hsame =>
    obtain ⟨hsome, hchannel, hkey⟩ := hsame
    have hleft := h.of_sublist ((sublist_without hsplit hentries).map Entry.message)
    refine hleft.push rfl ?_ fun key hmessage => ?_
    · have hcount := queuedOn_without hsplit hentries message.channel
      rw [if_pos hchannel] at hcount
      show o'.queuedOn message.channel < _
      omega
    · -- the key had one entry, and that is the one taken out
      have hmatch : message.coalesceKey = some key := hmessage
      have hcount := keyedOn_without hsplit hentries message.channel key
      have hone := h.keyed message.channel key
      rw [if_pos ⟨hchannel, hkey.trans hmatch⟩] at hcount
      show o'.keyedOn message.channel key = 0
      omega
  | evicted o' hsplit hentries _ hfresh _ hstale _ =>
    have hsub := sublist_without hsplit hentries
    refine (h.of_sublist (hsub.map Entry.message)).push rfl ?_ fun key hmessage => ?_
    · have hcount := queuedOn_without hsplit hentries message.channel
      rw [if_pos hstale.1] at hcount
      show o'.queuedOn message.channel < _
      omega
    · exact keyedOn_eq_zero hmessage fun e he => hfresh e (hsub.subset he)

/-! ## Over runs -/

section Runs

variable {ω : Type} (P : Ports ω)

theorem sublist_finish (s : Pass ω) : (finish s).outbox.entries.Sublist s.outbox.entries := by
  have h := swept (dead s) s (dead_nodup s)
  show (((dead s).foldl sweep s).outbox.entries.filter _).Sublist _
  rw [h.entries]
  exact List.filter_sublist.trans List.filter_sublist

/-- What a pass leaves was there before it, in the same order. -/
theorem sublist_drain (o : Outbox) (world : ω) (now : SystemTime) (budget : Nat) :
    ((o.drain P world now budget).outbox.entries.map Entry.message).Sublist (o.entries.map Entry.message) := by
  have hleft := (sublist_finish (o.attempts P world now.unixSeconds budget)).map Entry.message
  rw [(tally P o world now.unixSeconds budget).messages] at hleft
  exact hleft.trans (List.filter_sublist.map Entry.message)

def Event.isEnqueue : Event ω → Bool
  | .enqueue _ _ => true
  | _ => false

theorem bounded_step {o : Outbox} (h : Bounded o) (event : Event ω) : Bounded (step P o event) := by
  cases event with
  | enqueue message now => exact h.enqueue message now
  | drain world now budget => exact h.of_sublist (sublist_drain P o world now budget)
  | forgetPeer peer => exact h.of_sublist (List.filter_sublist.map Entry.message)
  | restart => exact h

theorem nextId_step (o : Outbox) (event : Event ω) :
    (step P o event).nextId ≤ o.nextId + if event.isEnqueue = true then 1 else 0 := by
  cases event with
  | enqueue message now =>
    have hcases := enqueue_cases o message now
    show (o.enqueue message now).1.nextId ≤ o.nextId + 1
    generalize o.enqueue message now = after at hcases ⊢
    cases hcases with
    | refused => exact Nat.le_succ _
    | added o' _ hnext => exact Nat.le_of_eq hnext
    | replaced o' _ _ hnext => exact Nat.le_of_eq hnext
  | drain world now budget =>
    show (o.drain P world now budget).outbox.nextId ≤ _
    rw [nextId_drain]
    exact Nat.le_refl _
  | forgetPeer peer => exact Nat.le_refl _
  | restart => exact Nat.le_refl _

theorem nextId_run (o : Outbox) (events : List (Event ω)) :
    (run P o events).nextId ≤ o.nextId + events.countP Event.isEnqueue := by
  induction events generalizing o with
  | nil => exact Nat.le_refl _
  | cons event events ih =>
    have hstep := nextId_step P o event
    have hrest := ih (step P o event)
    rw [List.countP_cons]
    show (run P (step P o event) events).nextId ≤ _
    omega

theorem queue_stays_bounded (events : List (Event ω)) :
    (∀ c, (run P new events).queuedOn c ≤ maxQueuedPerChannel) ∧
    (∀ c key, (run P new events).keyedOn c key ≤ 1) ∧
    (run P new events).ids.Nodup ∧ (∀ id ∈ (run P new events).ids, id < (run P new events).nextId) ∧
    (run P new events).nextId ≤ events.countP Event.isEnqueue ∧
    ∀ message now, Enqueued (run P new events) message now ((run P new events).enqueue message now) := by
  have hbounded : Bounded (run P new events) :=
    Trace.inv_run (Q := Bounded) (fun o event _ h => bounded_step P h event) bounded_new (Trace.eachStep_true _ _)
  refine ⟨hbounded.share, hbounded.keyed, ids_nodup _, fun id hid => ?_, ?_, fun message now => enqueue_cases _ _ _⟩
  · obtain ⟨e, he, rfl⟩ := List.mem_map.mp hid
    exact below _ e he
  · have hnext := nextId_run P new events
    rwa [show new.nextId = 0 from rfl, Nat.zero_add] at hnext

end Runs

end Outbox

end Beacon
