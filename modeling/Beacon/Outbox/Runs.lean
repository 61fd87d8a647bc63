/-
  Beacon.Outbox.Runs — an outbox's runs. Each event is one call with its arguments; a
  drain brings the world it runs in, so between two drains anything may have happened
  to the sessions, the channels and the servers.

  `step_ids` is what every step does to the ids: one that is queued afterwards was queued
  before or is new, and what the step reports is gone. `mem_step` is what it does to the
  entries: it makes the one just queued, and changes nothing but the backoff of the others.
-/

import Beacon.Outbox.Pass

namespace Beacon

open Lib

namespace Outbox

inductive Event (ω : Type) where
  | enqueue (message : Enqueue) (now : SystemTime)
  | drain (world : ω) (now : SystemTime) (budget : Nat)
  | forgetPeer (peer : String)
  | restart

variable {ω : Type} (P : Ports ω)

/-- The clock a call reads. -/
def Event.now? : Event ω → Option SystemTime
  | .enqueue _ now => some now
  | .drain _ now _ => some now
  | _ => none

def step (o : Outbox) : Event ω → Outbox
  | .enqueue message now => (o.enqueue message now).1
  | .drain world now budget => (o.drain P world now budget).outbox
  | .forgetPeer peer => (o.forgetPeer peer).1
  | .restart =>
    match importSnapshot o.exportSnapshot with
    | .ok o' => o'
    | .error _ => o

abbrev run (o : Outbox) (events : List (Event ω)) : Outbox := Trace.run (step P) o events

/-- The ids a step reports as sent. -/
def sentBy (o : Outbox) : Event ω → List Nat
  | .drain world now budget => sentIdsOf (o.drain P world now budget)
  | _ => []

/-- The ids a step reports as dropped. -/
def droppedBy (o : Outbox) : Event ω → List Nat
  | .drain world now budget => droppedIdsOf (o.drain P world now budget)
  | .enqueue message now =>
    match (o.enqueue message now).2 with
    | .ok (_, some dropped) => [dropped.id]
    | _ => []
  | .forgetPeer peer => (o.forgetPeer peer).2.map (·.id)
  | .restart => []

/-! ## What is reported is gone -/

theorem find?_split {o : Outbox} {p : Entry → Bool} {old : Entry} (h : o.entries.find? p = some old) :
    ∃ before after, o.entries = before ++ old :: after ∧ (o.removeFirst p).entries = before ++ after ∧
      p old = true ∧ ∀ e ∈ before, p e = false := by
  obtain ⟨hp, before, after, hsplit, hbefore⟩ := List.find?_eq_some_iff_append.mp h
  have hfirst : ∀ e ∈ before, p e = false := fun e he => by simpa using hbefore e he
  refine ⟨before, after, hsplit, ?_, hp, hfirst⟩
  show o.entries.eraseP p = _
  rw [hsplit, List.eraseP_append_right _ (fun e he => by simp [hfirst e he]), List.eraseP_cons_of_pos hp]

/-- The entry is queued on the message's channel, under the key the message has. -/
def SameKey (message : Enqueue) (e : Entry) : Prop :=
  message.coalesceKey.isSome = true ∧ e.channel = message.channel ∧ e.coalesceKey = message.coalesceKey

/-- The entry is queued on the message's channel, and may go stale. -/
def Stale (message : Enqueue) (e : Entry) : Prop := e.channel = message.channel ∧ e.isDurable = false

/-- The channel's entries. -/
def queuedOn (o : Outbox) (c : ChannelId) : Nat := o.entries.countP fun e => e.channel == c

/-- The four ways to make room. -/
inductive Room (o : Outbox) (message : Enqueue) : Except EnqueueError (Outbox × Option Dropped) → Prop
  | refused : (∀ e ∈ o.entries, ¬ SameKey message e) → maxQueuedPerChannel ≤ o.queuedOn message.channel →
      (∀ e ∈ o.entries, ¬ Stale message e) → Room o message (.error (.full message.channel))
  | spare : (∀ e ∈ o.entries, ¬ SameKey message e) → o.queuedOn message.channel < maxQueuedPerChannel →
      Room o message (.ok (o, none))
  | superseded {before after : List Entry} {old : Entry} (o' : Outbox) : o.entries = before ++ old :: after →
      o'.entries = before ++ after → o'.nextId = o.nextId → SameKey message old →
      (∀ e ∈ before, ¬ SameKey message e) → Room o message (.ok (o', some (old.dropped .superseded)))
  | evicted {before after : List Entry} {old : Entry} (o' : Outbox) : o.entries = before ++ old :: after →
      o'.entries = before ++ after → o'.nextId = o.nextId → (∀ e ∈ o.entries, ¬ SameKey message e) →
      maxQueuedPerChannel ≤ o.queuedOn message.channel → Stale message old → (∀ e ∈ before, ¬ Stale message e) →
      Room o message (.ok (o', some (old.dropped .expired)))

theorem makeRoom_cases (o : Outbox) (message : Enqueue) : Room o message (o.makeRoom message) := by
  have hsame : ∀ e : Entry, message.coalesceKey.isSome = true →
      ((e.channel == message.channel && e.coalesceKey == message.coalesceKey) = true ↔ SameKey message e) := by
    intro e hkey
    simp [SameKey, hkey]
  have hstale : ∀ e : Entry, (e.channel == message.channel && !e.isDurable) = true ↔ Stale message e := by
    intro e
    simp [Stale]
  unfold makeRoom
  simp only []
  split
  next old hold =>
    split at hold
    next hkey =>
      obtain ⟨before, after, hsplit, hentries, hp, hbefore⟩ := find?_split hold
      refine .superseded _ hsplit hentries rfl ((hsame old hkey).mp hp) fun e he => ?_
      rw [← hsame e hkey, hbefore e he]
      exact Bool.false_ne_true
    next => cases hold
  next hnone =>
    have hfresh : ∀ e ∈ o.entries, ¬ SameKey message e := by
      intro e he hkey
      rw [if_pos hkey.1, List.find?_eq_none] at hnone
      exact hnone e he ((hsame e hkey.1).mpr hkey)
    split
    next hspare => exact .spare hfresh hspare
    next hfull =>
      split
      next old hold =>
        obtain ⟨before, after, hsplit, hentries, hp, hbefore⟩ := find?_split hold
        refine .evicted _ hsplit hentries rfl hfresh (Nat.le_of_not_lt hfull) ((hstale old).mp hp) fun e he => ?_
        rw [← hstale, hbefore e he]
        exact Bool.false_ne_true
      next hdurable =>
        rw [List.find?_eq_none] at hdurable
        exact .refused hfresh (Nat.le_of_not_lt hfull) fun e he h => hdurable e he ((hstale e).mpr h)

/-- One entry less: its id is the one that is gone. -/
theorem ids_without {o o' : Outbox} {before after : List Entry} {old : Entry} (ho : o.entries = before ++ old :: after)
    (ho' : o'.entries = before ++ after) : old.id ∈ o.ids ∧ ∀ id, id ∈ o'.ids ↔ id ∈ o.ids ∧ id ≠ old.id := by
  have hnd := o.ids_nodup
  unfold ids at hnd ⊢
  rw [ho, List.map_append, List.map_cons] at hnd
  have hnd' := (List.nodup_middle.mp hnd)
  rw [List.nodup_cons, List.mem_append, not_or] at hnd'
  rw [ho', ho]
  simp only [List.map_append, List.map_cons, List.mem_append, List.mem_cons]
  refine ⟨by simp, fun id => ⟨?_, ?_⟩⟩
  · intro h
    rcases h with hid | hid
    · exact ⟨Or.inl hid, fun heq => hnd'.1.1 (heq ▸ hid)⟩
    · exact ⟨Or.inr (Or.inr hid), fun heq => hnd'.1.2 (heq ▸ hid)⟩
  · intro h
    rcases h with ⟨hid | hid | hid, hne⟩
    · exact Or.inl hid
    · exact absurd hid hne
    · exact Or.inr hid

/-- The queue a message is pushed on lost at most one entry, and reports it. -/
theorem makeRoom_ids {o o' : Outbox} {message : Enqueue} {superseded : Option Dropped}
    (h : o.makeRoom message = .ok (o', superseded)) :
    o'.nextId = o.nextId ∧
    ((superseded = none ∧ o'.ids = o.ids) ∨
      ∃ d, superseded = some d ∧ d.id ∈ o.ids ∧ ∀ id, id ∈ o'.ids ↔ id ∈ o.ids ∧ id ≠ d.id) := by
  have hroom := makeRoom_cases o message
  rw [h] at hroom
  cases hroom with
  | spare => exact ⟨rfl, Or.inl ⟨rfl, rfl⟩⟩
  | superseded _ hsplit hentries hnext => exact ⟨hnext, Or.inr ⟨_, rfl, ids_without hsplit hentries⟩⟩
  | evicted _ hsplit hentries hnext => exact ⟨hnext, Or.inr ⟨_, rfl, ids_without hsplit hentries⟩⟩

/-- What a step does to the ids. -/
structure Accounted (o o' : Outbox) (sent dropped : List Nat) : Prop where
  nextId : o.nextId ≤ o'.nextId
  queued : ∀ id ∈ o'.ids, id ∈ o.ids ∨ o.nextId ≤ id
  sent : ∀ id ∈ sent, id ∈ o.ids ∧ id ∉ o'.ids
  dropped : ∀ id ∈ dropped, id ∈ o.ids ∧ id ∉ o'.ids

theorem accounted_enqueue (o : Outbox) (message : Enqueue) (now : SystemTime) :
    Accounted o (step P o (.enqueue message now)) (sentBy P o (.enqueue message now))
      (droppedBy P o (.enqueue message now)) := by
  simp only [step, droppedBy, sentBy, enqueue]
  cases hroom : o.makeRoom message with
  | error error => exact ⟨Nat.le_refl _, fun id h => Or.inl h, fun _ h => (by cases h), fun _ h => (by cases h)⟩
  | ok room =>
    obtain ⟨o', superseded⟩ := room
    obtain ⟨hnext, hids⟩ := makeRoom_ids hroom
    have hpush : ∀ (entry : Entry) (h : entry.id = o'.nextId) id,
        id ∈ (o'.push entry h).ids ↔ id ∈ o'.ids ∨ id = o.nextId := by
      intro entry h id
      show id ∈ (o'.entries ++ [entry]).map Entry.id ↔ _
      rw [List.map_append, List.mem_append, List.map_singleton, List.mem_singleton, h, hnext]
      rfl
    refine ⟨?_, ?_, fun _ h => (by cases h), ?_⟩
    · show o.nextId ≤ o'.nextId + 1
      omega
    · intro id hid
      rcases (hpush _ rfl id).mp hid with hid | rfl
      · left
        rcases hids with ⟨-, hsame⟩ | ⟨d, -, -, hiff⟩
        · rwa [hsame] at hid
        · exact ((hiff id).mp hid).1
      · exact Or.inr (Nat.le_refl _)
    · intro id hid
      rcases hids with ⟨rfl, -⟩ | ⟨d, rfl, hd, hiff⟩
      · cases hid
      · obtain rfl := List.mem_singleton.mp hid
        refine ⟨hd, fun hq => ?_⟩
        rcases (hpush _ rfl _).mp hq with hq | hq
        · exact ((hiff _).mp hq).2 rfl
        · obtain ⟨a, ha, had⟩ := List.mem_map.mp hd
          have := o.below a ha
          omega

theorem accounted_drain (o : Outbox) (world : ω) (now : SystemTime) (budget : Nat) :
    Accounted o (step P o (.drain world now budget)) (sentBy P o (.drain world now budget))
      (droppedBy P o (.drain world now budget)) where
  nextId := by
    show o.nextId ≤ (o.drain P world now budget).outbox.nextId
    rw [nextId_drain]
  queued id hid := Or.inl ((covered P o world now budget id).mpr (Or.inr (Or.inr hid)))
  sent id hid := ⟨(covered P o world now budget id).mpr (Or.inl hid), sent_not_queued P o world now budget hid⟩
  dropped id hid :=
    ⟨(covered P o world now budget id).mpr (Or.inr (Or.inl hid)), dropped_not_queued P o world now budget hid⟩

theorem accounted_forgetPeer (o : Outbox) (peer : String) :
    Accounted o (step P o (.forgetPeer peer)) (sentBy P o (.forgetPeer peer)) (droppedBy P o (.forgetPeer peer)) where
  nextId := Nat.le_refl _
  queued id hid := Or.inl ((List.filter_sublist.map Entry.id).subset hid)
  sent _ h := by cases h
  dropped id hid := by
    obtain ⟨d, hd, rfl⟩ := List.mem_map.mp hid
    obtain ⟨e, he, rfl⟩ := List.mem_map.mp hd
    obtain ⟨heo, hpeer⟩ := List.mem_filter.mp he
    refine ⟨List.mem_map_of_mem heo, fun hq => ?_⟩
    obtain ⟨a, ha, hae⟩ := List.mem_map.mp hq
    obtain ⟨hao, hkept⟩ := List.mem_filter.mp ha
    rw [o.eq_of_id hao heo hae] at hkept
    simp_all

theorem step_ids (o : Outbox) (e : Event ω) : Accounted o (step P o e) (sentBy P o e) (droppedBy P o e) := by
  cases e with
  | enqueue message now => exact accounted_enqueue P o message now
  | drain world now budget => exact accounted_drain P o world now budget
  | forgetPeer peer => exact accounted_forgetPeer P o peer
  | restart => exact ⟨Nat.le_refl _, fun id h => Or.inl h, fun _ h => (by cases h), fun _ h => (by cases h)⟩

/-! ## What is queued -/

theorem makeRoom_entries {o o' : Outbox} {message : Enqueue} {superseded : Option Dropped}
    (h : o.makeRoom message = .ok (o', superseded)) : o'.entries.Sublist o.entries := by
  have hroom := makeRoom_cases o message
  rw [h] at hroom
  cases hroom with
  | spare => exact List.Sublist.refl _
  | superseded _ hsplit hentries =>
    rw [hsplit, hentries]
    exact (List.sublist_cons_self _ _).append_left _
  | evicted _ hsplit hentries =>
    rw [hsplit, hentries]
    exact (List.sublist_cons_self _ _).append_left _

theorem mem_step {o : Outbox} {event : Event ω} {e : Entry} (h : e ∈ (step P o event).entries) :
    (∃ a ∈ o.entries, a.message = e.message) ∨
    ∃ message now, event = .enqueue message now ∧ e.id = o.nextId ∧ e.channel = message.channel ∧
      e.peer = message.peer ∧ e.enqueuedAtSecs = now.unixSeconds := by
  cases event with
  | enqueue message now =>
    simp only [step, enqueue] at h
    cases hroom : o.makeRoom message with
    | error error =>
      rw [hroom] at h
      exact Or.inl ⟨e, h, rfl⟩
    | ok room =>
      obtain ⟨o', superseded⟩ := room
      rw [hroom] at h
      rcases List.mem_append.mp h with hold | hnew
      · exact Or.inl ⟨e, (makeRoom_entries hroom).subset hold, rfl⟩
      · rw [List.mem_singleton.mp hnew]
        exact Or.inr ⟨message, now, rfl, (makeRoom_ids hroom).1, rfl, rfl, rfl⟩
  | drain world now budget =>
    obtain ⟨hmem, -⟩ := mem_finish_entries.mp h
    obtain ⟨a, ha, hsame⟩ := (exists_of_messages (tally P o world now.unixSeconds budget).messages
      (p := fun a => a.message = e.message) (fun _ => Iff.rfl)).mp ⟨e, hmem, rfl⟩
    exact Or.inl ⟨a, (mem_expire.mp ha).1, hsame⟩
  | forgetPeer peer => exact Or.inl ⟨e, List.filter_sublist.subset h, rfl⟩
  | restart => exact Or.inl ⟨e, h, rfl⟩

end Outbox

end Beacon
