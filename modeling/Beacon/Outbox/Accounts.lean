/-
  Beacon.Outbox.Accounts — does a pass account for every message exactly once?

  - `accounts_iff`: it does exactly when no channel both accepts a send and reports
    itself retired or unknown in that pass. The sweep of a dead channel does not ask
    what the pass has already sent on it.
  - `every_message_once_iff`: so does a whole run, exactly when every pass of it is of
    that kind.
-/

import Beacon.Outbox.Runs

namespace Beacon

open Lib

namespace Outbox

variable {ω : Type} (P : Ports ω)

/-- The ids queued before a pass are parted into sent, dropped and still queued. -/
structure AccountsFor (o : Outbox) (r : Drained ω) : Prop where
  sentOnce : (sentIdsOf r).Nodup
  droppedOnce : (droppedIdsOf r).Nodup
  deferredOnce : (deferredIdsOf r).Nodup
  covered : ∀ id, id ∈ o.ids ↔ id ∈ sentIdsOf r ∨ id ∈ droppedIdsOf r ∨ id ∈ r.outbox.ids
  sentNotDropped : ∀ id ∈ sentIdsOf r, id ∉ droppedIdsOf r
  sentNotQueued : ∀ id ∈ sentIdsOf r, id ∉ r.outbox.ids
  droppedNotQueued : ∀ id ∈ droppedIdsOf r, id ∉ r.outbox.ids
  deferredQueued : ∀ id ∈ deferredIdsOf r, id ∈ r.outbox.ids

/-- No channel accepts a send and is final for another in the pass. -/
def NoMixedChannel (o : Outbox) (world : ω) (now : SystemTime) (budget : Nat) : Prop :=
  ∀ a ∈ (o.drain P.logged (world, []) now budget).world.2,
    ∀ b ∈ (o.drain P.logged (world, []) now budget).world.2,
      a.accepted = true → b.terminal = true → a.channel ≠ b.channel

/-! ## Keeping a log changes nothing -/

/-- The same pass without its log. -/
def withoutLog (s : Pass (ω × List Answer)) : Pass ω :=
  ⟨s.outbox, s.world.1, s.report, s.sentIds, s.droppedIds, s.failedChannels⟩

theorem attempt_withoutLog (now : Nat) (s : Pass (ω × List Answer)) (e : Entry) :
    attempt P now (withoutLog s) e = withoutLog (attempt P.logged now s e) := by
  unfold attempt
  rw [show (withoutLog s).failedChannels = s.failedChannels from rfl]
  cases hf : s.failedChannels[e.channel]? with
  | some reason => rfl
  | none =>
    simp only [Ports.logged, withoutLog]
    rcases he : P.encrypt s.world.1 e.peer e.plaintext with ⟨_ | frame, sealedWorld⟩
    · rfl
    simp only []
    rcases hs : P.send sealedWorld e.channel (e.outbound frame) with ⟨error | messageId, world⟩
    · cases error <;> rfl
    · rfl

theorem attempts_withoutLog (o : Outbox) (world : ω) (now budget : Nat) :
    o.attempts P world now budget = withoutLog (o.attempts P.logged (world, []) now budget) := by
  show List.foldl (attempt P now) (withoutLog (o.opening (world, []) now)) ((o.expire now).1.due now budget) = _
  exact List.foldl_hom withoutLog (attempt_withoutLog P now)

theorem encrypt_logged {w w' : ω × List Answer} {peer : String} {plaintext : Bytes} {r : Except SessionError Bytes}
    (h : P.logged.encrypt w peer plaintext = (r, w')) : w'.2 = w.2 :=
  (congrArg (·.2.2) h).symm

theorem send_logged {w w' : ω × List Answer} {channel : ChannelId} {message : Outbound}
    {r : Except TransportError MessageId} (h : P.logged.send w channel message = (r, w')) :
    w'.2 = w.2 ++ [⟨channel, r⟩] := by
  have h1 : (P.send w.1 channel message).1 = r := congrArg Prod.fst h
  have h2 : w.2 ++ [⟨channel, (P.send w.1 channel message).1⟩] = w'.2 := congrArg (·.2.2) h
  rw [← h2, h1]

/-- What the log of a pass tells: who was sent to, and which channels are dead. -/
structure LogTells (done : List Entry) (s : Pass (ω × List Answer)) : Prop where
  accepted : ∀ c, (∃ a ∈ s.world.2, a.accepted = true ∧ a.channel = c) ↔ SomeOn done s.sentIds c
  terminal : ∀ c, (∃ a ∈ s.world.2, a.terminal = true ∧ a.channel = c) ↔ s.failedChannels[c]? = some .noSession

theorem exists_mem_snoc {α : Type} {l : List α} {x : α} {p : α → Prop} :
    (∃ a ∈ l ++ [x], p a) ↔ (∃ a ∈ l, p a) ∨ p x := by
  simp only [List.mem_append, List.mem_singleton, or_and_right, exists_or, exists_eq_left]

theorem terminal_of_final {error : TransportError} {reason : DropReason} (h : error.final = some reason)
    (c : ChannelId) : (⟨c, .error error⟩ : Answer).terminal = true := by
  cases error with
  | unknownChannel other => rfl
  | retired other => rfl
  | backend detail => cases h

/-- Only an answer without an error accepts. -/
theorem accepted_snoc_error (log : List Answer) (channel : ChannelId) (error : TransportError) (c : ChannelId) :
    (∃ a ∈ log ++ [⟨channel, .error error⟩], a.accepted = true ∧ a.channel = c) ↔
      ∃ a ∈ log, a.accepted = true ∧ a.channel = c := by
  rw [exists_mem_snoc]
  simp

theorem LogTells.step {live done : List Entry} {expired : List Dropped} {now : Nat} {s s' : Pass (ω × List Answer)}
    {e : Entry} (h : LogTells done s) (ht : Tally live done expired s) (hfresh : e.id ∉ done.map Entry.id)
    (hs : Attempted P.logged now s e s') : LogTells (done ++ [e]) s' := by
  have hnot : e.id ∉ s.sentIds := fun hd => hfresh (ht.once.subset (by simp [hd]))
  -- where the entry is not sent, no channel is newly sent to
  have hsame : ∀ c, (∃ a ∈ s.world.2, a.accepted = true ∧ a.channel = c) ↔ SomeOn (done ++ [e]) s.sentIds c :=
    fun c => (h.accepted c).trans (someOn_snoc_entry hnot c).symm
  cases hs with
  | skipped reason _ => exact ⟨hsame, h.terminal⟩
  | unsealed error world _ he =>
    refine ⟨fun c => ?_, fun c => ?_⟩
    · show (∃ a ∈ world.2, _) ↔ _
      rw [encrypt_logged P he]; exact hsame c
    · show (∃ a ∈ world.2, _) ↔ _
      rw [encrypt_logged P he]; exact h.terminal c
  | sent frame sealedWorld messageId world hnone he hsend =>
    have hlog : world.2 = s.world.2 ++ [⟨e.channel, .ok messageId⟩] := by
      rw [send_logged P hsend, encrypt_logged P he]
    refine ⟨fun c => ?_, fun c => ?_⟩
    · show (∃ a ∈ world.2, _) ↔ SomeOn (done ++ [e]) (s.sentIds ++ [e.id]) c
      rw [hlog, exists_mem_snoc, someOn_snoc hfresh, h.accepted]
      simp
    · show (∃ a ∈ world.2, _) ↔ _
      rw [hlog, exists_mem_snoc, h.terminal]
      simp
  | dropped frame sealedWorld error world reason hnone he hsend hfinal =>
    have hlog : world.2 = s.world.2 ++ [⟨e.channel, .error error⟩] := by
      rw [send_logged P hsend, encrypt_logged P he]
    refine ⟨fun c => ?_, fun c => ?_⟩
    · show (∃ a ∈ world.2, _) ↔ SomeOn (done ++ [e]) s.sentIds c
      rw [hlog, accepted_snoc_error]
      exact hsame c
    · show (∃ a ∈ world.2, _) ↔ (s.failedChannels.insert e.channel .noSession)[c]? = _
      rw [hlog, exists_mem_snoc, h.terminal, failed_insert]
      have hterminal := terminal_of_final hfinal e.channel
      by_cases hc : e.channel = c
      · subst hc
        simp [hterminal]
      · simp [hc]
  | refused frame sealedWorld detail world hnone he hsend =>
    have hlog : world.2 = s.world.2 ++ [⟨e.channel, .error (.backend detail)⟩] := by
      rw [send_logged P hsend, encrypt_logged P he]
    refine ⟨fun c => ?_, fun c => ?_⟩
    · show (∃ a ∈ world.2, _) ↔ SomeOn (done ++ [e]) s.sentIds c
      rw [hlog, accepted_snoc_error]
      exact hsame c
    · show (∃ a ∈ world.2, _) ↔ (s.failedChannels.insert e.channel (.unreachable detail))[c]? = _
      rw [hlog, exists_mem_snoc, h.terminal, failed_insert]
      by_cases hc : e.channel = c
      · subst hc
        simp [hnone]
      · simp [hc]

theorem logTells (o : Outbox) (world : ω) (now budget : Nat) :
    LogTells ((o.expire now).1.due now budget) (o.attempts P.logged (world, []) now budget) := by
  refine (Trace.run_prefix_induction (M := fun done s =>
    LogTells done s ∧ Tally (o.expire now).1.entries done (o.expire now).2 s) ?_ ?_).1
  · exact ⟨⟨fun c => by simp [opening, SomeOn], fun c => by simp [opening]⟩, tally_opening o _ now⟩
  · intro done e post hdue h
    have hfresh := fresh_of_due hdue
    have hattempt := attempt_cases P.logged now (Trace.run (attempt P.logged now) (o.opening (world, []) now) done) e
    exact ⟨h.1.step P h.2 hfresh hattempt, h.2.step P.logged hfresh hattempt⟩

/-! ## One pass -/

/-- A pass that both sent and buried on a channel; with the log or without. -/
theorem noMixedChannel_iff (o : Outbox) (world : ω) (now : SystemTime) (budget : Nat) :
    NoMixedChannel P o world now budget ↔
      ∀ c, SomeOn ((o.expire now.unixSeconds).1.due now.unixSeconds budget)
          (o.attempts P world now.unixSeconds budget).sentIds c →
        (o.attempts P world now.unixSeconds budget).failedChannels[c]? ≠ some .noSession := by
  have hlog := logTells P o world now.unixSeconds budget
  have hworld : (o.drain P.logged (world, []) now budget).world =
      (o.attempts P.logged (world, []) now.unixSeconds budget).world := (swept _ _ (dead_nodup _)).world
  rw [attempts_withoutLog]
  show _ ↔ ∀ c, SomeOn _ (o.attempts P.logged (world, []) now.unixSeconds budget).sentIds c →
    (o.attempts P.logged (world, []) now.unixSeconds budget).failedChannels[c]? ≠ some .noSession
  unfold NoMixedChannel
  rw [hworld]
  constructor
  · intro h c hsent hdead
    obtain ⟨a, ha, hacc, hac⟩ := (hlog.accepted c).mpr hsent
    obtain ⟨b, hb, hterm, hbc⟩ := (hlog.terminal c).mpr hdead
    exact h a ha b hb hacc hterm (hac.trans hbc.symm)
  · intro h a ha b hb hacc hterm hc
    exact h a.channel ((hlog.accepted _).mp ⟨a, ha, hacc, rfl⟩) ((hlog.terminal _).mp ⟨b, hb, hterm, hc.symm⟩)

section Pass

variable (o : Outbox) (world : ω) (now : SystemTime) (budget : Nat)

theorem sentNotDropped_iff : (∀ id ∈ sentIdsOf (o.drain P world now budget),
    id ∉ droppedIdsOf (o.drain P world now budget)) ↔ NoMixedChannel P o world now budget := by
  have hnd := List.nodup_append.mp (books_nodup P o world now budget)
  rw [noMixedChannel_iff]
  constructor
  · intro h c hsome hdead
    rcases hsome with ⟨e, he, hs, rfl⟩
    refine h e.id (by rw [sentIdsOf_drain]; exact hs) ?_
    rw [mem_droppedIdsOf_drain]
    exact Or.inr (Or.inr ⟨e, (mem_due he).1, rfl, hdead, fun hd => hnd.2.2 _ hs _ (List.mem_append_left _ hd) rfl⟩)
  · intro h id hs hd
    rw [sentIdsOf_drain] at hs
    obtain ⟨e, he, hlive, rfl⟩ := live_of_sent P o world now budget hs
    rcases (mem_droppedIdsOf_drain P o world now budget _).mp hd with hx | hd | ⟨a, ha, hae, hdead, -⟩
    · exact not_expired_of_live hlive hx
    · exact hnd.2.2 _ hs _ (List.mem_append_left _ hd) rfl
    · rw [(o.expire now.unixSeconds).1.eq_of_id ha hlive hae] at hdead
      exact h e.channel ⟨e, he, hs, rfl⟩ hdead

/-- Of a pass everything adds up, but for what is sent on a channel that dies in it. -/
theorem accounts_iff :
    AccountsFor o (o.drain P world now budget) ↔ NoMixedChannel P o world now budget := by
  have hnd := List.nodup_append.mp (books_nodup P o world now budget)
  rw [← sentNotDropped_iff]
  refine ⟨fun h => h.sentNotDropped, fun h =>
    { sentOnce := by rw [sentIdsOf_drain]; exact hnd.1
      droppedOnce := droppedIdsOf_nodup P o world now budget
      deferredOnce := ((finish_deferred_sublist _).map _).nodup (List.nodup_append.mp hnd.2.1).2.1
      covered := covered P o world now budget
      sentNotDropped := h
      sentNotQueued := fun id => sent_not_queued P o world now budget
      droppedNotQueued := fun id => dropped_not_queued P o world now budget
      deferredQueued := fun id => deferred_queued P o world now budget }⟩

end Pass

/-! ## A whole run -/

/-- A run's outbox, and every id it has reported so far. -/
structure Books where
  outbox : Outbox
  sent : List Nat
  dropped : List Nat

def note (b : Books) (e : Event ω) : Books :=
  ⟨step P b.outbox e, b.sent ++ sentBy P b.outbox e, b.dropped ++ droppedBy P b.outbox e⟩

def Books.new : Books := ⟨.new, [], []⟩

/-- Nothing is reported both sent and dropped. -/
def NeverBoth (b : Books) : Prop := ∀ id ∈ b.sent, id ∉ b.dropped

/-- A drain of this kind of pass; any other step. -/
def CleanPass (b : Books) : Event ω → Prop
  | .drain world now budget => NoMixedChannel P b.outbox world now budget
  | _ => True

/-- Whatever was reported is gone for good: its id is below the next one and not queued. -/
def Closed (b : Books) : Prop := ∀ id, id ∈ b.sent ∨ id ∈ b.dropped → id < b.outbox.nextId ∧ id ∉ b.outbox.ids

theorem closed_note {b : Books} (e : Event ω) (h : Closed b) : Closed (note P b e) := by
  have hs := step_ids P b.outbox e
  have hold : ∀ id, id ∈ b.sent ∨ id ∈ b.dropped → id < (step P b.outbox e).nextId ∧ id ∉ (step P b.outbox e).ids := by
    intro id hid
    obtain ⟨hlt, hnot⟩ := h id hid
    refine ⟨Nat.lt_of_lt_of_le hlt hs.nextId, fun hq => ?_⟩
    rcases hs.queued id hq with hq | hge
    · exact hnot hq
    · omega
  have hnew : ∀ id, id ∈ b.outbox.ids → id < (step P b.outbox e).nextId := by
    intro id hid
    obtain ⟨a, ha, rfl⟩ := List.mem_map.mp hid
    exact Nat.lt_of_lt_of_le (b.outbox.below a ha) hs.nextId
  intro id hid
  show id < (step P b.outbox e).nextId ∧ id ∉ (step P b.outbox e).ids
  rcases hid with hid | hid
  · rcases List.mem_append.mp hid with hid | hid
    · exact hold id (Or.inl hid)
    · exact ⟨hnew id (hs.sent id hid).1, (hs.sent id hid).2⟩
  · rcases List.mem_append.mp hid with hid | hid
    · exact hold id (Or.inr hid)
    · exact ⟨hnew id (hs.dropped id hid).1, (hs.dropped id hid).2⟩

theorem neverBoth_note_iff {b : Books} (e : Event ω) (hc : Closed b) (hb : NeverBoth b) :
    NeverBoth (note P b e) ↔ CleanPass P b e := by
  have hs := step_ids P b.outbox e
  -- an id reported earlier is not queued, so this step reports it in neither list
  have hreduce : NeverBoth (note P b e) ↔ ∀ id ∈ sentBy P b.outbox e, id ∉ droppedBy P b.outbox e := by
    constructor
    · intro h id hsent hdropped
      exact h id (List.mem_append_right _ hsent) (List.mem_append_right _ hdropped)
    · intro h id hsent hdropped
      rcases List.mem_append.mp hsent with hsent | hsent
      · rcases List.mem_append.mp hdropped with hdropped | hdropped
        · exact hb id hsent hdropped
        · exact (hc id (Or.inl hsent)).2 (hs.dropped id hdropped).1
      · rcases List.mem_append.mp hdropped with hdropped | hdropped
        · exact (hc id (Or.inr hdropped)).2 (hs.sent id hsent).1
        · exact h id hsent hdropped
  rw [hreduce]
  cases e with
  | drain world now budget => exact sentNotDropped_iff P b.outbox world now budget
  | enqueue message now => exact iff_of_true (fun _ h => by cases h) trivial
  | forgetPeer peer => exact iff_of_true (fun _ h => by cases h) trivial
  | restart => exact iff_of_true (fun _ h => by cases h) trivial

/-- A pass accounts for every message exactly once, and a run reports none both sent and
    dropped, exactly when in no pass a channel accepts a send and is final for another. -/
theorem every_message_once_iff :
    (∀ (o : Outbox) (world : ω) (now : SystemTime) (budget : Nat),
      AccountsFor o (o.drain P world now budget) ↔ NoMixedChannel P o world now budget) ∧
    ∀ events : List (Event ω),
      Trace.EachState (note P) NeverBoth Books.new events ↔ Trace.EachStep (note P) (CleanPass P) Books.new events := by
  refine ⟨accounts_iff P, fun events => ?_⟩
  refine Trace.eachState_iff_eachStep (I := Closed) (A := fun _ => True) ?_ ?_ (fun _ _ => trivial) ?_ ?_
  · intro b e _ hc _ _
    exact closed_note P e hc
  · intro b e _ hc hb
    exact neverBoth_note_iff P e hc hb
  · intro id hid
    rcases hid with hid | hid <;> cases hid
  · intro id hid
    cases hid

/-- Two messages on one channel, both queued at the epoch. -/
def twoQueued : Outbox :=
  run Ports.scripted .new [.enqueue (.durable "c" "bob" .normal) ⟨0⟩, .enqueue (.durable "c" "bob" .normal) ⟨0⟩]

/-- The channel takes the first message and is retired at the second. -/
def acceptedThenRetired : Drained Script :=
  twoQueued.drain Ports.scripted (script ["bob"] [.ok "m", .error (.retired "c")]) ⟨0⟩ 10

/-- The pass reports the first message both sent and dropped. -/
theorem accepted_then_retired :
    sentIdsOf acceptedThenRetired = [0] ∧ droppedIdsOf acceptedThenRetired = [1, 0] ∧
    ¬ AccountsFor twoQueued acceptedThenRetired := by
  have hsent : sentIdsOf acceptedThenRetired = [0] := by decide +kernel
  have hdropped : droppedIdsOf acceptedThenRetired = [1, 0] := by decide +kernel
  refine ⟨hsent, hdropped, fun h => ?_⟩
  exact h.sentNotDropped 0 (by rw [hsent]; simp) (by rw [hdropped]; simp)

end Outbox

end Beacon
