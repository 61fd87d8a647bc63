/-
  Beacon.Outbox.Order — does a channel keep its order from drain to drain?

  - `channel_order_kept`: on a clock that never runs backwards and with one peer to a
    channel, messages leave a channel first in, first out and urgent before normal, as
    long as no drain takes up an entry it can seal while one before it is backing off.
  - `overtaken_after_backoff`: a failed attempt holds back the entry that made it, and
    what waits behind it is due at once.
  What carries the order through a pass is `Settled`: an entry the pass is done with is
  sent, or its channel has failed, or its peer cannot be sealed for; and the last two
  keep everything behind it on its channel from being sent.
-/

import Beacon.Outbox.Runs

namespace Beacon

open Lib

/-- `a` is to leave before `e`. -/
def Entry.Ahead (a e : Entry) : Prop :=
  a.channel = e.channel ∧
    (a.highPriority = true ∧ e.highPriority = false ∨ a.highPriority = e.highPriority ∧ a.id < e.id)

instance (a e : Entry) : Decidable (a.Ahead e) := inferInstanceAs (Decidable (_ ∧ _))

namespace Outbox

variable {ω : Type} (P : Ports ω)

/-- The id `x` is an entry's, and `y` that of a live one to leave before it. -/
def Awaits (o : Outbox) (now y x : Nat) : Prop :=
  ∃ e ∈ o.entries, e.id = x ∧ ∃ a ∈ (o.expire now).1.entries, a.id = y ∧ a.Ahead e

instance (o : Outbox) (now y x : Nat) : Decidable (o.Awaits now y x) :=
  inferInstanceAs (Decidable (∃ e ∈ o.entries, e.id = x ∧ ∃ a ∈ (o.expire now).1.entries, a.id = y ∧ a.Ahead e))

/-- A drain that sends nothing while an entry to leave before it is still queued. -/
def KeepsOrder (o : Outbox) : Event ω → Prop
  | .drain world now budget => Trace.Heeds (o.Awaits now.unixSeconds) (sentIdsOf (o.drain P world now budget))
  | _ => True

/-- The pass takes up no entry it can seal while one to leave before it is backing off. -/
def Unobstructed (seals : String → Bool) (o : Outbox) (now budget : Nat) : Prop :=
  ∀ e ∈ (o.expire now).1.due now budget, seals e.peer = true →
    ∀ a ∈ (o.expire now).1.entries, a.Ahead e → a.notBeforeSecs ≤ now

instance (seals : String → Bool) (o : Outbox) (now budget : Nat) : Decidable (Unobstructed seals o now budget) :=
  inferInstanceAs (Decidable (∀ e ∈ (o.expire now).1.due now budget, seals e.peer = true →
    ∀ a ∈ (o.expire now).1.entries, a.Ahead e → a.notBeforeSecs ≤ now))

/-- A drain of this kind of pass; any other step. -/
def UnobstructedStep (sealable : ω → String → Bool) (o : Outbox) : Event ω → Prop
  | .drain world now budget => Unobstructed (sealable world) o now.unixSeconds budget
  | _ => True

/-! ## The order of a pass -/

theorem dueKey_lt {a e : Entry} (h : a.Ahead e) (haged : a.id < e.id → a.enqueuedAtSecs ≤ e.enqueuedAtSecs) :
    a.dueKey < e.dueKey := by
  unfold Entry.dueKey
  rw [Prod.Lex.toLex_lt_toLex]
  rcases h.2 with ⟨ha, he⟩ | ⟨hsame, hid⟩
  · left
    rw [ha, he]
    exact Bool.false_lt_true
  · right
    refine ⟨by rw [hsame], ?_⟩
    rw [Prod.Lex.toLex_lt_toLex]
    have := haged hid
    rcases Nat.lt_or_eq_of_le this with hlt | heq
    · exact Or.inl hlt
    · exact Or.inr ⟨heq, hid⟩

/-- What is due with a smaller key was taken up earlier. -/
theorem mem_done_of_dueKey_lt {o : Outbox} {now budget : Nat} {done post : List Entry} {a e : Entry}
    (hdue : o.due now budget = done ++ e :: post) (ha : a ∈ o.entries) (hready : a.notBeforeSecs ≤ now)
    (hlt : a.dueKey < e.dueKey) : a ∈ done := by
  have : Std.Total fun a b : Entry => a.dueKey ≤ b.dueKey := ⟨fun a b => le_total a.dueKey b.dueKey⟩
  have : IsTrans Entry fun a b : Entry => a.dueKey ≤ b.dueKey := ⟨fun _ _ _ h h' => le_trans h h'⟩
  have hsorted := List.pairwise_insertionSort (fun a b : Entry => a.dueKey ≤ b.dueKey)
    (o.entries.filter fun e => e.notBeforeSecs ≤ now)
  have hmem : a ∈ (o.entries.filter fun e => e.notBeforeSecs ≤ now).insertionSort fun a b => a.dueKey ≤ b.dueKey := by
    rw [(List.perm_insertionSort _ _).mem_iff, List.mem_filter]
    exact ⟨ha, by simpa using hready⟩
  unfold due at hdue
  rw [← List.take_append_drop budget (List.insertionSort _ _), hdue, List.append_assoc] at hsorted hmem
  rcases List.mem_append.mp hmem with hdone | hlater
  · exact hdone
  · rw [List.cons_append] at hlater hsorted
    rcases List.mem_cons.mp hlater with rfl | hlater
    · exact absurd hlt (lt_irrefl _)
    · have hle := (List.pairwise_cons.mp (List.pairwise_append.mp hsorted).2.1).1 a hlater
      exact absurd hlt (not_lt_of_ge hle)

/-- A pass after `done`: what it is done with is sent, or nothing behind it will be. -/
structure Settled (sealable : ω → String → Bool) (world : ω) (needs : Nat → Nat → Prop) (done : List Entry)
    (s : Pass ω) : Prop where
  done : ∀ a ∈ done, a.id ∈ s.sentIds ∨ s.failedChannels[a.channel]? ≠ none ∨ sealable world a.peer = false
  sealable : sealable s.world = sealable world
  heeds : Trace.Heeds needs s.sentIds

/-- An attempt that fails its channel settles the entry, and unsettles nothing. -/
theorem Settled.fail {sealable : ω → String → Bool} {w : ω} {needs : Nat → Nat → Prop} {done : List Entry}
    {s s' : Pass ω} {e : Entry} {reason : DeferReason} (h : Settled sealable w needs done s)
    (hsent : s'.sentIds = s.sentIds) (hfailed : s'.failedChannels = s.failedChannels.insert e.channel reason)
    (hworld : sealable s'.world = sealable w) : Settled sealable w needs (done ++ [e]) s' := by
  have hget : ∀ c, e.channel = c ∨ s.failedChannels[c]? ≠ none → s'.failedChannels[c]? ≠ none := by
    intro c hc
    rw [hfailed, failed_insert]
    by_cases heq : e.channel = c
    · simp [heq]
    · rw [if_neg heq]
      exact hc.resolve_left heq
  refine ⟨fun a ha => ?_, hworld, by rw [hsent]; exact h.heeds⟩
  rw [hsent]
  rcases List.mem_append.mp ha with ha | ha
  · rcases h.done a ha with hs | hf | hu
    · exact Or.inl hs
    · exact Or.inr (Or.inl (hget _ (Or.inr hf)))
    · exact Or.inr (Or.inr hu)
  · obtain rfl := List.mem_singleton.mp ha
    exact Or.inr (Or.inl (hget _ (Or.inl rfl)))

theorem Settled.step {sealable : ω → String → Bool} (hP : SealsByPeer P sealable) {w : ω} {needs : Nat → Nat → Prop}
    {done : List Entry} {now : Nat} {s s' : Pass ω} {e : Entry} (h : Settled sealable w needs done s)
    (hahead : sealable w e.peer = true →
      ∀ y, needs y e.id → ∃ a ∈ done, a.id = y ∧ a.channel = e.channel ∧ a.peer = e.peer)
    (hs : Attempted P now s e s') : Settled sealable w needs (done ++ [e]) s' := by
  have hseals := hP.encrypt s.world e.peer e.plaintext
  have hkept := (hs.keeps P hP.afterEncrypt hP.afterSend).trans h.sealable
  rw [h.sealable] at hseals
  cases hs with
  | skipped reason hfailed =>
    refine ⟨fun a ha => ?_, h.sealable, h.heeds⟩
    rcases List.mem_append.mp ha with ha | ha
    · exact h.done a ha
    · obtain rfl := List.mem_singleton.mp ha
      refine Or.inr (Or.inl ?_)
      rw [hfailed]
      exact Option.some_ne_none reason
  | unsealed error world hnone he =>
    rw [he] at hseals
    refine ⟨fun a ha => ?_, hkept, h.heeds⟩
    rcases List.mem_append.mp ha with ha | ha
    · exact h.done a ha
    · obtain rfl := List.mem_singleton.mp ha
      exact Or.inr (Or.inr hseals.symm)
  | sent frame sealedWorld messageId world hnone he hsend =>
    refine ⟨fun a ha => ?_, hkept, h.heeds.snoc fun y hy => ?_⟩
    · rcases List.mem_append.mp ha with ha | ha
      · rcases h.done a ha with hs | hother
        · exact Or.inl (List.mem_append_left _ hs)
        · exact Or.inr hother
      · obtain rfl := List.mem_singleton.mp ha
        exact Or.inl (by simp)
    · -- the channel has not failed and the peer can be sealed for: what was ahead is sent
      rw [he] at hseals
      obtain ⟨a, ha, rfl, hchannel, hpeer⟩ := hahead hseals.symm y hy
      rcases h.done a ha with hs | hf | hu
      · exact hs
      · rw [hchannel] at hf
        exact absurd hnone hf
      · rw [hpeer, ← hseals] at hu
        cases hu
  | dropped frame sealedWorld error world reason hnone he hsend hfinal =>
    exact h.fail rfl rfl (hkept)
  | refused frame sealedWorld detail world hnone he hsend => exact h.fail rfl rfl (hkept)

/-- Where everything ahead on a channel is ready and for the same peer, a pass keeps the order. -/
theorem heeds_attempts {sealable : ω → String → Bool} (hP : SealsByPeer P sealable) (o : Outbox) (world : ω)
    (now budget : Nat) (haged : ∀ a ∈ o.entries, ∀ e ∈ o.entries, a.id < e.id → a.enqueuedAtSecs ≤ e.enqueuedAtSecs)
    (hpeer : ∀ a ∈ o.entries, ∀ e ∈ o.entries, a.channel = e.channel → a.peer = e.peer)
    (hready : Unobstructed (sealable world) o now budget) :
    Trace.Heeds (o.Awaits now) (o.attempts P world now budget).sentIds := by
  have h : Settled sealable world (o.Awaits now) ((o.expire now).1.due now budget) (o.attempts P world now budget) := by
    refine Trace.run_prefix_induction (M := Settled sealable world (o.Awaits now)) ?_ ?_
    · exact ⟨fun a ha => (by cases ha), rfl, Trace.heeds_nil⟩
    · intro done e post hdue ih
      have he : e ∈ (o.expire now).1.due now budget := by rw [hdue]; simp
      have heo : e ∈ o.entries := (mem_expire.mp (mem_due he).1).1
      refine ih.step P hP (fun hseals y hy => ?_) (attempt_cases P now _ e)
      obtain ⟨e', he', hid, a, ha, rfl, hahead⟩ := hy
      obtain rfl := o.eq_of_id he' heo hid
      have hao : a ∈ o.entries := (mem_expire.mp ha).1
      have hkey := dueKey_lt hahead (haged a hao e' heo)
      exact ⟨a, mem_done_of_dueKey_lt hdue ha (hready e' he hseals a ha hahead) hkey, rfl, hahead.1,
        hpeer a hao e' heo hahead.1⟩
  exact h.heeds

/-! ## The order of a run -/

/-- What the order of a pass rests on, on a clock that has come to `clock`. -/
structure Steady (peerOf : ChannelId → String) (o : Outbox) (clock : Nat) : Prop where
  aged : ∀ a ∈ o.entries, ∀ e ∈ o.entries, a.id < e.id → a.enqueuedAtSecs ≤ e.enqueuedAtSecs
  past : ∀ e ∈ o.entries, e.enqueuedAtSecs ≤ clock
  peers : ∀ e ∈ o.entries, e.peer = peerOf e.channel

theorem steady_new (peerOf : ChannelId → String) : Steady peerOf .new 0 :=
  ⟨fun a ha => (by cases ha), fun e he => (by cases he), fun e he => (by cases he)⟩

theorem Steady.step {peerOf : ChannelId → String} {o : Outbox} {clock clock' : Nat} (h : Steady peerOf o clock)
    (event : Event ω) (hclock : clock ≤ clock') (hnow : ∀ now, event.now? = some now → now.unixSeconds = clock')
    (hpeer : ∀ message now, event = .enqueue message now → message.peer = peerOf message.channel) :
    Steady peerOf (step P o event) clock' := by
  refine ⟨fun a ha e he hlt => ?_, fun e he => ?_, fun e he => ?_⟩
  · rcases mem_step P ha with ⟨a', ha', hsame⟩ | ⟨message, now, rfl, hid, -, -, hat⟩
    · have haid : a'.id = a.id := Entry.id_eq hsame
      have haat : a'.enqueuedAtSecs = a.enqueuedAtSecs := Entry.enqueuedAtSecs_eq hsame
      have hpast := h.past a' ha'
      rcases mem_step P he with ⟨e', he', hsame'⟩ | ⟨message, now, rfl, -, -, -, hat⟩
      · have heid : e'.id = e.id := Entry.id_eq hsame'
        have heat : e'.enqueuedAtSecs = e.enqueuedAtSecs := Entry.enqueuedAtSecs_eq hsame'
        have := h.aged a' ha' e' he' (by omega)
        omega
      · have := hnow now rfl
        omega
    · -- the newest entry is behind no other
      rcases mem_step P he with ⟨e', he', hsame'⟩ | ⟨_, _, _, hid', -⟩
      · have heid : e'.id = e.id := Entry.id_eq hsame'
        have := o.below e' he'
        omega
      · omega
  · rcases mem_step P he with ⟨e', he', hsame⟩ | ⟨message, now, rfl, -, -, -, hat⟩
    · have heat : e'.enqueuedAtSecs = e.enqueuedAtSecs := Entry.enqueuedAtSecs_eq hsame
      have := h.past e' he'
      omega
    · have := hnow now rfl
      omega
  · rcases mem_step P he with ⟨e', he', hsame⟩ | ⟨message, now, rfl, -, hc, hp, -⟩
    · have hchannel : e'.channel = e.channel := Entry.channel_eq hsame
      have hsamePeer : e'.peer = e.peer := Entry.peer_eq hsame
      rw [← hchannel, ← hsamePeer]
      exact h.peers e' he'
    · rw [hp, hc]
      exact hpeer message now rfl

theorem keepsOrder_of_steady {sealable : ω → String → Bool} (hP : SealsByPeer P sealable)
    {peerOf : ChannelId → String} {o : Outbox} {clock : Nat} (h : Steady peerOf o clock) {event : Event ω}
    (hready : UnobstructedStep sealable o event) : KeepsOrder P o event := by
  cases event with
  | drain world now budget =>
    show Trace.Heeds _ (sentIdsOf (o.drain P world now budget))
    rw [sentIdsOf_drain]
    refine heeds_attempts P hP o world now.unixSeconds budget h.aged (fun a ha e he hc => ?_) hready
    rw [h.peers a ha, h.peers e he, hc]
  | enqueue message now => trivial
  | forgetPeer peer => trivial
  | restart => trivial

/-- The clock never runs backwards. -/
def Clocked (events : List (Event ω)) : Prop := (events.filterMap Event.now?).Pairwise (· ≤ ·)

/-- The entries of a channel are for one peer. -/
def OnePeer (peerOf : ChannelId → String) (events : List (Event ω)) : Prop :=
  ∀ message now, Event.enqueue message now ∈ events → message.peer = peerOf message.channel

theorem eachStep_keepsOrder {sealable : ω → String → Bool} (hP : SealsByPeer P sealable)
    {peerOf : ChannelId → String} (events : List (Event ω)) {o : Outbox} {clock : Nat} (h : Steady peerOf o clock)
    (hclock : Clocked events) (hpast : ∀ now ∈ events.filterMap Event.now?, clock ≤ now.unixSeconds)
    (hpeers : OnePeer peerOf events) (hready : Trace.EachStep (step P) (UnobstructedStep sealable) o events) :
    Trace.EachStep (step P) (KeepsOrder P) o events := by
  induction events generalizing o clock with
  | nil => trivial
  | cons event events ih =>
    have hpeer : ∀ message now, event = .enqueue message now → message.peer = peerOf message.channel :=
      fun message now heq => hpeers message now (by rw [heq]; exact List.mem_cons_self)
    have hpeers' : OnePeer peerOf events := fun message now hmem => hpeers message now (List.mem_cons_of_mem _ hmem)
    refine ⟨keepsOrder_of_steady P hP h hready.1, ?_⟩
    unfold Clocked at hclock ih
    cases hnow : event.now? with
    | none =>
      rw [List.filterMap_cons_none hnow] at hclock hpast
      have hstep := h.step P event (Nat.le_refl clock) (fun now heq => by simp [hnow] at heq) hpeer
      exact ih hstep hclock hpast hpeers' hready.2
    | some now =>
      rw [List.filterMap_cons_some hnow] at hclock hpast
      obtain ⟨hlater, hclock'⟩ := List.pairwise_cons.mp hclock
      have hstep := h.step P event (hpast now List.mem_cons_self)
        (fun now' heq => by rw [hnow] at heq; cases heq; rfl) hpeer
      exact ih hstep hclock' (fun now' hmem => SystemTime.unixSeconds_mono (hlater now' hmem)) hpeers' hready.2

/-- Where everything is taken, all that is due and can be sealed is sent. -/
theorem sentIds_taken {sealable : ω → String → Bool} (hP : SealsByPeer P sealable)
    (htaken : ∀ w channel message, (P.send w channel message).1.isOk = true) (o : Outbox) (world : ω)
    (now budget : Nat) :
    (o.attempts P world now budget).sentIds =
      (((o.expire now).1.due now budget).filter fun e => sealable world e.peer).map Entry.id := by
  refine (Trace.run_prefix_induction (M := fun done (s : Pass ω) => sealable s.world = sealable world ∧
    s.sentIds = (done.filter fun e => sealable world e.peer).map Entry.id ∧ s.failedChannels = ∅) ⟨rfl, rfl, rfl⟩ ?_).2.1
  intro done e post _ ih
  obtain ⟨hworld, hsent, hfailed⟩ := ih
  have hcases := attempt_cases P now (Trace.run (attempt P now) (o.opening world now) done) e
  have hkept := (hcases.keeps P hP.afterEncrypt hP.afterSend).trans hworld
  generalize Trace.run (attempt P now) (o.opening world now) done = s at *
  have hseals := hP.encrypt s.world e.peer e.plaintext
  rw [hworld] at hseals
  generalize attempt P now s e = s' at hcases hkept ⊢
  cases hcases with
  | skipped reason hskip => simp [hfailed] at hskip
  | unsealed error world' _ he =>
    rw [he] at hseals
    have hno : sealable world e.peer = false := hseals.symm
    exact ⟨hkept, by simp [hsent, hno], hfailed⟩
  | sent frame sealedWorld messageId world' _ he _ =>
    rw [he] at hseals
    have hyes : sealable world e.peer = true := hseals.symm
    exact ⟨hkept, by simp [hsent, hyes], hfailed⟩
  | dropped frame sealedWorld error world' reason _ _ hsend _ =>
    have htake := htaken sealedWorld e.channel (e.outbound frame)
    rw [hsend] at htake
    cases htake
  | refused frame sealedWorld detail world' _ _ hsend =>
    have htake := htaken sealedWorld e.channel (e.outbound frame)
    rw [hsend] at htake
    cases htake

/-- An obstructed pass sends out of order as soon as everything is taken. -/
theorem unobstructed_of_keepsOrder {sealable : ω → String → Bool} (hP : SealsByPeer P sealable)
    (htaken : ∀ w channel message, (P.send w channel message).1.isOk = true) {o : Outbox} {world : ω}
    {now : SystemTime} {budget : Nat} (h : KeepsOrder P o (.drain world now budget)) :
    Unobstructed (sealable world) o now.unixSeconds budget := by
  intro e he hseals a ha hahead
  have hsent : sentIdsOf (o.drain P world now budget) =
      (((o.expire now.unixSeconds).1.due now.unixSeconds budget).filter fun e => sealable world e.peer).map
        Entry.id := by
    rw [sentIdsOf_drain]
    exact sentIds_taken P hP htaken o world now.unixSeconds budget
  have hmem : e ∈ ((o.expire now.unixSeconds).1.due now.unixSeconds budget).filter fun e => sealable world e.peer :=
    List.mem_filter.mpr ⟨he, hseals⟩
  obtain ⟨before, after, hsplit⟩ := List.append_of_mem hmem
  rw [hsplit, List.map_append, List.map_cons] at hsent
  have hawaits : o.Awaits now.unixSeconds a.id e.id :=
    ⟨e, (mem_expire.mp (mem_due he).1).1, rfl, a, ha, rfl, hahead⟩
  obtain ⟨b, hb, hid⟩ := List.mem_map.mp (h _ _ _ hsent _ hawaits)
  have hbdue : b ∈ (o.expire now.unixSeconds).1.due now.unixSeconds budget := by
    have hbmem : b ∈ ((o.expire now.unixSeconds).1.due now.unixSeconds budget).filter fun e => sealable world e.peer := by
      rw [hsplit]
      exact List.mem_append_left _ hb
    exact (List.mem_filter.mp hbmem).1
  obtain ⟨hblive, hready⟩ := mem_due hbdue
  rwa [(o.expire now.unixSeconds).1.eq_of_id hblive ha hid] at hready

section Run

variable {O : Olm} {τ : Type} (send : τ → ChannelId → Outbound → Except TransportError MessageId × τ)

/-- Over the session manager and any transport, a channel keeps its order in every run
    whose drains take up no entry they can seal while one before it is backing off; and a
    drain that does so sends out of order over a transport that takes everything. -/
theorem channel_order_kept {agrees : O.PublicKey → O.PublicKey → Bool} {usable : O.Session → Bool}
    (hO : O.SealsByKeys agrees usable) (peerOf : ChannelId → String)
    (events : List (Event (SessionManager O × τ))) (hclock : Clocked events) (hpeers : OnePeer peerOf events) :
    (Trace.EachStep (step (.over send)) (UnobstructedStep fun w => w.1.sealable agrees usable) .new events →
      Trace.EachStep (step (.over send)) (KeepsOrder (.over send)) .new events) ∧
    ∀ (o : Outbox) (sessions : SessionManager O) (now : SystemTime) (budget : Nat),
      KeepsOrder (.over sendTaking) o (.drain (sessions, ()) now budget) →
        Unobstructed (sessions.sealable agrees usable) o now.unixSeconds budget := by
  refine ⟨fun hready => ?_, fun o sessions now budget h => ?_⟩
  · exact eachStep_keepsOrder _ (sealsByPeer_over send hO) events (steady_new peerOf) hclock
      (fun now _ => Nat.zero_le _) hpeers hready
  · exact unobstructed_of_keepsOrder _ (sealsByPeer_over sendTaking hO) (fun _ _ _ => rfl) h

end Run

/-- A message, an urgent one behind it, and a pass that fails at the urgent one; a minute
    later, when it may be tried again, a pass that sends both. -/
def failedThenSent : List (Event Script) :=
  [.enqueue (.durable "c" "bob" .normal) ⟨0⟩, .enqueue (.durable "c" "bob" .high) ⟨0⟩,
   .drain (script ["bob"] [.error (.backend "down")]) ⟨0⟩ 10, .drain (script ["bob"] []) ⟨60000000000⟩ 10]

theorem failedThenSent_in_order :
    Trace.EachStep (step Ports.scripted) (KeepsOrder Ports.scripted) .new failedThenSent ∧
    sentBy Ports.scripted (run Ports.scripted .new (failedThenSent.take 3))
      (.drain (script ["bob"] []) ⟨60000000000⟩ 10) = [1, 0] := by
  have hclock : Clocked failedThenSent := by
    unfold Clocked
    decide
  have hpeers : OnePeer (fun _ => "bob") failedThenSent := by
    intro message now h
    rcases List.mem_cons.mp h with h | h
    · cases h
      rfl
    rcases List.mem_cons.mp h with h | h
    · cases h
      rfl
    · simp at h
  have hready : Trace.EachStep (step Ports.scripted)
      (UnobstructedStep fun w => w.1.sealable (fun _ _ => true) (fun _ => true)) .new failedThenSent := by
    refine ⟨trivial, trivial, ?_, ?_, trivial⟩
    · show Unobstructed _ _ _ _
      decide +kernel
    · show Unobstructed _ _ _ _
      decide +kernel
  exact ⟨(channel_order_kept sendScripted Olm.plain_sealsByKeys (fun _ => "bob") failedThenSent hclock hpeers).1 hready,
    by decide +kernel⟩

/-- Two messages on a channel, a pass that fails at the first, and one a second later. -/
def overtaken (first : Priority) : List (Event Script) :=
  [.enqueue (.durable "c" "bob" first) ⟨0⟩, .enqueue (.durable "c" "bob" .normal) ⟨0⟩,
   .drain (script ["bob"] [.error (.backend "down")]) ⟨0⟩ 10, .drain (script ["bob"] []) ⟨1000000000⟩ 10]

theorem clocked_overtaken (first : Priority) : Clocked (overtaken first) := by
  unfold Clocked
  show List.Pairwise _ ([⟨0⟩, ⟨0⟩, ⟨0⟩, ⟨1000000000⟩] : List SystemTime)
  decide

theorem onePeer_overtaken (first : Priority) : OnePeer (fun _ => "bob") (overtaken first) := by
  intro message now h
  rcases List.mem_cons.mp h with h | h
  · cases h
    rfl
  rcases List.mem_cons.mp h with h | h
  · cases h
    rfl
  · simp at h

/-- The second message overtakes the first, also where the first is urgent. -/
theorem overtaken_after_backoff :
    (Clocked (overtaken .normal) ∧ OnePeer (fun _ => "bob") (overtaken .normal) ∧
      ¬ Trace.EachStep (step Ports.scripted) (KeepsOrder Ports.scripted) .new (overtaken .normal)) ∧
    (Clocked (overtaken .high) ∧ OnePeer (fun _ => "bob") (overtaken .high) ∧
      ¬ Trace.EachStep (step Ports.scripted) (KeepsOrder Ports.scripted) .new (overtaken .high)) := by
  refine ⟨⟨clocked_overtaken _, onePeer_overtaken _, fun h => ?_⟩,
    clocked_overtaken _, onePeer_overtaken _, fun h => ?_⟩
  all_goals
    -- the last drain sends the second message alone
    have hdrain := h.2.2.2.1
    exact absurd (hdrain [] 1 [] (by decide +kernel) 0 (by decide +kernel)) (by simp)

end Outbox

end Beacon
