/-
  Beacon.Outbox.Budget — does a dead channel eat the budget of a live one?

  A pass fixes the entries it will try before it tries any: the first of the due ones, as
  many as the budget. What it then passes over because its channel has failed has taken
  a place all the same.
  - `calls_attempts`: the entries attempted are the ones sealed, one call each.
  - `spares_live_channels_iff`: what a pass skips costs it no attempt, and one with attempts
    left has left nothing of a live channel, exactly if none of its places went to an entry
    behind a failed send or every due entry had a place.
-/

import Beacon.Outbox.Runs

namespace Beacon

open Lib

/-- The same ports, keeping what was handed over to be sealed. -/
def Ports.sealing {ω : Type} (P : Ports ω) : Ports (ω × List (String × Bytes)) where
  encrypt w peer plaintext :=
    ((P.encrypt w.1 peer plaintext).1, ((P.encrypt w.1 peer plaintext).2, w.2 ++ [(peer, plaintext)]))
  send w channel message := ((P.send w.1 channel message).1, ((P.send w.1 channel message).2, w.2))

namespace Outbox

variable {ω : Type} (P : Ports ω)

/-! ## What is attempted -/

/-- All that is due, in the order of a pass. -/
def allDue (o : Outbox) (now : Nat) : List Entry :=
  (o.entries.filter fun e => e.notBeforeSecs ≤ now).insertionSort fun a b => a.dueKey ≤ b.dueKey

def failed (s : Pass ω) (c : ChannelId) : Bool := s.failedChannels[c]?.isSome

/-- Of these entries the ones whose channel has not failed when their turn comes. -/
def tried (now : Nat) : Pass ω → List Entry → List Entry
  | _, [] => []
  | s, e :: es => (if failed s e.channel then [] else [e]) ++ tried now (attempt P now s e) es

def attempted (o : Outbox) (world : ω) (now budget : Nat) : List Entry :=
  tried P now (o.opening world now) ((o.expire now).1.due now budget)

/-- Of these entries the ones whose channel has failed when their turn comes. -/
def passedOver (now : Nat) : Pass ω → List Entry → List Entry
  | _, [] => []
  | s, e :: es => (if failed s e.channel then [e] else []) ++ passedOver now (attempt P now s e) es

def skipped (o : Outbox) (world : ω) (now budget : Nat) : List Entry :=
  passedOver P now (o.opening world now) ((o.expire now).1.due now budget)

/-- A dead channel does not eat the budget of a live one. -/
structure SparesLiveChannels (o : Outbox) (world : ω) (now : SystemTime) (budget : Nat) : Prop where
  /-- A pass with attempts left has left nothing due of a channel that did not fail in it. -/
  live : (o.attempted P world now.unixSeconds budget).length < budget →
    ∀ e ∈ (o.expire now.unixSeconds).1.entries, e.notBeforeSecs ≤ now.unixSeconds →
      e ∉ o.attempted P world now.unixSeconds budget →
        failed (o.attempts P world now.unixSeconds budget) e.channel = true
  /-- Of what is due and not skipped, as many are attempted as the budget allows. -/
  free : (o.attempted P world now.unixSeconds budget).length =
    min budget (((o.expire now.unixSeconds).1.allDue now.unixSeconds).length -
      (o.skipped P world now.unixSeconds budget).length)

/-- The channels the world fails a send on, when these entries are handed to it in turn and
    one behind a failed send on its channel is left out. -/
def failing : ω → List ChannelId → List Entry → List ChannelId
  | _, failed, [] => failed
  | w, failed, e :: es =>
    if e.channel ∈ failed then failing w failed es
    else
      match P.encrypt w e.peer e.plaintext with
      | (.error _, w) => failing w failed es
      | (.ok frame, w) =>
        match P.send w e.channel (e.outbound frame) with
        | (.ok _, w) => failing w failed es
        | (.error _, w) => failing w (e.channel :: failed) es

/-- No place among the first `budget` goes to an entry behind a failed send, or there is a place for all. -/
def WellSpent (o : Outbox) (world : ω) (now : SystemTime) (budget : Nat) : Prop :=
  (∀ before e after, ((o.expire now.unixSeconds).1.allDue now.unixSeconds).take budget = before ++ e :: after →
    e.channel ∉ failing P world [] before) ∨
  ((o.expire now.unixSeconds).1.allDue now.unixSeconds).length ≤ budget

/-! ## Attempts are calls -/

/-- The same pass without its record of what was sealed. -/
def withoutCalls (s : Pass (ω × List (String × Bytes))) : Pass ω :=
  ⟨s.outbox, s.world.1, s.report, s.sentIds, s.droppedIds, s.failedChannels⟩

theorem attempt_sealing (now : Nat) (s : Pass (ω × List (String × Bytes))) (e : Entry) :
    attempt P now (withoutCalls s) e = withoutCalls (attempt P.sealing now s e) ∧
    (attempt P.sealing now s e).world.2 = s.world.2 ++ if failed s e.channel then [] else [(e.peer, e.plaintext)] := by
  unfold attempt failed
  rw [show (withoutCalls s).failedChannels = s.failedChannels from rfl]
  cases hf : s.failedChannels[e.channel]? with
  | some reason => exact ⟨rfl, (List.append_nil _).symm⟩
  | none =>
    simp only [Ports.sealing, withoutCalls]
    rcases he : P.encrypt s.world.1 e.peer e.plaintext with ⟨_ | frame, sealedWorld⟩
    · exact ⟨rfl, rfl⟩
    simp only []
    rcases hs : P.send sealedWorld e.channel (e.outbound frame) with ⟨error | messageId, world⟩
    · cases error <;> exact ⟨rfl, rfl⟩
    · exact ⟨rfl, rfl⟩

theorem calls_tried (now : Nat) (s : Pass (ω × List (String × Bytes))) (es : List Entry) :
    (Trace.run (attempt P.sealing now) s es).world.2 =
      s.world.2 ++ (tried P now (withoutCalls s) es).map fun e => (e.peer, e.plaintext) := by
  induction es generalizing s with
  | nil => exact (List.append_nil _).symm
  | cons e es ih =>
    obtain ⟨hsame, hcalls⟩ := attempt_sealing P now s e
    rw [Trace.run_cons, ih, hcalls, tried, hsame, List.map_append, List.append_assoc]
    congr 2
    show (if failed s e.channel then [] else [(e.peer, e.plaintext)]) =
      (if failed s e.channel then [] else [e]).map _
    split <;> rfl

/-- A pass seals the entries it attempts, each once, and nothing else. -/
theorem calls_attempts (o : Outbox) (world : ω) (now budget : Nat) :
    (o.attempts P.sealing (world, []) now budget).world.2 =
      (o.attempted P world now budget).map fun e => (e.peer, e.plaintext) :=
  calls_tried P now (o.opening (world, []) now) _

/-! ## What is passed over -/

variable {P}

theorem failed_attempt {now : Nat} {s : Pass ω} {e : Entry} {c : ChannelId} (h : failed s c = true) :
    failed (attempt P now s e) c = true := by
  have hinsert : ∀ reason, (s.failedChannels.insert e.channel reason)[c]?.isSome = true := by
    intro reason
    rw [failed_insert]
    split
    · rfl
    · exact h
  have hcases := attempt_cases P now s e
  generalize attempt P now s e = s' at hcases ⊢
  cases hcases with
  | skipped => exact h
  | unsealed => exact h
  | sent => exact h
  | dropped => exact hinsert _
  | refused => exact hinsert _

theorem failed_run {now : Nat} {s : Pass ω} {es : List Entry} {c : ChannelId} (h : failed s c = true) :
    failed (Trace.run (attempt P now) s es) c = true :=
  Trace.inv_run (P := fun _ _ => True) (Q := fun s => failed s c = true) (fun _ _ _ => failed_attempt) h
    (Trace.eachStep_true _ _)

theorem tried_sublist (now : Nat) (s : Pass ω) (es : List Entry) : (tried P now s es).Sublist es := by
  induction es generalizing s with
  | nil => exact List.Sublist.refl _
  | cons e es ih =>
    rw [tried]
    split
    · exact (ih _).cons e
    · exact (ih _).cons_cons e

theorem length_tried_passedOver (now : Nat) (s : Pass ω) (es : List Entry) :
    (tried P now s es).length + (passedOver P now s es).length = es.length := by
  induction es generalizing s with
  | nil => rfl
  | cons e es ih =>
    have hrest := ih (attempt P now s e)
    rw [tried, passedOver]
    split
    · simp only [List.nil_append, List.cons_append, List.length_cons]
      omega
    · simp only [List.nil_append, List.cons_append, List.length_cons]
      omega

/-- What was not attempted is on a channel that failed. -/
theorem failed_of_not_tried {now : Nat} {s : Pass ω} {es : List Entry} {e : Entry} (he : e ∈ es)
    (hnot : e ∉ tried P now s es) : failed (Trace.run (attempt P now) s es) e.channel = true := by
  induction es generalizing s with
  | nil => cases he
  | cons a es ih =>
    rw [tried, List.mem_append, not_or] at hnot
    rcases List.mem_cons.mp he with rfl | he
    · have hfailed : failed s e.channel = true := by
        by_contra h
        rw [if_neg h] at hnot
        exact hnot.1 (List.mem_singleton_self e)
      exact failed_run hfailed
    · exact ih he hnot.2

theorem tried_append (now : Nat) (s : Pass ω) (es fs : List Entry) :
    tried P now s (es ++ fs) = tried P now s es ++ tried P now (Trace.run (attempt P now) s es) fs := by
  induction es generalizing s with
  | nil => rfl
  | cons e es ih => rw [List.cons_append, tried, tried, ih, List.append_assoc, Trace.run_cons]

/-- Nothing is passed over exactly if no entry stands behind a failed send. -/
theorem tried_all_iff {now : Nat} {s : Pass ω} {es : List Entry} :
    (tried P now s es).length = es.length ↔
      ∀ before e after, es = before ++ e :: after →
        failed (Trace.run (attempt P now) s before) e.channel = false := by
  constructor
  · intro h before e after hsplit
    by_contra hfailed
    rw [Bool.not_eq_false] at hfailed
    subst hsplit
    have hbefore := (tried_sublist (P := P) now s before).length_le
    have hafter := (tried_sublist (P := P) now (attempt P now (Trace.run (attempt P now) s before) e) after).length_le
    rw [tried_append, tried, if_pos hfailed] at h
    simp only [List.length_append, List.length_cons, List.nil_append] at h
    omega
  · intro h
    induction es generalizing s with
    | nil => rfl
    | cons e es ih =>
      have hfirst := h [] e es rfl
      have hrest := ih fun before a after hsplit => h (e :: before) a after (by rw [hsplit, List.cons_append])
      rw [Trace.run_nil] at hfirst
      rw [tried, hfirst]
      simp [hrest]

/-- The channels that fail in a pass are the ones the world fails a send on. -/
theorem failed_iff_failing {now : Nat} {s : Pass ω} {es : List Entry} {channels : List ChannelId}
    (h : ∀ c, failed s c = true ↔ c ∈ channels) (c : ChannelId) :
    failed (Trace.run (attempt P now) s es) c = true ↔ c ∈ failing P s.world channels es := by
  induction es generalizing s channels with
  | nil => exact h c
  | cons e es ih =>
    have hnone : s.failedChannels[e.channel]? = none → e.channel ∉ channels := by
      intro hf
      rw [← h, failed, hf]
      exact Bool.false_ne_true
    have hinsert : ∀ reason d, (s.failedChannels.insert e.channel reason)[d]?.isSome = true ↔
        d ∈ e.channel :: channels := by
      intro reason d
      rw [failed_insert, List.mem_cons, ← h]
      by_cases hd : e.channel = d
      · simp [hd]
      · simp [hd, Ne.symm hd, failed]
    rw [Trace.run_cons]
    have hcases := attempt_cases P now s e
    generalize attempt P now s e = s' at hcases ⊢
    cases hcases with
    | skipped reason hf =>
      have hmem : e.channel ∈ channels := by
        rw [← h, failed, hf]
        rfl
      rw [failing, if_pos hmem]
      exact ih h
    | unsealed error world hf he =>
      rw [failing, if_neg (hnone hf), he]
      exact ih h
    | sent frame sealedWorld messageId world hf he hs =>
      rw [failing, if_neg (hnone hf), he]
      simp only [hs]
      exact ih h
    | dropped frame sealedWorld error world reason hf he hs _ =>
      rw [failing, if_neg (hnone hf), he]
      simp only [hs]
      exact ih (hinsert _)
    | refused frame sealedWorld detail world hf he hs =>
      rw [failing, if_neg (hnone hf), he]
      simp only [hs]
      exact ih (hinsert _)

theorem mem_allDue {o : Outbox} {now : Nat} {e : Entry} :
    e ∈ o.allDue now ↔ e ∈ o.entries ∧ e.notBeforeSecs ≤ now := by
  rw [allDue, (List.perm_insertionSort _ _).mem_iff]
  simp

variable (P)

theorem spares_live_channels_iff (o : Outbox) (world : ω) (now : SystemTime) (budget : Nat) :
    SparesLiveChannels P o world now budget ↔ WellSpent P o world now budget := by
  let due := (o.expire now.unixSeconds).1.allDue now.unixSeconds
  let start := o.opening world now.unixSeconds
  have hnone : ∀ c, failed start c = true ↔ c ∈ [] := fun c => by simp [start, failed, opening]
  have hplaces : (tried P now.unixSeconds start (due.take budget)).length = (due.take budget).length ↔
      ∀ before e after, due.take budget = before ++ e :: after → e.channel ∉ failing P world [] before := by
    rw [tried_all_iff]
    refine forall_congr' fun before => forall_congr' fun e => forall_congr' fun after => imp_congr_right fun _ => ?_
    have hfailing : failed (Trace.run (attempt P now.unixSeconds) start before) e.channel = true ↔
        e.channel ∈ failing P world [] before := failed_iff_failing hnone e.channel
    rw [← Bool.not_eq_true, hfailing]
  have hcount := length_tried_passedOver (P := P) now.unixSeconds start (due.take budget)
  have htaken : (due.take budget).length = min budget due.length := List.length_take
  have hfree : (o.attempted P world now.unixSeconds budget).length =
      min budget (due.length - (o.skipped P world now.unixSeconds budget).length) ↔ WellSpent P o world now budget := by
    show (tried P now.unixSeconds start (due.take budget)).length =
      min budget (due.length - (passedOver P now.unixSeconds start (due.take budget)).length) ↔ _ ∨ due.length ≤ budget
    rw [← hplaces]
    omega
  constructor
  · exact fun h => hfree.mp h.free
  · refine fun h => ⟨fun hleft e he hdue hnot => ?_, hfree.mpr h⟩
    -- nothing due is without a place, so what was not attempted was skipped
    have hall : due.length ≤ budget := by
      rcases h with h | h
      · have hfull := hplaces.mpr h
        have hleft : (tried P now.unixSeconds start (due.take budget)).length < budget := hleft
        omega
      · exact h
    have hmem : e ∈ due.take budget := by
      rw [List.take_of_length_le hall]
      exact mem_allDue.mpr ⟨he, hdue⟩
    exact failed_of_not_tried hmem hnot

/-! ## Whatever the world answers -/

section Always

variable {P}

theorem failing_mono {w : ω} {channels : List ChannelId} {es : List Entry} {c : ChannelId} (h : c ∈ channels) :
    c ∈ failing P w channels es := by
  fun_induction failing P w channels es with
  | case1 => exact h
  | case2 _ _ _ _ _ ih => exact ih h
  | case3 _ _ _ _ _ _ _ _ ih => exact ih h
  | case4 _ _ _ _ _ _ _ _ _ _ _ ih => exact ih h
  | case5 _ _ _ _ _ _ _ _ _ _ _ ih => exact ih (List.mem_cons_of_mem _ h)

theorem channel_of_failing {w : ω} {channels : List ChannelId} {es : List Entry} {c : ChannelId}
    (h : c ∈ failing P w channels es) : c ∈ channels ∨ ∃ e ∈ es, e.channel = c := by
  fun_induction failing P w channels es with
  | case1 => exact Or.inl h
  | case2 _ _ _ _ _ ih => exact (ih h).imp_right fun ⟨e, he, hc⟩ => ⟨e, List.mem_cons_of_mem _ he, hc⟩
  | case3 _ _ _ _ _ _ _ _ ih => exact (ih h).imp_right fun ⟨e, he, hc⟩ => ⟨e, List.mem_cons_of_mem _ he, hc⟩
  | case4 _ _ _ _ _ _ _ _ _ _ _ ih => exact (ih h).imp_right fun ⟨e, he, hc⟩ => ⟨e, List.mem_cons_of_mem _ he, hc⟩
  | case5 _ _ _ _ _ _ _ _ _ _ _ ih =>
    rcases ih h with hmem | ⟨e, he, hc⟩
    · rcases List.mem_cons.mp hmem with rfl | hmem
      · exact Or.inr ⟨_, List.mem_cons_self, rfl⟩
      · exact Or.inl hmem
    · exact Or.inr ⟨e, List.mem_cons_of_mem _ he, hc⟩

end Always

/-- No two places go to one channel, or there is a place for all. -/
def PlacesApart (o : Outbox) (now : SystemTime) (budget : Nat) : Prop :=
  (∀ before a after, ((o.expire now.unixSeconds).1.allDue now.unixSeconds).take budget = before ++ a :: after →
    ∀ b ∈ before, b.channel ≠ a.channel) ∨
  ((o.expire now.unixSeconds).1.allDue now.unixSeconds).length ≤ budget

/-- A world that seals everything and fails the sends on one channel. -/
def downOn (c : ChannelId) : Ports Unit where
  encrypt _ _ plaintext := (.ok plaintext, ())
  send _ channel _ := (if channel = c then .error (.backend "down") else .ok "", ())

theorem downOn_fails {c : ChannelId} {es : List Entry} (h : ∃ e ∈ es, e.channel = c) (channels : List ChannelId) :
    c ∈ failing (downOn c) () channels es := by
  induction es generalizing channels with
  | nil => simp at h
  | cons e es ih =>
    unfold failing
    by_cases hmem : e.channel ∈ channels
    · rw [if_pos hmem]
      by_cases hc : e.channel = c
      · exact failing_mono (hc ▸ hmem)
      · exact ih (by simpa [hc] using h) _
    · rw [if_neg hmem]
      by_cases hc : e.channel = c
      · simp only [downOn, hc, if_true]
        exact failing_mono List.mem_cons_self
      · simp only [downOn, hc, if_false]
        exact ih (by simpa [hc] using h) _

/-- The condition on the queue alone: no answer of the world makes a pass waste its budget. -/
theorem well_spent_always_iff (o : Outbox) (now : SystemTime) (budget : Nat) :
    (∀ (ω : Type) (P : Ports ω) (world : ω), WellSpent P o world now budget) ↔ PlacesApart o now budget := by
  constructor
  · intro h
    by_cases hall : ((o.expire now.unixSeconds).1.allDue now.unixSeconds).length ≤ budget
    · exact Or.inr hall
    refine Or.inl fun before a after hsplit b hb hchannel => ?_
    -- the world fails the sends on the one channel
    have hplaces := (h Unit (downOn a.channel) ()).resolve_right hall
    exact hplaces before a after hsplit (downOn_fails ⟨b, hb, hchannel⟩ [])
  · rintro (hapart | hall) ω P world
    · refine Or.inl fun before a after hsplit hfailing => ?_
      obtain ⟨b, hb, hchannel⟩ := (channel_of_failing hfailing).resolve_left List.not_mem_nil
      exact hapart before a after hsplit b hb hchannel
    · exact Or.inr hall

/-- Two messages on a channel that is down, and behind them one on a channel that is not. -/
def downAndUp : Outbox :=
  run Ports.scripted .new [.enqueue (.durable "down" "bob" .normal) ⟨0⟩, .enqueue (.durable "down" "bob" .normal) ⟨0⟩,
    .enqueue (.durable "up" "carol" .normal) ⟨0⟩]

/-- The second message to the channel that is down takes the place of the one to the other. -/
theorem live_channel_starved :
    (downAndUp.attempted Ports.scripted (script ["bob", "carol"] [.error (.backend "down")]) 0 2).map Entry.id = [0] ∧
    ¬ SparesLiveChannels Ports.scripted downAndUp (script ["bob", "carol"] [.error (.backend "down")]) ⟨0⟩ 2 := by
  have hattempted : (downAndUp.attempted Ports.scripted (script ["bob", "carol"] [.error (.backend "down")]) 0 2).map
      Entry.id = [0] := by decide +kernel
  refine ⟨hattempted, fun h => ?_⟩
  have hleft : (downAndUp.attempted Ports.scripted (script ["bob", "carol"] [.error (.backend "down")]) 0 2).length <
      2 := by
    rw [← List.length_map (f := Entry.id), hattempted]
    decide
  obtain ⟨e, he, hid, hdue, hchannel⟩ : ∃ e ∈ (downAndUp.expire 0).1.entries, e.id = 2 ∧ e.notBeforeSecs ≤ 0 ∧
      e.channel = "up" := by decide +kernel
  have hnot : e ∉ downAndUp.attempted Ports.scripted (script ["bob", "carol"] [.error (.backend "down")]) 0 2 := by
    intro hmem
    have hids := List.mem_map_of_mem (f := Entry.id) hmem
    rw [hattempted, hid] at hids
    exact absurd hids (by decide)
  have hfailed := h.live hleft e he hdue hnot
  rw [hchannel] at hfailed
  exact absurd hfailed (by decide +kernel)

end Outbox

end Beacon
