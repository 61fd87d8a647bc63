/-
  Beacon.Outbox.Pass — what one pass does to its entries, said once.

  - `attempt_cases`: the five ends of one attempt, with the answers that lead there.
  - `tally`: after the attempts, what was sent, dropped and deferred is exactly the due
    entries, each once, and a channel is dead exactly if one of its entries was dropped.
  - `finish_*`: the sweep drops what is left on the dead channels, also what was sent on
    them, and takes back their deferred records.
-/

import Beacon.Outbox.Drain

namespace Beacon

open Lib

/-- Why an answer is final for the channel. -/
def TransportError.final : TransportError → Option DropReason
  | .retired _ => some .channelRetired
  | .unknownChannel _ => some .channelUnknown
  | .backend _ => none

namespace Outbox

variable {ω : Type} (P : Ports ω)

/-! ## One attempt -/

inductive Attempted (now : Nat) (s : Pass ω) (e : Entry) : Pass ω → Prop
  | skipped (reason : DeferReason) : s.failedChannels[e.channel]? = some reason →
      Attempted now s e { s with report := s.report.addDeferred (e.deferred reason e.attempts) }
  | unsealed (error : SessionError) (world : ω) : s.failedChannels[e.channel]? = none →
      P.encrypt s.world e.peer e.plaintext = (.error error, world) →
      Attempted now s e
        { s with
          world
          report := s.report.addDeferred (e.deferred (sealReason error) (e.attempts + 1))
          outbox := s.outbox.backOff e.id now }
  | sent (frame : Bytes) (sealedWorld : ω) (messageId : MessageId) (world : ω) :
      s.failedChannels[e.channel]? = none → P.encrypt s.world e.peer e.plaintext = (.ok frame, sealedWorld) →
      P.send sealedWorld e.channel (e.outbound frame) = (.ok messageId, world) →
      Attempted now s e
        { s with world, report := s.report.addSent (e.sent messageId now), sentIds := s.sentIds ++ [e.id] }
  | dropped (frame : Bytes) (sealedWorld : ω) (error : TransportError) (world : ω) (reason : DropReason) :
      s.failedChannels[e.channel]? = none → P.encrypt s.world e.peer e.plaintext = (.ok frame, sealedWorld) →
      P.send sealedWorld e.channel (e.outbound frame) = (.error error, world) → error.final = some reason →
      Attempted now s e (dropDead s world e reason)
  | refused (frame : Bytes) (sealedWorld : ω) (detail : String) (world : ω) :
      s.failedChannels[e.channel]? = none → P.encrypt s.world e.peer e.plaintext = (.ok frame, sealedWorld) →
      P.send sealedWorld e.channel (e.outbound frame) = (.error (.backend detail), world) →
      Attempted now s e
        { s with
          world
          report := s.report.addDeferred (e.deferred (.unreachable detail) (e.attempts + 1))
          failedChannels := s.failedChannels.insert e.channel (.unreachable detail)
          outbox := s.outbox.backOff e.id now }

theorem attempt_cases (now : Nat) (s : Pass ω) (e : Entry) : Attempted P now s e (attempt P now s e) := by
  unfold attempt
  cases hf : s.failedChannels[e.channel]? with
  | some reason => exact .skipped reason hf
  | none =>
    simp only []
    rcases he : P.encrypt s.world e.peer e.plaintext with ⟨_ | frame, sealedWorld⟩
    · exact .unsealed _ _ hf he
    simp only []
    rcases hs : P.send sealedWorld e.channel (e.outbound frame) with ⟨error | messageId, world⟩
    · cases error with
      | unknownChannel c => exact .dropped frame sealedWorld _ world _ hf he hs rfl
      | retired c => exact .dropped frame sealedWorld _ world _ hf he hs rfl
      | backend detail => exact .refused frame sealedWorld detail world hf he hs
    · exact .sent frame sealedWorld messageId world hf he hs

theorem failed_insert (failed : Std.ExtTreeMap ChannelId DeferReason compare) (c : ChannelId) (reason : DeferReason)
    (c' : ChannelId) : (failed.insert c reason)[c']? = if c = c' then some reason else failed[c']? := by
  rw [Std.ExtTreeMap.getElem?_insert]
  simp

/-- What neither call changes about the world, an attempt does not. -/
theorem Attempted.keeps {α : Type} {f : ω → α} (hencrypt : ∀ w peer plaintext, f (P.encrypt w peer plaintext).2 = f w)
    (hsend : ∀ w channel message, f (P.send w channel message).2 = f w) {now : Nat} {s s' : Pass ω} {e : Entry}
    (hs : Attempted P now s e s') : f s'.world = f s.world := by
  have hworld : f (P.encrypt s.world e.peer e.plaintext).2 = f s.world := hencrypt _ _ _
  have hboth : ∀ {frame : Bytes} {sealedWorld world : ω} {r : Except TransportError MessageId},
      P.encrypt s.world e.peer e.plaintext = (.ok frame, sealedWorld) →
      P.send sealedWorld e.channel (e.outbound frame) = (r, world) → f world = f s.world := by
    intro frame sealedWorld world r he hs
    have hlast := hsend sealedWorld e.channel (e.outbound frame)
    rw [he] at hworld
    rw [hs] at hlast
    exact hlast.trans hworld
  cases hs with
  | skipped reason _ => rfl
  | unsealed error world _ he =>
    rw [he] at hworld
    exact hworld
  | sent frame sealedWorld messageId world _ he hs => exact hboth he hs
  | dropped frame sealedWorld error world reason _ he hs _ => exact hboth he hs
  | refused frame sealedWorld detail world _ he hs => exact hboth he hs

/-! ## The entries of a pass -/

theorem messages_backOff (o : Outbox) (id now : Nat) :
    (o.backOff id now).entries.map Entry.message = o.entries.map Entry.message := by
  show (o.entries.map _).map Entry.message = _
  rw [List.map_map]
  refine List.map_congr_left fun e _ => ?_
  simp only [Function.comp]
  split
  · exact Entry.message_backedOff e now
  · rfl

theorem exists_of_messages {l l' : List Entry} (h : l.map Entry.message = l'.map Entry.message) {p : Entry → Prop}
    (hp : ∀ e : Entry, p e.message ↔ p e) : (∃ e ∈ l, p e) ↔ ∃ e ∈ l', p e := by
  have hmap : ∀ k : List Entry, (∃ e ∈ k, p e) ↔ ∃ m ∈ k.map Entry.message, p m := by
    intro k
    simp only [List.mem_map, exists_exists_and_eq_and, hp]
  rw [hmap l, hmap l', h]

theorem mem_due {o : Outbox} {now budget : Nat} {e : Entry} (h : e ∈ o.due now budget) :
    e ∈ o.entries ∧ e.notBeforeSecs ≤ now := by
  have hmem := (List.perm_insertionSort _ _).mem_iff.mp (List.mem_of_mem_take h)
  simpa using hmem

theorem due_ids_nodup (o : Outbox) (now budget : Nat) : ((o.due now budget).map Entry.id).Nodup := by
  have hall : ((o.entries.filter fun e => e.notBeforeSecs ≤ now).map Entry.id).Nodup :=
    (List.filter_sublist.map Entry.id).nodup o.ids_nodup
  have hsorted := ((List.perm_insertionSort (fun a b : Entry => a.dueKey ≤ b.dueKey) _).map Entry.id).nodup_iff.mpr hall
  exact ((List.take_sublist _ _).map Entry.id).nodup hsorted

/-- One of the entries with these ids is on the channel. -/
def SomeOn (entries : List Entry) (ids : List Nat) (c : ChannelId) : Prop :=
  ∃ e ∈ entries, e.id ∈ ids ∧ e.channel = c

theorem someOn_snoc_entry {entries : List Entry} {ids : List Nat} {e : Entry} (h : e.id ∉ ids) (c : ChannelId) :
    SomeOn (entries ++ [e]) ids c ↔ SomeOn entries ids c := by
  constructor
  · intro h
    rcases h with ⟨a, ha, hid, hc⟩
    rcases List.mem_append.mp ha with ha | ha
    · exact ⟨a, ha, hid, hc⟩
    · obtain rfl := List.mem_singleton.mp ha
      exact absurd hid h
  · intro h
    rcases h with ⟨a, ha, hid, hc⟩
    exact ⟨a, List.mem_append_left _ ha, hid, hc⟩

theorem someOn_snoc {entries : List Entry} {ids : List Nat} {e : Entry} (h : e.id ∉ entries.map Entry.id)
    (c : ChannelId) : SomeOn (entries ++ [e]) (ids ++ [e.id]) c ↔ SomeOn entries ids c ∨ e.channel = c := by
  constructor
  · intro h
    rcases h with ⟨a, ha, hid, hc⟩
    rcases List.mem_append.mp ha with ha | ha
    · rcases List.mem_append.mp hid with hid | hid
      · exact Or.inl ⟨a, ha, hid, hc⟩
      · exact absurd (List.mem_map.mpr ⟨a, ha, List.mem_singleton.mp hid⟩) h
    · exact Or.inr (List.mem_singleton.mp ha ▸ hc)
  · intro h
    rcases h with ⟨a, ha, hid, hc⟩ | hc
    · exact ⟨a, List.mem_append_left _ ha, List.mem_append_left _ hid, hc⟩
    · exact ⟨e, by simp, by simp, hc⟩

/-! ## The tally -/

/-- The books of a pass after attempting `done`, over the unexpired entries `live`. -/
structure Tally (live done : List Entry) (expired : List Dropped) (s : Pass ω) : Prop where
  messages : s.outbox.entries.map Entry.message = live.map Entry.message
  sentIds : s.report.sent.map (·.id) = s.sentIds
  drops : ∃ drops, s.report.dropped = expired ++ drops ∧ drops.map (·.id) = s.droppedIds ∧
    ∀ d ∈ drops, ∃ e ∈ done, d = e.dropped d.reason
  once : (s.sentIds ++ (s.droppedIds ++ s.report.deferred.map (·.id))).Perm (done.map Entry.id)
  dead : ∀ c, s.failedChannels[c]? = some .noSession ↔ SomeOn done s.droppedIds c

theorem Tally.step {live done : List Entry} {expired : List Dropped} {now : Nat} {s s' : Pass ω} {e : Entry}
    (h : Tally live done expired s) (hfresh : e.id ∉ done.map Entry.id) (hs : Attempted P now s e s') :
    Tally live (done ++ [e]) expired s' := by
  obtain ⟨drops, hdropped, hids, hfrom⟩ := h.drops
  have hmono : ∀ d ∈ drops, ∃ a ∈ done ++ [e], d = a.dropped d.reason := fun d hd => by
    obtain ⟨a, ha, hda⟩ := hfrom d hd
    exact ⟨a, List.mem_append_left _ ha, hda⟩
  have honce := h.once
  have hnot : e.id ∉ s.droppedIds := fun hd => hfresh (honce.subset (by simp [hd]))
  have hdone : (done ++ [e]).map Entry.id = done.map Entry.id ++ [e.id] := by simp
  have hdead : ∀ c, s.failedChannels[c]? = some .noSession ↔ SomeOn (done ++ [e]) s.droppedIds c :=
    fun c => (h.dead c).trans (someOn_snoc_entry hnot c).symm
  have hdefer : ∀ d : Deferred, d.id = e.id →
      (s.sentIds ++ (s.droppedIds ++ (s.report.deferred ++ [d]).map (·.id))).Perm ((done ++ [e]).map Entry.id) := by
    intro d hd
    rw [hdone, List.map_append, List.map_singleton, hd, ← List.append_assoc, ← List.append_assoc, List.append_assoc _ _
      (s.report.deferred.map _)]
    exact honce.append_right [e.id]
  cases hs with
  | skipped reason _ => exact ⟨h.messages, h.sentIds, ⟨drops, hdropped, hids, hmono⟩, hdefer _ rfl, hdead⟩
  | unsealed error world _ _ =>
    exact ⟨(messages_backOff s.outbox e.id now).trans h.messages, h.sentIds, ⟨drops, hdropped, hids, hmono⟩,
      hdefer _ rfl, hdead⟩
  | sent frame sealedWorld messageId world _ _ _ =>
    refine ⟨h.messages, ?_, ⟨drops, hdropped, hids, hmono⟩, ?_, hdead⟩
    · show (s.report.sent ++ [e.sent messageId now]).map (·.id) = s.sentIds ++ [e.id]
      rw [List.map_append, h.sentIds]; rfl
    · rw [hdone]
      show (s.sentIds ++ [e.id] ++ (s.droppedIds ++ s.report.deferred.map (·.id))).Perm _
      rw [List.append_assoc]
      exact (List.perm_append_comm.append_left s.sentIds).trans
        (by rw [← List.append_assoc]; exact honce.append_right [e.id])
  | dropped frame sealedWorld error world reason hnone _ _ _ =>
    refine ⟨h.messages, h.sentIds, ⟨drops ++ [e.dropped reason], ?_, ?_, ?_⟩, ?_, ?_⟩
    · show s.report.dropped ++ [e.dropped reason] = _
      rw [hdropped, List.append_assoc]
    · show _ = s.droppedIds ++ [e.id]
      rw [List.map_append, hids]; rfl
    · intro d hd
      rcases List.mem_append.mp hd with hd | hd
      · exact hmono d hd
      · obtain rfl := List.mem_singleton.mp hd
        exact ⟨e, by simp, rfl⟩
    · rw [hdone]
      show (s.sentIds ++ (s.droppedIds ++ [e.id] ++ s.report.deferred.map (·.id))).Perm _
      rw [List.append_assoc]
      refine ((List.perm_append_comm.append_left s.droppedIds).append_left s.sentIds).trans ?_
      rw [← List.append_assoc, ← List.append_assoc, List.append_assoc s.sentIds]
      exact honce.append_right [e.id]
    · intro c
      show (s.failedChannels.insert e.channel .noSession)[c]? = _ ↔ SomeOn (done ++ [e]) (s.droppedIds ++ [e.id]) c
      rw [failed_insert, someOn_snoc hfresh, ← h.dead]
      by_cases hc : e.channel = c
      · simp [hc]
      · simp [hc]
  | refused frame sealedWorld detail world hnone _ _ =>
    refine ⟨(messages_backOff s.outbox e.id now).trans h.messages, h.sentIds, ⟨drops, hdropped, hids, hmono⟩,
      hdefer _ rfl, fun c => ?_⟩
    show (s.failedChannels.insert e.channel (.unreachable detail))[c]? = _ ↔ _
    rw [failed_insert, ← hdead]
    by_cases hc : e.channel = c
    · subst hc
      rw [if_pos rfl, hnone]
      simp
    · rw [if_neg hc]

theorem tally_opening (o : Outbox) (world : ω) (now : Nat) :
    Tally (o.expire now).1.entries [] (o.expire now).2 (o.opening world now) :=
  ⟨rfl, rfl, ⟨[], by simp [opening], rfl, fun d hd => by cases hd⟩, .refl _, fun c => by simp [opening, SomeOn]⟩

theorem fresh_of_due {o : Outbox} {now budget : Nat} {done post : List Entry} {e : Entry}
    (h : o.due now budget = done ++ e :: post) : e.id ∉ done.map Entry.id := by
  have hnd := due_ids_nodup o now budget
  rw [h, List.map_append, List.map_cons, List.nodup_append] at hnd
  exact fun hmem => hnd.2.2 _ hmem _ List.mem_cons_self rfl

theorem tally (o : Outbox) (world : ω) (now budget : Nat) :
    Tally (o.expire now).1.entries ((o.expire now).1.due now budget) (o.expire now).2
      (o.attempts P world now budget) :=
  Trace.run_prefix_induction (M := fun done s => Tally (o.expire now).1.entries done (o.expire now).2 s)
    (tally_opening o world now) fun _ e _ hdue h => h.step P (fresh_of_due hdue) (attempt_cases P now _ e)

theorem nextId_attempt (now : Nat) (s : Pass ω) (e : Entry) :
    (attempt P now s e).outbox.nextId = s.outbox.nextId := by
  have hcases := attempt_cases P now s e
  generalize attempt P now s e = s' at hcases ⊢
  cases hcases <;> rfl

/-! ## The sweep -/

theorem mem_dead {s : Pass ω} {c : ChannelId} : c ∈ dead s ↔ s.failedChannels[c]? = some .noSession := by
  unfold dead
  simp only [List.mem_map, List.mem_filter, beq_iff_eq, Prod.exists]
  constructor
  · intro h
    rcases h with ⟨c', reason, ⟨hmem, rfl⟩, rfl⟩
    exact Std.ExtTreeMap.mem_toList_iff_getElem?_eq_some.mp hmem
  · intro h
    exact ⟨c, .noSession, ⟨Std.ExtTreeMap.mem_toList_iff_getElem?_eq_some.mpr h, rfl⟩, rfl⟩

theorem dead_nodup (s : Pass ω) : (dead s).Nodup := by
  have hkeys : (s.failedChannels.toList.map Prod.fst).Nodup := by
    rw [Std.ExtTreeMap.map_fst_toList_eq_keys]
    exact Std.ExtTreeMap.nodup_keys
  exact (List.filter_sublist.map Prod.fst).nodup hkeys

/-- Left behind on one of the channels: on it, and not dropped by the pass itself. -/
def leftOn (s : Pass ω) (channels : List ChannelId) (e : Entry) : Bool :=
  channels.contains e.channel && !s.droppedIds.contains e.id

/-- What the sweep of the channels drops, channel by channel. -/
def sweptOn (s : Pass ω) (channels : List ChannelId) : List Dropped :=
  channels.flatMap fun c => (s.outbox.entries.filter (doomed s c)).map (·.dropped (deadReason s c))

theorem leftOn_cons (s : Pass ω) (c : ChannelId) (channels : List ChannelId) (e : Entry) :
    leftOn s (c :: channels) e = (doomed s c e || leftOn s channels e) := by
  unfold leftOn doomed
  rw [List.contains_cons, Bool.and_or_distrib_right]

/-- A sweep leaves the backlogs of the other channels, and the reasons for them, alone. -/
theorem sweptOn_sweep (s : Pass ω) {c : ChannelId} {channels : List ChannelId} (hc : c ∉ channels) :
    sweptOn (sweep s c) channels = sweptOn s channels := by
  unfold sweptOn
  refine List.flatMap_congr fun c' hc' => ?_
  have hne : c ≠ c' := fun h => hc (h ▸ hc')
  have hbacklog : (sweep s c).outbox.entries.filter (doomed (sweep s c) c') =
      s.outbox.entries.filter (doomed s c') := by
    show (s.outbox.entries.filter fun e => !doomed s c e).filter (doomed s c') = _
    rw [List.filter_filter]
    refine List.filter_congr fun e _ => ?_
    unfold doomed
    by_cases he : e.channel = c'
    · have hec : ¬ e.channel = c := fun h => hne (h.symm.trans he)
      simp [he, Ne.symm hne]
    · simp [he]
  have hreason : deadReason (sweep s c) c' = deadReason s c' := by
    unfold deadReason sweep
    simp only [List.any_append, List.any_map]
    have hnone : (s.outbox.entries.filter (doomed s c)).any ((fun d : Dropped =>
        d.channel == c' && d.reason == .channelRetired) ∘ fun e => e.dropped (deadReason s c)) = false := by
      rw [List.any_eq_false]
      intro e he
      have hec : e.channel = c := by
        have := (List.mem_filter.mp he).2
        simp only [doomed, Bool.and_eq_true, beq_iff_eq] at this
        exact this.1
      simp [Entry.dropped, hec, hne]
    rw [hnone, Bool.or_false]
  rw [hbacklog, hreason]

/-- What sweeping the channels one after the other comes to. -/
structure Swept (s : Pass ω) (channels : List ChannelId) (s' : Pass ω) : Prop where
  entries : s'.outbox.entries = s.outbox.entries.filter fun e => !leftOn s channels e
  sent : s'.report.sent = s.report.sent
  dropped : s'.report.dropped = s.report.dropped ++ sweptOn s channels
  deferred : s'.report.deferred = s.report.deferred.filter fun d =>
    !((s.outbox.entries.filter (leftOn s channels)).map Entry.id).contains d.id
  sentIds : s'.sentIds = s.sentIds
  droppedIds : s'.droppedIds = s.droppedIds
  world : s'.world = s.world

theorem swept (channels : List ChannelId) (s : Pass ω) (hnd : channels.Nodup) :
    Swept s channels (channels.foldl sweep s) := by
  induction channels generalizing s with
  | nil => constructor <;> simp [leftOn, sweptOn]
  | cons c channels ih =>
    obtain ⟨hc, hnd⟩ := List.nodup_cons.mp hnd
    have h := ih (sweep s c) hnd
    have hleft : leftOn (sweep s c) channels = leftOn s channels := rfl
    have hkept : (sweep s c).outbox.entries = s.outbox.entries.filter fun e => !doomed s c e := rfl
    refine ⟨?_, h.sent, ?_, ?_, h.sentIds, h.droppedIds, h.world⟩
    · rw [List.foldl_cons, h.entries, hleft, hkept, List.filter_filter]
      refine List.filter_congr fun e _ => ?_
      rw [leftOn_cons, Bool.not_or, Bool.and_comm]
    · rw [List.foldl_cons, h.dropped, sweptOn_sweep s hc]
      show s.report.dropped ++ (s.outbox.entries.filter (doomed s c)).map _ ++ _ = _
      rw [List.append_assoc]
      rfl
    · rw [List.foldl_cons, h.deferred, hleft, hkept]
      show (s.report.deferred.filter _).filter _ = _
      rw [List.filter_filter]
      refine List.filter_congr fun d _ => ?_
      rw [← Bool.not_or, Bool.not_inj_iff, Bool.eq_iff_iff, Bool.or_eq_true]
      simp only [List.contains_iff_mem, List.mem_map, List.mem_filter]
      constructor
      · intro h
        rcases h with ⟨e, ⟨⟨he, -⟩, hl⟩, hid⟩ | ⟨e, ⟨he, hd⟩, hid⟩
        · exact ⟨e, ⟨he, by rw [leftOn_cons, hl, Bool.or_true]⟩, hid⟩
        · exact ⟨e, ⟨he, by rw [leftOn_cons, hd, Bool.true_or]⟩, hid⟩
      · intro h
        rcases h with ⟨e, ⟨he, hl⟩, hid⟩
        rw [leftOn_cons, Bool.or_eq_true] at hl
        by_cases hd : doomed s c e = true
        · exact Or.inr ⟨e, ⟨he, hd⟩, hid⟩
        · exact Or.inl ⟨e, ⟨⟨he, by simpa using hd⟩, hl.resolve_left hd⟩, hid⟩

/-! ## The end of a pass -/

theorem finish_sent (s : Pass ω) : (finish s).report.sent = s.report.sent := (swept (dead s) s (dead_nodup s)).sent

theorem finish_dropped (s : Pass ω) : (finish s).report.dropped = s.report.dropped ++ sweptOn s (dead s) :=
  (swept (dead s) s (dead_nodup s)).dropped

theorem mem_finish_entries {s : Pass ω} {e : Entry} :
    e ∈ (finish s).outbox.entries ↔
      e ∈ s.outbox.entries ∧ e.id ∉ s.sentIds ∧ e.id ∉ s.droppedIds ∧
        s.failedChannels[e.channel]? ≠ some .noSession := by
  have h := swept (dead s) s (dead_nodup s)
  show e ∈ ((dead s).foldl sweep s).outbox.entries.filter _ ↔ _
  rw [List.mem_filter, h.entries, h.sentIds, h.droppedIds, List.mem_filter, ne_eq, ← mem_dead]
  simp only [leftOn, Bool.not_eq_true', Bool.and_eq_true, List.contains_iff_mem, ← Bool.not_eq_true]
  tauto

theorem finish_deferred_sublist (s : Pass ω) : (finish s).report.deferred.Sublist s.report.deferred := by
  show ((dead s).foldl sweep s).report.deferred.Sublist _
  rw [(swept (dead s) s (dead_nodup s)).deferred]
  exact List.filter_sublist

theorem mem_finish_deferred {s : Pass ω} {d : Deferred} :
    d ∈ (finish s).report.deferred ↔ d ∈ s.report.deferred ∧
      ∀ e ∈ s.outbox.entries, e.id = d.id → e.id ∉ s.droppedIds → s.failedChannels[e.channel]? ≠ some .noSession := by
  have h := swept (dead s) s (dead_nodup s)
  show d ∈ ((dead s).foldl sweep s).report.deferred ↔ _
  rw [h.deferred, List.mem_filter]
  simp only [ne_eq, ← mem_dead, leftOn, Bool.not_eq_true', ← Bool.not_eq_true, List.contains_iff_mem, List.mem_map,
    List.mem_filter, Bool.and_eq_true, not_exists, not_and]
  refine and_congr_right fun _ => ⟨fun hnone e he hid hnot hc => ?_, fun hnone e he hid => ?_⟩
  · exact hnone e ⟨he, hc, hnot⟩ hid
  · exact hnone e he.1 hid he.2.2 he.2.1

theorem mem_sweptOn {s : Pass ω} {d : Dropped} :
    d ∈ sweptOn s (dead s) ↔ ∃ e ∈ s.outbox.entries, s.failedChannels[e.channel]? = some .noSession ∧
      e.id ∉ s.droppedIds ∧ d = e.dropped (deadReason s e.channel) := by
  unfold sweptOn
  simp only [List.mem_flatMap, List.mem_map, List.mem_filter, doomed, Bool.and_eq_true, beq_iff_eq]
  constructor
  · intro h
    rcases h with ⟨c, hc, e, ⟨he, rfl, hnot⟩, rfl⟩
    exact ⟨e, he, mem_dead.mp hc, by simpa using hnot, rfl⟩
  · intro h
    rcases h with ⟨e, he, hc, hnot, rfl⟩
    exact ⟨e.channel, mem_dead.mpr hc, e, ⟨he, rfl, by simpa using hnot⟩, rfl⟩

/-! ## A pass from end to end -/

def sentIdsOf (r : Drained ω) : List Nat := r.report.sent.map (·.id)
def droppedIdsOf (r : Drained ω) : List Nat := r.report.dropped.map (·.id)
def deferredIdsOf (r : Drained ω) : List Nat := r.report.deferred.map (·.id)

theorem mem_expire {o : Outbox} {now : Nat} {e : Entry} :
    e ∈ (o.expire now).1.entries ↔ e ∈ o.entries ∧ e.expiredAt now = false := by
  show e ∈ o.entries.filter _ ↔ _
  simp

theorem expired_ids (o : Outbox) (now : Nat) :
    (o.expire now).2.map (·.id) = (o.entries.filter fun e => e.expiredAt now).map Entry.id := by
  show ((o.entries.filter _).map _).map _ = _
  rw [List.map_map]
  rfl

/-- The ids a pass starts from: the expired ones, and the live ones. -/
theorem mem_ids_expire (o : Outbox) (now id : Nat) :
    id ∈ o.ids ↔ id ∈ (o.expire now).2.map (·.id) ∨ ∃ e ∈ (o.expire now).1.entries, e.id = id := by
  rw [expired_ids, ids, List.mem_map, List.mem_map]
  simp only [List.mem_filter, mem_expire]
  constructor
  · intro h
    rcases h with ⟨e, he, rfl⟩
    by_cases hx : e.expiredAt now = true
    · exact Or.inl ⟨e, ⟨he, hx⟩, rfl⟩
    · exact Or.inr ⟨e, ⟨he, by simpa using hx⟩, rfl⟩
  · intro h
    rcases h with ⟨e, ⟨he, -⟩, rfl⟩ | ⟨e, ⟨he, -⟩, rfl⟩ <;> exact ⟨e, he, rfl⟩

theorem not_expired_of_live {o : Outbox} {now : Nat} {e : Entry} (he : e ∈ (o.expire now).1.entries) :
    e.id ∉ (o.expire now).2.map (·.id) := by
  rw [expired_ids]
  intro hmem
  obtain ⟨a, ha, hid⟩ := List.mem_map.mp hmem
  obtain ⟨hao, hax⟩ := List.mem_filter.mp ha
  obtain ⟨heo, hex⟩ := mem_expire.mp he
  rw [o.eq_of_id hao heo hid, hex] at hax
  cases hax

theorem sweptOn_ids_nodup (s : Pass ω) : ((sweptOn s (dead s)).map (·.id)).Nodup := by
  unfold sweptOn
  rw [List.map_flatMap]
  have hids : ∀ c, ((s.outbox.entries.filter (doomed s c)).map (·.dropped (deadReason s c))).map (·.id) =
      (s.outbox.entries.filter (doomed s c)).map Entry.id := fun c => by rw [List.map_map]; rfl
  simp only [hids]
  rw [List.nodup_flatMap]
  refine ⟨fun c _ => (List.filter_sublist.map Entry.id).nodup s.outbox.ids_nodup, ?_⟩
  refine (dead_nodup s).imp fun {c c'} hne => ?_
  intro id hid hid'
  obtain ⟨a, ha, rfl⟩ := List.mem_map.mp hid
  obtain ⟨b, hb, hab⟩ := List.mem_map.mp hid'
  obtain ⟨hao, hac⟩ := List.mem_filter.mp ha
  obtain ⟨hbo, hbc⟩ := List.mem_filter.mp hb
  simp only [doomed, Bool.and_eq_true, beq_iff_eq] at hac hbc
  rw [s.outbox.eq_of_id hbo hao hab] at hbc
  exact hne (hac.1.symm.trans hbc.1)

section Pass

variable (o : Outbox) (world : ω) (now : SystemTime) (budget : Nat)

theorem nextId_drain : (o.drain P world now budget).outbox.nextId = o.nextId := by
  have hattempts : (o.attempts P world now.unixSeconds budget).outbox.nextId = o.nextId :=
    Trace.inv_run (Q := fun s : Pass ω => s.outbox.nextId = o.nextId)
      (fun s e _ h => (nextId_attempt P now.unixSeconds s e).trans h) rfl (Trace.eachStep_true _ _)
  rw [← hattempts]
  have hsweep : ∀ (channels : List ChannelId) (s : Pass ω),
      (channels.foldl sweep s).outbox.nextId = s.outbox.nextId := by
    intro channels
    induction channels with
    | nil => exact fun _ => rfl
    | cons c channels ih => exact fun s => ih (sweep s c)
  exact hsweep _ _

theorem sentIdsOf_drain :
    sentIdsOf (o.drain P world now budget) = (o.attempts P world now.unixSeconds budget).sentIds := by
  unfold sentIdsOf drain
  rw [finish_sent]
  exact (tally P o world now.unixSeconds budget).sentIds

theorem droppedIdsOf_drain :
    droppedIdsOf (o.drain P world now budget) = (o.expire now.unixSeconds).2.map (·.id) ++
      ((o.attempts P world now.unixSeconds budget).droppedIds ++
        (sweptOn (o.attempts P world now.unixSeconds budget) (dead (o.attempts P world now.unixSeconds budget))).map
          (·.id)) := by
  obtain ⟨drops, hdropped, hids, -⟩ := (tally P o world now.unixSeconds budget).drops
  unfold droppedIdsOf drain
  rw [finish_dropped, hdropped, List.map_append, List.map_append, hids, List.append_assoc]

/-- Dropped ids: expired, dropped at an attempt, or left on a dead channel. -/
theorem mem_droppedIdsOf_drain (id : Nat) :
    id ∈ droppedIdsOf (o.drain P world now budget) ↔
      id ∈ (o.expire now.unixSeconds).2.map (·.id) ∨
      id ∈ (o.attempts P world now.unixSeconds budget).droppedIds ∨
      ∃ e ∈ (o.expire now.unixSeconds).1.entries, e.id = id ∧
        (o.attempts P world now.unixSeconds budget).failedChannels[e.channel]? = some .noSession ∧
        e.id ∉ (o.attempts P world now.unixSeconds budget).droppedIds := by
  rw [← exists_of_messages (tally P o world now.unixSeconds budget).messages (p := fun e => e.id = id ∧
    (o.attempts P world now.unixSeconds budget).failedChannels[e.channel]? = some .noSession ∧
    e.id ∉ (o.attempts P world now.unixSeconds budget).droppedIds) (fun _ => Iff.rfl)]
  rw [droppedIdsOf_drain, List.mem_append, List.mem_append]
  refine or_congr_right (or_congr_right ?_)
  rw [List.mem_map]
  simp only [mem_sweptOn]
  constructor
  · intro h
    rcases h with ⟨_, ⟨e, he, hdead, hnot, rfl⟩, rfl⟩
    exact ⟨e, he, rfl, hdead, hnot⟩
  · intro h
    rcases h with ⟨e, he, rfl, hdead, hnot⟩
    exact ⟨_, ⟨e, he, hdead, hnot, rfl⟩, rfl⟩

theorem mem_ids_drain (id : Nat) :
    id ∈ (o.drain P world now budget).outbox.ids ↔
      ∃ e ∈ (o.expire now.unixSeconds).1.entries, e.id = id ∧
        e.id ∉ (o.attempts P world now.unixSeconds budget).sentIds ∧
        e.id ∉ (o.attempts P world now.unixSeconds budget).droppedIds ∧
        (o.attempts P world now.unixSeconds budget).failedChannels[e.channel]? ≠ some .noSession := by
  have ht := tally P o world now.unixSeconds budget
  rw [← exists_of_messages ht.messages (p := fun e => e.id = id ∧
    e.id ∉ (o.attempts P world now.unixSeconds budget).sentIds ∧
    e.id ∉ (o.attempts P world now.unixSeconds budget).droppedIds ∧
    (o.attempts P world now.unixSeconds budget).failedChannels[e.channel]? ≠ some .noSession) (fun _ => Iff.rfl)]
  unfold drain
  rw [ids, List.mem_map]
  simp only [mem_finish_entries]
  constructor
  · intro h
    rcases h with ⟨e, ⟨he, h1, h2, h3⟩, rfl⟩
    exact ⟨e, he, rfl, h1, h2, h3⟩
  · intro h
    rcases h with ⟨e, he, rfl, h1, h2, h3⟩
    exact ⟨e, ⟨he, h1, h2, h3⟩, rfl⟩

/-- An id of a pass's books is a due entry's, and in one book only. -/
theorem books_nodup : ((o.attempts P world now.unixSeconds budget).sentIds ++
    ((o.attempts P world now.unixSeconds budget).droppedIds ++
      (o.attempts P world now.unixSeconds budget).report.deferred.map (·.id))).Nodup :=
  (tally P o world now.unixSeconds budget).once.nodup_iff.mpr
    (due_ids_nodup (o.expire now.unixSeconds).1 now.unixSeconds budget)

theorem live_of_books {id : Nat} (h : id ∈ (o.attempts P world now.unixSeconds budget).sentIds ++
    ((o.attempts P world now.unixSeconds budget).droppedIds ++
      (o.attempts P world now.unixSeconds budget).report.deferred.map (·.id))) :
    ∃ e ∈ (o.expire now.unixSeconds).1.due now.unixSeconds budget,
      e ∈ (o.expire now.unixSeconds).1.entries ∧ e.id = id := by
  obtain ⟨e, he, hid⟩ := List.mem_map.mp ((tally P o world now.unixSeconds budget).once.subset h)
  exact ⟨e, he, (mem_due he).1, hid⟩

theorem live_of_sent {id : Nat} (h : id ∈ (o.attempts P world now.unixSeconds budget).sentIds) :
    ∃ e ∈ (o.expire now.unixSeconds).1.due now.unixSeconds budget,
      e ∈ (o.expire now.unixSeconds).1.entries ∧ e.id = id :=
  live_of_books P o world now budget (List.mem_append_left _ h)

theorem live_of_dropped {id : Nat} (h : id ∈ (o.attempts P world now.unixSeconds budget).droppedIds) :
    ∃ e ∈ (o.expire now.unixSeconds).1.due now.unixSeconds budget,
      e ∈ (o.expire now.unixSeconds).1.entries ∧ e.id = id :=
  live_of_books P o world now budget (List.mem_append_right _ (List.mem_append_left _ h))

theorem droppedIdsOf_nodup : (droppedIdsOf (o.drain P world now budget)).Nodup := by
  have hnd := (List.nodup_append.mp (books_nodup P o world now budget)).2.1
  rw [droppedIdsOf_drain, List.nodup_append]
  refine ⟨?_, List.nodup_append.mpr ⟨(List.nodup_append.mp hnd).1, sweptOn_ids_nodup _, ?_⟩, ?_⟩
  · rw [expired_ids]
    exact (List.filter_sublist.map Entry.id).nodup o.ids_nodup
  · -- the sweep passes over what the pass dropped itself
    intro id hid id' hid' heq
    obtain ⟨d, hd, rfl⟩ := List.mem_map.mp hid'
    obtain ⟨e, -, -, hnot, rfl⟩ := mem_sweptOn.mp hd
    obtain rfl : id = e.id := heq
    exact hnot hid
  · intro id hid id' hid' heq
    subst heq
    rcases List.mem_append.mp hid' with hid' | hid'
    · obtain ⟨e, -, he, rfl⟩ := live_of_dropped P o world now budget hid'
      exact not_expired_of_live he hid
    · obtain ⟨d, hd, rfl⟩ := List.mem_map.mp hid'
      obtain ⟨e, he, -, -, rfl⟩ := mem_sweptOn.mp hd
      obtain ⟨e', he', hid'⟩ := (exists_of_messages (tally P o world now.unixSeconds budget).messages
        (p := fun a => a.id = e.id) (fun _ => Iff.rfl)).mp ⟨e, he, rfl⟩
      exact not_expired_of_live he' (hid'.symm ▸ hid)

theorem covered (id : Nat) : id ∈ o.ids ↔ id ∈ sentIdsOf (o.drain P world now budget) ∨
    id ∈ droppedIdsOf (o.drain P world now budget) ∨ id ∈ (o.drain P world now budget).outbox.ids := by
  rw [mem_ids_expire o now.unixSeconds, sentIdsOf_drain, mem_droppedIdsOf_drain, mem_ids_drain]
  constructor
  · intro h
    rcases h with hx | ⟨e, he, rfl⟩
    · exact Or.inr (Or.inl (Or.inl hx))
    · by_cases hs : e.id ∈ (o.attempts P world now.unixSeconds budget).sentIds
      · exact Or.inl hs
      by_cases hd : e.id ∈ (o.attempts P world now.unixSeconds budget).droppedIds
      · exact Or.inr (Or.inl (Or.inr (Or.inl hd)))
      by_cases hc : (o.attempts P world now.unixSeconds budget).failedChannels[e.channel]? = some .noSession
      · exact Or.inr (Or.inl (Or.inr (Or.inr ⟨e, he, rfl, hc, hd⟩)))
      · exact Or.inr (Or.inr ⟨e, he, rfl, hs, hd, hc⟩)
  · intro h
    rcases h with hs | (hx | hd | ⟨e, he, hid, -⟩) | ⟨e, he, hid, -⟩
    · obtain ⟨e, -, he, hid⟩ := live_of_sent P o world now budget hs
      exact Or.inr ⟨e, he, hid⟩
    · exact Or.inl hx
    · obtain ⟨e, -, he, hid⟩ := live_of_dropped P o world now budget hd
      exact Or.inr ⟨e, he, hid⟩
    · exact Or.inr ⟨e, he, hid⟩
    · exact Or.inr ⟨e, he, hid⟩

/-- A deferred record that survives the sweep is of an entry that does. -/
theorem deferred_queued {id : Nat} (h : id ∈ deferredIdsOf (o.drain P world now budget)) :
    id ∈ (o.drain P world now budget).outbox.ids := by
  obtain ⟨d, hd, rfl⟩ := List.mem_map.mp h
  obtain ⟨hmem, halive⟩ := mem_finish_deferred.mp hd
  have hid : d.id ∈ (o.attempts P world now.unixSeconds budget).report.deferred.map (·.id) :=
    List.mem_map.mpr ⟨d, hmem, rfl⟩
  obtain ⟨e, -, he, hed⟩ := live_of_books P o world now budget (List.mem_append_right _ (List.mem_append_right _ hid))
  have hnd := List.nodup_append.mp (books_nodup P o world now budget)
  have hnotSent : e.id ∉ (o.attempts P world now.unixSeconds budget).sentIds := fun hs =>
    hnd.2.2 _ hs _ (List.mem_append_right _ hid) hed
  have hnotDropped : e.id ∉ (o.attempts P world now.unixSeconds budget).droppedIds := fun hs =>
    (List.nodup_append.mp hnd.2.1).2.2 _ hs _ hid hed
  rw [mem_ids_drain]
  refine ⟨e, he, hed, hnotSent, hnotDropped, ?_⟩
  obtain ⟨a, ha, hae, hac⟩ := (exists_of_messages (tally P o world now.unixSeconds budget).messages
    (p := fun a => a.id = e.id ∧ a.channel = e.channel) (fun _ => Iff.rfl)).mpr ⟨e, he, rfl, rfl⟩
  rw [← hac]
  exact halive a ha (hae.trans hed) (hae.symm ▸ hnotDropped)

theorem sent_not_queued {id : Nat} (h : id ∈ sentIdsOf (o.drain P world now budget)) :
    id ∉ (o.drain P world now budget).outbox.ids := by
  rw [sentIdsOf_drain] at h
  rw [mem_ids_drain]
  intro h
  rcases h with ⟨e, -, rfl, hnot, -, -⟩
  exact hnot h

theorem dropped_not_queued {id : Nat} (h : id ∈ droppedIdsOf (o.drain P world now budget)) :
    id ∉ (o.drain P world now budget).outbox.ids := by
  rw [mem_ids_drain]
  intro h
  rcases h with ⟨e, he, rfl, -, hnot, halive⟩
  rcases (mem_droppedIdsOf_drain P o world now budget _).mp h with hx | hd | ⟨a, ha, hae, hdead, -⟩
  · exact not_expired_of_live he hx
  · exact hnot hd
  · rw [(o.expire now.unixSeconds).1.eq_of_id ha he hae] at hdead
    exact halive hdead

end Pass

end Outbox

end Beacon
