/-
  Beacon.Transport.Rotation — what a rotation that fails leaves behind.

  A rotation retires the inbound queue, asks for another, and only then writes to the
  channel's record. Where the second request fails the record still names the queue the
  first one took down: `open` finds a queue on record and asks for none, and `subscribe`
  drains a queue that is gone (`refused_replacement_strands`).
  - `failed_rotation_strands_iff`: a rotation that fails leaves the channel fit for use
    exactly if there was no queue to replace, or the server either left it alone or granted
    the other one.
-/

import Beacon.Transport.Sund

namespace Beacon

open Lib

deriving instance DecidableEq for QueueKey

variable {σ : Type}

/-- A server's answers about its queues; `live` tells the key a queue is drained with. A
    retirement is one-way, and a queue that is not found is not there; a creation refused right after
    does not bring it back. -/
structure SundServer.KeepsQueues (S : SundServer σ) (live : σ → String → Option QueueKey) : Prop where
  retired : ∀ w id key, (S.retireQueue w id key).1 = .ok () ∨ (S.retireQueue w id key).1 = .error .notFound →
    live (S.retireQueue w id key).2 id = none
  created : ∀ w key ids, (S.createQueue w key).1 = .ok ids →
    live (S.createQueue w key).2 ids.recipientId = some key
  refused : ∀ w id old key error, live (S.retireQueue w id old).2 id = none →
    (S.createQueue (S.retireQueue w id old).2 key).1 = .error error →
      live (S.createQueue (S.retireQueue w id old).2 key).2 id = none

/-- A server with the queues it keeps, to run examples on. It is reached for so many creations. -/
structure Queues where
  queues : List (String × QueueKey)
  created : Nat
  reached : Nat

def Queues.live (w : Queues) (id : String) : Option QueueKey := w.queues.lookup id

def SundServer.keeping : SundServer Queues where
  createQueue w key :=
    match w.reached with
    | 0 => (.error (.http (.network "connection reset")), w)
    | reached + 1 =>
      let id := "rcp_" ++ w.created.repr
      (.ok ⟨id, "snd_" ++ w.created.repr⟩, ⟨(id, key) :: w.queues, w.created + 1, reached⟩)
  retireQueue w id key :=
    match w.live id with
    | none => (.error .notFound, w)
    | some own =>
      if own = key then (.ok (), { w with queues := w.queues.filter fun queue => queue.1 ≠ id })
      else (.error .unauthorized, w)
  sendToQueue w _ _ _ := (.ok "m", w)

theorem keepsQueues_keeping : SundServer.keeping.KeepsQueues Queues.live where
  retired w id key h := by
    unfold SundServer.keeping at h ⊢
    simp only [] at h ⊢
    split at h
    · rename_i hnone
      exact hnone
    · split at h
      · rename_i hkey
        rw [if_pos hkey]
        show (w.queues.filter fun queue => queue.1 ≠ id).lookup id = none
        simp only [List.lookup_eq_none_iff, List.mem_filter, decide_eq_true_eq, ne_eq, bne_iff_ne]
        exact fun queue hqueue heq => hqueue.2 heq.symm
      · simp at h
  created w key ids h := by
    unfold SundServer.keeping at h ⊢
    simp only [] at h ⊢
    split at h
    · cases h
    · cases h
      simp [Queues.live]
  refused w id old key error hgone h := by
    generalize (SundServer.keeping.retireQueue w id old).2 = w at hgone h ⊢
    unfold SundServer.keeping at h ⊢
    simp only [] at h ⊢
    split at h
    · exact hgone
    · cases h

namespace SundTransport

/-! ## What the channel is used with -/

def inbound (t : SundTransport) (channel : ChannelId) : Option QueueIds :=
  (t.channels.get? channel).bind (·.inbound)

def recipientKey (t : SundTransport) (channel : ChannelId) : Except TransportError QueueKey :=
  match t.channels.get? channel with
  | none => .error (.unknownChannel channel)
  | some record => .ok ⟨record.recipientSeed⟩

/-- Declared but never opened: there is no queue to talk to yet. -/
def recipientId (t : SundTransport) (channel : ChannelId) : Except TransportError String :=
  match t.live channel with
  | .error error => .error error
  | .ok record =>
    match record.inbound with
    | none => .error (.unknownChannel channel)
    | some ids => .ok ids.recipientId

/-- The queue `subscribe` and `acknowledge_all` talk to, and the key they sign with. -/
def drains (t : SundTransport) (channel : ChannelId) : Except TransportError (String × QueueKey) := do
  let recipientId ← t.recipientId channel
  let key ← t.recipientKey channel
  return (recipientId, key)

theorem live_ok {t : SundTransport} {channel : ChannelId} {record : ChannelRecord}
    (h : t.live channel = .ok record) :
    t.channels.get? channel = some record ∧ record.channel = channel ∧ record.retired = false := by
  unfold live at h
  split at h
  · cases h
  · rename_i found hget
    split at h
    · cases h
    · rename_i hretired
      cases h
      exact ⟨hget, Table.get?_key hget, by simpa using hretired⟩

theorem live_of_get? {t : SundTransport} {channel : ChannelId} {record : ChannelRecord}
    (hget : t.channels.get? channel = some record) (h : record.retired = false) : t.live channel = .ok record := by
  rw [live, hget]
  simp [h]

theorem get?_put (t : SundTransport) (record : ChannelRecord) (channel : ChannelId) :
    (t.put record).channels.get? channel =
      if record.channel = channel then some record else t.channels.get? channel :=
  Table.get?_insert t.channels record channel

theorem drains_of_live {t : SundTransport} {channel : ChannelId} {record : ChannelRecord} {ids : QueueIds}
    (h : t.live channel = .ok record) (hinbound : record.inbound = some ids) :
    t.drains channel = .ok (ids.recipientId, ⟨record.recipientSeed⟩) := by
  have hget := (live_ok h).1
  simp only [drains, recipientId, recipientKey, h, hinbound, hget]
  rfl

/-! ## A rotation that fails -/

variable (S : SundServer σ) (live : σ → String → Option QueueKey)

/-- The channel can be opened and drained, if it can be used at all: no queue is on record, or
    one that is there; and once it is open it is drained at a queue that is there. -/
structure NotStranded (t : SundTransport) (server : σ) (channel : ChannelId) : Prop where
  stored : ∀ record, t.live channel = .ok record → record.inbound = none ∨
    ∃ ids, record.inbound = some ids ∧ live server ids.recipientId = some ⟨record.recipientSeed⟩
  reopened : (t.openChannel S server channel).1 = .ok () →
    ∃ id key, (t.openChannel S server channel).2.1.drains channel = .ok (id, key) ∧
      live (t.openChannel S server channel).2.2 id = some key

/-- `Ok`, or already gone server-side. -/
def Retires (answer : Except SundError Unit) : Prop := answer = .ok () ∨ answer = .error .notFound

/-- Where there is a queue to replace, the server grants the other one, or it refuses to retire
    the one there is and leaves it alone. -/
structure ReplacesOrKeeps (t : SundTransport) (server : σ) (channel : ChannelId) (newRecipientSeed : Seed) : Prop where
  replaces : ∀ record ids, t.live channel = .ok record → record.inbound = some ids →
    Retires (S.retireQueue server ids.recipientId ⟨record.recipientSeed⟩).1 →
      (S.createQueue (S.retireQueue server ids.recipientId ⟨record.recipientSeed⟩).2 ⟨newRecipientSeed⟩).1.isOk = true
  keeps : ∀ record ids, t.live channel = .ok record → record.inbound = some ids →
    ¬ Retires (S.retireQueue server ids.recipientId ⟨record.recipientSeed⟩).1 →
      live (S.retireQueue server ids.recipientId ⟨record.recipientSeed⟩).2 ids.recipientId =
        some ⟨record.recipientSeed⟩

/-- The ends of a rotation. -/
inductive Rotated (t : SundTransport) (server : σ) (channel : ChannelId) (newRecipientSeed : Seed) :
    Except TransportError QueueIds × SundTransport × σ → Prop
  | refused (error : TransportError) : t.live channel = .error error →
      Rotated t server channel newRecipientSeed (.error error, t, server)
  | kept {record : ChannelRecord} {ids : QueueIds} (error : SundError) : t.live channel = .ok record →
      record.inbound = some ids → ¬ Retires (S.retireQueue server ids.recipientId ⟨record.recipientSeed⟩).1 →
      Rotated t server channel newRecipientSeed
        (.error (backend error), t, (S.retireQueue server ids.recipientId ⟨record.recipientSeed⟩).2)
  | unopened {record : ChannelRecord} (result : Except TransportError QueueIds × SundTransport × σ) :
      t.live channel = .ok record → record.inbound = none → (∀ error, result.1 = .error error → result.2.1 = t) →
      Rotated t server channel newRecipientSeed result
  | unreplaced {record : ChannelRecord} {ids : QueueIds} (error : SundError) (server' : σ) :
      t.live channel = .ok record → record.inbound = some ids →
      Retires (S.retireQueue server ids.recipientId ⟨record.recipientSeed⟩).1 →
      S.createQueue (S.retireQueue server ids.recipientId ⟨record.recipientSeed⟩).2 ⟨newRecipientSeed⟩ =
        (.error error, server') →
      Rotated t server channel newRecipientSeed (.error (backend error), t, server')
  | replaced {record : ChannelRecord} {ids new : QueueIds} (server' : σ) :
      t.live channel = .ok record → record.inbound = some ids →
      Retires (S.retireQueue server ids.recipientId ⟨record.recipientSeed⟩).1 →
      S.createQueue (S.retireQueue server ids.recipientId ⟨record.recipientSeed⟩).2 ⟨newRecipientSeed⟩ =
        (.ok new, server') →
      Rotated t server channel newRecipientSeed
        (.ok new, t.put { record with recipientSeed := newRecipientSeed, inbound := some new }, server')

theorem retireInbound_of_retires {server : σ} {record : ChannelRecord} {ids : QueueIds}
    (hinbound : record.inbound = some ids)
    (h : Retires (S.retireQueue server ids.recipientId ⟨record.recipientSeed⟩).1) :
    retireInbound S server record = (.ok (), (S.retireQueue server ids.recipientId ⟨record.recipientSeed⟩).2) := by
  unfold retireInbound
  rw [hinbound]
  rcases hretire : S.retireQueue server ids.recipientId ⟨record.recipientSeed⟩ with ⟨answer, server'⟩
  rw [hretire] at h
  simp only [hretire]
  rcases h with h | h
  · subst h
    rfl
  · subst h
    rfl

theorem retireInbound_of_not_retires {server : σ} {record : ChannelRecord} {ids : QueueIds}
    (hinbound : record.inbound = some ids)
    (h : ¬ Retires (S.retireQueue server ids.recipientId ⟨record.recipientSeed⟩).1) :
    ∃ error, (S.retireQueue server ids.recipientId ⟨record.recipientSeed⟩).1 = .error error ∧ error ≠ .notFound ∧
      retireInbound S server record =
        (.error (backend error), (S.retireQueue server ids.recipientId ⟨record.recipientSeed⟩).2) := by
  unfold retireInbound
  rw [hinbound]
  rcases hretire : S.retireQueue server ids.recipientId ⟨record.recipientSeed⟩ with ⟨answer, server'⟩
  rw [hretire] at h
  simp only [hretire]
  cases answer with
  | ok => exact absurd (Or.inl rfl) h
  | error error =>
    cases error with
    | notFound => exact absurd (Or.inr rfl) h
    | _ => exact ⟨_, rfl, by simp, rfl⟩

theorem rotateInbound_cases (t : SundTransport) (server : σ) (channel : ChannelId) (newRecipientSeed : Seed) :
    Rotated S t server channel newRecipientSeed (t.rotateInbound S server channel newRecipientSeed) := by
  unfold rotateInbound
  cases hrecord : t.live channel with
  | error error => exact .refused error hrecord
  | ok record =>
    cases hinbound : record.inbound with
    | none =>
      refine .unopened _ hrecord hinbound fun error herror => ?_
      have hretire : retireInbound S server record = (.ok (), server) := by rw [retireInbound, hinbound]
      simp only [hretire] at herror ⊢
      rcases hcreate : S.createQueue server ⟨newRecipientSeed⟩ with ⟨refusal | ids, server'⟩
      · rfl
      · rw [hcreate] at herror
        cases herror
    | some ids =>
      by_cases hretires : Retires (S.retireQueue server ids.recipientId ⟨record.recipientSeed⟩).1
      · simp only [retireInbound_of_retires S hinbound hretires]
        rcases hcreate : S.createQueue (S.retireQueue server ids.recipientId ⟨record.recipientSeed⟩).2
          ⟨newRecipientSeed⟩ with ⟨error | new, server'⟩
        · exact .unreplaced error server' hrecord hinbound hretires hcreate
        · exact .replaced server' hrecord hinbound hretires hcreate
      · obtain ⟨error, -, -, hretire⟩ := retireInbound_of_not_retires S hinbound hretires
        simp only [hretire]
        exact .kept error hrecord hinbound hretires

variable {S live}

theorem reopened_of_stored (hS : S.KeepsQueues live) {t : SundTransport} {server : σ} {channel : ChannelId}
    (h : ∀ record, t.live channel = .ok record → record.inbound = none ∨
      ∃ ids, record.inbound = some ids ∧ live server ids.recipientId = some ⟨record.recipientSeed⟩) :
    NotStranded S live t server channel := by
  refine ⟨h, fun hopen => ?_⟩
  unfold openChannel at hopen ⊢
  cases hrecord : t.live channel with
  | error error =>
    rw [hrecord] at hopen
    cases hopen
  | ok record =>
    obtain ⟨-, hchannel, hretired⟩ := live_ok hrecord
    rw [hrecord] at hopen
    simp only [] at hopen ⊢
    rcases h record hrecord with hnone | ⟨ids, hsome, hlive⟩
    · simp only [hnone, Option.isSome_none, Bool.false_eq_true, if_false] at hopen ⊢
      rcases hcreate : S.createQueue server ⟨record.recipientSeed⟩ with ⟨error | ids, server'⟩
      · rw [hcreate] at hopen
        cases hopen
      · have hcreated := hS.created server ⟨record.recipientSeed⟩ ids (by rw [hcreate])
        rw [hcreate] at hcreated
        have hput : (t.put { record with inbound := some ids }).live channel =
            .ok { record with inbound := some ids } :=
          live_of_get? (by rw [get?_put, if_pos hchannel]) hretired
        exact ⟨_, _, drains_of_live hput rfl, hcreated⟩
    · simp only [hsome, Option.isSome_some, if_true]
      exact ⟨_, _, drains_of_live hrecord hsome, hlive⟩

/-- An unchanged channel with a queue on record is fit for use exactly if the queue is there. -/
theorem notStranded_iff (hS : S.KeepsQueues live) {t : SundTransport} {server : σ} {channel : ChannelId}
    {record : ChannelRecord} (hrecord : t.live channel = .ok record) {ids : QueueIds}
    (hinbound : record.inbound = some ids) :
    NotStranded S live t server channel ↔ live server ids.recipientId = some ⟨record.recipientSeed⟩ := by
  constructor
  · intro h
    rcases h.stored record hrecord with hnone | ⟨ids', hsome, hlive⟩
    · rw [hinbound] at hnone
      cases hnone
    · rw [hinbound, Option.some.injEq] at hsome
      rwa [hsome]
  · intro h
    refine reopened_of_stored hS fun record' hrecord' => ?_
    rw [hrecord, Except.ok.injEq] at hrecord'
    subst hrecord'
    exact Or.inr ⟨ids, hinbound, h⟩

/-- With nothing to retire nothing is lost. -/
theorem notStranded_of_no_queue (hS : S.KeepsQueues live) {t : SundTransport} {server : σ} {channel : ChannelId}
    (h : ∀ record, t.live channel = .ok record → record.inbound = none) : NotStranded S live t server channel :=
  reopened_of_stored hS fun record hrecord => Or.inl (h record hrecord)

theorem failed_rotation_strands_iff (hS : S.KeepsQueues live) (t : SundTransport) (server : σ) (channel : ChannelId)
    (newRecipientSeed : Seed) :
    (∀ error, (t.rotateInbound S server channel newRecipientSeed).1 = .error error →
      NotStranded S live (t.rotateInbound S server channel newRecipientSeed).2.1
        (t.rotateInbound S server channel newRecipientSeed).2.2 channel) ↔
    ReplacesOrKeeps S live t server channel newRecipientSeed := by
  -- the condition is about the one record and its queue
  have hcondition : ∀ {record : ChannelRecord}, t.live channel = .ok record →
      (ReplacesOrKeeps S live t server channel newRecipientSeed ↔ ∀ ids, record.inbound = some ids →
        (Retires (S.retireQueue server ids.recipientId ⟨record.recipientSeed⟩).1 →
          (S.createQueue (S.retireQueue server ids.recipientId ⟨record.recipientSeed⟩).2
            ⟨newRecipientSeed⟩).1.isOk = true) ∧
        (¬ Retires (S.retireQueue server ids.recipientId ⟨record.recipientSeed⟩).1 →
          live (S.retireQueue server ids.recipientId ⟨record.recipientSeed⟩).2 ids.recipientId =
            some ⟨record.recipientSeed⟩)) := by
    intro record hrecord
    constructor
    · exact fun h ids hinbound => ⟨h.replaces record ids hrecord hinbound, h.keeps record ids hrecord hinbound⟩
    · intro h
      constructor
      all_goals
        intro record' ids hrecord' hinbound
        rw [hrecord, Except.ok.injEq] at hrecord'
        subst hrecord'
      · exact (h ids hinbound).1
      · exact (h ids hinbound).2
  have hcases := rotateInbound_cases S t server channel newRecipientSeed
  generalize t.rotateInbound S server channel newRecipientSeed = result at hcases ⊢
  cases hcases with
  | refused error hrefused =>
    have hno : ∀ record, t.live channel ≠ .ok record := by simp [hrefused]
    exact iff_of_true (fun _ _ => notStranded_of_no_queue hS fun record h => absurd h (hno record))
      ⟨fun record _ h => absurd h (hno record), fun record _ h => absurd h (hno record)⟩
  | @kept record ids error hrecord hinbound hkept =>
    rw [hcondition hrecord, hinbound]
    simp only [Option.some.injEq, forall_eq', hkept, false_implies, true_and, not_false_eq_true, true_implies]
    rw [← notStranded_iff hS hrecord hinbound]
    exact ⟨fun h => h _ rfl, fun h _ _ => h⟩
  | @unopened record result hrecord hinbound hunchanged =>
    rw [hcondition hrecord]
    refine iff_of_true (fun error herror => ?_) fun ids hsome => ?_
    · rw [hunchanged error herror]
      refine notStranded_of_no_queue hS fun record' h => ?_
      rw [hrecord, Except.ok.injEq] at h
      rwa [← h]
    · rw [hinbound] at hsome
      cases hsome
  | @unreplaced record ids error server' hrecord hinbound hretires hcreate =>
    -- the queue on record was taken down, and a refused creation does not bring it back
    have hgone := hS.refused _ _ _ _ error (hS.retired _ _ _ hretires) (congrArg Prod.fst hcreate)
    rw [hcreate] at hgone
    rw [hcondition hrecord]
    refine iff_of_false (fun h => ?_) fun h => ?_
    · have hlive := (notStranded_iff hS hrecord hinbound).mp (h _ rfl)
      rw [hgone] at hlive
      cases hlive
    · have hgranted := (h ids hinbound).1 hretires
      rw [hcreate] at hgranted
      cases hgranted
  | @replaced record ids new server' hrecord hinbound hretires hcreate =>
    rw [hcondition hrecord]
    refine iff_of_true (fun _ h => by cases h) fun ids' hsome => ?_
    rw [hinbound, Option.some.injEq] at hsome
    subst hsome
    exact ⟨fun _ => by rw [hcreate]; rfl, fun h => absurd hretires h⟩

/-- A channel with an inbound queue. -/
def opened : SundTransport := new.put ⟨"dev_A:dev_B", .replicate 32 7, some ⟨"rcp_0", "snd_0"⟩, none, false⟩

/-- Its server, which is reached for so many creations. -/
def openedAt (reached : Nat) : Queues := ⟨[("rcp_0", ⟨.replicate 32 7⟩)], 1, reached⟩

theorem opened_rotates :
    (∀ error, (opened.rotateInbound .keeping (openedAt 1) "dev_A:dev_B" (.replicate 32 8)).1 = .error error →
      NotStranded .keeping Queues.live (opened.rotateInbound .keeping (openedAt 1) "dev_A:dev_B" (.replicate 32 8)).2.1
        (opened.rotateInbound .keeping (openedAt 1) "dev_A:dev_B" (.replicate 32 8)).2.2 "dev_A:dev_B") ↔
    ReplacesOrKeeps .keeping Queues.live opened (openedAt 1) "dev_A:dev_B" (.replicate 32 8) :=
  failed_rotation_strands_iff keepsQueues_keeping opened (openedAt 1) "dev_A:dev_B" (.replicate 32 8)

/-- The rotation fails, and the queue it took down is what the channel is opened with and drained at. -/
theorem refused_replacement_strands :
    let after := opened.rotateInbound .keeping (openedAt 0) "dev_A:dev_B" (.replicate 32 8)
    after.1 = .error (.backend "network: connection reset") ∧ after.2.2.live "rcp_0" = none ∧
    (after.2.1.openChannel .keeping after.2.2 "dev_A:dev_B").1 = .ok () ∧
    (after.2.1.openChannel .keeping after.2.2 "dev_A:dev_B").2.1.drains "dev_A:dev_B" =
      .ok ("rcp_0", ⟨.replicate 32 7⟩) ∧
    ¬ NotStranded .keeping Queues.live after.2.1 after.2.2 "dev_A:dev_B" := by
  intro after
  have hfails : after.1 = .error (.backend "network: connection reset") := by decide +kernel
  have hgone : after.2.2.live "rcp_0" = none := by decide +kernel
  have hopen : (after.2.1.openChannel .keeping after.2.2 "dev_A:dev_B").1 = .ok () := by decide +kernel
  have hdrains : (after.2.1.openChannel .keeping after.2.2 "dev_A:dev_B").2.1.drains "dev_A:dev_B" =
      .ok ("rcp_0", ⟨.replicate 32 7⟩) := by decide +kernel
  have hstill : (after.2.1.openChannel .keeping after.2.2 "dev_A:dev_B").2.2.live "rcp_0" = none := by decide +kernel
  refine ⟨hfails, hgone, hopen, hdrains, fun h => ?_⟩
  obtain ⟨id, key, hdrained, hlive⟩ := h.reopened hopen
  rw [hdrains] at hdrained
  cases hdrained
  rw [hstill] at hlive
  cases hlive

end SundTransport

end Beacon
