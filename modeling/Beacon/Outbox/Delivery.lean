/-
  Beacon.Outbox.Delivery — the outbox over the Sund transport: does a message that may
  neither go stale nor be superseded stay until it is delivered?

  - `permanent_kept_iff`: over every run of both, it leaves only by being sent, with its
    peer, or with its retired channel, exactly as long as no drain attempts a message on
    a channel without an address while such a message is queued there.
  - `lost_before_attached`: declare, enqueue, drain, and the message is gone before the
    peer's queue was ever attached.
  The transport answers `UnknownChannel` where it does not know the address yet, and the
  outbox takes that answer as final for the whole channel (`Answered.dead`).
-/

import Beacon.Outbox.Runs
import Beacon.Transport.Sund

namespace Beacon

open Lib

/-- Never stale and never superseded. -/
def Entry.isPermanent (e : Entry) : Bool := e.isDurable && e.coalesceKey.isNone

namespace Outbox

/-! ## The answers of a pass -/

section Pass

variable {ω : Type} (P : Ports ω) (sealable : ω → String → Bool) (unaddressed : ω → ChannelId → Bool)

/-- Why a channel that dies in a pass does. -/
def finalReason (w : ω) (c : ChannelId) : DropReason := if unaddressed w c then .channelUnknown else .channelRetired

/-- A pass after `done`, in terms of the world it began in. -/
structure Answered (w : ω) (expired : List Dropped) (done : List Entry) (s : Pass ω) : Prop where
  sealableKept : sealable s.world = sealable w
  unaddressedKept : unaddressed s.world = unaddressed w
  sent : ∀ id ∈ s.sentIds, ∃ a ∈ done, a.id = id ∧ unaddressed w a.channel = false
  drops : ∃ drops, s.report.dropped = expired ++ drops ∧ ∀ d ∈ drops, d.reason = finalReason unaddressed w d.channel
  waiting : ∀ c, unaddressed w c = true → s.failedChannels[c]? = none ∨ s.failedChannels[c]? = some .noSession
  attempted : ∀ a ∈ done, unaddressed w a.channel = true → sealable w a.peer = true →
    s.failedChannels[a.channel]? = some .noSession
  dead : ∀ c, s.failedChannels[c]? = some .noSession →
    (∃ a ∈ done, a.channel = c ∧ sealable w a.peer = true) ∧
      ∃ d ∈ s.report.dropped, d.channel = c ∧ d.reason = finalReason unaddressed w c

variable {P sealable unaddressed}

theorem answered_opening (o : Outbox) (w : ω) (now : Nat) :
    Answered sealable unaddressed w (o.expire now).2 [] (o.opening w now) where
  sealableKept := rfl
  unaddressedKept := rfl
  sent _ h := by cases h
  drops := ⟨[], by simp [opening], fun d hd => by cases hd⟩
  waiting c _ := Or.inl (by simp [opening])
  attempted a ha := by cases ha
  dead c h := by simp [opening] at h

/-- The reason an error is final for is the one the channel's address calls for. -/
theorem final_eq_finalReason (hA : KnowsAddresses P unaddressed) {w : ω} {channel : ChannelId} {message : Outbound}
    {error : TransportError} {reason : DropReason} (hsend : (P.send w channel message).1 = .error error)
    (hfinal : error.final = some reason) : reason = finalReason unaddressed w channel := by
  unfold finalReason
  by_cases hc : unaddressed w channel = true
  · rw [hA.unknown w channel message hc] at hsend
    cases hsend
    rw [if_pos hc]
    exact (Option.some.inj hfinal).symm
  · rw [if_neg hc]
    cases error with
    | unknownChannel other => exact absurd hsend (hA.known w channel message (by simpa using hc) other)
    | retired other => exact (Option.some.inj hfinal).symm
    | backend detail => cases hfinal

theorem addressed_of_send (hA : KnowsAddresses P unaddressed) {w world : ω} {channel : ChannelId} {message : Outbound}
    {r : Except TransportError MessageId} (hsend : P.send w channel message = (r, world))
    (hr : r ≠ .error (.unknownChannel channel)) : unaddressed w channel = false := by
  cases hc : unaddressed w channel with
  | false => rfl
  | true =>
    have hunknown := hA.unknown w channel message hc
    rw [hsend] at hunknown
    exact absurd hunknown hr

section Step

variable {w : ω} {expired : List Dropped} {done : List Entry} {now : Nat} {s s' : Pass ω} {e : Entry}

/-- An attempt that drops nothing and fails no channel. -/
theorem Answered.quiet (h : Answered sealable unaddressed w expired done s) (hsealable : sealable s'.world = sealable w)
    (hunaddressed : unaddressed s'.world = unaddressed w)
    (hsent : ∀ id ∈ s'.sentIds, id ∈ s.sentIds ∨ e.id = id ∧ unaddressed w e.channel = false)
    (hdropped : s'.report.dropped = s.report.dropped) (hfailed : s'.failedChannels = s.failedChannels)
    (hattempt : unaddressed w e.channel = true → sealable w e.peer = true →
      s.failedChannels[e.channel]? = some .noSession) :
    Answered sealable unaddressed w expired (done ++ [e]) s' := by
  refine ⟨hsealable, hunaddressed, fun id hid => ?_, ?_, ?_, fun a ha => ?_, fun c hc => ?_⟩
  · rcases hsent id hid with hold | hnew
    · obtain ⟨a, ha, haid⟩ := h.sent id hold
      exact ⟨a, List.mem_append_left _ ha, haid⟩
    · exact ⟨e, by simp, hnew⟩
  · rw [hdropped]
    exact h.drops
  · rw [hfailed]
    exact h.waiting
  · rw [hfailed]
    rcases List.mem_append.mp ha with ha | ha
    · exact h.attempted a ha
    · obtain rfl := List.mem_singleton.mp ha
      exact hattempt
  · rw [hfailed] at hc
    obtain ⟨⟨a, ha, hac⟩, hdead⟩ := h.dead c hc
    rw [hdropped]
    exact ⟨⟨a, List.mem_append_left _ ha, hac⟩, hdead⟩

/-- An attempt that drops its entry, for the reason the address calls for. -/
theorem Answered.final (h : Answered sealable unaddressed w expired done s) {world : ω}
    (hsealable : sealable world = sealable w) (hunaddressed : unaddressed world = unaddressed w)
    (hpeer : sealable w e.peer = true) :
    Answered sealable unaddressed w expired (done ++ [e])
      (dropDead s world e (finalReason unaddressed w e.channel)) := by
  obtain ⟨drops, hdropped, hdrops⟩ := h.drops
  refine ⟨hsealable, hunaddressed, fun id hid => ?_,
    ⟨drops ++ [e.dropped (finalReason unaddressed w e.channel)], ?_, ?_⟩, fun c hc => ?_, fun a ha hc hp => ?_,
    fun c hc => ?_⟩
  · obtain ⟨a, ha, haid⟩ := h.sent id hid
    exact ⟨a, List.mem_append_left _ ha, haid⟩
  · show s.report.dropped ++ [e.dropped _] = _
    rw [hdropped, List.append_assoc]
  · intro d hd
    rcases List.mem_append.mp hd with hd | hd
    · exact hdrops d hd
    · rw [List.mem_singleton.mp hd]
      rfl
  · show (s.failedChannels.insert e.channel .noSession)[c]? = none ∨
      (s.failedChannels.insert e.channel .noSession)[c]? = some .noSession
    rw [failed_insert]
    split
    · exact Or.inr rfl
    · exact h.waiting c hc
  · show (s.failedChannels.insert e.channel .noSession)[a.channel]? = some .noSession
    rw [failed_insert]
    split
    · rfl
    next hne =>
      rcases List.mem_append.mp ha with ha | ha
      · exact h.attempted a ha hc hp
      · obtain rfl := List.mem_singleton.mp ha
        exact absurd rfl hne
  · change (s.failedChannels.insert e.channel .noSession)[c]? = some .noSession at hc
    rw [failed_insert] at hc
    by_cases heq : e.channel = c
    · subst heq
      have hlast : e.dropped (finalReason unaddressed w e.channel) ∈
          s.report.dropped ++ [e.dropped (finalReason unaddressed w e.channel)] := by simp
      exact ⟨⟨e, by simp, rfl, hpeer⟩, _, hlast, rfl, rfl⟩
    · rw [if_neg heq] at hc
      obtain ⟨⟨a, ha, hac⟩, d, hd, hdc⟩ := h.dead c hc
      exact ⟨⟨a, List.mem_append_left _ ha, hac⟩, d, List.mem_append_left _ hd, hdc⟩

/-- An attempt that fails a channel with an address for the rest of the pass. -/
theorem Answered.refused (h : Answered sealable unaddressed w expired done s)
    (hsealable : sealable s'.world = sealable w) (hunaddressed : unaddressed s'.world = unaddressed w)
    (haddress : unaddressed w e.channel = false) {detail : String} (hsent : s'.sentIds = s.sentIds)
    (hdropped : s'.report.dropped = s.report.dropped)
    (hfailed : s'.failedChannels = s.failedChannels.insert e.channel (.unreachable detail)) :
    Answered sealable unaddressed w expired (done ++ [e]) s' := by
  have hother : ∀ c, unaddressed w c = true → e.channel ≠ c := by
    intro c hc heq
    rw [heq, hc] at haddress
    cases haddress
  refine ⟨hsealable, hunaddressed, fun id hid => ?_, ?_, fun c hc => ?_, fun a ha hc hp => ?_, fun c hc => ?_⟩
  · rw [hsent] at hid
    obtain ⟨a, ha, haid⟩ := h.sent id hid
    exact ⟨a, List.mem_append_left _ ha, haid⟩
  · rw [hdropped]
    exact h.drops
  · rw [hfailed, failed_insert, if_neg (hother c hc)]
    exact h.waiting c hc
  · rw [hfailed, failed_insert, if_neg (hother a.channel hc)]
    rcases List.mem_append.mp ha with ha | ha
    · exact h.attempted a ha hc hp
    · obtain rfl := List.mem_singleton.mp ha
      exact absurd rfl (hother _ hc)
  · rw [hfailed, failed_insert] at hc
    by_cases heq : e.channel = c
    · rw [if_pos heq] at hc
      cases hc
    · rw [if_neg heq] at hc
      obtain ⟨⟨a, ha, hac⟩, hdead⟩ := h.dead c hc
      rw [hdropped]
      exact ⟨⟨a, List.mem_append_left _ ha, hac⟩, hdead⟩

theorem Answered.step (hP : SealsByPeer P sealable) (hA : KnowsAddresses P unaddressed)
    (h : Answered sealable unaddressed w expired done s) (hs : Attempted P now s e s') :
    Answered sealable unaddressed w expired (done ++ [e]) s' := by
  have hsealable := (hs.keeps P hP.afterEncrypt hP.afterSend).trans h.sealableKept
  have hunaddressed := (hs.keeps P hA.afterEncrypt hA.afterSend).trans h.unaddressedKept
  have hseals := hP.encrypt s.world e.peer e.plaintext
  have hkept := (hA.afterEncrypt s.world e.peer e.plaintext).trans h.unaddressedKept
  rw [h.sealableKept] at hseals
  cases hs with
  | skipped reason hfailed =>
    refine h.quiet hsealable hunaddressed (fun id hid => Or.inl hid) rfl rfl fun hc _ => ?_
    exact (h.waiting e.channel hc).resolve_left (by simp [hfailed])
  | unsealed error world _ he =>
    refine h.quiet hsealable hunaddressed (fun id hid => Or.inl hid) rfl rfl fun _ hp => ?_
    rw [he, hp] at hseals
    cases hseals
  | sent frame sealedWorld messageId world _ he hsend =>
    rw [he] at hkept
    have haddress : unaddressed w e.channel = false := by
      rw [← hkept]
      exact addressed_of_send hA hsend (by simp)
    refine h.quiet hsealable hunaddressed (fun id hid => ?_) rfl rfl fun hc _ => ?_
    · rcases List.mem_append.mp hid with hid | hid
      · exact Or.inl hid
      · exact Or.inr ⟨(List.mem_singleton.mp hid).symm, haddress⟩
    · rw [haddress] at hc
      cases hc
  | dropped frame sealedWorld error world reason _ he hsend hfinal =>
    rw [he] at hseals hkept
    have hreason : reason = finalReason unaddressed w e.channel := by
      rw [final_eq_finalReason hA (congrArg Prod.fst hsend) hfinal]
      unfold finalReason
      rw [hkept]
    rw [hreason] at hsealable hunaddressed ⊢
    exact h.final hsealable hunaddressed hseals.symm
  | refused frame sealedWorld detail world _ he hsend =>
    rw [he] at hkept
    have haddress : unaddressed w e.channel = false := by
      rw [← hkept]
      exact addressed_of_send hA hsend (by simp)
    exact h.refused hsealable hunaddressed haddress rfl rfl rfl

end Step

theorem answered (hP : SealsByPeer P sealable) (hA : KnowsAddresses P unaddressed) (o : Outbox) (w : ω)
    (now budget : Nat) :
    Answered sealable unaddressed w (o.expire now).2 ((o.expire now).1.due now budget) (o.attempts P w now budget) :=
  Trace.run_prefix_induction (M := fun done s => Answered sealable unaddressed w (o.expire now).2 done s)
    (answered_opening o w now) fun _ e _ _ h => h.step hP hA (attempt_cases P now _ e)

/-- What a dead channel's backlog is dropped for. -/
theorem Answered.deadReason {w : ω} {expired : List Dropped} {done : List Entry} {s : Pass ω} {c : ChannelId}
    (h : Answered sealable unaddressed w expired done s) (hexpired : ∀ d ∈ expired, d.reason = .expired)
    (hdead : s.failedChannels[c]? = some .noSession) : Outbox.deadReason s c = finalReason unaddressed w c := by
  obtain ⟨-, d, hd, hdc, hreason⟩ := h.dead c hdead
  obtain ⟨drops, hdropped, hdrops⟩ := h.drops
  unfold Outbox.deadReason
  by_cases hc : unaddressed w c = true
  · have hnone : (s.report.dropped.any fun d => d.channel == c && d.reason == .channelRetired) = false := by
      rw [hdropped, List.any_eq_false]
      intro d' hd'
      rcases List.mem_append.mp hd' with hd' | hd'
      · simp [hexpired d' hd']
      · have hwhy := hdrops d' hd'
        by_cases hdc' : d'.channel = c
        · rw [hdc', finalReason, if_pos hc] at hwhy
          simp [hwhy]
        · simp [hdc']
    rw [hnone, finalReason, if_pos hc]
    rfl
  · rw [finalReason, if_neg hc] at hreason ⊢
    rw [if_pos (List.any_eq_true.mpr ⟨d, hd, by simp [hdc, hreason]⟩)]

section Drain

variable (hP : SealsByPeer P sealable) (hA : KnowsAddresses P unaddressed) {o : Outbox} {w : ω} {now : SystemTime}
  {budget : Nat} {e : Entry}

include hP hA

/-- A live entry is dropped with its dead channel, for the reason the address calls for. -/
theorem reason_of_dropped (he : e ∈ (o.expire now.unixSeconds).1.entries) {d : Dropped}
    (hd : d ∈ (o.drain P w now budget).report.dropped) (hid : d.id = e.id) :
    d.reason = finalReason unaddressed w e.channel ∧
    (o.attempts P w now.unixSeconds budget).failedChannels[e.channel]? = some .noSession := by
  have ht := tally P o w now.unixSeconds budget
  have ha := answered hP hA o w now.unixSeconds budget
  obtain ⟨drops, hdropped, hids, hfrom⟩ := ht.drops
  obtain ⟨drops', hdropped', hreasons⟩ := ha.drops
  obtain rfl : drops = drops' := List.append_cancel_left (hdropped.symm.trans hdropped')
  unfold drain at hd
  rw [finish_dropped, hdropped, List.append_assoc] at hd
  rcases List.mem_append.mp hd with hexpired | hd
  · exact absurd (List.mem_map.mpr ⟨d, hexpired, hid⟩) (not_expired_of_live he)
  rcases List.mem_append.mp hd with hd | hswept
  · obtain ⟨a, hdue, hda⟩ := hfrom d hd
    have hchannel : d.channel = a.channel := by rw [hda]; rfl
    have haid : d.id = a.id := by rw [hda]; rfl
    obtain rfl := (o.expire now.unixSeconds).1.eq_of_id (mem_due hdue).1 he (haid.symm.trans hid)
    rw [← hchannel]
    refine ⟨hreasons d hd, ?_⟩
    rw [hchannel, ht.dead]
    exact ⟨a, hdue, by rw [← hids, ← haid]; exact List.mem_map_of_mem hd, rfl⟩
  · obtain ⟨x, hx, hdead, -, rfl⟩ := mem_sweptOn.mp hswept
    obtain ⟨x', hx', hsame⟩ := (exists_of_messages ht.messages (p := fun a => a.message = x.message)
      (fun _ => Iff.rfl)).mp ⟨x, hx, rfl⟩
    obtain rfl := (o.expire now.unixSeconds).1.eq_of_id hx' he ((Entry.id_eq hsame).trans hid)
    rw [Entry.channel_eq hsame]
    refine ⟨ha.deadReason (fun d hd => ?_) hdead, hdead⟩
    obtain ⟨a, -, rfl⟩ := List.mem_map.mp hd
    rfl

/-- On a channel without an address nothing is sent, and nothing is retired. -/
theorem queued_of_unaddressed (he : e ∈ (o.expire now.unixSeconds).1.entries) (hc : unaddressed w e.channel = true)
    (h : e.id ∈ (o.drain P w now budget).outbox.ids ∨ e.id ∈ sentIdsOf (o.drain P w now budget) ∨
      ∃ d ∈ (o.drain P w now budget).report.dropped, d.id = e.id ∧ d.reason = .channelRetired) :
    e.id ∈ (o.drain P w now budget).outbox.ids := by
  rcases h with hqueued | hsent | ⟨d, hd, hid, hreason⟩
  · exact hqueued
  · rw [sentIdsOf_drain] at hsent
    obtain ⟨x, hx, hxe, haddress⟩ := (answered hP hA o w now.unixSeconds budget).sent e.id hsent
    obtain rfl := (o.expire now.unixSeconds).1.eq_of_id (mem_due hx).1 he hxe
    rw [haddress] at hc
    cases hc
  · rw [(reason_of_dropped hP hA he hd hid).1, finalReason, if_pos hc] at hreason
    cases hreason

/-- A pass loses a live entry exactly if it attempts one, for a peer that can be sealed
    for, on the same channel while that has no address. -/
theorem kept_or_released_iff (he : e ∈ (o.expire now.unixSeconds).1.entries) :
    (e.id ∈ (o.drain P w now budget).outbox.ids ∨ e.id ∈ sentIdsOf (o.drain P w now budget) ∨
        ∃ d ∈ (o.drain P w now budget).report.dropped, d.id = e.id ∧ d.reason = .channelRetired) ↔
      (unaddressed w e.channel = true → ∀ a ∈ (o.expire now.unixSeconds).1.due now.unixSeconds budget,
        a.channel = e.channel → sealable w a.peer = false) := by
  have ha := answered hP hA o w now.unixSeconds budget
  constructor
  · intro h hc a hdue hac
    by_contra hsealable
    have hdead : (o.attempts P w now.unixSeconds budget).failedChannels[e.channel]? = some .noSession := by
      rw [← hac]
      exact ha.attempted a hdue (by rw [hac]; exact hc) (by simpa using hsealable)
    obtain ⟨x, hx, hxe, -, -, halive⟩ := (mem_ids_drain P o w now budget e.id).mp (queued_of_unaddressed hP hA he hc h)
    obtain rfl := (o.expire now.unixSeconds).1.eq_of_id hx he hxe
    exact halive hdead
  · intro h
    have hqueued : e.id ∈ o.ids := List.mem_map_of_mem (mem_expire.mp he).1
    rcases (covered P o w now budget e.id).mp hqueued with hsent | hdropped | hkept
    · exact Or.inr (Or.inl hsent)
    · obtain ⟨d, hd, hid⟩ := List.mem_map.mp hdropped
      obtain ⟨hreason, hdead⟩ := reason_of_dropped hP hA he hd hid
      by_cases hc : unaddressed w e.channel = true
      · obtain ⟨⟨a, hdue, hac, hsealable⟩, -⟩ := ha.dead e.channel hdead
        rw [h hc a hdue hac] at hsealable
        cases hsealable
      · rw [finalReason, if_neg hc] at hreason
        exact Or.inr (Or.inr ⟨d, hd, hid, hreason⟩)
    · exact Or.inl hkept

end Drain

end Pass

end Outbox

/-! ## The outbox over Sund -/

structure Mailer where
  outbox : Outbox
  transport : SundTransport

namespace Mailer

/-- One call. A call that makes requests brings the server's state, and a drain the session manager. -/
inductive Event (O : Olm) (σ : Type) where
  | declare (channel : ChannelId) (recipientSeed : Seed)
  | openChannel (channel : ChannelId) (server : σ)
  | attachOutbound (channel : ChannelId) (senderId : String) (senderSeed : Seed)
  | rotateInbound (channel : ChannelId) (newRecipientSeed : Seed) (server : σ)
  | retire (channel : ChannelId) (server : σ)
  | enqueue (message : Enqueue) (now : SystemTime)
  | drain (sessions : SessionManager O) (server : σ) (now : SystemTime) (budget : Nat)
  | forgetPeer (peer : String)

def new : Mailer := ⟨.new, .new⟩

variable {O : Olm} {σ : Type} (S : SundServer σ)

def drained (m : Mailer) (sessions : SessionManager O) (server : σ) (now : SystemTime) (budget : Nat) :
    Drained (SessionManager O × SundTransport × σ) :=
  m.outbox.drain (.over (SundTransport.send S)) (sessions, m.transport, server) now budget

def step (m : Mailer) : Event O σ → Mailer
  | .declare channel recipientSeed => { m with transport := m.transport.declare channel recipientSeed }
  | .openChannel channel server => { m with transport := (m.transport.openChannel S server channel).2.1 }
  | .attachOutbound channel senderId senderSeed =>
    { m with transport := (m.transport.attachOutbound channel senderId senderSeed).2 }
  | .rotateInbound channel newRecipientSeed server =>
    { m with transport := (m.transport.rotateInbound S server channel newRecipientSeed).2.1 }
  | .retire channel server => { m with transport := (m.transport.retire S server channel).2.1 }
  | .enqueue message now => { m with outbox := (m.outbox.enqueue message now).1 }
  | .drain sessions server now budget =>
    ⟨(m.drained S sessions server now budget).outbox, (m.drained S sessions server now budget).world.2.1⟩
  | .forgetPeer peer => { m with outbox := (m.outbox.forgetPeer peer).1 }

/-- How an entry may leave: sent, with its retired channel, or with its peer. -/
def Released (m : Mailer) (e : Entry) : Event O σ → Prop
  | .drain sessions server now budget =>
    e.id ∈ Outbox.sentIdsOf (m.drained S sessions server now budget) ∨
    ∃ d ∈ (m.drained S sessions server now budget).report.dropped, d.id = e.id ∧ d.reason = .channelRetired
  | .forgetPeer peer => e.peer = peer
  | _ => False

/-- While its channel awaits an address, a drain keeps a permanent entry. -/
def Awaits (m : Mailer) : Event O σ → Prop
  | .drain sessions server now budget => ∀ e ∈ m.outbox.entries, e.isPermanent = true →
    m.transport.awaitsAddress e.channel = true →
      e.id ∈ (m.drained S sessions server now budget).outbox.ids ∧
      e.id ∉ Outbox.droppedIdsOf (m.drained S sessions server now budget)
  | _ => True

structure KeepsPermanent (m : Mailer) (event : Event O σ) : Prop where
  released : ∀ e ∈ m.outbox.entries, e.isPermanent = true →
    e.id ∈ (step S m event).outbox.ids ∨ Released S m e event
  awaits : Awaits S m event

/-- No attempt on a channel that has no address and holds a permanent entry. -/
def AttemptsAddressed (agrees : O.PublicKey → O.PublicKey → Bool) (usable : O.Session → Bool) (m : Mailer) :
    Event O σ → Prop
  | .drain sessions _ now budget => ∀ e ∈ m.outbox.entries, e.isPermanent = true →
    m.transport.unaddressed e.channel = true →
      ∀ a ∈ (m.outbox.expire now.unixSeconds).1.due now.unixSeconds budget, a.channel = e.channel →
        sessions.sealable agrees usable a.peer = false
  | _ => True

theorem permanent_makeRoom {o o' : Outbox} {message : Enqueue} {superseded : Option Dropped}
    (h : o.makeRoom message = .ok (o', superseded)) {e : Entry} (he : e ∈ o.entries) (hp : e.isPermanent = true) :
    e ∈ o'.entries := by
  obtain ⟨hdurable, hkey⟩ : e.isDurable = true ∧ e.coalesceKey = none := by
    simpa [Entry.isPermanent] using hp
  have hroom := Outbox.makeRoom_cases o message
  rw [h] at hroom
  -- the entry taken out has a key or may go stale
  have hkept : ∀ {before after : List Entry} {old : Entry}, o.entries = before ++ old :: after → e ≠ old →
      e ∈ before ++ after := by
    intro before after old hsplit hne
    rw [hsplit] at he
    rcases List.mem_append.mp he with he | he
    · exact List.mem_append_left _ he
    · exact List.mem_append_right _ (List.mem_of_ne_of_mem hne he)
  cases hroom with
  | spare => exact he
  | superseded _ hsplit hentries _ hsame =>
    rw [hentries]
    refine hkept hsplit fun heq => ?_
    obtain ⟨hsome, -, hold⟩ := hsame
    rw [← hold, ← heq, hkey] at hsome
    cases hsome
  | evicted _ hsplit hentries _ _ _ hstale =>
    rw [hentries]
    refine hkept hsplit fun heq => ?_
    rw [heq, hstale.2] at hdurable
    cases hdurable

theorem permanent_enqueue {o : Outbox} {e : Entry} (he : e ∈ o.entries) (hp : e.isPermanent = true)
    (message : Enqueue) (now : SystemTime) : e.id ∈ (o.enqueue message now).1.ids := by
  unfold Outbox.enqueue
  cases hroom : o.makeRoom message with
  | error error => exact List.mem_map_of_mem he
  | ok room =>
    obtain ⟨o', superseded⟩ := room
    exact List.mem_map_of_mem (List.mem_append_left _ (permanent_makeRoom hroom he hp))

theorem live_of_permanent {o : Outbox} {now : Nat} {e : Entry} (he : e ∈ o.entries) (hp : e.isPermanent = true) :
    e ∈ (o.expire now).1.entries := by
  have hnever : e.expiresAtSecs = none := by
    simp only [Entry.isPermanent, Entry.isDurable, Bool.and_eq_true, Option.isNone_iff_eq_none] at hp
    exact hp.1
  rw [Outbox.mem_expire]
  exact ⟨he, by simp [Entry.expiredAt, hnever]⟩

theorem unaddressed_of_awaitsAddress {t : SundTransport} {c : ChannelId} (h : t.awaitsAddress c = true) :
    t.unaddressed c = true := by
  unfold SundTransport.unaddressed
  rw [h, Bool.or_true]

section Olm

variable {agrees : O.PublicKey → O.PublicKey → Bool} {usable : O.Session → Bool}

theorem keepsPermanent_drain_iff (hO : O.SealsByKeys agrees usable) (m : Mailer) (sessions : SessionManager O)
    (server : σ) (now : SystemTime) (budget : Nat) :
    KeepsPermanent S m (.drain sessions server now budget) ↔
      AttemptsAddressed agrees usable m (.drain sessions server now budget) := by
  have hP := sealsByPeer_over (SundTransport.send S) hO
  have hA := SundTransport.knowsAddresses_sund (O := O) S
  constructor
  · intro h e he hp hc
    exact (Outbox.kept_or_released_iff hP hA (live_of_permanent he hp)).mp (h.released e he hp) hc
  · intro h
    have hreleased : ∀ e ∈ m.outbox.entries, e.isPermanent = true → _ := fun e he hp =>
      (Outbox.kept_or_released_iff hP hA (w := (sessions, m.transport, server)) (live_of_permanent he hp)).mpr
        (h e he hp)
    refine ⟨hreleased, fun e he hp hawaits => ?_⟩
    have hqueued := Outbox.queued_of_unaddressed hP hA (live_of_permanent he hp)
      (unaddressed_of_awaitsAddress hawaits) (hreleased e he hp)
    exact ⟨hqueued, fun hdropped => Outbox.dropped_not_queued _ _ _ _ _ hdropped hqueued⟩

theorem keepsPermanent_iff (hO : O.SealsByKeys agrees usable) (m : Mailer) (event : Event O σ) :
    KeepsPermanent S m event ↔ AttemptsAddressed agrees usable m event := by
  cases event with
  | drain sessions server now budget => exact keepsPermanent_drain_iff S hO m sessions server now budget
  | enqueue message now =>
    exact iff_of_true ⟨fun e he hp => Or.inl (permanent_enqueue he hp message now), trivial⟩ trivial
  | forgetPeer peer =>
    refine iff_of_true ⟨fun e he _ => ?_, trivial⟩ trivial
    by_cases hpeer : e.peer = peer
    · exact Or.inr hpeer
    · exact Or.inl (List.mem_map_of_mem (List.mem_filter.mpr ⟨he, by simpa using hpeer⟩))
  | declare | openChannel | attachOutbound | rotateInbound | retire =>
    exact iff_of_true ⟨fun e he _ => Or.inl (List.mem_map_of_mem he), trivial⟩ trivial

/-- Over every run of the outbox and the transport, whatever the servers answer: a
    permanent entry leaves the queue only by being sent, with its peer or with its retired
    channel, exactly as long as no drain attempts an entry on its channel while that
    channel has no address. -/
theorem permanent_kept_iff (hO : O.SealsByKeys agrees usable) (m : Mailer) (events : List (Event O σ)) :
    Trace.EachStep (step S) (KeepsPermanent S) m events ↔
      Trace.EachStep (step S) (AttemptsAddressed agrees usable) m events :=
  Trace.eachStep_congr (keepsPermanent_iff S hO)

end Olm

/-- The peer's queue is attached before the first drain, which delivers. -/
def attachedInTime : List (Event Olm.plain Unit) :=
  [.declare "c" (.replicate 32 1), .enqueue (.durable "c" "bob" .high) ⟨0⟩, .attachOutbound "c" "s" (.replicate 32 2),
   .drain (.knowing ["bob"]) () ⟨0⟩ 10]

theorem attachedInTime_delivered :
    Trace.EachStep (step .granting) (KeepsPermanent .granting) .new attachedInTime ∧
    Outbox.sentIdsOf ((Trace.run (step .granting) new (attachedInTime.take 3)).drained .granting (.knowing ["bob"]) ()
      ⟨0⟩ 10) = [0] := by
  refine ⟨(permanent_kept_iff .granting Olm.plain_sealsByKeys .new attachedInTime).mpr ?_, by decide +kernel⟩
  refine ⟨trivial, trivial, trivial, fun e he _ hc => ?_, trivial⟩
  exact absurd hc (by revert e; decide +kernel)

/-- The drain comes first. -/
def drainedFirst : List (Event Olm.plain Unit) :=
  [.declare "c" (.replicate 32 1), .enqueue (.durable "c" "bob" .high) ⟨0⟩, .drain (.knowing ["bob"]) () ⟨0⟩ 10]

/-- The message is gone before the peer's queue was ever attached. -/
theorem lost_before_attached :
    ((Trace.run (step .granting) new (drainedFirst.take 2)).drained .granting (.knowing ["bob"]) ()
      ⟨0⟩ 10).report.dropped = [⟨0, "c", "bob", .channelUnknown⟩] ∧
    ¬ Trace.EachStep (step .granting) (KeepsPermanent .granting) .new drainedFirst := by
  refine ⟨by decide +kernel, fun h => ?_⟩
  have hawaits := h.2.2.1.awaits
  have hgone := hawaits ⟨0, "c", "bob", [], true, none, none, none, 0, 0, 0⟩ (by decide +kernel) (by decide +kernel)
    (by decide +kernel)
  exact hgone.2 (by decide +kernel)

end Mailer

end Beacon
