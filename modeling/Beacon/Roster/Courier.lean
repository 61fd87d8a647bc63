/-
  Beacon.Roster.Courier — the initiation-address relay (`beacon_roster::pairing`).

  An offer names its owner and the device it is for; both are claims, while the device a
  delivery comes from is what the session authenticated. A device an offer is for accepts
  it or refuses it, and any other carries it on to `relayTarget` or to nobody. Any device
  may hand any offer to any other, and rosters change between the deliveries.
  - `accepted_iff` / `relayed_iff`: what the two decisions rest on.
  - `passed_deliver`: what one delivery makes of an offer under way.
  - `offer_reaches_its_device`: so an offer handed over is accepted by the device it names
    or by none, and carried by one courier at most, who had it from its owner.
-/

import Beacon.Roster.State
import Beacon.Lib.Trace

namespace Beacon.Roster

open Lib.Trace

structure ChannelOffer where
  /-- The device whose inbox is addressed. -/
  of : String
  forDevice : String
  sealed : String
  deriving DecidableEq, Repr

inductive OfferRefusal where
  | notForMe (intended : String)
  | ownerNotActive (owner : String)
  | relayerNotActive (relayer : String)
  | ownerIsSelf
  deriving DecidableEq, Repr

def OfferRefusal.toText : OfferRefusal → String
  | notForMe intended => "the offer is addressed to `" ++ intended ++ "`"
  | ownerNotActive owner => "`" ++ owner ++ "` is not an active member"
  | relayerNotActive relayer => "`" ++ relayer ++ "` is not an active member"
  | ownerIsSelf => "the offer claims to come from this device"

structure AcceptedOffer where
  owner : String
  direct : Bool
  deriving DecidableEq, Repr

/-- The ledger's channel events. -/
inductive ChannelEvent where
  | channelEstablished (outbound : Bool)
  | channelOfferRefused (reason : String)
  deriving DecidableEq, Repr

/-- The outcome, and the entry that accompanies it. -/
def acceptOffer (roster : Roster) (offer : ChannelOffer) (relayedBy : String) :
    Except OfferRefusal AcceptedOffer × List (EventEntry ChannelEvent) :=
  let refuse (refusal : OfferRefusal) :=
    (.error refusal, [EventEntry.inbound relayedBy none (.channelOfferRefused refusal.toText)])
  if offer.forDevice ≠ roster.selfId then refuse (.notForMe offer.forDevice)
  else if offer.of = roster.selfId then refuse .ownerIsSelf
  else if !roster.isActive relayedBy then refuse (.relayerNotActive relayedBy)
  else if !roster.isActive offer.of then refuse (.ownerNotActive offer.of)
  else
    (.ok ⟨offer.of, offer.of = relayedBy⟩, [EventEntry.inbound offer.of none (.channelEstablished true)])

inductive RelayRefusal where
  | forMe
  | notFromItsOwner (sender owner : String)
  | notAFamilyMatter (stranger : String)
  deriving DecidableEq, Repr

def relayTarget (roster : Roster) (offer : ChannelOffer) (sender : String) : Except RelayRefusal String :=
  if offer.forDevice = roster.selfId then .error .forMe
  else if offer.of ≠ sender then .error (.notFromItsOwner sender offer.of)
  else
    match [offer.of, offer.forDevice].find? fun device => !roster.isActive device with
    | some stranger => .error (.notAFamilyMatter stranger)
    | none => .ok offer.forDevice

theorem accepted_iff {roster : Roster} {offer : ChannelOffer} {relayedBy : String} {accepted : AcceptedOffer} :
    (acceptOffer roster offer relayedBy).1 = .ok accepted ↔
      offer.forDevice = roster.selfId ∧ offer.of ≠ roster.selfId ∧ roster.isActive relayedBy = true ∧
        roster.isActive offer.of = true ∧ accepted = ⟨offer.of, offer.of = relayedBy⟩ := by
  unfold acceptOffer
  by_cases hfor : offer.forDevice = roster.selfId
  · by_cases hself : offer.of = roster.selfId
    · simp [hfor, hself]
    · cases hrelayer : roster.isActive relayedBy <;> cases howner : roster.isActive offer.of <;>
        simp [hfor, hself, eq_comm]
  · simp [hfor]

/-- A refusal is ledgered against the device that carried the offer, an acceptance against its owner. -/
theorem acceptOffer_ledger (roster : Roster) (offer : ChannelOffer) (relayedBy : String) :
    (acceptOffer roster offer relayedBy).2 = match (acceptOffer roster offer relayedBy).1 with
      | .ok accepted => [.inbound accepted.owner none (.channelEstablished true)]
      | .error refusal => [.inbound relayedBy none (.channelOfferRefused refusal.toText)] := by
  cases hresult : (acceptOffer roster offer relayedBy).1 with
  | ok accepted =>
    obtain ⟨hfor, hself, hrelayer, howner, rfl⟩ := accepted_iff.mp hresult
    simp [acceptOffer, hfor, hself, hrelayer, howner]
  | error refusal =>
    unfold acceptOffer at hresult ⊢
    simp only [] at hresult ⊢
    repeat' split at hresult
    all_goals simp_all

theorem relayed_iff {roster : Roster} {offer : ChannelOffer} {sender target : String} :
    relayTarget roster offer sender = .ok target ↔
      offer.forDevice ≠ roster.selfId ∧ offer.of = sender ∧ roster.isActive offer.of = true ∧
        roster.isActive offer.forDevice = true ∧ target = offer.forDevice := by
  unfold relayTarget
  by_cases hfor : offer.forDevice = roster.selfId
  · simp [hfor]
  · by_cases hsender : offer.of = sender
    · subst hsender
      rw [if_neg hfor, if_neg (not_not_intro rfl)]
      cases howner : roster.isActive offer.of
      · simp [howner]
      · cases haddressee : roster.isActive offer.forDevice
        · simp [howner, haddressee]
        · simp [howner, haddressee, hfor, eq_comm (a := target)]
    · simp [hfor, hsender]

/-! ## Passing an offer along -/

/-- A device carried the offer on after `giver`'s session delivered it. -/
structure Relay where
  courier : String
  giver : String
  deriving DecidableEq, Repr

inductive Fate where
  | underway
  /-- With the roster the acceptor held then. -/
  | accepted (offer : AcceptedOffer) (roster : Roster)
  | refused (refusal : OfferRefusal)
  | notRelayed (refusal : RelayRefusal)

/-- An offer handed over once, and how far it got: the last delivery, made or under way, and
    the times it was carried on before that. -/
structure Parcel where
  offer : ChannelOffer
  origin : String
  sender : String
  receiver : String
  forwards : List Relay
  fate : Fate

def Parcel.handedOver (sender receiver : String) (offer : ChannelOffer) : Parcel :=
  ⟨offer, sender, sender, receiver, [], .underway⟩

/-- What the receiver, with this roster, does with what `sender`'s session delivered. -/
def Parcel.deliver (p : Parcel) (roster : Roster) : Parcel :=
  if p.offer.forDevice = roster.selfId then
    match (acceptOffer roster p.offer p.sender).1 with
    | .ok accepted => { p with fate := .accepted accepted roster }
    | .error refusal => { p with fate := .refused refusal }
  else
    match relayTarget roster p.offer p.sender with
    | .ok target =>
      { p with sender := p.receiver, receiver := target, forwards := p.forwards ++ [⟨p.receiver, p.sender⟩] }
    | .error refusal => { p with fate := .notRelayed refusal }

/-- Devices with distinct ids: each id's device holds a roster of its own. -/
structure Devices where
  roster : String → Roster
  selfId_roster : ∀ device, (roster device).selfId = device

/-- The device a roster is of holds that roster now. -/
def Devices.update (devices : Devices) (roster : Roster) : Devices where
  roster := Function.update devices.roster roster.selfId roster
  selfId_roster := by
    intro device
    by_cases h : device = roster.selfId
    · rw [h, Function.update_self]
    · rw [Function.update_of_ne h, devices.selfId_roster]

structure Network where
  devices : Devices
  parcels : List Parcel

inductive Event where
  /-- Any device hands any offer to any other. -/
  | handOver (sender receiver : String) (offer : ChannelOffer)
  /-- The delivery of a parcel that is under way. -/
  | deliver (parcel : Nat)
  /-- A device's roster changes, to any other of its own. -/
  | update (roster : Roster)

def Parcel.isUnderway (p : Parcel) : Bool :=
  match p.fate with
  | .underway => true
  | _ => false

def Network.step (n : Network) : Event → Network
  | .handOver sender receiver offer => { n with parcels := n.parcels ++ [.handedOver sender receiver offer] }
  | .deliver i =>
    { n with
      parcels := n.parcels.modify i fun p => if p.isUnderway then p.deliver (n.devices.roster p.receiver) else p }
  | .update roster => { n with devices := n.devices.update roster }

/-- What a parcel's journey may look like. -/
structure Passed (p : Parcel) : Prop where
  /-- It comes from the device that handed it over, or from the one courier between. -/
  way : (p.forwards = [] ∧ p.sender = p.origin) ∨
    ∃ courier, p.forwards = [⟨courier, p.offer.of⟩] ∧ p.origin = p.offer.of ∧ p.sender = courier ∧
      p.receiver = p.offer.forDevice
  accepted : ∀ accepted roster, p.fate = .accepted accepted roster → p.receiver = p.offer.forDevice ∧
    roster.selfId = p.receiver ∧ roster.isActive p.offer.of = true ∧ roster.isActive p.sender = true

theorem passed_handedOver (sender receiver : String) (offer : ChannelOffer) :
    Passed (.handedOver sender receiver offer) :=
  ⟨.inl ⟨rfl, rfl⟩, fun _ _ h => by cases h⟩

theorem passed_deliver {p : Parcel} (hp : Passed p) (hunderway : p.isUnderway = true) {roster : Roster}
    (hself : roster.selfId = p.receiver) : Passed (p.deliver roster) := by
  unfold Parcel.deliver
  split
  · rename_i hfor
    split
    · rename_i accepted haccepted
      obtain ⟨-, -, hrelayer, howner, -⟩ := accepted_iff.mp haccepted
      refine ⟨hp.way, fun accepted' roster' h => ?_⟩
      cases h
      exact ⟨by rw [hfor, hself], hself, howner, hrelayer⟩
    · exact ⟨hp.way, fun _ _ h => by cases h⟩
  · rename_i hfor
    split
    · rename_i target htarget
      obtain ⟨-, howner, -, -, rfl⟩ := relayed_iff.mp htarget
      constructor
      · -- a courier's delivery goes to the device the offer is for, which carries nothing on
        rcases hp.way with ⟨hnone, horigin⟩ | ⟨courier, -, -, -, hreceiver⟩
        · refine .inr ⟨p.receiver, ?_, ?_, rfl, rfl⟩
          · simp only [hnone, List.nil_append, howner]
          · simp only [howner, horigin]
        · rw [hself] at hfor
          exact absurd hreceiver.symm hfor
      · intro accepted roster' h
        have hfate : p.fate = .accepted accepted roster' := h
        rw [Parcel.isUnderway, hfate] at hunderway
        cases hunderway
    · exact ⟨hp.way, fun _ _ h => by cases h⟩

theorem passed_step {n : Network} (hn : ∀ p ∈ n.parcels, Passed p) (event : Event) :
    ∀ p ∈ (n.step event).parcels, Passed p := by
  cases event with
  | handOver sender receiver offer =>
    intro p hp
    rcases List.mem_append.mp hp with hp | hp
    · exact hn p hp
    · rw [List.mem_singleton.mp hp]
      exact passed_handedOver sender receiver offer
  | deliver i =>
    intro p hp
    obtain ⟨j, hj⟩ := List.mem_iff_getElem?.mp hp
    simp only [Network.step, List.getElem?_modify, Option.map_eq_map, Option.map_eq_some_iff] at hj
    obtain ⟨q, hq, rfl⟩ := hj
    have hpassed := hn q (List.mem_of_getElem? hq)
    split
    · split
      · rename_i hunderway
        exact passed_deliver hpassed hunderway (n.devices.selfId_roster _)
      · exact hpassed
    · exact hpassed
  | update roster => exact hn

theorem passed_run {n : Network} (hn : ∀ p ∈ n.parcels, Passed p) (events : List Event) :
    ∀ p ∈ (run Network.step n events).parcels, Passed p :=
  inv_run (Q := fun n : Network => ∀ p ∈ n.parcels, Passed p) (fun _ e _ hs => passed_step hs e) hn
    (eachStep_true n events)

theorem offer_reaches_its_device (devices : Devices) (events : List Event) :
    ∀ p ∈ (run Network.step ⟨devices, []⟩ events).parcels,
      (∀ accepted roster, p.fate = .accepted accepted roster →
        p.receiver = p.offer.forDevice ∧ roster.selfId = p.receiver ∧ roster.isActive p.offer.of = true ∧
          roster.isActive p.sender = true) ∧
      p.forwards.length ≤ 1 ∧
      ∀ forward ∈ p.forwards, forward.giver = p.offer.of ∧ p.origin = p.offer.of := by
  intro p hp
  have hpassed := passed_run (n := ⟨devices, []⟩) (fun _ h => by cases h) events p hp
  refine ⟨hpassed.accepted, ?_⟩
  rcases hpassed.way with ⟨hnone, -⟩ | ⟨courier, hone, horigin, -, -⟩
  · rw [hnone]
    exact ⟨by simp, fun _ h => by cases h⟩
  · rw [hone]
    refine ⟨by simp, fun forward h => ?_⟩
    rw [List.mem_singleton.mp h]
    exact ⟨rfl, horigin⟩

/-- Every device knows `a`, `b` and `c` as members. -/
def threeMembers : Devices where
  roster device :=
    { selfId := device
      devices := Lib.Table.ofList (["a", "b", "c"].map fun id => ⟨id, "k" ++ id, id, "", "adult", "", "a", .active⟩)
      tombstones := .empty
      epoch := 0
      churn := .new
      held := .empty
      removedMe := ∅ }
  selfId_roster _ := rfl

/-- `c` hands `a` its address for `b`, and `a` carries it on. -/
def byWayOfA : List Event := [.handOver "c" "a" ⟨"c", "b", "c2VhbGVk"⟩, .deliver 0, .deliver 0]

def Parcel.isAccepted (p : Parcel) : Bool :=
  match p.fate with
  | .accepted _ _ => true
  | _ => false

theorem address_of_c_reaches_b : ∃ p ∈ (run Network.step ⟨threeMembers, []⟩ byWayOfA).parcels,
    p.isAccepted = true ∧ p.receiver = p.offer.forDevice ∧ p.forwards.length = 1 ∧ p.origin = p.offer.of := by
  have hsome : (run Network.step ⟨threeMembers, []⟩ byWayOfA).parcels.any
      (fun p => p.isAccepted && p.forwards.length == 1) = true := by decide +kernel
  obtain ⟨p, hp, haccepted⟩ := List.any_eq_true.mp hsome
  rw [Bool.and_eq_true, beq_iff_eq] at haccepted
  obtain ⟨hreached, -, hgivers⟩ := offer_reaches_its_device threeMembers byWayOfA p hp
  refine ⟨p, hp, haccepted.1, ?_, haccepted.2, ?_⟩
  · cases hfate : p.fate with
    | accepted accepted roster => exact (hreached accepted roster hfate).1
    | _ =>
      have hnot := haccepted.1
      rw [Parcel.isAccepted, hfate] at hnot
      cases hnot
  · cases hforwards : p.forwards with
    | nil =>
      have hlength := haccepted.2
      rw [hforwards] at hlength
      cases hlength
    | cons forward rest => exact (hgivers forward (by rw [hforwards]; exact List.mem_cons_self)).2

end Beacon.Roster
