/-
  Beacon.Pairing — how members come to reach one another (`beacon_roster::pairing`, with
  `peers_needing_offers`).

  A joiner hands its introducer an address for each member it cannot reach. The introducer
  carries each on, and a member that accepts one so carried returns its own straight to the
  owner. The caller holds the transports: `reach` is whom each can send to, and what the
  session seals and unseals is not looked into. Any members may join by any, at once or
  again, and the deliveries come in any order.
  - `Stage`: an offer under way is with its courier, with its peer, or is a reply.
  - `Held`: a device that reaches another is reached by it, or an offer of its own is on the way;
    deliveries keep this (`Held.delivered`), and so do joins (`Held.join`).
  - `pairing_completes`: so when nothing is under way, whoever joined reaches every member, and
    every member it. A run delivers no more than three times for each offer.
-/

import Mathlib
import Beacon.Client
import Beacon.Roster.Courier

namespace Beacon

open Lib

namespace Roster

def peersNeedingOffers (roster : Roster) (alreadyAddressed : List String) : List String :=
  (roster.active.map (·.deviceId)).filter fun deviceId =>
    deviceId != roster.selfId && !alreadyAddressed.contains deviceId

theorem mem_peersNeedingOffers {roster : Roster} {alreadyAddressed : List String} {d : String} :
    d ∈ roster.peersNeedingOffers alreadyAddressed ↔
      roster.isActive d = true ∧ d ≠ roster.selfId ∧ d ∉ alreadyAddressed := by
  unfold peersNeedingOffers
  rw [List.mem_filter, Client.mem_activeIds]
  simp

/-! ## Offers and replies -/

structure Pairing where
  devices : Devices
  /-- Whom each device has an address of. -/
  reach : String → List String
  parcels : List Parcel

/-- The deliveries that an offer still takes: by the courier, by the peer, and of the answer. -/
def Parcel.left (p : Parcel) : Nat :=
  if !p.isUnderway then 0 else if p.receiver ≠ p.offer.forDevice then 3 else if p.sender = p.offer.of then 1 else 2

namespace Pairing

inductive Event where
  | join (joiner introducer : String)
  | deliver (parcel : Nat)

section

variable (sealed : String → String → String)

/-- The owner's address, sealed to the peer. -/
def offerOf (owner peer : String) : ChannelOffer := ⟨owner, peer, sealed owner peer⟩

/-- What a delivery leads to; a courier that cannot reach the device an offer is for carries nothing. -/
def deliver (n : Pairing) (i : Nat) (p : Parcel) : Pairing :=
  let delivered := p.deliver (n.devices.roster p.receiver)
  match delivered.fate with
  | .underway =>
    if delivered.receiver ∈ n.reach p.receiver then { n with parcels := n.parcels.set i delivered } else n
  | .accepted accepted _ =>
    { n with
      reach := Function.update n.reach p.receiver (accepted.owner :: n.reach p.receiver)
      parcels := n.parcels.set i delivered ++
        if accepted.direct then []
        else [.handedOver p.receiver accepted.owner (offerOf sealed p.receiver accepted.owner)] }
  | .refused _ | .notRelayed _ => { n with parcels := n.parcels.set i delivered }

def step (n : Pairing) : Event → Pairing
  | .join joiner introducer =>
    { n with
      parcels := n.parcels ++ ((n.devices.roster joiner).peersNeedingOffers (n.reach joiner)).map fun peer =>
        .handedOver joiner introducer (offerOf sealed joiner peer) }
  | .deliver i =>
    match n.parcels[i]? with
    | some p => if p.isUnderway then n.deliver sealed i p else n
    | none => n

end

/-- A member joins by a member that it reaches, and that reaches every other. -/
def Fair (members : String → Prop) (n : Pairing) : Event → Prop
  | .join joiner introducer => members joiner ∧ members introducer ∧ joiner ≠ introducer ∧
      introducer ∈ n.reach joiner ∧ ∀ d, members d → d ≠ introducer → d ∈ n.reach introducer
  | .deliver _ => True

/-- The members count in each other, and nobody else. -/
def Agreed (members : String → Prop) (devices : Devices) : Prop :=
  ∀ d, members d → ∀ x, (devices.roster d).isActive x = true ↔ members x

/-- Where an offer under way is. -/
inductive Stage (members : String → Prop) (reach : String → List String) : Parcel → Prop
  | toCourier {o : ChannelOffer} {courier : String} : members o.of → members courier → members o.forDevice →
      o.of ≠ courier → courier ≠ o.forDevice → o.of ≠ o.forDevice → o.forDevice ∈ reach courier →
      Stage members reach ⟨o, o.of, o.of, courier, [], .underway⟩
  | toPeer {o : ChannelOffer} {courier : String} {forwards : List Relay} : members o.of → members courier →
      members o.forDevice → o.of ≠ courier → o.of ≠ o.forDevice →
      Stage members reach ⟨o, o.of, courier, o.forDevice, forwards, .underway⟩
  | reply {o : ChannelOffer} : members o.of → members o.forDevice → o.of ≠ o.forDevice →
      o.forDevice ∈ reach o.of → Stage members reach ⟨o, o.of, o.of, o.forDevice, [], .underway⟩

/-- An offer of the one for the other is under way. -/
def Offering (n : Pairing) (owner peer : String) : Prop :=
  ∃ p ∈ n.parcels, p.isUnderway = true ∧ p.offer.of = owner ∧ p.offer.forDevice = peer

structure Held (members joined : String → Prop) (n : Pairing) : Prop where
  agreed : Agreed members n.devices
  stages : ∀ p ∈ n.parcels, p.isUnderway = true → Stage members n.reach p
  paired : ∀ a b, members a → members b → b ∈ n.reach a → a ∈ n.reach b ∨ n.Offering a b
  offered : ∀ a b, joined a → members b → a ≠ b → a ∈ n.reach b ∨ b ∈ n.reach a ∨ n.Offering a b

theorem Stage.mono {members : String → Prop} {reach reach' : String → List String} {p : Parcel}
    (h : Stage members reach p) (hmore : ∀ d, reach d ⊆ reach' d) : Stage members reach' p := by
  cases h with
  | toCourier howner hcourier hpeer h1 h2 h3 hreach => exact .toCourier howner hcourier hpeer h1 h2 h3 (hmore _ hreach)
  | toPeer howner hcourier hpeer h1 h2 => exact .toPeer howner hcourier hpeer h1 h2
  | reply howner hpeer h1 hreach => exact .reply howner hpeer h1 (hmore _ hreach)

theorem Held.of_joined {members joined joined' : String → Prop} {n : Pairing} (h : Held members joined n)
    (hjoined : ∀ a, joined' a → joined a) : Held members joined' n :=
  { h with offered := fun a b ha hb hne => h.offered a b (hjoined a ha) hb hne }

/-! ## One delivery -/

section

variable {sealed : String → String → String} {members joined : String → Prop} {n : Pairing} {i : Nat} {p : Parcel}

/-- What the delivery of an offer under way does: it is carried on, or it is accepted, and then answered unless it is
    an answer. -/
inductive Delivered (sealed : String → String → String) (members : String → Prop) (n : Pairing) (i : Nat) (p : Parcel) :
    Pairing → Prop
  | carried (q : Parcel) : q.offer = p.offer → q.isUnderway = true → Stage members n.reach q → q.left + 1 = p.left →
      Delivered sealed members n i p { n with parcels := n.parcels.set i q }
  | accepted (q : Parcel) (answer : List Parcel) : q.isUnderway = false → members p.offer.of →
      members p.offer.forDevice → p.offer.of ≠ p.offer.forDevice →
      (p.left = 1 ∧ answer = [] ∧ p.offer.forDevice ∈ n.reach p.offer.of ∨
        p.left = 2 ∧
          answer = [.handedOver p.offer.forDevice p.offer.of (offerOf sealed p.offer.forDevice p.offer.of)]) →
      Delivered sealed members n i p
        { n with
          reach := Function.update n.reach p.offer.forDevice (p.offer.of :: n.reach p.offer.forDevice)
          parcels := n.parcels.set i q ++ answer }

/-- The device that an offer is for takes it. -/
theorem deliver_accepted {roster : Roster} (hself : roster.selfId = p.offer.forDevice)
    (hother : p.offer.of ≠ p.offer.forDevice) (hsender : roster.isActive p.sender = true)
    (howner : roster.isActive p.offer.of = true) :
    p.deliver roster = { p with fate := .accepted ⟨p.offer.of, p.offer.of = p.sender⟩ roster } := by
  have haccepted : (acceptOffer roster p.offer p.sender).1 = .ok ⟨p.offer.of, p.offer.of = p.sender⟩ :=
    accepted_iff.mpr ⟨hself.symm, by rwa [hself], hsender, howner, rfl⟩
  unfold Parcel.deliver
  rw [if_pos hself.symm]
  simp only [haccepted]

/-- A courier that the owner gave it to carries it on. -/
theorem deliver_carried {roster : Roster} (hself : roster.selfId ≠ p.offer.forDevice) (hsender : p.offer.of = p.sender)
    (howner : roster.isActive p.offer.of = true) (hpeer : roster.isActive p.offer.forDevice = true) :
    p.deliver roster = { p with
      sender := p.receiver
      receiver := p.offer.forDevice
      forwards := p.forwards ++ [⟨p.receiver, p.sender⟩] } := by
  have hrelayed : relayTarget roster p.offer p.sender = .ok p.offer.forDevice :=
    relayed_iff.mpr ⟨hself.symm, hsender, howner, hpeer, rfl⟩
  unfold Parcel.deliver
  rw [if_neg hself.symm]
  simp only [hrelayed]

theorem deliver_cases (hagreed : Agreed members n.devices) (hstage : Stage members n.reach p) :
    Delivered sealed members n i p (n.deliver sealed i p) := by
  cases hstage with
  | @toCourier o courier howner hcourier hpeer h1 h2 h3 hreach =>
    have hself : (n.devices.roster courier).selfId ≠ o.forDevice := by
      rw [n.devices.selfId_roster]
      exact h2
    have hcarried := deliver_carried (p := ⟨o, o.of, o.of, courier, [], .underway⟩) hself rfl
      ((hagreed _ hcourier _).mpr howner) ((hagreed _ hcourier _).mpr hpeer)
    unfold deliver
    simp only [hcarried, if_pos hreach]
    refine .carried _ rfl rfl (.toPeer howner hcourier hpeer h1 h3) ?_
    simp [Parcel.left, Parcel.isUnderway, Ne.symm h1, h2]
  | @toPeer o courier forwards howner hcourier hpeer h1 h2 =>
    have haccepted := deliver_accepted (p := ⟨o, o.of, courier, o.forDevice, forwards, .underway⟩)
      (n.devices.selfId_roster o.forDevice) h2 ((hagreed _ hpeer _).mpr hcourier) ((hagreed _ hpeer _).mpr howner)
    unfold deliver
    simp only [haccepted, h1, decide_false, Bool.false_eq_true, if_false]
    refine .accepted _ _ rfl howner hpeer h2 (Or.inr ⟨?_, rfl⟩)
    simp [Parcel.left, Parcel.isUnderway, Ne.symm h1]
  | @reply o howner hpeer h1 hreach =>
    have haccepted := deliver_accepted (p := ⟨o, o.of, o.of, o.forDevice, [], .underway⟩)
      (n.devices.selfId_roster o.forDevice) h1 ((hagreed _ hpeer _).mpr howner) ((hagreed _ hpeer _).mpr howner)
    unfold deliver
    simp only [haccepted, decide_true, if_true]
    refine .accepted _ _ rfl howner hpeer h1 (Or.inl ⟨?_, rfl, hreach⟩)
    simp [Parcel.left, Parcel.isUnderway]

theorem mem_set_or {l : List Parcel} {q x : Parcel} (hi : l[i]? = some p) (hx : x ∈ l) : x = p ∨ x ∈ l.set i q := by
  obtain ⟨j, hj⟩ := List.mem_iff_getElem?.mp hx
  by_cases hij : i = j
  · subst hij
    exact Or.inl (Option.some.inj (hj.symm.trans hi))
  · exact Or.inr (List.mem_iff_getElem?.mpr ⟨j, by rw [List.getElem?_set_ne hij]; exact hj⟩)

theorem mem_set_self {l : List Parcel} {q : Parcel} (hi : l[i]? = some p) : q ∈ l.set i q :=
  List.mem_set (List.getElem?_eq_some_iff.mp hi).1 q

theorem Held.delivered {n' : Pairing} (h : Held members joined n) (hi : n.parcels[i]? = some p)
    (hd : Delivered sealed members n i p n') : Held members joined n' := by
  cases hd with
  | carried q hoffer hunderway hstage =>
    have hoffering : ∀ a b, n.Offering a b → Offering { n with parcels := n.parcels.set i q } a b := by
      rintro a b ⟨x, hx, hxunderway, rfl, rfl⟩
      rcases mem_set_or (q := q) hi hx with rfl | hx
      · exact ⟨q, mem_set_self hi, hunderway, by rw [hoffer], by rw [hoffer]⟩
      · exact ⟨x, hx, hxunderway, rfl, rfl⟩
    refine ⟨h.agreed, fun x hx hxunderway => ?_, fun a b ha hb hab => ?_, fun a b ha hb hne => ?_⟩
    · rcases List.mem_or_eq_of_mem_set hx with hx | rfl
      · exact h.stages x hx hxunderway
      · exact hstage
    · exact (h.paired a b ha hb hab).imp_right (hoffering a b)
    · exact (h.offered a b ha hb hne).imp_right fun hor => hor.imp_right (hoffering a b)
  | accepted q answer hover howner hpeer hne hanswer =>
    have hmore : ∀ d, n.reach d ⊆
        Function.update n.reach p.offer.forDevice (p.offer.of :: n.reach p.offer.forDevice) d := by
      intro d
      by_cases hd : d = p.offer.forDevice
      · subst hd
        rw [Function.update_self]
        exact List.subset_cons_self _ _
      · rw [Function.update_of_ne hd]
        exact List.Subset.refl _
    have hnew : p.offer.of ∈
        Function.update n.reach p.offer.forDevice (p.offer.of :: n.reach p.offer.forDevice) p.offer.forDevice := by
      rw [Function.update_self]
      exact List.mem_cons_self
    -- an offer is still under way, or it was the one that is accepted now
    have hoffering : ∀ a b, n.Offering a b →
        a ∈ Function.update n.reach p.offer.forDevice (p.offer.of :: n.reach p.offer.forDevice) b ∨
        ∃ x ∈ n.parcels.set i q ++ answer, x.isUnderway = true ∧ x.offer.of = a ∧ x.offer.forDevice = b := by
      rintro a b ⟨x, hx, hxunderway, rfl, rfl⟩
      rcases mem_set_or (q := q) hi hx with rfl | hx
      · exact Or.inl hnew
      · exact Or.inr ⟨x, List.mem_append_left _ hx, hxunderway, rfl, rfl⟩
    refine ⟨h.agreed, fun x hx hxunderway => ?_, fun a b ha hb hab => ?_, fun a b ha hb hab => ?_⟩
    · rcases List.mem_append.mp hx with hx | hx
      · rcases List.mem_or_eq_of_mem_set hx with hx | rfl
        · exact (h.stages x hx hxunderway).mono hmore
        · rw [hover] at hxunderway
          cases hxunderway
      · rcases hanswer with ⟨-, rfl, -⟩ | ⟨-, rfl⟩
        · cases hx
        · rw [List.mem_singleton.mp hx]
          exact .reply hpeer howner (Ne.symm hne) hnew
    · have hcases : b ∈ n.reach a ∨ a = p.offer.forDevice ∧ b = p.offer.of := by
        by_cases had : a = p.offer.forDevice
        · subst had
          have hab : b ∈ p.offer.of :: n.reach p.offer.forDevice := by simpa using hab
          exact (List.mem_cons.mp hab).symm.imp_right fun hb => ⟨rfl, hb⟩
        · exact Or.inl (by simpa [had] using hab)
      rcases hcases with hold | ⟨rfl, rfl⟩
      · exact (h.paired a b ha hb hold).elim (fun hba => Or.inl (hmore b hba)) (hoffering a b)
      · rcases hanswer with ⟨-, rfl, hback⟩ | ⟨-, rfl⟩
        · exact Or.inl (hmore _ hback)
        · exact Or.inr ⟨_, List.mem_append_right _ (List.mem_singleton.mpr rfl), rfl, rfl, rfl⟩
    · rcases h.offered a b ha hb hab with hba | hab | hunder
      · exact Or.inl (hmore b hba)
      · exact Or.inr (Or.inl (hmore a hab))
      · exact (hoffering a b hunder).imp_right Or.inr

end

/-! ## Runs -/

section

variable (sealed : String → String → String)

/-- The deliveries made of offers under way. -/
def deliveries (n : Pairing) : Event → List Nat
  | .join _ _ => []
  | .deliver i => if n.parcels[i]?.any Parcel.isUnderway then [i] else []

/-- The peers that joiners hand offers over for. -/
def asked (n : Pairing) : Event → List String
  | .join joiner _ => (n.devices.roster joiner).peersNeedingOffers (n.reach joiner)
  | .deliver _ => []

/-- The deliveries that the offers under way still take. -/
def left (n : Pairing) : Nat := (n.parcels.map Parcel.left).sum

end

section

variable {sealed : String → String → String} {members joined : String → Prop} {n : Pairing}

theorem sum_set {l : List Parcel} {i : Nat} {p : Parcel} (hi : l[i]? = some p) (q : Parcel) :
    ((l.set i q).map Parcel.left).sum + p.left = (l.map Parcel.left).sum + q.left := by
  induction l generalizing i with
  | nil => cases hi
  | cons x l ih =>
    cases i with
    | zero =>
      obtain rfl : x = p := by simpa using hi
      simp only [List.set_cons_zero, List.map_cons, List.sum_cons]
      omega
    | succ i =>
      have := ih (i := i) (by simpa using hi)
      simp only [List.set_cons_succ, List.map_cons, List.sum_cons]
      omega

theorem Delivered.left {i : Nat} {p : Parcel} {n' : Pairing} (h : Delivered sealed members n i p n')
    (hi : n.parcels[i]? = some p) : n'.left + 1 = n.left := by
  cases h with
  | carried q _ _ _ hleft =>
    have hsum := sum_set hi q
    show ((n.parcels.set i q).map Parcel.left).sum + 1 = (n.parcels.map Parcel.left).sum
    omega
  | accepted q answer hover _ _ hne hanswer =>
    have hsum := sum_set hi q
    have hnone : q.left = 0 := by simp [Parcel.left, hover]
    show ((n.parcels.set i q ++ answer).map Parcel.left).sum + 1 = (n.parcels.map Parcel.left).sum
    rw [List.map_append, List.sum_append]
    rcases hanswer with ⟨hleft, rfl, -⟩ | ⟨hleft, rfl⟩
    · simp only [List.map_nil, List.sum_nil]
      omega
    · have hanswer : (Parcel.handedOver p.offer.forDevice p.offer.of
          (offerOf sealed p.offer.forDevice p.offer.of)).left = 1 := by
        simp [Parcel.left, Parcel.handedOver, Parcel.isUnderway, offerOf]
      simp only [List.map_cons, List.map_nil, List.sum_cons, List.sum_nil, hanswer]
      omega

theorem step_deliver_cases (sealed : String → String → String) (h : Held members joined n) (i : Nat) :
    (∃ p, n.parcels[i]? = some p ∧ p.isUnderway = true ∧
      Delivered sealed members n i p (step sealed n (.deliver i))) ∨
    (n.parcels[i]?.any Parcel.isUnderway = false ∧ step sealed n (.deliver i) = n) := by
  simp only [step]
  cases hi : n.parcels[i]? with
  | none => exact Or.inr ⟨rfl, rfl⟩
  | some p =>
    cases hunderway : p.isUnderway with
    | false => exact Or.inr ⟨by simp [hunderway], by simp [hunderway]⟩
    | true =>
      refine Or.inl ⟨p, rfl, hunderway, ?_⟩
      simp only [hunderway, if_true]
      exact deliver_cases h.agreed (h.stages p (List.mem_of_getElem? hi) hunderway)

/-- The offers that a joiner hands over. -/
theorem new_parcel (sealed : String → String → String) {joiner introducer : String} (hagreed : Agreed members n.devices)
    (hfair : Fair members n (.join joiner introducer)) {peer : String}
    (hpeer : peer ∈ (n.devices.roster joiner).peersNeedingOffers (n.reach joiner)) :
    Stage members n.reach (.handedOver joiner introducer (offerOf sealed joiner peer)) ∧
      (Parcel.handedOver joiner introducer (offerOf sealed joiner peer)).left = 3 := by
  obtain ⟨hjoiner, hintroducer, hne, hreach, hall⟩ := hfair
  obtain ⟨hactive, hself, hunaddressed⟩ := mem_peersNeedingOffers.mp hpeer
  rw [n.devices.selfId_roster] at hself
  have hmember : members peer := (hagreed joiner hjoiner peer).mp hactive
  have hother : introducer ≠ peer := fun heq => hunaddressed (heq ▸ hreach)
  constructor
  · exact .toCourier (o := offerOf sealed joiner peer) hjoiner hintroducer hmember hne hother (Ne.symm hself)
      (hall peer hmember (Ne.symm hother))
  · simp [Parcel.left, Parcel.handedOver, Parcel.isUnderway, offerOf, hother]

theorem Held.join (sealed : String → String → String) {joiner introducer : String} (h : Held members joined n)
    (hfair : Fair members n (.join joiner introducer)) :
    Held members (fun d => joined d ∨ d = joiner) (step sealed n (.join joiner introducer)) := by
  have hoffering : ∀ a b, n.Offering a b → Offering (step sealed n (.join joiner introducer)) a b := by
    rintro a b ⟨x, hx, hrest⟩
    exact ⟨x, List.mem_append_left _ hx, hrest⟩
  refine ⟨h.agreed, fun x hx hunderway => ?_, fun a b ha hb hab => ?_, fun a b ha hb hne => ?_⟩
  · rcases List.mem_append.mp hx with hx | hx
    · exact h.stages x hx hunderway
    · obtain ⟨peer, hpeer, rfl⟩ := List.mem_map.mp hx
      exact (new_parcel sealed h.agreed hfair hpeer).1
  · exact (h.paired a b ha hb hab).imp_right (hoffering a b)
  · rcases ha with ha | rfl
    · exact (h.offered a b ha hb hne).imp_right fun hor => hor.imp_right (hoffering a b)
    · by_cases hreach : b ∈ n.reach a
      · exact Or.inr (Or.inl hreach)
      · have hpeer : b ∈ (n.devices.roster a).peersNeedingOffers (n.reach a) := by
          rw [mem_peersNeedingOffers, n.devices.selfId_roster]
          exact ⟨(h.agreed a hfair.1 b).mpr hb, Ne.symm hne, hreach⟩
        refine Or.inr (Or.inr ⟨.handedOver a introducer (offerOf sealed a b), ?_, rfl, rfl, rfl⟩)
        exact List.mem_append_right _ (List.mem_map_of_mem hpeer)

theorem left_join {joiner introducer : String} (hagreed : Agreed members n.devices)
    (hfair : Fair members n (.join joiner introducer)) :
    (step sealed n (.join joiner introducer)).left = n.left + 3 * (asked n (.join joiner introducer)).length := by
  have hthree : ∀ peers ⊆ (n.devices.roster joiner).peersNeedingOffers (n.reach joiner),
      ((peers.map fun peer => Parcel.handedOver joiner introducer (offerOf sealed joiner peer)).map Parcel.left).sum =
        3 * peers.length := by
    intro peers hpeers
    induction peers with
    | nil => rfl
    | cons peer peers ih =>
      have hfirst := (new_parcel sealed hagreed hfair (hpeers List.mem_cons_self)).2
      have hrest := ih fun x hx => hpeers (List.mem_cons_of_mem _ hx)
      simp only [List.map_cons, List.sum_cons, List.length_cons]
      omega
  show ((n.parcels ++ _).map Parcel.left).sum = (n.parcels.map Parcel.left).sum + 3 * _
  rw [List.map_append, List.sum_append, hthree _ (List.Subset.refl _)]
  rfl

theorem left_eq_zero : n.left = 0 ↔ ∀ p ∈ n.parcels, p.isUnderway = false := by
  unfold left
  rw [List.sum_eq_zero_iff_forall_eq_nat]
  constructor
  · intro h p hp
    have hnone := h p.left (List.mem_map_of_mem hp)
    by_contra hunderway
    rw [Bool.not_eq_false] at hunderway
    unfold Parcel.left at hnone
    rw [hunderway] at hnone
    simp only [Bool.not_true, Bool.false_eq_true, if_false] at hnone
    split at hnone
    · cases hnone
    · split at hnone <;> cases hnone
  · intro h x hx
    obtain ⟨p, hp, rfl⟩ := List.mem_map.mp hx
    simp [Parcel.left, h p hp]

/-- Where a run of joins and deliveries stands. -/
structure Standing (sealed : String → String → String) (members : String → Prop) (start : Pairing) (events : List Event)
    (n : Pairing) : Prop where
  held : Held members (fun d => ∃ introducer, .join d introducer ∈ events) n
  counted : (Trace.log (step sealed) deliveries start events).length + n.left =
    3 * (Trace.log (step sealed) asked start events).length

theorem standing_step {start : Pairing} {events : List Event} (hrun : n = Trace.run (step sealed) start events)
    (h : Standing sealed members start events n) (event : Event) (hfair : Fair members n event) :
    Standing sealed members start (events ++ [event]) (step sealed n event) := by
  have hcounted := h.counted
  cases event with
  | join joiner introducer =>
    have hheld := h.held.join sealed hfair
    constructor
    · refine hheld.of_joined ?_
      rintro a ⟨i, hi⟩
      rcases List.mem_append.mp hi with hi | hi
      · exact Or.inl ⟨i, hi⟩
      · cases List.mem_singleton.mp hi
        exact Or.inr rfl
    · rw [Trace.log_snoc, Trace.log_snoc, ← hrun, List.length_append, List.length_append, left_join h.held.agreed hfair]
      simp only [deliveries, List.length_nil]
      omega
  | deliver i =>
    have hjoined : ∀ a, (∃ introducer, Event.join a introducer ∈ events ++ [.deliver i]) →
        ∃ introducer, .join a introducer ∈ events := by
      rintro a ⟨introducer, hmem⟩
      exact ⟨introducer, by simpa using hmem⟩
    rcases step_deliver_cases sealed h.held i with ⟨p, hi, hunderway, hdelivered⟩ | ⟨hnone, hstill⟩
    · have hheld := h.held.delivered hi hdelivered
      have hleft := hdelivered.left hi
      constructor
      · exact hheld.of_joined hjoined
      · have hone : deliveries n (.deliver i) = [i] := by simp [deliveries, hi, hunderway]
        rw [Trace.log_snoc, Trace.log_snoc, ← hrun, List.length_append, List.length_append, hone]
        simp only [asked, List.length_cons, List.length_nil]
        omega
    · rw [hstill]
      constructor
      · exact h.held.of_joined hjoined
      · have hno : deliveries n (.deliver i) = [] := by simp [deliveries, hnone]
        rw [Trace.log_snoc, Trace.log_snoc, ← hrun, hno, List.append_nil]
        simpa [asked] using hcounted

/-- Members whose rosters agree join by one another, in any order and any number of times, over deliveries in any
    order. Each offer that a joiner hands over takes three deliveries and no more; when they are made, whoever joined
    reaches every member and every member it, and needs no more offers. -/
theorem pairing_completes (sealed : String → String → String) {members : String → Prop} {start : Pairing}
    (hagreed : Agreed members start.devices) (hnone : start.parcels = [])
    (hmutual : ∀ a b, members a → members b → b ∈ start.reach a → a ∈ start.reach b) (events : List Event)
    (hfair : Trace.EachStep (step sealed) (Fair members) start events) :
    let n := Trace.run (step sealed) start events
    let made := (Trace.log (step sealed) deliveries start events).length
    let handed := (Trace.log (step sealed) asked start events).length
    made ≤ 3 * handed ∧ (made = 3 * handed ↔ ∀ p ∈ n.parcels, p.isUnderway = false) ∧
    (made = 3 * handed → ∀ joiner introducer, .join joiner introducer ∈ events →
      (∀ d, members d → d ≠ joiner → d ∈ n.reach joiner ∧ joiner ∈ n.reach d) ∧
      (n.devices.roster joiner).peersNeedingOffers (n.reach joiner) = []) := by
  have hsteps := Trace.eachStep_iff.mp hfair
  have hstanding : Standing sealed members start events (Trace.run (step sealed) start events) := by
    refine Trace.run_prefix_induction (M := fun pre n => Standing sealed members start pre n) ?_ ?_
    · refine ⟨⟨hagreed, fun p hp => ?_, fun a b ha hb hab => Or.inl (hmutual a b ha hb hab), ?_⟩, ?_⟩
      · rw [hnone] at hp
        cases hp
      · rintro a b ⟨introducer, hmem⟩
        cases hmem
      · simp [Trace.log, left, hnone]
    · intro pre event post hsplit h
      exact standing_step rfl h event (hsteps pre event post hsplit)
  intro n made handed
  have hcounted : made + n.left = 3 * handed := hstanding.counted
  have hall : made = 3 * handed ↔ ∀ p ∈ n.parcels, p.isUnderway = false := by
    rw [← left_eq_zero]
    omega
  refine ⟨by omega, hall, fun hmade joiner introducer hjoin => ?_⟩
  have hsettled := hall.mp hmade
  have hno : ∀ a b, ¬ n.Offering a b := by
    rintro a b ⟨p, hp, hunderway, -⟩
    rw [hsettled p hp] at hunderway
    cases hunderway
  have hmember : members joiner := by
    obtain ⟨pre, post, hsplit⟩ := List.append_of_mem hjoin
    exact (hsteps pre _ post hsplit).1
  have hboth : ∀ d, members d → d ≠ joiner → d ∈ n.reach joiner ∧ joiner ∈ n.reach d := by
    intro d hd hne
    have hmeets := fun a b ha hb hab => (hstanding.held.paired a b ha hb hab).resolve_right (hno a b)
    rcases hstanding.held.offered joiner d ⟨introducer, hjoin⟩ hd (Ne.symm hne) with h | h | h
    · exact ⟨hmeets d joiner hd hmember h, h⟩
    · exact ⟨h, hmeets joiner d hmember hd h⟩
    · exact absurd h (hno joiner d)
  refine ⟨hboth, List.eq_nil_iff_forall_not_mem.mpr fun d hd => ?_⟩
  obtain ⟨hactive, hself, hunaddressed⟩ := mem_peersNeedingOffers.mp hd
  rw [n.devices.selfId_roster] at hself
  exact hunaddressed (hboth d ((hstanding.held.agreed joiner hmember d).mp hactive) hself).1

end

/-- `a` has paired with `b` and with `c`, which have not met. -/
def threePaired : Pairing where
  devices := threeMembers
  reach device := if device = "a" then ["b", "c"] else ["a"]
  parcels := []

/-- `c` joins by `a`; the offer goes by way of `a` to `b`, and `b` answers. -/
def cJoins : List Event := [.join "c" "a", .deliver 0, .deliver 0, .deliver 1]

theorem c_reaches_b :
    let n := Trace.run (step fun _ _ => "c2VhbGVk") threePaired cJoins
    "b" ∈ n.reach "c" ∧ "c" ∈ n.reach "b" ∧ (n.devices.roster "c").peersNeedingOffers (n.reach "c") = [] := by
  let members : String → Prop := fun d => (threeMembers.roster "a").isActive d = true
  have hmembers : ∀ d, members d → d = "a" ∨ d = "b" ∨ d = "c" := by
    have hvalues : ∀ record ∈ (threeMembers.roster "a").devices.values,
        record.deviceId = "a" ∨ record.deviceId = "b" ∨ record.deviceId = "c" := by decide +kernel
    intro d hd
    obtain ⟨record, hrecord, -⟩ := isActive_iff.mp hd
    have hnamed := hvalues record (Table.mem_values_of_get? hrecord)
    rwa [Table.get?_key hrecord] at hnamed
  have hmutual : ∀ a b, members a → members b → b ∈ threePaired.reach a → a ∈ threePaired.reach b := by
    intro a b ha hb
    rcases hmembers a ha with rfl | rfl | rfl <;> rcases hmembers b hb with rfl | rfl | rfl <;> decide
  have hfair : Trace.EachStep (step fun _ _ => "c2VhbGVk") (Fair members) threePaired cJoins := by
    refine ⟨⟨by decide +kernel, by decide +kernel, by decide, by decide, fun d hd hne => ?_⟩, trivial, trivial,
      trivial, trivial⟩
    rcases hmembers d hd with rfl | rfl | rfl
    · exact absurd rfl hne
    · decide
    · decide
  have hagreed : Agreed members threePaired.devices := fun d _ x => Iff.rfl
  obtain ⟨-, -, hdone⟩ := pairing_completes (fun _ _ => "c2VhbGVk") hagreed rfl hmutual cJoins hfair
  obtain ⟨hboth, hnone⟩ := hdone (by decide +kernel) "c" "a" List.mem_cons_self
  obtain ⟨hb, hc⟩ := hboth "b" (by decide +kernel) (by decide)
  exact ⟨hb, hc, hnone⟩

end Pairing

end Roster

end Beacon
