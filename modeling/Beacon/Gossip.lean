/-
  Beacon.Gossip — how removals spread through a family by `roster_sync`.

  What a roster holds of removals, its tombstones and its epoch (`told`), is a value that
  a sync carries and a receiver joins in, as long as the members count one another in and
  know the same devices under the same keys (`Agreed`). Delivery is not assumed: what was
  sent may be received late, again, in any order, or never.
  - `agreed_step`: removals of others, syncs, relabellings and restarts keep that so.
  - `Member.told_receiveSync`: a receipt is a join.
  - `gossip_settles`: a member holds all that those it has heard of held, through
    whomever; and once each has heard of all, all hold the same and send the same sync,
    which every one of them answers with `InSync`.
-/

import Mathlib
import Beacon.Lib.Gossip
import Beacon.Roster.Agreement
import Beacon.Roster.Epochs
import Beacon.Family

namespace Beacon

open Lib

/-- The ids known to be removed, and the epoch. -/
abbrev Told := Set String × ℕ

def RosterSync.told (message : RosterSync) : Told := ({d | Roster.ReportsRemoved message d}, message.epoch.toNat)

namespace Roster

variable (C : Crypto)

def told (r : Roster) : Told := (r.view.buried, r.epoch.toNat)

/-- The members of `M` are active, the devices are those of `key`, and what is not active is buried. -/
structure Member (M : Finset String) (key : String → Option String) (r : Roster) : Prop where
  self : r.selfId ∈ M
  sameKeys : r.view.key = key
  present : ∀ b ∈ M, r.isActive b = true
  buried : ∀ d, r.tombstones.contains d = true ↔ (key d).isSome = true ∧ r.isActive d = false

/-- A device that may be removed. -/
def Outsider (M : Finset String) (key : String → Option String) (d : String) : Prop := d ∉ M ∧ (key d).isSome = true

/-- A sync that reports nobody removed but outsiders. -/
structure Fit (M : Finset String) (key : String → Option String) (message : RosterSync) : Prop where
  digest : C.digestOf message.epoch message.devices = message.digest
  outsiders : ∀ d, ReportsRemoved message d → Outsider M key d

/-- An operation that brings in no device, and takes away none but outsiders. -/
inductive Mild (M : Finset String) (key : String → Option String) : Op C → Prop
  | denyHeld (subject : String) : Mild M key (.denyHeld subject)
  | updateLabels (d : String) (displayName memberGroup role : Option String) :
      Mild M key (.updateLabels d displayName memberGroup role)
  | restart (selfId : String) : Mild M key (.restart selfId)
  | remove {subject : String} (reason : RemovalReason) (removedAt : String) (identity : C.IdentityKey)
      (now : SystemTime) : Outsider M key subject → Mild M key (.remove subject reason removedAt identity now)
  | receiveRemove {message : RosterRemove} (remover : String) (now : SystemTime) :
      Outsider M key message.subject → Mild M key (.receiveRemove message remover now)
  | receiveSync {message : RosterSync} (sender : String) : Fit C M key message →
      Mild M key (.receiveSync message sender)

variable {C}
variable {M : Finset String} {key : String → Option String} {r : Roster} {op : Op C}

theorem Mild.quiet (h : Mild C M key op) (r : Roster) : Quiet r (step C r op) := by
  cases h with
  | denyHeld subject => exact quiet_denyHeld r subject
  | updateLabels d displayName memberGroup role => exact quiet_updateLabels r d displayName memberGroup role
  | restart selfId =>
    rw [step_restart]
    exact .refl r
  | remove reason removedAt identity now _ => exact quiet_remove C r _ reason removedAt identity now
  | receiveRemove remover now _ => exact quiet_receiveRemove C r _ remover now
  | receiveSync sender _ => exact quiet_receiveSync C r _ sender

theorem Mild.outsider (h : Mild C M key op) {d : String} (hd : Buries C r d op) : Outsider M key d := by
  cases h with
  | denyHeld | updateLabels | restart => exact hd.elim
  | remove _ _ _ _ hsubject => exact hd.1 ▸ hsubject
  | receiveRemove _ _ hsubject => exact hd.1 ▸ hsubject
  | receiveSync _ hfit => exact hfit.outsiders d hd.2.1

theorem Mild.not_revokes (h : Mild C M key op) (d : String) : ¬ Revokes C d op := by
  cases h <;> exact id

namespace Member

theorem known (h : Member M key r) (d : String) : r.devices.contains d = (key d).isSome := by
  rw [← h.sameKeys, view_key, Option.isSome_map]
  rfl

theorem step (h : Member M key r) (hop : Mild C M key op) : Member M key (step C r op) := by
  have hquiet := hop.quiet r
  have hactive : ∀ d, (Roster.step C r op).isActive d = true → r.isActive d = true := fun d => @hquiet.view.active d
  have hmember : ∀ d, ¬ Outsider M key d → (Roster.step C r op).tombstones.contains d = r.tombstones.contains d := by
    intro d hd
    rw [Bool.eq_iff_iff, buried_step]
    exact or_iff_left fun hburies => hd (hop.outsider hburies)
  refine ⟨hquiet.selfId ▸ h.self, hquiet.view.key.trans h.sameKeys, ?_, ?_⟩
  · intro b hb
    have hnot : ¬ Outsider M key b := fun hout => hout.1 hb
    rcases active_or_buried_step C op (h.present b hb) (hop.not_revokes b) with hafter | hburied
    · exact hafter
    · rw [hmember b hnot, h.buried, h.present b hb] at hburied
      cases hburied.2
  · intro d
    constructor
    · intro hburied
      by_cases hbefore : r.tombstones.contains d = true
      · obtain ⟨hknown, hinactive⟩ := (h.buried d).mp hbefore
        refine ⟨hknown, Bool.eq_false_iff.mpr fun hafter => ?_⟩
        rw [hactive d hafter] at hinactive
        cases hinactive
      · rcases (buried_step C r op d).mp hburied with hold | hburies
        · exact absurd hold hbefore
        · exact ⟨(hop.outsider hburies).2, Bool.eq_false_iff.mpr (hquiet.view.fresh d hburied hbefore)⟩
    · rintro ⟨hknown, hinactive⟩
      by_cases hbefore : r.isActive d = true
      · rcases active_or_buried_step C op hbefore (hop.not_revokes d) with hafter | hburied
        · rw [hinactive] at hafter
          cases hafter
        · exact hburied
      · exact hquiet.view.buried ((h.buried d).mpr ⟨hknown, Bool.eq_false_iff.mpr hbefore⟩)

variable (C)

theorem reportsRemoved_iff (h : Member M key r) (d : String) :
    ReportsRemoved (r.sync C) d ↔ r.tombstones.contains d = true := by
  rw [reportsRemoved_sync, h.buried]
  have hknown := h.known d
  unfold Table.contains at hknown
  unfold isActive
  rw [← hknown]
  cases r.devices.get? d with
  | none => simp
  | some record => cases hstate : record.state <;> simp [DeviceRecord.isActive, hstate]

/-- A member's own sync tells what its roster does. -/
theorem told_sync (h : Member M key r) : (r.sync C).told = r.told := by
  refine Prod.ext (Set.ext fun d => ?_) rfl
  exact h.reportsRemoved_iff C d

theorem fit_sync (h : Member M key r) : Fit C M key (r.sync C) := by
  refine ⟨rfl, fun d hd => ?_⟩
  obtain ⟨hknown, hinactive⟩ := (h.buried d).mp ((h.reportsRemoved_iff C d).mp hd)
  refine ⟨fun hmember => ?_, hknown⟩
  rw [h.present d hmember] at hinactive
  cases hinactive

variable {C}

/-- A fit sync from a member is joined in. -/
theorem told_receiveSync (h : Member M key r) {message : RosterSync} (hfit : Fit C M key message) {sender : String}
    (hsender : sender ∈ M) : (r.receiveSync C message sender).1.told = r.told ⊔ message.told := by
  have hpresent := h.present sender hsender
  refine Prod.ext (Set.ext fun d => ?_) ?_
  · show (r.receiveSync C message sender).1.tombstones.contains d = true ↔
      r.tombstones.contains d = true ∨ ReportsRemoved message d
    rw [buried_receiveSync]
    refine or_congr_right' fun hnot => ?_
    constructor
    · exact fun hburies => hburies.2.1
    · intro hreports
      obtain ⟨hout, hknown⟩ := hfit.outsiders d hreports
      refine ⟨(merges_iff C hfit.digest hpresent).mpr fun hrepeats => hnot ?_, hreports, ?_, ?_⟩
      · -- a repeated list reports what is buried here
        rw [← h.reportsRemoved_iff C d]
        unfold ReportsRemoved at hreports ⊢
        rwa [hrepeats.2] at hreports
      · intro hself
        exact hout (hself ▸ h.self)
      · rw [h.known, hknown]
  · show (r.receiveSync C message sender).1.epoch.toNat = max r.epoch.toNat message.epoch.toNat
    rw [epoch_receiveSync C hfit.digest hpresent, toNat_epoch_max]

end Member

/-- No operation takes back what a roster holds of removals. -/
theorem told_le_step (r : Roster) (op : Op C) : r.told ≤ (step C r op).told := by
  refine Prod.le_def.mpr ⟨fun d hd => (buried_step C r op d).mpr (Or.inl hd), ?_⟩
  exact UInt64.le_iff_toNat_le.mp (forward_step C r op).epoch

/-- Two members that hold the same of removals list the same devices. -/
theorem syncDevices_eq {r r' : Roster} (h : Member M key r) (h' : Member M key r') (htold : r.told = r'.told) :
    r.syncDevices = r'.syncDevices := by
  have hactive : ∀ d, (key d).isSome = true → r.isActive d = r'.isActive d := by
    intro d hknown
    have hburied : r.tombstones.contains d = true ↔ r'.tombstones.contains d = true :=
      Set.ext_iff.mp (congrArg Prod.fst htold) d
    rw [h.buried, h'.buried] at hburied
    simp only [hknown, true_and] at hburied
    rw [Bool.eq_iff_iff, ← not_iff_not, Bool.not_eq_true, Bool.not_eq_true]
    exact hburied
  refine Table.values_map_of_get? SyncDevice.deviceId (fun _ => rfl) fun d => ?_
  have hkeys := congrFun (h.sameKeys.trans h'.sameKeys.symm) d
  have hboth := hactive d
  rw [← h.sameKeys] at hboth
  simp only [view_key] at hkeys hboth
  unfold isActive at hboth
  cases hget : r.devices.get? d with
  | none =>
    rw [hget] at hkeys
    cases hget' : r'.devices.get? d with
    | none => rfl
    | some record' =>
      rw [hget'] at hkeys
      cases hkeys
  | some record =>
    rw [hget] at hkeys hboth
    cases hget' : r'.devices.get? d with
    | none =>
      rw [hget'] at hkeys
      cases hkeys
    | some record' =>
      rw [hget'] at hkeys hboth
      have hid := (Table.get?_key hget).trans (Table.get?_key hget').symm
      have hpk := Option.some.inj hkeys
      have hstate := hboth rfl
      simp only [Option.any_some, DeviceRecord.isActive] at hstate
      simp only [Option.map_some, Option.some.injEq, SyncDevice.mk.injEq]
      refine ⟨hid, hpk, ?_⟩
      revert hstate
      cases record.state <;> cases record'.state <;> simp

theorem told_denyHeld (r : Roster) (subject : String) : (r.denyHeld subject).1.told = r.told := by
  rw [denyHeld_eq]
  rfl

theorem told_updateLabels (r : Roster) (d : String) (displayName memberGroup role : Option String) :
    (r.updateLabels d displayName memberGroup role).1.told = r.told := by
  rw [updateLabels_eq]
  rfl

end Roster

def Message.isSync : Message → Bool
  | .sync _ => true
  | _ => false

namespace Family

variable (C : Crypto) (M : Finset String) (key : String → Option String)

/-! ## Members among themselves -/

/-- What a member may have sent: a removal of an outsider, or a sync that tells no more than its roster does by now. -/
def Fits (f : Family) (s : Sent) : Prop :=
  match s.message with
  | .sync message => Roster.Fit C M key message ∧ ∃ r, f.rosters s.sender = some r ∧ message.told ≤ r.told
  | .remove message => Roster.Outsider M key message.subject
  | _ => False

structure Agreed (f : Family) : Prop where
  member : ∀ a ∈ M, ∃ r, f.rosters a = some r ∧ Roster.Member M key r
  sent : ∀ s ∈ f.sent, s.sender ∈ M → Fits C M key f s

/-- Members remove outsiders and receive what members sent; anyone relabels and restarts. -/
def Chats (f : Family) : Event C → Prop
  | .remove sender subject _ _ _ _ => sender ∈ M ∧ Roster.Outsider M key subject
  | .sync sender => sender ∈ M
  | .receive device index _ => device ∈ M ∧ (f.sent[index]?).any fun s => s.sender ∈ M
  | .denyHeld _ _ | .updateLabels _ _ _ _ _ | .restart _ _ => True
  | _ => False

/-- Of removals, members send and receive nothing but syncs. -/
def Syncs (f : Family) : Event C → Prop
  | .sync sender => sender ∈ M
  | .receive device index _ => device ∈ M ∧ (f.sent[index]?).any fun s => s.sender ∈ M && s.message.isSync
  | .denyHeld _ _ | .updateLabels _ _ _ _ _ | .restart _ _ => True
  | _ => False

instance (f : Family) : (e : Event C) → Decidable (Chats C M key f e)
  | .remove _ _ _ _ _ _ => inferInstanceAs (Decidable (_ ∧ _ ∧ _))
  | .sync _ => inferInstanceAs (Decidable (_ ∈ M))
  | .receive _ _ _ => inferInstanceAs (Decidable (_ ∧ _))
  | .denyHeld _ _ | .updateLabels _ _ _ _ _ | .restart _ _ => .isTrue trivial
  | .found _ _ | .vouch _ _ _ | .welcome _ _ _ | .adopt _ _ | .approveHeld _ _ | .reconcileServerList _ _ => .isFalse id

instance (f : Family) : (e : Event C) → Decidable (Syncs C M f e)
  | .sync _ => inferInstanceAs (Decidable (_ ∈ M))
  | .receive _ _ _ => inferInstanceAs (Decidable (_ ∧ _))
  | .denyHeld _ _ | .updateLabels _ _ _ _ _ | .restart _ _ => .isTrue trivial
  | .found _ _ | .vouch _ _ _ | .remove _ _ _ _ _ _ | .welcome _ _ _ | .adopt _ _ | .approveHeld _ _
  | .reconcileServerList _ _ => .isFalse id

variable {C M key} {f : Family} {e : Event C}

theorem Syncs.receive {device : String} {index : Nat} {now : SystemTime} (h : Syncs C M f (.receive device index now)) :
    device ∈ M ∧ ∃ sender ∈ M, ∃ message, f.sent[index]? = some ⟨sender, .sync message⟩ := by
  refine ⟨h.1, ?_⟩
  obtain ⟨⟨sender, message⟩, hget, hs⟩ := (Option.any_eq_true _ _).mp h.2
  rw [Bool.and_eq_true] at hs
  cases message with
  | sync message => exact ⟨sender, of_decide_eq_true hs.1, message, hget⟩
  | introduce | remove | welcome => cases hs.2

theorem Syncs.chats (h : Syncs C M f e) : Chats C M key f e := by
  cases e with
  | receive device index now =>
    obtain ⟨hdevice, sender, hsender, message, hget⟩ := h.receive
    exact ⟨hdevice, by simp [hget, hsender]⟩
  | sync | denyHeld | updateLabels | restart => exact h
  | found | vouch | remove | welcome | adopt | approveHeld | reconcileServerList => exact h.elim

theorem mild_of_acts (h : Agreed C M key f) (hchat : Chats C M key f e) {a : String} {op : Roster.Op C}
    (hacts : acts C f e = some (a, op)) : Roster.Mild C M key op := by
  cases e with
  | remove sender subject reason removedAt identity now =>
    cases hacts
    exact .remove reason removedAt identity now hchat.2
  | receive device index now =>
    obtain ⟨⟨sender, message⟩, hget, hsender⟩ := (Option.any_eq_true _ _).mp hchat.2
    have hfits := h.sent _ (List.mem_of_getElem? hget) (of_decide_eq_true hsender)
    simp only [acts, hget, Option.bind_some, Option.map_eq_some_iff, Prod.mk.injEq] at hacts
    obtain ⟨op', hop, -, rfl⟩ := hacts
    cases message with
    | sync message =>
      cases hop
      exact .receiveSync sender hfits.1
    | remove message =>
      cases hop
      exact .receiveRemove sender now hfits
    | introduce | welcome => exact hfits.elim
  | denyHeld | updateLabels | restart =>
    cases hacts
    constructor
  | found | vouch | sync | welcome | adopt | approveHeld | reconcileServerList =>
    first
      | exact hchat.elim
      | cases hacts

/-- A member's roster holds at least what it held before. -/
theorem told_le (e : Event C) {a : String} {r : Roster} (hr : f.rosters a = some r) :
    ∃ r', (step C f e).rosters a = some r' ∧ r.told ≤ r'.told := by
  have hkept := kept_step C f e a
  generalize (step C f e).rosters a = after at hkept ⊢
  cases hkept with
  | acted op _ => exact ⟨Roster.step C r op, by rw [hr]; rfl, Roster.told_le_step r op⟩
  | idle _ => exact ⟨r, hr, le_refl _⟩
  | started _ _ hnone _ =>
    rw [hr] at hnone
    cases hnone

theorem agreed_step (h : Agreed C M key f) (hchat : Chats C M key f e) : Agreed C M key (step C f e) := by
  constructor
  · intro a ha
    obtain ⟨r, hr, hmember⟩ := h.member a ha
    have hkept := kept_step C f e a
    generalize (step C f e).rosters a = after at hkept ⊢
    cases hkept with
    | acted op hacts => exact ⟨Roster.step C r op, by rw [hr]; rfl, hmember.step (mild_of_acts h hchat hacts)⟩
    | idle _ => exact ⟨r, hr, hmember⟩
    | started _ _ hnone _ =>
      rw [hr] at hnone
      cases hnone
  · intro s hs hsender
    rcases mem_sent_step C hs with hold | hnew
    · have hfits := h.sent s hold hsender
      unfold Fits at hfits ⊢
      split at hfits
      · obtain ⟨hfit, r, hr, htold⟩ := hfits
        obtain ⟨r', hr', hle⟩ := told_le e hr
        exact ⟨hfit, r', hr', htold.trans hle⟩
      · exact hfits
      · exact hfits
    · cases hnew with
      | vouch | welcome => exact hchat.elim
      | remove subject reason removedAt identity now r applied hr happlied =>
        show Roster.Outsider M key applied.outcome.subject
        rw [Roster.subject_of_remove C happlied]
        exact hchat.2
      | sync r hr =>
        obtain ⟨r', hr', hmember⟩ := h.member _ hsender
        obtain rfl := Option.some.inj (hr.symm.trans hr')
        obtain ⟨r'', hr'', hle⟩ := told_le (C := C) (.sync _) hr
        exact ⟨hmember.fit_sync C, r'', hr'', (hmember.told_sync C).trans_le hle⟩

theorem agreed_run (h : Agreed C M key f) {events : List (Event C)}
    (hchats : Trace.EachStep (step C) (Chats C M key) f events) : Agreed C M key (run C f events) :=
  Trace.inv_run (fun _ _ hchat hagreed => agreed_step hagreed hchat) h hchats

/-! ## The gossip -/

variable (C) in
/-- What an event is to the gossip of removals. -/
def talk : Event C → Option (Gossip.Event String)
  | .sync sender => some (.post sender)
  | .receive device index _ => some (.join device index)
  | _ => none

variable (C) in
/-- Of whom each member has heard, in syncs sent since `f`. -/
def heard (f : Family) (events : List (Event C)) : String → Finset String :=
  Gossip.heard f.sent.length (events.filterMap (talk C))

variable (M) in
open Classical in
/-- What members' syncs tell; anything else tells nothing. -/
noncomputable def toldBy (s : Sent) : Told :=
  match s.message with
  | .sync message => if s.sender ∈ M then message.told else ⊥
  | _ => ⊥

variable (M) in
/-- What there is to tell. -/
noncomputable def replicas (f : Family) : Gossip.Replicas String Told :=
  ⟨fun a => (f.rosters a).elim ⊥ Roster.told, f.sent.map (toldBy M)⟩

/-- The rosters and the members' syncs, as the gossip has them. -/
structure Echoes (M : Finset String) (f : Family) (s : Gossip.Replicas String Told) : Prop where
  value : ∀ a ∈ M, ∀ r, f.rosters a = some r → s.value a = r.told
  length : s.posted.length = f.sent.length
  posted : ∀ (index : Nat) (sender : String) (message : RosterSync), sender ∈ M →
    f.sent[index]? = some ⟨sender, .sync message⟩ → s.posted[index]? = some message.told

theorem echoes_replicas (M : Finset String) (f : Family) : Echoes M f (replicas M f) := by
  refine ⟨fun a _ r hr => ?_, List.length_map _, fun index sender message hsender hget => ?_⟩
  · show (f.rosters a).elim ⊥ Roster.told = r.told
    rw [hr]
    rfl
  · show (f.sent.map (toldBy M))[index]? = _
    rw [List.getElem?_map, hget, Option.map_some]
    exact congrArg some (if_pos hsender)

variable {s : Gossip.Replicas String Told}

/-- An operation on one roster that leaves its tombstones and its epoch alone. -/
theorem Echoes.own (h : Echoes M f s) (device : String) (op : Roster.Op C)
    (htold : ∀ r : Roster, (Roster.step C r op).told = r.told) : Echoes M (f.own C device op) s := by
  refine ⟨fun a ha r hr => ?_, by rw [sent_own]; exact h.length, by rw [sent_own]; exact h.posted⟩
  rw [rosters_own] at hr
  by_cases hdevice : device = a
  · rw [if_pos hdevice, Option.map_eq_some_iff] at hr
    obtain ⟨r₀, hr₀, rfl⟩ := hr
    rw [htold, h.value a ha r₀ hr₀]
  · rw [if_neg hdevice] at hr
    exact h.value a ha r hr

theorem Echoes.sync (hagreed : Agreed C M key f) (h : Echoes M f s) {sender : String} (hsender : sender ∈ M) :
    Echoes M (step C f (.sync sender)) (Gossip.step s (.post sender)) := by
  obtain ⟨r, hr, hmember⟩ := hagreed.member sender hsender
  have hstep : step C f (.sync sender) = f.post sender (.sync (r.sync C)) := by
    unfold step
    simp only [hr]
  rw [hstep]
  refine ⟨h.value, ?_, fun index sender' message hsender' hget => ?_⟩
  · show (s.posted ++ [s.value sender]).length = (f.sent ++ [_]).length
    simp [h.length]
  · change (f.sent ++ [⟨sender, .sync (r.sync C)⟩])[index]? = _ at hget
    show (s.posted ++ [s.value sender])[index]? = _
    by_cases hindex : index < f.sent.length
    · rw [List.getElem?_append_left hindex] at hget
      rw [List.getElem?_append_left (h.length ▸ hindex)]
      exact h.posted index sender' message hsender' hget
    · rw [List.getElem?_append_right (by omega), List.getElem?_singleton] at hget
      rw [List.getElem?_append_right (by rw [h.length]; omega), List.getElem?_singleton, h.length]
      split at hget
      next hlast =>
        cases hget
        rw [if_pos hlast, h.value sender hsender r hr, hmember.told_sync C]
      next => cases hget

theorem Echoes.receive (hagreed : Agreed C M key f) (h : Echoes M f s) {device sender : String} {index : Nat}
    (now : SystemTime) {message : RosterSync} (hdevice : device ∈ M) (hsender : sender ∈ M)
    (hget : f.sent[index]? = some ⟨sender, .sync message⟩) :
    Echoes M (step C f (.receive device index now)) (Gossip.step s (.join device index)) := by
  have hstep : step C f (.receive device index now) = f.own C device (.receiveSync message sender) := by
    unfold step
    simp only [hget, Option.bind_some, received]
  have hjoin : Gossip.step s (.join device index) =
      { s with value := Function.update s.value device (s.value device ⊔ message.told) } := by
    unfold Gossip.step
    simp only [h.posted index sender message hsender hget]
  rw [hstep, hjoin]
  refine ⟨fun a ha r hr => ?_, by rw [sent_own]; exact h.length, by rw [sent_own]; exact h.posted⟩
  rw [rosters_own] at hr
  by_cases heq : device = a
  · subst heq
    rw [if_pos rfl, Option.map_eq_some_iff] at hr
    obtain ⟨r₀, hr₀, rfl⟩ := hr
    obtain ⟨r₁, hr₁, hmember⟩ := hagreed.member device hdevice
    obtain rfl := Option.some.inj (hr₀.symm.trans hr₁)
    have hfit := (hagreed.sent _ (List.mem_of_getElem? hget) hsender).1
    show Function.update s.value device (s.value device ⊔ message.told) device = _
    rw [Function.update_self, h.value device hdevice r₀ hr₀]
    exact (hmember.told_receiveSync hfit hsender).symm
  · rw [if_neg heq] at hr
    show Function.update s.value device _ a = _
    rw [Function.update_of_ne (Ne.symm heq)]
    exact h.value a ha r hr

theorem Echoes.run (hagreed : Agreed C M key f) (h : Echoes M f s) {events : List (Event C)}
    (hsyncs : Trace.EachStep (step C) (Syncs C M) f events) :
    Echoes M (run C f events) (Gossip.run s (events.filterMap (talk C))) := by
  induction events generalizing f s with
  | nil => exact h
  | cons e events ih =>
    obtain ⟨hsync, hrest⟩ := hsyncs
    have hagreed' := agreed_step hagreed hsync.chats
    cases e with
    | sync sender => exact ih hagreed' (h.sync hagreed hsync) hrest
    | receive device index now =>
      obtain ⟨hdevice, sender, hsender, message, hget⟩ := hsync.receive
      exact ih hagreed' (h.receive hagreed now hdevice hsender hget) hrest
    | denyHeld device subject =>
      exact ih hagreed' (h.own device (.denyHeld subject) fun r => Roster.told_denyHeld r subject) hrest
    | updateLabels device d displayName memberGroup role =>
      exact ih hagreed' (h.own device (.updateLabels d displayName memberGroup role)
        fun r => Roster.told_updateLabels r d displayName memberGroup role) hrest
    | restart device selfId =>
      exact ih hagreed' (h.own device (.restart selfId)
        fun r => congrArg Roster.told (Roster.step_restart C r selfId)) hrest
    | found | vouch | remove | welcome | adopt | approveHeld | reconcileServerList => exact hsync.elim

/-- Nobody posts or joins but members. -/
theorem talk_members {events : List (Event C)} (hsyncs : Trace.EachStep (step C) (Syncs C M) f events) :
    ∀ event ∈ events.filterMap (talk C), event.replica ∈ M := by
  intro event hevent
  obtain ⟨e, he, htalk⟩ := List.mem_filterMap.mp hevent
  obtain ⟨pre, post, hsplit⟩ := List.append_of_mem he
  have hsync := Trace.eachStep_iff.mp hsyncs pre e post hsplit
  cases e with
  | sync sender =>
    cases htalk
    exact hsync
  | receive device index now =>
    cases htalk
    exact hsync.1
  | _ => cases htalk

/-- All that the members hold between them. -/
noncomputable def between (M : Finset String) (f : Family) : Told := M.sup (replicas M f).value

theorem posted_le_between (h : Agreed C M key f) : ∀ a ∈ (replicas M f).posted, a ≤ between M f := by
  intro a ha
  obtain ⟨s, hs, rfl⟩ := List.mem_map.mp ha
  unfold toldBy
  split
  next message hmessage =>
    split
    next hsender =>
      have hfits := h.sent s hs hsender
      unfold Fits at hfits
      rw [hmessage] at hfits
      obtain ⟨-, r, hr, htold⟩ := hfits
      rw [← (echoes_replicas M f).value _ hsender r hr] at htold
      exact htold.trans (Finset.le_sup hsender)
    next => exact bot_le
  next => exact bot_le

theorem mem_between {d : String} : d ∈ (between M f).1 ↔
    ∃ a ∈ M, ∃ r, f.rosters a = some r ∧ r.tombstones.contains d = true := by
  have hfst : (between M f).1 = M.sup fun a => ((f.rosters a).elim ⊥ Roster.told : Told).1 :=
    Finset.apply_sup_eq_sup_comp Prod.fst (fun _ _ => rfl) rfl
  rw [hfst, Finset.sup_set_eq_biUnion, Set.mem_iUnion₂]
  constructor
  · rintro ⟨a, ha, hd⟩
    cases hr : f.rosters a with
    | none =>
      rw [hr] at hd
      exact hd.elim
    | some r =>
      rw [hr] at hd
      exact ⟨a, ha, r, hr, hd⟩
  · rintro ⟨a, ha, r, hr, hd⟩
    refine ⟨a, ha, ?_⟩
    rw [hr]
    exact hd

/-- Members that agree on the devices remove others and exchange what they send, in any order; then, for a while, they
    exchange syncs only. By then a member holds every tombstone, and at least the epoch, of each member it has heard of
    in that while; and once each has heard of each, their tombstones are for the same devices, those that any of them
    held before, they send one and the same sync, and each answers it with `InSync`. -/
theorem gossip_settles (hagreed : Agreed C M key f) (before meanwhile : List (Event C))
    (hbefore : Trace.EachStep (step C) (Chats C M key) f before)
    (hmeanwhile : Trace.EachStep (step C) (Syncs C M) (run C f before) meanwhile) :
    (∀ a ∈ M, ∀ b ∈ M, b ∈ heard C (run C f before) meanwhile a → ∀ r r', (run C f before).rosters b = some r →
      (run C (run C f before) meanwhile).rosters a = some r' →
        (∀ d, r.tombstones.contains d = true → r'.tombstones.contains d = true) ∧ r.epoch ≤ r'.epoch) ∧
    ((∀ a ∈ M, ∀ b ∈ M, b ∈ heard C (run C f before) meanwhile a) → ∃ message : RosterSync, ∀ a ∈ M, ∃ r,
      (run C (run C f before) meanwhile).rosters a = some r ∧ r.sync C = message ∧
      (∀ b ∈ M, r.receiveSync C message b = (r, ⟨.inSync, []⟩)) ∧
      ∀ d, r.tombstones.contains d = true ↔
        ∃ b ∈ M, ∃ r', (run C f before).rosters b = some r' ∧ r'.tombstones.contains d = true) := by
  have hstart := agreed_run hagreed hbefore
  have hend : Agreed C M key (run C (run C f before) meanwhile) :=
    agreed_run hstart (Trace.eachStep_mono (fun _ _ hsync => hsync.chats) hmeanwhile)
  generalize run C f before = g at hstart hend hmeanwhile ⊢
  have hechoes := (echoes_replicas M g).run hstart hmeanwhile
  have hlength : (replicas M g).posted.length = g.sent.length := (echoes_replicas M g).length
  constructor
  · intro a ha b hb hheard r r' hr hr'
    have hle : (replicas M g).value b ≤ (Gossip.run (replicas M g) (meanwhile.filterMap (talk C))).value a :=
      Gossip.value_le_run (replicas M g) _ (hlength ▸ hheard)
    rw [(echoes_replicas M g).value b hb r hr, hechoes.value a ha r' hr'] at hle
    exact ⟨hle.1, UInt64.le_iff_toNat_le.mpr hle.2⟩
  · intro hall
    have htold : ∀ a ∈ M, ∀ r, (run C g meanwhile).rosters a = some r → r.told = between M g := by
      intro a ha r hr
      rw [← hechoes.value a ha r hr]
      apply Gossip.settled (M := ↑M) Finset.isLUB_sup (posted_le_between hstart) (talk_members hmeanwhile) ha
      intro b hb
      rw [hlength]
      exact hall a ha b hb
    rcases M.eq_empty_or_nonempty with rfl | ⟨c, hc⟩
    · exact ⟨⟨0, [], C.digestOf 0 []⟩, fun a ha => absurd ha (Finset.notMem_empty a)⟩
    · obtain ⟨rc, hrc, hmemberc⟩ := hend.member c hc
      refine ⟨rc.sync C, fun a ha => ?_⟩
      obtain ⟨r, hr, hmember⟩ := hend.member a ha
      have hsame : r.told = rc.told := (htold a ha r hr).trans (htold c hc rc hrc).symm
      have hepoch : r.epoch = rc.epoch := UInt64.toNat_inj.mp (congrArg Prod.snd hsame)
      have hdevices := Roster.syncDevices_eq hmember hmemberc hsame
      refine ⟨r, hr, ?_, fun b hb => ?_, fun d => ?_⟩
      · unfold Roster.sync
        rw [hepoch, hdevices]
      · exact Roster.receiveSync_of_repeats C (hmemberc.fit_sync C).digest (hmember.present b hb)
          ⟨hepoch.symm, hdevices.symm⟩
      · rw [← mem_between (M := M) (f := g), ← htold a ha r hr]
        rfl

/-! ## Three members -/

/-- The members, and the two devices they remove. -/
def fiveDevices : Table DeviceRecord.deviceId :=
  .ofList (["a", "b", "c", "d", "e"].map fun id => ⟨id, "k" ++ id, id, "", "adult", "", "a", .active⟩)

def fiveKeys (d : String) : Option String := (fiveDevices.get? d).map (·.identityPk)

def threeAgree : Family where
  rosters a := if a ∈ ["a", "b", "c"] then
      some
        { selfId := a
          devices := fiveDevices
          tombstones := .empty
          epoch := 0
          churn := .new
          held := .empty
          removedMe := ∅ }
    else none
  sent := []

theorem threeAgree_agreed : Agreed Crypto.plain {"a", "b", "c"} fiveKeys threeAgree := by
  refine ⟨fun a ha => ?_, fun s hs => by cases hs⟩
  have hlist : a ∈ ["a", "b", "c"] := by simpa using ha
  refine ⟨_, if_pos hlist, ha, rfl, fun b hb => ?_, fun d => ?_⟩
  · have hall : ∀ b ∈ ["a", "b", "c"], (fiveDevices.get? b).any (·.isActive) = true := by decide +kernel
    exact hall b (by simpa using hb)
  · have hnone : (Table.empty : Table Tombstone.subject).contains d = false := by
      rw [Table.contains, Table.get?_empty]
      rfl
    refine iff_of_false (by rw [hnone]; decide) fun h => ?_
    obtain ⟨hknown, hinactive⟩ := h
    unfold fiveKeys at hknown
    rw [Option.isSome_map] at hknown
    obtain ⟨record, hrecord⟩ := Option.isSome_iff_exists.mp hknown
    have hactive : record.isActive = true := by
      have hall : ∀ record ∈ fiveDevices.values, record.isActive = true := by decide +kernel
      exact hall record (Table.mem_values_of_get? hrecord)
    change (fiveDevices.get? d).any (·.isActive) = false at hinactive
    rw [hrecord, Option.any_some, hactive] at hinactive
    cases hinactive

/-- `a` and `b` each remove a device, and nobody receives the removals. -/
def apartFirst : List (Event Crypto.plain) :=
  [.remove "a" "d" .lost "" "ka" (.ofSecs 1750200000), .remove "b" "e" .removed "" "kb" (.ofSecs 1750200000)]

/-- `c` hears of `a` from `b` alone. -/
def roundAbout : List (Event Crypto.plain) :=
  [.sync "a", .receive "b" 2 (.ofSecs 0), .sync "b", .receive "c" 3 (.ofSecs 0), .sync "c", .receive "b" 4 (.ofSecs 0),
    .receive "a" 4 (.ofSecs 0), .receive "a" 3 (.ofSecs 0)]

theorem three_settle : ∃ message : RosterSync, ∀ a ∈ ({"a", "b", "c"} : Finset String), ∃ r,
    (run Crypto.plain (run Crypto.plain threeAgree apartFirst) roundAbout).rosters a = some r ∧
    r.sync Crypto.plain = message ∧
    (∀ b ∈ ({"a", "b", "c"} : Finset String), r.receiveSync Crypto.plain message b = (r, ⟨.inSync, []⟩)) ∧
    ∀ d, r.tombstones.contains d = true ↔ ∃ b ∈ ({"a", "b", "c"} : Finset String), ∃ r',
      (run Crypto.plain threeAgree apartFirst).rosters b = some r' ∧ r'.tombstones.contains d = true :=
  (gossip_settles threeAgree_agreed apartFirst roundAbout (by decide +kernel) (by decide +kernel)).2
    (by decide +kernel)

end Family

end Beacon
