/-
  Beacon.Roster.Effects — what one operation can do to the family, said once.

  Each operation is a move of the `Membership` the roster stands for (`view`):
  - `step_cases`: an introduction or an approval admits one device (`Admits` says when,
    of which vouch), an introduction over budget is quarantined, and any other step only
    takes away; `step_view` and `run_view` read this as moves;
  - `activeCount_le` / `activeCount_admitDevice`: what the moves do to the family's size.
  `Admits` speaks of the roster before the step and the step's arguments alone. The
  proofs of the invariants cite these, and never unfold an operation.
-/

import Beacon.Membership
import Beacon.Roster.Ends

namespace Beacon

open Lib

namespace Roster

variable (C : Crypto)

def view (r : Roster) : Membership String String where
  key d := (r.devices.get? d).map (·.identityPk)
  active := {d | r.isActive d = true}
  buried := {d | r.tombstones.contains d = true}

@[simp] theorem mem_view_active {r : Roster} {d : String} : d ∈ r.view.active ↔ r.isActive d = true := Iff.rfl
@[simp] theorem mem_view_buried {r : Roster} {d : String} :
    d ∈ r.view.buried ↔ r.tombstones.contains d = true := Iff.rfl
theorem view_key {r : Roster} {d : String} : r.view.key d = (r.devices.get? d).map (·.identityPk) := rfl

theorem isActive_iff {r : Roster} {d : String} :
    r.isActive d = true ↔ ∃ record, r.devices.get? d = some record ∧ record.isActive = true := by
  unfold isActive
  cases r.devices.get? d <;> simp

/-- An active device is checked under the key its record holds. -/
theorem identityOf_of_isActive {r : Roster} {d : String} {record : DeviceRecord} (hrecord : r.devices.get? d = some record)
    (hactive : r.isActive d = true) : r.identityOf C d = C.fromBase64 record.identityPk := by
  have hstate : record.isActive = true := by simpa [isActive, hrecord] using hactive
  simp [identityOf, hrecord, hstate]

theorem held_subject {r : Roster} {s : String} {h : HeldAdmission} (hs : r.held.get? s = some h) :
    h.message.subject.deviceId = s :=
  show h.subjectId = s from Table.get?_key hs

/-! ## The family's size -/

theorem activeCount_le {r r' : Roster} (h : ∀ d, r'.isActive d = true → r.isActive d = true) :
    r'.activeCount ≤ r.activeCount :=
  Table.countP_le_of_get? fun k _ hk ha => isActive_iff.mp (h k (isActive_iff.mpr ⟨_, hk, ha⟩))

theorem activeCount_admitDevice {r : Roster} {subject : VouchedSubject} (introducedBy : String)
    (h : r.isActive subject.deviceId = false) :
    (r.admitDevice subject introducedBy).1.activeCount = r.activeCount + 1 := by
  refine Table.countP_insert_new rfl fun record hr => ?_
  unfold isActive at h
  have hr' : r.devices.get? subject.deviceId = some record := hr
  simpa [hr'] using h

/-! ## Primitive edits -/

theorem get?_markRemoved (devices : Table DeviceRecord.deviceId) (d e : String) :
    (markRemoved devices d).get? e =
      if d = e then (devices.get? e).map fun record => { record with state := .removed } else devices.get? e :=
  Table.get?_modify devices d _ _ e

theorem isActive_markRemoved (r : Roster) (d e : String) :
    { r with devices := markRemoved r.devices d }.isActive e = (r.isActive e && d ≠ e) := by
  unfold isActive
  simp only [get?_markRemoved]
  by_cases h : d = e
  · subst h; cases r.devices.get? d <;> simp [DeviceRecord.isActive]
  · simp [h]

theorem key_markRemoved (r : Roster) (d : String) :
    { r with devices := markRemoved r.devices d }.view.key = r.view.key := by
  funext e
  simp only [view_key, get?_markRemoved]
  split
  · rw [Option.map_map]; rfl
  · rfl

section applyTombstone

variable (r : Roster) (subject : String) (reason : RemovalReason) (removedAt removedBy : String) (epoch : UInt64)

theorem isActive_applyTombstone (d : String) :
    (r.applyTombstone subject reason removedAt removedBy epoch).1.isActive d = (r.isActive d && subject ≠ d) :=
  isActive_markRemoved r subject d

theorem key_applyTombstone :
    (r.applyTombstone subject reason removedAt removedBy epoch).1.view.key = r.view.key :=
  key_markRemoved r subject

theorem contains_applyTombstone (d : String) :
    (r.applyTombstone subject reason removedAt removedBy epoch).1.tombstones.contains d =
      (decide (subject = d) || r.tombstones.contains d) := by
  show (r.tombstones.insert _).contains d = _
  rw [Table.contains, Table.get?_insert]
  by_cases h : subject = d <;> simp [h, Table.contains]

theorem held_applyTombstone (s : String) :
    (r.applyTombstone subject reason removedAt removedBy epoch).1.held.get? s =
      if subject = s then none else r.held.get? s :=
  Table.get?_erase r.held subject s

theorem applyTombstone_takesAway :
    Membership.TakesAway r.view (r.applyTombstone subject reason removedAt removedBy epoch).1.view where
  key := key_applyTombstone r subject reason removedAt removedBy epoch
  active d hd := by
    rw [mem_view_active, isActive_applyTombstone] at hd
    simp only [Bool.and_eq_true] at hd
    exact hd.1
  buried d hd := by
    rw [mem_view_buried, contains_applyTombstone, mem_view_buried.mp hd, Bool.or_true]
  fresh d hd hn ha := by
    rw [mem_view_buried, contains_applyTombstone] at hd
    rw [mem_view_active, isActive_applyTombstone] at ha
    rw [mem_view_buried] at hn
    simp_all

end applyTombstone

theorem isActive_admitDevice (r : Roster) (subject : VouchedSubject) (introducedBy d : String) :
    (r.admitDevice subject introducedBy).1.isActive d = (decide (subject.deviceId = d) || r.isActive d) := by
  unfold isActive admitDevice
  simp only [Table.get?_insert]
  by_cases h : (DeviceRecord.fromVouch subject introducedBy).deviceId = d
  · have h' : subject.deviceId = d := h
    simp [h, h']; rfl
  · have h' : subject.deviceId ≠ d := h
    simp [h, h']

theorem view_admitDevice (r : Roster) (subject : VouchedSubject) (introducedBy : String) :
    (r.admitDevice subject introducedBy).1.view = r.view.addMember subject.deviceId subject.identityPk := by
  apply Membership.ext
  · funext e
    rw [view_key]
    show ((r.devices.insert _).get? e).map _ = _
    rw [Table.get?_insert]
    by_cases h : subject.deviceId = e
    · subst h
      rw [Membership.addMember_key_self]
      simp [DeviceRecord.fromVouch]
    · rw [Membership.addMember_key_ne _ _ (Ne.symm h), view_key,
        if_neg (show (DeviceRecord.fromVouch subject introducedBy).deviceId ≠ e from h)]
  · ext e
    rw [mem_view_active, isActive_admitDevice]
    show _ ↔ e ∈ insert subject.deviceId r.view.active
    rw [Set.mem_insert_iff, mem_view_active, Bool.or_eq_true, decide_eq_true_eq, eq_comm]
  · rfl

/-! ## Introductions -/

/-- Every check an introduction makes, met on this roster. -/
structure Vetted (r : Roster) (message : RosterIntroduce) (introducer : String) : Prop where
  introducerActive : r.isActive introducer = true
  notTombstoned : r.tombstones.contains message.subject.deviceId = false
  notSelf : message.subject.deviceId ≠ introducer
  sameKey : ∀ record, r.devices.get? message.subject.deviceId = some record →
    record.identityPk = message.subject.identityPk
  room : r.isActive message.subject.deviceId = true ∨ r.activeCount < maxActiveDevices
  signed : ∃ key, r.identityOf C introducer = some key ∧ C.verify key (.vouch message.payload) message.vouch = true
  usable : ∃ key, C.fromBase64 message.subject.identityPk = some key

/-- The four ends of an introduction. -/
inductive Introduced (r : Roster) (message : RosterIntroduce) (introducer : String) (now : SystemTime) :
    Roster × Applied Admission → Prop
  | refused (refusal : VouchRefusal) : ¬ Vetted C r message introducer →
      Introduced r message introducer now (r.refuseVouch message.subject.deviceId refusal)
  | alreadyKnown : Vetted C r message introducer → r.isActive message.subject.deviceId = true →
      Introduced r message introducer now (r, ⟨.alreadyKnown, []⟩)
  | held : Vetted C r message introducer → r.isActive message.subject.deviceId = false →
      r.churn.wouldExceed introducer now = true →
      Introduced r message introducer now
        ({ r with held := r.held.insert ⟨message, introducer, r.churn.countInWindow introducer now⟩ },
         ⟨.held (r.churn.countInWindow introducer now), [.inbound message.subject.deviceId none
           (.admissionHeld (r.churn.countInWindow introducer now))]⟩)
  | admitted : Vetted C r message introducer → r.isActive message.subject.deviceId = false →
      r.churn.wouldExceed introducer now = false →
      Introduced r message introducer now
        (({ r with churn := r.churn.record introducer (timestampOr message.subject.joinedAt now) now }.admitDevice
            message.subject introducer).1,
         ⟨.admitted, [.inbound message.subject.deviceId none (.deviceJoined introducer)]⟩)

theorem receiveIntroduce_cases (r : Roster) (message : RosterIntroduce) (introducer : String) (now : SystemTime) :
    Introduced C r message introducer now (r.receiveIntroduce C message introducer now) := by
  unfold receiveIntroduce
  simp only []
  by_cases h1 : r.isActive introducer = true
  swap
  · rw [if_pos (by simpa using h1)]; exact .refused _ fun h => h1 h.introducerActive
  rw [if_neg (by simp [h1])]
  by_cases h2 : r.tombstones.contains message.subject.deviceId = true
  · rw [if_pos h2]; exact .refused _ fun h => by simp [h.notTombstoned] at h2
  rw [if_neg h2]
  by_cases h3 : message.subject.deviceId = introducer
  · rw [if_pos h3]; exact .refused _ fun h => h.notSelf h3
  rw [if_neg h3]
  by_cases h4 : (r.devices.get? message.subject.deviceId).any
      (fun existing => existing.identityPk ≠ message.subject.identityPk) = true
  · rw [if_pos h4]
    refine .refused _ fun h => ?_
    obtain ⟨record, hr, hk⟩ := (Option.any_eq_true _ _).mp h4
    simp [h.sameKey record hr] at hk
  rw [if_neg h4]
  by_cases h5 : (!r.isActive message.subject.deviceId && maxActiveDevices ≤ r.activeCount) = true
  · rw [if_pos h5]
    refine .refused _ fun h => ?_
    simp only [Bool.and_eq_true, Bool.not_eq_true', decide_eq_true_eq] at h5
    rcases h.room with hr | hr
    · rw [h5.1] at hr; cases hr
    · omega
  rw [if_neg h5]
  cases h6 : r.identityOf C introducer with
  | none => exact .refused _ fun h => by obtain ⟨k, hk, -⟩ := h.signed; rw [h6] at hk; cases hk
  | some key =>
    simp only [verifyVouch]
    by_cases h7 : C.verify key (.vouch message.payload) message.vouch = true
    swap
    · rw [if_neg h7]
      exact .refused _ fun h => by
        obtain ⟨k, hk, hv⟩ := h.signed
        rw [h6] at hk; cases hk; exact h7 hv
    rw [if_pos h7]
    simp only [parseIdentity]
    cases h8 : C.fromBase64 message.subject.identityPk with
    | none => exact .refused _ fun h => by obtain ⟨k, hk⟩ := h.usable; rw [h8] at hk; cases hk
    | some subjectKey =>
      have hv : Vetted C r message introducer :=
        { introducerActive := h1
          notTombstoned := by simpa using h2
          notSelf := h3
          sameKey := fun record hr => by simpa [hr] using h4
          room := by
            by_cases ha : r.isActive message.subject.deviceId = true
            · exact Or.inl ha
            · right; simp only [ha, Bool.not_false, Bool.true_and, decide_eq_true_eq] at h5; omega
          signed := ⟨key, h6, h7⟩
          usable := ⟨subjectKey, h8⟩ }
      by_cases h9 : r.isActive message.subject.deviceId = true
      · simp only [h9, if_true]; exact .alreadyKnown hv h9
      · simp only [h9, Bool.false_eq_true, if_false]
        have h9' : r.isActive message.subject.deviceId = false := by simpa using h9
        by_cases h10 : r.churn.wouldExceed introducer now = true
        · rw [if_pos h10]; exact .held hv h9' h10
        · rw [if_neg h10]; exact .admitted hv h9' (by simpa using h10)

/-! ## Taking away -/

/-- Of a step that admits nobody: what it may do to the family and to the quarantine. -/
structure Quiet (r r' : Roster) : Prop where
  selfId : r'.selfId = r.selfId
  view : Membership.TakesAway r.view r'.view
  held : ∀ s h, r'.held.get? s = some h → r.held.get? s = some h

theorem Quiet.refl (r : Roster) : Quiet r r := ⟨rfl, .refl _, fun _ _ h => h⟩

theorem Quiet.trans {r s t : Roster} (h : Quiet r s) (h' : Quiet s t) : Quiet r t :=
  ⟨h'.selfId.trans h.selfId, h.view.trans h'.view, fun k a ha => h.held k a (h'.held k a ha)⟩

theorem Quiet.contains_devices {r r' : Roster} (h : Quiet r r') (d : String) :
    r'.devices.contains d = r.devices.contains d := by
  have hk := congrFun h.view.key d
  simp only [view_key] at hk
  unfold Table.contains
  cases h1 : r.devices.get? d <;> cases h2 : r'.devices.get? d <;> simp_all

theorem contains_devices_of_isActive {r : Roster} {d : String} (h : r.isActive d = true) :
    r.devices.contains d = true := by
  obtain ⟨record, hr, -⟩ := isActive_iff.mp h
  simp [Table.contains, hr]

/-- A change to nothing but the epoch, the churn log and the removed-me set. -/
theorem quiet_bookkeeping (r : Roster) (epoch : UInt64) (churn : ChurnLog)
    (removedMe : Std.ExtTreeSet String compare) :
    Quiet r { r with epoch := epoch, churn := churn, removedMe := removedMe } :=
  ⟨rfl, .refl _, fun _ _ h => h⟩

theorem quiet_applyTombstone (r : Roster) (subject : String) (reason : RemovalReason)
    (removedAt removedBy : String) (epoch : UInt64) :
    Quiet r (r.applyTombstone subject reason removedAt removedBy epoch).1 := by
  refine ⟨rfl, applyTombstone_takesAway r subject reason removedAt removedBy epoch, fun s h hs => ?_⟩
  rw [held_applyTombstone] at hs
  split at hs
  · cases hs
  · exact hs

theorem quiet_markRemoved (r : Roster) (d : String) : Quiet r { r with devices := markRemoved r.devices d } where
  selfId := rfl
  held _ _ h := h
  view :=
    { key := key_markRemoved r d
      active := fun e he => by
        rw [mem_view_active, isActive_markRemoved] at he
        simp only [Bool.and_eq_true] at he
        exact he.1
      buried := fun _ h => h
      fresh := fun _ h hn => absurd h hn }

theorem quiet_eraseHeld (r : Roster) (s : String) : Quiet r { r with held := r.held.erase s } := by
  refine ⟨rfl, .refl _, fun k h hk => ?_⟩
  have hk' : (r.held.erase s).get? k = some h := hk
  rw [Table.get?_erase] at hk'
  split at hk'
  · cases hk'
  · exact hk'

theorem quiet_chargeRemoval (r : Roster) (remover subject removedAt : String) (now : SystemTime) :
    Quiet r (r.chargeRemoval remover subject removedAt now) := by
  unfold chargeRemoval
  split
  · exact quiet_bookkeeping r r.epoch _ r.removedMe
  · exact .refl r

theorem quiet_denyHeld (r : Roster) (s : String) : Quiet r (r.denyHeld s).1 := by
  unfold denyHeld
  split
  · exact .refl r
  · exact quiet_eraseHeld r s

theorem quiet_receiveRemove (r : Roster) (message : RosterRemove) (remover : String) (now : SystemTime) :
    Quiet r (r.receiveRemove C message remover now).1 := by
  have hcases := receiveRemove_cases C r message remover now
  generalize r.receiveRemove C message remover now = after at hcases ⊢
  -- what is signed is charged, then applied once
  have hcharge := quiet_chargeRemoval r remover message.subject message.removedAt now
  cases hcases with
  | refused _ _ _ _ => exact .refl r
  | aboutSelf _ => exact quiet_bookkeeping r _ r.churn _
  | alreadyRemoved _ _ => exact hcharge
  | applied _ _ => exact hcharge.trans (quiet_applyTombstone _ _ _ _ _ _)

theorem quiet_remove (r : Roster) (subject : String) (reason : RemovalReason) (removedAt : String)
    (identity : C.IdentityKey) (now : SystemTime) : Quiet r (r.remove C subject reason removedAt identity now).1 := by
  have hcases := remove_cases C r subject reason removedAt identity now
  generalize r.remove C subject reason removedAt identity now = after at hcases ⊢
  cases hcases with
  | refused _ => exact .refl r
  | applied _ _ _ =>
    exact (quiet_chargeRemoval r r.selfId subject removedAt now).trans (quiet_applyTombstone _ _ _ _ _ _)

theorem quiet_mergeReported (message : RosterSync) (sender : String) (s : Merge) (reported : SyncDevice) :
    Quiet s.roster (mergeReported message sender s reported).roster := by
  have hcases := mergeReported_cases message sender s reported
  generalize mergeReported message sender s reported = after at hcases ⊢
  cases hcases with
  | ignored _ _ _ _ => exact .refl _
  | noted _ _ _ => exact quiet_bookkeeping s.roster s.roster.epoch s.roster.churn _
  | buried _ _ _ _ => exact quiet_applyTombstone _ _ _ _ _ _

theorem quiet_mergeDevices (r : Roster) (message : RosterSync) (sender : String) :
    Quiet r (r.mergeDevices message sender).roster :=
  Trace.rel_run (R := fun s t => Quiet (Merge.roster s) (Merge.roster t)) (fun _ => .refl _) (fun _ _ _ => Quiet.trans)
    (fun s b _ => quiet_mergeReported message sender s b) (Trace.eachStep_true ⟨r, [], [], 0⟩ message.devices)

theorem quiet_receiveSync (r : Roster) (message : RosterSync) (sender : String) :
    Quiet r (r.receiveSync C message sender).1 := by
  have hcases := receiveSync_cases C r message sender
  generalize r.receiveSync C message sender = after at hcases ⊢
  cases hcases with
  | unmerged _ _ => exact .refl r
  | merged _ => exact (quiet_mergeDevices r message sender).trans (quiet_bookkeeping _ _ _ _)

/-- Rewriting a record without touching its key or its state changes no membership. -/
theorem view_modify (r : Roster) (d : String) {f : DeviceRecord → DeviceRecord} (hf : ∀ a, (f a).deviceId = a.deviceId)
    (hkey : ∀ a, (f a).identityPk = a.identityPk) (hstate : ∀ a, (f a).state = a.state) :
    ({ r with devices := r.devices.modify d f hf } : Roster).view = r.view := by
  refine Membership.ext (funext fun e => ?_) (Set.ext fun e => ?_) rfl
  · simp only [view_key, Table.get?_modify]
    split
    · cases r.devices.get? e <;> simp [hkey]
    · rfl
  · simp only [mem_view_active, isActive, Table.get?_modify]
    split
    · cases r.devices.get? e <;> simp [DeviceRecord.isActive, hstate]
    · rfl

theorem view_updateLabels (r : Roster) (d : String) (displayName memberGroup role : Option String) :
    (r.updateLabels d displayName memberGroup role).1.view = r.view := by
  unfold updateLabels
  split
  · rfl
  · exact view_modify r d _ (fun _ => rfl) (fun _ => rfl)

theorem quiet_updateLabels (r : Roster) (d : String) (displayName memberGroup role : Option String) :
    Quiet r (r.updateLabels d displayName memberGroup role).1 := by
  have hview := view_updateLabels r d displayName memberGroup role
  refine ⟨?_, hview ▸ .refl _, ?_⟩
  · rw [updateLabels_eq]
  · rw [updateLabels_eq]
    exact fun _ _ h => h

theorem quiet_reconcileRow (s : Reconcile) (device : ServerDevice) :
    Quiet s.roster (reconcileRow s device).roster := by
  unfold reconcileRow
  simp only []
  split
  · split
    · split
      · exact quiet_markRemoved s.roster device.deviceId
      · exact .refl _
    · exact .refl _
  · exact .refl _

theorem quiet_reconcileServerList (r : Roster) (listed : List ServerDevice) :
    Quiet r (r.reconcileServerList listed).1 :=
  Trace.rel_run (R := fun s t => Quiet (Reconcile.roster s) (Reconcile.roster t)) (fun _ => .refl _)
    (fun _ _ _ => Quiet.trans) (fun s device _ => quiet_reconcileRow s device)
    (Trace.eachStep_true ⟨r, [], [], ∅⟩ listed)

/-- The server's list edits the records and nothing else. -/
theorem reconcileServerList_eq (r : Roster) (listed : List ServerDevice) :
    (r.reconcileServerList listed).1 = { r with devices := (r.reconcileServerList listed).1.devices } := by
  refine Trace.rel_run (R := fun s t => Reconcile.roster t = { Reconcile.roster s with devices := t.roster.devices })
    (fun _ => rfl) (fun _ _ _ h h' => h'.trans (by rw [h])) (fun s device _ => ?_)
    (Trace.eachStep_true (⟨r, [], [], ∅⟩ : Reconcile) listed)
  unfold reconcileRow
  simp only []
  split
  · split
    · split <;> rfl
    · rfl
  · rfl

/-! ## What a step can do -/

/-- The step admits `subject` under `introducer`. An approval checks less than an introduction. -/
inductive Admits (r : Roster) : VouchedSubject → String → Op C → Prop
  | introduced {message : RosterIntroduce} {introducer : String} {now : SystemTime} :
      Vetted C r message introducer → r.isActive message.subject.deviceId = false →
      r.churn.wouldExceed introducer now = false →
      Admits r message.subject introducer (.receiveIntroduce message introducer now)
  | approved {s : String} {h : HeldAdmission} :
      r.held.get? s = some h → r.isActive h.introducer = true → r.tombstones.contains s = false →
      Admits r h.message.subject h.introducer (.approveHeld s)

theorem Admits.notTombstoned {r : Roster} {subject : VouchedSubject} {introducer : String} {op : Op C}
    (h : Admits C r subject introducer op) : r.tombstones.contains subject.deviceId = false := by
  cases h with
  | introduced hv _ _ => exact hv.notTombstoned
  | approved hs _ ht =>
    rw [held_subject hs]; exact ht

/-- What `r` can become in one step. -/
inductive Stepped (r : Roster) (op : Op C) : Roster → Prop
  | quiet (r' : Roster) : Quiet r r' → Stepped r op r'
  | quarantined (message : RosterIntroduce) (introducer : String) (now : SystemTime) :
      op = .receiveIntroduce message introducer now → Vetted C r message introducer →
      r.isActive message.subject.deviceId = false →
      (r.receiveIntroduce C message introducer now).2.outcome = .held (r.churn.countInWindow introducer now) →
      Stepped r op { r with held := r.held.insert ⟨message, introducer, r.churn.countInWindow introducer now⟩ }
  | admitted (subject : VouchedSubject) (introducer : String) (r₀ : Roster) :
      Admits C r subject introducer op → r₀.devices = r.devices → r₀.tombstones = r.tombstones → Quiet r r₀ →
      Stepped r op (r₀.admitDevice subject introducer).1

theorem stepped_receiveIntroduce (r : Roster) (message : RosterIntroduce) (introducer : String)
    (now : SystemTime) : Stepped C r (.receiveIntroduce message introducer now)
      (r.receiveIntroduce C message introducer now).1 := by
  have hcases := receiveIntroduce_cases C r message introducer now
  generalize hafter : r.receiveIntroduce C message introducer now = after at hcases ⊢
  cases hcases with
  | refused refusal _ => exact .quiet _ (.refl r)
  | alreadyKnown _ _ => exact .quiet _ (.refl r)
  | held hv hd _ => exact .quarantined message introducer now rfl hv hd (by rw [hafter])
  | admitted hv hd hb =>
    exact .admitted _ _ _ (.introduced hv hd hb) rfl rfl (quiet_bookkeeping r r.epoch _ r.removedMe)

theorem approveHeld_of_admits {r : Roster} {s : String} {h : HeldAdmission} (hs : r.held.get? s = some h)
    (hi : r.isActive h.introducer = true) (ht : r.tombstones.contains s = false) :
    (r.approveHeld s).1 = ({ r with held := r.held.erase s }.admitDevice h.message.subject h.introducer).1 := by
  unfold approveHeld
  simp only [hs]
  rw [if_neg (by simpa [isActive] using hi), if_neg (by simp [ht])]

/-- The ends of an approval. -/
inductive Approved (r : Roster) (subject : String) : Roster × Applied (Option Admission) → Prop
  | absent : r.held.get? subject = none → Approved r subject (r, ⟨none, []⟩)
  | refused (refusal : VouchRefusal) : Approved r subject
      ({ r with held := r.held.erase subject },
       ⟨some (.refused refusal), [.inbound subject none (.admissionResolved false),
         .inbound subject none (.vouchRejected refusal.toText)]⟩)
  | admitted (h : HeldAdmission) : r.held.get? subject = some h → r.isActive h.introducer = true →
      r.tombstones.contains subject = false → Approved r subject
        (({ r with held := r.held.erase subject }.admitDevice h.message.subject h.introducer).1,
         ⟨some .admitted, .inbound subject none (.admissionResolved true) ::
           ({ r with held := r.held.erase subject }.admitDevice h.message.subject h.introducer).2⟩)

theorem approveHeld_cases (r : Roster) (subject : String) : Approved r subject (r.approveHeld subject) := by
  unfold approveHeld
  cases hheld : r.held.get? subject with
  | none => exact .absent hheld
  | some h =>
    simp only []
    split
    · exact .refused _
    · rename_i hi
      split
      · exact .refused _
      · rename_i ht
        exact .admitted h hheld (by simpa [isActive] using hi) (by simpa using ht)

theorem stepped_approveHeld (r : Roster) (s : String) : Stepped C r (.approveHeld s) (r.approveHeld s).1 := by
  have hcases := approveHeld_cases r s
  generalize r.approveHeld s = after at hcases ⊢
  cases hcases with
  | absent _ => exact .quiet _ (.refl r)
  | refused refusal => exact .quiet _ (quiet_eraseHeld r s)
  | admitted h hs hi ht => exact .admitted _ _ _ (.approved hs hi ht) rfl rfl (quiet_eraseHeld r s)

theorem step_cases (r : Roster) (op : Op C) : Stepped C r op (step C r op) := by
  cases op with
  | receiveIntroduce message introducer now => exact stepped_receiveIntroduce C r message introducer now
  | approveHeld s => exact stepped_approveHeld C r s
  | denyHeld s => exact .quiet _ (quiet_denyHeld r s)
  | receiveRemove message remover now => exact .quiet _ (quiet_receiveRemove C r message remover now)
  | remove subject reason removedAt identity now => exact .quiet _ (quiet_remove C r _ _ _ _ _)
  | receiveSync message sender => exact .quiet _ (quiet_receiveSync C r message sender)
  | updateLabels d displayName memberGroup role => exact .quiet _ (quiet_updateLabels r _ _ _ _)
  | reconcileServerList listed => exact .quiet _ (quiet_reconcileServerList r listed)
  | restart selfId => rw [step_restart]; exact .quiet _ (.refl r)

/-- A step is a move of the membership. -/
theorem step_view (r : Roster) (op : Op C) : Membership.Step r.view (step C r op).view := by
  have hcases := step_cases C r op
  generalize step C r op = after at hcases ⊢
  cases hcases with
  | quiet r' h => exact .takesAway _ h.view
  | quarantined message introducer now _ _ _ _ => exact .takesAway _ (.refl _)
  | admitted subject introducer r₀ ha hd ht hq =>
    have hv : r₀.view = r.view := by unfold view isActive; rw [hd, ht]
    rw [view_admitDevice, hv]
    refine .addMember _ _ ?_
    rw [mem_view_buried, ha.notTombstoned]
    exact Bool.false_ne_true

theorem run_view (r : Roster) (ops : List (Op C)) : Membership.Moves r.view (run C r ops).view := by
  induction ops generalizing r with
  | nil => exact .refl
  | cons op ops ih => exact .head (step_view C r op) (ih _)

theorem step_selfId (r : Roster) (op : Op C) : (step C r op).selfId = r.selfId := by
  have hcases := step_cases C r op
  generalize step C r op = after at hcases ⊢
  cases hcases with
  | quiet r' h => exact h.selfId
  | quarantined message introducer now _ _ _ _ => rfl
  | admitted subject introducer r₀ _ _ _ hq => exact hq.selfId

theorem contains_devices_step {r : Roster} {d : String} (op : Op C) (h : r.devices.contains d = true) :
    (step C r op).devices.contains d = true := by
  have hcases := step_cases C r op
  generalize step C r op = after at hcases ⊢
  cases hcases with
  | quiet r' hq => rw [hq.contains_devices]; exact h
  | quarantined message introducer now _ _ _ _ => exact h
  | admitted subject introducer r₀ _ hd _ _ =>
    obtain ⟨record, hrecord⟩ := Table.contains_iff.mp h
    refine Table.contains_iff.mpr ?_
    show ∃ a, (r₀.devices.insert _).get? d = some a
    rw [Table.get?_insert, hd]
    split
    · exact ⟨_, rfl⟩
    · exact ⟨record, hrecord⟩

end Roster

end Beacon
