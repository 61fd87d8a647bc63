/-
  Beacon.Roster.Tombstones — what a removal means to the roster that holds it.

  - `tombstones_dominate`: from `found` on, a tombstone stays for good, and a tombstoned
    device is neither active nor in quarantine, so no key is ever handed out for it.
  - `can_leave_iff`: a device can remove itself in every state of its run exactly if no
    server list of the run revokes it first and no step brings its epoch to the last one.
    The list deactivates the device's own record, and `remove` then refuses its caller,
    whatever the subject; at the last epoch the next one overflows.
-/

import Beacon.Roster.Edits
import Beacon.Roster.Epochs

namespace Beacon

open Lib

namespace Roster

variable (C : Crypto)

/-! ## A tombstoned device is out -/

/-- No tombstoned device is active or in quarantine. -/
def BuriedAreOut (r : Roster) : Prop :=
  ∀ d, r.tombstones.contains d = true → r.isActive d = false ∧ r.held.get? d = none

theorem buriedAreOut_founded (me : SelfDescription) (identity : C.IdentityKey) :
    BuriedAreOut (founded C me identity) := by
  intro d hd
  have hnone : (founded C me identity).tombstones.contains d = false := Table.contains_eq_false.mpr (Table.get?_empty d)
  rw [hnone] at hd
  cases hd

/-- A quiet step that clears the held vouch of every device it buries. -/
structure Clears (r r' : Roster) : Prop extends Quiet r r' where
  unheld : ∀ d, r'.tombstones.contains d = true → r.tombstones.contains d = false → r'.held.get? d = none

theorem Clears.trans {r s t : Roster} (h : Clears r s) (h' : Clears s t) : Clears r t := by
  refine ⟨h.toQuiet.trans h'.toQuiet, fun d hd hn => ?_⟩
  by_cases hs : s.tombstones.contains d = true
  · have hnone := h.unheld d hs hn
    by_contra hh
    obtain ⟨a, ha⟩ := Option.ne_none_iff_exists'.mp hh
    rw [h'.held d a ha] at hnone
    cases hnone
  · exact h'.unheld d hd (by simpa using hs)

/-- Where no tombstone is written there is nothing to clear. -/
theorem clears_of_tombstones {r r' : Roster} (hq : Quiet r r') (h : r'.tombstones = r.tombstones) : Clears r r' :=
  ⟨hq, fun d hd hn => by rw [h, hn] at hd; cases hd⟩

theorem Clears.refl (r : Roster) : Clears r r := clears_of_tombstones (.refl r) rfl

theorem clears_applyTombstone (r : Roster) (subject : String) (reason : RemovalReason) (removedAt removedBy : String)
    (epoch : UInt64) : Clears r (r.applyTombstone subject reason removedAt removedBy epoch).1 := by
  refine ⟨quiet_applyTombstone r subject reason removedAt removedBy epoch, fun d hd hn => ?_⟩
  rw [contains_applyTombstone, hn, Bool.or_false, decide_eq_true_eq] at hd
  rw [held_applyTombstone, if_pos hd]

theorem clears_of_edit {r r' : Roster} (h : Edit r r') : Clears r r' := by
  cases h with
  | bookkeeping epoch churn removedMe => exact clears_of_tombstones (quiet_bookkeeping r epoch churn removedMe) rfl
  | tombstoned subject reason removedAt removedBy epoch =>
    exact clears_applyTombstone r subject reason removedAt removedBy epoch
  | deactivated d => exact clears_of_tombstones (quiet_markRemoved r d) rfl
  | relabelled d f hf hkey hstate =>
    have hview := view_modify r d hf hkey hstate
    exact clears_of_tombstones ⟨rfl, hview ▸ .refl _, fun _ _ h => h⟩ rfl

/-- A step that writes a tombstone leaves its subject unheld. -/
theorem unheld_of_buried (r : Roster) (op : Op C) {d : String} (hd : (step C r op).tombstones.contains d = true)
    (hn : r.tombstones.contains d = false) : (step C r op).held.get? d = none := by
  by_cases hop : OnAdmission C op
  · -- the quarantine and the introductions bury nobody
    have hburies := (buried_step C r op d).mp hd
    rw [hn] at hburies
    cases op with
    | receiveIntroduce message introducer now => exact absurd hburies (by simp [Buries])
    | approveHeld s => exact absurd hburies (by simp [Buries])
    | denyHeld s => exact absurd hburies (by simp [Buries])
    | _ => cases hop
  · exact ((edits_step C hop).rel .refl .trans clears_of_edit).unheld d hd hn

/-- No vouch is held for a tombstoned device. -/
def BuriedUnheld (r : Roster) : Prop := ∀ d, r.tombstones.contains d = true → r.held.get? d = none

theorem buriedUnheld_step {r : Roster} (h : BuriedUnheld r) (op : Op C) : BuriedUnheld (step C r op) := by
  intro d hd
  by_cases hb : r.tombstones.contains d = true
  swap
  · exact unheld_of_buried C r op hd (by simpa using hb)
  have hnone := h d hb
  have hcases := step_cases C r op
  generalize step C r op = after at hcases
  have hkeeps : (∀ s a, after.held.get? s = some a → r.held.get? s = some a) → after.held.get? d = none := by
    intro hheld
    by_contra hh
    obtain ⟨a, ha⟩ := Option.ne_none_iff_exists'.mp hh
    rw [hheld d a ha] at hnone
    cases hnone
  cases hcases with
  | quiet _ hq => exact hkeeps hq.held
  | admitted subject introducer r₀ _ _ _ hq => exact hkeeps hq.held
  | quarantined message introducer now _ hv _ _ =>
    have hne : message.subject.deviceId ≠ d := by
      intro he
      rw [← he, hv.notTombstoned] at hb
      cases hb
    exact (Table.get?_insert r.held _ d).trans ((if_neg hne).trans hnone)

theorem buriedUnheld_reachable {r : Roster} (h : Reachable C r) : BuriedUnheld r := by
  induction h with
  | born hborn => exact fun d _ => held_born C hborn d
  | step op _ ih => exact buriedUnheld_step C ih op

theorem buriedAreOut_step {r : Roster} (h : BuriedAreOut r) (op : Op C) : BuriedAreOut (step C r op) := by
  intro d hd
  refine ⟨?_, buriedUnheld_step C (fun d hd => (h d hd).2) op d hd⟩
  have hcases := step_cases C r op
  generalize step C r op = after at hcases hd
  cases hcases with
  | quiet _ hq =>
    by_cases hb : r.tombstones.contains d = true
    · have hactive := (h d hb).1
      by_contra ha
      rw [hq.view.active (by simpa using ha)] at hactive
      cases hactive
    · have hout := hq.view.fresh d hd hb
      simpa using hout
  | quarantined _ _ _ _ _ _ _ => exact (h d hd).1
  | admitted subject introducer r₀ ha hdev htomb hq =>
    have hb : r.tombstones.contains d = true := by rw [← htomb]; exact hd
    have hne : subject.deviceId ≠ d := by
      intro he
      rw [← he, ha.notTombstoned] at hb
      cases hb
    have hsame : r₀.isActive d = r.isActive d := by unfold isActive; rw [hdev]
    rw [isActive_admitDevice, decide_eq_false hne, Bool.false_or, hsame, (h d hb).1]

theorem buriedAreOut_run {r : Roster} (h : BuriedAreOut r) (ops : List (Op C)) : BuriedAreOut (run C r ops) :=
  Trace.inv_run (Q := BuriedAreOut) (fun _ op _ h => buriedAreOut_step C h op) h (Trace.eachStep_true r ops)

theorem tombstones_dominate (me : SelfDescription) (identity : C.IdentityKey) (pre : List (Op C)) (d : String)
    (h : (run C (founded C me identity) pre).tombstones.contains d = true) (post : List (Op C)) :
    let r := run C (founded C me identity) (pre ++ post)
    r.tombstones.contains d = true ∧ r.isActive d = false ∧ r.held.get? d = none ∧ r.identityOf C d = none := by
  intro r
  have hr : r = run C (run C (founded C me identity) pre) post := Trace.run_append _ _ _
  have hkept : r.tombstones.contains d = true := by
    rw [hr]
    exact (run_view C (run C (founded C me identity) pre) post).buried h
  obtain ⟨hactive, hheld⟩ := buriedAreOut_run C (buriedAreOut_founded C me identity) (pre ++ post) d hkept
  refine ⟨hkept, hactive, hheld, ?_⟩
  unfold identityOf
  cases hrecord : r.devices.get? d with
  | none => rfl
  | some record =>
    have hout : record.isActive = false := by rw [isActive, hrecord] at hactive; exact hactive
    simp [hout]

theorem removed_for_good :
    let r := run Crypto.plain founder ([introduction "b" "kb" "" "a" "ka", .remove "b" .lost "" "ka" (.ofSecs 1750000000)] ++
      [introduction "b" "kb" "" "a" "ka", .approveHeld "b", .restart "a"])
    r.tombstones.contains "b" = true ∧ r.isActive "b" = false ∧ r.held.get? "b" = none ∧
      r.identityOf Crypto.plain "b" = none :=
  tombstones_dominate Crypto.plain ⟨"a", "a", "g", "admin", ""⟩ "ka" _ "b" (by decide +kernel) _

/-! ## Leaving -/

/-- With its key, the device can remove itself: the removal goes through, buries it and charges nobody. -/
def CanLeave (r : Roster) (identity : C.IdentityKey) : Prop :=
  ∀ reason removedAt now, ∃ r' applied,
    r.remove? C r.selfId reason removedAt identity now = some (r', .ok applied) ∧
    r'.tombstones.contains r.selfId = true ∧
    ∀ signer t, r'.churn.countInWindow signer t ≤ r.churn.countInWindow signer t

theorem canLeave_iff (r : Roster) (identity : C.IdentityKey) :
    CanLeave C r identity ↔ r.isActive r.selfId = true ∧ r.epoch ≠ lastEpoch := by
  constructor
  · intro h
    obtain ⟨r', applied, happlied, -, -⟩ := h .left "" ⟨0⟩
    unfold remove? at happlied
    split at happlied
    · cases happlied
    rename_i hroom
    have hcases := remove_cases C r r.selfId .left "" identity ⟨0⟩
    have hafter := Option.some.inj happlied
    rw [hafter] at hcases
    cases hcases with
    | applied sig hs _ => exact ⟨hs, fun hlast => hroom ⟨hs, hlast⟩⟩
  · rintro ⟨hs, hroom⟩ reason removedAt now
    have hcases := remove_cases C r r.selfId reason removedAt identity now
    have hchecked : r.remove? C r.selfId reason removedAt identity now =
        some (r.remove C r.selfId reason removedAt identity now) := if_neg fun h => hroom h.2
    rw [hchecked]
    generalize r.remove C r.selfId reason removedAt identity now = after at hcases ⊢
    cases hcases with
    | refused hnot => rw [hs] at hnot; cases hnot
    | applied sig _ _ =>
      refine ⟨_, _, rfl, ?_, fun signer t => ?_⟩
      · rw [contains_applyTombstone]; simp
      · -- a device that leaves is not charged, and its own history goes
        have huncharged : r.chargeRemoval r.selfId r.selfId removedAt now = r := by simp [chargeRemoval]
        rw [huncharged]
        show (r.churn.forget r.selfId).countInWindow signer t ≤ _
        rw [ChurnLog.countInWindow_eq, ChurnLog.countInWindow_eq]
        by_cases hself : r.selfId = signer
        · rw [ChurnLog.countSince, ChurnLog.eventsOf_forget, if_pos hself]
          exact Nat.zero_le _
        · rw [ChurnLog.countSince_forget_ne _ hself]

/-- The server lists this device as revoked while it has not left. -/
def ServerRevokesSelf (r : Roster) : Op C → Prop
  | .reconcileServerList listed => r.tombstones.contains r.selfId = false ∧ ⟨r.selfId, true⟩ ∈ listed
  | _ => False

/-- Where the device can leave before a step, the step takes that away exactly if it is the
    server's word that it is revoked. -/
theorem selfActive_step_iff {r : Roster} (op : Op C)
    (h : r.tombstones.contains r.selfId = false → r.isActive r.selfId = true) :
    ((step C r op).tombstones.contains r.selfId = false → (step C r op).isActive r.selfId = true) ↔
      ¬ ServerRevokesSelf C r op := by
  have hmono : (step C r op).tombstones.contains r.selfId = false → r.tombstones.contains r.selfId = false := by
    intro hn
    by_contra hb
    have hb' : r.tombstones.contains r.selfId = true := by simpa using hb
    rw [(buried_step C r op r.selfId).mpr (Or.inl hb')] at hn
    cases hn
  constructor
  · intro hafter hrevokes
    cases op with
    | reconcileServerList listed =>
      rcases hrevokes with ⟨hn, hlisted⟩
      have hstill : (r.reconcileServerList listed).1.tombstones.contains r.selfId = false := by
        rw [tombstones_reconcileServerList]; exact hn
      exact ((isActive_reconcileServerList r listed r.selfId).mp (hafter hstill)).2 hlisted
    | _ => exact hrevokes
  · intro hop hn
    have hrevokes : ¬ Revokes C r.selfId op := by
      intro hrevokes
      cases op with
      | reconcileServerList listed => exact hop ⟨hmono hn, hrevokes⟩
      | _ => exact hrevokes
    rcases active_or_buried_step C op (h (hmono hn)) hrevokes with hs | hburied
    · exact hs
    · rw [hn] at hburied; cases hburied

theorem selfActive_born {r : Roster} (h : Born C r) : r.isActive r.selfId = true := by
  cases h with
  | found me identity =>
    refine isActive_iff.mpr ⟨_, Table.get?_insert_self _ _, rfl⟩
  | @adopt selfId introducer devices tombstones epoch vouch applied hadopt =>
    obtain ⟨hsubject, -, hout⟩ := outcome_adopt C hadopt
    rw [hout]
    -- the own record goes in first, and the introducer's only where its id is free
    refine isActive_iff.mpr ⟨.fromVouch vouch.subject introducer.deviceId, ?_, rfl⟩
    subst hsubject
    let theirs : Table DeviceRecord.deviceId := .ofList devices
    let mine : DeviceRecord := .fromVouch vouch.subject introducer.deviceId
    have hmine : (theirs.insert mine).get? vouch.subject.deviceId = some mine := Table.get?_insert_self theirs mine
    show ((theirs.insert mine).insertIfNew introducer).get? vouch.subject.deviceId = some mine
    unfold Table.insertIfNew
    split
    · exact hmine
    · rename_i hfree
      rw [Table.get?_insert, if_neg, hmine]
      intro he
      exact hfree (Table.contains_iff.mpr ⟨_, by rw [he]; exact hmine⟩)

theorem Reachable.contains_self {r : Roster} (h : Reachable C r) : r.devices.contains r.selfId = true := by
  induction h with
  | born hborn => exact contains_devices_of_isActive (selfActive_born C hborn)
  | step op _ ih => rw [step_selfId]; exact contains_devices_step C op ih

theorem unburied_born {r : Roster} (h : Born C r) : r.tombstones.contains r.selfId = false := by
  cases h with
  | found me identity => exact Table.contains_eq_false.mpr (Table.get?_empty _)
  | adopt hadopt =>
    obtain ⟨-, hunburied, hout⟩ := outcome_adopt C hadopt
    rw [hout]
    exact hunburied

/-- The step brings the epoch to the last one while this device has not left, and is not its leaving. -/
def ExhaustsEpochs (r : Roster) (op : Op C) : Prop :=
  ReachesLast C r op ∧ r.tombstones.contains r.selfId = false ∧ ¬ Buries C r r.selfId op

theorem epochLeft_step_iff {r : Roster} (op : Op C)
    (h : r.tombstones.contains r.selfId = false → r.epoch ≠ lastEpoch) :
    ((step C r op).tombstones.contains r.selfId = false → (step C r op).epoch ≠ lastEpoch) ↔
      ¬ ExhaustsEpochs C r op := by
  have hburied := buried_step C r op r.selfId
  have hafter : (step C r op).tombstones.contains r.selfId = false ↔
      r.tombstones.contains r.selfId = false ∧ ¬ Buries C r r.selfId op := by
    rw [← Bool.not_eq_true, hburied, not_or, Bool.not_eq_true]
  rw [hafter, ne_eq, epoch_step]
  constructor
  · rintro hleft ⟨hlast, hstay⟩
    exact hleft hstay (Or.inr hlast)
  · rintro hnot hstay (hlast | hlast)
    · exact h hstay.1 hlast
    · exact hnot ⟨hlast, hstay⟩

/-- A device can leave all through its run exactly if, until it does, no server list revokes it and no step takes the
    last epoch. -/
theorem can_leave_iff {r : Roster} (h : Born C r) (identity : C.IdentityKey) (ops : List (Op C)) :
    Trace.EachState (step C) (fun r => r.tombstones.contains r.selfId = false → CanLeave C r identity) r ops ↔
      r.epoch ≠ lastEpoch ∧
        Trace.EachStep (step C) (fun r op => ¬ ServerRevokesSelf C r op ∧ ¬ ExhaustsEpochs C r op) r ops := by
  have hunburied := unburied_born C h
  by_cases hroom : r.epoch = lastEpoch
  · refine iff_of_false (fun hall => ?_) fun hleft => hleft.1 hroom
    have hfirst := Trace.eachState_iff.mp hall [] ops rfl hunburied
    exact ((canLeave_iff C r identity).mp hfirst).2 hroom
  · rw [and_iff_right hroom]
    refine Trace.eachState_iff_eachStep (I := fun _ => True) (A := fun _ => True) (fun _ _ _ _ _ _ => trivial) ?_
      (fun _ _ => trivial) trivial fun _ => (canLeave_iff C r identity).mpr ⟨selfActive_born C h, hroom⟩
    intro s op _ _ hs
    simp only [canLeave_iff, step_selfId] at hs ⊢
    rw [imp_and, selfActive_step_iff C op fun hn => (hs hn).1, epochLeft_step_iff C op fun hn => (hs hn).2]

/-- The server revokes a device that then cannot leave. -/
theorem revoked_cannot_leave :
    ¬ ∀ r, Reachable Crypto.plain r → r.tombstones.contains r.selfId = false → CanLeave Crypto.plain r "ka" := by
  intro h
  have hr : Reachable Crypto.plain (run Crypto.plain founder [.reconcileServerList [⟨"a", true⟩]]) :=
    (Reachable.born (.found _ _)).run _
  have hleave := (canLeave_iff Crypto.plain _ "ka").mp (h _ hr (by decide +kernel))
  exact absurd hleave.1 (by decide +kernel)

theorem founder_can_leave :
    Trace.EachState (step Crypto.plain)
        (fun r => r.tombstones.contains r.selfId = false → CanLeave Crypto.plain r "ka") founder
        [introduction "b" "kb" "" "a" "ka", .reconcileServerList [⟨"b", true⟩]] ↔
      founder.epoch ≠ lastEpoch ∧ Trace.EachStep (step Crypto.plain)
        (fun r op => ¬ ServerRevokesSelf Crypto.plain r op ∧ ¬ ExhaustsEpochs Crypto.plain r op) founder
        [introduction "b" "kb" "" "a" "ka", .reconcileServerList [⟨"b", true⟩]] :=
  can_leave_iff Crypto.plain (.found _ _) "ka" _

end Roster

end Beacon
