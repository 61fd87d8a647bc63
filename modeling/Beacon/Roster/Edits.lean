/-
  Beacon.Roster.Edits — the steps that neither take in a vouch nor decide on one, taken
  apart: a removal, a sync, a label and the server's list come to a sequence of four
  small edits.

  - `edits_step`: such a step is any number of `Edit`s.
  - `Edits.rel`: so a reflexive, transitive relation that holds across each of the four
    holds across every such step, and its proof never unfolds an operation.
-/

import Beacon.Roster.Burials

namespace Beacon

open Lib

namespace Roster

variable (C : Crypto)

inductive Edit (r : Roster) : Roster → Prop
  | bookkeeping (epoch : UInt64) (churn : ChurnLog) (removedMe : Std.ExtTreeSet String compare) :
      Edit r { r with epoch := epoch, churn := churn, removedMe := removedMe }
  | tombstoned (subject : String) (reason : RemovalReason) (removedAt removedBy : String) (epoch : UInt64) :
      Edit r (r.applyTombstone subject reason removedAt removedBy epoch).1
  | deactivated (d : String) : Edit r { r with devices := markRemoved r.devices d }
  | relabelled (d : String) (f : DeviceRecord → DeviceRecord) (hf : ∀ a, (f a).deviceId = a.deviceId)
      (hkey : ∀ a, (f a).identityPk = a.identityPk) (hstate : ∀ a, (f a).state = a.state) :
      Edit r { r with devices := r.devices.modify d f hf }

/-- Any number of edits. -/
abbrev Edits : Roster → Roster → Prop := Relation.ReflTransGen Edit

/-- What holds across each edit, across none and across two in a row holds across any number. -/
theorem Edits.rel {R : Roster → Roster → Prop} (hrefl : ∀ r, R r r) (htrans : ∀ {r s t}, R r s → R s t → R r t)
    (hedit : ∀ {r r'}, Edit r r' → R r r') {r r' : Roster} (h : Edits r r') : R r r' := by
  induction h with
  | refl => exact hrefl r
  | tail _ he ih => exact htrans ih (hedit he)

/-- The step takes in a vouch, or decides on one that is held. -/
def OnAdmission : Op C → Prop
  | .receiveIntroduce _ _ _ | .approveHeld _ | .denyHeld _ => True
  | _ => False

theorem edits_chargeRemoval (r : Roster) (remover subject removedAt : String) (now : SystemTime) :
    Edits r (r.chargeRemoval remover subject removedAt now) := by
  unfold chargeRemoval
  split
  · exact .single (.bookkeeping r.epoch _ r.removedMe)
  · exact .refl

theorem edits_mergeReported (message : RosterSync) (sender : String) (s : Merge) (reported : SyncDevice) :
    Edits s.roster (mergeReported message sender s reported).roster := by
  have hcases := mergeReported_cases message sender s reported
  generalize mergeReported message sender s reported = after at hcases ⊢
  cases hcases with
  | ignored _ _ _ _ => exact .refl
  | noted _ _ _ => exact .single (.bookkeeping s.roster.epoch s.roster.churn _)
  | buried _ _ _ _ => exact .single (.tombstoned _ _ _ _ _)

theorem edits_merged (r : Roster) (message : RosterSync) (sender : String) : Edits r (r.merged message sender) := by
  have hloop : Edits r (r.mergeDevices message sender).roster :=
    Trace.rel_run (R := fun s t => Edits (Merge.roster s) (Merge.roster t)) (fun _ => .refl) (fun _ _ _ => .trans)
      (fun s b _ => edits_mergeReported message sender s b) (Trace.eachStep_true ⟨r, [], [], 0⟩ message.devices)
  exact hloop.tail (.bookkeeping _ _ _)

theorem edits_reconcileServerList (r : Roster) (listed : List ServerDevice) :
    Edits r (r.reconcileServerList listed).1 := by
  refine Trace.rel_run (R := fun s t => Edits (Reconcile.roster s) (Reconcile.roster t)) (fun _ => .refl)
    (fun _ _ _ => .trans) (fun s device _ => ?_) (Trace.eachStep_true ⟨r, [], [], ∅⟩ listed)
  unfold reconcileRow
  simp only []
  split
  · split
    · split
      · exact .single (.deactivated device.deviceId)
      · exact .refl
    · exact .refl
  · exact .refl

theorem edits_updateLabels (r : Roster) (d : String) (displayName memberGroup role : Option String) :
    Edits r (r.updateLabels d displayName memberGroup role).1 := by
  unfold updateLabels
  split
  · exact .refl
  · refine .single (.relabelled d _ _ ?_ ?_)
    · exact fun _ => rfl
    · exact fun _ => rfl

theorem edits_step {r : Roster} {op : Op C} (h : ¬ OnAdmission C op) : Edits r (step C r op) := by
  cases op with
  | receiveIntroduce message introducer now => exact absurd trivial h
  | approveHeld s => exact absurd trivial h
  | denyHeld s => exact absurd trivial h
  | receiveRemove message remover now =>
    have hcases := receiveRemove_cases C r message remover now
    show Edits r (r.receiveRemove C message remover now).1
    generalize r.receiveRemove C message remover now = after at hcases ⊢
    cases hcases with
    | refused _ _ _ _ => exact .refl
    | aboutSelf _ => exact .single (.bookkeeping _ r.churn _)
    | alreadyRemoved _ _ => exact edits_chargeRemoval r _ _ _ _
    | applied _ _ => exact (edits_chargeRemoval r _ _ _ _).tail (.tombstoned _ _ _ _ _)
  | remove subject reason removedAt identity now =>
    have hcases := remove_cases C r subject reason removedAt identity now
    show Edits r (r.remove C subject reason removedAt identity now).1
    generalize r.remove C subject reason removedAt identity now = after at hcases ⊢
    cases hcases with
    | refused _ => exact .refl
    | applied _ _ _ => exact (edits_chargeRemoval r _ _ _ _).tail (.tombstoned _ _ _ _ _)
  | receiveSync message sender =>
    have hcases := receiveSync_cases C r message sender
    show Edits r (r.receiveSync C message sender).1
    generalize r.receiveSync C message sender = after at hcases ⊢
    cases hcases with
    | unmerged _ _ => exact .refl
    | merged _ => exact edits_merged r message sender
  | updateLabels d displayName memberGroup role => exact edits_updateLabels r d displayName memberGroup role
  | reconcileServerList listed => exact edits_reconcileServerList r listed
  | restart selfId => rw [step_restart]

/-! ## The quarantine -/

theorem held_born {r : Roster} (h : Born C r) (s : String) : r.held.get? s = none := by
  cases h with
  | found me identity => exact Table.get?_empty s
  | adopt hadopt => rw [(outcome_adopt C hadopt).2.2]; exact Table.get?_empty s

/-- Where a device stays untombstoned, its held vouch stays. -/
structure KeepsHeld (r r' : Roster) : Prop where
  buried : ∀ d, r.tombstones.contains d = true → r'.tombstones.contains d = true
  held : ∀ d, r'.tombstones.contains d = false → r'.held.get? d = r.held.get? d

theorem KeepsHeld.refl (r : Roster) : KeepsHeld r r := ⟨fun _ h => h, fun _ _ => rfl⟩

theorem KeepsHeld.trans {r s t : Roster} (h : KeepsHeld r s) (h' : KeepsHeld s t) : KeepsHeld r t := by
  refine ⟨fun d hd => h'.buried d (h.buried d hd), fun d hd => ?_⟩
  have hs : s.tombstones.contains d = false := by
    by_contra hb
    rw [h'.buried d (by simpa using hb)] at hd
    cases hd
  rw [h'.held d hd, h.held d hs]

theorem keepsHeld_applyTombstone (r : Roster) (subject : String) (reason : RemovalReason)
    (removedAt removedBy : String) (epoch : UInt64) :
    KeepsHeld r (r.applyTombstone subject reason removedAt removedBy epoch).1 := by
  refine ⟨fun d hd => by rw [contains_applyTombstone, hd, Bool.or_true], fun d hd => ?_⟩
  rw [contains_applyTombstone, Bool.or_eq_false_iff, decide_eq_false_iff_not] at hd
  rw [held_applyTombstone, if_neg hd.1]

theorem keepsHeld_of_edit {r r' : Roster} (h : Edit r r') : KeepsHeld r r' := by
  cases h with
  | tombstoned subject reason removedAt removedBy epoch =>
    exact keepsHeld_applyTombstone r subject reason removedAt removedBy epoch
  | bookkeeping _ _ _ => exact ⟨fun _ h => h, fun _ _ => rfl⟩
  | deactivated _ => exact ⟨fun _ h => h, fun _ _ => rfl⟩
  | relabelled _ _ _ _ _ => exact ⟨fun _ h => h, fun _ _ => rfl⟩

end Roster

end Beacon
