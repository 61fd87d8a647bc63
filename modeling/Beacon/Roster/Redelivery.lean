/-
  Beacon.Roster.Redelivery — delivery is at least once, so every message may arrive again.

  - `redelivery_harmless_iff`: a second delivery leaves the roster the first one produced
    exactly if it charges nobody. A vouch, a sync and a label change are idempotent; a
    removal by another device than its subject is counted before the roster looks whether
    it holds the tombstone already, and so counted once more on every arrival.
  - `mergeDevices_settled`: a merge leaves every reported device settled, and a list of
    settled devices merges into nothing new.
-/

import Beacon.Roster.Influence

namespace Beacon

open Lib Churn

namespace Roster

variable (C : Crypto)

/-! ## A merge settles what it merges -/

/-- The merge loop has nothing left to do for this device: its removal is recorded, or is none. -/
def Settled (sender : String) (r : Roster) (reported : SyncDevice) : Prop :=
  reported.state = .removed → r.devices.contains reported.deviceId = true →
    if reported.deviceId = r.selfId then r.removedMe.contains sender = true
    else r.tombstones.contains reported.deviceId = true

theorem mergeReported_of_settled {message : RosterSync} {sender : String} {s : Merge} {reported : SyncDevice}
    (h : Settled sender s.roster reported) : (mergeReported message sender s reported).roster = s.roster := by
  have hcases := mergeReported_cases message sender s reported
  generalize mergeReported message sender s reported = after at hcases ⊢
  cases hcases with
  | ignored _ _ _ _ => rfl
  | noted hremoved hself hknown =>
    have hsettled := h hremoved hknown
    rw [if_pos hself] at hsettled
    show { s.roster with removedMe := s.roster.removedMe.insert sender } = s.roster
    rw [insert_of_contains hsettled]
  | buried hremoved hself hknown hfresh =>
    have hsettled := h hremoved hknown
    rw [if_neg hself, hfresh] at hsettled
    cases hsettled

theorem settled_mergeReported (message : RosterSync) (sender : String) (s : Merge) (reported : SyncDevice) :
    Settled sender (mergeReported message sender s reported).roster reported := by
  intro hremoved hknown
  rw [(quiet_mergeReported message sender s reported).contains_devices] at hknown
  rw [mergeReported_selfId]
  split
  · rename_i hself
    exact (removedMe_mergeReported message sender s reported sender).mpr (Or.inr ⟨rfl, hremoved, hself, hknown⟩)
  · rename_i hself
    exact (buried_mergeReported message sender s reported reported.deviceId).mpr
      (Or.inr ⟨⟨rfl, hremoved⟩, hself, hknown⟩)

theorem Settled.mergeReported {sender : String} {s : Merge} {reported : SyncDevice}
    (h : Settled sender s.roster reported) (message : RosterSync) (other : SyncDevice) :
    Settled sender (mergeReported message sender s other).roster reported := by
  intro hremoved hknown
  rw [(quiet_mergeReported message sender s other).contains_devices] at hknown
  have hsettled := h hremoved hknown
  rw [mergeReported_selfId]
  split
  · rename_i hself
    rw [if_pos hself] at hsettled
    exact (removedMe_mergeReported message sender s other sender).mpr (Or.inl hsettled)
  · rename_i hself
    rw [if_neg hself] at hsettled
    exact (buried_mergeReported message sender s other reported.deviceId).mpr (Or.inl hsettled)

theorem settled_foldl_mergeReported (message : RosterSync) (sender : String) (l : List SyncDevice) (s : Merge) :
    ∀ reported, (reported ∈ l ∨ Settled sender s.roster reported) →
      Settled sender (l.foldl (mergeReported message sender) s).roster reported := by
  induction l generalizing s with
  | nil =>
    intro reported h
    rcases h with h | h
    · cases h
    · exact h
  | cons b l ih =>
    intro reported h
    refine ih _ reported ?_
    rcases h with h | h
    · rcases List.mem_cons.mp h with rfl | h
      · exact Or.inr (settled_mergeReported message sender s _)
      · exact Or.inl h
    · exact Or.inr (h.mergeReported message b)

theorem foldl_mergeReported_of_settled {message : RosterSync} {sender : String} {l : List SyncDevice} {s : Merge}
    (h : ∀ reported ∈ l, Settled sender s.roster reported) :
    (l.foldl (mergeReported message sender) s).roster = s.roster := by
  induction l generalizing s with
  | nil => rfl
  | cons b l ih =>
    have hhead : (mergeReported message sender s b).roster = s.roster :=
      mergeReported_of_settled (h b List.mem_cons_self)
    rw [List.foldl_cons, ih fun reported hmem => ?_, hhead]
    rw [hhead]
    exact h reported (List.mem_cons_of_mem b hmem)

/-- Merging a list a second time is merging nothing. -/
theorem merged_merged (r : Roster) (message : RosterSync) (sender : String) :
    (r.merged message sender).merged message sender = r.merged message sender := by
  have hsettled : ∀ reported ∈ message.devices, Settled sender (r.merged message sender) reported :=
    fun reported hmem => settled_foldl_mergeReported message sender message.devices ⟨r, [], [], 0⟩ reported (Or.inl hmem)
  have hsame : ((r.merged message sender).mergeDevices message sender).roster = r.merged message sender :=
    foldl_mergeReported_of_settled (s := ⟨r.merged message sender, [], [], 0⟩) hsettled
  have hepoch : max (r.merged message sender).epoch message.epoch = (r.merged message sender).epoch := by
    rw [epoch_max_eq_iff]
    show ¬ max _ message.epoch < message.epoch
    rw [UInt64.not_lt, UInt64.le_iff_toNat_le, toNat_epoch_max]
    omega
  generalize r.merged message sender = t at hsame hepoch
  unfold merged
  rw [hsame, hepoch]

theorem evicted_evicted (r : Roster) (message : RosterRemove) (remover : String) :
    (r.evicted message remover).evicted message remover = r.evicted message remover := by
  have hepoch : max (max r.epoch message.epoch) message.epoch = max r.epoch message.epoch := by
    rw [← UInt64.toNat_inj, toNat_epoch_max, toNat_epoch_max]
    omega
  have hset : (r.removedMe.insert remover).insert remover = r.removedMe.insert remover :=
    insert_of_contains ((contains_insert_iff _ _ _).mpr (Or.inl rfl))
  unfold evicted
  simp only [hepoch, hset]

/-! ## The second delivery -/

/-- The delivery counts a removal that the remover's window still holds, on every arrival. -/
def ChargesAgain (r : Roster) (sender : String) : Submission → Prop
  | .remove message now => RemovalVetted C r message sender ∧ message.subject ≠ sender ∧
      cutoff now ≤ unixSeconds (clampToNow (timestampOr message.removedAt now) now)
  | _ => False

theorem redelivered_introduce (r : Roster) (message : RosterIntroduce) (introducer : String) (now : SystemTime) :
    ((r.receiveIntroduce C message introducer now).1.receiveIntroduce C message introducer now).1 =
      (r.receiveIntroduce C message introducer now).1 := by
  have hfirst := receiveIntroduce_cases C r message introducer now
  generalize hafter : r.receiveIntroduce C message introducer now = after at hfirst ⊢
  cases hfirst with
  | refused refusal _ =>
    show (r.receiveIntroduce C message introducer now).1 = r
    rw [hafter]; rfl
  | alreadyKnown _ _ =>
    show (r.receiveIntroduce C message introducer now).1 = r
    rw [hafter]
  | held _ _ hover =>
    generalize hr' : ({ r with held := r.held.insert ⟨message, introducer, r.churn.countInWindow introducer now⟩ } : Roster)
      = r'
    have hsecond := receiveIntroduce_cases C r' message introducer now
    generalize r'.receiveIntroduce C message introducer now = after at hsecond ⊢
    cases hsecond with
    | refused refusal _ => rfl
    | alreadyKnown _ _ => rfl
    | held _ _ _ =>
      subst hr'
      simp only [Table.insert_insert_self]
    | admitted _ _ hunder =>
      subst hr'
      rw [hover] at hunder; cases hunder
  | admitted _ _ _ =>
    have hactive : ({ r with churn := r.churn.record introducer (timestampOr message.subject.joinedAt now) now }.admitDevice
        message.subject introducer).1.isActive message.subject.deviceId = true := by
      rw [isActive_admitDevice]; simp
    generalize ({ r with churn := r.churn.record introducer (timestampOr message.subject.joinedAt now) now }.admitDevice
        message.subject introducer).1 = r' at hactive ⊢
    have hsecond := receiveIntroduce_cases C r' message introducer now
    generalize r'.receiveIntroduce C message introducer now = after at hsecond ⊢
    cases hsecond with
    | refused refusal _ => rfl
    | alreadyKnown _ _ => rfl
    | held _ hinactive _ => rw [hactive] at hinactive; cases hinactive
    | admitted _ hinactive _ => rw [hactive] at hinactive; cases hinactive

theorem redelivered_sync (r : Roster) (message : RosterSync) (sender : String) :
    ((r.receiveSync C message sender).1.receiveSync C message sender).1 = (r.receiveSync C message sender).1 := by
  have hfirst := receiveSync_cases C r message sender
  generalize hafter : r.receiveSync C message sender = after at hfirst ⊢
  cases hfirst with
  | unmerged outcome _ =>
    show (r.receiveSync C message sender).1 = r
    rw [hafter]
  | merged _ =>
    have hsecond := receiveSync_cases C (r.merged message sender) message sender
    show ((r.merged message sender).receiveSync C message sender).1 = r.merged message sender
    generalize (r.merged message sender).receiveSync C message sender = after at hsecond ⊢
    cases hsecond with
    | unmerged outcome _ => rfl
    | merged _ => exact merged_merged r message sender

theorem not_relabels_relabel (deviceId field : String) (new : Option String) (current : String) :
    ¬ Relabels new (relabel deviceId field new current).1 := by
  unfold relabel Relabels
  cases new with
  | none => simp
  | some label => by_cases h : label = current <;> simp [h]

theorem redelivered_labels (r : Roster) (deviceId : String) (displayName memberGroup role : Option String) :
    ((r.updateLabels deviceId displayName memberGroup role).1.updateLabels deviceId displayName memberGroup role).1 =
      (r.updateLabels deviceId displayName memberGroup role).1 := by
  rw [updateLabels_eq_self_iff]
  intro hleak
  obtain ⟨record', hrecord', hrelabels⟩ := hleak
  cases hrecord : r.devices.get? deviceId with
  | none =>
    have hsame : (r.updateLabels deviceId displayName memberGroup role).1 = r := by
      unfold updateLabels; rw [hrecord]
    rw [hsame, hrecord] at hrecord'
    cases hrecord'
  | some record =>
    unfold updateLabels at hrecord'
    simp only [hrecord, Table.get?_modify, if_true, Option.map_some] at hrecord'
    cases hrecord'
    rcases hrelabels with h | h | h
    · exact not_relabels_relabel deviceId "display_name" displayName record.displayName h
    · exact not_relabels_relabel deviceId "member_group" memberGroup record.memberGroup h
    · exact not_relabels_relabel deviceId "role" role record.role h

/-! ### A removal is charged on arrival -/

theorem chargeRemoval_eq_self_iff {r : Roster} {remover subject removedAt : String} {now : SystemTime}
    (hne : subject ≠ remover) {events : List Int64}
    (h : r.churn.events[remover]? = some ((events ++ [unixSeconds (clampToNow (timestampOr removedAt now) now)]).filter
      fun stamp => cutoff now ≤ stamp)) :
    r.chargeRemoval remover subject removedAt now = r ↔
      ¬ cutoff now ≤ unixSeconds (clampToNow (timestampOr removedAt now) now) := by
  rw [← ChurnLog.record_eq_self_iff h]
  unfold chargeRemoval
  rw [if_pos hne]
  exact ⟨fun hsame => congrArg Roster.churn hsame, fun hsame => by rw [hsame]⟩

theorem charged_events {r : Roster} {remover subject removedAt : String} {now : SystemTime} (hne : subject ≠ remover) :
    (r.chargeRemoval remover subject removedAt now).churn.events[remover]? =
      some ((r.churn.eventsOf remover ++ [unixSeconds (clampToNow (timestampOr removedAt now) now)]).filter
        fun stamp => cutoff now ≤ stamp) := by
  unfold chargeRemoval
  rw [if_pos hne]
  simp [ChurnLog.record]

theorem events_applyTombstone (r : Roster) (subject : String) (reason : RemovalReason) (removedAt removedBy : String)
    (epoch : UInt64) {signer : String} (hne : subject ≠ signer) :
    (r.applyTombstone subject reason removedAt removedBy epoch).1.churn.events[signer]? = r.churn.events[signer]? := by
  show (r.churn.events.erase subject)[signer]? = _
  rw [Std.ExtTreeMap.getElem?_erase, if_neg]
  rw [Std.compare_eq_iff_eq]
  exact hne

theorem identityOf_applyTombstone (r : Roster) (subject : String) (reason : RemovalReason) (removedAt : String)
    (removedBy : String) (epoch : UInt64) {d : String} (hne : subject ≠ d) :
    (r.applyTombstone subject reason removedAt removedBy epoch).1.identityOf C d = r.identityOf C d := by
  show ((markRemoved r.devices subject).get? d).bind _ = _
  rw [get?_markRemoved, if_neg hne]
  rfl

theorem RemovalVetted.chargeRemoval {r : Roster} {message : RosterRemove} {remover : String}
    (h : RemovalVetted C r message remover) (signer subject removedAt : String) (now : SystemTime) :
    RemovalVetted C (r.chargeRemoval signer subject removedAt now) message remover := by
  unfold Roster.chargeRemoval
  split
  · exact ⟨h.notSelf, h.removerActive, h.signed⟩
  · exact h

/-- The removal arrives at a roster that holds the tombstone: it is counted, and that is all. -/
theorem receiveRemove_again_iff {r t : Roster} {message : RosterRemove} {remover : String} {now : SystemTime}
    (hvet : RemovalVetted C r message remover) (hself : t.selfId = r.selfId)
    (hburied : t.tombstones.contains message.subject = true)
    (hvet' : message.subject ≠ remover → RemovalVetted C t message remover)
    (events : List Int64) (hevents : message.subject ≠ remover → t.churn.events[remover]? =
      some ((events ++ [unixSeconds (clampToNow (timestampOr message.removedAt now) now)]).filter
        fun stamp => cutoff now ≤ stamp)) :
    (t.receiveRemove C message remover now).1 = t ↔ ¬ ChargesAgain C r remover (.remove message now) := by
  have hcases := receiveRemove_cases C t message remover now
  generalize t.receiveRemove C message remover now = after at hcases ⊢
  cases hcases with
  | refused refusal ledger _ hnot => exact iff_of_true rfl fun h => hnot (hvet' h.2.1)
  | aboutSelf hevicted => exact absurd (hevicted.aboutSelf.trans hself) hvet.notSelf
  | alreadyRemoved _ _ =>
    by_cases hne : message.subject = remover
    · refine iff_of_true ?_ fun h => h.2.1 hne
      unfold chargeRemoval
      rw [if_neg (not_not.mpr hne)]
    · exact (chargeRemoval_eq_self_iff hne (hevents hne)).trans (not_congr ⟨fun h => ⟨hvet, hne, h⟩, fun h => h.2.2⟩)
  | applied _ hfresh => rw [hburied] at hfresh; cases hfresh

theorem redelivered_remove_iff (r : Roster) (message : RosterRemove) (remover : String) (now : SystemTime) :
    ((r.receiveRemove C message remover now).1.receiveRemove C message remover now).1 =
      (r.receiveRemove C message remover now).1 ↔ ¬ ChargesAgain C r remover (.remove message now) := by
  have hfirst := receiveRemove_cases C r message remover now
  generalize hafter : r.receiveRemove C message remover now = after at hfirst ⊢
  cases hfirst with
  | refused refusal ledger _ hnot =>
    refine iff_of_true ?_ fun h => hnot h.1
    show (r.receiveRemove C message remover now).1 = r
    rw [hafter]
  | aboutSelf hvet =>
    refine iff_of_true ?_ fun h => h.1.notSelf hvet.aboutSelf
    have hsecond := receiveRemove_cases C (r.evicted message remover) message remover now
    show ((r.evicted message remover).receiveRemove C message remover now).1 = r.evicted message remover
    generalize (r.evicted message remover).receiveRemove C message remover now = after at hsecond ⊢
    cases hsecond with
    | refused refusal ledger _ _ => rfl
    | aboutSelf _ => exact evicted_evicted r message remover
    | alreadyRemoved hvet' _ => exact absurd hvet.aboutSelf hvet'.notSelf
    | applied hvet' _ => exact absurd hvet.aboutSelf hvet'.notSelf
  | alreadyRemoved hvet ht =>
    refine receiveRemove_again_iff C hvet (quiet_chargeRemoval r _ _ _ _).selfId ?_
      (fun _ => hvet.chargeRemoval C _ _ _ _) _ charged_events
    rw [chargeRemoval_tombstones]; exact ht
  | applied hvet _ =>
    have hcharged := hvet.chargeRemoval C remover message.subject message.removedAt now
    have hquiet := (quiet_chargeRemoval r remover message.subject message.removedAt now).trans
      (quiet_applyTombstone _ message.subject message.reason message.removedAt remover message.epoch)
    refine receiveRemove_again_iff C hvet hquiet.selfId ?_ (fun hne => ?_) (r.churn.eventsOf remover) fun hne => ?_
    · rw [contains_applyTombstone]; simp
    · obtain ⟨key, hkey, hverifies⟩ := hcharged.signed
      refine ⟨hquiet.selfId ▸ hvet.notSelf, ?_, key, ?_, hverifies⟩
      · rw [isActive_applyTombstone, hcharged.removerActive]; simpa using hne
      · rw [identityOf_applyTombstone C _ _ _ _ _ _ hne]; exact hkey
    · rw [events_applyTombstone _ _ _ _ _ _ hne]
      exact charged_events hne

theorem redelivery_harmless_iff (r : Roster) (sender : String) (submission : Submission) :
    step C (step C r (submission.op C sender)) (submission.op C sender) = step C r (submission.op C sender) ↔
      ¬ ChargesAgain C r sender submission := by
  cases submission with
  | introduce message now => exact iff_of_true (redelivered_introduce C r message sender now) id
  | remove message now => exact redelivered_remove_iff C r message sender now
  | sync message => exact iff_of_true (redelivered_sync C r message sender) id
  | labels displayName memberGroup role => exact iff_of_true (redelivered_labels r sender _ _ _) id

/-- `b`'s signed removal of `c`, dated at the instant the runs here take place. -/
def removalOfC : RosterRemove :=
  ⟨"c", .removed, "2025-06-15T15:06:40Z", 1,
    Crypto.signText "kb" (.removal ⟨"c", .removed, "2025-06-15T15:06:40Z", 1⟩)⟩

def familyOfThree : Roster :=
  run Crypto.plain founder [introduction "b" "kb" "" "a" "ka", introduction "c" "kc" "" "a" "ka"]

theorem redelivered_removal_charges_again :
    ¬ ∀ r, Reachable Crypto.plain r → ∀ sender (submission : Submission),
      step Crypto.plain (step Crypto.plain r (submission.op Crypto.plain sender)) (submission.op Crypto.plain sender) =
        step Crypto.plain r (submission.op Crypto.plain sender) := by
  intro h
  have hr : Reachable Crypto.plain familyOfThree := (Reachable.born (.found _ _)).run _
  have hsame := h _ hr "b" (.remove removalOfC (.ofSecs 1750000000))
  have hcount := congrArg (fun s => (Roster.churn s).countInWindow "b" (.ofSecs 1750000000)) hsame
  exact absurd hcount (by decide +kernel)

end Roster

end Beacon
