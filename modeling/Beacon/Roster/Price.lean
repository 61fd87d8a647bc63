/-
  Beacon.Roster.Price — what a removal costs the member behind it, signed or announced.

  - `sync_costs_like_removal_iff`: a sync whose only news is one removal does what the
    signed removal does, to the family, the quarantine and the sender's budget, exactly if
    the signed one is dated before the day that counts and the sync reports no device the
    server's list has left open. `receive_sync` takes no clock and charges nobody, and it
    buries every recorded device reported removed, news or not.
-/

import Beacon.Roster.Edits
import Beacon.Roster.Tombstones
import Beacon.Roster.Agreement

namespace Beacon

open Lib Churn

namespace Roster

variable (C : Crypto)

/-! ## The two messages -/

/-- The sync reports `d` removed, and nothing else about a device that is active here. -/
structure OnlyNews (r : Roster) (message : RosterSync) (d : String) : Prop where
  digest : C.digestOf message.epoch message.devices = message.digest
  reported : ReportsRemoved message d
  only : ∀ e, ReportsRemoved message e → r.isActive e = true → e = d

/-- The same devices active, the same ids tombstoned, the same vouches held, and as many events of
    `signer` counted in every window that reaches back no further than the one ending at `now`. -/
structure SameEffect (signer : String) (now : SystemTime) (a b : Roster) : Prop where
  active : ∀ d, a.isActive d = b.isActive d
  tombstones : ∀ d, a.tombstones.contains d = b.tombstones.contains d
  held : a.held = b.held
  budget : ∀ c, cutoff now ≤ c → a.churn.countSince signer c = b.churn.countSince signer c

/-- The removal's date, read at `now`, lies in the window that ends then. -/
def Counted (message : RosterRemove) (now : SystemTime) : Prop :=
  cutoff now ≤ unixSeconds (clampToNow (timestampOr message.removedAt now) now)

/-! ## Quarantine follows the tombstones -/

/-- A removal and a sync drop from quarantine what they bury, and nothing else. -/
theorem held_removal_step {r : Roster} (hr : Reachable C r) (op : Op C) (hop : ¬ OnAdmission C op) (d : String) :
    (step C r op).held.get? d = if (step C r op).tombstones.contains d then none else r.held.get? d := by
  by_cases hd : (step C r op).tombstones.contains d = true
  · rw [if_pos hd, buriedUnheld_reachable C (.step op hr) d hd]
  · rw [if_neg hd]
    exact ((edits_step C hop).rel .refl .trans keepsHeld_of_edit).held d (by simpa using hd)

/-! ## The sender's budget -/

theorem eventsOf_mergeReported {message : RosterSync} {sender : String} {s : Merge} {reported : SyncDevice}
    {signer : String} (h : ¬ (reported.deviceId = signer ∧ reported.state = .removed)) :
    (mergeReported message sender s reported).roster.churn.eventsOf signer = s.roster.churn.eventsOf signer := by
  have hcases := mergeReported_cases message sender s reported
  generalize mergeReported message sender s reported = after at hcases ⊢
  cases hcases with
  | ignored _ _ _ _ => rfl
  | noted _ _ _ => rfl
  | buried hremoved _ _ _ => exact (ChurnLog.eventsOf_forget _ _ _).trans (if_neg fun he => h ⟨he, hremoved⟩)

/-- A merge leaves the history of every member it does not report removed. -/
theorem eventsOf_merged {r : Roster} {message : RosterSync} {sender signer : String}
    (h : ¬ ReportsRemoved message signer) :
    (r.merged message sender).churn.eventsOf signer = r.churn.eventsOf signer := by
  have hloop : ∀ (l : List SyncDevice) (s : Merge), (∀ reported ∈ l, reported ∈ message.devices) →
      (l.foldl (mergeReported message sender) s).roster.churn.eventsOf signer = s.roster.churn.eventsOf signer := by
    intro l
    induction l with
    | nil => exact fun _ _ => rfl
    | cons reported l ih =>
      intro s hl
      rw [List.foldl_cons, ih _ fun b hb => hl b (List.mem_cons_of_mem _ hb)]
      refine eventsOf_mergeReported fun hhit => h ⟨reported, hl reported List.mem_cons_self, hhit⟩
  exact hloop message.devices ⟨r, [], [], 0⟩ fun _ h => h

theorem countSince_receiveRemove {r : Roster} {message : RosterRemove} {remover : String} {now : SystemTime}
    (hvet : RemovalVetted C r message remover) (hother : message.subject ≠ remover) {c : Int64}
    (hc : cutoff now ≤ c) :
    (r.receiveRemove C message remover now).1.churn.countSince remover c =
      r.churn.countSince remover c +
        if c ≤ unixSeconds (clampToNow (timestampOr message.removedAt now) now) then 1 else 0 := by
  have hcharged : (r.chargeRemoval remover message.subject message.removedAt now).churn =
      r.churn.record remover (timestampOr message.removedAt now) now := by
    unfold chargeRemoval
    rw [if_pos hother]
  have hcases := receiveRemove_cases C r message remover now
  generalize r.receiveRemove C message remover now = after at hcases ⊢
  cases hcases with
  | refused _ _ _ hnot => exact absurd hvet hnot
  | aboutSelf hevicted => exact absurd hevicted.aboutSelf hvet.notSelf
  | alreadyRemoved _ _ => rw [hcharged, ChurnLog.countSince_record _ _ _ _ hc]
  | applied _ _ =>
    show ((r.chargeRemoval remover message.subject message.removedAt now).churn.forget message.subject).countSince
      remover c = _
    rw [ChurnLog.countSince_forget_ne _ hother, hcharged, ChurnLog.countSince_record _ _ _ _ hc]

/-! ## Signed and announced -/

section

variable {r : Roster} {sender d : String} {message : RosterSync} {removal : RosterRemove}

theorem merges_of_onlyNews (hsender : r.isActive sender = true) (hactive : r.isActive d = true)
    (h : OnlyNews C r message d) : Merges C r message sender :=
  ⟨h.digest, hsender, differs_of_active h.reported hactive⟩

theorem isActive_receiveRemove (hvet : RemovalVetted C r removal sender) (now : SystemTime) (e : String) :
    (r.receiveRemove C removal sender now).1.isActive e = true ↔
      r.isActive e = true ∧ ¬ (removal.subject = e ∧ r.tombstones.contains e = false) := by
  have hcases := receiveRemove_cases C r removal sender now
  generalize r.receiveRemove C removal sender now = after at hcases ⊢
  cases hcases with
  | refused _ _ _ hnot => exact absurd hvet hnot
  | aboutSelf hevicted => exact absurd hevicted.aboutSelf hvet.notSelf
  | alreadyRemoved _ hburied =>
    rw [isActive_chargeRemoval]
    refine ⟨fun h => ⟨h, fun hnew => ?_⟩, And.left⟩
    rw [hnew.1, hnew.2] at hburied
    cases hburied
  | applied _ hfresh =>
    rw [isActive_applyTombstone, isActive_chargeRemoval, Bool.and_eq_true, decide_eq_true_eq]
    refine and_congr_right fun _ => ⟨fun hne hnew => hne hnew.1, fun hnew he => hnew ⟨he, he ▸ hfresh⟩⟩

theorem isActive_sync_eq (hsender : r.isActive sender = true) (hactive : r.isActive d = true)
    (hnews : OnlyNews C r message d) (hsubject : removal.subject = d) (hvet : RemovalVetted C r removal sender)
    (now : SystemTime) (e : String) :
    (r.receiveSync C message sender).1.isActive e = (r.receiveRemove C removal sender now).1.isActive e := by
  have hmerges := merges_of_onlyNews C hsender hactive hnews
  rw [Bool.eq_iff_iff, isActive_receiveSync, isActive_receiveRemove C hvet]
  refine and_congr_right fun he => not_congr ⟨fun h => ⟨?_, h.2.2.2⟩, fun h => ?_⟩
  · rw [hsubject, hnews.only e h.2.1 he]
  · obtain ⟨hsame, hfresh⟩ := h
    rw [← hsame] at hfresh ⊢
    exact ⟨hmerges, hsubject ▸ hnews.reported, hvet.notSelf, hfresh⟩

theorem tombstones_sync_iff (hsender : r.isActive sender = true) (hactive : r.isActive d = true)
    (hnews : OnlyNews C r message d) (hsubject : removal.subject = d) (hvet : RemovalVetted C r removal sender)
    (now : SystemTime) :
    (∀ e, (r.receiveSync C message sender).1.tombstones.contains e =
        (r.receiveRemove C removal sender now).1.tombstones.contains e) ↔
      ∀ e, ReportsRemoved message e → e ≠ r.selfId → ¬ LeftOpen r e := by
  have hmerges := merges_of_onlyNews C hsender hactive hnews
  have hsync := buried_receiveSync C r message sender
  have hremoval := buried_receiveRemove C r removal sender now
  constructor
  · intro hsame e hreported hself hopen
    obtain ⟨hrecorded, hinactive, hfresh⟩ := hopen
    have hburied : (r.receiveRemove C removal sender now).1.tombstones.contains e = true := by
      rw [← hsame e, hsync]
      exact Or.inr ⟨hmerges, hreported, hself, hrecorded⟩
    rcases (hremoval e).mp hburied with hbefore | ⟨hnew, -⟩
    · rw [hfresh] at hbefore; cases hbefore
    · rw [← hnew, hsubject, hactive] at hinactive; cases hinactive
  · intro hopen e
    rw [Bool.eq_iff_iff, hsync, hremoval]
    by_cases hbefore : r.tombstones.contains e = true
    · exact iff_of_true (Or.inl hbefore) (Or.inl hbefore)
    refine or_congr_right ⟨fun h => ⟨?_, hvet⟩, fun h => ?_⟩
    · obtain ⟨-, hreported, hself, hrecorded⟩ := h
      have hstill : r.isActive e = true := by
        by_contra hinactive
        exact hopen e hreported hself ⟨hrecorded, by simpa using hinactive, by simpa using hbefore⟩
      rw [hsubject, hnews.only e hreported hstill]
    · rw [← h.1]
      exact ⟨hmerges, hsubject ▸ hnews.reported, hvet.notSelf, contains_devices_of_isActive (hsubject ▸ hactive)⟩

end

theorem sync_costs_like_removal_iff {r : Roster} (hr : Reachable C r) {sender d : String}
    (hsender : r.isActive sender = true) (hactive : r.isActive d = true) (hother : d ≠ sender) {message : RosterSync}
    (hnews : OnlyNews C r message d) {removal : RosterRemove} (hsubject : removal.subject = d)
    (hvet : RemovalVetted C r removal sender) (now : SystemTime) :
    SameEffect sender now (r.receiveSync C message sender).1 (r.receiveRemove C removal sender now).1 ↔
      ¬ Counted removal now ∧ ∀ e, ReportsRemoved message e → e ≠ r.selfId → ¬ LeftOpen r e := by
  have htombstones := tombstones_sync_iff C hsender hactive hnews hsubject hvet now
  have hsync : ∀ c, (r.receiveSync C message sender).1.churn.countSince sender c = r.churn.countSince sender c := by
    have hcases := receiveSync_cases C r message sender
    generalize r.receiveSync C message sender = after at hcases ⊢
    cases hcases with
    | unmerged _ hnot => exact absurd (merges_of_onlyNews C hsender hactive hnews) hnot
    | merged _ =>
      have hnot : ¬ ReportsRemoved message sender := fun h => hother (hnews.only sender h hsender).symm
      exact fun c => by rw [ChurnLog.countSince, eventsOf_merged hnot, ChurnLog.countSince]
  have hremoval := fun {c : Int64} (hc : cutoff now ≤ c) => countSince_receiveRemove C hvet (hsubject ▸ hother) hc
  constructor
  · intro h
    refine ⟨fun hcounted => ?_, htombstones.mp h.tombstones⟩
    have hbudget := h.budget (cutoff now) (Int64.le_refl _)
    have hone := hremoval (Int64.le_refl (cutoff now))
    rw [if_pos (show cutoff now ≤ _ from hcounted)] at hone
    rw [hsync, hone] at hbudget
    omega
  · intro h
    obtain ⟨huncounted, hopen⟩ := h
    have hsame := htombstones.mpr hopen
    refine ⟨isActive_sync_eq C hsender hactive hnews hsubject hvet now, hsame, ?_, fun c hc => ?_⟩
    · -- both drop from quarantine what they bury
      ext e : 1
      have hsynced := held_removal_step C hr (.receiveSync message sender) id e
      have hremoved := held_removal_step C hr (.receiveRemove removal sender now) id e
      show (step C r (.receiveSync message sender)).held.get? e = (step C r (.receiveRemove removal sender now)).held.get? e
      rw [hsynced, hremoved]
      exact congrArg (fun b : Bool => if b then none else r.held.get? e) (hsame e)
    · rw [hsync, hremoval hc, if_neg]
      · rfl
      · exact fun hstamp => huncounted (ChurnLog.int64_le_trans hc hstamp)

/-- `a`, with `b` and `d` in the family. -/
def withBAndD : Roster := run Crypto.plain founder [introduction "b" "kb" "" "a" "ka", introduction "d" "kd" "" "a" "ka"]

/-- The family as `b` reports it, `d` removed. -/
def dRemovedSync : RosterSync :=
  let devices : List SyncDevice := [⟨"a", "ka", .active⟩, ⟨"b", "kb", .active⟩, ⟨"d", "kd", .removed⟩]
  ⟨0, devices, Crypto.plain.digestOf 0 devices⟩

/-- `b`'s removal of `d`. -/
def dRemovedBy (removedAt : String) : RosterRemove :=
  ⟨"d", .lost, removedAt, 1, Crypto.signText "kb" (.removal ⟨"d", .lost, removedAt, 1⟩)⟩

theorem onlyNews_dRemovedSync : OnlyNews Crypto.plain withBAndD dRemovedSync "d" := by
  refine ⟨by decide +kernel, ⟨⟨"d", "kd", .removed⟩, by decide +kernel, rfl, rfl⟩, fun e h _ => ?_⟩
  obtain ⟨reported, hmem, rfl, hremoved⟩ := h
  simp only [dRemovedSync, List.mem_cons, List.not_mem_nil, or_false] at hmem
  rcases hmem with rfl | rfl | rfl
  · cases hremoved
  · cases hremoved
  · rfl

theorem sync_removes_for_free :
    ¬ ∀ r, Reachable Crypto.plain r → ∀ sender d, r.isActive sender = true → r.isActive d = true → d ≠ sender →
      ∀ message, OnlyNews Crypto.plain r message d → ∀ removal : RosterRemove, removal.subject = d →
      RemovalVetted Crypto.plain r removal sender → ∀ now,
      SameEffect sender now (r.receiveSync Crypto.plain message sender).1
        (r.receiveRemove Crypto.plain removal sender now).1 := by
  intro h
  have hsame := h withBAndD ((Reachable.born (.found _ _)).run _) "b" "d" (by decide +kernel) (by decide +kernel)
    (by decide) dRemovedSync onlyNews_dRemovedSync (dRemovedBy "") rfl
    ⟨by decide +kernel, by decide +kernel, "kb", by decide +kernel, by decide +kernel⟩ (.ofSecs 1750000000)
  exact absurd (hsame.budget (cutoff (.ofSecs 1750000000)) (Int64.le_refl _)) (by decide +kernel)

theorem old_removal_costs_nothing :
    SameEffect "b" (.ofSecs 1750000000) (withBAndD.receiveSync Crypto.plain dRemovedSync "b").1
        (withBAndD.receiveRemove Crypto.plain (dRemovedBy "2025-06-13T00:00:00Z") "b" (.ofSecs 1750000000)).1 ↔
      ¬ Counted (dRemovedBy "2025-06-13T00:00:00Z") (.ofSecs 1750000000) ∧
        ∀ e, ReportsRemoved dRemovedSync e → e ≠ withBAndD.selfId → ¬ LeftOpen withBAndD e :=
  sync_costs_like_removal_iff Crypto.plain ((Reachable.born (.found _ _)).run _) (by decide +kernel)
    (by decide +kernel) (by decide) onlyNews_dRemovedSync rfl
    ⟨by decide +kernel, by decide +kernel, "kb", by decide +kernel, by decide +kernel⟩ _

end Roster

end Beacon
