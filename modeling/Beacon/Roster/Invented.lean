/-
  Beacon.Roster.Invented — the entries an operation returns against what it changed.

  The entries come from shared helpers that look at the state they leave and not at the
  one they found, so a write that writes what is there already is reported again.
  - `ledger_invents_nothing_iff`: an operation returns an entry for something that did not
    happen exactly if it `Invents`: a removal of this device told again, a removal at no
    later epoch than the roster's, an own removal of a device that was buried already, an
    approval of an active device, and a sync that buries at no later epoch or tells of a
    split that is known.
-/

import Beacon.Roster.Epochs
import Beacon.Roster.Ledgering

namespace Beacon

open Lib

namespace Roster

variable (C : Crypto)

/-- What the entry reports came about between `r` and `r'`. -/
def Justified (r r' : Roster) (entry : LedgerEntry) : Prop :=
  match entry.event with
  | .epochBumped e => r.epoch < r'.epoch ∧ r'.epoch = e
  | .familySplit peer => peer ∉ r.splits ∧ peer ∈ r'.splits
  | .deviceJoined _ => r.isActive entry.peer = false ∧ r'.isActive entry.peer = true
  | .deviceRemoved _ _ =>
    (r.isActive entry.peer = true ∧ r'.isActive entry.peer = false) ∨
      (r.tombstones.contains entry.peer = false ∧ r'.tombstones.contains entry.peer = true) ∨
      (r.removedMe.contains entry.peer = false ∧ r'.removedMe.contains entry.peer = true)
  | _ => True

/-- The operation reports what did not come about. -/
def Invents (r : Roster) : Op C → Prop
  | .approveHeld subject =>
    ∃ h, r.held.get? subject = some h ∧ r.isActive h.introducer = true ∧ r.tombstones.contains subject = false ∧
      r.isActive subject = true
  | .receiveRemove message remover _ =>
    (EvictionVetted C r message remover ∧ r.removedMe.contains remover = true) ∨
      (RemovalVetted C r message remover ∧ r.tombstones.contains message.subject = false ∧ message.epoch ≤ r.epoch)
  | .remove subject _ _ _ _ =>
    r.isActive r.selfId = true ∧ (r.epoch = lastEpoch ∨ r.tombstones.contains subject = true ∧
      (r.isActive subject = false ∨ r.removedMe.contains subject = true))
  | .receiveSync message sender =>
    Merges C r message sender ∧
      ((message.epoch ≤ r.epoch ∧ ∃ d, ReportsRemoved message d ∧ d ≠ r.selfId ∧ r.devices.contains d = true ∧
          r.tombstones.contains d = false) ∨
        (ReportsRemoved message r.selfId ∧ r.devices.contains r.selfId = true ∧ sender ∈ r.splits))
  | _ => False

/-! ## What each write reports -/

section Writes

variable {r r' : Roster}

/-- A charge that changes nothing an entry is about changes no entry's standing. -/
theorem justified_congr {s : Roster} (h : Unchanged r s) (entry : LedgerEntry) :
    Justified s r' entry ↔ Justified r r' entry := by
  have hsplits : s.splits = r.splits := by rw [splits, splits, h.tombstones, h.removedMe]
  unfold Justified
  rw [h.tombstones, h.epoch, h.removedMe, hsplits, h.active]

theorem mem_splitLedger {entry : LedgerEntry} {peer : String} :
    entry ∈ r.splitLedger peer ↔ peer ∈ r.splits ∧ entry = .localDecision peer (.familySplit peer) := by
  rw [mem_splits]
  unfold splitLedger
  split
  · rename_i hboth
    simpa using fun _ => by simpa using hboth
  · rename_i hnot
    simp only [List.not_mem_nil, false_iff]
    intro h
    exact hnot (by simp [h.1])

theorem justified_splitLedger_iff (peer : String) :
    (∀ entry ∈ r'.splitLedger peer, Justified r r' entry) ↔ (peer ∈ r'.splits → peer ∉ r.splits) := by
  constructor
  · intro h hsplit
    exact (h _ (mem_splitLedger.mpr ⟨hsplit, rfl⟩)).1
  · intro h entry hentry
    obtain ⟨hsplit, rfl⟩ := mem_splitLedger.mp hentry
    exact ⟨h hsplit, hsplit⟩

theorem lt_epoch_max_iff (a b : UInt64) : a < max a b ↔ a < b := by
  rw [UInt64.lt_iff_toNat_lt, UInt64.lt_iff_toNat_lt, toNat_epoch_max]
  omega

/-- A burial reports the removal, the epoch and, where there is one, the split. -/
theorem justified_applyTombstone_iff (r : Roster) (subject : String) (reason : RemovalReason)
    (removedAt removedBy : String) (epoch : UInt64) :
    (∀ entry ∈ (r.applyTombstone subject reason removedAt removedBy epoch).2,
      Justified r (r.applyTombstone subject reason removedAt removedBy epoch).1 entry) ↔
    r.epoch < epoch ∧ (r.tombstones.contains subject = true →
      r.isActive subject = true ∧ r.removedMe.contains subject = false) := by
  let r' := (r.applyTombstone subject reason removedAt removedBy epoch).1
  have hactive : r'.isActive subject = false := by
    rw [isActive_applyTombstone]
    simp
  have hburied : r'.tombstones.contains subject = true := by
    rw [contains_applyTombstone]
    simp
  have hentries : (∀ entry ∈ (r.applyTombstone subject reason removedAt removedBy epoch).2, Justified r r' entry) ↔
      Justified r r' (.inbound subject none (.deviceRemoved removedBy reason)) ∧
      Justified r r' (.localDecision subject (.epochBumped r'.epoch)) ∧
      ∀ entry ∈ r'.splitLedger subject, Justified r r' entry := by
    show (∀ entry ∈ [_, _] ++ r'.splitLedger subject, Justified r r' entry) ↔ _
    rw [List.forall_mem_append, List.forall_mem_cons, List.forall_mem_singleton, and_assoc]
    exact Iff.rfl
  have hremoved : Justified r r' (.inbound subject none (.deviceRemoved removedBy reason)) ↔
      r.isActive subject = true ∨ r.tombstones.contains subject = false := by
    show (r.isActive subject = true ∧ r'.isActive subject = false) ∨
      (r.tombstones.contains subject = false ∧ r'.tombstones.contains subject = true) ∨
      (r.removedMe.contains subject = false ∧ r.removedMe.contains subject = true) ↔ _
    rw [hactive, hburied]
    cases r.removedMe.contains subject <;> simp
  have hbumped : Justified r r' (.localDecision subject (.epochBumped r'.epoch)) ↔ r.epoch < epoch := by
    show r.epoch < max r.epoch epoch ∧ r'.epoch = r'.epoch ↔ _
    rw [lt_epoch_max_iff, and_iff_left rfl]
  have hsplit : (subject ∈ r'.splits → subject ∉ r.splits) ↔
      (r.tombstones.contains subject = true → r.removedMe.contains subject = false) := by
    rw [mem_splits, mem_splits, hburied]
    show (r.removedMe.contains subject = true ∧ _ → _) ↔ _
    cases r.removedMe.contains subject <;> simp
  show (∀ entry ∈ (r.applyTombstone subject reason removedAt removedBy epoch).2, Justified r r' entry) ↔ _
  rw [hentries, hremoved, hbumped, justified_splitLedger_iff, hsplit]
  cases r.tombstones.contains subject <;> cases r.isActive subject <;> simp

/-- A removal of this device reports its remover and, where there is one, the split. -/
theorem justified_evicted_iff (r : Roster) (message : RosterRemove) (remover : String) (reason : RemovalReason) :
    (∀ entry ∈ .inbound remover none (.deviceRemoved remover reason) ::
        (r.evicted message remover).splitLedger remover, Justified r (r.evicted message remover) entry) ↔
      r.removedMe.contains remover = false := by
  have hnoted : (r.evicted message remover).removedMe.contains remover = true :=
    (contains_insert_iff r.removedMe remover remover).mpr (Or.inl rfl)
  have hremoved : Justified r (r.evicted message remover) (.inbound remover none (.deviceRemoved remover reason)) ↔
      r.removedMe.contains remover = false := by
    show (r.isActive remover = true ∧ r.isActive remover = false) ∨
      (r.tombstones.contains remover = false ∧ r.tombstones.contains remover = true) ∨
      (r.removedMe.contains remover = false ∧ (r.evicted message remover).removedMe.contains remover = true) ↔ _
    rw [hnoted]
    cases r.isActive remover <;> cases r.tombstones.contains remover <;> simp
  rw [List.forall_mem_cons, hremoved, justified_splitLedger_iff, and_iff_left_iff_imp]
  intro hnew _ hsplit
  rw [(mem_splits.mp hsplit).1] at hnew
  cases hnew

end Writes

/-! ## A merge -/

/-- How far the loop over `message`'s reports has taken `r` before it stands at `s`. -/
structure Underway (r : Roster) (message : RosterSync) (s : Roster) : Prop where
  selfId : s.selfId = r.selfId
  known : ∀ d, s.devices.contains d = r.devices.contains d
  buried : ∀ d, r.tombstones.contains d = true → s.tombstones.contains d = true
  removedMe : ∀ d, r.removedMe.contains d = true → s.removedMe.contains d = true
  forward : r.epoch ≤ s.epoch
  epoch : max s.epoch message.epoch = max r.epoch message.epoch

/-- What an entry of the merge tells, from the roster it began with to where it stands. -/
def Traced (r : Roster) (message : RosterSync) (sender : String) (s : Roster) (entry : LedgerEntry) : Prop :=
  match entry.event with
  | .epochBumped e =>
    e = max r.epoch message.epoch ∧ ∃ d, r.tombstones.contains d = false ∧ s.tombstones.contains d = true
  | .familySplit peer =>
    peer ∈ s.splits ∧ (peer ∈ r.splits → peer = sender ∧ ReportsRemoved message r.selfId ∧
      r.devices.contains r.selfId = true)
  | .deviceJoined _ => False
  | .deviceRemoved _ _ => r.tombstones.contains entry.peer = false ∧ s.tombstones.contains entry.peer = true
  | _ => True

/-- The state of the loop, with its entries. -/
structure Accounted (r : Roster) (message : RosterSync) (sender : String) (s : Merge) : Prop where
  underway : Underway r message s.roster
  traced : ∀ entry ∈ s.ledger, Traced r message sender s.roster entry
  bumped : ∀ d, r.tombstones.contains d = false → s.roster.tombstones.contains d = true →
    ∃ entry ∈ s.ledger, ∃ e, entry.event = .epochBumped e

section Merge

variable {r : Roster} {message : RosterSync} {sender : String}

theorem Traced.later {s t : Roster} {entry : LedgerEntry} (h : Traced r message sender s entry)
    (hburied : ∀ d, s.tombstones.contains d = true → t.tombstones.contains d = true)
    (hme : ∀ d, s.removedMe.contains d = true → t.removedMe.contains d = true) : Traced r message sender t entry := by
  unfold Traced at h ⊢
  split at h
  · exact ⟨h.1, h.2.imp fun d hd => ⟨hd.1, hburied d hd.2⟩⟩
  · obtain ⟨hsplit, hknown⟩ := h
    obtain ⟨hm, ht⟩ := mem_splits.mp hsplit
    exact ⟨mem_splits.mpr ⟨hme _ hm, hburied _ ht⟩, hknown⟩
  · exact h.elim
  · exact ⟨h.1, hburied _ h.2⟩
  · trivial

theorem underway_refl (r : Roster) (message : RosterSync) : Underway r message r :=
  ⟨rfl, fun _ => rfl, fun _ h => h, fun _ h => h, UInt64.le_refl _, rfl⟩

theorem underway_mergeReported {s : Merge} (h : Underway r message s.roster) (reported : SyncDevice) :
    Underway r message (mergeReported message sender s reported).roster := by
  have hforward := forward_mergeReported message sender s reported
  refine ⟨?_, fun d => ?_, fun d hd => ?_, fun d hd => ?_, UInt64.le_trans h.forward hforward.epoch, ?_⟩
  · rw [mergeReported_selfId, h.selfId]
  · rw [(quiet_mergeReported message sender s reported).contains_devices, h.known]
  · rw [buried_mergeReported]
    exact Or.inl (h.buried d hd)
  · rw [removedMe_mergeReported]
    exact Or.inl (h.removedMe d hd)
  · rw [max_epoch_mergeReported, h.epoch]

theorem accounted_mergeReported {s : Merge} (h : Accounted r message sender s) {reported : SyncDevice}
    (hreported : reported ∈ message.devices) : Accounted r message sender (mergeReported message sender s reported) := by
  have hunderway : Underway r message (mergeReported message sender s reported).roster :=
    underway_mergeReported h.underway reported
  have hburied : ∀ d, s.roster.tombstones.contains d = true →
      (mergeReported message sender s reported).roster.tombstones.contains d = true :=
    fun d hd => (buried_mergeReported message sender s reported d).mpr (Or.inl hd)
  have hme : ∀ d, s.roster.removedMe.contains d = true →
      (mergeReported message sender s reported).roster.removedMe.contains d = true :=
    fun d hd => (removedMe_mergeReported message sender s reported d).mpr (Or.inl hd)
  have hold : ∀ entry ∈ s.ledger, Traced r message sender (mergeReported message sender s reported).roster entry :=
    fun entry hentry => (h.traced entry hentry).later hburied hme
  refine ⟨hunderway, ?_, ?_⟩
  · have hcases := mergeReported_cases message sender s reported
    generalize mergeReported message sender s reported = after at hcases hunderway hold ⊢
    intro entry hentry
    cases hcases with
    | ignored _ ledger hanomaly _ =>
      rcases List.mem_append.mp hentry with hentry | hentry
      · exact hold entry hentry
      · obtain ⟨reason, hevent⟩ := hanomaly entry hentry
        simp [Traced, hevent]
    | noted hrem hself hknown =>
      rcases List.mem_append.mp hentry with hentry | hentry
      · exact hold entry hentry
      · obtain ⟨hsplit, rfl⟩ := mem_splitLedger.mp hentry
        refine ⟨hsplit, fun _ => ⟨rfl, ⟨reported, hreported, ?_, hrem⟩, ?_⟩⟩
        · rw [hself, h.underway.selfId]
        · rw [← h.underway.known, ← h.underway.selfId, ← hself, hknown]
    | buried hrem hself hknown hfresh =>
      have hnew : r.tombstones.contains reported.deviceId = false := by
        by_contra ht
        rw [h.underway.buried _ (by simpa using ht)] at hfresh
        cases hfresh
      have hnow : (s.roster.applyTombstone reported.deviceId .removed "" sender
          (max s.roster.epoch message.epoch)).1.tombstones.contains reported.deviceId = true := by
        rw [contains_applyTombstone]
        simp
      rcases List.mem_append.mp hentry with hentry | hentry
      · exact hold entry hentry
      · rcases List.mem_append.mp hentry with hentry | hentry
        · rcases List.mem_cons.mp hentry with rfl | hentry
          · exact ⟨hnew, hnow⟩
          · rw [List.mem_singleton] at hentry
            subst hentry
            refine ⟨?_, reported.deviceId, hnew, hnow⟩
            show max s.roster.epoch (max s.roster.epoch message.epoch) = _
            rw [← h.underway.epoch, ← UInt64.toNat_inj]
            simp only [toNat_epoch_max]
            omega
        · obtain ⟨hsplit, rfl⟩ := mem_splitLedger.mp hentry
          refine ⟨hsplit, fun hbefore => ?_⟩
          rw [(mem_splits.mp hbefore).2] at hnew
          cases hnew
  · have hcases := mergeReported_cases message sender s reported
    generalize mergeReported message sender s reported = after at hcases ⊢
    intro d hnew hd
    cases hcases with
    | ignored _ _ _ _ =>
      obtain ⟨entry, hentry, hevent⟩ := h.bumped d hnew hd
      exact ⟨entry, List.mem_append_left _ hentry, hevent⟩
    | noted _ _ _ =>
      obtain ⟨entry, hentry, hevent⟩ := h.bumped d hnew hd
      exact ⟨entry, List.mem_append_left _ hentry, hevent⟩
    | buried _ _ _ _ =>
      exact ⟨_, List.mem_append_right _ (List.mem_append_left _ (List.mem_cons_of_mem _ List.mem_cons_self)), _, rfl⟩

theorem accounted_mergeDevices (r : Roster) (message : RosterSync) (sender : String) :
    Accounted r message sender (r.mergeDevices message sender) := by
  have hstart : Accounted r message sender ⟨r, [], [], 0⟩ := by
    refine ⟨underway_refl r message, fun _ hentry => ?_, fun d hnew hd => ?_⟩
    · cases hentry
    · rw [show r.tombstones.contains d = true from hd] at hnew
      cases hnew
  suffices h : ∀ (l : List SyncDevice) (s : Merge), (∀ b ∈ l, b ∈ message.devices) → Accounted r message sender s →
      Accounted r message sender (l.foldl (mergeReported message sender) s) from
    h _ _ (fun _ hb => hb) hstart
  intro l
  induction l with
  | nil => exact fun _ _ hs => hs
  | cons b l ih =>
    intro s hl hs
    exact ih _ (fun b' hb' => hl b' (List.mem_cons_of_mem _ hb')) (accounted_mergeReported hs (hl b List.mem_cons_self))

/-- A report of this device's removal is ledgered as a split whenever there is one. -/
theorem split_reported (hsplit : sender ∈ r.splits) (hself : ReportsRemoved message r.selfId)
    (hknown : r.devices.contains r.selfId = true) :
    .localDecision sender (.familySplit sender) ∈ (r.mergeDevices message sender).ledger := by
  suffices h : ∀ (l : List SyncDevice) (s : Merge), Underway r message s.roster →
      (.localDecision sender (.familySplit sender) ∈ s.ledger ∨
        ∃ b ∈ l, b.deviceId = r.selfId ∧ b.state = .removed) →
      .localDecision sender (.familySplit sender) ∈ (l.foldl (mergeReported message sender) s).ledger from
    h _ ⟨r, [], [], 0⟩ (underway_refl r message) (Or.inr hself)
  intro l
  induction l with
  | nil =>
    intro s _ h
    rcases h with h | ⟨_, h, _⟩
    · exact h
    · cases h
  | cons b l ih =>
    intro s hs h
    refine ih _ (underway_mergeReported hs b) ?_
    have hcases := mergeReported_cases message sender s b
    generalize mergeReported message sender s b = after at hcases ⊢
    rcases h with h | ⟨b', hb', hd, hrem⟩
    · left
      cases hcases <;> exact List.mem_append_left _ h
    rcases List.mem_cons.mp hb' with rfl | hb'
    · -- the report about this device: the sender's tombstone is there, so the split is told
      left
      have hd' : b'.deviceId = s.roster.selfId := hd.trans hs.selfId.symm
      have hk' : s.roster.devices.contains b'.deviceId = true := by rw [hs.known, hd, hknown]
      cases hcases with
      | ignored _ _ _ hnot => exact absurd ⟨hrem, hk', Or.inl hd'⟩ hnot
      | noted _ _ _ =>
        refine List.mem_append_right _ (mem_splitLedger.mpr ⟨mem_splits.mpr ⟨?_, ?_⟩, rfl⟩)
        · exact (contains_insert_iff _ _ _).mpr (Or.inl rfl)
        · exact hs.buried sender (mem_splits.mp hsplit).2
      | buried _ hne _ _ => exact absurd hd' hne
    · exact Or.inr ⟨b', hb', hd, hrem⟩

end Merge

/-! ## Operation by operation -/

theorem justified_receiveIntroduce (r : Roster) (message : RosterIntroduce) (introducer : String) (now : SystemTime) :
    ∀ entry ∈ (r.receiveIntroduce C message introducer now).2.ledger,
      Justified r (r.receiveIntroduce C message introducer now).1 entry := by
  have hcases := receiveIntroduce_cases C r message introducer now
  generalize r.receiveIntroduce C message introducer now = after at hcases ⊢
  intro entry hentry
  cases hcases with
  | refused refusal _ =>
    rw [List.mem_singleton.mp hentry]
    trivial
  | alreadyKnown _ _ => cases hentry
  | held _ _ _ =>
    rw [List.mem_singleton.mp hentry]
    trivial
  | admitted _ hinactive _ =>
    rw [List.mem_singleton.mp hentry]
    refine ⟨hinactive, ?_⟩
    show (_ : Roster).isActive message.subject.deviceId = true
    rw [isActive_admitDevice]
    simp

theorem justified_approveHeld_iff (r : Roster) (subject : String) :
    (∀ entry ∈ (r.approveHeld subject).2.ledger, Justified r (r.approveHeld subject).1 entry) ↔
      ¬ Invents C r (.approveHeld subject) := by
  unfold approveHeld
  cases hheld : r.held.get? subject with
  | none => simp [Invents, hheld]
  | some h =>
    simp only []
    by_cases hi : r.isActive h.introducer = true
    swap
    · rw [if_pos (by simpa [isActive] using hi)]
      refine iff_of_true (fun entry hentry => ?_) fun hinvents => ?_
      · simp only [List.mem_cons, List.not_mem_nil, or_false] at hentry
        rcases hentry with rfl | rfl <;> trivial
      · obtain ⟨h', hh, hactive, -⟩ := hinvents
        rw [hheld] at hh
        cases hh
        exact hi hactive
    rw [if_neg (by simpa [isActive] using hi)]
    by_cases ht : r.tombstones.contains subject = true
    · rw [if_pos ht]
      refine iff_of_true (fun entry hentry => ?_) fun hinvents => ?_
      · simp only [List.mem_cons, List.not_mem_nil, or_false] at hentry
        rcases hentry with rfl | rfl <;> trivial
      · obtain ⟨h', -, -, hfresh, -⟩ := hinvents
        rw [ht] at hfresh
        cases hfresh
    rw [if_neg ht]
    have hsubject : h.message.subject.deviceId = subject := held_subject hheld
    have hafter : ({ r with held := r.held.erase subject }.admitDevice h.message.subject h.introducer).1.isActive
        subject = true := by
      rw [isActive_admitDevice]
      simp [hsubject]
    -- the resolution is always told truly; the admission only of a device that was out
    show (∀ entry ∈ [_, _], Justified r _ entry) ↔ _
    rw [List.forall_mem_cons, List.forall_mem_singleton]
    have hjoined : Justified r ({ r with held := r.held.erase subject }.admitDevice h.message.subject h.introducer).1
        (.inbound h.message.subject.deviceId none (.deviceJoined h.introducer)) ↔ r.isActive subject = false := by
      show r.isActive h.message.subject.deviceId = false ∧ _ ↔ _
      rw [hsubject]
      exact and_iff_left hafter
    rw [hjoined, ← Bool.not_eq_true]
    constructor
    · intro hout hinvents
      obtain ⟨-, -, -, -, hin⟩ := hinvents
      exact hout.2 hin
    · intro hnot
      exact ⟨trivial, fun hin => hnot ⟨h, hheld, hi, by simpa using ht, hin⟩⟩

theorem justified_denyHeld (r : Roster) (subject : String) :
    ∀ entry ∈ (r.denyHeld subject).2.ledger, Justified r (r.denyHeld subject).1 entry := by
  unfold denyHeld
  split
  · simp
  · intro entry hentry
    rw [List.mem_singleton.mp hentry]
    trivial

/-- A refused removal is ledgered as refused. -/
theorem justified_refused (r r' : Roster) (message : RosterRemove) (remover : String) (now : SystemTime)
    (refusal : RemovalRefusal) : (r.receiveRemove C message remover now).2.outcome = .refused refusal →
      ∀ entry ∈ (r.receiveRemove C message remover now).2.ledger, Justified r r' entry := by
  have hone : ∀ reason, ∀ entry ∈ [LedgerEntry.inbound message.subject none (.vouchRejected reason)],
      Justified r r' entry := by
    intro reason entry hentry
    rw [List.mem_singleton] at hentry
    subst hentry
    trivial
  unfold receiveRemove receiveRemovalOfSelf
  simp only []
  intro h
  split
  · split
    · exact hone _
    · split
      · exact hone _
      · rename_i hself _ key hkey hv
        rw [if_pos hself, hkey] at h
        simp only [if_neg hv] at h
        cases h
  · rename_i hself
    rw [if_neg hself] at h
    split
    · exact hone _
    · split
      · exact hone _
      · split
        · exact hone _
        · rename_i hactive _ key hkey hv
          rw [if_neg hactive, hkey] at h
          simp only [if_neg hv] at h
          split at h <;> cases h

theorem justified_receiveRemove_iff (r : Roster) (message : RosterRemove) (remover : String) (now : SystemTime) :
    (∀ entry ∈ (r.receiveRemove C message remover now).2.ledger,
      Justified r (r.receiveRemove C message remover now).1 entry) ↔
      ¬ Invents C r (.receiveRemove message remover now) := by
  have hrefused := justified_refused C r r message remover now
  have hcharged := unchanged_chargeRemoval r remover message.subject message.removedAt now
  have hcases := receiveRemove_cases C r message remover now
  generalize r.receiveRemove C message remover now = after at hcases hrefused ⊢
  cases hcases with
  | refused refusal ledger hnoEviction hnoRemoval =>
    refine iff_of_true (hrefused refusal rfl) fun hinvents => ?_
    rcases hinvents with ⟨hvet, -⟩ | ⟨hvet, -⟩
    · exact hnoEviction hvet
    · exact hnoRemoval hvet
  | aboutSelf hvet =>
    have hnot : ¬ RemovalVetted C r message remover := fun h => h.notSelf hvet.aboutSelf
    rw [justified_evicted_iff]
    simp only [Invents, hvet, hnot, true_and, false_and, or_false, Bool.not_eq_true]
  | alreadyRemoved hvet ht =>
    have hnot : ¬ EvictionVetted C r message remover := fun h => hvet.notSelf h.aboutSelf
    refine iff_of_true (fun _ hentry => by cases hentry) ?_
    simp [Invents, hnot, ht]
  | applied hvet hfresh =>
    have hnot : ¬ EvictionVetted C r message remover := fun h => hvet.notSelf h.aboutSelf
    have hburial := justified_applyTombstone_iff (r.chargeRemoval remover message.subject message.removedAt now)
      message.subject message.reason message.removedAt remover message.epoch
    simp only [justified_congr hcharged] at hburial
    rw [hburial, hcharged.tombstones, hcharged.epoch, hfresh]
    simp [Invents, hvet, hnot, hfresh]

theorem lt_next_iff (e : UInt64) : e < e + 1 ↔ e ≠ lastEpoch := by
  have hlt := e.toNat_lt
  have hadd : (e + 1).toNat = (e.toNat + 1) % 2 ^ 64 := UInt64.toNat_add e 1
  rw [UInt64.lt_iff_toNat_lt, hadd, ne_eq, ← UInt64.toNat_inj, toNat_lastEpoch]
  omega

theorem justified_remove_iff (r : Roster) (subject : String) (reason : RemovalReason) (removedAt : String)
    (identity : C.IdentityKey) (now : SystemTime) :
    (∀ entry ∈ ledgerOf C r (.remove subject reason removedAt identity now),
      Justified r (r.remove C subject reason removedAt identity now).1 entry) ↔
      ¬ Invents C r (.remove subject reason removedAt identity now) := by
  have hcharged := unchanged_chargeRemoval r r.selfId subject removedAt now
  have hcases := remove_cases C r subject reason removedAt identity now
  simp only [ledgerOf]
  generalize r.remove C subject reason removedAt identity now = after at hcases ⊢
  cases hcases with
  | refused hself => simp [Invents, hself]
  | applied sig hself _ =>
    have hburial := justified_applyTombstone_iff (r.chargeRemoval r.selfId subject removedAt now) subject reason
      removedAt r.selfId (r.epoch + 1)
    simp only [justified_congr hcharged] at hburial
    simp only []
    rw [hburial, hcharged.tombstones, hcharged.epoch, hcharged.active, hcharged.removedMe, lt_next_iff]
    simp only [Invents, hself, true_and, not_or, not_and, Bool.not_eq_false, Bool.not_eq_true]

/-- Where the loop ends, an entry is justified or one of the two that are not. -/
theorem justified_mergeDevices {r : Roster} {message : RosterSync} {sender : String}
    (hnot : ¬(message.epoch ≤ r.epoch ∧ ∃ d, ReportsRemoved message d ∧ d ≠ r.selfId ∧ r.devices.contains d = true ∧
        r.tombstones.contains d = false))
    (hnoSplit : ¬(ReportsRemoved message r.selfId ∧ r.devices.contains r.selfId = true ∧ sender ∈ r.splits)) :
    ∀ entry ∈ (r.mergeDevices message sender).ledger, Justified r (r.merged message sender) entry := by
  have hacc := accounted_mergeDevices r message sender
  have hburied := buried_foldl_mergeReported message sender message.devices ⟨r, [], [], 0⟩
  intro entry hentry
  have htraced : Traced r message sender (r.merged message sender) entry := hacc.traced entry hentry
  unfold Traced at htraced
  unfold Justified
  split at htraced
  · obtain ⟨he, d, hfresh, hd⟩ := htraced
    obtain ⟨hreported, hself, hknown⟩ := ((hburied d).mp hd).resolve_left (by simp [hfresh])
    have hlater : r.epoch < message.epoch := by
      by_contra hle
      exact hnot ⟨UInt64.not_lt.mp hle, d, hreported, hself, hknown, hfresh⟩
    rw [epoch_merged, lt_epoch_max_iff]
    exact ⟨hlater, he.symm⟩
  · obtain ⟨hsplit, hknown⟩ := htraced
    refine ⟨fun hbefore => ?_, hsplit⟩
    obtain ⟨rfl, hself, hk⟩ := hknown hbefore
    exact hnoSplit ⟨hself, hk, hbefore⟩
  · exact htraced.elim
  · exact Or.inr (Or.inl htraced)
  · trivial

theorem justified_receiveSync_iff (r : Roster) (message : RosterSync) (sender : String) :
    (∀ entry ∈ (r.receiveSync C message sender).2.ledger,
      Justified r (r.receiveSync C message sender).1 entry) ↔ ¬ Invents C r (.receiveSync message sender) := by
  have hacc := accounted_mergeDevices r message sender
  have hcases := receiveSync_cases C r message sender
  generalize r.receiveSync C message sender = after at hcases ⊢
  cases hcases with
  | unmerged outcome hnot => exact iff_of_true (fun _ hentry => by cases hentry) fun hinvents => hnot hinvents.1
  | merged hmerges =>
    rw [List.forall_mem_append]
    constructor
    · intro h hinvents
      rcases hinvents.2 with ⟨hle, d, hreported, hself, hknown, hfresh⟩ | ⟨hself, hknown, hsplit⟩
      · have hburied : (r.mergeDevices message sender).roster.tombstones.contains d = true :=
          (buried_foldl_mergeReported message sender message.devices ⟨r, [], [], 0⟩ d).mpr
            (Or.inr ⟨hreported, hself, hknown⟩)
        obtain ⟨entry, hentry, e, hevent⟩ := hacc.bumped d hfresh hburied
        have hjust := h.1 entry hentry
        simp only [Justified, hevent, epoch_merged, lt_epoch_max_iff] at hjust
        exact UInt64.not_lt.mpr hle hjust.1
      · exact (h.1 _ (split_reported hsplit hself hknown)).1 hsplit
    · intro hnot
      refine ⟨justified_mergeDevices (fun h => hnot ⟨hmerges, Or.inl h⟩) fun h => hnot ⟨hmerges, Or.inr h⟩, ?_⟩
      intro entry hentry
      split at hentry
      · rename_i hlt
        rw [List.mem_singleton] at hentry
        subst hentry
        -- the loop stopped short of the message's epoch, so the roster began short of it
        have hlater : r.epoch < message.epoch := by
          have hforward := hacc.underway.forward
          rw [UInt64.lt_iff_toNat_lt] at hlt ⊢
          rw [UInt64.le_iff_toNat_le] at hforward
          omega
        refine ⟨?_, ?_⟩
        · rw [epoch_merged, lt_epoch_max_iff]
          exact hlater
        · rw [epoch_merged, epoch_max, if_pos (UInt64.le_of_lt hlater)]
      · cases hentry

theorem justified_updateLabels (r : Roster) (d : String) (displayName memberGroup role : Option String) :
    ∀ entry ∈ (r.updateLabels d displayName memberGroup role).2.ledger,
      Justified r (r.updateLabels d displayName memberGroup role).1 entry := by
  have hrelabel : ∀ (field : String) (new : Option String) (current : String) (r' : Roster),
      ∀ entry ∈ (relabel d field new current).2, Justified r r' entry := by
    intro field new current r' entry hentry
    unfold relabel at hentry
    split at hentry
    · split at hentry
      · rw [List.mem_singleton] at hentry
        subst hentry
        trivial
      · cases hentry
    · cases hentry
  unfold updateLabels
  split
  · simp
  · simp only [List.forall_mem_append]
    exact ⟨⟨hrelabel _ _ _ _, hrelabel _ _ _ _⟩, hrelabel _ _ _ _⟩

/-- An entry of the server's list: of an unknown device, or of one that was active and is not any more. -/
def FromServer (r s : Roster) (entry : LedgerEntry) : Prop :=
  entry.event = .unvouchedDeviceListed ∨
    entry.event = .deviceRemoved "server" .removed ∧ r.isActive entry.peer = true ∧ s.isActive entry.peer = false

theorem fromServer_reconcileRow {r : Roster} {s : Reconcile} (device : ServerDevice)
    (hactive : ∀ d, s.roster.isActive d = true → r.isActive d = true)
    (h : ∀ entry ∈ s.ledger, FromServer r s.roster entry) :
    ∀ entry ∈ (reconcileRow s device).ledger, FromServer r (reconcileRow s device).roster entry := by
  have hold : ∀ entry ∈ s.ledger, FromServer r (reconcileRow s device).roster entry := by
    intro entry hentry
    refine (h entry hentry).imp_right fun hout => ⟨hout.1, hout.2.1, ?_⟩
    rw [← Bool.not_eq_true, isActive_reconcileRow]
    intro hafter
    rw [hafter.1] at hout
    cases hout.2.2
  unfold reconcileRow at hold ⊢
  simp only [] at hold ⊢
  split
  · rename_i record hrecord
    simp only [hrecord] at hold
    have hwas : record.isActive = true → r.isActive device.deviceId = true := fun ha =>
      hactive _ (isActive_iff.mpr ⟨record, hrecord, ha⟩)
    split
    · rename_i ha
      simp only [if_pos ha] at hold
      split
      · rename_i hrevoked
        simp only [if_pos hrevoked] at hold
        intro entry hentry
        rcases List.mem_append.mp hentry with hentry | hentry
        · exact hold entry hentry
        · rw [List.mem_singleton] at hentry
          subst hentry
          refine Or.inr ⟨rfl, hwas ha, ?_⟩
          show (_ : Roster).isActive device.deviceId = false
          rw [isActive_markRemoved]
          simp
      · rename_i hlisted
        simp only [if_neg hlisted] at hold
        exact hold
    · rename_i ha
      simp only [if_neg ha] at hold
      exact hold
  · rename_i hnone
    simp only [hnone] at hold
    intro entry hentry
    rcases List.mem_append.mp hentry with hentry | hentry
    · exact hold entry hentry
    · rw [List.mem_singleton] at hentry
      subst hentry
      exact Or.inl rfl

theorem justified_reconcileServerList (r : Roster) (listed : List ServerDevice) :
    ∀ entry ∈ (r.reconcileServerList listed).2.ledger, Justified r (r.reconcileServerList listed).1 entry := by
  suffices h : ∀ s : Reconcile, (∀ d, s.roster.isActive d = true → r.isActive d = true) →
      (∀ entry ∈ s.ledger, FromServer r s.roster entry) →
      ∀ entry ∈ (listed.foldl reconcileRow s).ledger, FromServer r (listed.foldl reconcileRow s).roster entry by
    intro entry hentry
    have htold := h ⟨r, [], [], ∅⟩ (fun _ ha => ha) (by simp) entry hentry
    unfold Justified
    rcases htold with hevent | ⟨hevent, hwas, hnow⟩
    · rw [hevent]
      trivial
    · rw [hevent]
      exact Or.inl ⟨hwas, hnow⟩
  induction listed with
  | nil => exact fun _ _ hs => hs
  | cons device listed ih =>
    intro s hactive hs
    refine ih (reconcileRow s device) (fun d ha => hactive d ?_) (fromServer_reconcileRow device hactive hs)
    exact ((isActive_reconcileRow s device d).mp ha).1

/-! ## The whole operation -/

theorem ledger_invents_nothing_iff (r : Roster) (op : Op C) :
    (∀ entry ∈ ledgerOf C r op, Justified r (step C r op) entry) ↔ ¬ Invents C r op := by
  cases op with
  | receiveIntroduce message introducer now =>
    exact iff_of_true (justified_receiveIntroduce C r message introducer now) id
  | approveHeld subject => exact justified_approveHeld_iff C r subject
  | denyHeld subject => exact iff_of_true (justified_denyHeld r subject) id
  | receiveRemove message remover now => exact justified_receiveRemove_iff C r message remover now
  | remove subject reason removedAt identity now => exact justified_remove_iff C r subject reason removedAt identity now
  | receiveSync message sender => exact justified_receiveSync_iff C r message sender
  | updateLabels d displayName memberGroup role =>
    exact iff_of_true (justified_updateLabels r d displayName memberGroup role) id
  | reconcileServerList listed => exact iff_of_true (justified_reconcileServerList r listed) id
  | restart selfId => exact iff_of_true (fun _ hentry => by cases hentry) id

/-! ## A removal told twice -/

/-- `a` has removed `b`, and has been told that `b` removed `a`. -/
def splitFromB : Roster :=
  step Crypto.plain withoutB (.receiveRemove (evictionOfA 0) "b" (.ofSecs 1750000000))

/-- The same message once more changes nothing, and the split is told once more. -/
theorem split_told_twice :
    ¬ ∀ r, Reachable Crypto.plain r → ∀ op, ∀ entry ∈ ledgerOf Crypto.plain r op,
      Justified r (step Crypto.plain r op) entry := by
  intro h
  have hr : Reachable Crypto.plain splitFromB := .step _ ((Reachable.born (.found _ _)).run _)
  have htold : .localDecision "b" (.familySplit "b") ∈ ledgerOf Crypto.plain splitFromB
      (.receiveRemove (evictionOfA 0) "b" (.ofSecs 1750000000)) := by decide +kernel
  have hknown : "b" ∈ splitFromB.splits := by decide +kernel
  exact (h _ hr _ _ htold).1 hknown

end Roster

end Beacon
