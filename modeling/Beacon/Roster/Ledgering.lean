/-
  Beacon.Roster.Ledgering — what an operation changes against the entries it returns.

  A `Change` is one of the six facts about a roster a person is to read of: who is
  active and who no longer is, the epoch, who removed this device, a quarantined vouch,
  a split. Each names the entry that reports it.
  - `ledger_complete_iff`: an operation reports every change it makes, and every held
    admission it resolves, exactly if it is not `Silent`. Two kinds of input are: a
    signed removal of this device with an epoch ahead of its own raises the epoch without
    an `EpochBumped`, and a merged sync that reports this device removed notes its
    sender as a remover without a `DeviceRemoved`.
-/

import Beacon.Roster.Influence

namespace Beacon

open Lib

namespace Roster

variable (C : Crypto)

/-! ## Changes and their entries -/

inductive Change where
  | joined (device : String)
  | left (device : String)
  | epochBumped (epoch : UInt64)
  | removedMe (peer : String)
  | held (admission : HeldAdmission)
  | split (peer : String)
  deriving DecidableEq

/-- The fact that is new once the change has happened. -/
def Change.Holds (r : Roster) : Change → Prop
  | .joined device => r.isActive device = true
  | .left device => r.isActive device = false
  | .epochBumped e => r.epoch = e
  | .removedMe peer => r.removedMe.contains peer = true
  | .held admission => r.held.get? admission.subjectId = some admission
  | .split peer => peer ∈ r.splits

/-- The entry reports the change. -/
def Change.ReportedBy (entry : LedgerEntry) : Change → Prop
  | .joined device => entry.peer = device ∧ ∃ vouchedBy, entry.event = .deviceJoined vouchedBy
  | .left device => entry.peer = device ∧ ∃ removedBy reason, entry.event = .deviceRemoved removedBy reason
  | .epochBumped e => entry.event = .epochBumped e
  | .removedMe peer => entry.peer = peer ∧ ∃ reason, entry.event = .deviceRemoved peer reason
  | .held admission => entry.peer = admission.subjectId ∧ entry.event = .admissionHeld admission.eventsInWindow
  | .split peer => entry.peer = peer ∧ entry.event = .familySplit peer

/-- A change from `r` to `r'` that no entry of the ledger reports. -/
structure Missed (r r' : Roster) (ledger : List LedgerEntry) (change : Change) : Prop where
  before : ¬ change.Holds r
  after : change.Holds r'
  unreported : ∀ entry ∈ ledger, ¬ change.ReportedBy entry

/-- The entries an operation returns. -/
def ledgerOf (r : Roster) : Op C → List LedgerEntry
  | .receiveIntroduce message introducer now => (r.receiveIntroduce C message introducer now).2.ledger
  | .approveHeld subject => (r.approveHeld subject).2.ledger
  | .denyHeld subject => (r.denyHeld subject).2.ledger
  | .receiveRemove message remover now => (r.receiveRemove C message remover now).2.ledger
  | .remove subject reason removedAt identity now =>
    match (r.remove C subject reason removedAt identity now).2 with
    | .ok applied => applied.ledger
    | .error _ => []
  | .receiveSync message sender => (r.receiveSync C message sender).2.ledger
  | .updateLabels deviceId displayName memberGroup role =>
    (r.updateLabels deviceId displayName memberGroup role).2.ledger
  | .reconcileServerList listed => (r.reconcileServerList listed).2.ledger
  | .restart _ => []

/-- The operation reports every change it makes, and how a held admission was resolved. -/
structure Ledgered (r : Roster) (op : Op C) : Prop where
  changes : ∀ change, ¬ Missed r (step C r op) (ledgerOf C r op) change
  approved : ∀ subject h, op = .approveHeld subject → r.held.get? subject = some h →
    .inbound subject none (.admissionResolved ((r.approveHeld subject).2.outcome = some .admitted)) ∈ ledgerOf C r op
  denied : ∀ subject h, op = .denyHeld subject → r.held.get? subject = some h →
    .inbound subject none (.admissionResolved false) ∈ ledgerOf C r op

/-- The inputs whose change goes unreported. A sync that also buries its sender reports it
    by that burial. -/
def Silent (r : Roster) : Op C → Prop
  | .receiveRemove message remover _ => EvictionVetted C r message remover ∧ r.epoch < message.epoch
  | .receiveSync message sender =>
    Merges C r message sender ∧ ReportsRemoved message r.selfId ∧ r.devices.contains r.selfId = true ∧
      r.removedMe.contains sender = false ∧
      ¬(ReportsRemoved message sender ∧ sender ≠ r.selfId ∧ r.tombstones.contains sender = false)
  | _ => False

/-! ## Steps in sequence -/

section Missed

variable {r s t : Roster} {ledger ledger' : List LedgerEntry} {change : Change}

theorem Missed.trans (h : Missed r t (ledger ++ ledger') change) (mid : Roster) :
    Missed r mid ledger change ∨ Missed mid t ledger' change := by
  have hfirst : ∀ entry ∈ ledger, ¬ change.ReportedBy entry := fun entry he =>
    h.unreported entry (List.mem_append_left _ he)
  have hsecond : ∀ entry ∈ ledger', ¬ change.ReportedBy entry := fun entry he =>
    h.unreported entry (List.mem_append_right _ he)
  by_cases hm : change.Holds mid
  · exact Or.inl ⟨h.before, hm, hfirst⟩
  · exact Or.inr ⟨hm, h.after, hsecond⟩

theorem not_missed_refl (r : Roster) (ledger : List LedgerEntry) (change : Change) : ¬ Missed r r ledger change :=
  fun h => h.before h.after

/-- No fact a change is about is new. -/
structure Unchanged (r r' : Roster) : Prop where
  active : ∀ d, r'.isActive d = r.isActive d
  tombstones : r'.tombstones = r.tombstones
  epoch : r'.epoch = r.epoch
  removedMe : r'.removedMe = r.removedMe
  held : ∀ s h, r'.held.get? s = some h → r.held.get? s = some h

theorem Unchanged.not_missed (h : Unchanged r s) (ledger : List LedgerEntry) (change : Change) :
    ¬ Missed r s ledger change := by
  intro hmissed
  refine hmissed.before ?_
  have hafter := hmissed.after
  cases change with
  | joined d => exact (h.active d).symm.trans hafter
  | left d => exact (h.active d).symm.trans hafter
  | epochBumped e => exact h.epoch.symm.trans hafter
  | removedMe peer =>
    have hme : s.removedMe.contains peer = true := hafter
    rw [h.removedMe] at hme
    exact hme
  | held admission => exact h.held _ _ hafter
  | split peer =>
    obtain ⟨hme, ht⟩ := mem_splits.mp hafter
    exact mem_splits.mpr ⟨h.removedMe ▸ hme, h.tombstones ▸ ht⟩

/-- Where the first part of a step changes nothing, what is missed is missed by the rest. -/
theorem Unchanged.missed (h : Unchanged r s) (first : List LedgerEntry)
    (hmissed : Missed r t (first ++ ledger) change) : Missed s t ledger change :=
  (hmissed.trans s).resolve_left (h.not_missed first change)

theorem unchanged_chargeRemoval (r : Roster) (remover subject removedAt : String) (now : SystemTime) :
    Unchanged r (r.chargeRemoval remover subject removedAt now) := by
  unfold chargeRemoval
  split
  · exact ⟨fun _ => rfl, rfl, rfl, rfl, fun _ _ h => h⟩
  · exact ⟨fun _ => rfl, rfl, rfl, rfl, fun _ _ h => h⟩

theorem unchanged_updateLabels (r : Roster) (d : String) (displayName memberGroup role : Option String) :
    Unchanged r (r.updateLabels d displayName memberGroup role).1 := by
  have hview := view_updateLabels r d displayName memberGroup role
  refine ⟨fun e => ?_, ?_, ?_, ?_, (quiet_updateLabels r d displayName memberGroup role).held⟩
  · rw [Bool.eq_iff_iff, ← mem_view_active, hview, mem_view_active]
  all_goals rw [updateLabels_eq]

end Missed

/-! ## What each write reports -/

theorem not_missed_applyTombstone (r : Roster) (subject : String) (reason : RemovalReason)
    (removedAt removedBy : String) (epoch : UInt64) (change : Change) :
    ¬ Missed r (r.applyTombstone subject reason removedAt removedBy epoch).1
      (r.applyTombstone subject reason removedAt removedBy epoch).2 change := by
  intro h
  have hafter := h.after
  have hledger := h.unreported
  cases change with
  | joined d =>
    refine h.before ?_
    have hd := (isActive_applyTombstone r subject reason removedAt removedBy epoch d).symm.trans hafter
    exact (Bool.and_eq_true_iff.mp hd).1
  | left d =>
    have hd := (isActive_applyTombstone r subject reason removedAt removedBy epoch d).symm.trans hafter
    have hwas : r.isActive d = true := by simpa [Change.Holds] using h.before
    rw [hwas, Bool.true_and, decide_eq_false_iff_not, not_not] at hd
    exact hledger _ List.mem_cons_self ⟨hd, removedBy, reason, rfl⟩
  | epochBumped e =>
    exact hledger _ (List.mem_cons_of_mem _ List.mem_cons_self) (congrArg LedgerEvent.epochBumped hafter)
  | removedMe peer => exact h.before hafter
  | held admission =>
    refine h.before ?_
    have hheld := (held_applyTombstone r subject reason removedAt removedBy epoch admission.subjectId).symm.trans hafter
    split at hheld
    · cases hheld
    · exact hheld
  | split peer =>
    obtain ⟨hme, ht⟩ := mem_splits.mp hafter
    rw [contains_applyTombstone, Bool.or_eq_true, decide_eq_true_eq] at ht
    rcases ht with rfl | ht
    · exact hledger _ (List.mem_append_right _ (familySplit_mem_splitLedger hafter)) ⟨rfl, rfl⟩
    · exact h.before (mem_splits.mpr ⟨hme, ht⟩)

theorem missed_evicted_iff {r : Roster} {message : RosterRemove} {remover : String} (reason : RemovalReason)
    {change : Change} :
    Missed r (r.evicted message remover) (.inbound remover none (.deviceRemoved remover reason) ::
      (r.evicted message remover).splitLedger remover) change ↔
    change = .epochBumped message.epoch ∧ r.epoch < message.epoch := by
  constructor
  · intro h
    have hafter := h.after
    have hledger := h.unreported
    cases change with
    | joined d => exact absurd hafter h.before
    | left d => exact absurd hafter h.before
    | epochBumped e =>
      have hepoch : max r.epoch message.epoch = e := hafter
      by_cases hlt : r.epoch < message.epoch
      · rw [epoch_max, if_pos (UInt64.le_of_lt hlt)] at hepoch
        exact ⟨by rw [hepoch], hlt⟩
      · exact absurd (((epoch_max_eq_iff r.epoch message.epoch).mpr hlt).symm.trans hepoch) h.before
    | removedMe peer =>
      rcases (contains_insert_iff r.removedMe remover peer).mp hafter with rfl | hme
      · exact absurd ⟨rfl, reason, rfl⟩ (hledger _ List.mem_cons_self)
      · exact absurd hme h.before
    | held admission => exact absurd hafter h.before
    | split peer =>
      obtain ⟨hme, ht⟩ := mem_splits.mp hafter
      rcases (contains_insert_iff r.removedMe remover peer).mp hme with rfl | hme
      · exact absurd ⟨rfl, rfl⟩ (hledger _ (List.mem_cons_of_mem _ (familySplit_mem_splitLedger hafter)))
      · exact absurd (mem_splits.mpr ⟨hme, ht⟩) h.before
  · intro h
    obtain ⟨rfl, hlt⟩ := h
    refine ⟨fun hbefore => ?_, ?_, fun entry hentry hreport => ?_⟩
    · have hsame : r.epoch = message.epoch := hbefore
      rw [hsame] at hlt
      exact absurd hlt (UInt64.lt_irrefl _)
    · show max r.epoch message.epoch = message.epoch
      rw [epoch_max, if_pos (UInt64.le_of_lt hlt)]
    · have hevent : entry.event = .epochBumped message.epoch := hreport
      rcases List.mem_cons.mp hentry with rfl | hentry
      · cases hevent
      · unfold splitLedger at hentry
        split at hentry
        · rw [List.mem_singleton] at hentry
          subst hentry
          cases hevent
        · cases hentry

theorem not_missed_admitDevice (r : Roster) (subject : VouchedSubject) (introducedBy : String) (change : Change) :
    ¬ Missed r (r.admitDevice subject introducedBy).1 (r.admitDevice subject introducedBy).2 change := by
  intro h
  have hafter := h.after
  cases change with
  | joined d =>
    have hd := (isActive_admitDevice r subject introducedBy d).symm.trans hafter
    rw [Bool.or_eq_true, decide_eq_true_eq] at hd
    rcases hd with hd | hd
    · exact h.unreported _ (List.mem_singleton_self _) ⟨hd, introducedBy, rfl⟩
    · exact h.before hd
  | left d =>
    have hd := (isActive_admitDevice r subject introducedBy d).symm.trans hafter
    exact h.before (Bool.or_eq_false_iff.mp hd).2
  | _ => exact h.before hafter

/-! ## The quarantine -/

theorem unchanged_eraseHeld (r : Roster) (subject : String) : Unchanged r { r with held := r.held.erase subject } :=
  ⟨fun _ => rfl, rfl, rfl, rfl, (quiet_eraseHeld r subject).held⟩

theorem not_missed_held (r : Roster) (h : HeldAdmission) (change : Change) :
    ¬ Missed r { r with held := r.held.insert h }
      [.inbound h.subjectId none (.admissionHeld h.eventsInWindow)] change := by
  intro hmissed
  have hafter := hmissed.after
  cases change with
  | held admission =>
    have hget : (r.held.insert h).get? admission.subjectId = some admission := hafter
    rw [Table.get?_insert] at hget
    split at hget
    · cases hget
      exact hmissed.unreported _ (List.mem_singleton_self _) ⟨rfl, rfl⟩
    · exact hmissed.before hget
  | _ => exact hmissed.before hafter

theorem not_missed_approveHeld (r : Roster) (subject : String) (change : Change) :
    ¬ Missed r (r.approveHeld subject).1 (r.approveHeld subject).2.ledger change := by
  have hcases := approveHeld_cases r subject
  generalize r.approveHeld subject = after at hcases ⊢
  cases hcases with
  | absent _ => exact not_missed_refl r _ change
  | refused refusal => exact (unchanged_eraseHeld r subject).not_missed _ change
  | admitted h _ _ _ =>
    intro hmissed
    exact not_missed_admitDevice _ _ _ change
      ((unchanged_eraseHeld r subject).missed [.inbound subject none (.admissionResolved true)] hmissed)

theorem not_missed_denyHeld (r : Roster) (subject : String) (change : Change) :
    ¬ Missed r (r.denyHeld subject).1 (r.denyHeld subject).2.ledger change := by
  unfold denyHeld
  split
  · exact not_missed_refl r _ change
  · exact (unchanged_eraseHeld r subject).not_missed _ change

theorem not_missed_receiveIntroduce (r : Roster) (message : RosterIntroduce) (introducer : String) (now : SystemTime)
    (change : Change) : ¬ Missed r (r.receiveIntroduce C message introducer now).1
      (r.receiveIntroduce C message introducer now).2.ledger change := by
  have hcases := receiveIntroduce_cases C r message introducer now
  generalize r.receiveIntroduce C message introducer now = after at hcases ⊢
  cases hcases with
  | refused refusal _ => exact not_missed_refl r _ change
  | alreadyKnown _ _ => exact not_missed_refl r _ change
  | held _ _ _ => exact not_missed_held r ⟨message, introducer, r.churn.countInWindow introducer now⟩ change
  | admitted _ _ _ =>
    intro h
    have hcharged : Unchanged r
        { r with churn := r.churn.record introducer (timestampOr message.subject.joinedAt now) now } :=
      ⟨fun _ => rfl, rfl, rfl, rfl, fun _ _ h => h⟩
    exact not_missed_admitDevice _ _ _ change (hcharged.missed [] h)

/-! ## Removals and the server's list -/

theorem not_missed_remove (r : Roster) (subject : String) (reason : RemovalReason) (removedAt : String)
    (identity : C.IdentityKey) (now : SystemTime) (change : Change) :
    ¬ Missed r (r.remove C subject reason removedAt identity now).1
      (ledgerOf C r (.remove subject reason removedAt identity now)) change := by
  have hcases := remove_cases C r subject reason removedAt identity now
  show ¬ Missed r _ (match (r.remove C subject reason removedAt identity now).2 with
    | .ok applied => applied.ledger
    | .error _ => []) change
  generalize r.remove C subject reason removedAt identity now = after at hcases ⊢
  cases hcases with
  | refused _ => exact not_missed_refl r _ change
  | applied sig _ _ =>
    intro h
    exact not_missed_applyTombstone _ _ _ _ _ _ change
      ((unchanged_chargeRemoval r r.selfId subject removedAt now).missed [] h)

theorem missed_receiveRemove_iff (r : Roster) (message : RosterRemove) (remover : String) (now : SystemTime)
    (change : Change) :
    Missed r (r.receiveRemove C message remover now).1 (r.receiveRemove C message remover now).2.ledger change ↔
      change = .epochBumped message.epoch ∧ Silent C r (.receiveRemove message remover now) := by
  have hcases := receiveRemove_cases C r message remover now
  generalize r.receiveRemove C message remover now = after at hcases ⊢
  have hcharged := unchanged_chargeRemoval r remover message.subject message.removedAt now
  cases hcases with
  | refused refusal ledger hnot _ => exact iff_of_false (not_missed_refl r _ change) fun h => hnot h.2.1
  | aboutSelf hvet =>
    rw [missed_evicted_iff message.reason]
    exact and_congr_right fun _ => ⟨fun hlt => ⟨hvet, hlt⟩, And.right⟩
  | alreadyRemoved hvet _ =>
    exact iff_of_false (hcharged.not_missed _ change) fun h => hvet.notSelf h.2.1.aboutSelf
  | applied hvet _ =>
    refine iff_of_false (fun h => ?_) fun h => hvet.notSelf h.2.1.aboutSelf
    exact not_missed_applyTombstone _ _ _ _ _ _ change (hcharged.missed [] h)

theorem not_missed_markRemoved (r : Roster) (d : String) (reason : RemovalReason) (removedBy : String)
    (change : Change) :
    ¬ Missed r { r with devices := markRemoved r.devices d }
      [.localDecision d (.deviceRemoved removedBy reason)] change := by
  intro h
  have hafter := h.after
  cases change with
  | joined e =>
    have he := (isActive_markRemoved r d e).symm.trans hafter
    exact h.before (Bool.and_eq_true_iff.mp he).1
  | left e =>
    have he := (isActive_markRemoved r d e).symm.trans hafter
    have hwas : r.isActive e = true := by simpa [Change.Holds] using h.before
    rw [hwas, Bool.true_and, decide_eq_false_iff_not, not_not] at he
    exact h.unreported _ (List.mem_singleton_self _) ⟨he, removedBy, reason, rfl⟩
  | _ => exact h.before hafter

theorem not_missed_reconcileRow (s : Reconcile) (device : ServerDevice) :
    ∃ ledger, (reconcileRow s device).ledger = s.ledger ++ ledger ∧
      ∀ change, ¬ Missed s.roster (reconcileRow s device).roster ledger change := by
  unfold reconcileRow
  simp only []
  split
  · split
    · split
      · exact ⟨_, rfl, not_missed_markRemoved s.roster device.deviceId .removed "server"⟩
      · exact ⟨[], (List.append_nil _).symm, not_missed_refl _ _⟩
    · exact ⟨[], (List.append_nil _).symm, not_missed_refl _ _⟩
  · exact ⟨_, rfl, not_missed_refl _ _⟩

theorem not_missed_reconcileServerList (r : Roster) (listed : List ServerDevice) (change : Change) :
    ¬ Missed r (r.reconcileServerList listed).1 (r.reconcileServerList listed).2.ledger change := by
  suffices h : ∀ s : Reconcile, ∃ ledger, (listed.foldl reconcileRow s).ledger = s.ledger ++ ledger ∧
      ∀ change, ¬ Missed s.roster (listed.foldl reconcileRow s).roster ledger change by
    obtain ⟨ledger, hledger, hmissed⟩ := h ⟨r, [], [], ∅⟩
    show ¬ Missed r (listed.foldl reconcileRow ⟨r, [], [], ∅⟩).roster
      (listed.foldl reconcileRow ⟨r, [], [], ∅⟩).ledger change
    rw [hledger]
    exact hmissed change
  induction listed with
  | nil => exact fun s => ⟨[], (List.append_nil _).symm, not_missed_refl _ _⟩
  | cons device listed ih =>
    intro s
    obtain ⟨first, hfirst, hmissed⟩ := not_missed_reconcileRow s device
    obtain ⟨rest, hrest, hmissed'⟩ := ih (reconcileRow s device)
    refine ⟨first ++ rest, by rw [List.foldl_cons, hrest, hfirst, List.append_assoc], fun change h => ?_⟩
    exact (h.trans (reconcileRow s device).roster).elim (hmissed change) (hmissed' change)

/-! ## A merge -/

/-- The entry names `sender` as the remover of `d`. -/
def Names (sender d : String) (entry : LedgerEntry) : Prop :=
  entry.peer = d ∧ ∃ reason, entry.event = .deviceRemoved sender reason

/-- What a stretch of the merge loop appends to the ledger. -/
structure Appends (sender : String) (reports : List SyncDevice) (s s' : Merge) (ledger : List LedgerEntry) : Prop where
  appended : s'.ledger = s.ledger ++ ledger
  missed : ∀ change, Missed s.roster s'.roster ledger change → change = .removedMe sender
  names : ∀ d, (∃ entry ∈ ledger, Names sender d entry) ↔
    (∃ reported ∈ reports, reported.deviceId = d ∧ reported.state = .removed) ∧ d ≠ s.roster.selfId ∧
      s.roster.devices.contains d = true ∧ s.roster.tombstones.contains d = false

/-- A report that buries nobody and leaves the roster as it is. -/
theorem appends_of_same {sender : String} {reported : SyncDevice} {s s' : Merge} {ledger : List LedgerEntry}
    (hroster : s'.roster = s.roster) (hledger : s'.ledger = s.ledger ++ ledger)
    (hnames : ∀ entry ∈ ledger, ∀ d, ¬ Names sender d entry)
    (hnot : ¬(reported.state = .removed ∧ reported.deviceId ≠ s.roster.selfId ∧
      s.roster.devices.contains reported.deviceId = true ∧ s.roster.tombstones.contains reported.deviceId = false)) :
    Appends sender [reported] s s' ledger where
  appended := hledger
  missed change h := by
    rw [hroster] at h
    exact absurd h (not_missed_refl _ _ _)
  names d := by
    refine iff_of_false (fun h => ?_) fun h => ?_
    · obtain ⟨entry, hentry, hn⟩ := h
      exact hnames entry hentry d hn
    · obtain ⟨⟨_, hmem, rfl, hrem⟩, hrest⟩ := h
      rw [List.mem_singleton] at hmem
      subst hmem
      exact hnot ⟨hrem, hrest⟩

theorem not_names_splitLedger (r : Roster) (peer sender d : String) :
    ∀ entry ∈ r.splitLedger peer, ¬ Names sender d entry := by
  intro entry hentry hnames
  obtain ⟨-, reason, hevent⟩ := hnames
  unfold splitLedger at hentry
  split at hentry
  · rw [List.mem_singleton] at hentry
    subst hentry
    cases hevent
  · cases hentry

theorem appends_mergeReported (message : RosterSync) (sender : String) (s : Merge) (reported : SyncDevice) :
    ∃ ledger, Appends sender [reported] s (mergeReported message sender s reported) ledger := by
  have hcases := mergeReported_cases message sender s reported
  generalize mergeReported message sender s reported = after at hcases ⊢
  cases hcases with
  | ignored anomalies ledger hanomaly hnot =>
    refine ⟨ledger, appends_of_same rfl rfl (fun entry hentry d hnames => ?_) fun h => ?_⟩
    · obtain ⟨-, reason, hevent⟩ := hnames
      obtain ⟨refusal, hrefused⟩ := hanomaly entry hentry
      rw [hrefused] at hevent
      cases hevent
    · exact hnot ⟨h.1, h.2.2.1, Or.inr h.2.2.2⟩
  | noted _ hself _ =>
    -- the report about this device: the split is noted, the remover is not
    refine ⟨_, rfl, fun change h => ?_, fun d => iff_of_false (fun h => ?_) fun h => ?_⟩
    · have hafter := h.after
      cases change with
      | removedMe peer =>
        rcases (contains_insert_iff s.roster.removedMe sender peer).mp hafter with rfl | hme
        · rfl
        · exact absurd hme h.before
      | split peer =>
        obtain ⟨hme, ht⟩ := mem_splits.mp hafter
        rcases (contains_insert_iff s.roster.removedMe sender peer).mp hme with rfl | hme
        · exact absurd ⟨rfl, rfl⟩ (h.unreported _ (familySplit_mem_splitLedger hafter))
        · exact absurd (mem_splits.mpr ⟨hme, ht⟩) h.before
      | _ => exact absurd hafter h.before
    · obtain ⟨entry, hentry, hn⟩ := h
      exact not_names_splitLedger _ _ _ d entry hentry hn
    · obtain ⟨⟨_, hmem, rfl, -⟩, hne, -⟩ := h
      rw [List.mem_singleton] at hmem
      subst hmem
      exact hne hself
  | buried hrem hself hknown hfresh =>
    refine ⟨_, rfl, fun change h => absurd h (not_missed_applyTombstone _ _ _ _ _ _ _), fun d => ?_⟩
    constructor
    · intro h
      obtain ⟨entry, hentry, hnames⟩ := h
      simp only [applyTombstone, List.cons_append, List.nil_append, List.mem_cons] at hentry
      rcases hentry with rfl | rfl | hentry
      · have hd : reported.deviceId = d := hnames.1
        subst hd
        exact ⟨⟨reported, List.mem_singleton_self _, rfl, hrem⟩, hself, hknown, hfresh⟩
      · obtain ⟨-, reason, hevent⟩ := hnames
        cases hevent
      · exact absurd hnames (not_names_splitLedger _ _ _ d entry hentry)
    · intro h
      obtain ⟨⟨_, hmem, rfl, -⟩, -⟩ := h
      rw [List.mem_singleton] at hmem
      subst hmem
      exact ⟨_, List.mem_cons_self, rfl, .removed, rfl⟩

theorem appends_foldl_mergeReported (message : RosterSync) (sender : String) (l : List SyncDevice) (s : Merge) :
    ∃ ledger, Appends sender l s (l.foldl (mergeReported message sender) s) ledger := by
  induction l generalizing s with
  | nil => exact ⟨[], (List.append_nil _).symm, fun change h => absurd h (not_missed_refl _ _ _), by simp⟩
  | cons b l ih =>
    obtain ⟨first, hfirst⟩ := appends_mergeReported message sender s b
    obtain ⟨rest, hrest⟩ := ih (mergeReported message sender s b)
    refine ⟨first ++ rest, ?_, fun change h => ?_, fun d => ?_⟩
    · rw [List.foldl_cons, hrest.appended, hfirst.appended, List.append_assoc]
    · exact (h.trans (mergeReported message sender s b).roster).elim (hfirst.missed change) (hrest.missed change)
    · -- whoever the head buries stays buried, so the rest names it no more
      have hburied := buried_mergeReported message sender s b d
      have hhead := hfirst.names d
      have htail := hrest.names d
      simp only [List.mem_singleton, exists_eq_left, ← Bool.not_eq_true] at hhead
      rw [mergeReported_selfId, (quiet_mergeReported message sender s b).contains_devices, ← Bool.not_eq_true,
        hburied] at htail
      have happend : (∃ entry ∈ first ++ rest, Names sender d entry) ↔
          (∃ entry ∈ first, Names sender d entry) ∨ ∃ entry ∈ rest, Names sender d entry := by
        simp only [List.mem_append, or_and_right, exists_or]
      rw [happend, hhead, htail, List.exists_mem_cons_iff, ← Bool.not_eq_true]
      constructor
      · intro h
        rcases h with ⟨hb, hne, hknown, ht⟩ | ⟨hl, hne, hknown, hnot⟩
        · exact ⟨Or.inl hb, hne, hknown, ht⟩
        · exact ⟨Or.inr hl, hne, hknown, fun ht => hnot (Or.inl ht)⟩
      · intro h
        obtain ⟨hhit, hne, hknown, ht⟩ := h
        by_cases hb : b.deviceId = d ∧ b.state = .removed
        · exact Or.inl ⟨hb, hne, hknown, ht⟩
        · exact Or.inr ⟨hhit.resolve_left hb, hne, hknown, fun h => h.elim ht fun h => hb h.1⟩

/-! ## The whole operation -/

theorem missed_receiveSync {r : Roster} {message : RosterSync} {sender : String} {change : Change}
    (h : Missed r (r.receiveSync C message sender).1 (r.receiveSync C message sender).2.ledger change) :
    change = .removedMe sender := by
  obtain ⟨ledger, happends⟩ := appends_foldl_mergeReported message sender message.devices ⟨r, [], [], 0⟩
  have hcases := receiveSync_cases C r message sender
  generalize r.receiveSync C message sender = after at hcases h
  cases hcases with
  | unmerged outcome hnot => exact absurd h (not_missed_refl _ _ _)
  | merged hm =>
    rcases h.trans (r.mergeDevices message sender).roster with h | h
    · refine happends.missed change ⟨h.before, h.after, fun entry hentry => h.unreported entry ?_⟩
      show entry ∈ (r.mergeDevices message sender).ledger
      rw [show (r.mergeDevices message sender).ledger = [] ++ ledger from happends.appended]
      exact hentry
    · -- only the epoch is left to change, and it has its entry
      have hafter := h.after
      cases change with
      | epochBumped e =>
        have hepoch : max (r.mergeDevices message sender).roster.epoch message.epoch = e := hafter
        by_cases hlt : (r.mergeDevices message sender).roster.epoch < message.epoch
        · refine absurd ?_ (h.unreported (.inbound sender none (.epochBumped message.epoch)) ?_)
          · rw [epoch_max, if_pos (UInt64.le_of_lt hlt)] at hepoch
            exact congrArg LedgerEvent.epochBumped hepoch
          · rw [if_pos hlt]
            exact List.mem_singleton_self _
        · exact absurd (((epoch_max_eq_iff _ _).mpr hlt).symm.trans hepoch) h.before
      | _ => exact absurd hafter h.before

theorem missed_removedMe_receiveSync_iff {r : Roster} {message : RosterSync} {sender : String} :
    Missed r (r.receiveSync C message sender).1 (r.receiveSync C message sender).2.ledger (.removedMe sender) ↔
      Silent C r (.receiveSync message sender) := by
  obtain ⟨ledger, happends⟩ := appends_foldl_mergeReported message sender message.devices ⟨r, [], [], 0⟩
  have hnames := happends.names sender
  have hme := removedMe_foldl_mergeReported message sender message.devices ⟨r, [], [], 0⟩ sender
  have hcases := receiveSync_cases C r message sender
  generalize r.receiveSync C message sender = after at hcases ⊢
  cases hcases with
  | unmerged outcome hnot => exact iff_of_false (not_missed_refl _ _ _) fun h => hnot h.1
  | merged hm =>
    have hknown : r.devices.contains sender = true := contains_devices_of_isActive hm.senderActive
    constructor
    · intro h
      have hbefore : r.removedMe.contains sender = false := by
        rw [← Bool.not_eq_true]
        exact h.before
      have hafter : (r.mergeDevices message sender).roster.removedMe.contains sender = true := h.after
      obtain ⟨-, hself, hselfknown⟩ := (hme.mp hafter).resolve_left h.before
      refine ⟨hm, hself, hselfknown, hbefore, fun hburies => ?_⟩
      obtain ⟨entry, hentry, hn⟩ := hnames.mpr ⟨hburies.1, hburies.2.1, hknown, hburies.2.2⟩
      refine h.unreported entry (List.mem_append_left _ ?_) hn
      rw [show (r.mergeDevices message sender).ledger = [] ++ ledger from happends.appended]
      exact hentry
    · intro h
      obtain ⟨-, hself, hselfknown, hbefore, hnot⟩ := h
      refine ⟨by simp [Change.Holds, hbefore], hme.mpr (Or.inr ⟨rfl, hself, hselfknown⟩), fun entry hentry hn => ?_⟩
      rcases List.mem_append.mp hentry with hentry | hentry
      · rw [show (r.mergeDevices message sender).ledger = [] ++ ledger from happends.appended] at hentry
        have hburies := hnames.mp ⟨entry, hentry, hn⟩
        exact hnot ⟨hburies.1, hburies.2.1, hburies.2.2.2⟩
      · split at hentry
        · rw [List.mem_singleton] at hentry
          subst hentry
          obtain ⟨-, reason, hevent⟩ := hn
          cases hevent
        · cases hentry

theorem missed_step {r : Roster} {op : Op C} {change : Change} (h : Missed r (step C r op) (ledgerOf C r op) change) :
    Silent C r op := by
  cases op with
  | receiveIntroduce message introducer now => exact not_missed_receiveIntroduce C r message introducer now change h
  | approveHeld subject => exact not_missed_approveHeld r subject change h
  | denyHeld subject => exact not_missed_denyHeld r subject change h
  | receiveRemove message remover now => exact ((missed_receiveRemove_iff C r message remover now change).mp h).2
  | remove subject reason removedAt identity now =>
    exact not_missed_remove C r subject reason removedAt identity now change h
  | receiveSync message sender =>
    have hchange := missed_receiveSync C h
    subst hchange
    exact (missed_removedMe_receiveSync_iff C).mp h
  | updateLabels d displayName memberGroup role =>
    exact (unchanged_updateLabels r d displayName memberGroup role).not_missed _ change h
  | reconcileServerList listed => exact not_missed_reconcileServerList r listed change h
  | restart selfId =>
    rw [step_restart] at h
    exact not_missed_refl r _ change h

theorem missed_of_silent {r : Roster} {op : Op C} (h : Silent C r op) :
    ∃ change, Missed r (step C r op) (ledgerOf C r op) change := by
  cases op with
  | receiveRemove message remover now => exact ⟨_, (missed_receiveRemove_iff C r message remover now _).mpr ⟨rfl, h⟩⟩
  | receiveSync message sender => exact ⟨_, (missed_removedMe_receiveSync_iff C).mpr h⟩
  | _ => exact False.elim h

theorem ledger_complete_iff (r : Roster) (op : Op C) : Ledgered C r op ↔ ¬ Silent C r op := by
  constructor
  · intro h hsilent
    obtain ⟨change, hmissed⟩ := missed_of_silent C hsilent
    exact h.changes change hmissed
  · intro hnot
    refine ⟨fun change h => hnot (missed_step C h), fun subject h hop hheld => ?_, fun subject h hop hheld => ?_⟩
    · subst hop
      have hcases := approveHeld_cases r subject
      show _ ∈ (r.approveHeld subject).2.ledger
      generalize r.approveHeld subject = after at hcases ⊢
      cases hcases with
      | absent hnone => rw [hheld] at hnone; cases hnone
      | refused refusal => exact List.mem_cons_self
      | admitted h _ _ _ => exact List.mem_cons_self
    · subst hop
      show _ ∈ (r.denyHeld subject).2.ledger
      unfold denyHeld
      rw [hheld]
      exact List.mem_cons_self

/-! ## Two changes nobody reads of -/

/-- `a`'s family with `b` in it. -/
def withB : Roster := run Crypto.plain founder [introduction "b" "kb" "" "a" "ka"]

/-- A sync that reports `a` removed, as `b` sends it once it removed `a`. -/
def reportOfA : RosterSync := ⟨0, [⟨"a", "ka", .removed⟩], Crypto.plain.digestOf 0 [⟨"a", "ka", .removed⟩]⟩

theorem unledgered_changes :
    (Reachable Crypto.plain withoutB ∧
      ¬ Ledgered Crypto.plain withoutB (.receiveRemove (evictionOfA 9) "b" (.ofSecs 1750000000))) ∧
    Reachable Crypto.plain withB ∧ ¬ Ledgered Crypto.plain withB (.receiveSync reportOfA "b") := by
  refine ⟨⟨(Reachable.born (.found _ _)).run _, fun h => ?_⟩, (Reachable.born (.found _ _)).run _, fun h => ?_⟩
  · have hsilent : Silent Crypto.plain withoutB (.receiveRemove (evictionOfA 9) "b" (.ofSecs 1750000000)) :=
      ⟨⟨by decide +kernel, ⟨"b", "kb", "b", "g", "child", "", "a", .removed⟩, "kb", by decide +kernel, rfl,
        by decide +kernel⟩, by decide +kernel⟩
    obtain ⟨change, hmissed⟩ := missed_of_silent Crypto.plain hsilent
    exact h.changes change hmissed
  · have hsilent : Silent Crypto.plain withB (.receiveSync reportOfA "b") := by
      refine ⟨⟨rfl, by decide +kernel, by decide +kernel⟩, ⟨_, List.mem_cons_self, by decide +kernel, rfl⟩,
        by decide +kernel, by decide +kernel, ?_⟩
      intro hburies
      obtain ⟨⟨reported, hmem, hb, -⟩, -⟩ := hburies
      rw [List.mem_singleton.mp hmem] at hb
      exact absurd hb (by decide)
    obtain ⟨change, hmissed⟩ := missed_of_silent Crypto.plain hsilent
    exact h.changes change hmissed

end Roster

end Beacon
