/-
  Beacon.Roster.ServerList — the server's device list can only take away.

  A row is judged against the roster as the rows before it left it, and still the end
  depends on one set only, the ids that occur as revoked (`get?_reconcileServerList`): the
  records filed under them are removed, everything else is as it was. So neither the
  order of the rows nor a repetition, nor a row that contradicts another, changes the end, a
  second run finds nothing to do, and each device taken away is ledgered once
  (`server_list_only_takes_away`).
-/

import Beacon.Roster.Burials

namespace Beacon

open Lib

namespace Roster

/-- A record as the server's list leaves it. -/
def revokedBy (listed : List ServerDevice) (record : DeviceRecord) : DeviceRecord :=
  if ⟨record.deviceId, true⟩ ∈ listed then { record with state := .removed } else record

/-- The entry tells that `d` was removed. -/
def tellsRemovalOf (d : String) (entry : LedgerEntry) : Bool :=
  entry.peer == d &&
    match entry.event with
    | .deviceRemoved _ _ => true
    | _ => false

theorem removed_of_inactive {record : DeviceRecord} (h : record.isActive = false) :
    { record with state := .removed } = record := by
  cases record with
  | mk deviceId identityPk displayName memberGroup role joinedAt introducedBy state =>
    cases state with
    | active => cases h
    | removed => rfl

theorem revokedBy_cons (device : ServerDevice) (listed : List ServerDevice) (record : DeviceRecord) :
    revokedBy (device :: listed) record = revokedBy listed (revokedBy [device] record) := by
  unfold revokedBy
  by_cases hfirst : (⟨record.deviceId, true⟩ : ServerDevice) = device
  · simp [hfirst]
  · simp [hfirst]

theorem revokedBy_twice (listed : List ServerDevice) (record : DeviceRecord) :
    revokedBy listed (revokedBy listed record) = revokedBy listed record := by
  unfold revokedBy
  by_cases h : (⟨record.deviceId, true⟩ : ServerDevice) ∈ listed
  · simp [h]
  · simp [h]

/-! ## One row -/

theorem get?_reconcileRow (s : Reconcile) (device : ServerDevice) (d : String) :
    (reconcileRow s device).roster.devices.get? d = (s.roster.devices.get? d).map (revokedBy [device]) := by
  obtain ⟨deviceId, revoked⟩ := device
  -- where nothing is written, no record is revoked by this row, or the one that is was removed before
  have hkept : (revoked = true → s.roster.isActive deviceId = false) →
      s.roster.devices.get? d = (s.roster.devices.get? d).map (revokedBy [⟨deviceId, revoked⟩]) := by
    intro hout
    cases hrecord : s.roster.devices.get? d with
    | none => rfl
    | some record =>
      have hkey : record.deviceId = d := Table.get?_key hrecord
      rw [Option.map_some, revokedBy]
      split
      · rename_i hmem
        rw [hkey] at hmem
        obtain ⟨rfl, rfl⟩ : d = deviceId ∧ true = revoked := by simpa using hmem
        have hinactive : record.isActive = false := by simpa [isActive, hrecord] using hout rfl
        rw [removed_of_inactive hinactive]
      · rfl
  unfold reconcileRow
  simp only []
  split
  · rename_i record hrecord
    split
    · split
      · rename_i ha hrevoked
        subst hrevoked
        show (markRemoved s.roster.devices deviceId).get? d = _
        rw [get?_markRemoved]
        cases hd : s.roster.devices.get? d with
        | none => simp
        | some found =>
          have hkey : found.deviceId = d := Table.get?_key hd
          by_cases hsame : deviceId = d
          · simp [revokedBy, hkey, hsame]
          · simp [revokedBy, hkey, hsame, @eq_comm _ d]
      · rename_i ha hlisted
        exact hkept fun hrevoked => absurd hrevoked hlisted
    · rename_i ha
      exact hkept fun _ => by simpa [isActive, hrecord] using ha
  · rename_i hnone
    exact hkept fun _ => by simp [isActive, hnone]

theorem countP_reconcileRow (s : Reconcile) (device : ServerDevice) (d : String) :
    (reconcileRow s device).ledger.countP (tellsRemovalOf d) =
      s.ledger.countP (tellsRemovalOf d) + if s.roster.isActive d = true ∧ ⟨d, true⟩ = device then 1 else 0 := by
  obtain ⟨deviceId, revoked⟩ := device
  have hnone : ∀ ledger : List LedgerEntry, (s.roster.isActive deviceId = true → revoked = false) →
      ledger.countP (tellsRemovalOf d) = 0 → (s.ledger ++ ledger).countP (tellsRemovalOf d) =
        s.ledger.countP (tellsRemovalOf d) +
          if s.roster.isActive d = true ∧ (⟨d, true⟩ : ServerDevice) = ⟨deviceId, revoked⟩ then 1 else 0 := by
    intro ledger hrow hledger
    rw [List.countP_append, hledger, if_neg]
    rintro ⟨hactive, hsame⟩
    cases hsame
    cases hrow hactive
  unfold reconcileRow
  simp only []
  split
  · rename_i record hrecord
    have hactive : s.roster.isActive deviceId = record.isActive := by simp [isActive, hrecord]
    split
    · rename_i ha
      split
      · rename_i hrevoked
        rw [List.countP_append, List.countP_singleton]
        by_cases hd : d = deviceId
        · subst hd
          simp [tellsRemovalOf, LedgerEntry.localDecision, hactive, ha, hrevoked]
        · simp [tellsRemovalOf, LedgerEntry.localDecision, hd, @eq_comm _ deviceId]
      · rename_i hlisted
        simpa using hnone [] (fun _ => by simpa using hlisted) rfl
    · rename_i ha
      simpa using hnone [] (fun h => absurd (hactive ▸ h) ha) rfl
  · rename_i hrecord
    refine hnone _ (fun h => ?_) (by simp [tellsRemovalOf, LedgerEntry.localDecision])
    simp [isActive, hrecord] at h

/-! ## The whole list -/

/-- What the list leaves under an id, whatever its order. -/
theorem get?_reconcileServerList (r : Roster) (listed : List ServerDevice) (d : String) :
    (r.reconcileServerList listed).1.devices.get? d = (r.devices.get? d).map (revokedBy listed) := by
  show (listed.foldl reconcileRow ⟨r, [], [], ∅⟩).roster.devices.get? d = _
  suffices h : ∀ s : Reconcile, (listed.foldl reconcileRow s).roster.devices.get? d =
      (s.roster.devices.get? d).map (revokedBy listed) from h _
  induction listed with
  | nil =>
    intro s
    have hid : revokedBy [] = id := by
      funext record
      simp [revokedBy]
    rw [List.foldl_nil, hid, Option.map_id, id]
  | cons device listed ih =>
    intro s
    rw [List.foldl_cons, ih, get?_reconcileRow, Option.map_map]
    congr 1
    funext record
    exact (revokedBy_cons device listed record).symm

theorem countP_reconcileServerList (r : Roster) (listed : List ServerDevice) (d : String) :
    (r.reconcileServerList listed).2.ledger.countP (tellsRemovalOf d) =
      if r.isActive d = true ∧ ⟨d, true⟩ ∈ listed then 1 else 0 := by
  show (listed.foldl reconcileRow ⟨r, [], [], ∅⟩).ledger.countP (tellsRemovalOf d) = _
  suffices h : ∀ s : Reconcile, (listed.foldl reconcileRow s).ledger.countP (tellsRemovalOf d) =
      s.ledger.countP (tellsRemovalOf d) + if s.roster.isActive d = true ∧ ⟨d, true⟩ ∈ listed then 1 else 0 by
    rw [h ⟨r, [], [], ∅⟩, List.countP_nil, Nat.zero_add]
  induction listed with
  | nil => simp
  | cons device listed ih =>
    intro s
    -- the row that took the device away leaves nothing to the rows behind it
    rw [List.foldl_cons, ih, countP_reconcileRow, Nat.add_assoc]
    simp only [isActive_reconcileRow]
    by_cases ha : s.roster.isActive d = true
    · by_cases hrow : (⟨d, true⟩ : ServerDevice) = device
      · simp [ha, hrow]
      · simp [ha, hrow]
    · simp [ha]

theorem reconcileServerList_congr (r : Roster) {listed listed' : List ServerDevice}
    (h : ∀ row, row ∈ listed' ↔ row ∈ listed) :
    (r.reconcileServerList listed').1 = (r.reconcileServerList listed).1 := by
  have hdevices : (r.reconcileServerList listed').1.devices = (r.reconcileServerList listed).1.devices := by
    apply Table.ext
    intro d
    rw [get?_reconcileServerList, get?_reconcileServerList]
    congr 1
    funext record
    simp only [revokedBy, h]
  rw [reconcileServerList_eq, hdevices, ← reconcileServerList_eq]

theorem reconcileServerList_twice (r : Roster) (listed : List ServerDevice) :
    ((r.reconcileServerList listed).1.reconcileServerList listed).1 = (r.reconcileServerList listed).1 := by
  have hdevices : ((r.reconcileServerList listed).1.reconcileServerList listed).1.devices =
      (r.reconcileServerList listed).1.devices := by
    apply Table.ext
    intro d
    rw [get?_reconcileServerList, get?_reconcileServerList, Option.map_map]
    congr 1
    funext record
    exact revokedBy_twice listed record
  rw [reconcileServerList_eq, hdevices]

theorem server_list_only_takes_away (r : Roster) (listed : List ServerDevice) :
    (r.reconcileServerList listed).1 = { r with devices := (r.reconcileServerList listed).1.devices } ∧
    (∀ d, (r.reconcileServerList listed).1.devices.get? d =
      (r.devices.get? d).map fun record =>
        if record.isActive = true ∧ ⟨d, true⟩ ∈ listed then { record with state := .removed } else record) ∧
    (∀ listed', (∀ row, row ∈ listed' ↔ row ∈ listed) →
      (r.reconcileServerList listed').1 = (r.reconcileServerList listed).1) ∧
    ((r.reconcileServerList listed).1.reconcileServerList listed).1 = (r.reconcileServerList listed).1 ∧
    ∀ d, (r.reconcileServerList listed).2.ledger.countP (tellsRemovalOf d) =
      if r.isActive d = true ∧ (r.reconcileServerList listed).1.isActive d = false then 1 else 0 := by
  refine ⟨reconcileServerList_eq r listed, fun d => ?_, fun listed' h => reconcileServerList_congr r h,
    reconcileServerList_twice r listed, fun d => ?_⟩
  · rw [get?_reconcileServerList]
    cases hrecord : r.devices.get? d with
    | none => rfl
    | some record =>
      have hkey : (⟨record.deviceId, true⟩ : ServerDevice) = ⟨d, true⟩ := by rw [Table.get?_key hrecord]
      rw [Option.map_some, Option.map_some, revokedBy]
      cases ha : record.isActive with
      | true => simp only [hkey, true_and]
      | false => rw [removed_of_inactive ha, ite_self, ite_self]
  · rw [countP_reconcileServerList]
    simp only [← Bool.not_eq_true, isActive_reconcileServerList]
    by_cases ha : r.isActive d = true
    · simp [ha]
    · simp [ha]

end Roster

end Beacon
