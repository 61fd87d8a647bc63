/-
  Beacon.Client — the family as the app shows it (`beacon_client`): `Client::restore`, as far as
  it rebuilds the roster, and `Client::roster`.

  The list puts together the active devices and those with a tombstone, and sorts them. A
  record that is neither is left out of it, and one that is both stands in it twice.
  - `listsFamily_iff`: every device stands in the list once exactly where a device is
    active or buried and never both (`ActiveOrBuried`).
  - `activeOrBuried_step_iff`: a step keeps that unless it takes the server's word against an
    active device, which `reconcile_server_list` deactivates and does not bury.
  - `family_listed_iff`: both, over whole runs, whatever list a roster was adopted from.
-/

import Mathlib.Data.List.Sort
import Mathlib.Data.String.Basic
import Beacon.Roster.Shortcut
import Beacon.Roster.Tombstones

namespace Beacon

open Lib

structure MemberRow where
  deviceId : String
  identityPk : String
  displayName : String
  memberGroup : String
  role : String
  joinedAt : String
  introducedBy : String
  active : Bool
  isSelf : Bool
  deriving DecidableEq, Repr

def MemberRow.fromRecord (record : DeviceRecord) (selfId : String) : MemberRow where
  deviceId := record.deviceId
  identityPk := record.identityPk
  displayName := record.displayName
  memberGroup := record.memberGroup
  role := record.role
  joinedAt := record.joinedAt
  introducedBy := record.introducedBy
  active := record.isActive
  isSelf := record.deviceId == selfId

def RosterSnapshotError.toText : RosterSnapshotError → String
  | .unsupportedVersion found => "unsupported roster version " ++ toString found
  | .wrongDevice expected found => "roster belongs to `" ++ found ++ "`, restoring as `" ++ expected ++ "`"

inductive ClientError where
  | state (detail : String)
  deriving DecidableEq, Repr

structure Client where
  deviceId : String
  roster : Roster

namespace Client

/-- A roster without its own device is not one to act from. -/
def restore (deviceId : String) (snapshot : RosterSnapshot) : Except ClientError Client :=
  match Roster.importSnapshot snapshot deviceId with
  | .error error => .error (.state error.toText)
  | .ok roster =>
    if (roster.devices.get? deviceId).isNone then
      .error (.state ("stored roster carries no record for `" ++ deviceId ++ "`"))
    else .ok ⟨deviceId, roster⟩

/-- The records of the devices that have a tombstone. -/
def buriedRecords (r : Roster) : List DeviceRecord :=
  r.tombstones.values.filterMap fun tombstone => r.devices.get? tombstone.subject

def unsortedRows (c : Client) : List MemberRow :=
  c.roster.active.map (.fromRecord · c.deviceId) ++ (buriedRecords c.roster).map (.fromRecord · c.deviceId)

/-- `Client::roster`. -/
def rosterRows (c : Client) : List MemberRow := c.unsortedRows.insertionSort fun a b => a.deviceId ≤ b.deviceId

/-- One row for each record, in order, as the roster has it, and among them the device's own. -/
structure ListsFamily (c : Client) : Prop where
  increasing : c.rosterRows.Pairwise fun a b => a.deviceId < b.deviceId
  carried : ∀ d, (∃ row ∈ c.rosterRows, row.deviceId = d) ↔ c.roster.devices.contains d = true
  recorded : ∀ row ∈ c.rosterRows, ∃ record, c.roster.devices.get? row.deviceId = some record ∧
    row = .fromRecord record c.deviceId
  active : ∀ row ∈ c.rosterRows, row.active = c.roster.isActive row.deviceId
  own : ∃ row ∈ c.rosterRows, row.deviceId = c.deviceId ∧ row.isSelf = true

end Client

namespace Roster

/-- Every device the roster carries is active or buried, and none is both. -/
def ActiveOrBuried (r : Roster) : Prop :=
  ∀ d, r.devices.contains d = true → (r.isActive d = true ↔ r.tombstones.contains d = false)

end Roster

namespace Client

variable {c : Client}

theorem mem_activeIds {r : Roster} {d : String} : d ∈ r.active.map (·.deviceId) ↔ r.isActive d = true := by
  unfold Roster.active
  rw [List.mem_map, Roster.isActive_iff]
  constructor
  · rintro ⟨record, hrecord, rfl⟩
    obtain ⟨hvalue, hactive⟩ := List.mem_filter.mp hrecord
    exact ⟨record, Table.mem_values.mp hvalue, hactive⟩
  · rintro ⟨record, hget, hactive⟩
    exact ⟨record, List.mem_filter.mpr ⟨Table.mem_values_of_get? hget, hactive⟩, Table.get?_key hget⟩

theorem mem_buriedIds {r : Roster} {d : String} : d ∈ (buriedRecords r).map (·.deviceId) ↔
    r.tombstones.contains d = true ∧ r.devices.contains d = true := by
  unfold buriedRecords
  rw [List.mem_map]
  constructor
  · rintro ⟨record, hrecord, rfl⟩
    obtain ⟨tombstone, htombstone, hget⟩ := List.mem_filterMap.mp hrecord
    have hsubject : record.deviceId = tombstone.subject := Table.get?_key hget
    rw [hsubject, Table.contains_iff, Table.contains_iff]
    exact ⟨⟨tombstone, Table.mem_values.mp htombstone⟩, record, hget⟩
  · rintro ⟨hburied, hknown⟩
    obtain ⟨tombstone, htombstone⟩ := Table.contains_iff.mp hburied
    obtain ⟨record, hget⟩ := Table.contains_iff.mp hknown
    refine ⟨record, List.mem_filterMap.mpr ⟨tombstone, Table.mem_values_of_get? htombstone, ?_⟩, Table.get?_key hget⟩
    rw [show tombstone.subject = d from Table.get?_key htombstone, hget]

theorem unsortedRows_ids (c : Client) : c.unsortedRows.map (·.deviceId) =
    c.roster.active.map (·.deviceId) ++ (buriedRecords c.roster).map (·.deviceId) := by
  rw [unsortedRows, List.map_append, List.map_map, List.map_map]
  rfl

/-- No device is among the active ones twice, nor among the buried ones. -/
theorem nodup_unsortedRows : (c.unsortedRows.map (·.deviceId)).Nodup ↔
    ∀ d, c.roster.isActive d = true → c.roster.tombstones.contains d = false := by
  have hactiveIds : (c.roster.active.map (·.deviceId)).Nodup :=
    (List.filter_sublist.map DeviceRecord.deviceId).nodup c.roster.devices.keys_nodup
  have hburiedIds : ((buriedRecords c.roster).map (·.deviceId)).Nodup := by
    have hsubjects := List.pairwise_map.mp c.roster.tombstones.keys_nodup
    refine List.pairwise_map.mpr (hsubjects.filterMap _ fun t t' hne record hget record' hget' heq => hne ?_)
    rw [← Table.get?_key hget, ← Table.get?_key hget', heq]
  rw [unsortedRows_ids, List.nodup_append']
  constructor
  · rintro ⟨-, -, hdisjoint⟩ d hactive
    by_contra hburied
    exact hdisjoint (mem_activeIds.mpr hactive)
      (mem_buriedIds.mpr ⟨by simpa using hburied, Roster.contains_devices_of_isActive hactive⟩)
  · intro h
    refine ⟨hactiveIds, hburiedIds, fun d hactive hburied => ?_⟩
    have hnot := h d (mem_activeIds.mp hactive)
    rw [(mem_buriedIds.mp hburied).1] at hnot
    cases hnot

theorem rosterRows_perm (c : Client) : c.rosterRows.Perm c.unsortedRows := List.perm_insertionSort _ _

/-- A row is that of a record. -/
theorem recorded_of_mem {row : MemberRow} (h : row ∈ c.rosterRows) :
    ∃ record, c.roster.devices.get? row.deviceId = some record ∧ row = .fromRecord record c.deviceId := by
  rw [c.rosterRows_perm.mem_iff, unsortedRows, List.mem_append, List.mem_map, List.mem_map] at h
  rcases h with ⟨record, hrecord, rfl⟩ | ⟨record, hrecord, rfl⟩
  · exact ⟨record, Table.mem_values.mp (List.mem_filter.mp hrecord).1, rfl⟩
  · obtain ⟨tombstone, -, hget⟩ := List.mem_filterMap.mp hrecord
    refine ⟨record, ?_, rfl⟩
    show c.roster.devices.get? record.deviceId = some record
    rw [show record.deviceId = tombstone.subject from Table.get?_key hget, hget]

theorem increasing_iff : (c.rosterRows.Pairwise fun a b => a.deviceId < b.deviceId) ↔
    ∀ d, c.roster.isActive d = true → c.roster.tombstones.contains d = false := by
  rw [← nodup_unsortedRows, ← (c.rosterRows_perm.map (·.deviceId)).nodup_iff]
  constructor
  · intro h
    exact List.pairwise_map.mpr (h.imp fun hlt => ne_of_lt hlt)
  · intro h
    have hsorted : c.rosterRows.Pairwise fun a b => a.deviceId ≤ b.deviceId := by
      refine List.pairwise_insertionSort (fun a b : MemberRow => a.deviceId ≤ b.deviceId) _
    exact (hsorted.and (List.pairwise_map.mp h)).imp fun hboth => lt_of_le_of_ne hboth.1 hboth.2

theorem carried_iff {d : String} : (∃ row ∈ c.rosterRows, row.deviceId = d) ↔
    c.roster.isActive d = true ∨ c.roster.tombstones.contains d = true ∧ c.roster.devices.contains d = true := by
  rw [← List.mem_map, (c.rosterRows_perm.map (·.deviceId)).mem_iff, unsortedRows_ids, List.mem_append, mem_activeIds,
    mem_buriedIds]

theorem listsFamily_iff {r : Roster} (hown : r.devices.contains r.selfId = true) :
    ListsFamily ⟨r.selfId, r⟩ ↔ r.ActiveOrBuried := by
  constructor
  · intro h d hknown
    have hapart := increasing_iff.mp h.increasing d
    have hlisted := carried_iff.mp ((h.carried d).mpr hknown)
    refine ⟨hapart, fun hunburied => hlisted.resolve_right fun hburied => ?_⟩
    rw [hburied.1] at hunburied
    cases hunburied
  · intro h
    have hcarried : ∀ d, (∃ row ∈ (⟨r.selfId, r⟩ : Client).rosterRows, row.deviceId = d) ↔ r.devices.contains d = true := by
      intro d
      rw [carried_iff]
      constructor
      · rintro (hactive | hburied)
        · exact Roster.contains_devices_of_isActive hactive
        · exact hburied.2
      · intro hknown
        by_cases hburied : r.tombstones.contains d = true
        · exact Or.inr ⟨hburied, hknown⟩
        · exact Or.inl ((h d hknown).mpr (by simpa using hburied))
    refine ⟨increasing_iff.mpr fun d hactive => ?_, hcarried, fun row hrow => ?_, fun row hrow => ?_, ?_⟩
    · exact (h d (Roster.contains_devices_of_isActive hactive)).mp hactive
    · exact recorded_of_mem hrow
    · obtain ⟨record, hget, hrecord⟩ := recorded_of_mem hrow
      rw [Roster.isActive, hget, hrecord]
      rfl
    · obtain ⟨row, hrow, hid⟩ := (hcarried r.selfId).mpr hown
      obtain ⟨record, -, hrecord⟩ := recorded_of_mem hrow
      refine ⟨row, hrow, hid, ?_⟩
      rw [hrecord] at hid ⊢
      exact beq_iff_eq.mpr hid

end Client

namespace Roster

variable (C : Crypto)

/-- The app opens on the roster as it was written out, and shows the family of it. -/
def ShowsFamily (r : Roster) : Prop :=
  ∃ c, Client.restore r.selfId r.exportSnapshot = .ok c ∧ c.ListsFamily

theorem restore_export {r : Roster} (hown : r.devices.contains r.selfId = true) :
    Client.restore r.selfId r.exportSnapshot = .ok ⟨r.selfId, r⟩ := by
  obtain ⟨record, hrecord⟩ := Table.contains_iff.mp hown
  unfold Client.restore
  rw [import_export]
  simp [hrecord]

theorem showsFamily_iff {r : Roster} (h : Reachable C r) : r.ShowsFamily ↔ r.ActiveOrBuried := by
  have hown := h.contains_self C
  rw [← Client.listsFamily_iff hown]
  unfold ShowsFamily
  rw [restore_export hown]
  constructor
  · rintro ⟨c, hc, hlists⟩
    cases hc
    exact hlists
  · exact fun hlists => ⟨_, rfl, hlists⟩

theorem isActive_of_get? {r : Roster} {d : String} {record : DeviceRecord} (h : r.devices.get? d = some record) :
    r.isActive d = record.isActive := by
  rw [isActive, h]
  rfl

/-- Whoever is out is buried, and whoever is buried is out. -/
theorem activeOrBuried_iff {r : Roster} :
    r.ActiveOrBuried ↔ BuriesRemoved r ∧ ∀ d, r.tombstones.contains d = true → r.isActive d = false := by
  constructor
  · intro h
    refine ⟨fun d record hget hrem => ?_, fun d hburied => ?_⟩
    · by_contra hunburied
      have hactive := (h d (Table.contains_iff.mpr ⟨record, hget⟩)).mpr (by simpa using hunburied)
      rw [isActive_of_get? hget, DeviceRecord.isActive, hrem] at hactive
      cases hactive
    · by_contra hactive
      have hunburied := (h d (contains_devices_of_isActive (by simpa using hactive))).mp (by simpa using hactive)
      rw [hburied] at hunburied
      cases hunburied
  · rintro ⟨hremoved, hout⟩ d hknown
    obtain ⟨record, hget⟩ := Table.contains_iff.mp hknown
    have hactive := isActive_of_get? hget
    unfold DeviceRecord.isActive at hactive
    cases hstate : record.state with
    | active =>
      rw [hstate] at hactive
      refine iff_of_true hactive ?_
      by_contra hburied
      rw [hout d (by simpa using hburied)] at hactive
      cases hactive
    | removed =>
      rw [hstate] at hactive
      refine iff_of_false (by rw [hactive]; decide) ?_
      rw [hremoved d record hget hstate]
      decide

/-- A founded roster is born so. -/
theorem activeOrBuried_founded (me : SelfDescription) (identity : C.IdentityKey) :
    (founded C me identity).ActiveOrBuried := by
  refine activeOrBuried_iff.mpr ⟨buriesRemoved_run C me identity [] trivial, fun d hburied => ?_⟩
  exact (buriedAreOut_founded C me identity d hburied).1

/-- What the server says of an active device unsettles the roster, and nothing else does. -/
theorem activeOrBuried_step_iff {r : Roster} (hr : Reachable C r) (h : r.ActiveOrBuried) (op : Op C) :
    (step C r op).ActiveOrBuried ↔ ∀ d, r.isActive d = true → ¬ Revokes C d op := by
  constructor
  · intro hafter d hactive hrevokes
    cases op with
    | reconcileServerList listed =>
      have hknown := contains_devices_of_isActive hactive
      have hunburied : (r.reconcileServerList listed).1.tombstones.contains d = false := by
        rw [tombstones_reconcileServerList]
        exact (h d hknown).mp hactive
      have hstill := (hafter d (contains_devices_step C _ hknown)).mpr hunburied
      exact ((isActive_reconcileServerList r listed d).mp hstill).2 hrevokes
    | _ => exact hrevokes
  · intro hop
    obtain ⟨hremoved, hout⟩ := activeOrBuried_iff.mp h
    have hburied : BuriedAreOut r := fun d hd => ⟨hout d hd, buriedUnheld_reachable C hr d hd⟩
    exact activeOrBuried_iff.mpr
      ⟨buriesRemoved_step C hop hremoved, fun d hd => (buriedAreOut_step C hburied op d hd).1⟩

/-- The list shows every device once in all of a run exactly if the roster is born so and the
    server never revokes an active device in it. -/
theorem family_listed_iff {r : Roster} (h : Born C r) (ops : List (Op C)) :
    Trace.EachState (step C) ShowsFamily r ops ↔ r.ActiveOrBuried ∧
      Trace.EachStep (step C) (fun r op => ∀ d, r.isActive d = true → ¬ Revokes C d op) r ops := by
  have hborn : Reachable C r := .born h
  by_cases hsettled : r.ActiveOrBuried
  · rw [and_iff_right hsettled]
    refine Trace.eachState_iff_eachStep (I := Reachable C) (A := fun _ => True) (fun _ op _ hr _ _ => .step op hr) ?_
      (fun _ _ => trivial) hborn ((showsFamily_iff C hborn).mpr hsettled)
    intro s op _ hs hshows
    rw [showsFamily_iff C hs] at hshows
    rw [showsFamily_iff C (.step op hs), activeOrBuried_step_iff C hs hshows]
  · refine iff_of_false (fun hall => hsettled ?_) fun hall => hsettled hall.1
    exact (showsFamily_iff C hborn).mp (Trace.eachState_iff.mp hall [] ops rfl)

/-- The server says that `a` itself is revoked, and `a`'s own row is gone. -/
theorem revoked_device_vanishes : ¬ ∀ r, Reachable Crypto.plain r → r.ShowsFamily := by
  intro h
  have hr : Reachable Crypto.plain (run Crypto.plain founder [introduction "b" "kb" "" "a" "ka",
    .reconcileServerList [⟨"a", true⟩]]) := (Reachable.born (.found _ _)).run _
  obtain ⟨c, hc, hlists⟩ := h _ hr
  rw [restore_export (hr.contains_self Crypto.plain)] at hc
  cases hc
  obtain ⟨row, hrow, hid, -⟩ := hlists.own
  have hlisted := Client.carried_iff.mp ⟨row, hrow, hid⟩
  revert hlisted
  decide +kernel

theorem family_of_two :
    Trace.EachState (step Crypto.plain) ShowsFamily founder
      [introduction "b" "kb" "" "a" "ka", .remove "b" .lost "" "ka" (.ofSecs 1750200000)] := by
  refine (family_listed_iff Crypto.plain (.found _ _) _).mpr ⟨activeOrBuried_founded Crypto.plain _ _, ?_⟩
  exact ⟨fun _ _ h => h, fun _ _ h => h, trivial⟩

end Roster

end Beacon
