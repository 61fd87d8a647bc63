/-
  Beacon.Client.Listing — the server's device list, twice over (`Client::server_devices` for
  the screen, `Client::server_device_list` for `Roster::reconcile_server_list`).

  The screen is told which rows the roster counts in and which the server has revoked; the
  roster makes findings of the same rows, each against what the rows before it left, and
  then of the members that no row names.
  - `mem_findings`: the findings, row by row.
  - `one_list_two_views`: what the rows of the screen say of the findings. A row that is
    neither vouched nor revoked, the screen's sign of an injected device, need not be one the
    roster finds unvouched: a device that it has removed itself shows the same.
-/

import Beacon.Client.Device
import Beacon.Roster.ServerList
import Beacon.Transport.Http

namespace Beacon

open Lib

/-! ## The rows -/

structure ServerDeviceRow where
  deviceId : String
  revoked : Bool
  vouched : Bool
  lastSeen : Option SystemTime
  deriving DecidableEq, Repr

def ServerDeviceRow.fromRecord (record : ServerDeviceRecord) (vouched : Bool) : ServerDeviceRow :=
  ⟨record.id, record.revoked, vouched, record.lastSeen⟩

namespace Device

variable {σ : Type} {S : Stack σ}

def serverDevices (d : Device S) (w : σ) : Except AppError (List ServerDeviceRow) × σ :=
  match S.listDevices d.deviceId d.deviceKey w with
  | (.error error, w) => (.error (.ofSund error), w)
  | (.ok listed, w) => (.ok (listed.map fun record => .fromRecord record (d.roster.isActive record.id)), w)

def serverDeviceList (d : Device S) (w : σ) : Except AppError (List ServerDevice) × σ :=
  match S.listDevices d.deviceId d.deviceKey w with
  | (.error error, w) => (.error (.ofSund error), w)
  | (.ok listed, w) => (.ok (listed.map fun record => ⟨record.id, record.revoked⟩), w)

end Device

/-! ## The findings -/

namespace Roster

/-- What a row is found to be by this roster. -/
def rowFindings (r : Roster) (device : ServerDevice) : List ServerFinding :=
  match r.devices.get? device.deviceId with
  | none => [.unvouched device.deviceId]
  | some record =>
    if record.isActive then
      if device.revoked then [.revokedByServer device.deviceId] else [.normal device.deviceId]
    else []

theorem findings_reconcileRow (s : Reconcile) (device : ServerDevice) :
    (reconcileRow s device).findings = s.findings ++ s.roster.rowFindings device ∧
      (reconcileRow s device).seen = s.seen.insert device.deviceId := by
  unfold reconcileRow rowFindings
  cases hrecord : s.roster.devices.get? device.deviceId with
  | none => simp [hrecord]
  | some record =>
    cases ha : record.isActive
    · simp [hrecord, ha]
    · cases hrevoked : device.revoked <;> simp [hrecord, ha]

theorem findings_rows (listed : List ServerDevice) (s : Reconcile) : (listed.foldl reconcileRow s).findings =
    s.findings ++ Trace.log reconcileRow (fun s device => s.roster.rowFindings device) s listed := by
  induction listed generalizing s with
  | nil => exact (List.append_nil _).symm
  | cons device listed ih =>
    rw [List.foldl_cons, ih, (findings_reconcileRow s device).1, List.append_assoc]
    rfl

theorem seen_rows (listed : List ServerDevice) (s : Reconcile) (d : String) :
    (listed.foldl reconcileRow s).seen.contains d = true ↔
      s.seen.contains d = true ∨ ∃ device ∈ listed, device.deviceId = d := by
  induction listed generalizing s with
  | nil => simp
  | cons device listed ih =>
    rw [List.foldl_cons, ih, (findings_reconcileRow s device).2, Std.ExtTreeSet.contains_insert]
    simp [or_assoc, or_left_comm]

/-- The findings are those of the rows, each by the roster that the rows before it left, and the active devices that no
    row names. -/
theorem mem_findings (r : Roster) (listed : List ServerDevice) (finding : ServerFinding) :
    finding ∈ (r.reconcileServerList listed).2.outcome ↔
      (∃ before device after, listed = before ++ device :: after ∧
        finding ∈ (r.reconcileServerList before).1.rowFindings device) ∨
      ∃ d, finding = .unreachable d ∧ r.isActive d = true ∧ ∀ device ∈ listed, device.deviceId ≠ d := by
  have hlog := findings_rows listed ⟨r, [], [], ∅⟩
  have hrows : finding ∈ (listed.foldl reconcileRow ⟨r, [], [], ∅⟩).findings ↔
      ∃ before device after, listed = before ++ device :: after ∧
        finding ∈ (r.reconcileServerList before).1.rowFindings device := by
    rw [hlog, List.nil_append]
    exact Trace.mem_log
  show finding ∈ (listed.foldl reconcileRow ⟨r, [], [], ∅⟩).findings ++ List.map _ (List.filter _ _) ↔ _
  rw [List.mem_append, hrows]
  refine or_congr_right ?_
  have hseen : ∀ d, (listed.foldl reconcileRow ⟨r, [], [], ∅⟩).seen.contains d = true ↔
      ∃ device ∈ listed, device.deviceId = d := fun d => (seen_rows listed _ d).trans (by simp)
  have hactive := isActive_reconcileServerList r listed
  constructor
  · intro h
    obtain ⟨record, hrecord, rfl⟩ := List.mem_map.mp h
    obtain ⟨hvalue, htest⟩ := List.mem_filter.mp hrecord
    obtain ⟨ha, hunseen⟩ := (Bool.and_eq_true _ _).mp htest
    have hstill : (r.reconcileServerList listed).1.isActive record.deviceId = true :=
      isActive_iff.mpr ⟨record, Table.mem_values.mp hvalue, ha⟩
    refine ⟨record.deviceId, rfl, ((hactive _).mp hstill).1, fun device hdevice hid => ?_⟩
    rw [(hseen record.deviceId).mpr ⟨device, hdevice, hid⟩] at hunseen
    cases hunseen
  · rintro ⟨d, rfl, ha, hunlisted⟩
    have hstill : (r.reconcileServerList listed).1.isActive d = true :=
      (hactive d).mpr ⟨ha, fun hmem => hunlisted _ hmem rfl⟩
    obtain ⟨record, hrecord, ha⟩ := isActive_iff.mp hstill
    have hkey : record.deviceId = d := Table.get?_key hrecord
    refine List.mem_map.mpr ⟨record, List.mem_filter.mpr ⟨Table.mem_values_of_get? hrecord, ?_⟩, by rw [hkey]⟩
    rw [ha, Bool.true_and, Bool.not_eq_true', ← Bool.not_eq_true, hkey, hseen]
    rintro ⟨device, hdevice, hid⟩
    exact hunlisted device hdevice hid

theorem mem_rowFindings {r : Roster} {device : ServerDevice} {finding : ServerFinding} :
    finding ∈ r.rowFindings device ↔ match finding with
      | .unvouched d => device.deviceId = d ∧ r.devices.get? d = none
      | .revokedByServer d => device = ⟨d, true⟩ ∧ r.isActive d = true
      | .normal d => device = ⟨d, false⟩ ∧ r.isActive d = true
      | .unreachable _ => False := by
  obtain ⟨deviceId, revoked⟩ := device
  unfold rowFindings
  cases finding with
  | unvouched d | revokedByServer d | normal d =>
    by_cases hd : deviceId = d
    · subst hd
      cases hrecord : r.devices.get? deviceId with
      | none => simp [isActive, hrecord]
      | some record => cases ha : record.isActive <;> cases revoked <;> simp [isActive, hrecord, ha]
    · cases r.devices.get? deviceId with
      | none => simp [hd, Ne.symm hd]
      | some record => cases ha : record.isActive <;> cases revoked <;> simp [hd, Ne.symm hd, ha]
  | unreachable d =>
    cases r.devices.get? deviceId with
    | none => simp
    | some record => cases ha : record.isActive <;> cases revoked <;> simp [ha]

end Roster

/-! ## The two views -/

/-- The row as the roster is told of it. -/
def ServerDeviceRow.device (row : ServerDeviceRow) : ServerDevice := ⟨row.deviceId, row.revoked⟩

/-- What the rows of the screen and the findings of the roster `r` say of one another. -/
structure TwoViews (r : Roster) (rows : List ServerDeviceRow) (findings : List ServerFinding) : Prop where
  revoked : ∀ d, .revokedByServer d ∈ findings ↔
    ∃ row ∈ rows, row.deviceId = d ∧ row.vouched = true ∧ row.revoked = true
  /-- Unless a row before it says that the device is revoked. -/
  normal : ∀ d, .normal d ∈ findings ↔ ∃ before row after, rows = before ++ row :: after ∧ row.deviceId = d ∧
    row.vouched = true ∧ row.revoked = false ∧ ∀ earlier ∈ before, earlier.deviceId = d → earlier.revoked = false
  unvouched : ∀ d, .unvouched d ∈ findings ↔ r.devices.get? d = none ∧ ∃ row ∈ rows, row.deviceId = d
  unreachable : ∀ d, .unreachable d ∈ findings ↔ r.isActive d = true ∧ ∀ row ∈ rows, row.deviceId ≠ d
  /-- The screen's sign of an injected device. -/
  injected : ∀ d, (∃ row ∈ rows, row.deviceId = d ∧ row.vouched = false ∧ row.revoked = false) ↔
    (∃ row ∈ rows, row.deviceId = d ∧ row.revoked = false) ∧
      (.unvouched d ∈ findings ∨ ∃ record, r.devices.get? d = some record ∧ record.isActive = false)

section

variable {r : Roster} {rows : List ServerDeviceRow}

theorem mem_device_rows {d : String} {revoked : Bool} :
    (⟨d, revoked⟩ : ServerDevice) ∈ rows.map ServerDeviceRow.device ↔
      ∃ row ∈ rows, row.deviceId = d ∧ row.revoked = revoked := by
  simp [ServerDeviceRow.device]

theorem revoked_rows (hvouched : ∀ row ∈ rows, row.vouched = r.isActive row.deviceId) (d : String) :
    .revokedByServer d ∈ (r.reconcileServerList (rows.map ServerDeviceRow.device)).2.outcome ↔
      ∃ row ∈ rows, row.deviceId = d ∧ row.vouched = true ∧ row.revoked = true := by
  rw [Roster.mem_findings]
  simp only [Roster.mem_rowFindings, reduceCtorEq, false_and, exists_false, or_false]
  constructor
  · rintro ⟨before, device, after, hsplit, rfl, ha⟩
    have hmem : (⟨d, true⟩ : ServerDevice) ∈ rows.map ServerDeviceRow.device := by rw [hsplit]; simp
    obtain ⟨row, hrow, rfl, hrevoked⟩ := mem_device_rows.mp hmem
    rw [Roster.isActive_reconcileServerList] at ha
    exact ⟨row, hrow, rfl, (hvouched row hrow).trans ha.1, hrevoked⟩
  · rintro ⟨row, hrow, rfl, ha, hrevoked⟩
    -- the first row that says so
    obtain ⟨before, after, hsplit, hfirst⟩ := List.eq_append_cons_of_mem (mem_device_rows.mpr ⟨row, hrow, rfl, hrevoked⟩)
    refine ⟨before, _, after, hsplit, rfl, ?_⟩
    rw [Roster.isActive_reconcileServerList]
    exact ⟨(hvouched row hrow).symm.trans ha, hfirst⟩

theorem normal_rows (hvouched : ∀ row ∈ rows, row.vouched = r.isActive row.deviceId) (d : String) :
    .normal d ∈ (r.reconcileServerList (rows.map ServerDeviceRow.device)).2.outcome ↔
      ∃ before row after, rows = before ++ row :: after ∧ row.deviceId = d ∧ row.vouched = true ∧
        row.revoked = false ∧ ∀ earlier ∈ before, earlier.deviceId = d → earlier.revoked = false := by
  rw [Roster.mem_findings]
  simp only [Roster.mem_rowFindings, reduceCtorEq, false_and, exists_false, or_false]
  have hunrevoked : ∀ before : List ServerDeviceRow, (⟨d, true⟩ : ServerDevice) ∉ before.map ServerDeviceRow.device ↔
      ∀ earlier ∈ before, earlier.deviceId = d → earlier.revoked = false := by
    intro before
    rw [mem_device_rows]
    simp
  constructor
  · rintro ⟨before, device, after, hsplit, rfl, ha⟩
    obtain ⟨before, rest, rfl, rfl, hrest⟩ := List.map_eq_append_iff.mp hsplit
    obtain ⟨row, after, rfl, hrow, rfl⟩ := List.map_eq_cons_iff.mp hrest
    obtain ⟨rfl, hrevoked⟩ : row.deviceId = d ∧ row.revoked = false := by simpa [ServerDeviceRow.device] using hrow
    rw [Roster.isActive_reconcileServerList, hunrevoked] at ha
    exact ⟨before, row, after, rfl, rfl, (hvouched row (by simp)).trans ha.1, hrevoked, ha.2⟩
  · rintro ⟨before, row, after, rfl, rfl, ha, hrevoked, hearlier⟩
    refine ⟨before.map ServerDeviceRow.device, row.device, after.map ServerDeviceRow.device, by simp, ?_, ?_⟩
    · rw [ServerDeviceRow.device, hrevoked]
    · rw [Roster.isActive_reconcileServerList, hunrevoked]
      exact ⟨(hvouched row (by simp)).symm.trans ha, hearlier⟩

theorem unvouched_rows (r : Roster) (rows : List ServerDeviceRow) (d : String) :
    .unvouched d ∈ (r.reconcileServerList (rows.map ServerDeviceRow.device)).2.outcome ↔
      r.devices.get? d = none ∧ ∃ row ∈ rows, row.deviceId = d := by
  rw [Roster.mem_findings]
  simp only [Roster.mem_rowFindings, reduceCtorEq, false_and, exists_false, or_false]
  have hstill : ∀ listed, (r.reconcileServerList listed).1.devices.get? d = none ↔ r.devices.get? d = none := by
    intro listed
    rw [Roster.get?_reconcileServerList, Option.map_eq_none_iff]
  constructor
  · rintro ⟨before, device, after, hsplit, rfl, hnone⟩
    have hmem : device ∈ rows.map ServerDeviceRow.device := by rw [hsplit]; simp
    obtain ⟨row, hrow, rfl⟩ := List.mem_map.mp hmem
    exact ⟨(hstill _).mp hnone, row, hrow, rfl⟩
  · rintro ⟨hnone, row, hrow, rfl⟩
    obtain ⟨before, after, hsplit⟩ := List.append_of_mem (List.mem_map_of_mem (f := ServerDeviceRow.device) hrow)
    exact ⟨before, row.device, after, hsplit, rfl, (hstill _).mpr hnone⟩

theorem unreachable_rows (r : Roster) (rows : List ServerDeviceRow) (d : String) :
    .unreachable d ∈ (r.reconcileServerList (rows.map ServerDeviceRow.device)).2.outcome ↔
      r.isActive d = true ∧ ∀ row ∈ rows, row.deviceId ≠ d := by
  rw [Roster.mem_findings]
  simp only [Roster.mem_rowFindings, and_false, exists_false, false_or]
  constructor
  · rintro ⟨d', heq, ha, hrows⟩
    cases heq
    exact ⟨ha, fun row hrow => hrows _ (List.mem_map_of_mem hrow)⟩
  · rintro ⟨ha, hrows⟩
    refine ⟨d, rfl, ha, fun device hdevice => ?_⟩
    obtain ⟨row, hrow, rfl⟩ := List.mem_map.mp hdevice
    exact hrows row hrow

theorem twoViews (hvouched : ∀ row ∈ rows, row.vouched = r.isActive row.deviceId) :
    TwoViews r rows (r.reconcileServerList (rows.map ServerDeviceRow.device)).2.outcome where
  revoked := revoked_rows hvouched
  normal := normal_rows hvouched
  unvouched := unvouched_rows r rows
  unreachable := unreachable_rows r rows
  injected d := by
    rw [unvouched_rows]
    constructor
    · rintro ⟨row, hrow, rfl, hout, hrevoked⟩
      refine ⟨⟨row, hrow, rfl, hrevoked⟩, ?_⟩
      rw [hvouched row hrow] at hout
      cases hrecord : r.devices.get? row.deviceId with
      | none => exact Or.inl ⟨rfl, row, hrow, rfl⟩
      | some record => exact Or.inr ⟨record, rfl, by simpa [Roster.isActive, hrecord] using hout⟩
    · rintro ⟨⟨row, hrow, rfl, hrevoked⟩, hor⟩
      refine ⟨row, hrow, rfl, (hvouched row hrow).trans ?_, hrevoked⟩
      rcases hor with ⟨hnone, -⟩ | ⟨record, hrecord, hout⟩
      · simp [Roster.isActive, hnone]
      · simp [Roster.isActive, hrecord, hout]

end

/-- Whatever the server answers, both calls fail alike, or the rows that the screen is given and the findings that the
    roster makes of the list are two views of one list; and the devices that the roster counts in afterwards are those
    it did before, but for the ones it found revoked. -/
theorem one_list_two_views {σ : Type} {S : Stack σ} (d : Device S) (w : σ) :
    (∃ error, (d.serverDevices w).1 = .error error ∧ (d.serverDeviceList w).1 = .error error) ∨
    ∃ rows listed, (d.serverDevices w).1 = .ok rows ∧ (d.serverDeviceList w).1 = .ok listed ∧
      TwoViews d.roster rows (d.roster.reconcileServerList listed).2.outcome ∧
      ∀ x, (d.roster.reconcileServerList listed).1.isActive x = true ↔
        d.roster.isActive x = true ∧ .revokedByServer x ∉ (d.roster.reconcileServerList listed).2.outcome := by
  unfold Device.serverDevices Device.serverDeviceList
  rcases S.listDevices d.deviceId d.deviceKey w with ⟨error | records, w'⟩
  · exact Or.inl ⟨_, rfl, rfl⟩
  · let rows := records.map fun record => ServerDeviceRow.fromRecord record (d.roster.isActive record.id)
    have hvouched : ∀ row ∈ rows, row.vouched = d.roster.isActive row.deviceId := by
      intro row hrow
      obtain ⟨record, -, rfl⟩ := List.mem_map.mp hrow
      rfl
    have hlisted : rows.map ServerDeviceRow.device = records.map fun record => ⟨record.id, record.revoked⟩ := by
      simp [rows, ServerDeviceRow.device, ServerDeviceRow.fromRecord]
    have hviews := twoViews hvouched
    rw [hlisted] at hviews
    refine Or.inr ⟨rows, _, rfl, rfl, hviews, fun x => ?_⟩
    rw [Roster.isActive_reconcileServerList, hviews.revoked, ← hlisted, mem_device_rows]
    refine and_congr_right fun ha => not_congr ?_
    constructor
    · rintro ⟨row, hrow, rfl, hrevoked⟩
      exact ⟨row, hrow, rfl, (hvouched row hrow).trans ha, hrevoked⟩
    · rintro ⟨row, hrow, hid, -, hrevoked⟩
      exact ⟨row, hrow, hid, hrevoked⟩

end Beacon
