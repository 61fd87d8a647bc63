/-
  Beacon.Roster.Adoption — the roster a joiner starts from, whatever list it is handed.

  `adopt` checks the vouch and that this device is not among the tombstoned, and takes the
  rest wholesale: of several records under one id the last, its own record over any of
  them, and the introducer's only where the list has none.
  - `adoption_is_as_handed`: so this device's own standing is always right, and each other
    thing to be asked of a roster holds of the adopted one exactly if it holds of the list.
-/

import Mathlib.Data.List.Dedup
import Beacon.Roster.Epochs
import Beacon.Roster.Joining

namespace Beacon

open Lib

namespace Roster

variable (C : Crypto)

/-- The record handed over for `d`: the last one listed, or else the introducer's own. -/
def handed (introducer : DeviceRecord) (devices : List DeviceRecord) (d : String) : Option DeviceRecord :=
  (devices.reverse.find? fun record => record.deviceId = d).or
    (if introducer.deviceId = d then some introducer else none)

/-- The tombstone handed over for `d`, the last one listed. -/
def handedTombstone (tombstones : List Tombstone) (d : String) : Option Tombstone :=
  tombstones.reverse.find? fun tombstone => tombstone.subject = d

/-- The other devices that are handed over as active. -/
def othersActive (selfId : String) (introducer : DeviceRecord) (devices : List DeviceRecord) : List String :=
  ((devices ++ [introducer]).map (·.deviceId)).dedup.filter fun d =>
    d ≠ selfId && (handed introducer devices d).any (·.isActive)

/-- An adopted roster, part by part, against what was handed over. -/
structure AsHanded (selfId : String) (introducer : DeviceRecord) (devices : List DeviceRecord)
    (tombstones : List Tombstone) (epoch : UInt64) (vouch : RosterIntroduce) (r : Roster) : Prop where
  own : ∃ record, r.devices.get? selfId = some record ∧ record.isActive = true ∧
    record.identityPk = vouch.subject.identityPk
  ownNotTombstoned : r.tombstones.contains selfId = false
  dominated : (∀ d, r.tombstones.contains d = true → r.isActive d = false) ↔
    ∀ d record, d ≠ selfId → (handedTombstone tombstones d).isSome = true → handed introducer devices d = some record →
      record.isActive = false
  introducerKept : r.identityOf C introducer.deviceId = C.fromBase64 introducer.identityPk ↔
    if introducer.deviceId = selfId then C.fromBase64 vouch.subject.identityPk = C.fromBase64 introducer.identityPk
    else ∃ record, handed introducer devices introducer.deviceId = some record ∧ record.isActive = true ∧
      C.fromBase64 record.identityPk = C.fromBase64 introducer.identityPk
  capped : r.activeCount ≤ maxActiveDevices ↔ (othersActive selfId introducer devices).length < maxActiveDevices
  covered : Covers r ↔ ∀ d tombstone, handedTombstone tombstones d = some tombstone → tombstone.epoch ≤ epoch

variable {C} {selfId : String} {introducer : DeviceRecord} {devices : List DeviceRecord} {tombstones : List Tombstone}
  {epoch : UInt64} {vouch : RosterIntroduce} {applied : Applied Roster}

theorem get?_ofList_devices (devices : List DeviceRecord) (d : String) :
    (Table.ofList devices : Table DeviceRecord.deviceId).get? d =
      devices.reverse.find? fun record => record.deviceId = d := by
  rw [Table.get?_ofList]
  congr 1
  funext record
  rw [Bool.eq_iff_iff, beq_iff_eq, decide_eq_true_eq]
  exact Std.compare_eq_iff_eq

theorem get?_ofList_tombstones (tombstones : List Tombstone) (d : String) :
    (Table.ofList tombstones : Table Tombstone.subject).get? d = handedTombstone tombstones d := by
  rw [Table.get?_ofList, handedTombstone]
  congr 1
  funext tombstone
  rw [Bool.eq_iff_iff, beq_iff_eq, decide_eq_true_eq]
  exact Std.compare_eq_iff_eq

/-- The vouch verifies under the introducer's key. -/
theorem verified_adopt (h : adopt C selfId introducer devices tombstones epoch vouch = .ok applied) :
    ∃ key, C.fromBase64 introducer.identityPk = some key ∧ C.verify key (.vouch vouch.payload) vouch.vouch = true := by
  simp only [adopt, bind, Except.bind, parseIdentity, verifyVouch] at h
  split at h
  · cases h
  cases hkey : C.fromBase64 introducer.identityPk with
  | none =>
    rw [hkey] at h
    cases h
  | some key =>
    rw [hkey] at h
    refine ⟨key, rfl, ?_⟩
    by_contra hv
    simp only [if_neg hv] at h
    cases h

/-- The records of an adopted roster. -/
theorem get?_adopt (h : adopt C selfId introducer devices tombstones epoch vouch = .ok applied) (d : String) :
    applied.outcome.devices.get? d =
      if d = selfId then some (.fromVouch vouch.subject introducer.deviceId) else handed introducer devices d := by
  obtain ⟨hsubject, -, hout⟩ := outcome_adopt C h
  rw [hout]
  let own : Table DeviceRecord.deviceId :=
    (Table.ofList devices).insert (.fromVouch vouch.subject introducer.deviceId)
  show (own.insertIfNew introducer).get? d = _
  have hmine : (DeviceRecord.fromVouch vouch.subject introducer.deviceId).deviceId = selfId := hsubject
  have hlisted : ∀ e, own.get? e =
      if e = selfId then some (.fromVouch vouch.subject introducer.deviceId)
      else devices.reverse.find? fun record => record.deviceId = e := by
    intro e
    show ((Table.ofList devices).insert (.fromVouch vouch.subject introducer.deviceId)).get? e = _
    rw [Table.get?_insert, hmine, get?_ofList_devices]
    simp only [@eq_comm _ selfId]
  unfold Table.insertIfNew
  split
  · -- the introducer's id is listed, or this device's own
    rename_i hknown
    rw [hlisted]
    split
    · rfl
    · rename_i hother
      rw [Table.contains, hlisted] at hknown
      unfold handed
      by_cases hd : introducer.deviceId = d
      · subst hd
        rw [if_neg hother] at hknown
        obtain ⟨record, hrecord⟩ := Option.isSome_iff_exists.mp hknown
        rw [hrecord]
        rfl
      · rw [if_neg hd, Option.or_none]
  · rename_i hnew
    rw [Table.get?_insert]
    have hnone := Table.contains_eq_false.mp (by simpa using hnew)
    rw [hlisted] at hnone
    by_cases hd : introducer.deviceId = d
    · subst hd
      split at hnone
      · cases hnone
      · rename_i hother
        rw [if_pos rfl, if_neg hother, handed, hnone, if_pos rfl]
        rfl
    · rw [if_neg hd, hlisted, handed, if_neg hd, Option.or_none]

theorem isActive_adopt (h : adopt C selfId introducer devices tombstones epoch vouch = .ok applied) (d : String) :
    applied.outcome.isActive d = (decide (d = selfId) || (handed introducer devices d).any (·.isActive)) := by
  unfold isActive
  rw [get?_adopt h]
  by_cases hd : d = selfId
  · rw [if_pos hd]
    simp [hd]
    rfl
  · rw [if_neg hd]
    simp [hd]

theorem handed_of_active {d : String} (h : (handed introducer devices d).any (·.isActive) = true) :
    d ∈ (devices ++ [introducer]).map (·.deviceId) := by
  obtain ⟨record, hrecord, -⟩ := (Option.any_eq_true _ _).mp h
  unfold handed at hrecord
  rw [List.mem_map]
  rcases Option.or_eq_some_iff.mp hrecord with hlisted | ⟨-, hown⟩
  · have hd := List.find?_some hlisted
    exact ⟨record, List.mem_append_left _ (List.mem_reverse.mp (List.mem_of_find?_eq_some hlisted)), by simpa using hd⟩
  · split at hown
    · rename_i hd
      exact ⟨introducer, List.mem_append_right _ (List.mem_singleton_self _), hd⟩
    · cases hown

theorem activeCount_adopt (h : adopt C selfId introducer devices tombstones epoch vouch = .ok applied) :
    applied.outcome.activeCount = (othersActive selfId introducer devices).length + 1 := by
  have hnot : selfId ∉ othersActive selfId introducer devices := by simp [othersActive]
  rw [← List.length_cons (a := selfId)]
  refine Table.countP_eq_length (List.nodup_cons.mpr ⟨hnot, (List.nodup_dedup _).filter _⟩) fun d => ?_
  have hactive : (∃ record, applied.outcome.devices.get? d = some record ∧ record.isActive = true) ↔
      applied.outcome.isActive d = true := isActive_iff.symm
  rw [hactive, isActive_adopt h, List.mem_cons, othersActive, List.mem_filter, List.mem_dedup]
  by_cases hd : d = selfId
  · simp [hd]
  · simp only [hd, decide_false, Bool.false_or, ne_eq, not_false_eq_true, decide_true, Bool.true_and, false_or]
    exact ⟨And.right, fun ha => ⟨handed_of_active ha, ha⟩⟩

variable (C)

theorem adoption_is_as_handed (h : adopt C selfId introducer devices tombstones epoch vouch = .ok applied) :
    AsHanded C selfId introducer devices tombstones epoch vouch applied.outcome := by
  obtain ⟨hsubject, hkept, hout⟩ := outcome_adopt C h
  have htombstones : applied.outcome.tombstones = .ofList tombstones := tombstones_adopt C h
  have hepoch : applied.outcome.epoch = epoch := by rw [hout]
  have hburied : ∀ d, applied.outcome.tombstones.contains d = (handedTombstone tombstones d).isSome := by
    intro d
    rw [htombstones, Table.contains, get?_ofList_tombstones]
  refine ⟨⟨_, by rw [get?_adopt h, if_pos rfl], rfl, rfl⟩, by rw [htombstones]; exact hkept, ?_, ?_, ?_, ?_⟩
  · constructor
    · intro hdom d record hother hd hrecord
      have hout := hdom d (by rw [hburied]; exact hd)
      rw [isActive_adopt h, hrecord, Bool.or_eq_false_iff] at hout
      exact hout.2
    · intro hlist d hd
      have hother : d ≠ selfId := by
        rintro rfl
        rw [htombstones, hkept] at hd
        cases hd
      rw [hburied] at hd
      rw [isActive_adopt h]
      cases hrecord : handed introducer devices d with
      | none => simp [hother]
      | some record => simp [hother, hlist d record hother hd hrecord]
  · obtain ⟨key, hkey, -⟩ := verified_adopt h
    rw [identityOf, get?_adopt h, hkey]
    split
    · rfl
    · cases hrecord : handed introducer devices introducer.deviceId with
      | none => simp
      | some record => cases ha : record.isActive <;> simp [ha]
  · rw [activeCount_adopt h]
    omega
  · unfold Covers
    rw [hepoch, htombstones]
    simp only [get?_ofList_tombstones]

/-! ## A list that contradicts itself -/

/-- `a`, as its QR code shows it. -/
def introducerA : DeviceRecord := ⟨"a", "ka", "a", "g", "admin", "", "a", .active⟩

/-- `a` under another key, and more devices than a family may have. -/
def contradictory : List DeviceRecord :=
  { introducerA with identityPk := "kx" } ::
    (List.range 20).map fun i => ⟨"c" ++ toString i, "kc", "c", "g", "child", "", "a", .active⟩

/-- One of them is tombstoned, at an epoch the list has not reached. -/
def contradicting : List Tombstone := [⟨"c0", .removed, "", "a", 7⟩]

theorem adopt_contradictory : ∃ applied,
    adopt Crypto.plain "b" introducerA contradictory contradicting 0 (vouched "b" "kb" "" "ka") = .ok applied :=
  adopt_succeeds Crypto.plain rfl (show Crypto.plain.fromBase64 "ka" = some (Crypto.plain.publicKey "ka") from rfl)
    (by decide +kernel) (by decide +kernel)

theorem contradictory_list_is_adopted : ∃ applied,
    adopt Crypto.plain "b" introducerA contradictory contradicting 0 (vouched "b" "kb" "" "ka") = .ok applied ∧
      ¬(∀ d, applied.outcome.tombstones.contains d = true → applied.outcome.isActive d = false) ∧
      applied.outcome.identityOf Crypto.plain "a" ≠ Crypto.plain.fromBase64 "ka" ∧
      ¬ applied.outcome.activeCount ≤ maxActiveDevices ∧ ¬ Covers applied.outcome := by
  obtain ⟨applied, h⟩ := adopt_contradictory
  have htombstones : applied.outcome.tombstones = .ofList contradicting := tombstones_adopt Crypto.plain h
  refine ⟨applied, h, fun hdom => ?_, ?_, ?_, fun hcovers => ?_⟩
  · have hout := hdom "c0" (by rw [htombstones]; decide +kernel)
    rw [isActive_adopt h] at hout
    exact absurd hout (by decide +kernel)
  · unfold identityOf
    rw [get?_adopt h]
    decide +kernel
  · rw [activeCount_adopt h]
    decide +kernel
  · have hle := hcovers "c0" ⟨"c0", .removed, "", "a", 7⟩ (by
      rw [htombstones, get?_ofList_tombstones]
      decide +kernel)
    rw [(outcome_adopt Crypto.plain h).2.2] at hle
    exact absurd hle (by decide)

theorem joiner_adopts_as_handed : ∃ applied,
    adopt Crypto.plain "b" introducerA contradictory contradicting 0 (vouched "b" "kb" "" "ka") = .ok applied ∧
      AsHanded Crypto.plain "b" introducerA contradictory contradicting 0 (vouched "b" "kb" "" "ka") applied.outcome := by
  obtain ⟨applied, h⟩ := adopt_contradictory
  exact ⟨applied, h, adoption_is_as_handed Crypto.plain h⟩

end Roster

end Beacon
