/-
  Beacon.Roster.Runs — a roster's runs. An `Op` is one call of a mutating operation
  with all its arguments, so a run is a list of them: adversarial messages, senders,
  signatures, clocks and server lists included.

  A roster is born by `found`, or by an `adopt` that succeeded, of whatever snapshot.
  A restart exports the roster and imports it under some id; a refused import leaves
  no roster behind, and the one in memory stands. A restart under the own id loses
  nothing (`import_export`), so a restart is no step at all (`step_restart`).
-/

import Beacon.Roster.Receive
import Beacon.Lib.Trace

namespace Beacon

open Lib

namespace Roster

inductive Op (C : Crypto) where
  | receiveIntroduce (message : RosterIntroduce) (introducer : String) (now : SystemTime)
  | approveHeld (subject : String)
  | denyHeld (subject : String)
  | receiveRemove (message : RosterRemove) (remover : String) (now : SystemTime)
  | remove (subject : String) (reason : RemovalReason) (removedAt : String) (identity : C.IdentityKey)
      (now : SystemTime)
  | receiveSync (message : RosterSync) (sender : String)
  | updateLabels (deviceId : String) (displayName memberGroup role : Option String)
  | reconcileServerList (listed : List ServerDevice)
  | restart (selfId : String)

variable (C : Crypto)

def restart (r : Roster) (selfId : String) : Roster :=
  match importSnapshot r.exportSnapshot selfId with
  | .ok r' => r'
  | .error _ => r

def step (r : Roster) : Op C → Roster
  | .receiveIntroduce message introducer now => (r.receiveIntroduce C message introducer now).1
  | .approveHeld subject => (r.approveHeld subject).1
  | .denyHeld subject => (r.denyHeld subject).1
  | .receiveRemove message remover now => (r.receiveRemove C message remover now).1
  | .remove subject reason removedAt identity now => (r.remove C subject reason removedAt identity now).1
  | .receiveSync message sender => (r.receiveSync C message sender).1
  | .updateLabels deviceId displayName memberGroup role => (r.updateLabels deviceId displayName memberGroup role).1
  | .reconcileServerList listed => (r.reconcileServerList listed).1
  | .restart selfId => r.restart selfId

abbrev run (r : Roster) (ops : List (Op C)) : Roster := Trace.run (step C) r ops

theorem run_snoc (r : Roster) (ops : List (Op C)) (op : Op C) :
    run C r (ops ++ [op]) = step C (run C r ops) op := Trace.run_snoc r ops op

/-- The roster a founding device starts from. -/
def founded (me : SelfDescription) (identity : C.IdentityKey) : Roster := (found C me identity).outcome

inductive Born : Roster → Prop
  | found (me : SelfDescription) (identity : C.IdentityKey) : Born (founded C me identity)
  | adopt {selfId : String} {introducer : DeviceRecord} {devices : List DeviceRecord} {tombstones : List Tombstone}
      {epoch : UInt64} {vouch : RosterIntroduce} {applied : Applied Roster} :
      Roster.adopt C selfId introducer devices tombstones epoch vouch = .ok applied → Born applied.outcome

inductive Reachable : Roster → Prop
  | born {r : Roster} : Born C r → Reachable r
  | step {r : Roster} (op : Op C) : Reachable r → Reachable (step C r op)

variable {C} in
theorem Reachable.run {r : Roster} (h : Reachable C r) (ops : List (Op C)) : Reachable C (run C r ops) := by
  induction ops generalizing r with
  | nil => exact h
  | cons op ops ih => exact ih (.step op h)

/-! ## A restart loses nothing -/

theorem import_export (r : Roster) : importSnapshot r.exportSnapshot r.selfId = .ok r := by
  have hset : Std.ExtTreeSet.ofList r.removedMe.toList = r.removedMe := by
    apply Std.ExtTreeSet.ext_mem
    intro k
    rw [Std.ExtTreeSet.mem_ofList, List.contains_iff_mem, Std.ExtTreeSet.mem_toList]
  simp [importSnapshot, exportSnapshot, Table.ofList_values, hset]

@[simp] theorem step_restart (r : Roster) (selfId : String) : step C r (.restart selfId) = r := by
  show r.restart selfId = r
  unfold restart
  by_cases h : r.selfId = selfId
  · subst h; rw [import_export]
  · have : importSnapshot r.exportSnapshot selfId = .error (.wrongDevice selfId r.selfId) := by
      simp [importSnapshot, exportSnapshot, h]
    rw [this]

/-! ## Runs on keys that sign by naming themselves -/

/-- A vouch signed at `joinedAt` by the key `introducer`. -/
def vouched (deviceId identityPk joinedAt introducer : String) : RosterIntroduce :=
  let subject : VouchedSubject := ⟨deviceId, identityPk, deviceId, "g", "child", joinedAt⟩
  ⟨subject, 0, Crypto.signText introducer (.vouch ⟨subject, 0⟩)⟩

/-- Its reception at one fixed instant, 2025-06-15T15:06:40Z. -/
def introduction (deviceId identityPk joinedAt introducer introducerKey : String) : Op Crypto.plain :=
  .receiveIntroduce (vouched deviceId identityPk joinedAt introducerKey) introducer (.ofSecs 1750000000)

def founder : Roster := founded Crypto.plain ⟨"a", "a", "g", "admin", ""⟩ "ka"

/-- `b`, which `founder` vouched for, on its first day. -/
def joiner : Roster :=
  let introducer : DeviceRecord := ⟨"a", "ka", "a", "g", "admin", "", "a", .active⟩
  match adopt Crypto.plain "b" introducer [introducer] [] 0 (vouched "b" "kb" "" "ka") with
  | .ok applied => applied.outcome
  | .error _ => founder

theorem born_joiner : Born Crypto.plain joiner := by
  unfold joiner
  simp only []
  split
  · rename_i h; exact .adopt h
  · exact .found _ _

end Roster

end Beacon
