/-
  Beacon.Roster.Refusals — a message that is refused has written nothing.

  `receive_introduce`, `receive_remove`, `receive_sync` and `remove` check before they
  write: whatever end they report short of taking the message in, the roster afterwards is
  the one before, the churn log and the quarantine included (`refusals_leave_no_trace`).
  An unverifiable signature is one such end, so it burns nobody's budget.
-/

import Beacon.Roster.Burials

namespace Beacon

open Lib

namespace Roster

variable (C : Crypto)

/-- The operation reports that it did not take the message in. -/
def Refuses (r : Roster) : Op C → Prop
  | .receiveIntroduce message introducer now =>
    (∃ refusal, (r.receiveIntroduce C message introducer now).2.outcome = .refused refusal) ∨
      (r.receiveIntroduce C message introducer now).2.outcome = .alreadyKnown
  | .receiveRemove message remover now =>
    ∃ refusal, (r.receiveRemove C message remover now).2.outcome = .refused refusal
  | .receiveSync message sender =>
    (r.receiveSync C message sender).2.outcome = .badDigest ∨
      (∃ refused, (r.receiveSync C message sender).2.outcome = .refused refused) ∨
      (r.receiveSync C message sender).2.outcome = .inSync
  | .remove subject reason removedAt identity now =>
    ∃ refusal, (r.remove C subject reason removedAt identity now).2 = .error refusal
  | _ => False

/-- The key this roster has on record for a device, active or not. -/
def recordedKey (r : Roster) (d : String) : Option C.PublicKey :=
  (r.devices.get? d).bind fun record => C.fromBase64 record.identityPk

/-- The message is signed, and not under the key recorded for its sender. -/
def Unverified (r : Roster) : Op C → Prop
  | .receiveIntroduce message introducer _ =>
    ∀ key, r.recordedKey C introducer = some key → C.verify key (.vouch message.payload) message.vouch = false
  | .receiveRemove message remover _ =>
    ∀ key, r.recordedKey C remover = some key → C.verify key (.removal message.payload) message.sig = false
  | _ => False

variable {C}

theorem recordedKey_of_identityOf {r : Roster} {d : String} {key : C.PublicKey} (h : r.identityOf C d = some key) :
    r.recordedKey C d = some key := by
  unfold identityOf at h
  unfold recordedKey
  cases hrecord : r.devices.get? d with
  | none => rw [hrecord] at h; cases h
  | some record =>
    rw [hrecord, Option.bind_some] at h
    split at h
    · exact h
    · cases h

/-- What is vetted is signed under the recorded key. -/
theorem Vetted.verified {r : Roster} {message : RosterIntroduce} {introducer : String}
    (h : Vetted C r message introducer) : ∃ key, r.recordedKey C introducer = some key ∧
      C.verify key (.vouch message.payload) message.vouch = true := by
  obtain ⟨key, hkey, hv⟩ := h.signed
  exact ⟨key, recordedKey_of_identityOf hkey, hv⟩

theorem RemovalVetted.verified {r : Roster} {message : RosterRemove} {remover : String}
    (h : RemovalVetted C r message remover) : ∃ key, r.recordedKey C remover = some key ∧
      C.verify key (.removal message.payload) message.sig = true := by
  obtain ⟨key, hkey, hv⟩ := h.signed
  exact ⟨key, recordedKey_of_identityOf hkey, hv⟩

theorem EvictionVetted.verified {r : Roster} {message : RosterRemove} {remover : String}
    (h : EvictionVetted C r message remover) : ∃ key, r.recordedKey C remover = some key ∧
      C.verify key (.removal message.payload) message.sig = true := by
  obtain ⟨record, key, hrecord, hkey, hv⟩ := h.signed
  refine ⟨key, ?_, hv⟩
  unfold recordedKey
  rw [hrecord, Option.bind_some, hkey]

variable (C)

theorem unverified_writes_nothing {r : Roster} {op : Op C} (h : Unverified C r op) : step C r op = r := by
  cases op with
  | receiveIntroduce message introducer now =>
    have hnot : ¬ Vetted C r message introducer := by
      intro hvet
      obtain ⟨key, hkey, hv⟩ := hvet.verified
      rw [h key hkey] at hv
      cases hv
    have hcases := receiveIntroduce_cases C r message introducer now
    show (r.receiveIntroduce C message introducer now).1 = r
    generalize r.receiveIntroduce C message introducer now = after at hcases ⊢
    cases hcases with
    | refused refusal _ => rfl
    | alreadyKnown hvet _ => exact absurd hvet hnot
    | held hvet _ _ => exact absurd hvet hnot
    | admitted hvet _ _ => exact absurd hvet hnot
  | receiveRemove message remover now =>
    have hnot : ¬ ∃ key, r.recordedKey C remover = some key ∧
        C.verify key (.removal message.payload) message.sig = true := by
      intro hsigned
      obtain ⟨key, hkey, hv⟩ := hsigned
      rw [h key hkey] at hv
      cases hv
    have hcases := receiveRemove_cases C r message remover now
    show (r.receiveRemove C message remover now).1 = r
    generalize r.receiveRemove C message remover now = after at hcases ⊢
    cases hcases with
    | refused refusal ledger _ _ => rfl
    | aboutSelf hvet => exact absurd hvet.verified hnot
    | alreadyRemoved hvet _ => exact absurd hvet.verified hnot
    | applied hvet _ => exact absurd hvet.verified hnot
  | _ => exact False.elim h

theorem refused_writes_nothing {r : Roster} {op : Op C} (h : Refuses C r op) : step C r op = r := by
  cases op with
  | receiveIntroduce message introducer now =>
    have hcases := receiveIntroduce_cases C r message introducer now
    have hends : (∃ refusal, (r.receiveIntroduce C message introducer now).2.outcome = .refused refusal) ∨
        (r.receiveIntroduce C message introducer now).2.outcome = .alreadyKnown := h
    show (r.receiveIntroduce C message introducer now).1 = r
    generalize r.receiveIntroduce C message introducer now = after at hcases hends ⊢
    cases hcases with
    | refused refusal _ => rfl
    | alreadyKnown _ _ => rfl
    | held _ _ _ => rcases hends with ⟨_, hout⟩ | hout <;> cases hout
    | admitted _ _ _ => rcases hends with ⟨_, hout⟩ | hout <;> cases hout
  | receiveRemove message remover now =>
    have hcases := receiveRemove_cases C r message remover now
    obtain ⟨refusal, hout⟩ := h
    show (r.receiveRemove C message remover now).1 = r
    generalize r.receiveRemove C message remover now = after at hcases hout ⊢
    cases hcases with
    | refused _ _ _ _ => rfl
    | aboutSelf _ => cases hout
    | alreadyRemoved _ _ => cases hout
    | applied _ _ => cases hout
  | receiveSync message sender =>
    have hcases := receiveSync_cases C r message sender
    have hends : (r.receiveSync C message sender).2.outcome = .badDigest ∨
        (∃ refused, (r.receiveSync C message sender).2.outcome = .refused refused) ∨
        (r.receiveSync C message sender).2.outcome = .inSync := h
    show (r.receiveSync C message sender).1 = r
    generalize r.receiveSync C message sender = after at hcases hends ⊢
    cases hcases with
    | unmerged _ _ => rfl
    | merged _ => rcases hends with hout | ⟨_, hout⟩ | hout <;> cases hout
  | remove subject reason removedAt identity now =>
    have hcases := remove_cases C r subject reason removedAt identity now
    obtain ⟨refusal, hout⟩ := h
    show (r.remove C subject reason removedAt identity now).1 = r
    generalize r.remove C subject reason removedAt identity now = after at hcases hout ⊢
    cases hcases with
    | refused _ => rfl
    | applied _ _ _ => cases hout
  | _ => exact False.elim h

theorem refusals_leave_no_trace (r : Roster) (op : Op C) (h : Refuses C r op ∨ Unverified C r op) :
    step C r op = r := by
  rcases h with hrefused | hunverified
  · exact refused_writes_nothing C hrefused
  · exact unverified_writes_nothing C hunverified

/-- A vouch for `b` in `a`'s name under another key, and a sync from a stranger. -/
theorem forgeries_leave_no_trace :
    step Crypto.plain founder (introduction "b" "kb" "" "a" "kx") = founder ∧
      step Crypto.plain founder (.receiveSync (founder.sync Crypto.plain) "x") = founder := by
  refine ⟨refusals_leave_no_trace Crypto.plain founder _ (Or.inr fun key hkey => ?_),
    refusals_leave_no_trace Crypto.plain founder _ (Or.inl (Or.inr (Or.inl ⟨"x", by decide +kernel⟩)))⟩
  have hrecorded : founder.recordedKey Crypto.plain "a" = some (Crypto.plain.publicKey "ka") := by decide +kernel
  obtain rfl := Option.some.inj (hrecorded.symm.trans hkey)
  decide +kernel

end Roster

end Beacon
