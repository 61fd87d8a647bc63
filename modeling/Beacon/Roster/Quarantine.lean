/-
  Beacon.Roster.Quarantine — a vouch over budget, from the moment it is held to the
  user's decision.

  - `approval_is_fresh_iff`: approving a held vouch does what receiving it anew without a
    budget would do exactly if the introducer is out, the subject is tombstoned, or the
    vouch would be admitted. `approve_held` repeats the first two checks of an
    introduction; where a later one fails it admits all the same.
  - `approved_as_surfaced_iff`: the vouch the user was shown stays the one an approval
    admits exactly in the runs in which nobody over budget names the subject again, under
    another key or by another introducer. The quarantine is keyed by the subject alone
    and the later vouch is written over the earlier one.
-/

import Beacon.Roster.Admission
import Beacon.Roster.Edits
import Beacon.Roster.Joining

namespace Beacon

open Lib

namespace Roster

variable (C : Crypto)

/-! ## Approval and fresh reception -/

/-- What approval is to be compared with: the entry is dropped, and its vouch received as if
    for the first time by a roster that has counted nothing. The churn log stays as it was. -/
def receiveAnew (r : Roster) (subject : String) (now : SystemTime) : Roster × Option Admission :=
  match r.held.get? subject with
  | none => (r, none)
  | some held =>
    let (r', applied) :=
      { r with held := r.held.erase subject, churn := .new }.receiveIntroduce C held.message held.introducer now
    ({ r' with churn := r.churn }, some applied.outcome)

theorem receiveAnew_of_held {r : Roster} {s : String} {h : HeldAdmission} (hheld : r.held.get? s = some h)
    {now : SystemTime} :
    receiveAnew C r s now =
      let received := { r with held := r.held.erase s, churn := .new }.receiveIntroduce C h.message h.introducer now
      ({ received.1 with churn := r.churn }, some received.2.outcome) := by
  unfold receiveAnew
  simp only [hheld]

/-- No held vouch is one its own subject signed, and every one names a usable key. -/
def HeldSound (r : Roster) : Prop :=
  ∀ s h, r.held.get? s = some h →
    h.message.subject.deviceId ≠ h.introducer ∧ ∃ key, C.fromBase64 h.message.subject.identityPk = some key

theorem heldSound_step {r : Roster} (h : HeldSound C r) (op : Op C) : HeldSound C (step C r op) := by
  have hcases := step_cases C r op
  generalize step C r op = after at hcases ⊢
  cases hcases with
  | quiet _ hq => exact fun s a ha => h s a (hq.held s a ha)
  | quarantined message introducer now _ hv _ _ =>
    intro s a ha
    have ha' : (r.held.insert _).get? s = some a := ha
    rw [Table.get?_insert] at ha'
    split at ha'
    · cases ha'
      exact ⟨hv.notSelf, hv.usable⟩
    · exact h s a ha'
  | admitted subject introducer r₀ _ _ _ hq => exact fun s a ha => h s a (hq.held s a ha)

theorem heldSound_reachable {r : Roster} (h : Reachable C r) : HeldSound C r := by
  induction h with
  | born hborn => exact fun s a ha => by rw [held_born C hborn] at ha; cases ha
  | step op _ ih => exact heldSound_step C ih op

/-- An introduction of this vouch would now be admitted, but for the budget. -/
structure AdmittedNow (r : Roster) (h : HeldAdmission) : Prop where
  inactive : r.isActive h.subjectId = false
  sameKey : ∀ record, r.devices.get? h.subjectId = some record → record.identityPk = h.message.subject.identityPk
  room : r.activeCount < maxActiveDevices
  signed : ∃ key, r.identityOf C h.introducer = some key ∧
    C.verify key (.vouch h.message.payload) h.message.vouch = true

theorem wouldExceed_new (signer : String) (now : SystemTime) : ChurnLog.new.wouldExceed signer now = false := by
  simp [ChurnLog.wouldExceed, ChurnLog.countInWindow, ChurnLog.new, maxMembershipEventsPerDevicePerDay]

theorem receiveIntroduce_of_inactive {r : Roster} {introducer : String} (h : r.isActive introducer = false)
    (message : RosterIntroduce) (now : SystemTime) :
    r.receiveIntroduce C message introducer now =
      r.refuseVouch message.subject.deviceId (.introducerNotActive introducer) := by
  unfold receiveIntroduce
  simp only [h, Bool.not_false, if_true]

theorem receiveIntroduce_of_tombstoned {r : Roster} {message : RosterIntroduce} {introducer : String}
    (hi : r.isActive introducer = true) (ht : r.tombstones.contains message.subject.deviceId = true)
    (now : SystemTime) :
    r.receiveIntroduce C message introducer now =
      r.refuseVouch message.subject.deviceId (.subjectTombstoned message.subject.deviceId) := by
  unfold receiveIntroduce
  simp only [hi, ht, Bool.not_true, Bool.false_eq_true, if_false, if_true]

/-- Where the introducer is still active and the subject not tombstoned, fresh reception
    comes to the approval exactly if it admits. -/
theorem receiveAnew_eq_admitted_iff {r : Roster} (hsound : HeldSound C r) {s : String} {h : HeldAdmission}
    (hheld : r.held.get? s = some h) (hi : r.isActive h.introducer = true) (ht : r.tombstones.contains s = false)
    (now : SystemTime) :
    ((({ r with held := r.held.erase s }.admitDevice h.message.subject h.introducer).1, some .admitted) :
      Roster × Option Admission) = receiveAnew C r s now ↔ AdmittedNow C r h := by
  have hs := held_subject hheld
  obtain ⟨hnotself, husable⟩ := hsound s h hheld
  let cleared : Roster := { r with held := r.held.erase s, churn := .new }
  have hfamily : SameFamily r cleared := ⟨rfl, rfl, rfl⟩
  rw [receiveAnew_of_held C hheld]
  have hcases := receiveIntroduce_cases C cleared h.message h.introducer now
  generalize cleared.receiveIntroduce C h.message h.introducer now = received at hcases ⊢
  cases hcases with
  | refused refusal hnot =>
    refine iff_of_false (fun heq => ?_) fun hnow => hnot (hfamily.vetted C ?_)
    · cases congrArg Prod.snd heq
    · exact ⟨hi, hs ▸ ht, hnotself, hnow.sameKey, Or.inr hnow.room, hnow.signed, husable⟩
  | alreadyKnown _ hactive =>
    refine iff_of_false (fun heq => ?_) fun hnow => ?_
    · cases congrArg Prod.snd heq
    · exact absurd (hactive.symm.trans hnow.inactive) (by decide)
  | held _ _ hexceeds =>
    exact absurd hexceeds (by rw [show cleared.churn = .new from rfl, wouldExceed_new]; decide)
  | admitted hv hinactive _ =>
    refine iff_of_true rfl ⟨hinactive, hv.sameKey, ?_, hv.signed⟩
    rcases hv.room with hactive | hroom
    · exact absurd (hactive.symm.trans hinactive) (by decide)
    · exact hroom

/-- What the approval of a held vouch comes to. -/
theorem approveHeld_of_held {r : Roster} {s : String} {h : HeldAdmission} (hheld : r.held.get? s = some h) :
    ((r.approveHeld s).1, (r.approveHeld s).2.outcome) =
      if r.isActive h.introducer = false then
        ({ r with held := r.held.erase s }, some (.refused (.introducerNotActive h.introducer)))
      else if r.tombstones.contains s = true then
        ({ r with held := r.held.erase s }, some (.refused (.subjectTombstoned s)))
      else (({ r with held := r.held.erase s }.admitDevice h.message.subject h.introducer).1, some .admitted) := by
  unfold approveHeld
  simp only [hheld]
  by_cases hi : r.isActive h.introducer = false
  · rw [if_pos hi, if_pos (by simpa [isActive] using hi)]
  · rw [if_neg hi, if_neg (by simpa [isActive] using hi)]
    by_cases ht : r.tombstones.contains s = true
    · rw [if_pos ht, if_pos ht]
    · rw [if_neg ht, if_neg ht]

theorem approval_is_fresh_iff {r : Roster} (hr : Reachable C r) {s : String} {h : HeldAdmission}
    (hheld : r.held.get? s = some h) (now : SystemTime) :
    ((r.approveHeld s).1, (r.approveHeld s).2.outcome) = receiveAnew C r s now ↔
      r.isActive h.introducer = false ∨ r.tombstones.contains s = true ∨ AdmittedNow C r h := by
  have hs := held_subject hheld
  let cleared : Roster := { r with held := r.held.erase s, churn := .new }
  rw [approveHeld_of_held hheld]
  by_cases hi : r.isActive h.introducer = false
  · refine iff_of_true ?_ (Or.inl hi)
    have hout : cleared.isActive h.introducer = false := hi
    rw [if_pos hi, receiveAnew_of_held C hheld, receiveIntroduce_of_inactive C hout]
    rfl
  rw [if_neg hi]
  rw [Bool.not_eq_false] at hi
  by_cases ht : r.tombstones.contains s = true
  · refine iff_of_true ?_ (Or.inr (Or.inl ht))
    have hburied : cleared.tombstones.contains h.message.subject.deviceId = true := by rw [hs]; exact ht
    rw [if_pos ht, receiveAnew_of_held C hheld, receiveIntroduce_of_tombstoned C (show cleared.isActive _ = true from hi)
      hburied, hs]
    rfl
  · have ht' : r.tombstones.contains s = false := by simpa using ht
    rw [if_neg ht, receiveAnew_eq_admitted_iff C (heldSound_reachable C hr) hheld hi ht' now]
    constructor
    · intro hnow
      exact Or.inr (Or.inr hnow)
    · intro hcond
      rcases hcond with hout | hburied | hnow
      · rw [hi] at hout
        cases hout
      · exact absurd hburied ht
      · exact hnow

/-- `g` waits in quarantine on `a`'s word. -/
def awaitingG : Roster := run Crypto.plain founder (budgetSpent ++ [introduction "g" "kg" "" "a" "ka"])

theorem approval_over_other_key :
    ¬ ∀ r, Reachable Crypto.plain r → ∀ s h, r.held.get? s = some h → ∀ now,
      ((r.approveHeld s).1, (r.approveHeld s).2.outcome) = receiveAnew Crypto.plain r s now := by
  intro h
  -- `b` has meanwhile vouched for `g` under another key
  let r := step Crypto.plain awaitingG (introduction "g" "kx" "" "b" "kb")
  have hr : Reachable Crypto.plain r := .step _ ((Reachable.born (.found _ _)).run _)
  have hsame := h r hr "g" ⟨vouched "g" "kg" "" "ka", "a", 5⟩ (by decide +kernel) (.ofSecs 1750000000)
  exact absurd (congrArg Prod.snd hsame) (by decide +kernel)

theorem approval_of_g_is_fresh :
    ((awaitingG.approveHeld "g").1, (awaitingG.approveHeld "g").2.outcome) =
        receiveAnew Crypto.plain awaitingG "g" (.ofSecs 1750000000) ↔
      awaitingG.isActive "a" = false ∨ awaitingG.tombstones.contains "g" = true ∨
        AdmittedNow Crypto.plain awaitingG ⟨vouched "g" "kg" "" "ka", "a", 5⟩ :=
  approval_is_fresh_iff (r := awaitingG) Crypto.plain ((Reachable.born (.found _ _)).run _)
    (show awaitingG.held.get? "g" = some ⟨vouched "g" "kg" "" "ka", "a", 5⟩ by decide +kernel) _

/-! ## The vouch the user was shown -/

/-- The user decides on `subject`. -/
def Resolves (subject : String) : Op C → Prop
  | .approveHeld s | .denyHeld s => s = subject
  | _ => False

/-- The quarantine still holds the surfaced vouch's key and introducer for its subject, and they
    are what an approval would admit. -/
structure AsSurfaced (message : RosterIntroduce) (introducer : String) (r : Roster) : Prop where
  held : ∃ h, r.held.get? message.subject.deviceId = some h ∧ h.introducer = introducer ∧
    h.message.subject.identityPk = message.subject.identityPk
  approved : (r.approveHeld message.subject.deviceId).2.outcome = some .admitted →
    ∃ record, (r.approveHeld message.subject.deviceId).1.devices.get? message.subject.deviceId = some record ∧
      record.introducedBy = introducer ∧ record.identityPk = message.subject.identityPk

/-- The step quarantines another vouch for the subject: by another introducer, or under another key. -/
def Replaces (message : RosterIntroduce) (introducer : String) (r : Roster) : Op C → Prop
  | .receiveIntroduce message' introducer' now =>
    message'.subject.deviceId = message.subject.deviceId ∧ Vetted C r message' introducer' ∧
      r.isActive message.subject.deviceId = false ∧ r.churn.wouldExceed introducer' now = true ∧
      ¬ (introducer' = introducer ∧ message'.subject.identityPk = message.subject.identityPk)
  | _ => False

theorem asSurfaced_of_held {message : RosterIntroduce} {introducer : String} {r : Roster} {h : HeldAdmission}
    (hheld : r.held.get? message.subject.deviceId = some h) (hi : h.introducer = introducer)
    (hkey : h.message.subject.identityPk = message.subject.identityPk) : AsSurfaced message introducer r := by
  refine ⟨⟨h, hheld, hi, hkey⟩, fun hadmitted => ?_⟩
  have hcases := approveHeld_cases r message.subject.deviceId
  generalize r.approveHeld message.subject.deviceId = after at hcases hadmitted ⊢
  cases hcases with
  | absent _ => cases hadmitted
  | refused _ => cases hadmitted
  | admitted h' hheld' _ _ =>
    obtain rfl : h = h' := Option.some.inj (hheld.symm.trans hheld')
    refine ⟨.fromVouch h.message.subject h.introducer, ?_, hi, hkey⟩
    rw [← held_subject hheld]
    exact Table.get?_insert_self _ _

/-! ### What a step keeps in quarantine -/

/-- Only the user's decision and another quarantined vouch take a vouch out of quarantine while
    its subject is not tombstoned. -/
theorem held_step {r : Roster} {op : Op C} {d : String} (hresolves : ¬ Resolves C d op)
    (hn : (step C r op).tombstones.contains d = false) :
    (step C r op).held.get? d = r.held.get? d ∨
      ∃ message introducer now, op = .receiveIntroduce message introducer now ∧ message.subject.deviceId = d ∧
        Vetted C r message introducer ∧ r.isActive d = false ∧ r.churn.wouldExceed introducer now = true ∧
        (step C r op).held.get? d = some ⟨message, introducer, r.churn.countInWindow introducer now⟩ := by
  by_cases hop : OnAdmission C op
  swap
  · exact Or.inl (((edits_step C hop).rel .refl .trans keepsHeld_of_edit).held d hn)
  cases op with
  | receiveIntroduce message introducer now =>
    have hcases := receiveIntroduce_cases C r message introducer now
    show (r.receiveIntroduce C message introducer now).1.held.get? d = _ ∨ ∃ m i n, _ ∧ _ ∧ _ ∧ _ ∧ _ ∧
      (r.receiveIntroduce C message introducer now).1.held.get? d = _
    generalize r.receiveIntroduce C message introducer now = after at hcases ⊢
    cases hcases with
    | refused _ _ => exact Or.inl rfl
    | alreadyKnown _ _ => exact Or.inl rfl
    | admitted _ _ _ => exact Or.inl rfl
    | held hv hinactive hexceeds =>
      by_cases hd : message.subject.deviceId = d
      · subst hd
        exact Or.inr ⟨message, introducer, now, rfl, rfl, hv, hinactive, hexceeds, Table.get?_insert_self _ _⟩
      · exact Or.inl ((Table.get?_insert r.held _ d).trans (if_neg hd))
  | approveHeld s =>
    have hs : s ≠ d := hresolves
    have hcases := approveHeld_cases r s
    left
    show (r.approveHeld s).1.held.get? d = _
    generalize r.approveHeld s = after at hcases ⊢
    cases hcases with
    | absent _ => rfl
    | refused _ => exact (Table.get?_erase r.held s d).trans (if_neg hs)
    | admitted _ _ _ _ => exact (Table.get?_erase r.held s d).trans (if_neg hs)
  | denyHeld s =>
    have hs : s ≠ d := hresolves
    left
    show (r.denyHeld s).1.held.get? d = _
    unfold denyHeld
    split
    · rfl
    · exact (Table.get?_erase r.held s d).trans (if_neg hs)
  | _ => cases hop

/-- While the vouch is as surfaced and its subject not tombstoned, a step leaves it so exactly if
    it replaces nothing. -/
theorem asSurfaced_step_iff {message : RosterIntroduce} {introducer : String} {r : Roster} {op : Op C}
    (hop : ¬ Resolves C message.subject.deviceId op)
    (hr : r.tombstones.contains message.subject.deviceId = false → AsSurfaced message introducer r) :
    ((step C r op).tombstones.contains message.subject.deviceId = false →
        AsSurfaced message introducer (step C r op)) ↔ ¬ Replaces C message introducer r op := by
  constructor
  · intro hafter hreplaces
    cases op with
    | receiveIntroduce message' introducer' now =>
      obtain ⟨hsubject, hv, hinactive, hexceeds, hother⟩ := hreplaces
      rw [← hsubject] at hinactive
      -- the vouch goes into quarantine, over the one that was surfaced
      have hcases := receiveIntroduce_cases C r message' introducer' now
      replace hafter : (r.receiveIntroduce C message' introducer' now).1.tombstones.contains message.subject.deviceId =
        false → AsSurfaced message introducer (r.receiveIntroduce C message' introducer' now).1 := hafter
      generalize r.receiveIntroduce C message' introducer' now = after at hcases hafter
      cases hcases with
      | refused _ hnot => exact hnot hv
      | alreadyKnown _ hactive => rw [hinactive] at hactive; cases hactive
      | admitted _ _ hwithin => rw [hexceeds] at hwithin; cases hwithin
      | held _ _ _ =>
        obtain ⟨h, hheld, hi, hkey⟩ := (hafter (hsubject ▸ hv.notTombstoned)).held
        have hnew : (r.held.insert ⟨message', introducer', r.churn.countInWindow introducer' now⟩).get?
            message.subject.deviceId = some ⟨message', introducer', r.churn.countInWindow introducer' now⟩ := by
          rw [← hsubject]
          exact Table.get?_insert_self _ _
        obtain rfl : _ = h := Option.some.inj (hnew.symm.trans hheld)
        exact hother ⟨hi, hkey⟩
    | _ => exact hreplaces
  · intro hnot hn
    rcases held_step C hop hn with hsame | ⟨message', introducer', now, rfl, hsubject, hv, hinactive, hexceeds, hheld⟩
    · have hr' : r.tombstones.contains message.subject.deviceId = false := by
        by_contra hb
        rw [(buried_step C r op _).mpr (Or.inl (by simpa using hb))] at hn
        cases hn
      obtain ⟨h, hheld, hi, hkey⟩ := (hr hr').held
      exact asSurfaced_of_held (hsame.trans hheld) hi hkey
    · have hkept : introducer' = introducer ∧ message'.subject.identityPk = message.subject.identityPk := by
        by_contra hother
        exact hnot ⟨hsubject, hv, hinactive, hexceeds, hother⟩
      exact asSurfaced_of_held hheld hkept.1 hkept.2

theorem approved_as_surfaced_iff {r : Roster} {message : RosterIntroduce} {introducer : String} {now : SystemTime}
    {eventsInWindow : Nat}
    (hheld : (r.receiveIntroduce C message introducer now).2.outcome = .held eventsInWindow) {ops : List (Op C)}
    (hops : ∀ op ∈ ops, ¬ Resolves C message.subject.deviceId op) :
    Trace.EachState (step C)
        (fun r => r.tombstones.contains message.subject.deviceId = false → AsSurfaced message introducer r)
        (step C r (.receiveIntroduce message introducer now)) ops ↔
      Trace.EachStep (step C) (fun r op => ¬ Replaces C message introducer r op)
        (step C r (.receiveIntroduce message introducer now)) ops := by
  refine Trace.eachState_iff_eachStep (I := fun _ => True) (A := fun op => ¬ Resolves C message.subject.deviceId op)
    (fun _ _ _ _ _ _ => trivial) (fun _ _ hop _ hr => asSurfaced_step_iff C hop hr) hops trivial fun _ => ?_
  show AsSurfaced message introducer (r.receiveIntroduce C message introducer now).1
  have hcases := receiveIntroduce_cases C r message introducer now
  generalize r.receiveIntroduce C message introducer now = after at hcases hheld ⊢
  cases hcases with
  | refused _ _ => cases hheld
  | alreadyKnown _ _ => cases hheld
  | admitted _ _ _ => cases hheld
  | held _ _ _ => exact asSurfaced_of_held (Table.get?_insert_self _ _) rfl rfl

theorem approval_admits_another_key :
    ¬ ∀ (r : Roster) (message : RosterIntroduce) (introducer : String) (now : SystemTime) (eventsInWindow : Nat),
      Reachable Crypto.plain r →
      (r.receiveIntroduce Crypto.plain message introducer now).2.outcome = .held eventsInWindow →
      ∀ ops : List (Op Crypto.plain), (∀ op ∈ ops, ¬ Resolves Crypto.plain message.subject.deviceId op) →
        Trace.EachState (step Crypto.plain)
          (fun r => r.tombstones.contains message.subject.deviceId = false → AsSurfaced message introducer r)
          (step Crypto.plain r (.receiveIntroduce message introducer now)) ops := by
  intro h
  have hall := h (run Crypto.plain founder budgetSpent) (vouched "g" "kg" "" "ka") "a" (.ofSecs 1750000000) 5
    ((Reachable.born (.found _ _)).run _) (by decide +kernel) [introduction "g" "kx" "" "a" "ka"]
    (fun op hop => by rw [List.mem_singleton.mp hop]; exact id)
  -- approved now, `g` comes in under the key that was never shown
  obtain ⟨record, hrecord, -, hkey⟩ := (hall.last (by decide +kernel)).approved (by decide +kernel)
  have hget : (((run Crypto.plain founder (budgetSpent ++ [introduction "g" "kg" "" "a" "ka",
      introduction "g" "kx" "" "a" "ka"])).approveHeld "g").1.devices.get? "g").map (·.identityPk) = some "kx" := by
    decide +kernel
  have hrecord' : ((run Crypto.plain founder (budgetSpent ++ [introduction "g" "kg" "" "a" "ka",
      introduction "g" "kx" "" "a" "ka"])).approveHeld "g").1.devices.get? "g" = some record := hrecord
  rw [hrecord', Option.map_some, hkey] at hget
  exact absurd hget (by decide)

theorem g_is_approved_as_surfaced :
    Trace.EachState (step Crypto.plain)
        (fun r => r.tombstones.contains "g" = false → AsSurfaced (vouched "g" "kg" "" "ka") "a" r)
        (step Crypto.plain (run Crypto.plain founder budgetSpent) (introduction "g" "kg" "" "a" "ka"))
        [introduction "h" "kh" "" "a" "ka", .denyHeld "h"] ↔
      Trace.EachStep (step Crypto.plain) (fun r op => ¬ Replaces Crypto.plain (vouched "g" "kg" "" "ka") "a" r op)
        (step Crypto.plain (run Crypto.plain founder budgetSpent) (introduction "g" "kg" "" "a" "ka"))
        [introduction "h" "kh" "" "a" "ka", .denyHeld "h"] :=
  approved_as_surfaced_iff Crypto.plain
    (show ((run Crypto.plain founder budgetSpent).receiveIntroduce Crypto.plain (vouched "g" "kg" "" "ka") "a"
      (.ofSecs 1750000000)).2.outcome = .held 5 by decide +kernel)
    (by
      intro op hop
      rcases List.mem_pair.mp hop with rfl | rfl
      · exact id
      · exact fun h : "h" = "g" => absurd h (by decide))

end Roster

end Beacon
