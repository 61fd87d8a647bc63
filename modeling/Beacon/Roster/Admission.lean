/-
  Beacon.Roster.Admission — who a roster counts in, over its whole life.

  - `admission_requires_vouch`: from `found` on, a device becomes active only by a vouch
    that verified under the key held for an active introducer, at once or out of the
    quarantine; no sync and no server list lets anyone in.
  - `identity_keys_fixed_iff`: recorded keys are fixed exactly in the runs without an
    approval of a held vouch whose key another introduction has meanwhile replaced.
  - `family_size_capped_iff`: the family stays within the cap exactly in the runs
    without an approval that admits a new device to a full family.
  `approve_held` repeats neither of the two checks the introduction made when the vouch
  was held, and the last two results are what follows.
-/

import Mathlib.Data.List.Induction
import Beacon.Roster.Effects

namespace Beacon

open Lib

namespace Roster

variable (C : Crypto)

/-! ## A verified vouch -/

/-- The vouch verifies, for exactly its subject, under the key held for an active introducer. -/
structure VouchVerifies (r : Roster) (message : RosterIntroduce) (introducer : String) : Prop where
  introducerActive : r.isActive introducer = true
  notSubject : introducer ≠ message.subject.deviceId
  verifies : ∃ record key, r.devices.get? introducer = some record ∧ C.fromBase64 record.identityPk = some key ∧
    C.verify key (.vouch message.payload) message.vouch = true

theorem Vetted.vouchVerifies {r : Roster} {message : RosterIntroduce} {introducer : String}
    (h : Vetted C r message introducer) : VouchVerifies C r message introducer := by
  refine ⟨h.introducerActive, Ne.symm h.notSelf, ?_⟩
  obtain ⟨key, hk, hv⟩ := h.signed
  obtain ⟨record, hr, -⟩ := isActive_iff.mp h.introducerActive
  have hkey : C.fromBase64 record.identityPk = some key := by
    rw [← identityOf_of_isActive C hr h.introducerActive]
    exact hk
  exact ⟨record, key, hr, hkey, hv⟩

/-- After the history `pre` of a roster born as `r₀`, the step lets the subject of
    `message` in: on `introducer`'s word now, or on its word when the vouch was held. -/
inductive LetIn (r₀ : Roster) (pre : List (Op C)) (message : RosterIntroduce) (introducer : String) : Op C → Prop
  | introduced (now : SystemTime) : VouchVerifies C (run C r₀ pre) message introducer →
      LetIn r₀ pre message introducer (.receiveIntroduce message introducer now)
  | approved (before after : List (Op C)) (now : SystemTime) (eventsInWindow : Nat) :
      pre = before ++ .receiveIntroduce message introducer now :: after →
      VouchVerifies C (run C r₀ before) message introducer →
      ((run C r₀ before).receiveIntroduce C message introducer now).2.outcome = .held eventsInWindow →
      (run C r₀ pre).isActive introducer = true →
      LetIn r₀ pre message introducer (.approveHeld message.subject.deviceId)

/-- Somewhere in the history an introduction of exactly this vouch was verified and held. -/
def HeldSince (r₀ : Roster) (pre : List (Op C)) (h : HeldAdmission) : Prop :=
  ∃ before now after, pre = before ++ .receiveIntroduce h.message h.introducer now :: after ∧
    VouchVerifies C (run C r₀ before) h.message h.introducer ∧
    ((run C r₀ before).receiveIntroduce C h.message h.introducer now).2.outcome = .held h.eventsInWindow

theorem HeldSince.snoc {r₀ : Roster} {pre : List (Op C)} {h : HeldAdmission} (hs : HeldSince C r₀ pre h) (op : Op C) :
    HeldSince C r₀ (pre ++ [op]) h := by
  obtain ⟨before, now, after, rfl, hv, ho⟩ := hs
  exact ⟨before, now, after ++ [op], by simp, hv, ho⟩

theorem held_history {r₀ : Roster} (hnone : ∀ s, r₀.held.get? s = none) (pre : List (Op C)) {s : String}
    {h : HeldAdmission} (hs : (run C r₀ pre).held.get? s = some h) : HeldSince C r₀ pre h := by
  induction pre using List.reverseRecOn generalizing h with
  | nil => rw [run, Trace.run_nil, hnone] at hs; cases hs
  | append_singleton pre op ih =>
    rw [run_snoc] at hs
    have hcases := step_cases C (run C r₀ pre) op
    generalize step C (run C r₀ pre) op = after at hcases hs
    cases hcases with
    | quiet _ hq => exact (ih (hq.held s h hs)).snoc C op
    | quarantined message introducer now hop hv _ ho =>
      have hs' : ((run C r₀ pre).held.insert _).get? s = some h := hs
      rw [Table.get?_insert] at hs'
      split at hs'
      · cases hs'; exact ⟨pre, now, [], by rw [hop], hv.vouchVerifies, ho⟩
      · exact (ih hs').snoc C op
    | admitted subject introducer r₁ _ _ _ hq => exact (ih (hq.held s h hs)).snoc C op

theorem becomes_active {r₀ : Roster} (hnone : ∀ s, r₀.held.get? s = none) (pre : List (Op C)) (op : Op C) {d : String}
    (hd : (run C r₀ pre).isActive d = false) (hd' : (step C (run C r₀ pre) op).isActive d = true) :
    ∃ message introducer, message.subject.deviceId = d ∧
      (step C (run C r₀ pre) op).devices.get? d = some (.fromVouch message.subject introducer) ∧
      LetIn C r₀ pre message introducer op := by
  have hcases := step_cases C (run C r₀ pre) op
  generalize step C (run C r₀ pre) op = after at hcases hd'
  cases hcases with
  | quiet _ hq => rw [hq.view.active hd'] at hd; cases hd
  | quarantined message introducer now _ _ _ _ =>
    have hd'' : (run C r₀ pre).isActive d = true := hd'
    rw [hd] at hd''; cases hd''
  | admitted subject introducer r₁ ha _ _ hq =>
    have hsubject : subject.deviceId = d := by
      rw [isActive_admitDevice, Bool.or_eq_true, decide_eq_true_eq] at hd'
      rcases hd' with h | h
      · exact h
      · rw [hq.view.active h] at hd; cases hd
    subst hsubject
    have hrecord : (r₁.admitDevice subject introducer).1.devices.get? subject.deviceId =
        some (.fromVouch subject introducer) := Table.get?_insert_self _ _
    cases ha with
    | introduced hv _ _ => exact ⟨_, _, rfl, hrecord, .introduced _ hv.vouchVerifies⟩
    | @approved s h hs hi _ =>
      obtain ⟨before, now, rest, hpre, hv, ho⟩ := held_history C hnone pre hs
      obtain rfl := held_subject hs
      exact ⟨h.message, h.introducer, rfl, hrecord, .approved before rest now _ hpre hv ho hi⟩

theorem admission_requires_vouch (me : SelfDescription) (identity : C.IdentityKey) (pre : List (Op C)) (op : Op C) :
    let r := run C (founded C me identity) pre
    (∀ d, r.isActive d = false → (step C r op).isActive d = true →
      ∃ message introducer, message.subject.deviceId = d ∧
        (step C r op).devices.get? d = some (.fromVouch message.subject introducer) ∧
        LetIn C (founded C me identity) pre message introducer op) ∧
    (∀ message sender d, ((r.receiveSync C message sender).1.devices.contains d = true → r.devices.contains d = true) ∧
      ((r.receiveSync C message sender).1.isActive d = true → r.isActive d = true)) ∧
    (∀ listed d, ((r.reconcileServerList listed).1.devices.contains d = true → r.devices.contains d = true) ∧
      ((r.reconcileServerList listed).1.isActive d = true → r.isActive d = true)) := by
  intro r
  refine ⟨fun d hd hd' => becomes_active C (fun s => Table.get?_empty s) pre op hd hd', ?_, ?_⟩
  · intro message sender d
    have hq := quiet_receiveSync C r message sender
    exact ⟨fun h => hq.contains_devices d ▸ h, fun h => hq.view.active h⟩
  · intro listed d
    have hq := quiet_reconcileServerList r listed
    exact ⟨fun h => hq.contains_devices d ▸ h, fun h => hq.view.active h⟩

/-- `a` spends its day's budget on `b` to `f`. -/
def budgetSpent : List (Op Crypto.plain) :=
  ["b", "c", "d", "e", "f"].map fun device => introduction device ("k" ++ device) "" "a" "ka"

theorem approval_is_vouched : ∃ message introducer, message.subject.deviceId = "g" ∧
    (step Crypto.plain (run Crypto.plain founder (budgetSpent ++ [introduction "g" "kg" "" "a" "ka"]))
      (.approveHeld "g")).devices.get? "g" = some (.fromVouch message.subject introducer) ∧
    LetIn Crypto.plain founder (budgetSpent ++ [introduction "g" "kg" "" "a" "ka"]) message introducer
      (.approveHeld "g") :=
  (admission_requires_vouch Crypto.plain ⟨"a", "a", "g", "admin", ""⟩ "ka"
    (budgetSpent ++ [introduction "g" "kg" "" "a" "ka"]) (.approveHeld "g")).1 "g" (by decide +kernel) (by decide +kernel)

/-! ## Identity keys -/

/-- Every recorded device keeps its key, so an active one is still checked under it. -/
def KeysKept (r r' : Roster) : Prop :=
  ∀ d record, r.devices.get? d = some record →
    (∃ record', r'.devices.get? d = some record' ∧ record'.identityPk = record.identityPk) ∧
    (r'.isActive d = true → r'.identityOf C d = C.fromBase64 record.identityPk)

theorem keysKept_iff {r r' : Roster} : KeysKept C r r' ↔ Membership.KeepsKeys r.view r'.view := by
  constructor
  · intro h d k hk
    obtain ⟨record, hr, rfl⟩ := Option.map_eq_some_iff.mp hk
    obtain ⟨⟨record', hr', hkey⟩, -⟩ := h d record hr
    rw [view_key, hr', Option.map_some, hkey]
  · intro h d record hr
    have hk := h d record.identityPk (by rw [view_key, hr, Option.map_some])
    obtain ⟨record', hr', hkey⟩ := Option.map_eq_some_iff.mp hk
    refine ⟨⟨record', hr', hkey⟩, fun ha => ?_⟩
    rw [identityOf_of_isActive C hr' ha, hkey]

/-- The approval of a held vouch for a device recorded, by now, under another key. -/
def Rekeys (r : Roster) (op : Op C) : Prop :=
  ∃ s h record, op = .approveHeld s ∧ r.held.get? s = some h ∧ r.isActive h.introducer = true ∧
    r.tombstones.contains s = false ∧ r.devices.get? s = some record ∧
    record.identityPk ≠ h.message.subject.identityPk

theorem step_keepsKeys_iff (r : Roster) (op : Op C) :
    Membership.KeepsKeys r.view (step C r op).view ↔ ¬ Rekeys C r op := by
  constructor
  · intro hkeeps hx
    rcases hx with ⟨s, h, record, rfl, hs, hi, ht, hr, hne⟩
    have hview : (step C r (.approveHeld s)).view =
        r.view.addMember h.message.subject.deviceId h.message.subject.identityPk := by
      show (r.approveHeld s).1.view = _
      rw [approveHeld_of_admits hs hi ht, view_admitDevice]
      rfl
    have hkey := held_subject hs
    rw [hview, Membership.addMember_keepsKeys_iff] at hkeeps
    exact hne (hkeeps record.identityPk (by rw [view_key, hkey, hr, Option.map_some]))
  · intro hnot
    have hcases := step_cases C r op
    generalize step C r op = after at hcases ⊢
    cases hcases with
    | quiet _ hq => exact hq.view.keepsKeys
    | quarantined message introducer now _ _ _ _ => exact .refl _
    | admitted subject introducer r₀ ha hd ht hq =>
      have hv : r₀.view = r.view := by unfold view isActive; rw [hd, ht]
      rw [view_admitDevice, hv, Membership.addMember_keepsKeys_iff]
      intro k hk
      obtain ⟨record, hr, rfl⟩ := Option.map_eq_some_iff.mp hk
      cases ha with
      | introduced hvet _ _ => exact hvet.sameKey record hr
      | @approved s h hs hi htomb =>
        have hkey := held_subject hs
        by_contra hne
        exact hnot ⟨s, h, record, rfl, hs, hi, htomb, hkey ▸ hr, hne⟩

/-- In every run from `found`, no later record of a device carries another key than an
    earlier one, exactly when no step approves a held vouch over a changed key. -/
theorem identity_keys_fixed_iff (me : SelfDescription) (identity : C.IdentityKey) (ops : List (Op C)) :
    (∀ pre mid post, ops = pre ++ mid ++ post →
      KeysKept C (run C (founded C me identity) pre) (run C (founded C me identity) (pre ++ mid))) ↔
    Trace.EachStep (step C) (fun r op => ¬ Rekeys C r op) (founded C me identity) ops := by
  simp only [keysKept_iff]
  constructor
  · intro h
    refine Trace.eachStep_iff.mpr fun pre op post hops => (step_keepsKeys_iff C _ op).mp ?_
    have hstep := h pre [op] post (by simp [hops])
    rwa [run_snoc] at hstep
  · intro h pre mid post hsplit
    subst hsplit
    exact Trace.rel_between (R := fun r r' => Membership.KeepsKeys r.view r'.view) (fun r => .refl _)
      (fun _ _ _ => Membership.KeepsKeys.trans) (fun r op hop => (step_keepsKeys_iff C r op).mpr hop)
      (Trace.eachStep_append.mp h).1

/-- A vouch for `g` is held; another introducer brings `g` with another key; the
    approval then replaces that key. -/
def keyReplaced : List (Op Crypto.plain) :=
  budgetSpent ++ [introduction "g" "kOld" "" "a" "ka", introduction "g" "kNew" "" "b" "kb", .approveHeld "g"]

theorem approval_changes_key :
    ¬ ∀ pre mid post, keyReplaced = pre ++ mid ++ post →
      KeysKept Crypto.plain (run Crypto.plain founder pre) (run Crypto.plain founder (pre ++ mid)) := by
  intro h
  have hkeeps := h (keyReplaced.take 7) [.approveHeld "g"] [] rfl
  obtain ⟨⟨record, hr, hkey⟩, -⟩ := hkeeps "g" (.fromVouch (vouched "g" "kNew" "" "kb").subject "b") (by decide +kernel)
  have hafter : ((run Crypto.plain founder (keyReplaced.take 7 ++ [.approveHeld "g"])).devices.get? "g").map
      (·.identityPk) = some "kOld" := by decide +kernel
  rw [hr, Option.map_some, hkey] at hafter
  exact absurd hafter (by decide)

/-! ## The size of the family -/

/-- The approval of a held vouch that brings one more device into a full family. -/
def Overfills (r : Roster) (op : Op C) : Prop :=
  ∃ s h, op = .approveHeld s ∧ r.held.get? s = some h ∧ r.isActive h.introducer = true ∧
    r.tombstones.contains s = false ∧ r.isActive s = false ∧ maxActiveDevices ≤ r.activeCount

theorem step_capped_iff {r : Roster} (op : Op C) (hr : r.activeCount ≤ maxActiveDevices) :
    (step C r op).activeCount ≤ maxActiveDevices ↔ ¬ Overfills C r op := by
  constructor
  · intro hcap hx
    rcases hx with ⟨s, h, rfl, hs, hi, ht, ha, hfull⟩
    have hkey := held_subject hs
    have hcount : (step C r (.approveHeld s)).activeCount = r.activeCount + 1 := by
      show (r.approveHeld s).1.activeCount = _
      rw [approveHeld_of_admits hs hi ht, activeCount_admitDevice _ (hkey.symm ▸ ha)]
      rfl
    omega
  · intro hnot
    have hcases := step_cases C r op
    generalize step C r op = after at hcases ⊢
    cases hcases with
    | quiet _ hq => exact (activeCount_le fun d hd => hq.view.active hd).trans hr
    | quarantined message introducer now _ _ _ _ => exact hr
    | admitted subject introducer r₀ ha hd ht hq =>
      have hactive : ∀ d, r₀.isActive d = r.isActive d := fun d => by unfold isActive; rw [hd]
      have hcount : r₀.activeCount = r.activeCount := by unfold activeCount; rw [hd]
      by_cases hsub : r.isActive subject.deviceId = true
      · -- a device already counted in
        refine (activeCount_le (r := r) fun d hd' => ?_).trans hr
        rw [isActive_admitDevice, Bool.or_eq_true, decide_eq_true_eq, hactive] at hd'
        exact hd'.elim (fun h => h ▸ hsub) id
      · have hsub' : r.isActive subject.deviceId = false := by simpa using hsub
        rw [activeCount_admitDevice _ ((hactive _).trans hsub'), hcount]
        cases ha with
        | introduced hvet _ _ =>
          rcases hvet.room with h | h
          · exact absurd h hsub
          · omega
        | @approved s h hs hi htomb =>
          have hkey := held_subject hs
          by_contra hfull
          exact hnot ⟨s, h, rfl, hs, hi, htomb, hkey ▸ hsub', by omega⟩

theorem activeCount_founded (me : SelfDescription) (identity : C.IdentityKey) :
    (founded C me identity).activeCount ≤ maxActiveDevices := by
  refine (Table.countP_insert_le Table.empty _ _).trans ?_
  simp [maxActiveDevices]

/-- A run from `found` stays within the cap exactly when no step approves a new device
    into a full family. -/
theorem family_size_capped_iff (me : SelfDescription) (identity : C.IdentityKey) (ops : List (Op C)) :
    Trace.EachState (step C) (fun r => r.activeCount ≤ maxActiveDevices) (founded C me identity) ops ↔
    Trace.EachStep (step C) (fun r op => ¬ Overfills C r op) (founded C me identity) ops :=
  Trace.eachState_iff_eachStep (I := fun _ => True) (A := fun _ => True) (fun _ _ _ _ _ _ => trivial)
    (fun _ op _ _ hr => step_capped_iff C op hr) (fun _ _ => trivial) trivial (activeCount_founded C me identity)

/-- `g` is held; `b`, `c` and `d` fill the family to twenty; then `g` is approved. -/
def overfull : List (Op Crypto.plain) :=
  budgetSpent ++ [introduction "g" "kg" "" "a" "ka"] ++
  (["b1", "b2", "b3", "b4", "b5"].map fun device => introduction device device "" "b" "kb") ++
  (["c1", "c2", "c3", "c4", "c5"].map fun device => introduction device device "" "c" "kc") ++
  (["d1", "d2", "d3", "d4"].map fun device => introduction device device "" "d" "kd") ++ [.approveHeld "g"]

theorem approval_overfills :
    ¬ Trace.EachState (step Crypto.plain) (fun r => r.activeCount ≤ maxActiveDevices) founder overfull := by
  intro h
  have hcount : (run Crypto.plain founder overfull).activeCount = 21 := by decide +kernel
  have := h.last
  change (run Crypto.plain founder overfull).activeCount ≤ maxActiveDevices at this
  rw [hcount] at this
  exact absurd this (by decide)

end Roster

end Beacon
