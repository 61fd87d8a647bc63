/-
  Beacon.Splits — mutual eviction, told over a whole family's run.

  - `splits_exact`: a device counts a peer among its splits exactly if it holds a
    tombstone for the peer and has taken the peer's word that it removed this device,
    before or after the tombstone. Such word is a removal the peer signed, which is only
    ever sent by a device that executes it, or a sync the peer sent while it held a
    tombstone for this device itself, unless a server list had revoked this device.
  - a peer need not have executed the removal it tells of: `split_not_exact`.
-/

import Beacon.Family
import Beacon.Roster.Tombstones

namespace Beacon

open Lib

namespace Roster

variable (C : Crypto)

/-! ## One roster -/

/-- The step takes `b`'s word that it removed this device. -/
def ToldBy (r : Roster) (b : String) : Op C → Prop
  | .receiveRemove message remover _ => remover = b ∧ EvictionVetted C r message remover
  | .receiveSync message sender => sender = b ∧ Merges C r message sender ∧ ReportsRemoved message r.selfId
  | _ => False

theorem removedMe_receiveRemove (r : Roster) (message : RosterRemove) (remover : String) (now : SystemTime)
    (b : String) : (r.receiveRemove C message remover now).1.removedMe.contains b = true ↔
      r.removedMe.contains b = true ∨ remover = b ∧ EvictionVetted C r message remover := by
  have hcases := receiveRemove_cases C r message remover now
  generalize r.receiveRemove C message remover now = after at hcases ⊢
  cases hcases with
  | refused refusal ledger hnot _ => simp [hnot]
  | aboutSelf hvet =>
    show (r.removedMe.insert remover).contains b = true ↔ _
    rw [contains_insert_iff, or_comm]
    simp [hvet]
  | alreadyRemoved hvet _ =>
    have hnot : ¬ EvictionVetted C r message remover := fun h => hvet.notSelf h.aboutSelf
    unfold chargeRemoval
    split <;> simp [hnot]
  | applied hvet _ =>
    have hnot : ¬ EvictionVetted C r message remover := fun h => hvet.notSelf h.aboutSelf
    unfold chargeRemoval applyTombstone
    split <;> simp [hnot]

theorem removedMe_foldl_reconcileRow (listed : List ServerDevice) (s : Reconcile) :
    (listed.foldl reconcileRow s).roster.removedMe = s.roster.removedMe := by
  induction listed generalizing s with
  | nil => rfl
  | cons device listed ih =>
    rw [List.foldl_cons, ih]
    unfold reconcileRow
    simp only []
    split
    · split
      · split <;> rfl
      · rfl
    · rfl

theorem removedMe_step {r : Roster} (hself : r.devices.contains r.selfId = true) (op : Op C) (b : String) :
    (step C r op).removedMe.contains b = true ↔ r.removedMe.contains b = true ∨ ToldBy C r b op := by
  cases op with
  | receiveIntroduce message introducer now =>
    have hcases := receiveIntroduce_cases C r message introducer now
    show (r.receiveIntroduce C message introducer now).1.removedMe.contains b = true ↔ _ ∨ False
    generalize r.receiveIntroduce C message introducer now = after at hcases ⊢
    cases hcases <;> simp [refuseVouch, admitDevice]
  | approveHeld s =>
    have hcases := approveHeld_cases r s
    show (r.approveHeld s).1.removedMe.contains b = true ↔ _ ∨ False
    generalize r.approveHeld s = after at hcases ⊢
    cases hcases <;> simp [admitDevice]
  | denyHeld s =>
    show (r.denyHeld s).1.removedMe.contains b = true ↔ _ ∨ False
    rw [denyHeld_eq, or_false]
  | receiveRemove message remover now => exact removedMe_receiveRemove C r message remover now b
  | remove subject reason removedAt identity now =>
    have hcases := remove_cases C r subject reason removedAt identity now
    show (r.remove C subject reason removedAt identity now).1.removedMe.contains b = true ↔ _ ∨ False
    generalize r.remove C subject reason removedAt identity now = after at hcases ⊢
    cases hcases with
    | refused _ => simp
    | applied sig _ _ =>
      unfold chargeRemoval applyTombstone
      split <;> simp
  | receiveSync message sender =>
    refine (removedMe_receiveSync C r message sender b).trans ?_
    simp [ToldBy, hself]
  | updateLabels d displayName memberGroup role =>
    show (r.updateLabels d displayName memberGroup role).1.removedMe.contains b = true ↔ _ ∨ False
    rw [updateLabels_eq, or_false]
  | reconcileServerList listed =>
    show (listed.foldl reconcileRow ⟨r, [], [], ∅⟩).roster.removedMe.contains b = true ↔ _ ∨ False
    rw [removedMe_foldl_reconcileRow, or_false]
  | restart selfId => rw [step_restart]; exact (or_false _).symm ▸ Iff.rfl

/-- A record of `d` that is not active stands beside a tombstone for `d`. -/
def RemovalHeld (d : String) (r : Roster) : Prop :=
  ∀ record, r.devices.get? d = some record → record.state = .removed → r.tombstones.contains d = true

theorem removalHeld_step {r : Roster} {d : String} {op : Op C} (h : RemovalHeld d r) (hop : ¬ Revokes C d op) :
    RemovalHeld d (step C r op) := by
  intro record hrecord hrem
  have hout : (step C r op).isActive d = false := by simp [isActive, hrecord, DeviceRecord.isActive, hrem]
  by_cases ha : r.isActive d = true
  · rcases active_or_buried_step C op ha hop with hs | hs
    · rw [hout] at hs; cases hs
    · exact hs
  -- not active before: known and buried, or not known, and then admitted active
  have hmono : r.tombstones.contains d = true → (step C r op).tombstones.contains d = true :=
    fun hb => (buried_step C r op d).mpr (Or.inl hb)
  cases hbefore : r.devices.get? d with
  | some record' =>
    refine hmono (h record' hbefore ?_)
    cases hstate : record'.state with
    | removed => rfl
    | active => exact absurd (isActive_iff.mpr ⟨record', hbefore, by simp [DeviceRecord.isActive, hstate]⟩) ha
  | none =>
    have hcases := step_cases C r op
    generalize step C r op = after at hcases hrecord hout
    have hunknown : r.devices.contains d = false := Table.contains_eq_false.mpr hbefore
    have hknown : after.devices.contains d = true := Table.contains_iff.mpr ⟨record, hrecord⟩
    cases hcases with
    | quiet r' hq => rw [hq.contains_devices, hunknown] at hknown; cases hknown
    | quarantined message introducer now _ _ _ _ => rw [hunknown] at hknown; cases hknown
    | admitted subject introducer r₀ _ hd _ _ =>
      rw [isActive_admitDevice, Bool.or_eq_false_iff, decide_eq_false_iff_not] at hout
      have hget : (r₀.devices.insert (.fromVouch subject introducer)).get? d = some record := hrecord
      rw [Table.get?_insert, if_neg (show (DeviceRecord.fromVouch subject introducer).deviceId ≠ d from hout.1), hd,
        hbefore] at hget
      cases hget

end Roster

namespace Family

variable (C : Crypto)

/-! ## What devices tell each other -/

/-- `a` takes word from `b` that `b` removed it. -/
def Tells (a b : String) (f : Family) (e : Event C) : Prop :=
  ∃ r op, acts C f e = some (a, op) ∧ f.rosters a = some r ∧ Roster.ToldBy C r b op

/-- `b` executes `remove(a)`. -/
def evicts (b a : String) (f : Family) : Event C → Bool
  | .remove sender subject reason removedAt identity now =>
    sender == b && subject == a &&
      (f.rosters b).any fun r => (r.remove C subject reason removedAt identity now).2.isOk
  | _ => false

/-- `b` sends its sync while it holds a tombstone for `a`. -/
def Announces (b a : String) (f : Family) (e : Event C) : Prop :=
  e = .sync b ∧ ∃ r, f.rosters b = some r ∧ r.tombstones.contains a = true

/-- A device takes a server list that revokes `a`. -/
def Revokes (a : String) (_ : Family) : Event C → Prop
  | .reconcileServerList _ listed => ⟨a, true⟩ ∈ listed
  | _ => False

theorem reachable_run (events : List (Event C)) (a : String) (r : Roster)
    (hr : (run C empty events).rosters a = some r) : Roster.Reachable C r ∧ r.selfId = a := by
  induction events using List.reverseRecOn generalizing r with
  | nil => cases hr
  | append_singleton events e ih =>
    rw [run, Trace.run_snoc] at hr
    have hkept := kept_step C (run C empty events) e a
    generalize (step C (run C empty events) e).rosters a = after at hkept hr
    subst hr
    generalize hafter : some r = after at hkept
    cases hkept with
    | acted op _ =>
      obtain ⟨r₀, hr₀, rfl⟩ := Option.map_eq_some_iff.mp hafter.symm
      obtain ⟨hreach, hself⟩ := ih r₀ hr₀
      exact ⟨.step op hreach, by rw [Roster.step_selfId, hself]⟩
    | idle _ => exact ih r hafter.symm
    | started r' _ _ hs =>
      cases hafter
      cases hs with
      | found me identity => exact ⟨.born (.found me identity), rfl⟩
      | adopt _ index _ hadopt => exact ⟨.born (.adopt hadopt), by rw [(Roster.outcome_adopt C hadopt).2.2]⟩

/-- The removed-me set holds exactly those whose word was taken. -/
theorem told_run (events : List (Event C)) (a b : String) :
    ((run C empty events).rosters a).any (·.removedMe.contains b) = true ↔
      Trace.SomeStep (step C) (Tells C a b) empty events := by
  induction events using List.reverseRecOn with
  | nil => simp [empty]
  | append_singleton events e ih =>
    rw [run, Trace.run_snoc, Trace.someStep_snoc, ← ih]
    have hkept := kept_step C (run C empty events) e a
    generalize (step C (run C empty events) e).rosters a = after at hkept ⊢
    cases hkept with
    | acted op hacts =>
      cases hr : (run C empty events).rosters a with
      | none =>
        refine iff_of_false (by simp) fun h => ?_
        rcases h with h | ⟨r, op', -, hr', -⟩
        · simp at h
        · exact absurd (hr.symm.trans hr') (by simp)
      | some r =>
        obtain ⟨hreach, -⟩ := reachable_run C events a r hr
        show (Roster.step C r op).removedMe.contains b = true ↔ r.removedMe.contains b = true ∨ _
        rw [Roster.removedMe_step C (hreach.contains_self C)]
        refine or_congr_right ⟨fun h => ⟨r, op, hacts, hr, h⟩, fun h => ?_⟩
        obtain ⟨r', op', hacts', hr', h⟩ := h
        cases hr.symm.trans hr'
        cases hacts.symm.trans hacts'
        exact h
    | idle hnot => exact ⟨Or.inl, fun h => h.elim id fun ⟨_, op, hacts, _⟩ => absurd hacts (hnot op)⟩
    | started r hnot hnone hs =>
      have hfresh : r.removedMe.contains b = false := by
        cases hs with
        | found me identity => simp [Roster.founded, Roster.found]
        | adopt _ index _ hadopt => rw [(Roster.outcome_adopt C hadopt).2.2]; simp
      rw [hnone]
      refine iff_of_false (by simp [hfresh]) fun h => ?_
      rcases h with h | ⟨_, op, hacts, _⟩
      · simp at h
      · exact absurd hacts (hnot op)

theorem sent_of_acts {f : Family} {e : Event C} {a : String} {op : Roster.Op C} (h : acts C f e = some (a, op)) :
    (∀ message b now, op = .receiveRemove message b now → ⟨b, .remove message⟩ ∈ f.sent) ∧
    (∀ message b, op = .receiveSync message b → ⟨b, .sync message⟩ ∈ f.sent) := by
  cases e with
  | receive device index now =>
    simp only [acts, Option.map_eq_some_iff, Option.bind_eq_some_iff] at h
    obtain ⟨_, ⟨⟨sender, message⟩, hget, hreceived⟩, hpair⟩ := h
    cases hpair
    have hmem := List.mem_of_getElem? hget
    cases message with
    | introduce message =>
      cases hreceived
      exact ⟨fun _ _ _ h => (by cases h), fun _ _ h => (by cases h)⟩
    | remove message =>
      cases hreceived
      exact ⟨fun _ _ _ h => (by cases h; exact hmem), fun _ _ h => (by cases h)⟩
    | sync message =>
      cases hreceived
      exact ⟨fun _ _ _ h => (by cases h), fun _ _ h => (by cases h; exact hmem)⟩
    | welcome introducer devices tombstones epoch vouch => cases hreceived
  | _ =>
    refine ⟨fun message b now hop => ?_, fun message b hop => ?_⟩ <;> subst hop <;> cases h

theorem revokes_of_acts {f : Family} {e : Event C} {a d : String} {op : Roster.Op C} (h : acts C f e = some (a, op))
    (hop : Roster.Revokes C d op) : Revokes C d f e := by
  cases op with
  | reconcileServerList listed =>
    cases e with
    | receive device index now =>
      simp only [acts, Option.map_eq_some_iff, Option.bind_eq_some_iff] at h
      obtain ⟨_, ⟨⟨sender, message⟩, -, hreceived⟩, hpair⟩ := h
      cases hpair
      cases message <;> cases hreceived
    | reconcileServerList device listed' =>
      cases h
      exact hop
    | _ => cases h
  | _ => exact hop.elim

theorem evicts_of_sent (events : List (Event C)) (b : String) (message : RosterRemove)
    (h : ⟨b, .remove message⟩ ∈ (run C empty events).sent) :
    Trace.SomeStep (step C) (fun f e => evicts C b message.subject f e = true) empty events := by
  induction events using List.reverseRecOn with
  | nil => cases h
  | append_singleton events e ih =>
    rw [run, Trace.run_snoc] at h
    rw [Trace.someStep_snoc]
    rcases mem_sent_step C h with h | hposts
    · exact Or.inl (ih h)
    · cases hposts with
      | remove subject reason removedAt identity now r applied hr happlied =>
        right
        have hr' : (Trace.run (step C) empty events).rosters b = some r := hr
        simp only [evicts, Roster.subject_of_remove C happlied, hr', Option.any_some, happlied, beq_self_eq_true,
          Bool.and_self]
        rfl

/-- Each inactive record of `d`, held or on its way to a joining device, has its tombstone beside it. -/
structure Accounted (d : String) (f : Family) : Prop where
  held : ∀ device r, f.rosters device = some r → Roster.RemovalHeld d r
  sent : ∀ sender introducer devices tombstones epoch vouch,
    ⟨sender, .welcome introducer devices tombstones epoch vouch⟩ ∈ f.sent →
      ∀ record ∈ introducer :: devices, record.deviceId = d → record.state = .removed →
        ∃ t ∈ tombstones, t.subject = d

theorem removalHeld_adopt {d device : String} {introducer : DeviceRecord} {devices : List DeviceRecord}
    {tombstones : List Tombstone} {epoch : UInt64} {vouch : RosterIntroduce} {applied : Applied Roster}
    (hadopt : Roster.adopt C device introducer devices tombstones epoch vouch = .ok applied)
    (h : ∀ record ∈ introducer :: devices, record.deviceId = d → record.state = .removed →
      ∃ t ∈ tombstones, t.subject = d) : Roster.RemovalHeld d applied.outcome := by
  rw [(Roster.outcome_adopt C hadopt).2.2]
  intro record hrecord hrem
  have hkey : record.deviceId = d := Table.get?_key hrecord
  have hmem : record ∈ introducer :: devices := by
    let theirs : Table DeviceRecord.deviceId := .ofList devices
    let mine : DeviceRecord := .fromVouch vouch.subject introducer.deviceId
    have hget : ((theirs.insert mine).insertIfNew introducer).get? d = some record := hrecord
    -- the own record is active, so the record is one of those handed over
    have htheirs : (theirs.insert mine).get? d = some record → record ∈ introducer :: devices := by
      intro hget
      rw [Table.get?_insert] at hget
      split at hget
      · rw [← Option.some.inj hget] at hrem
        cases (show DeviceState.active = .removed from hrem)
      · rw [Table.get?_ofList] at hget
        exact List.mem_cons_of_mem _ (List.mem_reverse.mp (List.mem_of_find?_eq_some hget))
    unfold Table.insertIfNew at hget
    split at hget
    · exact htheirs hget
    · rw [Table.get?_insert] at hget
      split at hget
      · cases hget; exact List.mem_cons_self
      · exact htheirs hget
  show (Table.ofList tombstones : Table Tombstone.subject).contains d = true
  exact Table.contains_ofList.mpr (h record hmem hkey hrem)

theorem accounted_run (d : String) (events : List (Event C))
    (h : ¬ Trace.SomeStep (step C) (Revokes C d) empty events) : Accounted d (run C empty events) := by
  induction events using List.reverseRecOn with
  | nil => exact ⟨fun _ _ h => (by cases h), fun _ _ _ _ _ _ h => (by cases h)⟩
  | append_singleton events e ih =>
    rw [Trace.someStep_snoc, not_or] at h
    obtain ⟨hbefore, hnot⟩ := h
    have hinv := ih hbefore
    rw [run, Trace.run_snoc]
    refine ⟨fun device r hr => ?_,
      fun sender introducer devices tombstones epoch vouch hmem record hrecord hd hrem => ?_⟩
    · have hkept := kept_step C (run C empty events) e device
      have hr' : (step C (run C empty events) e).rosters device = some r := hr
      rw [hr'] at hkept
      generalize hafter : some r = after at hkept
      cases hkept with
      | acted op hacts =>
        obtain ⟨r₀, hr₀, rfl⟩ := Option.map_eq_some_iff.mp hafter.symm
        refine Roster.removalHeld_step C (hinv.held device r₀ hr₀) fun hrevokes =>
          hnot (revokes_of_acts C hacts hrevokes)
      | idle _ => exact hinv.held device r hafter.symm
      | started r' _ _ hs =>
        cases hafter
        cases hs with
        | found me identity =>
          intro record hrecord hrem
          have hget : ((Table.empty : Table DeviceRecord.deviceId).insert _).get? d = some record := hrecord
          rw [Table.get?_insert, Table.get?_empty] at hget
          split at hget
          · cases hget; cases hrem
          · cases hget
        | adopt _ index hget hadopt =>
          exact removalHeld_adopt C hadopt (hinv.sent _ _ _ _ _ _ (List.mem_of_getElem? hget))
    · rcases mem_sent_step C hmem with hmem | hposts
      · exact hinv.sent _ _ _ _ _ _ hmem record hrecord hd hrem
      · cases hposts with
        | welcome shown vouch r mine hr hmine =>
          have hget : r.devices.get? d = some record := by
            rcases List.mem_cons.mp hrecord with rfl | hrecord
            · rw [← hd, Table.get?_key hmine]; exact hmine
            · rw [← hd]; exact Table.mem_values.mp (List.mem_filter.mp hrecord).1
          obtain ⟨t, ht⟩ := Table.contains_iff.mp (hinv.held _ r hr record hget hrem)
          exact ⟨t, Table.mem_values_of_get? ht, Table.get?_key ht⟩

theorem announced_of_sent (events : List (Event C)) (a b : String) (message : RosterSync)
    (h : ⟨b, .sync message⟩ ∈ (run C empty events).sent) (hrep : Roster.ReportsRemoved message a) :
    Trace.SomeStep (step C) (Announces C b a) empty events ∨ Trace.SomeStep (step C) (Revokes C a) empty events := by
  induction events using List.reverseRecOn with
  | nil => cases h
  | append_singleton events e ih =>
    rw [run, Trace.run_snoc] at h
    rw [Trace.someStep_snoc, Trace.someStep_snoc]
    rcases mem_sent_step C h with h | hposts
    · exact (ih h).imp Or.inl Or.inl
    · cases hposts with
      | sync r hr =>
        by_cases hrevoked : Trace.SomeStep (step C) (Revokes C a) empty events
        · exact Or.inr (Or.inl hrevoked)
        · obtain ⟨record, hrecord, hrem⟩ := (Roster.reportsRemoved_sync C r a).mp hrep
          have hheld := (accounted_run C a events hrevoked).held b r hr record hrecord hrem
          exact Or.inl (Or.inr ⟨rfl, r, hr, hheld⟩)

/-! ## Splits, exactly -/

/-- After any run: `b` is among `a`'s splits exactly if `a` holds a tombstone for `b` and has
    taken `b`'s word that it removed `a`. At any step of the run, a removal of `a` that
    reaches `a` from `b` is one `b` has executed, and a sync of `b`'s that reports `a`
    removed is one `b` sent while it held a tombstone for `a`, or a server list revoked `a`. -/
theorem splits_exact (events : List (Event C)) (a b : String) :
    (∀ r, (run C empty events).rosters a = some r →
      (b ∈ r.splits ↔
        r.tombstones.contains b = true ∧ Trace.SomeStep (step C) (Tells C a b) empty events)) ∧
    ∀ pre e post, events = pre ++ e :: post →
      (∀ message now, acts C (run C empty pre) e = some (a, .receiveRemove message b now) → message.subject = a →
        Trace.SomeStep (step C) (fun f e => evicts C b a f e = true) empty pre) ∧
      (∀ message, acts C (run C empty pre) e = some (a, .receiveSync message b) → Roster.ReportsRemoved message a →
        Trace.SomeStep (step C) (Announces C b a) empty pre ∨
        Trace.SomeStep (step C) (Revokes C a) empty pre) := by
  constructor
  · intro r hr
    have htold := told_run C events a b
    rw [hr, Option.any_some] at htold
    rw [Roster.mem_splits, htold, and_comm]
  · intro pre e post _
    refine ⟨fun message now hacts hsubject => ?_, fun message hacts hrep => ?_⟩
    · subst hsubject
      exact evicts_of_sent C pre b message ((sent_of_acts C hacts).1 message b now rfl)
    · exact announced_of_sent C pre a b message ((sent_of_acts C hacts).2 message b rfl) hrep

/-! ## A removal taken over, and a sync that comes too late -/

/-- A removal of `a`, or a sync that reports it removed, reaches `a` from `b`. -/
def hears (a b : String) (f : Family) : Event C → Bool
  | .receive device index _ => device == a && (f.sent[index]?).any fun s => s.sender == b &&
      match s.message with
      | .remove message => message.subject == a
      | .sync message => message.devices.any fun reported => reported.deviceId == a && reported.state == .removed
      | _ => false
  | _ => false

/-- `a` founds, `b` joins and both admit `c`, which joins. -/
def threeJoin : List (Event Crypto.plain) :=
  [.found ⟨"a", "a", "g", "admin", ""⟩ "ka",
   .vouch "a" ⟨"b", "kb", "b", "g", "child", ""⟩ "ka",
   .receive "a" 0 (.ofSecs 1750000000),
   .welcome "a" (fun _ => true) (Roster.vouched "b" "kb" "" "ka"),
   .adopt "b" 1,
   .vouch "a" ⟨"c", "kc", "c", "g", "child", ""⟩ "ka",
   .receive "a" 2 (.ofSecs 1750000000),
   .receive "b" 2 (.ofSecs 1750000000),
   .welcome "a" (fun _ => true) (Roster.vouched "c" "kc" "" "ka"),
   .adopt "c" 3]

/-- `c` removes `a`, which only `b` hears of; `b`'s next sync reaches `a`, which removes `b`. -/
def removalTakenOver : List (Event Crypto.plain) :=
  threeJoin ++
    [.remove "c" "a" .removed "" "kc" (.ofSecs 1750000000),
     .receive "b" 4 (.ofSecs 1750000000),
     .sync "b",
     .receive "a" 5 (.ofSecs 1750000000),
     .remove "a" "b" .removed "" "ka" (.ofSecs 1750000000)]

/-- `a` and `b` remove each other; only `b`'s sync reaches `a`. -/
def syncTooLate : List (Event Crypto.plain) :=
  threeJoin ++
    [.remove "b" "a" .removed "" "kb" (.ofSecs 1750000000),
     .sync "b",
     .remove "a" "b" .removed "" "ka" (.ofSecs 1750000000),
     .receive "a" 5 (.ofSecs 1750000000)]

/-- `a` counts `b` among its splits. -/
def splitFrom (f : Family) (a b : String) : Bool := (f.rosters a).any fun r => r.splits.contains b

theorem split_not_exact :
    (Trace.SomeStep (step Crypto.plain) (fun f e => hears Crypto.plain "a" "b" f e = true) empty removalTakenOver ∧
      splitFrom (run Crypto.plain empty removalTakenOver) "a" "b" = true ∧
      ¬ Trace.SomeStep (step Crypto.plain) (fun f e => evicts Crypto.plain "b" "a" f e = true) empty
        removalTakenOver) ∧
    Trace.SomeStep (step Crypto.plain) (fun f e => hears Crypto.plain "a" "b" f e = true) empty syncTooLate ∧
      ((run Crypto.plain empty syncTooLate).rosters "a").any (·.tombstones.contains "b") = true ∧
      Trace.SomeStep (step Crypto.plain) (fun f e => evicts Crypto.plain "b" "a" f e = true) empty syncTooLate ∧
      splitFrom (run Crypto.plain empty syncTooLate) "a" "b" = false := by
  refine ⟨⟨by decide +kernel, by decide +kernel, by decide +kernel⟩, by decide +kernel, by decide +kernel,
    by decide +kernel, by decide +kernel⟩

end Family

end Beacon
