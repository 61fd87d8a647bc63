/-
  Beacon.Family — the rosters of a whole family and the messages between them.

  A message says who sent it, because the session authenticates the sender; once sent
  it may be received by anyone, at any later time, any number of times, or never. The
  host owns the delivery and the device list, and writes no message. A device starts
  by founding or by adopting, whole, what a member sent it from its own roster.

  - `host_buries_nobody_iff`: where no device executes `remove(d)`, every roster stays
    without a tombstone for `d` exactly as long as no device but `d` merges a sync that
    reports `d` removed while it has a record of `d`. The host brings that about with
    one revoked row: the record it deactivates is reported, and the next merge buries.
  - the reconciliation itself buries nobody, and a fresh vouch undoes it.
-/

import Mathlib.Logic.Function.Basic
import Beacon.Roster.Removals

namespace Beacon

open Lib

variable (C : Crypto)

/-! ## Devices and messages -/

inductive Message where
  | introduce (message : RosterIntroduce)
  | remove (message : RosterRemove)
  | sync (message : RosterSync)
  /-- What a member shows a joining device: its own record, its records, tombstones and epoch, and a vouch. -/
  | welcome (introducer : DeviceRecord) (devices : List DeviceRecord) (tombstones : List Tombstone)
      (epoch : UInt64) (vouch : RosterIntroduce)

structure Sent where
  sender : String
  message : Message

structure Family where
  rosters : String → Option Roster
  sent : List Sent

namespace Family

inductive Event where
  | found (me : SelfDescription) (identity : C.IdentityKey)
  | vouch (sender : String) (subject : VouchedSubject) (identity : C.IdentityKey)
  | remove (sender subject : String) (reason : RemovalReason) (removedAt : String) (identity : C.IdentityKey)
      (now : SystemTime)
  | sync (sender : String)
  /-- The records to show are the sender's choice; the tombstones are all it has. -/
  | welcome (sender : String) (shown : DeviceRecord → Bool) (vouch : RosterIntroduce)
  | adopt (device : String) (index : Nat)
  | receive (device : String) (index : Nat) (now : SystemTime)
  | approveHeld (device subject : String)
  | denyHeld (device subject : String)
  | updateLabels (device deviceId : String) (displayName memberGroup role : Option String)
  | reconcileServerList (device : String) (listed : List ServerDevice)
  | restart (device selfId : String)

def empty : Family := ⟨fun _ => none, []⟩

/-- One operation of one device on its own roster. -/
def own (f : Family) (device : String) (op : Roster.Op C) : Family :=
  match f.rosters device with
  | none => f
  | some r => { f with rosters := Function.update f.rosters device (some (Roster.step C r op)) }

def post (f : Family) (sender : String) (message : Message) : Family := { f with sent := f.sent ++ [⟨sender, message⟩] }

def start (f : Family) (device : String) (r : Roster) : Family :=
  match f.rosters device with
  | none => { f with rosters := Function.update f.rosters device (some r) }
  | some _ => f

/-- What a received message is to the roster; a welcome is adopted, never received. -/
def received (s : Sent) (now : SystemTime) : Option (Roster.Op C) :=
  match s.message with
  | .introduce message => some (.receiveIntroduce message s.sender now)
  | .remove message => some (.receiveRemove message s.sender now)
  | .sync message => some (.receiveSync message s.sender)
  | .welcome _ _ _ _ _ => none

def step (f : Family) : Event C → Family
  | .found me identity => f.start me.deviceId (Roster.founded C me identity)
  | .vouch sender subject identity =>
    match f.rosters sender with
    | none => f
    | some r =>
      match r.vouchFor C subject identity with
      | .error _ => f
      | .ok message => f.post sender (.introduce message)
  | .remove sender subject reason removedAt identity now =>
    match f.rosters sender with
    | none => f
    | some r =>
      match (r.remove C subject reason removedAt identity now).2 with
      | .error _ => f
      | .ok applied =>
        (f.own C sender (.remove subject reason removedAt identity now)).post sender (.remove applied.outcome)
  | .sync sender =>
    match f.rosters sender with
    | none => f
    | some r => f.post sender (.sync (r.sync C))
  | .welcome sender shown vouch =>
    match f.rosters sender with
    | none => f
    | some r =>
      match r.devices.get? r.selfId with
      | none => f
      | some mine => f.post sender (.welcome mine (r.devices.values.filter shown) r.tombstones.values r.epoch vouch)
  | .adopt device index =>
    match f.sent[index]? with
    | some ⟨_, .welcome introducer devices tombstones epoch vouch⟩ =>
      match Roster.adopt C device introducer devices tombstones epoch vouch with
      | .ok applied => f.start device applied.outcome
      | .error _ => f
    | _ => f
  | .receive device index now =>
    match (f.sent[index]?).bind fun s => received C s now with
    | none => f
    | some op => f.own C device op
  | .approveHeld device subject => f.own C device (.approveHeld subject)
  | .denyHeld device subject => f.own C device (.denyHeld subject)
  | .updateLabels device deviceId displayName memberGroup role =>
    f.own C device (.updateLabels deviceId displayName memberGroup role)
  | .reconcileServerList device listed => f.own C device (.reconcileServerList listed)
  | .restart device selfId => f.own C device (.restart selfId)

abbrev run (f : Family) (events : List (Event C)) : Family := Trace.run (step C) f events

/-! ## What an event sends -/

theorem sent_own (f : Family) (device : String) (op : Roster.Op C) : (f.own C device op).sent = f.sent := by
  unfold own
  split <;> rfl

theorem sent_start (f : Family) (device : String) (r : Roster) : (f.start device r).sent = f.sent := by
  unfold start
  split <;> rfl

/-- The message an event sends, out of the sender's roster. -/
inductive Posts (f : Family) : Event C → Sent → Prop
  | vouch {sender : String} (subject : VouchedSubject) (identity : C.IdentityKey) (r : Roster)
      (message : RosterIntroduce) : f.rosters sender = some r → r.vouchFor C subject identity = .ok message →
      Posts f (.vouch sender subject identity) ⟨sender, .introduce message⟩
  | remove {sender : String} (subject : String) (reason : RemovalReason) (removedAt : String) (identity : C.IdentityKey)
      (now : SystemTime) (r : Roster) (applied : Applied RosterRemove) : f.rosters sender = some r →
      (r.remove C subject reason removedAt identity now).2 = .ok applied →
      Posts f (.remove sender subject reason removedAt identity now) ⟨sender, .remove applied.outcome⟩
  | sync {sender : String} (r : Roster) : f.rosters sender = some r →
      Posts f (.sync sender) ⟨sender, .sync (r.sync C)⟩
  | welcome {sender : String} (shown : DeviceRecord → Bool) (vouch : RosterIntroduce) (r : Roster) (mine : DeviceRecord) :
      f.rosters sender = some r → r.devices.get? r.selfId = some mine → Posts f (.welcome sender shown vouch)
        ⟨sender, .welcome mine (r.devices.values.filter shown) r.tombstones.values r.epoch vouch⟩

theorem mem_sent_step {f : Family} {e : Event C} {s : Sent} (h : s ∈ (step C f e).sent) :
    s ∈ f.sent ∨ Posts C f e s := by
  have hpost : ∀ {g : Family} {sender : String} {message : Message}, s ∈ (g.post sender message).sent →
      s ∈ g.sent ∨ s = ⟨sender, message⟩ := by
    intro g sender message hmem
    rcases List.mem_append.mp hmem with hold | hnew
    · exact Or.inl hold
    · exact Or.inr (List.mem_singleton.mp hnew)
  unfold step at h
  cases e with
  | vouch sender subject identity =>
    simp only [] at h
    split at h
    next => exact Or.inl h
    next r hr =>
      split at h
      next => exact Or.inl h
      next message hvouch =>
        rcases hpost h with hold | rfl
        · exact Or.inl hold
        · exact Or.inr (.vouch subject identity r message hr hvouch)
  | remove sender subject reason removedAt identity now =>
    simp only [] at h
    split at h
    next => exact Or.inl h
    next r hr =>
      split at h
      next => exact Or.inl h
      next applied happlied =>
        rcases hpost h with hold | rfl
        · rw [sent_own] at hold
          exact Or.inl hold
        · exact Or.inr (.remove subject reason removedAt identity now r applied hr happlied)
  | sync sender =>
    simp only [] at h
    split at h
    next => exact Or.inl h
    next r hr =>
      rcases hpost h with hold | rfl
      · exact Or.inl hold
      · exact Or.inr (.sync r hr)
  | welcome sender shown vouch =>
    simp only [] at h
    split at h
    next => exact Or.inl h
    next r hr =>
      split at h
      next => exact Or.inl h
      next mine hmine =>
        rcases hpost h with hold | rfl
        · exact Or.inl hold
        · exact Or.inr (.welcome shown vouch r mine hr hmine)
  | adopt device index =>
    simp only [] at h
    split at h
    · split at h
      · rw [sent_start] at h
        exact Or.inl h
      · exact Or.inl h
    · exact Or.inl h
  | receive device index now =>
    simp only [] at h
    split at h
    · exact Or.inl h
    · rw [sent_own] at h
      exact Or.inl h
  | found me identity =>
    rw [sent_start] at h
    exact Or.inl h
  | _ =>
    rw [sent_own] at h
    exact Or.inl h

/-! ## What an event does to a roster -/

/-- The operation an event has one device do on its own roster. -/
def acts (f : Family) : Event C → Option (String × Roster.Op C)
  | .remove sender subject reason removedAt identity now => some (sender, .remove subject reason removedAt identity now)
  | .receive device index now => ((f.sent[index]?).bind fun s => received C s now).map fun op => (device, op)
  | .approveHeld device subject => some (device, .approveHeld subject)
  | .denyHeld device subject => some (device, .denyHeld subject)
  | .updateLabels device deviceId displayName memberGroup role =>
    some (device, .updateLabels deviceId displayName memberGroup role)
  | .reconcileServerList device listed => some (device, .reconcileServerList listed)
  | .restart device selfId => some (device, .restart selfId)
  | _ => none

/-- The event starts `device` with this roster, if it has none. -/
inductive Starts (f : Family) : Event C → String → Roster → Prop
  | found (me : SelfDescription) (identity : C.IdentityKey) :
      Starts f (.found me identity) me.deviceId (Roster.founded C me identity)
  | adopt (device : String) (index : Nat) {sender : String} {introducer : DeviceRecord} {devices : List DeviceRecord}
      {tombstones : List Tombstone} {epoch : UInt64} {vouch : RosterIntroduce} {applied : Applied Roster} :
      f.sent[index]? = some ⟨sender, .welcome introducer devices tombstones epoch vouch⟩ →
      Roster.adopt C device introducer devices tombstones epoch vouch = .ok applied →
      Starts f (.adopt device index) device applied.outcome

theorem rosters_own (f : Family) (device : String) (op : Roster.Op C) (a : String) :
    (f.own C device op).rosters a = if device = a then (f.rosters a).map (Roster.step C · op) else f.rosters a := by
  unfold own
  cases hr : f.rosters device with
  | none =>
    show f.rosters a = _
    by_cases h : device = a
    · subst h
      rw [if_pos rfl, hr]; rfl
    · rw [if_neg h]
  | some r =>
    show Function.update f.rosters device (some (Roster.step C r op)) a = _
    by_cases h : device = a
    · subst h
      rw [Function.update_self, if_pos rfl, hr]; rfl
    · rw [Function.update_of_ne (Ne.symm h), if_neg h]

theorem rosters_start (f : Family) (device : String) (r : Roster) (a : String) :
    (f.start device r).rosters a = f.rosters a ∨
      device = a ∧ f.rosters a = none ∧ (f.start device r).rosters a = some r := by
  unfold start
  split
  next hnone =>
    by_cases h : device = a
    · subst h
      exact Or.inr ⟨rfl, hnone, Function.update_self device (some r) f.rosters⟩
    · exact Or.inl (Function.update_of_ne (Ne.symm h) (some r) f.rosters)
  next => exact Or.inl rfl

/-- What became of `a`'s roster in one event. -/
inductive Kept (f : Family) (e : Event C) (a : String) : Option Roster → Prop
  | acted (op : Roster.Op C) : acts C f e = some (a, op) → Kept f e a ((f.rosters a).map (Roster.step C · op))
  | idle : (∀ op, acts C f e ≠ some (a, op)) → Kept f e a (f.rosters a)
  | started (r : Roster) : (∀ op, acts C f e ≠ some (a, op)) → f.rosters a = none → Starts C f e a r →
      Kept f e a (some r)

theorem kept_own {f : Family} {e : Event C} {device : String} {op : Roster.Op C} (h : acts C f e = some (device, op))
    (a : String) : Kept C f e a ((f.own C device op).rosters a) := by
  rw [rosters_own]
  by_cases ha : device = a
  · subst ha
    rw [if_pos rfl]
    exact .acted op h
  · rw [if_neg ha]
    refine .idle fun op' h' => ha ?_
    rw [h] at h'
    exact congrArg Prod.fst (Option.some.inj h')

theorem kept_step (f : Family) (e : Event C) (a : String) : Kept C f e a ((step C f e).rosters a) := by
  have hidle : acts C f e = none → Kept C f e a (f.rosters a) := fun h => .idle fun op h' => by rw [h] at h'; cases h'
  have hstart : ∀ {device : String} {r : Roster}, acts C f e = none → Starts C f e device r →
      Kept C f e a ((f.start device r).rosters a) := by
    intro device r h hs
    rcases rosters_start f device r a with hsame | ⟨rfl, hnone, hnew⟩
    · rw [hsame]; exact hidle h
    · rw [hnew]
      exact .started r (fun op h' => by rw [h] at h'; cases h') hnone hs
  cases e with
  | found me identity => exact hstart rfl (.found me identity)
  | vouch sender subject identity =>
    unfold step
    simp only []
    split
    · exact hidle rfl
    · split <;> exact hidle rfl
  | remove sender subject reason removedAt identity now =>
    have hown := kept_own C (f := f) (e := .remove sender subject reason removedAt identity now) rfl a
    unfold step
    simp only []
    split
    next hnone =>
      -- nobody acts: the roster the event names does not exist
      have hsame : (f.own C sender (.remove subject reason removedAt identity now)) = f := by
        unfold own; rw [hnone]
      rw [hsame] at hown
      exact hown
    next r hr =>
      split
      next refusal hrefused =>
        -- a refusal leaves the roster as it was
        have hcases := Roster.remove_cases C r subject reason removedAt identity now
        have hsame : Roster.step C r (.remove subject reason removedAt identity now) = r := by
          show (r.remove C subject reason removedAt identity now).1 = r
          generalize r.remove C subject reason removedAt identity now = after at hcases hrefused ⊢
          cases hcases with
          | refused _ => rfl
          | applied sig _ _ => cases hrefused
        rw [rosters_own] at hown
        by_cases ha : sender = a
        · subst ha
          rw [if_pos rfl, hr, Option.map_some, hsame, ← hr] at hown
          exact hown
        · rw [if_neg ha] at hown
          exact hown
      next => exact hown
  | sync sender =>
    unfold step
    simp only []
    split <;> exact hidle rfl
  | welcome sender shown vouch =>
    unfold step
    simp only []
    split
    · exact hidle rfl
    · split <;> exact hidle rfl
  | adopt device index =>
    unfold step
    simp only []
    split
    next introducer devices tombstones epoch vouch hget =>
      split
      next applied hadopt => exact hstart rfl (.adopt device index hget hadopt)
      next => exact hidle rfl
    next => exact hidle rfl
  | receive device index now =>
    show Kept C f _ a (Family.rosters (match (f.sent[index]?).bind fun s => received C s now with
      | none => f
      | some op => f.own C device op) a)
    cases hop : (f.sent[index]?).bind fun s => received C s now with
    | none => exact hidle (by simp only [acts, hop, Option.map_none])
    | some op => exact kept_own C (by simp only [acts, hop, Option.map_some]) a
  | _ => exact kept_own C rfl a

/-! ## Where a tombstone can come from -/

/-- The event executes `remove(d)` on some device. -/
def Removes (d : String) : Event C → Prop
  | .remove _ subject _ _ _ _ => subject = d
  | _ => False

/-- No device holds a tombstone for `d`. -/
def Unburied (d : String) (f : Family) : Prop :=
  ∀ device r, f.rosters device = some r → r.tombstones.contains d = false

/-- No message in flight removes `d` or hands over a tombstone for it. -/
def NoneInFlight (d : String) (f : Family) : Prop :=
  ∀ s ∈ f.sent,
    (∀ message, s.message = .remove message → message.subject ≠ d) ∧
    (∀ introducer devices tombstones epoch vouch, s.message = .welcome introducer devices tombstones epoch vouch →
      ∀ t ∈ tombstones, t.subject ≠ d)

/-- A device other than `d` merges a sync that reports `d` removed, with a record of `d` at hand. -/
def Ratifies (d : String) (f : Family) : Event C → Prop
  | .receive device index _ => ∃ r sender message, f.rosters device = some r ∧
      f.sent[index]? = some ⟨sender, .sync message⟩ ∧ Roster.Merges C r message sender ∧
      Roster.ReportsRemoved message d ∧ d ≠ r.selfId ∧ r.devices.contains d = true
  | _ => False

/-- Unless it is removed, `d` is buried by an operation of an event exactly if the event ratifies
    a reported removal of it. -/
theorem ratifies_iff {d : String} {f : Family} (e : Event C) (he : ¬ Removes C d e) (hsent : NoneInFlight d f) :
    Ratifies C d f e ↔
      ∃ device op r, acts C f e = some (device, op) ∧ f.rosters device = some r ∧ Roster.Buries C r d op := by
  constructor
  · intro h
    cases e with
    | receive device index now =>
      rcases h with ⟨r, sender, message, hr, hget, hburies⟩
      exact ⟨device, .receiveSync message sender, r, by simp [acts, hget, received], hr, hburies⟩
    | _ => exact h.elim
  · intro h
    rcases h with ⟨device, op, r, hacts, hr, hburies⟩
    cases e with
    | receive device' index now =>
      simp only [acts, Option.map_eq_some_iff, Option.bind_eq_some_iff, Prod.mk.injEq] at hacts
      rcases hacts with ⟨op', ⟨⟨sender, message⟩, hget, hop⟩, rfl, rfl⟩
      cases message with
      | introduce message =>
        cases hop
        exact hburies.elim
      | remove message =>
        cases hop
        exact absurd hburies.1 ((hsent _ (List.mem_of_getElem? hget)).1 message rfl)
      | sync message =>
        cases hop
        exact ⟨r, sender, message, hr, hget, hburies⟩
      | welcome introducer devices tombstones epoch vouch => cases hop
    | remove sender subject reason removedAt identity now =>
      cases hacts
      exact absurd hburies.1 he
    | _ => cases hacts <;> exact hburies.elim

/-- A roster that starts holds no tombstone for `d`: a founder's holds none, and a joiner's are
    those of the welcome. -/
theorem unburied_starts {d device : String} {f : Family} {e : Event C} {r : Roster} (hsent : NoneInFlight d f)
    (h : Starts C f e device r) : r.tombstones.contains d = false := by
  cases h with
  | found me identity => simp [Roster.founded, Roster.found, Table.contains]
  | adopt _ index hget hadopt =>
    rw [Roster.tombstones_adopt C hadopt, ← Bool.not_eq_true, Table.contains_ofList]
    intro hburied
    rcases hburied with ⟨t, ht, hd⟩
    exact (hsent _ (List.mem_of_getElem? hget)).2 _ _ _ _ _ rfl t ht hd

theorem unburied_step {d : String} {f : Family} (e : Event C) (he : ¬ Removes C d e) (hsent : NoneInFlight d f)
    (hf : Unburied d f) : Unburied d (step C f e) ↔ ¬ Ratifies C d f e := by
  rw [ratifies_iff C e he hsent]
  constructor
  · intro hafter hratifies
    rcases hratifies with ⟨device, op, r, hacts, hr, hburies⟩
    have hkept := kept_step C f e device
    have hafter := hafter device
    generalize (step C f e).rosters device = after at hkept hafter
    cases hkept with
    | acted op' hacts' =>
      obtain rfl : op' = op := congrArg Prod.snd (Option.some.inj (hacts'.symm.trans hacts))
      have hburied := (Roster.buried_step C r op' d).mpr (Or.inr hburies)
      rw [hafter (Roster.step C r op') (by rw [hr]; rfl)] at hburied
      cases hburied
    | idle hidle => exact hidle op hacts
    | started _ hidle _ _ => exact hidle op hacts
  · intro hnot device r' hr'
    have hkept := kept_step C f e device
    generalize (step C f e).rosters device = after at hkept hr'
    cases hkept with
    | acted op hacts =>
      obtain ⟨r, hr, rfl⟩ := Option.map_eq_some_iff.mp hr'
      rw [← Bool.not_eq_true, Roster.buried_step]
      intro hburied
      rcases hburied with hbefore | hburies
      · rw [hf device r hr] at hbefore
        cases hbefore
      · exact hnot ⟨device, op, r, hacts, hr, hburies⟩
    | idle _ => exact hf device r' hr'
    | started r _ _ hstarts =>
      obtain rfl : r = r' := Option.some.inj hr'
      exact unburied_starts C hsent hstarts

theorem noneInFlight_step {d : String} {f : Family} (e : Event C) (he : ¬ Removes C d e) (hsent : NoneInFlight d f)
    (hf : Unburied d f) : NoneInFlight d (step C f e) := by
  intro s hs
  rcases mem_sent_step C hs with hs | hposts
  · exact hsent s hs
  cases hposts with
  | vouch => exact ⟨fun _ h => (by cases h), fun _ _ _ _ _ h => (by cases h)⟩
  | sync => exact ⟨fun _ h => (by cases h), fun _ _ _ _ _ h => (by cases h)⟩
  | remove subject reason removedAt identity now r applied _ happlied =>
    refine ⟨fun message h => ?_, fun _ _ _ _ _ h => (by cases h)⟩
    cases h
    rw [Roster.subject_of_remove C happlied]
    exact he
  | welcome shown vouch r mine hr =>
    refine ⟨fun _ h => (by cases h), fun _ _ tombstones _ _ h t ht hd => ?_⟩
    cases h
    have hburied : r.tombstones.contains d = true := by
      rw [Table.contains_iff]
      exact ⟨t, hd ▸ Table.mem_values.mp ht⟩
    rw [hf _ r hr] at hburied
    cases hburied

/-! ## The host's power over a family -/

/-- In a run from nothing in which nobody executes `remove(d)`: no device ever holds a
    tombstone for `d` exactly when no device but `d` ratifies a reported removal of `d`.
    A reconciliation writes no tombstone, and a vouch that passes the checks readmits. -/
theorem host_buries_nobody_iff (d : String) (events : List (Event C)) (hevents : ∀ e ∈ events, ¬ Removes C d e) :
    (Trace.EachState (step C) (Unburied d) empty events ↔
      Trace.EachStep (step C) (fun f e => ¬ Ratifies C d f e) empty events) ∧
    ∀ (r : Roster) (listed : List ServerDevice), r.tombstones.contains d = false →
      (r.reconcileServerList listed).1.tombstones = r.tombstones ∧
      ∀ vouch introducer now, vouch.subject.deviceId = d →
        Roster.Presentable C (r.reconcileServerList listed).1 vouch introducer now →
        ((r.reconcileServerList listed).1.receiveIntroduce C vouch introducer now).1.isActive d = true := by
  constructor
  · refine Trace.eachState_iff_eachStep (I := NoneInFlight d) (A := fun e => ¬ Removes C d e) ?_ ?_ hevents ?_ ?_
    · intro f e he hsent hf _
      exact noneInFlight_step C e he hsent hf
    · intro f e he hsent hf
      exact unburied_step C e he hsent hf
    · intro s hs; cases hs
    · intro device r hr; cases hr
  · intro r listed hd
    have hsame := Roster.tombstones_reconcileServerList r listed
    refine ⟨hsame, fun vouch introducer now hvouch hpresent => ?_⟩
    subst hvouch
    exact hpresent.isActive_receiveIntroduce C (by rw [hsame]; exact hd)

/-- `a` founds, `b` joins and both admit `d`; the host lists `d` as revoked to `a`,
    whose next sync reaches `b`. -/
def revokedRow : List (Event Crypto.plain) :=
  [.found ⟨"a", "a", "g", "admin", ""⟩ "ka",
   .vouch "a" ⟨"b", "kb", "b", "g", "child", ""⟩ "ka",
   .receive "a" 0 (.ofSecs 1750000000),
   .welcome "a" (fun _ => true) (Roster.vouched "b" "kb" "" "ka"),
   .adopt "b" 1,
   .vouch "a" ⟨"d", "kd", "d", "g", "child", ""⟩ "ka",
   .receive "a" 2 (.ofSecs 1750000000),
   .receive "b" 2 (.ofSecs 1750000000),
   .reconcileServerList "a" [⟨"a", false⟩, ⟨"b", false⟩, ⟨"d", true⟩],
   .sync "a",
   .receive "b" 3 (.ofSecs 1750000000)]

theorem revokedRow_unburied_iff :
    Trace.EachState (step Crypto.plain) (Unburied "d") empty revokedRow ↔
      Trace.EachStep (step Crypto.plain) (fun f e => ¬ Ratifies Crypto.plain "d" f e) empty revokedRow :=
  (host_buries_nobody_iff Crypto.plain "d" revokedRow (by simp [revokedRow, Removes])).1

theorem revoked_row_buries :
    ¬ ∀ (d : String) (events : List (Event Crypto.plain)), (∀ e ∈ events, ¬ Removes Crypto.plain d e) →
      Trace.EachState (step Crypto.plain) (Unburied d) empty events := by
  intro h
  have hlast := (h "d" revokedRow (by simp [revokedRow, Removes])).last
  have hburied : ((run Crypto.plain empty revokedRow).rosters "b").any (·.tombstones.contains "d") = true := by
    decide +kernel
  obtain ⟨r, hr, hd⟩ := (Option.any_eq_true _ _).mp hburied
  rw [hlast "b" r hr] at hd
  cases hd

end Family

end Beacon
