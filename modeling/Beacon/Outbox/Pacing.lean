/-
  Beacon.Outbox.Pacing — how often a message is tried: the backoff over whole runs.

  A failed attempt puts an entry off, by more each time; being passed over behind a failed
  send does not. What an entry carries of that is all there is to go by after a restart.
  - `backed_attempts`: what a pass leaves of an entry it tried, and of one it did not.
  - `tries_paced`: a message is tried at the pace of `backoff_for` from the second it was
    queued, never once it has expired, and its entry and its reports count the tries.
-/

import Beacon.Lib.Pace
import Beacon.Outbox.Bounds
import Beacon.Outbox.Budget

namespace Beacon

open Lib

namespace Outbox

variable {ω : Type} (P : Ports ω)

/-- When a step tries the entry with this id. -/
def triedBy (id : Nat) (o : Outbox) : Event ω → List Nat
  | .drain world now budget =>
    if id ∈ (o.attempted P world now.unixSeconds budget).map Entry.id then [now.unixSeconds] else []
  | .enqueue _ _ | .forgetPeer _ | .restart => []

/-- The seconds at which a run tries it. -/
abbrev tries (id : Nat) (o : Outbox) (events : List (Event ω)) : List Nat := Trace.log (step P) (triedBy P id) o events

/-! ## One pass -/

/-- What a pass has made of the entries, having visited those of `done` and tried those of `tried`. -/
structure Backed (live done tried : List Entry) (now : Nat) (s : Pass ω) : Prop where
  visited : ∀ e ∈ tried, e ∈ done
  entries : ∀ a ∈ s.outbox.entries, a.id ∉ s.sentIds → a.id ∉ s.droppedIds →
    (a ∈ live ∧ a.id ∉ tried.map Entry.id) ∨ ∃ e ∈ tried, a = e.backedOff now
  deferred : ∀ d ∈ s.report.deferred, ∃ e ∈ done, d.id = e.id ∧
    (d.attempts = e.attempts ∧ d.id ∉ tried.map Entry.id ∨ d.attempts = e.attempts + 1 ∧ d.id ∈ tried.map Entry.id)

section Pass

variable {P} {live done tried : List Entry} {now : Nat} {s s' : Pass ω} {e : Entry}

theorem Backed.fresh (h : Backed live done tried now s) (hfresh : e.id ∉ done.map Entry.id) :
    e.id ∉ tried.map Entry.id := by
  intro hmem
  obtain ⟨a, ha, hid⟩ := List.mem_map.mp hmem
  exact hfresh (List.mem_map.mpr ⟨a, h.visited a ha, hid⟩)

/-- The records of before stay true when another entry is visited, tried or not. -/
theorem Backed.records (h : Backed live done tried now s) (hfresh : e.id ∉ done.map Entry.id) (more : List Entry)
    (hmore : ∀ a ∈ more, a = e) : ∀ d ∈ s.report.deferred, ∃ a ∈ done ++ [e], d.id = a.id ∧
      (d.attempts = a.attempts ∧ d.id ∉ (tried ++ more).map Entry.id ∨
        d.attempts = a.attempts + 1 ∧ d.id ∈ (tried ++ more).map Entry.id) := by
  intro d hd
  obtain ⟨a, ha, hid, hcount⟩ := h.deferred d hd
  have hnot : d.id ∉ more.map Entry.id := by
    intro hmem
    obtain ⟨b, hb, hb'⟩ := List.mem_map.mp hmem
    rw [hmore b hb] at hb'
    exact hfresh (hb' ▸ hid ▸ List.mem_map_of_mem ha)
  refine ⟨a, List.mem_append_left _ ha, hid, ?_⟩
  rw [List.map_append, List.mem_append]
  rcases hcount with ⟨hattempts, huntried⟩ | ⟨hattempts, htried⟩
  · exact Or.inl ⟨hattempts, fun hmem => hmem.elim huntried hnot⟩
  · exact Or.inr ⟨hattempts, Or.inl htried⟩

/-- Passed over. -/
theorem Backed.skip (h : Backed live done tried now s) (hfresh : e.id ∉ done.map Entry.id) (reason : DeferReason) :
    Backed live (done ++ [e]) tried now { s with report := s.report.addDeferred (e.deferred reason e.attempts) } := by
  refine ⟨fun a ha => List.mem_append_left _ (h.visited a ha), h.entries, fun d hd => ?_⟩
  rcases List.mem_append.mp hd with hd | hd
  · have hrecords := h.records hfresh [] (by simp) d hd
    rwa [List.append_nil] at hrecords
  · rw [List.mem_singleton.mp hd]
    exact ⟨e, by simp, rfl, Or.inl ⟨rfl, h.fresh hfresh⟩⟩

/-- Tried, and put off. -/
theorem Backed.putOff (h : Backed live done tried now s) (hfresh : e.id ∉ done.map Entry.id)
    (hlive : ∀ a ∈ live, a.id = e.id → a = e) (world : ω) (reason : DeferReason)
    (failed : Std.ExtTreeMap ChannelId DeferReason compare) :
    Backed live (done ++ [e]) (tried ++ [e]) now
      { s with
        world
        report := s.report.addDeferred (e.deferred reason (e.attempts + 1))
        failedChannels := failed
        outbox := s.outbox.backOff e.id now } := by
  constructor
  · intro a ha
    rcases List.mem_append.mp ha with ha | ha
    · exact List.mem_append_left _ (h.visited a ha)
    · exact List.mem_append_right _ ha
  · intro a ha hsent hdropped
    obtain ⟨b, hb, hab⟩ := List.mem_map.mp ha
    split at hab
    next hid =>
      subst hab
      rcases h.entries b hb hsent hdropped with ⟨hb', -⟩ | ⟨c, hc, rfl⟩
      · rw [hlive b hb' hid]
        exact Or.inr ⟨e, by simp, rfl⟩
      · exact absurd (List.mem_map_of_mem (h.visited c hc)) (hid ▸ hfresh)
    next hid =>
      subst hab
      rcases h.entries b hb hsent hdropped with ⟨hb', huntried⟩ | ⟨c, hc, rfl⟩
      · exact Or.inl ⟨hb', by simpa using ⟨by simpa using huntried, hid⟩⟩
      · exact Or.inr ⟨c, by simp [hc], rfl⟩
  · intro d hd
    rcases List.mem_append.mp hd with hd | hd
    · exact h.records hfresh [e] (by simp) d hd
    · rw [List.mem_singleton.mp hd]
      exact ⟨e, by simp, rfl, Or.inr ⟨rfl, by simp [Entry.deferred]⟩⟩

/-- Tried, and done with. -/
theorem Backed.settled (h : Backed live done tried now s) (hfresh : e.id ∉ done.map Entry.id)
    (hentries : s'.outbox = s.outbox) (hdeferred : s'.report.deferred = s.report.deferred)
    (hgone : ∀ id, id ∉ s'.sentIds → id ∉ s'.droppedIds → id ∉ s.sentIds ∧ id ∉ s.droppedIds ∧ id ≠ e.id) :
    Backed live (done ++ [e]) (tried ++ [e]) now s' := by
  constructor
  · intro a ha
    rcases List.mem_append.mp ha with ha | ha
    · exact List.mem_append_left _ (h.visited a ha)
    · exact List.mem_append_right _ ha
  · intro a ha hsent hdropped
    obtain ⟨hsent, hdropped, hne⟩ := hgone a.id hsent hdropped
    rcases h.entries a (hentries ▸ ha) hsent hdropped with ⟨ha', huntried⟩ | ⟨c, hc, rfl⟩
    · exact Or.inl ⟨ha', by simpa using ⟨by simpa using huntried, hne⟩⟩
    · exact Or.inr ⟨c, by simp [hc], rfl⟩
  · rw [hdeferred]
    exact h.records hfresh [e] (by simp)

theorem Backed.step (h : Backed live done tried now s) (hfresh : e.id ∉ done.map Entry.id)
    (hlive : ∀ a ∈ live, a.id = e.id → a = e) (hs : Attempted P now s e s') :
    Backed live (done ++ [e]) (tried ++ if failed s e.channel then [] else [e]) now s' := by
  have htried : s.failedChannels[e.channel]? = none →
      (tried ++ if failed s e.channel then [] else [e]) = tried ++ [e] := by
    intro hnone
    simp [failed, hnone]
  cases hs with
  | skipped reason hfailed =>
    have hpassed : failed s e.channel = true := by simp [failed, hfailed]
    rw [if_pos hpassed, List.append_nil]
    exact h.skip hfresh reason
  | unsealed error world hnone _ =>
    rw [htried hnone]
    exact h.putOff hfresh hlive _ _ _
  | refused frame sealedWorld detail world hnone _ _ =>
    rw [htried hnone]
    exact h.putOff hfresh hlive _ _ _
  | sent frame sealedWorld messageId world hnone _ _ =>
    rw [htried hnone]
    refine h.settled hfresh rfl rfl fun id hsent hdropped => ?_
    simp only [List.mem_append, List.mem_singleton, not_or] at hsent
    exact ⟨hsent.1, hdropped, hsent.2⟩
  | dropped frame sealedWorld error world reason hnone _ _ _ =>
    rw [htried hnone]
    refine h.settled hfresh rfl rfl fun id hsent hdropped => ?_
    simp only [dropDead, List.mem_append, List.mem_singleton, not_or] at hsent hdropped
    exact ⟨hsent, hdropped.1, hdropped.2⟩

end Pass

section Drain

variable (o : Outbox) (world : ω) (now budget : Nat)

theorem backed_attempts : Backed (o.expire now).1.entries ((o.expire now).1.due now budget)
    (o.attempted P world now budget) now (o.attempts P world now budget) := by
  refine Trace.run_prefix_induction
    (M := fun done s => Backed (o.expire now).1.entries done (tried P now (o.opening world now) done) now s) ?_ ?_
  · exact ⟨fun e he => (List.not_mem_nil he).elim, fun a ha _ _ => Or.inl ⟨ha, List.not_mem_nil⟩,
      fun d hd => (List.not_mem_nil hd).elim⟩
  · intro done e post hdue h
    have hvisited : e ∈ (o.expire now).1.due now budget := by
      rw [hdue]
      simp
    have hmem := (mem_due hvisited).1
    rw [tried_append, tried, tried, List.append_nil]
    exact h.step (fresh_of_due hdue) (fun a ha hid => (o.expire now).1.eq_of_id ha hmem hid)
      (attempt_cases P now _ e)

variable {P o world now budget}

/-- What is tried is queued, has not expired and is due. -/
theorem mem_attempted {e : Entry} (h : e ∈ o.attempted P world now budget) :
    e ∈ o.entries ∧ e.expiredAt now = false ∧ e.notBeforeSecs ≤ now := by
  obtain ⟨hlive, hdue⟩ := mem_due ((tried_sublist (P := P) now _ _).subset h)
  obtain ⟨hmem, hexpired⟩ := mem_expire.mp hlive
  exact ⟨hmem, hexpired, hdue⟩

/-- What a pass leaves is as it was, and was not tried, or was tried and is put off. -/
theorem drained_entry {o : Outbox} {now : SystemTime} {a : Entry} (h : a ∈ (o.drain P world now budget).outbox.entries) :
    let tried := o.attempted P world now.unixSeconds budget
    a ∈ o.entries ∧ a.id ∉ tried.map Entry.id ∨ ∃ e ∈ tried, e ∈ o.entries ∧ a = e.backedOff now.unixSeconds := by
  obtain ⟨hmem, hsent, hdropped, -⟩ := mem_finish_entries.mp h
  rcases (backed_attempts P o world now.unixSeconds budget).entries a hmem hsent hdropped with ⟨ha, huntried⟩ | ⟨e, he, hae⟩
  · exact Or.inl ⟨(mem_expire.mp ha).1, huntried⟩
  · exact Or.inr ⟨e, he, (mem_attempted he).1, hae⟩

/-- A record of the report counts the tries of its entry, the one just made among them. -/
theorem drained_deferred {o : Outbox} {now : SystemTime} {d : Deferred}
    (h : d ∈ (o.drain P world now budget).report.deferred) :
    let tried := o.attempted P world now.unixSeconds budget
    ∃ e ∈ o.entries, d.id = e.id ∧
      (d.attempts = e.attempts ∧ d.id ∉ tried.map Entry.id ∨ d.attempts = e.attempts + 1 ∧ d.id ∈ tried.map Entry.id) := by
  obtain ⟨e, he, hrecord⟩ := (backed_attempts P o world now.unixSeconds budget).deferred d
    ((finish_deferred_sublist _).subset h)
  exact ⟨e, (mem_expire.mp (mem_due he).1).1, hrecord⟩

end Drain

/-! ## A run -/

/-- The tries of a message so far, queued at second `queued` to expire at `expires`, and what its entry knows of them
    while it waits. -/
structure Kept (id queued : Nat) (expires : Option Nat) (o : Outbox) (tries : List Nat) : Prop where
  issued : id < o.nextId
  paced : Pace.Paced backoffFor queued tries
  timely : ∀ t ∈ tries, ∀ deadline ∈ expires, t < deadline
  entry : ∀ e ∈ o.entries, e.id = id → e.expiresAtSecs = expires ∧ e.attempts = tries.length ∧
    e.notBeforeSecs = Pace.next backoffFor queued tries

section Run

variable {P} {id queued : Nat} {expires : Option Nat} {o : Outbox} {tries : List Nat}

/-- Entries may leave, and new ones come under new ids. -/
theorem Kept.of_entries (h : Kept id queued expires o tries) {o' : Outbox} (hnext : o.nextId ≤ o'.nextId)
    (hentries : ∀ e ∈ o'.entries, e ∈ o.entries ∨ o.nextId ≤ e.id) : Kept id queued expires o' tries := by
  refine ⟨Nat.lt_of_lt_of_le h.issued hnext, h.paced, h.timely, fun e he hid => ?_⟩
  rcases hentries e he with hold | hnew
  · exact h.entry e hold hid
  · have := h.issued
    omega

theorem Kept.enqueue (h : Kept id queued expires o tries) (message : Enqueue) (now : SystemTime) :
    Kept id queued expires (o.enqueue message now).1 tries := by
  have hcases := enqueue_cases o message now
  generalize o.enqueue message now = result at hcases ⊢
  cases hcases with
  | refused => exact h
  | added o' hentries hnext =>
    refine h.of_entries (by simp only [hnext]; omega) fun e he => ?_
    simp only [hentries, List.mem_append, List.mem_singleton] at he
    exact he.imp_right fun he => by rw [he]; exact Nat.le_refl _
  | replaced o' hsplit hentries hnext _ =>
    refine h.of_entries (by simp only [hnext]; omega) fun e he => ?_
    simp only [hentries, List.mem_append, List.mem_singleton] at he
    rcases he with he | he
    · rw [hsplit]
      exact Or.inl (by simpa using he.imp_right Or.inr)
    · rw [he]
      exact Or.inr (Nat.le_refl _)

theorem Kept.drain (h : Kept id queued expires o tries) (world : ω) (now : SystemTime) (budget : Nat) :
    Kept id queued expires (o.drain P world now budget).outbox
      (tries ++ triedBy P id o (.drain world now budget)) := by
  have hissued : id < (o.drain P world now budget).outbox.nextId := by
    rw [nextId_drain]
    exact h.issued
  by_cases htried : id ∈ (o.attempted P world now.unixSeconds budget).map Entry.id
  · obtain ⟨e, he, hid⟩ := List.mem_map.mp htried
    obtain ⟨hmem, hexpired, hdue⟩ := mem_attempted he
    obtain ⟨hexpires, hattempts, hnext⟩ := h.entry e hmem hid
    rw [triedBy, if_pos htried]
    refine ⟨hissued, h.paced.snoc (hnext ▸ hdue), fun t ht deadline hdeadline => ?_, fun a ha haid => ?_⟩
    · rcases List.mem_append.mp ht with ht | ht
      · exact h.timely t ht deadline hdeadline
      · rw [List.mem_singleton.mp ht]
        rw [Entry.expiredAt, hexpires, Option.mem_def.mp hdeadline] at hexpired
        simpa using hexpired
    · rcases drained_entry ha with ⟨-, huntried⟩ | ⟨b, hb, hbmem, rfl⟩
      · exact absurd htried (haid ▸ huntried)
      · obtain rfl := o.eq_of_id hbmem hmem (haid.trans hid.symm)
        refine ⟨hexpires, ?_, ?_⟩
        · show b.attempts + 1 = _
          rw [hattempts, List.length_append, List.length_singleton]
        · show now.unixSeconds + backoffFor (b.attempts + 1) = _
          rw [hattempts, Pace.next_snoc]
  · rw [triedBy, if_neg htried, List.append_nil]
    refine ⟨hissued, h.paced, h.timely, fun a ha haid => ?_⟩
    rcases drained_entry ha with ⟨ha, -⟩ | ⟨b, hb, hbmem, rfl⟩
    · exact h.entry a ha haid
    · exact absurd (List.mem_map_of_mem hb) (haid ▸ htried)

theorem Kept.step (h : Kept id queued expires o tries) (event : Event ω) :
    Kept id queued expires (step P o event) (tries ++ triedBy P id o event) := by
  cases event with
  | enqueue message now =>
    rw [triedBy, List.append_nil]
    exact h.enqueue message now
  | drain world now budget => exact h.drain world now budget
  | forgetPeer peer =>
    rw [triedBy, List.append_nil]
    exact h.of_entries (Nat.le_refl _) fun e he => Or.inl (List.filter_sublist.subset he)
  | restart =>
    rw [triedBy, List.append_nil]
    exact h

variable (P)

theorem Kept.run (h : Kept id queued expires o []) (events : List (Event ω)) :
    Kept id queued expires (run P o events) (Outbox.tries P id o events) := by
  refine Trace.run_prefix_induction (M := fun pre s => Kept id queued expires s (Outbox.tries P id o pre)) h ?_
  intro pre event post _ hpre
  unfold Outbox.tries
  rw [Trace.log_snoc]
  exact hpre.step event

end Run

theorem kept_enqueue {o o' : Outbox} {message : Enqueue} {now : SystemTime} {id : Nat} {superseded : Option Dropped}
    (h : o.enqueue message now = (o', .ok (id, superseded))) :
    Kept id now.unixSeconds (message.expiresAt.map SystemTime.unixSeconds) o' [] := by
  have hcases := enqueue_cases o message now
  rw [h] at hcases
  have hold : ∀ e ∈ o.entries, e.id ≠ o.nextId := fun e he => Nat.ne_of_lt (o.below e he)
  cases hcases with
  | added _ hentries hnext =>
    refine ⟨by omega, .nil, fun t ht => (List.not_mem_nil ht).elim, fun e he hid => ?_⟩
    rw [hentries, List.mem_append, List.mem_singleton] at he
    rcases he with he | rfl
    · exact absurd hid (hold e he)
    · exact ⟨rfl, rfl, rfl⟩
  | replaced _ hsplit hentries hnext _ =>
    refine ⟨by omega, .nil, fun t ht => (List.not_mem_nil ht).elim, fun e he hid => ?_⟩
    rw [hentries, List.mem_append, List.mem_singleton] at he
    rcases he with he | rfl
    · refine absurd hid (hold e ?_)
      rw [hsplit]
      simpa using (List.mem_append.mp he).imp_right Or.inr
    · exact ⟨rfl, rfl, rfl⟩

theorem backoffFor_ceiling {k : Nat} (hk : 5 ≤ k) : backoffFor k = backoffCeiling := by
  have hpow : 2 ^ 5 ≤ 2 ^ min k 16 := Nat.pow_le_pow_right (by decide) (by omega)
  unfold backoffFor backoffBase backoffCeiling
  omega

/-- All gaps are as long as the ceiling but the first four, which are so together. -/
theorem backoff_total (n : Nat) : backoffCeiling * (n + 1) ≤ Pace.total backoffFor n + backoffCeiling * 4 := by
  have hfirst : ∀ n < 5, backoffCeiling * (n + 1) ≤ Pace.total backoffFor n + backoffCeiling * 4 := by decide
  by_cases hn : n < 5
  · exact hfirst n hn
  · induction n, Nat.le_of_not_lt hn using Nat.le_induction with
    | base => decide
    | succ n hle ih =>
      have hsum := ih (by omega)
      rw [Pace.total_succ, backoffFor_ceiling (by omega), Nat.mul_succ]
      omega

/-- A queued message is tried, over any run, at the pace of `backoff_for` counted from the second it was queued, and
    never once it has expired: so by any try of it no more than four are had beside one for every fifteen minutes since.
    Its entry counts the tries and knows when the next may be, over restarts too; and so do the reports on it. -/
theorem tries_paced {o o' : Outbox} {message : Enqueue} {now : SystemTime} {id : Nat} {superseded : Option Dropped}
    (hqueued : o.enqueue message now = (o', .ok (id, superseded))) (events : List (Event ω)) :
    Pace.Paced backoffFor now.unixSeconds (tries P id o' events) ∧
    (∀ t ∈ tries P id o' events, ∀ deadline ∈ message.expiresAt, t < deadline.unixSeconds) ∧
    (∀ before t, tries P id o' events = before ++ [t] →
      before.length + 1 ≤ 4 + (t - now.unixSeconds) / backoffCeiling) ∧
    (∀ e ∈ (run P o' events).entries, e.id = id → e.attempts = (tries P id o' events).length ∧
      e.notBeforeSecs = Pace.next backoffFor now.unixSeconds (tries P id o' events)) ∧
    ∀ world at' budget, ∀ d ∈ ((run P o' events).drain P world at' budget).report.deferred, d.id = id →
      d.attempts = (tries P id o' (events ++ [.drain world at' budget])).length := by
  have hkept := (kept_enqueue hqueued).run P events
  refine ⟨hkept.paced, fun t ht deadline hdeadline => ?_, fun before t hsplit => ?_, fun e he hid => ?_,
    fun world at' budget d hd hid => ?_⟩
  · exact hkept.timely t ht _ (Option.mem_map_of_mem _ hdeadline)
  · exact Pace.card_le (hsplit ▸ hkept.paced) (by decide) backoff_total
  · exact (hkept.entry e he hid).2
  · obtain ⟨e, he, hde, hcount⟩ := drained_deferred hd
    obtain ⟨-, hattempts, -⟩ := hkept.entry e he (hde.symm.trans hid)
    unfold tries at hattempts ⊢
    rw [Trace.log_snoc, List.length_append, ← hattempts, triedBy]
    rcases hcount with ⟨hd, huntried⟩ | ⟨hd, htried⟩
    · rw [if_neg (hid ▸ huntried), hd]
      rfl
    · rw [if_pos (hid ▸ htried), hd]
      rfl

/-- A position that is worth sending for a thousand seconds. -/
def position : Enqueue := { Enqueue.durable "c" "bob" .normal with expiresAt := some (.ofSecs 1000) }

/-- There is no session with bob until the third minute; the second pass comes too soon to try again. -/
def threeTries : List (Event Script) :=
  [.drain (script [] []) (.ofSecs 0) 9, .drain (script [] []) (.ofSecs 59) 9, .restart,
    .drain (script [] []) (.ofSecs 60) 9, .drain (script ["bob"] []) (.ofSecs 180) 9]

theorem three_tries_paced :
    tries Ports.scripted 0 (new.enqueue position (.ofSecs 0)).1 threeTries = [0, 60, 180] ∧
    Pace.Paced backoffFor 0 [0, 60, 180] := by
  have htimes : tries Ports.scripted 0 (new.enqueue position (.ofSecs 0)).1 threeTries = [0, 60, 180] := by decide +kernel
  have hqueued : new.enqueue position (.ofSecs 0) = ((new.enqueue position (.ofSecs 0)).1, .ok (0, none)) := rfl
  have hpaced := (tries_paced Ports.scripted hqueued threeTries).1
  rw [htimes] at hpaced
  exact ⟨htimes, hpaced⟩

end Outbox

end Beacon
