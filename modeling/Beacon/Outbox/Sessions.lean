/-
  Beacon.Outbox.Sessions — what a report asks of its caller (`DrainReport::needs_session`).

  A pass also keeps `NoSession` as the mark of a channel that turned out dead, and copies it
  into the record of an entry it passes over there. The sweep takes those records out again.
  - `needsSession_iff`: the peers named are those for whom a message still waits that had no
    session to be sealed with in this very pass.
-/

import Beacon.Outbox.Runs

namespace Beacon

open Lib

/-- The reasons that ask for a session. -/
def DeferReason.Asks (reason : DeferReason) : Prop := reason = .sessionLost ∨ reason = .noSession

namespace DrainReport

theorem mem_destutter' {a b : String} {l : List String} : b ∈ l.destutter' (· ≠ ·) a ↔ b = a ∨ b ∈ l := by
  induction l generalizing a with
  | nil => simp
  | cons c l ih =>
    by_cases hac : a ≠ c
    · rw [List.destutter'_cons_pos _ hac, List.mem_cons, ih, List.mem_cons]
    · rw [List.destutter'_cons_neg _ hac, ih, List.mem_cons, not_not.mp hac]
      tauto

theorem mem_needsSession {report : DrainReport} {peer : String} :
    peer ∈ report.needsSession ↔ ∃ d ∈ report.deferred, d.reason.Asks ∧ d.peer = peer := by
  unfold needsSession
  have hmem : ∀ l : List String, peer ∈ l.destutter (· ≠ ·) ↔ peer ∈ l := by
    intro l
    cases l with
    | nil => rfl
    | cons a l => rw [List.destutter_cons', mem_destutter', List.mem_cons]
  rw [hmem, (List.perm_insertionSort _ _).mem_iff, List.mem_map]
  simp only [List.mem_filter, decide_eq_true_eq, DeferReason.Asks, and_assoc]

theorem increasing_of {l : List String} (hsorted : l.Pairwise (· ≤ ·)) (hapart : l.IsChain (· ≠ ·)) :
    l.Pairwise (· < ·) := by
  rw [← List.isChain_iff_pairwise]
  induction l with
  | nil => exact .nil
  | cons a l ih =>
    cases l with
    | nil => exact .singleton _
    | cons b l =>
      rw [List.isChain_cons_cons] at hapart ⊢
      have hle := List.rel_of_pairwise_cons hsorted List.mem_cons_self
      exact ⟨lt_of_le_of_ne hle hapart.1, ih hsorted.of_cons hapart.2⟩

/-- In order, and none twice. -/
theorem needsSession_increasing (report : DrainReport) : report.needsSession.Pairwise (· < ·) := by
  unfold needsSession
  generalize (report.deferred.filter fun d => d.reason = .sessionLost ∨ d.reason = .noSession).map (·.peer) = peers
  have hsorted := List.pairwise_insertionSort (· ≤ ·) peers
  exact increasing_of (hsorted.sublist (List.destutter_sublist _ _)) (List.isChain_destutter _ _)

end DrainReport

namespace Outbox

variable {ω : Type} (P : Ports ω)

/-- The entry cannot be sealed where the pass is, and a session is all it would take. -/
def Sessionless (s : Pass ω) (e : Entry) : Prop :=
  s.failedChannels[e.channel]? = none ∧ ∃ error world, P.encrypt s.world e.peer e.plaintext = (.error error, world) ∧
    (sealReason error).Asks

/-- What the records of a pass that ask for a session come from, after visiting `done` from `start`. -/
structure Asked (now : Nat) (start : Pass ω) (done : List Entry) (s : Pass ω) : Prop where
  marks : ∀ c : ChannelId, s.failedChannels[c]? ≠ some .sessionLost
  from_seal : ∀ d ∈ s.report.deferred, d.reason.Asks →
    (∃ before e after, done = before ++ e :: after ∧ d.id = e.id ∧ d.peer = e.peer ∧
      Sessionless P (Trace.run (attempt P now) start before) e) ∨
    ∃ e ∈ done, d.id = e.id ∧ s.failedChannels[e.channel]? = some .noSession
  recorded : ∀ before e after, done = before ++ e :: after → Sessionless P (Trace.run (attempt P now) start before) e →
    ∃ d ∈ s.report.deferred, d.reason.Asks ∧ d.id = e.id ∧ d.peer = e.peer

section Pass

variable {P} {live done : List Entry} {now : Nat} {start s s' : Pass ω} {e : Entry}

/-- A failed channel keeps its reason through a pass. -/
theorem Attempted.reason (hs : Attempted P now s e s') {c : ChannelId} {reason : DeferReason}
    (h : s.failedChannels[c]? = some reason) : s'.failedChannels[c]? = some reason := by
  have hinsert : s.failedChannels[e.channel]? = none → ∀ new, (s.failedChannels.insert e.channel new)[c]? = some reason := by
    intro hnone new
    rw [failed_insert, if_neg fun hc => ?_]
    · exact h
    · rw [hc, h] at hnone
      cases hnone
  cases hs with
  | skipped => exact h
  | unsealed => exact h
  | sent => exact h
  | dropped frame sealedWorld error world reason' hnone _ _ _ => exact hinsert hnone _
  | refused frame sealedWorld detail world hnone _ _ => exact hinsert hnone _

theorem Attempted.marks (hs : Attempted P now s e s') (h : ∀ c : ChannelId, s.failedChannels[c]? ≠ some .sessionLost)
    (c : ChannelId) : s'.failedChannels[c]? ≠ some .sessionLost := by
  cases hs with
  | skipped => exact h c
  | unsealed => exact h c
  | sent => exact h c
  | dropped =>
    show (s.failedChannels.insert e.channel .noSession)[c]? ≠ _
    rw [failed_insert]
    split
    · simp
    · exact h c
  | refused =>
    show (s.failedChannels.insert e.channel _)[c]? ≠ _
    rw [failed_insert]
    split
    · simp
    · exact h c

theorem Asked.step (hrun : s = Trace.run (attempt P now) start done) (h : Asked P now start done s)
    (hs : Attempted P now s e s') : Asked P now start (done ++ [e]) s' := by
  -- what the report held already
  have hold : ∀ d ∈ s.report.deferred, d.reason.Asks →
      (∃ before a after, done ++ [e] = before ++ a :: after ∧ d.id = a.id ∧ d.peer = a.peer ∧
        Sessionless P (Trace.run (attempt P now) start before) a) ∨
      ∃ a ∈ done ++ [e], d.id = a.id ∧ s'.failedChannels[a.channel]? = some .noSession := by
    intro d hd hasks
    rcases h.from_seal d hd hasks with ⟨before, a, after, hsplit, hrest⟩ | ⟨a, ha, hid, hdead⟩
    · exact Or.inl ⟨before, a, after ++ [e], by rw [hsplit]; simp, hrest⟩
    · exact Or.inr ⟨a, List.mem_append_left _ ha, hid, hs.reason hdead⟩
  have hkept : ∀ d ∈ s.report.deferred, d ∈ s'.report.deferred := by
    intro d hd
    cases hs <;> first | exact hd | exact List.mem_append_left _ hd
  have hnew : Sessionless P s e → ∃ d ∈ s'.report.deferred, d.reason.Asks ∧ d.id = e.id ∧ d.peer = e.peer := by
    rintro ⟨hnone, error, world, hseal, hasks⟩
    cases hs with
    | skipped reason hfailed =>
      rw [hnone] at hfailed
      cases hfailed
    | unsealed error' world' _ hseal' =>
      obtain ⟨rfl, rfl⟩ : error' = error ∧ world' = world := by
        rw [hseal'] at hseal
        cases hseal
        exact ⟨rfl, rfl⟩
      exact ⟨_, List.mem_append_right _ (List.mem_singleton_self _), hasks, rfl, rfl⟩
    | sent frame sealedWorld messageId world' _ hseal' _ =>
      rw [hseal'] at hseal
      cases hseal
    | dropped frame sealedWorld error' world' reason _ hseal' _ _ =>
      rw [hseal'] at hseal
      cases hseal
    | refused frame sealedWorld detail world' _ hseal' _ =>
      rw [hseal'] at hseal
      cases hseal
  refine ⟨hs.marks h.marks, ?_, ?_⟩
  · cases hs with
    | skipped reason hfailed =>
      intro d hd hasks
      rcases List.mem_append.mp hd with hd | hd
      · exact hold d hd hasks
      · rw [List.mem_singleton.mp hd] at hasks ⊢
        rcases hasks with hlost | hnone
        · have : reason = .sessionLost := hlost
          exact absurd (this ▸ hfailed) (h.marks e.channel)
        · have : reason = .noSession := hnone
          exact Or.inr ⟨e, by simp, rfl, this ▸ hfailed⟩
    | unsealed error world hnone hseal =>
      intro d hd hasks
      rcases List.mem_append.mp hd with hd | hd
      · exact hold d hd hasks
      · rw [List.mem_singleton.mp hd] at hasks ⊢
        exact Or.inl ⟨done, e, [], rfl, rfl, rfl, hrun ▸ ⟨hnone, error, world, hseal, hasks⟩⟩
    | sent => exact hold
    | dropped => exact hold
    | refused frame sealedWorld detail world _ _ _ =>
      intro d hd hasks
      rcases List.mem_append.mp hd with hd | hd
      · exact hold d hd hasks
      · rw [List.mem_singleton.mp hd] at hasks
        rcases hasks with hlost | hnone
        · cases hlost
        · cases hnone
  · intro before a after hsplit hless
    rcases List.eq_nil_or_concat after with rfl | ⟨after, b, rfl⟩
    · obtain ⟨rfl, hlast⟩ := List.append_inj' hsplit rfl
      rw [← List.singleton_inj.mp hlast] at hless ⊢
      exact hnew (hrun ▸ hless)
    · have hdone : done = before ++ a :: after := by
        have hsplit' : done ++ [e] = (before ++ a :: after) ++ [b] := by simpa using hsplit
        exact (List.append_inj' hsplit' rfl).1
      obtain ⟨d, hd, hrest⟩ := h.recorded before a after hdone hless
      exact ⟨d, hkept d hd, hrest⟩

end Pass

theorem asked (o : Outbox) (world : ω) (now budget : Nat) :
    Asked P now (o.opening world now) ((o.expire now).1.due now budget) (o.attempts P world now budget) := by
  refine Trace.run_prefix_induction (M := fun done s => Asked P now (o.opening world now) done s) ?_ ?_
  · refine ⟨fun c => by simp [opening], fun d hd => (List.not_mem_nil hd).elim, fun before e after hsplit => ?_⟩
    simp at hsplit
  · intro done e post _ h
    exact h.step rfl (attempt_cases P now _ e)

/-- The peers a pass asks a session with are, in order and each once, those a message still waits for that could not be
    sealed in this pass and needs a session for it, its channel not having failed before its turn came. -/
theorem needsSession_iff (o : Outbox) (world : ω) (now : SystemTime) (budget : Nat) :
    (o.drain P world now budget).report.needsSession.Pairwise (· < ·) ∧
    ∀ peer, peer ∈ (o.drain P world now budget).report.needsSession ↔
      ∃ before e after, (o.expire now.unixSeconds).1.due now.unixSeconds budget = before ++ e :: after ∧ e.peer = peer ∧
        Sessionless P (Trace.run (attempt P now.unixSeconds) (o.opening world now.unixSeconds) before) e ∧
        e.id ∈ (o.drain P world now budget).outbox.ids := by
  refine ⟨DrainReport.needsSession_increasing _, fun peer => ?_⟩
  have hasked := asked P o world now.unixSeconds budget
  rw [DrainReport.mem_needsSession]
  constructor
  · rintro ⟨d, hd, hasks, rfl⟩
    have hqueued : d.id ∈ (o.drain P world now budget).outbox.ids := deferred_queued P o world now budget (List.mem_map_of_mem hd)
    rcases hasked.from_seal d (mem_finish_deferred.mp hd).1 hasks with ⟨before, e, after, hsplit, hid, hpeer, hless⟩ |
      ⟨e, he, hid, hdead⟩
    · exact ⟨before, e, after, hsplit, hpeer.symm, hless, hid ▸ hqueued⟩
    · -- the sweep of its channel has taken it
      obtain ⟨a, ha, had, -, -, halive⟩ := (mem_ids_drain P o world now budget d.id).mp hqueued
      obtain rfl := (o.expire now.unixSeconds).1.eq_of_id ha (mem_due he).1 (had.trans hid)
      exact absurd hdead halive
  · rintro ⟨before, e, after, hsplit, rfl, hless, hqueued⟩
    obtain ⟨d, hd, hasks, hid, hpeer⟩ := hasked.recorded before e after hsplit hless
    refine ⟨d, mem_finish_deferred.mpr ⟨hd, fun a ha had hnot => ?_⟩, hasks, hpeer⟩
    obtain ⟨b, hb, hbid⟩ := List.mem_map.mp hqueued
    obtain ⟨hmem, -, -, halive⟩ := mem_finish_entries.mp hb
    obtain rfl := (o.attempts P world now.unixSeconds budget).outbox.eq_of_id ha hmem (had.trans (hid.trans hbid.symm))
    exact halive

end Outbox

end Beacon
