/-
  Beacon.Session.Fallback — which fallback keys a device still holds (`publish_bundle` and
  `rotate_fallback_key` over the ideal account).

  An account shows its fallback key until the key is published. So `publish_bundle` finds one
  only the first time, and any later call of it makes a new key as a rotation does
  (`keyCall_publish`): a bundle published again carries another key, and the key that was
  rotated out just before is gone with it.
  - `fallback_keys_kept_iff`: the bundles of one period carry one key, and the key before the
    last rotation still opens sessions, exactly if `publish_bundle` is called first of all, or
    right after a first rotation, and never again.
-/

import Beacon.Session.Ideal
import Beacon.Lib.Trace
import Beacon.Canonical.Signing

namespace Beacon

open Lib Lib.Code

namespace Ideal

/-! ## Keys as text -/

theorem toBase64_inj {a b : Key} (h : vodozemac.toBase64 a = vodozemac.toBase64 b) : a = b := by
  have htext := congrArg String.toList h
  simp only [String.toList_append] at htext
  have hdot : ∀ rest : List Char, BeginsOutside Char.isDigit (".".toList ++ rest) := by
    intro rest c hc
    cases hc
    rfl
  rw [List.append_assoc, List.append_assoc] at htext
  obtain ⟨hdevice, hrest⟩ := Json.digits_end (hdot _) (hdot _) htext
  have hnumber := Json.digits_inj (List.append_cancel_left hrest)
  cases a
  cases b
  simp_all

/-! ## Initial messages -/

/-- Every initial message to the key, from a peer this device knows and in a session it has
    not got, decrypts. -/
def OpensSessions (m : Manager) (key : Key) : Prop :=
  ∀ (peer : String) (state : PeerState vodozemac.toOlm) (keys : SessionKeys) (index : Nat) (plaintext : Bytes),
    m.peers.get? peer = some state → keys.identityKey = state.keys.curve25519 → keys.oneTimeKey = key →
    (∀ current, state.session = some current → current.keys ≠ keys) →
    (m.decrypt peer (encodeFrame (Message.preKey keys m.account.identity index plaintext).toParts)).1 =
      .ok ⟨peer, plaintext, true⟩

theorem opensSessions_of_holds {m : Manager} {key : Key} (h : m.account.holds key = true) : OpensSessions m key := by
  intro peer state keys index plaintext hget hidentity hkey hother
  have hcreate : m.account.createInboundSession state.keys.curve25519 (.preKey keys m.account.identity index plaintext) =
      (.ok (⟨keys, m.account.identity, true, true, 0, [index]⟩, plaintext), m.account) := by
    rcases m.account.createInbound_cases state.keys.curve25519 keys m.account.identity index plaintext with
      ⟨_, hok⟩ | ⟨hnot, _⟩
    · exact hok
    · exact absurd ⟨hidentity, hkey ▸ h, rfl⟩ hnot
  have hcases := SessionManager.decrypt_cases m peer
    (encodeFrame (Message.preKey keys m.account.identity index plaintext).toParts)
  generalize m.decrypt peer (encodeFrame (Message.preKey keys m.account.identity index plaintext).toParts) =
    result at hcases ⊢
  have hdecode := decodeFrame_encodeFrame (.preKey keys m.account.identity index plaintext)
  have hread : ∀ state' message, m.peers.get? peer = some state' →
      decodeFrame vodozemac (encodeFrame (Message.preKey keys m.account.identity index plaintext).toParts) = .ok message →
      state' = state ∧ message = .preKey keys m.account.identity index plaintext := by
    intro state' message hget' hdecode'
    rw [hget] at hget'
    rw [hdecode] at hdecode'
    exact ⟨(Option.some.inj hget').symm, (Except.ok.inj hdecode').symm⟩
  cases hcases with
  | unread error h => exact absurd hdecode (h state _ hget)
  | noSession state' message hget' hdecode' hnone _ =>
    obtain ⟨rfl, rfl⟩ := hread state' message hget' hdecode'
    cases hnone
  | read state' message session session' text hget' hdecode' hsession hsame _ =>
    obtain ⟨rfl, rfl⟩ := hread state' message hget' hdecode'
    exact absurd (hsame keys rfl) (hother session hsession)
  | lost state' message session session' error hget' hdecode' hsession hsame _ =>
    obtain ⟨rfl, rfl⟩ := hread state' message hget' hdecode'
    exact absurd (hsame keys rfl) (hother session hsession)
  | opened state' message id session text account hget' hdecode' _ _ hcreate' =>
    obtain ⟨rfl, rfl⟩ := hread state' message hget' hdecode'
    have hresult := hcreate.symm.trans hcreate'
    cases hresult
    rfl
  | refused state' message id detail account hget' hdecode' _ _ hcreate' =>
    obtain ⟨rfl, rfl⟩ := hread state' message hget' hdecode'
    have hresult := hcreate.symm.trans hcreate'
    cases hresult

/-! ## Bundles over a run -/

inductive KeyCall where
  | publishBundle (publishedAt : String)
  | rotateFallbackKey (publishedAt : String)
  deriving DecidableEq, Repr

/-- A manager, and the fallback keys of the bundles it has returned. -/
structure Publications where
  manager : Manager
  /-- Returned by `publish_bundle` since the last rotation. -/
  published : List String
  latest : Option String
  /-- Of the last bundle returned before the most recent rotation. -/
  replaced : Option String

namespace Publications

/-- A device that has published nothing, and the peers it knows. -/
def start (device : Nat) (peers : Table (PeerState.deviceId (O := vodozemac.toOlm))) : Publications :=
  ⟨⟨.new device, peers⟩, [], none, none⟩

def keyCall (me : Publisher) (s : Publications) : KeyCall → Publications
  | .publishBundle publishedAt =>
    match s.manager.publishBundle me publishedAt with
    | (.ok signed, manager) =>
      { s with
        manager
        published := signed.bundle.fallbackKey :: s.published
        latest := some signed.bundle.fallbackKey }
    | (.error _, manager) => { s with manager }
  | .rotateFallbackKey publishedAt =>
    match s.manager.rotateFallbackKey me publishedAt with
    | (.ok signed, manager) => ⟨manager, [], some signed.bundle.fallbackKey, s.latest⟩
    | (.error _, manager) => ⟨manager, [], s.latest, s.latest⟩

/-- The key is still held, and what was sealed to it can be read. -/
def StillOpens (m : Manager) (text : String) : Prop :=
  ∃ key, vodozemac.toBase64 key = text ∧ m.account.holds key = true ∧ OpensSessions m key

structure Kept (s : Publications) : Prop where
  oneKey : ∀ a ∈ s.published, ∀ b ∈ s.published, a = b
  overlap : ∀ text, s.replaced = some text → StillOpens s.manager text

/-! ### What a call does -/

/-- The account after its next fallback key is made and published. -/
def withNextKey (m : Manager) : Manager := { m with account := m.account.generateFallbackKey.markKeysAsPublished }

/-- The base64 form of the next fallback key. -/
def nextKey (m : Manager) : String := vodozemac.toBase64 ⟨m.account.device, m.account.generated⟩

section

variable {E : Ed25519} {ryu : UInt64 → List Char} {deviceId : String} {key : E.SigningKey}

variable (E ryu deviceId key) in
theorem rotate_ok (m : Manager) (publishedAt : String) :
    ∃ signed, m.rotateFallbackKey (publisher E ryu deviceId key) publishedAt = (.ok signed, withNextKey m) ∧
      signed.bundle.fallbackKey = nextKey m := by
  let made : Manager := { m with account := m.account.generateFallbackKey }
  obtain ⟨sig, hsign⟩ := publisher_signs E ryu deviceId key
    (made.bundleOf (publisher E ryu deviceId key) (toString m.account.generated, ⟨m.account.device, m.account.generated⟩)
      publishedAt)
  exact ⟨_, SessionManager.publishBundle_shown (m := made) rfl hsign, rfl⟩

/-- With no unpublished key to find, `publish_bundle` is a rotation. -/
theorem publish_eq_rotate {m : Manager} (hnone : m.account.fallbackKey = none) (me : Publisher) (publishedAt : String) :
    m.publishBundle me publishedAt = m.rotateFallbackKey me publishedAt := by
  have hmade : (vodozemac.fallbackKey (vodozemac.generateFallbackKey m.account)).isNone = false := rfl
  have hhidden : (vodozemac.fallbackKey m.account).isNone = true := Option.isNone_iff_eq_none.mpr hnone
  unfold SessionManager.rotateFallbackKey SessionManager.publishBundle
  rw [if_pos hhidden, if_neg (by rw [hmade]; decide)]

theorem keyCall_rotate (s : Publications) (publishedAt : String) :
    keyCall (publisher E ryu deviceId key) s (.rotateFallbackKey publishedAt) =
      ⟨withNextKey s.manager, [], some (nextKey s.manager), s.latest⟩ := by
  obtain ⟨signed, hok, hkey⟩ := rotate_ok E ryu deviceId key s.manager publishedAt
  simp only [keyCall, hok, hkey]

theorem keyCall_publish {s : Publications} (hnone : s.manager.account.fallbackKey = none) (publishedAt : String) :
    keyCall (publisher E ryu deviceId key) s (.publishBundle publishedAt) =
      ⟨withNextKey s.manager, nextKey s.manager :: s.published, some (nextKey s.manager), s.replaced⟩ := by
  obtain ⟨signed, hok, hkey⟩ := rotate_ok E ryu deviceId key s.manager publishedAt
  simp only [keyCall, publish_eq_rotate hnone, hok, hkey]

/-! ### Which keys are held -/

/-- No key is shown, the latest one is the current one, and every other is an older one. Just
    after a rotation the key it replaced is the previous one. -/
structure Numbered (s : Publications) : Prop where
  published : s.manager.account.fallbackKey = none
  older : ∀ number shown, s.manager.account.fallback = some (number, shown) → number < s.manager.account.generated
  latest : s.latest = s.manager.account.fallback.map fun current =>
    vodozemac.toBase64 ⟨s.manager.account.device, current.1⟩
  returned : ∀ text ∈ s.published, ∃ number < s.manager.account.generated,
    text = vodozemac.toBase64 ⟨s.manager.account.device, number⟩
  rotated : s.published = [] → ∀ text, s.replaced = some text → ∃ number,
    s.manager.account.previous = some number ∧ number < s.manager.account.generated ∧
      text = vodozemac.toBase64 ⟨s.manager.account.device, number⟩ ∧
      ∀ shown, s.manager.account.fallback ≠ some (number, shown)

theorem Numbered.current {s : Publications} (hs : Numbered s) {text : String} (h : s.latest = some text) :
    ∃ number shown, s.manager.account.fallback = some (number, shown) ∧
      text = vodozemac.toBase64 ⟨s.manager.account.device, number⟩ := by
  rw [hs.latest] at h
  obtain ⟨⟨number, shown⟩, hfallback, rfl⟩ := Option.map_eq_some_iff.mp h
  exact ⟨number, shown, hfallback, rfl⟩

theorem numbered_start (device : Nat) (peers : Table (PeerState.deviceId (O := vodozemac.toOlm))) :
    Numbered (start device peers) where
  published := rfl
  older _ _ h := nomatch h
  latest := rfl
  returned _ h := nomatch h
  rotated _ _ h := nomatch h

theorem numbered_keyCall {s : Publications} (hs : Numbered s) (c : KeyCall) :
    Numbered (keyCall (publisher E ryu deviceId key) s c) := by
  have hnew : ∀ number shown, (withNextKey s.manager).account.fallback = some (number, shown) →
      number < (withNextKey s.manager).account.generated := by
    intro number shown h
    cases h
    exact Nat.lt_succ_self _
  cases c with
  | publishBundle publishedAt =>
    rw [keyCall_publish hs.published]
    refine ⟨rfl, hnew, rfl, ?_, fun h => nomatch h⟩
    intro text htext
    rcases List.mem_cons.mp htext with rfl | htext
    · exact ⟨_, Nat.lt_succ_self _, rfl⟩
    · obtain ⟨number, hlt, htext⟩ := hs.returned text htext
      exact ⟨number, Nat.lt_succ_of_lt hlt, htext⟩
  | rotateFallbackKey publishedAt =>
    rw [keyCall_rotate]
    refine ⟨rfl, hnew, rfl, fun _ h => (nomatch h), ?_⟩
    intro _ text htext
    obtain ⟨number, shown, hfallback, rfl⟩ := hs.current htext
    have hlt := hs.older number shown hfallback
    refine ⟨number, ?_, Nat.lt_succ_of_lt hlt, rfl, ?_⟩
    · show s.manager.account.fallback.map Prod.fst = some number
      rw [hfallback]
      rfl
    · intro shown' h
      have hsame : s.manager.account.generated = number := congrArg Prod.fst (Option.some.inj h)
      omega

/-- The account's own keys with a number that is neither the current nor the previous one are gone. -/
theorem not_stillOpens {m : Manager} {number : Nat} (hcurrent : ∀ shown, m.account.fallback ≠ some (number, shown))
    (hprevious : m.account.previous ≠ some number) : ¬ StillOpens m (vodozemac.toBase64 ⟨m.account.device, number⟩) := by
  rintro ⟨key, htext, hholds, _⟩
  obtain rfl := toBase64_inj htext
  simp only [Account.holds, Bool.and_eq_true, Bool.or_eq_true, Option.any_eq_true, beq_iff_eq] at hholds
  rcases hholds.2 with ⟨⟨current, shown⟩, hfallback, rfl⟩ | hheld
  · exact hcurrent shown hfallback
  · exact hprevious hheld

/-- One more key, and the replaced one is gone. -/
theorem not_stillOpens_replaced {s : Publications} (hs : Numbered s) (hpublished : s.published = []) {text : String}
    (hreplaced : s.replaced = some text) : ¬ StillOpens (withNextKey s.manager) text := by
  obtain ⟨number, hprevious, hlt, rfl, hcurrent⟩ := hs.rotated hpublished text hreplaced
  apply not_stillOpens (m := withNextKey s.manager)
  · intro shown hsame
    have hsame : s.manager.account.generated = number := congrArg Prod.fst (Option.some.inj hsame)
    omega
  · intro hsame
    have hsame : s.manager.account.fallback.map Prod.fst = some number := hsame
    obtain ⟨⟨_, shown⟩, hfallback, rfl⟩ := Option.map_eq_some_iff.mp hsame
    exact hcurrent shown hfallback

/-- The next key is none that has been returned. -/
theorem nextKey_not_published {s : Publications} (hs : Numbered s) : nextKey s.manager ∉ s.published := by
  intro hmem
  obtain ⟨number, hlt, htext⟩ := hs.returned _ hmem
  have hnumber : s.manager.account.generated = number := congrArg Key.number (toBase64_inj htext)
  omega

/-- A step keeps both properties exactly if it does not publish again. -/
theorem kept_keyCall_iff {s : Publications} (hs : Numbered s) (c : KeyCall) :
    Kept (keyCall (publisher E ryu deviceId key) s c) ↔
      ∀ publishedAt, c = .publishBundle publishedAt → s.published = [] ∧ s.replaced = none := by
  cases c with
  | rotateFallbackKey publishedAt =>
    refine iff_of_true ?_ fun _ h => nomatch h
    rw [keyCall_rotate]
    refine ⟨fun _ h => (nomatch h), ?_⟩
    intro text htext
    obtain ⟨number, shown, hfallback, rfl⟩ := hs.current htext
    have hholds : (withNextKey s.manager).account.holds ⟨s.manager.account.device, number⟩ = true := by
      simp [Account.holds, withNextKey, Account.generateFallbackKey, Account.markKeysAsPublished, hfallback]
    exact ⟨_, rfl, hholds, opensSessions_of_holds hholds⟩
  | publishBundle publishedAt =>
    rw [keyCall_publish hs.published]
    constructor
    · intro h at' _
      have hpublished : s.published = [] := by
        refine List.eq_nil_iff_forall_not_mem.mpr ?_
        intro text hmem
        have hsame : nextKey s.manager = text := h.oneKey _ List.mem_cons_self _ (List.mem_cons_of_mem _ hmem)
        exact nextKey_not_published hs (hsame ▸ hmem)
      refine ⟨hpublished, ?_⟩
      by_contra hreplaced
      obtain ⟨text, hreplaced⟩ := Option.ne_none_iff_exists'.mp hreplaced
      exact not_stillOpens_replaced hs hpublished hreplaced (h.overlap _ hreplaced)
    · intro h
      obtain ⟨hpublished, hreplaced⟩ := h publishedAt rfl
      constructor
      · rw [hpublished]
        intro a ha b hb
        rw [List.mem_singleton.mp ha, List.mem_singleton.mp hb]
      · intro text htext
        rw [hreplaced] at htext
        cases htext

/-! ### Runs -/

variable (device : Nat) (peers : Table (PeerState.deviceId (O := vodozemac.toOlm)))

theorem numbered_run (calls : List KeyCall) :
    Numbered (Trace.run (keyCall (publisher E ryu deviceId key)) (start device peers) calls) :=
  Trace.inv_run (Q := Numbered) (fun _ c _ h => numbered_keyCall h c) (numbered_start device peers)
    (Trace.eachStep_true _ calls)

/-- Every call returns a bundle. -/
theorem latest_run {calls : List KeyCall} (hne : calls ≠ []) :
    (Trace.run (keyCall (publisher E ryu deviceId key)) (start device peers) calls).latest ≠ none := by
  induction calls using List.reverseRecOn with
  | nil => exact absurd rfl hne
  | append_singleton before c _ =>
    rw [Trace.run_snoc]
    cases c with
    | publishBundle publishedAt =>
      rw [keyCall_publish (numbered_run device peers before).published]
      exact Option.some_ne_none _
    | rotateFallbackKey publishedAt =>
      rw [keyCall_rotate]
      exact Option.some_ne_none _

/-- A first call, or one right after a first rotation, is the only one that has no bundle of
    this period and no replaced key before it. -/
theorem unpublished_iff (calls : List KeyCall) :
    (Trace.run (keyCall (publisher E ryu deviceId key)) (start device peers) calls).published = [] ∧
        (Trace.run (keyCall (publisher E ryu deviceId key)) (start device peers) calls).replaced = none ↔
      calls = [] ∨ ∃ publishedAt, calls = [.rotateFallbackKey publishedAt] := by
  induction calls using List.reverseRecOn with
  | nil => exact iff_of_true ⟨rfl, rfl⟩ (Or.inl rfl)
  | append_singleton before c _ =>
    rw [Trace.run_snoc]
    cases c with
    | publishBundle publishedAt =>
      rw [keyCall_publish (numbered_run device peers before).published]
      exact iff_of_false (fun h => nomatch h.1) (by simp [List.append_eq_singleton_iff])
    | rotateFallbackKey publishedAt =>
      rw [keyCall_rotate]
      by_cases hfirst : before = []
      · rw [hfirst]
        exact iff_of_true ⟨rfl, rfl⟩ (Or.inr ⟨publishedAt, rfl⟩)
      · exact iff_of_false (fun h => latest_run device peers hfirst h.2) (by simp [List.append_eq_singleton_iff, hfirst])

theorem fallback_keys_kept_iff (calls : List KeyCall) :
    Trace.EachState (keyCall (publisher E ryu deviceId key)) Kept (start device peers) calls ↔
      ∀ before publishedAt after, calls = before ++ .publishBundle publishedAt :: after →
        before = [] ∨ ∃ rotatedAt, before = [.rotateFallbackKey rotatedAt] := by
  have hstart : Kept (start device peers) := ⟨fun _ h => (nomatch h), fun _ h => (nomatch h)⟩
  rw [Trace.eachState_iff_eachStep (I := Numbered) (A := fun _ => True)
    (fun _ c _ hs _ _ => numbered_keyCall hs c) (fun _ c _ hs _ => kept_keyCall_iff hs c)
    (fun _ _ => trivial) (numbered_start device peers) hstart, Trace.eachStep_iff]
  constructor
  · intro h before publishedAt after hsplit
    exact (unpublished_iff device peers before).mp (h before _ after hsplit publishedAt rfl)
  · rintro h before c after hsplit publishedAt rfl
    exact (unpublished_iff device peers before).mpr (h before publishedAt after hsplit)

end

/-- Publishing twice gives two keys. -/
theorem republished_key_differs :
    ¬ ∀ (device : Nat) (peers : Table (PeerState.deviceId (O := vodozemac.toOlm))) (calls : List KeyCall),
      Trace.EachState (keyCall (publisher Ed25519.plain (fun _ => []) "b" (7 : UInt8))) Kept (start device peers)
        calls := by
  intro h
  have hkept := (h 1 .empty [.publishBundle "", .publishBundle ""]).last
  exact absurd (hkept.oneKey "1.2" (by decide +kernel) "1.1" (by decide +kernel)) (by decide)

end Publications

end Ideal

end Beacon
