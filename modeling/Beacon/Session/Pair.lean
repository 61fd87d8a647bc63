/-
  Beacon.Session.Pair — whether two peers end up on one session.

  - `one_session_iff`: whenever frames have been sent and none is in flight, both managers
    are on one session and everything sent from then on decrypts, exactly if no side opened
    a session while a frame of the other was on its way to it (`Crosses`).
  - `crossed_refuses`: where the openings crossed, nothing sent from then on decrypts.
-/

import Beacon.Session.Openings

namespace Beacon

open Lib

namespace Ideal

/-! ## Runs -/

namespace Link

def Faced (l : Link) : Prop := ∀ side, Bound (l side) (l side.other)

variable {l : Link}

theorem Faced.both (h : l.Faced) (x : Side) : Bound (l x) (l x.other) ∧ Bound (l x.other) (l x) := by
  have hback := h x.other
  rw [Side.other_other] at hback
  exact ⟨h x, hback⟩

theorem same_step (l : Link) (event : Pair.Event) (x : Side) : SameKeys (l x) (l.step event x) := by
  have hexchange := exchange_step l event x
  generalize l.Crosses event = crosses, l.step event x = x', l.step event x.other = y' at hexchange ⊢
  cases hexchange with
  | still => exact .refl _
  | sends plaintext => exact same_send _ _
  | answers plaintext => exact .refl _
  | delivers m rest hflight => exact same_flight _ _
  | hears m rest hflight => exact same_receive _ _

theorem Faced.step (h : l.Faced) (event : Pair.Event) : (l.step event).Faced := fun side =>
  (h side).congr (same_step l event side) (same_step l event side.other)

theorem faced_run (events : List Pair.Event) (h : l.Faced) : (l.run events).Faced :=
  Trace.inv_run (Q := Faced) (fun _ event _ hfaced => hfaced.step event) h (Trace.eachStep_true l events)

/-- A session is replaced, never given up. -/
theorem session_step (l : Link) (event : Pair.Event) (x : Side) (h : (l x).session.isSome = true) :
    (l.step event x).session.isSome = true := by
  have hexchange := exchange_step l event x
  generalize l.Crosses event = crosses, l.step event x = x', l.step event x.other = y' at hexchange ⊢
  cases hexchange with
  | still => exact h
  | sends plaintext => rfl
  | answers plaintext => exact h
  | delivers m rest hflight => exact h
  | hears m rest hflight =>
    unfold End.receive
    simp [h]

theorem session_of_encrypt {side : Side} {plaintext : Bytes} {events : List Pair.Event}
    (h : .encrypt side plaintext ∈ events) : (l.run events side).session.isSome = true := by
  obtain ⟨before, after, rfl⟩ := List.append_of_mem h
  unfold run
  rw [Trace.run_append]
  refine Trace.inv_run (Q := fun l => (l side).session.isSome = true) (fun l event _ hs => session_step l event side hs)
    ?_ (Trace.eachStep_true _ after)
  rw [(step_encrypt _ side plaintext).1]
  rfl

/-- From where the openings have not crossed, either they cross now or they still have not. -/
theorem together_step (hfaced : l.Faced) {x : Side} (h : Together (l x) (l x.other)) (event : Pair.Event) :
    (¬ l.Crosses event ∧ ∃ x, Together (l.step event x) (l.step event x.other)) ∨
      l.Crosses event ∧ ∃ x, Apart (l.step event x) (l.step event x.other) := by
  obtain ⟨hxy, hyx⟩ := hfaced.both x
  suffices hends : (¬ l.Crosses event ∧ (Together (l.step event x) (l.step event x.other) ∨
      Together (l.step event x.other) (l.step event x))) ∨
      l.Crosses event ∧ Apart (l.step event x) (l.step event x.other) by
    rcases hends with ⟨hnot, h' | h'⟩ | ⟨hcrosses, h'⟩
    · exact Or.inl ⟨hnot, x, h'⟩
    · refine Or.inl ⟨hnot, x.other, ?_⟩
      rw [Side.other_other]
      exact h'
    · exact Or.inr ⟨hcrosses, x, h'⟩
  have hexchange := exchange_step l event x
  generalize l.Crosses event = crosses, l.step event x = x', l.step event x.other = y' at hexchange ⊢
  cases hexchange with
  | still => exact Or.inl ⟨id, Or.inl h⟩
  | sends plaintext => exact Or.inl ⟨h.not_crosses, Or.inl (together_send hxy hyx h plaintext)⟩
  | answers plaintext => exact together_send_back hxy hyx h plaintext
  | delivers m rest hflight => exact Or.inl ⟨id, Or.inl (together_deliver h hflight)⟩
  | hears m rest hflight => exact Or.inl ⟨id, Or.inl (together_deliver_back h hflight)⟩

theorem apart_step (hfaced : l.Faced) {x : Side} (h : Apart (l x) (l x.other)) (event : Pair.Event) :
    ∃ x, Apart (l.step event x) (l.step event x.other) := by
  obtain ⟨hxy, hyx⟩ := hfaced.both x
  suffices hends : Apart (l.step event x) (l.step event x.other) ∨ Apart (l.step event x.other) (l.step event x) by
    rcases hends with h' | h'
    · exact ⟨x, h'⟩
    · refine ⟨x.other, ?_⟩
      rw [Side.other_other]
      exact h'
  have hexchange := exchange_step l event x
  generalize l.Crosses event = crosses, l.step event x = x', l.step event x.other = y' at hexchange ⊢
  cases hexchange with
  | still => exact Or.inl h
  | sends plaintext => exact Or.inl (apart_send h plaintext)
  | answers plaintext => exact Or.inl (apart_send_back h plaintext)
  | delivers m rest hflight => exact Or.inl (apart_deliver hxy hyx h hflight)
  | hears m rest hflight => exact apart_deliver_back hxy hyx h hflight

theorem apart_run (events : List Pair.Event) (hfaced : l.Faced) {x : Side} (h : Apart (l x) (l x.other)) :
    ∃ x, Apart (l.run events x) (l.run events x.other) := by
  induction events generalizing l x with
  | nil => exact ⟨x, h⟩
  | cons event events ih =>
    obtain ⟨x', h'⟩ := apart_step hfaced h event
    exact ih (hfaced.step event) h'

theorem together_run (events : List Pair.Event) (hfaced : l.Faced) {x : Side} (h : Together (l x) (l x.other)) :
    (Trace.EachStep step (fun l event => ¬ Crosses l event) l events ∧
        ∃ x, Together (l.run events x) (l.run events x.other)) ∨
      ¬ Trace.EachStep step (fun l event => ¬ Crosses l event) l events ∧
        ∃ x, Apart (l.run events x) (l.run events x.other) := by
  induction events generalizing l x with
  | nil => exact Or.inl ⟨trivial, x, h⟩
  | cons event events ih =>
    rcases together_step hfaced h event with ⟨hnot, x', h'⟩ | ⟨hcrosses, x', h'⟩
    · rcases ih (hfaced.step event) h' with ⟨hsteps, hend⟩ | ⟨hsteps, hend⟩
      · exact Or.inl ⟨⟨hnot, hsteps⟩, hend⟩
      · exact Or.inr ⟨fun hall => hsteps hall.2, hend⟩
    · exact Or.inr ⟨fun hall => hall.1 hcrosses, apart_run events (hfaced.step event) h'⟩

theorem joined_step {x : Side} {s t : Session} (h : Joined (l x) (l x.other) s t) (event : Pair.Event) :
    ∃ s t, Joined (l.step event x) (l.step event x.other) s t := by
  have hexchange := exchange_step l event x
  generalize l.Crosses event = crosses, l.step event x = x', l.step event x.other = y' at hexchange ⊢
  cases hexchange with
  | still => exact ⟨s, t, h⟩
  | sends plaintext => exact ⟨_, _, h.send plaintext⟩
  | answers plaintext => exact ⟨_, _, h.send_back plaintext⟩
  | delivers m rest hflight =>
    obtain ⟨-, t', h'⟩ := h.deliver hflight
    exact ⟨s, t', h'⟩
  | hears m rest hflight =>
    obtain ⟨-, s', h'⟩ := h.deliver_back hflight
    exact ⟨s', t, h'⟩

theorem joined_take {x side : Side} {s t : Session} {m : Message} {rest : List Message}
    (h : Joined (l x) (l x.other) s t) (hflight : (l side).flight = m :: rest) :
    ((l side.other).take m).isSome = true := by
  rcases Side.eq_or_other side x with rfl | rfl
  · exact (h.deliver hflight).1
  · rw [Side.other_other]
    exact (h.deliver_back hflight).1

theorem adrift_step {keys : Side → SessionKeys} (hne : ∀ x, keys x ≠ keys x.other) (h : ∀ x, Adrift (l x) (keys x))
    (event : Pair.Event) (x : Side) : Adrift (l.step event x) (keys x) := by
  have hexchange := exchange_step l event x
  generalize l.Crosses event = crosses, l.step event x = x', l.step event x.other = y' at hexchange ⊢
  cases hexchange with
  | still => exact h x
  | sends plaintext => exact (h x).send plaintext
  | answers plaintext => exact h x
  | delivers m rest hflight => exact ((h x).refuses (h x.other) (hne x) hflight).2.1
  | hears m rest hflight => exact ((h x.other).refuses (h x) (hne x).symm hflight).2.2

end Link

/-! ## The two managers -/

section Managers

variable {name : Side → String} {p : Pair} {l : Link}

theorem Shows.crosses_iff (h : Shows name p l) (event : Pair.Event) : p.Crosses name event ↔ l.Crosses event := by
  cases event with
  | encrypt side plaintext =>
    show _ ∧ _ ↔ _ ∧ _
    rw [h.sessionOf side, h.flight side.other, ne_eq, List.map_eq_nil_iff]
  | deliver side => exact Iff.rfl

theorem Shows.eachStep_iff (h : Shows name p l) (events : List Pair.Event) :
    Trace.EachStep (Pair.step name) (fun p event => ¬ p.Crosses name event) p events ↔
      Trace.EachStep Link.step (fun l event => ¬ l.Crosses event) l events := by
  induction events generalizing p l with
  | nil => exact Iff.rfl
  | cons event events ih => exact and_congr (not_congr (h.crosses_iff event)) (ih (shows_step name h event))

/-- A frame that is delivered decrypts if the end takes its message. -/
theorem Shows.delivery (h : Shows name p l) {side : Side} {frame : Bytes} {rest : List Bytes}
    (hframe : p.flight side = frame :: rest) :
    ∃ m rest', (l side).flight = m :: rest' ∧
      ((p.manager side.other).decrypt (name side) frame).1.isOk = ((l side.other).take m).isSome := by
  rw [h.flight side] at hframe
  obtain ⟨m, rest', hflight, rfl, -⟩ := List.map_eq_cons_iff.mp hframe
  have hmeets := h.meets side.other
  rw [Side.other_other] at hmeets
  exact ⟨m, rest', hflight, (decrypt_meets hmeets m).1⟩

theorem joined_decrypts (h : Shows name p l) {x : Side} {s t : Session} (hjoined : Joined (l x) (l x.other) s t)
    (later : List Pair.Event) : Trace.EachStep (Pair.step name) (Pair.Decrypts name) p later := by
  induction later generalizing p l s t with
  | nil => trivial
  | cons event later ih =>
    obtain ⟨s', t', hjoined'⟩ := Link.joined_step hjoined event
    refine ⟨?_, ih (shows_step name h event) hjoined'⟩
    cases event with
    | encrypt side plaintext => trivial
    | deliver side =>
      intro frame rest hframe
      obtain ⟨m, rest', hflight, hok⟩ := h.delivery hframe
      rw [hok]
      exact Link.joined_take hjoined hflight

theorem joined_oneSession (h : Shows name p l) {x : Side} {s t : Session} (hjoined : Joined (l x) (l x.other) s t) :
    p.OneSession name := by
  refine ⟨?_, joined_decrypts h hjoined⟩
  rw [h.sessionOf, h.sessionOf]
  cases x with
  | left => exact ⟨s, t, hjoined.outbound.1, hjoined.inbound.1, hjoined.keys.symm⟩
  | right => exact ⟨t, s, hjoined.inbound.1, hjoined.outbound.1, hjoined.keys⟩

/-- Two ends that are on one path once all is delivered share a session. -/
theorem joined_of_quiet {x y : End} (h : Together x y) (hsession : x.session.isSome = true ∨ y.session.isSome = true)
    (hquiet : x.flight = []) : ∃ s t, Joined x y s t := by
  cases h with
  | idle hx hy _ _ => simp [hx, hy] at hsession
  | opened s _ _ _ hne => exact absurd hquiet hne
  | joined s t h => exact ⟨s, t, h⟩

theorem Pair.Ready.shows (h : p.Ready name) :
    ∃ l, Shows name p l ∧ Link.Faced l ∧ Together (l .left) (l (Side.other .left)) := by
  choose state hget hsession hidentity hholds using h.keys
  let l : Link := fun side =>
    ⟨(p.manager side).account, (state side).keys.curve25519, (state side).keys.fallbackKey, none, []⟩
  refine ⟨l, ⟨fun side => ⟨rfl, state side, hget side, rfl, rfl, hsession side⟩, h.flight⟩, fun side => ?_,
    .idle rfl rfl rfl rfl⟩
  refine ⟨hidentity side, hholds side, ?_⟩
  cases side with
  | left => exact h.distinct
  | right => exact h.distinct.symm

/-- With all delivered, either no openings crossed, or each side is on the session the other opened. -/
theorem Pair.Ready.quiet (hready : p.Ready name) {events : List Pair.Event}
    (hquiet : ∀ side, (p.run name events).flight side = []) :
    ∃ l : Link, Shows name (p.run name events) (l.run events) ∧ (∀ side, (l.run events side).flight = []) ∧
      ((Trace.EachStep (Pair.step name) (fun p event => ¬ p.Crosses name event) p events ∧
          ∃ x, Together (l.run events x) (l.run events x.other)) ∨
        ¬ Trace.EachStep (Pair.step name) (fun p event => ¬ p.Crosses name event) p events ∧
          ∃ keys : Side → SessionKeys, (∀ x, keys x ≠ keys x.other) ∧ ∀ x, Adrift (l.run events x) (keys x)) := by
  obtain ⟨l, hshows, hfaced, htogether⟩ := hready.shows
  have hend := shows_run name hshows events
  have hempty : ∀ side, (l.run events side).flight = [] := fun side =>
    List.map_eq_nil_iff.mp ((hend.flight side).symm.trans (hquiet side))
  refine ⟨l, hend, hempty, ?_⟩
  rw [hshows.eachStep_iff]
  rcases Link.together_run events hfaced htogether with ⟨hsteps, hx⟩ | ⟨hsteps, x, hx⟩
  · exact Or.inl ⟨hsteps, hx⟩
  refine Or.inr ⟨hsteps, ?_⟩
  have hbound : Bound (l.run events x) (l.run events x.other) := Link.faced_run events hfaced x
  obtain ⟨mine, theirs, hmine, htheirs, hne⟩ := apart_adrift hbound hx (hempty x) (hempty x.other)
  refine ⟨fun y => if y = x then mine else theirs, fun y => ?_, fun y => ?_⟩
  · rcases Side.eq_or_other y x with rfl | rfl
    · simpa using hne
    · simpa using hne.symm
  · rcases Side.eq_or_other y x with rfl | rfl
    · simpa using hmine
    · simpa using htheirs

theorem adrift_refuses (h : Shows name p l) {keys : Side → SessionKeys} (hne : ∀ x, keys x ≠ keys x.other)
    (hadrift : ∀ x, Adrift (l x) (keys x)) (later : List Pair.Event) :
    Trace.EachStep (Pair.step name) (Pair.Refuses name) p later := by
  induction later generalizing p l with
  | nil => trivial
  | cons event later ih =>
    refine ⟨?_, ih (shows_step name h event) (Link.adrift_step hne hadrift event)⟩
    cases event with
    | encrypt side plaintext => trivial
    | deliver side =>
      intro frame rest hframe
      obtain ⟨m, rest', hflight, hok⟩ := h.delivery hframe
      rw [hok, ((hadrift side).refuses (hadrift side.other) (hne side) hflight).1]
      rfl

/-- Where openings crossed, nothing that is sent once all is delivered is ever read. -/
theorem crossed_refuses (hready : p.Ready name) {events : List Pair.Event}
    (hcrossed : ¬ Trace.EachStep (Pair.step name) (fun p event => ¬ p.Crosses name event) p events)
    (hquiet : ∀ side, (p.run name events).flight side = []) (later : List Pair.Event) :
    Trace.EachStep (Pair.step name) (Pair.Refuses name) (p.run name events) later := by
  obtain ⟨l, hend, -, ⟨hsteps, -⟩ | ⟨-, keys, hne, hadrift⟩⟩ := hready.quiet hquiet
  · exact absurd hsteps hcrossed
  · exact adrift_refuses hend hne hadrift later

/-- Once frames were sent and all are delivered, the two are on one session, and stay on it,
    exactly if no openings crossed. -/
theorem one_session_iff (name : Side → String) (p : Pair) (hready : p.Ready name) (events : List Pair.Event)
    (hsent : ∃ side plaintext, .encrypt side plaintext ∈ events)
    (hquiet : ∀ side, (p.run name events).flight side = []) :
    (p.run name events).OneSession name ↔
      Trace.EachStep (Pair.step name) (fun p event => ¬ p.Crosses name event) p events := by
  obtain ⟨l, hend, hempty, ⟨hsteps, x, hx⟩ | ⟨hsteps, keys, hne, hadrift⟩⟩ := hready.quiet hquiet
  · refine iff_of_true ?_ hsteps
    obtain ⟨side, plaintext, hmem⟩ := hsent
    have hsome := Link.session_of_encrypt (l := l) hmem
    have hsession : (l.run events x).session.isSome = true ∨ (l.run events x.other).session.isSome = true := by
      rcases Side.eq_or_other side x with rfl | rfl
      · exact Or.inl hsome
      · exact Or.inr hsome
    obtain ⟨s, t, hjoined⟩ := joined_of_quiet hx hsession (hempty x)
    exact joined_oneSession hend hjoined
  · refine iff_of_false (fun hone => ?_) hsteps
    obtain ⟨s, hs, hskeys, -, -⟩ := (hadrift .left).session
    obtain ⟨t, ht, htkeys, -, -⟩ := (hadrift .right).session
    obtain ⟨s', t', hs', ht', heq⟩ := hone.same
    rw [hend.sessionOf] at hs' ht'
    obtain rfl := Option.some.inj (hs.symm.trans hs')
    obtain rfl := Option.some.inj (ht.symm.trans ht')
    exact hne .left (hskeys.symm.trans (heq.trans htkeys))

end Managers

/-! ## Two devices -/

def twoNames : Side → String
  | .left => "a"
  | .right => "b"

/-- Devices 0 and 1, each with its keys published and the other's learned. -/
def twoDevices : Pair where
  manager
    | .left => ((created 0).publishBundle ⟨"a", "ka", fun _ => .ok ""⟩ "").2.learnPeer ⟨"b", "kb", ⟨1, 0⟩, ⟨1, 1⟩, "1"⟩
    | .right => ((created 1).publishBundle ⟨"b", "kb", fun _ => .ok ""⟩ "").2.learnPeer ⟨"a", "ka", ⟨0, 0⟩, ⟨0, 1⟩, "1"⟩
  flight _ := []

theorem twoDevices_ready : twoDevices.Ready twoNames := by
  refine ⟨fun side => ?_, by decide +kernel, fun _ => rfl⟩
  cases side with
  | left => exact ⟨_, rfl, rfl, rfl, rfl⟩
  | right => exact ⟨_, rfl, rfl, rfl, rfl⟩

def oneOpening : List Pair.Event := [.encrypt .left [7], .deliver .left, .encrypt .right [8], .deliver .right]

theorem one_opening_one_session :
    (twoDevices.run twoNames oneOpening).OneSession twoNames ↔
      Trace.EachStep (Pair.step twoNames) (fun p event => ¬ p.Crosses twoNames event) twoDevices oneOpening := by
  refine one_session_iff twoNames twoDevices twoDevices_ready oneOpening ⟨.left, [7], List.mem_cons_self⟩ fun side => ?_
  cases side with
  | left => decide +kernel
  | right => decide +kernel

/-- Both send before either has heard. -/
def bothOpen : List Pair.Event := [.encrypt .left [7], .encrypt .right [8], .deliver .left, .deliver .right]

theorem crossed_openings_part :
    ¬ ∀ (name : Side → String) (p : Pair), p.Ready name → ∀ events : List Pair.Event,
      (∃ side plaintext, .encrypt side plaintext ∈ events) →
        (∀ side, (p.run name events).flight side = []) → (p.run name events).OneSession name := by
  intro h
  obtain ⟨s, t, hs, ht, hkeys⟩ := (h twoNames twoDevices twoDevices_ready bothOpen ⟨.left, [7], List.mem_cons_self⟩
    fun side => by cases side <;> decide +kernel).same
  have hdiffer : ((twoDevices.run twoNames bothOpen).sessionOf twoNames .left).map Session.keys ≠
      ((twoDevices.run twoNames bothOpen).sessionOf twoNames .right).map Session.keys := by decide +kernel
  rw [hs, ht] at hdiffer
  exact hdiffer (congrArg some hkeys)

end Ideal

end Beacon
