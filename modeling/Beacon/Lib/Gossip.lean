/-
  Beacon.Lib.Gossip — replicas that each hold a value of a join-semilattice. A replica may
  post the value it holds, and may join in anything that was ever posted: late, in any
  order, again, or never.

  Who has heard of whom is a gossip itself, over sets of replicas: each starts with itself
  alone, and the same events run (`heard`).
  - `value_le_run`: nothing is lost: a replica holds at least what each one it has heard
    of, through whomever, held at the start.
  - `run_le`: nothing is made up: an upper bound of all there is at the start stays one.
  - `settled`: so a replica that has heard of everyone holds the join of what they held.
-/

import Mathlib.Data.Finset.Insert
import Mathlib.Data.Finset.Lattice.Basic
import Mathlib.Order.Bounds.Basic
import Mathlib.Logic.Function.Basic
import Beacon.Lib.Trace

namespace Beacon.Lib.Gossip

variable {ι α : Type} [DecidableEq ι] [SemilatticeSup α]

structure Replicas (ι α : Type) where
  value : ι → α
  /-- All that was ever posted, oldest first. -/
  posted : List α

inductive Event (ι : Type) where
  | post (i : ι)
  | join (i : ι) (place : Nat)

def step (s : Replicas ι α) : Event ι → Replicas ι α
  | .post i => { s with posted := s.posted ++ [s.value i] }
  | .join i place =>
    match s.posted[place]? with
    | none => s
    | some a => { s with value := Function.update s.value i (s.value i ⊔ a) }

abbrev run (s : Replicas ι α) (events : List (Event ι)) : Replicas ι α := Trace.run step s events

/-- Nobody has heard of anyone else, or of anyone through what was posted before. -/
def unheard (ι : Type) [DecidableEq ι] (posted : Nat) : Replicas ι (Finset ι) :=
  ⟨fun i => {i}, List.replicate posted ∅⟩

/-- Those of whom each replica has heard, itself included, after `posted` earlier posts and these events. -/
def heard (posted : Nat) (events : List (Event ι)) : ι → Finset ι := (run (unheard ι posted) events).value

/-- The replica the event is of. -/
def Event.replica : Event ι → ι
  | post i => i
  | join i _ => i

/-! ## Nothing is lost -/

/-- The value is at least what each of these held at the start. -/
def Covers (start : ι → α) (a : α) (known : Finset ι) : Prop := ∀ j ∈ known, start j ≤ a

theorem Covers.sup {start : ι → α} {a b : α} {known more : Finset ι} (h : Covers start a known)
    (h' : Covers start b more) : Covers start (a ⊔ b) (known ⊔ more) := by
  intro j hj
  rcases Finset.mem_union.mp hj with hj | hj
  · exact (h j hj).trans le_sup_left
  · exact (h' j hj).trans le_sup_right

/-- One replica's value, or one post, beside who is known through it. -/
structure Tracks (start : ι → α) (s : Replicas ι α) (t : Replicas ι (Finset ι)) : Prop where
  value : ∀ i, Covers start (s.value i) (t.value i)
  posted : List.Forall₂ (Covers start) s.posted t.posted

theorem Tracks.step {start : ι → α} {s : Replicas ι α} {t : Replicas ι (Finset ι)} (h : Tracks start s t)
    (event : Event ι) : Tracks start (step s event) (step t event) := by
  cases event with
  | post i => exact ⟨h.value, List.rel_append h.posted (.cons (h.value i) .nil)⟩
  | join i place =>
    unfold Gossip.step
    simp only []
    by_cases hplace : place < s.posted.length
    · have hplace' : place < t.posted.length := h.posted.length_eq ▸ hplace
      rw [List.getElem?_eq_getElem hplace, List.getElem?_eq_getElem hplace']
      refine ⟨fun k => ?_, h.posted⟩
      by_cases hk : k = i
      · subst hk
        simp only [Function.update_self]
        exact (h.value k).sup (h.posted.get hplace hplace')
      · simp only [Function.update_of_ne hk]
        exact h.value k
    · have hplace' : ¬ place < t.posted.length := h.posted.length_eq ▸ hplace
      rw [List.getElem?_eq_none (by omega), List.getElem?_eq_none (by omega)]
      exact h

theorem tracks_run (s : Replicas ι α) (events : List (Event ι)) :
    Tracks s.value (run s events) (run (unheard ι s.posted.length) events) := by
  refine Trace.sim_run (A := fun _ => True) (fun _ _ event _ h => h.step event) ?_ (fun _ _ => trivial)
  constructor
  · intro i j hj
    rw [Finset.mem_singleton.mp hj]
  · show List.Forall₂ _ s.posted (List.replicate s.posted.length ∅)
    induction s.posted with
    | nil => exact .nil
    | cons a posted ih => exact .cons (fun j hj => absurd hj (Finset.notMem_empty j)) ih

theorem value_le_run (s : Replicas ι α) (events : List (Event ι)) {i j : ι}
    (hheard : j ∈ heard s.posted.length events i) : s.value j ≤ (run s events).value i :=
  (tracks_run s events).value i j hheard

/-! ## Nothing is made up -/

/-- An upper bound of what the replicas of `M` hold, and of all that was posted. -/
structure Below (M : Set ι) (b : α) (s : Replicas ι α) : Prop where
  value : ∀ i ∈ M, s.value i ≤ b
  posted : ∀ a ∈ s.posted, a ≤ b

theorem Below.step {M : Set ι} {b : α} {s : Replicas ι α} (h : Below M b s) {event : Event ι}
    (hevent : event.replica ∈ M) : Below M b (step s event) := by
  cases event with
  | post i =>
    refine ⟨h.value, fun a ha => ?_⟩
    rcases List.mem_append.mp ha with ha | ha
    · exact h.posted a ha
    · rw [List.mem_singleton.mp ha]
      exact h.value i hevent
  | join i place =>
    unfold Gossip.step
    simp only []
    split
    · exact h
    next a hget =>
      refine ⟨fun k hk => ?_, h.posted⟩
      by_cases hki : k = i
      · subst hki
        simp only [Function.update_self]
        exact sup_le (h.value k hk) (h.posted a (List.mem_of_getElem? hget))
      · simp only [Function.update_of_ne hki]
        exact h.value k hk

theorem run_le {M : Set ι} {b : α} {s : Replicas ι α} (h : Below M b s) {events : List (Event ι)}
    (hevents : ∀ event ∈ events, event.replica ∈ M) : Below M b (run s events) := by
  induction events generalizing s with
  | nil => exact h
  | cons event events ih =>
    apply ih (h.step (hevents event List.mem_cons_self))
    intro e he
    exact hevents e (List.mem_cons_of_mem _ he)

/-- What is posted at the start being no more than what the replicas hold: one that has heard of all of `M` holds
    their join. -/
theorem settled {M : Set ι} {b : α} {s : Replicas ι α} (hb : IsLUB (s.value '' M) b)
    (hposted : ∀ a ∈ s.posted, a ≤ b) {events : List (Event ι)} (hevents : ∀ event ∈ events, event.replica ∈ M)
    {i : ι} (hi : i ∈ M) (hheard : ∀ j ∈ M, j ∈ heard s.posted.length events i) : (run s events).value i = b := by
  have hbelow : Below M b s := ⟨fun j hj => hb.1 (Set.mem_image_of_mem _ hj), hposted⟩
  apply le_antisymm
  · exact (run_le hbelow hevents).value i hi
  · apply hb.2
    rintro _ ⟨j, hj, rfl⟩
    exact value_le_run s events (hheard j hj)

end Beacon.Lib.Gossip
