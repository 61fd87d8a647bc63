/-
  Beacon.Membership — what a roster is for, apart from how it is kept: which devices
  a member counts in, which keys it knows them by, and which ids it has buried.

  A membership moves in two ways. `TakesAway` may deactivate and bury, and touches no
  key; `addMember` adds one device under one key, and never a buried one. Over any run of
  such moves:
  - `Moves.buried` / `Moves.stays_out`: a burial is permanent, and a buried device
    that is out stays out.
  - `addMember_keepsKeys_iff`: an admission keeps every known key exactly when it brings
    the key already known; `KeepsKeys` is reflexive and transitive, so runs keep them.
  `Beacon.Roster.Effects` shows that the roster's operations are such moves.
-/

import Mathlib.Data.Set.Insert
import Mathlib.Logic.Function.Basic
import Mathlib.Logic.Relation

namespace Beacon

open Classical

variable {ι κ : Type}

@[ext] structure Membership (ι κ : Type) where
  key : ι → Option κ
  active : Set ι
  buried : Set ι

namespace Membership

noncomputable def addMember (m : Membership ι κ) (d : ι) (k : κ) : Membership ι κ :=
  { m with key := Function.update m.key d (some k), active := insert d m.active }

/-- Deactivations and burials, any number of them. -/
structure TakesAway (m m' : Membership ι κ) : Prop where
  key : m'.key = m.key
  active : m'.active ⊆ m.active
  buried : m.buried ⊆ m'.buried
  fresh : ∀ d ∈ m'.buried, d ∉ m.buried → d ∉ m'.active

inductive Step (m : Membership ι κ) : Membership ι κ → Prop
  | takesAway (m' : Membership ι κ) : TakesAway m m' → Step m m'
  | addMember (d : ι) (k : κ) : d ∉ m.buried → Step m (m.addMember d k)

/-- Any number of steps. -/
abbrev Moves : Membership ι κ → Membership ι κ → Prop := Relation.ReflTransGen Step

theorem TakesAway.refl (m : Membership ι κ) : TakesAway m m :=
  ⟨rfl, fun _ h => h, fun _ h => h, fun _ h hn => absurd h hn⟩

theorem TakesAway.trans {m n p : Membership ι κ} (h : TakesAway m n) (h' : TakesAway n p) : TakesAway m p := by
  refine ⟨h'.key.trans h.key, fun d hd => h.active (h'.active hd), fun d hd => h'.buried (h.buried hd), ?_⟩
  intro d hd hn ha
  by_cases hm : d ∈ n.buried
  · exact h.fresh d hm hn (h'.active ha)
  · exact h'.fresh d hd hm ha

/-! ## Burials -/

theorem Step.buried {m m' : Membership ι κ} (h : Step m m') : m.buried ⊆ m'.buried := by
  cases h with
  | takesAway _ h => exact h.buried
  | addMember d k _ => exact fun _ hd => hd

theorem Step.stays_out {m m' : Membership ι κ} (h : Step m m') {d : ι} (hb : d ∈ m.buried) (ha : d ∉ m.active) :
    d ∉ m'.active := by
  cases h with
  | takesAway _ h => exact fun hd => ha (h.active hd)
  | addMember e k he =>
    intro hd
    rcases hd with rfl | hd
    · exact he hb
    · exact ha hd

theorem Moves.buried {m m' : Membership ι κ} (h : Moves m m') : m.buried ⊆ m'.buried := by
  induction h with
  | refl => exact fun _ hd => hd
  | tail _ hs ih => exact fun d hd => hs.buried (ih hd)

theorem Moves.stays_out {m m' : Membership ι κ} (h : Moves m m') {d : ι} (hb : d ∈ m.buried) (ha : d ∉ m.active) :
    d ∉ m'.active := by
  induction h with
  | refl => exact ha
  | tail hm hs ih => exact hs.stays_out (Moves.buried hm hb) ih

/-! ## Activity and keys -/

@[simp] theorem addMember_key_self (m : Membership ι κ) (d : ι) (k : κ) : (m.addMember d k).key d = some k := by
  simp [addMember]

theorem addMember_key_ne (m : Membership ι κ) {d e : ι} (k : κ) (h : e ≠ d) : (m.addMember d k).key e = m.key e := by
  simp [addMember, h]

/-- Every known device keeps its key. -/
def KeepsKeys (m m' : Membership ι κ) : Prop := ∀ d k, m.key d = some k → m'.key d = some k

theorem KeepsKeys.refl (m : Membership ι κ) : KeepsKeys m m := fun _ _ h => h

theorem KeepsKeys.trans {m n p : Membership ι κ} (h : KeepsKeys m n) (h' : KeepsKeys n p) : KeepsKeys m p :=
  fun d k hk => h' d k (h d k hk)

theorem TakesAway.keepsKeys {m m' : Membership ι κ} (h : TakesAway m m') : KeepsKeys m m' := by
  intro d k hk; rw [h.key]; exact hk

theorem addMember_keepsKeys_iff {m : Membership ι κ} {d : ι} {k : κ} :
    KeepsKeys m (m.addMember d k) ↔ ∀ k', m.key d = some k' → k' = k := by
  constructor
  · intro h k' hk'
    have := h d k' hk'
    rw [addMember_key_self] at this
    exact (Option.some.inj this).symm
  · intro h e k' hk'
    by_cases he : e = d
    · subst he; rw [addMember_key_self, h k' hk']
    · rw [addMember_key_ne m k he]; exact hk'

end Membership

end Beacon
