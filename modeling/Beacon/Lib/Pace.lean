/-
  Beacon.Lib.Pace — tries that keep their distance: after the `k`-th, the next comes no
  sooner than `gap k` later.

  The clock the tries are dated by may stand still or run backwards in between.
  - `total_le`: so many tries take at least the sum of the gaps between them.
  - `card_le`: where that sum grows by `long` a try, but for the first `k` of them, no more
    than `k` tries and one for every `long` that has passed fit in.
-/

import Mathlib.Algebra.BigOperators.Group.Finset.Basic
import Mathlib.Data.List.Induction

namespace Beacon.Lib.Pace

variable {gap : Nat → Nat} {start : Nat}

/-- From when on the next try may come, the first from `start`. -/
def next (gap : Nat → Nat) (start : Nat) (tries : List Nat) : Nat :=
  match tries.getLast? with
  | none => start
  | some t => t + gap tries.length

@[simp] theorem next_nil : next gap start [] = start := rfl

@[simp] theorem next_snoc (tries : List Nat) (t : Nat) :
    next gap start (tries ++ [t]) = t + gap (tries.length + 1) := by
  simp [next]

/-- No try came too soon. -/
inductive Paced (gap : Nat → Nat) (start : Nat) : List Nat → Prop
  | nil : Paced gap start []
  | snoc {tries : List Nat} {t : Nat} : Paced gap start tries → next gap start tries ≤ t →
      Paced gap start (tries ++ [t])

theorem paced_snoc {tries : List Nat} {t : Nat} :
    Paced gap start (tries ++ [t]) ↔ Paced gap start tries ∧ next gap start tries ≤ t := by
  constructor
  · intro h
    generalize hall : tries ++ [t] = all at h
    cases h with
    | nil => simp at hall
    | snoc hpaced hnext =>
      obtain ⟨rfl, hlast⟩ := List.append_inj' hall rfl
      rw [List.singleton_inj.mp hlast]
      exact ⟨hpaced, hnext⟩
  · intro h
    exact .snoc h.1 h.2

/-- All gaps taken together. -/
def total (gap : Nat → Nat) (n : Nat) : Nat := ∑ k ∈ Finset.range n, gap (k + 1)

theorem total_succ (n : Nat) : total gap (n + 1) = total gap n + gap (n + 1) := Finset.sum_range_succ _ n

theorem total_le {tries : List Nat} (h : Paced gap start tries) :
    start + total gap tries.length ≤ next gap start tries := by
  induction h with
  | nil => exact Nat.le_refl _
  | snoc _ ht ih =>
    rw [next_snoc, List.length_append, List.length_singleton, total_succ]
    omega

theorem card_le {tries : List Nat} {t k long : Nat} (h : Paced gap start (tries ++ [t])) (hlong : 0 < long)
    (htotal : ∀ n, long * (n + 1) ≤ total gap n + long * k) : tries.length + 1 ≤ k + (t - start) / long := by
  obtain ⟨hpaced, hnext⟩ := paced_snoc.mp h
  have hlast := total_le hpaced
  have hsum := htotal tries.length
  have hfit : (tries.length + 1 - k) * long ≤ t - start := by
    rw [Nat.mul_comm, Nat.mul_sub]
    omega
  have hcount := (Nat.le_div_iff_mul_le hlong).mpr hfit
  omega

end Beacon.Lib.Pace
