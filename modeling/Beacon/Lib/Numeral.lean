/-
  Beacon.Lib.Numeral — numbers written with a fixed number of digits, in any base and any
  alphabet.

  - `foldl_numeral`: a number is read back from its digits.
  - `numeral_lt`: a greater number is later in the order of the lists.
  - `padded_toDigits`: the shortest numeral, with zeros before it, is the one of that length.
-/

import Mathlib.Algebra.Group.Nat.Defs
import Mathlib.Data.List.Basic

namespace Beacon.Lib.Numeral

variable {α : Type} (base : Nat) (digit : Nat → α)

/-- The last `width` digits of `n`. -/
def numeral : Nat → Nat → List α
  | 0, _ => []
  | width + 1, n => numeral width (n / base) ++ [digit (n % base)]

@[simp] theorem length_numeral (width n : Nat) : (numeral base digit width n).length = width := by
  induction width generalizing n with
  | zero => rfl
  | succ width ih => rw [numeral, List.length_append, ih, List.length_singleton]

variable {base digit}

theorem mem_numeral (hbase : 0 < base) {width n : Nat} {a : α} (h : a ∈ numeral base digit width n) :
    ∃ d < base, a = digit d := by
  induction width generalizing n with
  | zero => cases h
  | succ width ih =>
    rcases List.mem_append.mp h with h | h
    · exact ih h
    · exact ⟨n % base, Nat.mod_lt n hbase, List.mem_singleton.mp h⟩

/-- A numeral written with other characters. -/
theorem flatMap_numeral {β : Type} {f : α → List β} {digit' : Nat → β} (hbase : 0 < base)
    (h : ∀ d < base, f (digit d) = [digit' d]) (width n : Nat) :
    (numeral base digit width n).flatMap f = numeral base digit' width n := by
  induction width generalizing n with
  | zero => rfl
  | succ width ih =>
    rw [numeral, List.flatMap_append, ih, List.flatMap_singleton, h _ (Nat.mod_lt n hbase)]
    rfl

theorem foldl_numeral {value : α → Nat} (hvalue : ∀ d < base, value (digit d) = d) {width n : Nat}
    (hn : n < base ^ width) : (numeral base digit width n).foldl (fun n a => n * base + value a) 0 = n := by
  induction width generalizing n with
  | zero =>
    rw [Nat.pow_zero, Nat.lt_one_iff] at hn
    rw [hn]
    rfl
  | succ width ih =>
    rw [Nat.pow_succ] at hn
    have hbase : 0 < base := Nat.pos_of_ne_zero fun h => by simp [h] at hn
    rw [numeral, List.foldl_append, ih (Nat.div_lt_of_lt_mul (by rwa [Nat.mul_comm])), List.foldl_cons, List.foldl_nil,
      hvalue _ (Nat.mod_lt n hbase), Nat.mul_comm]
    exact Nat.div_add_mod n base

/-! ## The order -/

section Order

variable [LT α]

/-- Lists of one length are compared from the front. -/
theorem append_lt_append {a b : List α} (h : a < b) (hlength : a.length = b.length) (rest rest' : List α) :
    a ++ rest < b ++ rest' := by
  induction h with
  | nil => cases hlength
  | rel hlt => exact .rel hlt
  | cons h ih => exact .cons (ih (Nat.succ.inj hlength))

theorem numeral_lt (hdigit : ∀ d e, d < e → e < base → digit d < digit e) {width n m : Nat} (hnm : n < m)
    (hm : m < base ^ width) : numeral base digit width n < numeral base digit width m := by
  induction width generalizing n m with
  | zero => rw [Nat.pow_zero] at hm; omega
  | succ width ih =>
    rw [Nat.pow_succ] at hm
    have hbase : 0 < base := Nat.pos_of_ne_zero fun h => by simp [h] at hm
    have hquotient : m / base < base ^ width := Nat.div_lt_of_lt_mul (by rwa [Nat.mul_comm])
    rcases Nat.lt_or_eq_of_le (Nat.div_le_div_right (Nat.le_of_lt hnm)) with hlt | heq
    · exact append_lt_append (ih hlt hquotient) (by simp) _ _
    · -- the numbers differ in the last digit only
      have hmod : n % base < m % base := by
        have hn := Nat.div_add_mod n base
        have hm := Nat.div_add_mod m base
        rw [heq] at hn
        omega
      rw [numeral, numeral, heq]
      exact List.append_left_lt (.rel (hdigit _ _ hmod (Nat.mod_lt m hbase)))

end Order

/-! ## The shortest numeral -/

theorem numeral_zero {base : Nat} {digit : Nat → α} (width : Nat) :
    numeral base digit width 0 = List.replicate width (digit 0) := by
  induction width with
  | zero => rfl
  | succ width ih => rw [numeral, Nat.zero_div, Nat.zero_mod, ih, List.replicate_succ']

theorem padded_toDigits {width n : Nat} (hwidth : 0 < width) (hn : n < 10 ^ width) :
    List.replicate (width - (Nat.toDigits 10 n).length) '0' ++ Nat.toDigits 10 n = numeral 10 Nat.digitChar width n := by
  induction width generalizing n with
  | zero => omega
  | succ width ih =>
    by_cases hsmall : n < 10
    · rw [Nat.toDigits_of_lt_base hsmall, numeral, Nat.div_eq_of_lt hsmall, Nat.mod_eq_of_lt hsmall, numeral_zero]
      rfl
    · have hquotient : n / 10 < 10 ^ width := by
        rw [Nat.pow_succ] at hn
        omega
      have hmore : 0 < width := by
        refine Nat.pos_of_ne_zero fun h => ?_
        rw [h] at hn
        omega
      rw [Nat.toDigits_of_base_le (by decide) (by omega), List.length_append, List.length_singleton,
        Nat.add_sub_add_right, ← List.append_assoc, ih hmore hquotient, numeral]

end Beacon.Lib.Numeral
