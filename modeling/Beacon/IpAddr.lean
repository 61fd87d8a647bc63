/-
  Beacon.IpAddr — `str::parse::<IpAddr>` (`core::net::parser`).

  Each reader takes what it reads off the front of the text and answers with the rest, or
  reads nothing at all; an address is what leaves no rest. The text of an IPv6 address
  may end in an IPv4 one, and `::` stands for one group of zeros at least.
  - `literal_of_parse`: a literal is written with hexadecimal digits, colons and dots.
-/

import Beacon.Text

namespace Beacon

open Text

inductive IpAddr where
  | v4 (octets : List Nat)
  | v6 (groups : List Nat)
  deriving DecidableEq, Repr

namespace IpAddr

/-- A reader; `none` leaves the text where it was. -/
abbrev Reader (α : Type) := List Char → Option (α × List Char)

def readGivenChar (given : Char) : Reader Unit
  | c :: text => if c = given then some ((), text) else none
  | [] => none

/-- At most `maxDigits` digits, and where `allowZeroPrefix` is not given no zero before others. -/
def readNumber (radix maxDigits bound : Nat) (allowZeroPrefix : Bool) : Reader Nat := fun text =>
  let digits := text.takeWhile fun c => (toDigit radix c).isSome
  if maxDigits < digits.length then none
  else if digits.isEmpty then none
  else if !allowZeroPrefix && digits.head? == some '0' && 1 < digits.length then none
  else
    let n := digits.foldl (fun n c => n * radix + (toDigit radix c).getD 0) 0
    if n < bound then some (n, text.drop digits.length) else none

/-- All but the first of a row of items come after a separator. -/
def readSeparator {α : Type} (separator : Char) (index : Nat) (inner : Reader α) : Reader α := fun text =>
  if index = 0 then inner text
  else
    match readGivenChar separator text with
    | some (_, text) => inner text
    | none => none

def readIpv4Addr : Reader (List Nat) := fun text => do
  let octet := readNumber 10 3 256 false
  let (a, text) ← readSeparator '.' 0 octet text
  let (b, text) ← readSeparator '.' 1 octet text
  let (c, text) ← readSeparator '.' 2 octet text
  let (d, text) ← readSeparator '.' 3 octet text
  return ([a, b, c, d], text)

/-- `read_groups` from the group at `i` on, with `left` of them to go: the groups read, whether
    the last two were an IPv4 address, and the rest. -/
def readGroups (i : Nat) : (left : Nat) → List Char → List Nat × Bool × List Char
  | 0, text => ([], false, text)
  | left + 1, text =>
    -- an embedded IPv4 address takes two groups
    match if 0 < left then readSeparator ':' i readIpv4Addr text else none with
    | some (octets, text) =>
      match octets with
      | [one, two, three, four] => ([one * 256 + two, three * 256 + four], true, text)
      | _ => ([], true, text)
    | none =>
      match readSeparator ':' i (readNumber 16 4 65536 true) text with
      | some (group, text) =>
        let (groups, ipv4, text) := readGroups (i + 1) left text
        (group :: groups, ipv4, text)
      | none => ([], false, text)

def readIpv6Addr : Reader (List Nat) := fun text =>
  let (head, headIpv4, text) := readGroups 0 8 text
  if head.length = 8 then some (head, text)
  else if headIpv4 then none
  else do
    let ((), text) ← readGivenChar ':' text
    let ((), text) ← readGivenChar ':' text
    let (tail, _, text) := readGroups 0 (8 - (head.length + 1)) text
    return (head ++ List.replicate (8 - head.length - tail.length) 0 ++ tail, text)

def readIpAddr : Reader IpAddr := fun text =>
  match readIpv4Addr text with
  | some (octets, text) => some (.v4 octets, text)
  | none => (readIpv6Addr text).map fun (groups, text) => (.v6 groups, text)

/-- `parse_with`: nothing may be left. -/
def parse (text : List Char) : Option IpAddr :=
  match readIpAddr text with
  | some (address, []) => some address
  | _ => none

example : parse "2001:db8::192.0.2.1".toList = some (.v6 [0x2001, 0xdb8, 0, 0, 0, 0, 0xc000, 0x201]) := by
  decide +kernel

example : parse "192.168.01.10".toList = none := by decide +kernel

/-! ## What a literal is written with -/

def isIpv4Char (c : Char) : Bool := (toDigit 10 c).isSome || c == '.'

def isLiteralChar (c : Char) : Bool := (toDigit 16 c).isSome || c == ':' || c == '.'

/-- The front of the text was taken, and is written with these characters. -/
def Taken (written : Char → Bool) (text rest : List Char) : Prop :=
  ∃ taken, text = taken ++ rest ∧ ∀ c ∈ taken, written c = true

def Takes {α : Type} (written : Char → Bool) (reader : Reader α) : Prop :=
  ∀ text a rest, reader text = some (a, rest) → Taken written text rest

section Taking

variable {written : Char → Bool}

theorem Taken.refl (text : List Char) : Taken written text text := ⟨[], rfl, fun _ h => by cases h⟩

theorem Taken.trans {text after rest : List Char} (h : Taken written text after) (h' : Taken written after rest) :
    Taken written text rest := by
  obtain ⟨taken, rfl, htaken⟩ := h
  obtain ⟨taken', rfl, htaken'⟩ := h'
  exact ⟨taken ++ taken', by rw [List.append_assoc],
    fun c hc => (List.mem_append.mp hc).elim (htaken c) (htaken' c)⟩

theorem Taken.mono {written' : Char → Bool} (hmono : ∀ c, written c = true → written' c = true)
    {text rest : List Char} (h : Taken written text rest) : Taken written' text rest := by
  obtain ⟨taken, rfl, htaken⟩ := h
  exact ⟨taken, rfl, fun c hc => hmono c (htaken c hc)⟩

/-- Where nothing is left, all of it was taken. -/
theorem Taken.all {text : List Char} (h : Taken written text []) : ∀ c ∈ text, written c = true := by
  obtain ⟨taken, rfl, htaken⟩ := h
  rwa [List.append_nil]

theorem takes_readGivenChar {given : Char} (h : written given = true) : Takes written (readGivenChar given) := by
  intro text a rest hread
  cases text with
  | nil => cases hread
  | cons c text =>
    by_cases hc : c = given
    · rw [readGivenChar, if_pos hc] at hread
      cases hread
      exact ⟨[c], rfl, by simp [hc, h]⟩
    · rw [readGivenChar, if_neg hc] at hread
      cases hread

theorem takes_readNumber {radix : Nat} (h : ∀ c, (toDigit radix c).isSome = true → written c = true)
    (maxDigits bound : Nat) (allowZeroPrefix : Bool) :
    Takes written (readNumber radix maxDigits bound allowZeroPrefix) := by
  intro text a rest hread
  unfold readNumber at hread
  simp only [] at hread
  split at hread
  · cases hread
  split at hread
  · cases hread
  split at hread
  · cases hread
  split at hread
  swap
  · cases hread
  cases hread
  exact ⟨text.takeWhile fun c => (toDigit radix c).isSome,
    (List.prefix_iff_eq_append.mp (List.takeWhile_prefix _)).symm,
    fun c hc => h c (List.all_eq_true.mp List.all_takeWhile c hc)⟩

theorem takes_readSeparator {α : Type} {separator : Char} (h : written separator = true) (index : Nat)
    {inner : Reader α} (hinner : Takes written inner) : Takes written (readSeparator separator index inner) := by
  intro text a rest hread
  unfold readSeparator at hread
  split at hread
  · exact hinner text a rest hread
  split at hread
  swap
  · cases hread
  rename_i u after hgiven
  exact (takes_readGivenChar h _ _ _ hgiven).trans (hinner _ _ _ hread)

end Taking

theorem toDigit_mono {radix : Nat} (h : radix ≤ 16) {c : Char} (hc : (toDigit radix c).isSome = true) :
    (toDigit 16 c).isSome = true := by
  unfold toDigit at hc ⊢
  simp only [Option.isSome_filter] at hc ⊢
  revert hc
  generalize (if '0' ≤ c ∧ c ≤ '9' then some (c.toNat - '0'.toNat)
    else if 'a' ≤ c ∧ c ≤ 'z' then some (c.toNat - 'a'.toNat + 10)
    else if 'A' ≤ c ∧ c ≤ 'Z' then some (c.toNat - 'A'.toNat + 10) else none) = value
  cases value with
  | none => exact id
  | some n =>
    simp only [Option.any_some, decide_eq_true_eq]
    omega

theorem isLiteralChar_of_isIpv4Char (c : Char) (h : isIpv4Char c = true) : isLiteralChar c = true := by
  unfold isIpv4Char isLiteralChar at *
  rcases Bool.or_eq_true _ _ ▸ h with hdigit | hdot
  · rw [toDigit_mono (by omega) hdigit, Bool.true_or, Bool.true_or]
  · rw [hdot, Bool.or_true]

theorem takes_readIpv4Addr : Takes isIpv4Char readIpv4Addr := by
  have hnumber : Takes isIpv4Char (readNumber 10 3 256 false) :=
    takes_readNumber (fun c hc => by rw [isIpv4Char, hc, Bool.true_or]) 3 256 false
  have hoctet (index : Nat) : Takes isIpv4Char (readSeparator '.' index (readNumber 10 3 256 false)) :=
    takes_readSeparator (by decide) index hnumber
  intro text octets rest hread
  simp only [readIpv4Addr, Option.bind_eq_bind, Option.bind_eq_some_iff, Prod.exists, Option.pure_def,
    Option.some.injEq, Prod.mk.injEq] at hread
  obtain ⟨a, text₁, ha, b, text₂, hb, c, text₃, hc, d, text₄, hd, -, rfl⟩ := hread
  exact (hoctet 0 _ _ _ ha).trans ((hoctet 1 _ _ _ hb).trans ((hoctet 2 _ _ _ hc).trans (hoctet 3 _ _ _ hd)))

theorem taken_readGroups (i left : Nat) (text : List Char) :
    Taken isLiteralChar text (readGroups i left text).2.2 := by
  have hcolon : isLiteralChar ':' = true := by decide
  induction left generalizing i text with
  | zero => exact .refl text
  | succ left ih =>
    unfold readGroups
    split
    · rename_i octets after hv4
      have htaken : Taken isLiteralChar text after := by
        split at hv4
        · exact takes_readSeparator hcolon i
            (fun _ _ _ h => (takes_readIpv4Addr _ _ _ h).mono isLiteralChar_of_isIpv4Char) _ _ _ hv4
        · cases hv4
      split <;> exact htaken
    · split
      · rename_i group after hgroup
        have hnumber : Takes isLiteralChar (readNumber 16 4 65536 true) :=
          takes_readNumber (fun c hc => by rw [isLiteralChar, hc, Bool.true_or, Bool.true_or]) 4 65536 true
        exact (takes_readSeparator hcolon i hnumber _ _ _ hgroup).trans (ih (i + 1) after)
      · exact .refl text

theorem takes_readIpv6Addr : Takes isLiteralChar readIpv6Addr := by
  have hcolon : Takes isLiteralChar (readGivenChar ':') := takes_readGivenChar (by decide)
  intro text groups rest hread
  have hhead := taken_readGroups 0 8 text
  unfold readIpv6Addr at hread
  simp only [] at hread
  split at hread
  · cases hread
    exact hhead
  split at hread
  · cases hread
  simp only [Option.bind_eq_bind, Option.bind_eq_some_iff, Prod.exists, Option.pure_def, Option.some.injEq,
    Prod.mk.injEq] at hread
  obtain ⟨_, after, hfirst, _, after', hsecond, -, rfl⟩ := hread
  exact hhead.trans ((hcolon _ _ _ hfirst).trans ((hcolon _ _ _ hsecond).trans (taken_readGroups 0 _ after')))

/-- A literal of version 4 is written with digits and dots. -/
theorem ipv4_of_parse {text : List Char} {octets : List Nat} (h : parse text = some (.v4 octets)) :
    ∀ c ∈ text, isIpv4Char c = true := by
  unfold parse at h
  split at h
  swap
  · cases h
  rename_i found hread
  cases h
  unfold readIpAddr at hread
  split at hread
  · rename_i octets' after hv4
    cases hread
    exact (takes_readIpv4Addr _ _ _ hv4).all
  · simp only [Option.map_eq_some_iff, Prod.mk.injEq, reduceCtorEq, false_and, and_false, exists_false] at hread

/-- Every literal is written with hexadecimal digits, colons and dots. -/
theorem literal_of_parse {text : List Char} {address : IpAddr} (h : parse text = some address) :
    ∀ c ∈ text, isLiteralChar c = true := by
  cases address with
  | v4 octets => exact fun c hc => isLiteralChar_of_isIpv4Char c (ipv4_of_parse h c hc)
  | v6 groups =>
    unfold parse at h
    split at h
    swap
    · cases h
    rename_i found hread
    cases h
    unfold readIpAddr at hread
    split at hread
    · cases hread
    · simp only [Option.map_eq_some_iff, Prod.mk.injEq, Prod.exists] at hread
      obtain ⟨groups', after, hv6, -, rfl⟩ := hread
      exact (takes_readIpv6Addr _ _ _ hv6).all

end IpAddr

end Beacon
