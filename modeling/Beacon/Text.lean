/-
  Beacon.Text — what an address parser asks of the standard library's `str`.

  A text is its list of characters: none of these operations cuts one, and what is
  counted in bytes is counted in the bytes of its characters.
-/

import Beacon.Canonical.Encoding

namespace Beacon.Text

/-- `char::is_whitespace`, the characters with the property `White_Space`. -/
def isWhitespace (c : Char) : Bool :=
  let n := c.toNat
  (0x09 ≤ n && n ≤ 0x0D) || n == 0x20 || n == 0x85 || n == 0xA0 || n == 0x1680 || (0x2000 ≤ n && n ≤ 0x200A) ||
    n == 0x2028 || n == 0x2029 || n == 0x202F || n == 0x205F || n == 0x3000

def trim (text : List Char) : List Char :=
  ((text.dropWhile isWhitespace).reverse.dropWhile isWhitespace).reverse

/-- `to_ascii_lowercase`; `Char.toLower` folds ASCII only. -/
def toAsciiLowercase (text : List Char) : List Char := text.map Char.toLower

def stripPrefix : (start text : List Char) → Option (List Char)
  | [], text => some text
  | _ :: _, [] => none
  | d :: start, c :: text => if c = d then stripPrefix start text else none

def splitOnce (separator : Char) : List Char → Option (List Char × List Char)
  | [] => none
  | c :: text =>
    if c = separator then some ([], text)
    else (splitOnce separator text).map fun parts => (c :: parts.1, parts.2)

/-- `str::len`, in bytes. -/
def len (text : List Char) : Nat := (utf8 text).length

/-- `char::to_digit`. -/
def toDigit (radix : Nat) (c : Char) : Option Nat :=
  let value :=
    if '0' ≤ c ∧ c ≤ '9' then some (c.toNat - '0'.toNat)
    else if 'a' ≤ c ∧ c ≤ 'z' then some (c.toNat - 'a'.toNat + 10)
    else if 'A' ≤ c ∧ c ≤ 'Z' then some (c.toNat - 'A'.toNat + 10)
    else none
  value.filter (· < radix)

/-- `str::parse::<u16>().ok()`: an optional `+`, then at least one digit, in range. -/
def parseU16 (text : List Char) : Option UInt16 :=
  let digits := match text with
    | '+' :: rest => rest
    | _ => text
  if digits.isEmpty then none
  else
    (digits.mapM (toDigit 10)).bind fun values =>
      let n := values.foldl (fun n d => n * 10 + d) 0
      if n < 2 ^ 16 then some (UInt16.ofNat n) else none

/-! ## Where the pieces come from -/

/-- What `trim` cuts off is white space. -/
theorem trim_eq (text : List Char) : ∃ lead trail, text = lead ++ trim text ++ trail ∧
    (∀ c ∈ lead, isWhitespace c = true) ∧ ∀ c ∈ trail, isWhitespace c = true := by
  let rest := text.dropWhile isWhitespace
  refine ⟨text.takeWhile isWhitespace, (rest.reverse.takeWhile isWhitespace).reverse, ?_, ?_, ?_⟩
  · have hrest : rest = trim text ++ (rest.reverse.takeWhile isWhitespace).reverse := by
      rw [trim, ← List.reverse_append, List.takeWhile_append_dropWhile, List.reverse_reverse]
    rw [List.append_assoc, ← hrest, List.takeWhile_append_dropWhile]
  · exact List.all_eq_true.mp List.all_takeWhile
  · exact fun c hc => List.all_eq_true.mp List.all_takeWhile c (List.mem_reverse.mp hc)

theorem trim_eq_self {text : List Char} (hfirst : ∀ c ∈ text.head?, isWhitespace c = false)
    (hlast : ∀ c ∈ text.getLast?, isWhitespace c = false) : trim text = text := by
  have hkeep : ∀ {text : List Char}, (∀ c ∈ text.head?, isWhitespace c = false) → text.dropWhile isWhitespace = text := by
    intro text h
    cases text with
    | nil => rfl
    | cons c text => exact List.dropWhile_cons_of_neg (by simp [h c rfl])
  rw [trim, hkeep hfirst, hkeep (by rwa [List.head?_reverse]), List.reverse_reverse]

/-- Nothing is left to trim. -/
theorem getLast?_trim (text : List Char) : ∀ c ∈ (trim text).getLast?, isWhitespace c = false := by
  intro c hc
  rw [trim, List.getLast?_reverse] at hc
  have h := List.head?_dropWhile_not isWhitespace (text.dropWhile isWhitespace).reverse
  rw [Option.mem_def.mp hc] at h
  simpa using h

theorem length_trim_lt {text : List Char} {c : Char} (hlast : c ∈ text.getLast?) (hc : isWhitespace c = true) :
    (trim text).length < text.length := by
  by_contra hge
  obtain ⟨lead, trail, htext, -, -⟩ := trim_eq text
  have hlength := congrArg List.length htext
  rw [List.length_append, List.length_append] at hlength
  have hlead : lead = [] := List.length_eq_zero_iff.mp (by omega)
  have htrail : trail = [] := List.length_eq_zero_iff.mp (by omega)
  subst hlead htrail
  rw [htext, List.nil_append, List.append_nil] at hlast
  rw [getLast?_trim text c hlast] at hc
  cases hc

theorem stripPrefix_eq_some_iff {start text rest : List Char} :
    stripPrefix start text = some rest ↔ text = start ++ rest := by
  induction start generalizing text with
  | nil => simp [stripPrefix]
  | cons d start ih =>
    cases text with
    | nil => simp [stripPrefix]
    | cons c text =>
      by_cases hc : c = d
      · simp [stripPrefix, hc, ih]
      · simp [stripPrefix, hc]

theorem splitOnce_eq_some_iff {separator : Char} {text before after : List Char} :
    splitOnce separator text = some (before, after) ↔ text = before ++ separator :: after ∧ separator ∉ before := by
  induction text generalizing before with
  | nil => simp [splitOnce]
  | cons c text ih =>
    unfold splitOnce
    by_cases hc : c = separator
    · subst hc
      rw [if_pos rfl]
      cases before with
      | nil => simp
      | cons b before =>
        -- a later occurrence is not the first
        simp only [Option.some.injEq, Prod.mk.injEq, List.nil_eq, reduceCtorEq, false_and, List.cons_append,
          List.cons.injEq, List.mem_cons, false_iff, not_and]
        exact fun h hnot => hnot (Or.inl h.1)
    · rw [if_neg hc]
      cases before with
      | nil => simp [hc]
      | cons b before =>
        simp only [Option.map_eq_some_iff, Prod.exists, Prod.mk.injEq, List.cons.injEq, List.cons_append, List.mem_cons]
        constructor
        · intro h
          obtain ⟨first, second, hsplit, ⟨rfl, rfl⟩, rfl⟩ := h
          obtain ⟨rfl, hnot⟩ := ih.mp hsplit
          exact ⟨⟨rfl, rfl⟩, fun h => h.elim (fun h => hc h.symm) hnot⟩
        · intro h
          obtain ⟨⟨rfl, rfl⟩, hnot⟩ := h
          exact ⟨before, after, ih.mpr ⟨rfl, fun h => hnot (Or.inr h)⟩, ⟨rfl, rfl⟩, rfl⟩

theorem splitOnce_eq_none_iff {separator : Char} {text : List Char} :
    splitOnce separator text = none ↔ separator ∉ text := by
  induction text with
  | nil => simp [splitOnce]
  | cons c text ih =>
    unfold splitOnce
    by_cases hc : c = separator
    · simp [hc]
    · rw [if_neg hc, Option.map_eq_none_iff, ih, List.mem_cons, not_or]
      exact ⟨fun h => ⟨fun heq => hc heq.symm, h⟩, fun h => h.2⟩

theorem stripPrefix_singleton_eq_none_iff {start : Char} {text : List Char} :
    stripPrefix [start] text = none ↔ text.head? ≠ some start := by
  cases text with
  | nil => simp [stripPrefix]
  | cons c text => by_cases hc : c = start <;> simp [stripPrefix, hc]

/-! ## Decimal numbers -/

theorem toDigit_ten (c : Char) : toDigit 10 c = if c.isDigit = true then some (c.toNat - '0'.toNat) else none := by
  unfold toDigit
  by_cases hdigit : c.isDigit = true
  · have hrange : '0' ≤ c ∧ c ≤ '9' := by simpa [Char.isDigit, Char.le_def] using hdigit
    have hsmall : c.toNat - '0'.toNat < 10 := by
      have h9 : c.toNat ≤ 57 := hrange.2
      have h0 : '0'.toNat = 48 := rfl
      omega
    simp only [if_pos hrange, if_pos hdigit, Option.filter_some, hsmall, decide_true, if_true]
  · have hrange : ¬('0' ≤ c ∧ c ≤ '9') := by simpa [Char.isDigit, Char.le_def] using hdigit
    rw [if_neg hrange, if_neg hdigit]
    -- a letter stands for ten at least
    split
    · simp
    · split
      · simp
      · rfl

theorem mapM_toDigit (digits : List Char) :
    digits.mapM (toDigit 10) =
      if digits.all Char.isDigit = true then some (digits.map fun c => c.toNat - '0'.toNat) else none := by
  induction digits with
  | nil => rfl
  | cons c digits ih =>
    rw [List.mapM_cons, ih, toDigit_ten]
    by_cases hc : c.isDigit = true
    · by_cases hrest : digits.all Char.isDigit = true
      · simp [hc, hrest]
      · simp [hc, hrest]
    · simp [hc]

/-- The digits of a number, in range. -/
def Decimal (digits : List Char) (n : UInt16) : Prop :=
  digits ≠ [] ∧ (∀ c ∈ digits, c.isDigit = true) ∧ Nat.ofDigitChars 10 digits 0 = n.toNat

theorem decimal_iff (digits : List Char) (n : UInt16) :
    (if digits.isEmpty then none
      else (digits.mapM (toDigit 10)).bind fun values =>
        let value := values.foldl (fun n d => n * 10 + d) 0
        if value < 2 ^ 16 then some (UInt16.ofNat value) else none) = some n ↔ Decimal digits n := by
  have hvalue : (digits.map fun c => c.toNat - '0'.toNat).foldl (fun n d => n * 10 + d) 0 =
      Nat.ofDigitChars 10 digits 0 := by
    rw [Nat.ofDigitChars_eq_foldl, List.foldl_map]
    simp only [Nat.mul_comm]
  have hbound := n.toNat_lt
  unfold Decimal
  rw [mapM_toDigit]
  cases digits with
  | nil => simp
  | cons c digits =>
    by_cases hall : (c :: digits).all Char.isDigit = true
    · rw [if_pos hall]
      simp only [List.isEmpty_cons, Bool.false_eq_true, if_false, Option.bind_some, hvalue]
      rw [List.all_eq_true] at hall
      generalize Nat.ofDigitChars 10 (c :: digits) 0 = value
      constructor
      · intro h
        split at h
        · cases h
          exact ⟨by simp, hall, by rw [UInt16.toNat_ofNat', Nat.mod_eq_of_lt ‹_›]⟩
        · cases h
      · rintro ⟨-, -, rfl⟩
        rw [if_pos hbound, UInt16.ofNat_toNat]
    · rw [if_neg hall]
      rw [List.all_eq_true] at hall
      simp only [List.isEmpty_cons, Bool.false_eq_true, if_false, Option.bind_none, reduceCtorEq, false_iff]
      exact fun h => hall h.2.1

theorem parseU16_plus (digits : List Char) (n : UInt16) : parseU16 ('+' :: digits) = some n ↔ Decimal digits n :=
  decimal_iff digits n

/-- Nothing before the digits. -/
theorem parseU16_of_head {digits : List Char} (h : digits.head? ≠ some '+') (n : UInt16) :
    parseU16 digits = some n ↔ Decimal digits n := by
  cases digits with
  | nil => exact decimal_iff [] n
  | cons c digits =>
    have hc : c ≠ '+' := by simpa using h
    rw [← decimal_iff]
    unfold parseU16
    split
    · rename_i hplus
      cases hplus
      exact absurd rfl hc
    · rfl

end Beacon.Text
