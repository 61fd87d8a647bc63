/-
  Beacon.Rfc3339.Shape — the envelope's shape check stays inside the text, and lets nothing
  through that `rfc3339::parse` cannot read.

  `isRfc3339?` is `is_rfc3339` as it computes, with every index in range and every slice of
  the text at characters, or else `none`, where the code would panic.
  - `boundary_after_ascii`: a character ends where an ASCII byte stands. So what has been
    checked before a field is sliced is enough, also for the seconds, behind which anything
    may follow.
  - `checked_of_isRfc3339`: what is let through is a date-time of the parser's own grammar.
  - `shape_is_readable`: both, for every text.
-/

import Beacon.Rfc3339.Format

namespace Beacon.Rfc3339

/-! ## With every index and every slice checked -/

/-- `b[from..from + len]`. -/
def field? (b : Bytes) (from' len : Nat) : Option Bytes :=
  if from' + len ≤ b.length then some ((b.drop from').take len) else none

def digits? (b : Bytes) (from' len : Nat) : Option Bool := (field? b from' len).map fun field => field.all isDigit

/-- `s[from..from + len]` must not cut a character, either. -/
def num? (b : Bytes) (from' len : Nat) : Option Nat :=
  (slice b from' (from' + len)).map fun field => (parseU32 field).getD (2 ^ 32 - 1)

def byteIs? (b : Bytes) (i : Nat) (c : UInt8) : Option Bool := b[i]?.map (· == c)

/-- `&&`: what follows a `false` is not looked at. -/
def allOf? : List (Option Bool) → Option Bool
  | [] => some true
  | x :: xs => x.bind fun x => if x then allOf? xs else some false

/-- `||`: what follows a `true` is not looked at. -/
def anyOf? : List (Option Bool) → Option Bool
  | [] => some false
  | x :: xs => x.bind fun x => if x then some true else anyOf? xs

/-- `while i < b.len() && b[i].is_ascii_digit()`. -/
def skipDigits? (b : Bytes) (i : Nat) : Option Nat :=
  if i < b.length then
    b[i]?.bind fun c => if isDigit c then skipDigits? b (i + 1) else some i
  else some i
termination_by b.length - i

def zone? (b : Bytes) (i : Nat) : Option Bool :=
  match b[i]? with
  | some 0x5A => some (i + 1 == b.length)
  | some c =>
    if c = 0x2B ∨ c = 0x2D then
      allOf? [some (b.length == i + 6), digits? b (i + 1) 2, byteIs? b (i + 3) 0x3A, digits? b (i + 4) 2]
    else some false
  | none => some false

def isRfc3339? (s : String) : Option Bool := do
  let b := utf8 s
  if b.length < 20 then some false else
  let date ← allOf? [digits? b 0 4, byteIs? b 4 0x2D, digits? b 5 2, byteIs? b 7 0x2D, digits? b 8 2]
  if !date then some false else
  let separator ← b[10]?
  if separator ≠ 0x54 then some false else
  let time ← allOf? [digits? b 11 2, byteIs? b 13 0x3A, digits? b 14 2, byteIs? b 16 0x3A, digits? b 17 2]
  if !time then some false else
  let outside ← anyOf? [(num? b 5 2).map fun n => decide ¬(1 ≤ n ∧ n ≤ 12),
    (num? b 8 2).map fun n => decide ¬(1 ≤ n ∧ n ≤ 31), (num? b 11 2).map fun n => decide (n > 23),
    (num? b 14 2).map fun n => decide (n > 59), (num? b 17 2).map fun n => decide (n > 60)]
  if outside then some false else
  if b[19]? = some 0x2E then
    let i ← skipDigits? b 20
    if i = 20 then some false else zone? b i
  else zone? b 19

example : isRfc3339? "2026-07-24T11:00:00é" = some false := by decide

/-! ## Where a character ends -/

theorem every_byte {P : UInt8 → Prop} (h : ∀ n : Fin 256, P (UInt8.ofNat n)) (b : UInt8) : P b := by
  have hb := h ⟨b.toNat, b.toNat_lt⟩
  rwa [show UInt8.ofNat ((⟨b.toNat, b.toNat_lt⟩ : Fin 256) : Nat) = b from UInt8.ofNat_toNat] at hb

theorem first_of_ascii {b : UInt8} (h : b < 0x80) : b &&& 0x80 = 0 :=
  every_byte (P := fun b => b < 0x80 → b &&& 0x80 = 0) (by decide +kernel) b h

theorem boundary_of_first {b : UInt8} (h : b.IsUTF8FirstByte) : (b < 0x80 || 0xC0 ≤ b) = true :=
  every_byte (P := fun b => b.IsUTF8FirstByte → (b < 0x80 || 0xC0 ≤ b) = true) (by decide +kernel) b h

theorem isCharBoundary_append (before bytes : Bytes) (i : Nat) :
    isCharBoundary (before ++ bytes) (before.length + i) = isCharBoundary bytes i := by
  unfold isCharBoundary
  rw [List.getElem?_append_right (by omega), Nat.add_sub_cancel_left, List.length_append]
  cases bytes[i]? with
  | none => simp
  | some b => rfl

theorem isCharBoundary_zero (chars : List Char) : isCharBoundary (chars.flatMap String.utf8EncodeChar) 0 = true := by
  cases chars with
  | nil => rfl
  | cons c chars =>
    have hlong : 0 < (String.utf8EncodeChar c).length := List.length_pos_of_ne_nil String.utf8EncodeChar_ne_nil
    unfold isCharBoundary
    rw [List.flatMap_cons, List.getElem?_append_left hlong, List.getElem?_eq_getElem hlong]
    exact boundary_of_first UInt8.isUTF8FirstByte_getElem_zero_utf8EncodeChar

/-- The first of several bytes has its upper bit set. -/
theorem not_first_of_ascii (b : UInt8) :
    (b &&& 0x1F ||| 0xC0) &&& 0x80 ≠ 0 ∧ (b &&& 0x0F ||| 0xE0) &&& 0x80 ≠ 0 ∧ (b &&& 0x07 ||| 0xF0) &&& 0x80 ≠ 0 :=
  every_byte (P := fun b => (b &&& 0x1F ||| 0xC0) &&& 0x80 ≠ 0 ∧ (b &&& 0x0F ||| 0xE0) &&& 0x80 ≠ 0 ∧
    (b &&& 0x07 ||| 0xF0) &&& 0x80 ≠ 0) (by decide +kernel) b

/-- An ASCII byte is a character of its own. -/
theorem length_of_ascii {c : Char} {i : Nat} {b : UInt8} (hb : (String.utf8EncodeChar c)[i]? = some b) (h : b < 0x80) :
    i = 0 ∧ (String.utf8EncodeChar c).length = 1 := by
  obtain ⟨hi, rfl⟩ := List.getElem?_eq_some_iff.mp hb
  have hfirst := first_of_ascii h
  have hzero : i = 0 := UInt8.isUTF8FirstByte_getElem_utf8EncodeChar.mp (Or.inl hfirst)
  subst hzero
  refine ⟨rfl, ?_⟩
  rw [String.length_utf8EncodeChar]
  rcases c.utf8Size_eq with hsize | hsize | hsize | hsize
  · exact hsize
  · simp only [String.utf8EncodeChar_eq_cons_cons hsize, List.getElem_cons_zero] at hfirst
    exact absurd hfirst (not_first_of_ascii _).1
  · simp only [String.utf8EncodeChar_eq_cons_cons_cons hsize, List.getElem_cons_zero] at hfirst
    exact absurd hfirst (not_first_of_ascii _).2.1
  · simp only [String.utf8EncodeChar_eq_cons_cons_cons_cons hsize, List.getElem_cons_zero] at hfirst
    exact absurd hfirst (not_first_of_ascii _).2.2

theorem boundary_after_ascii (text : String) {i : Nat} {b : UInt8} (hb : (utf8 text)[i]? = some b) (h : b < 0x80) :
    isCharBoundary (utf8 text) (i + 1) = true := by
  rw [← String.ofList_toList (s := text), utf8_ofList] at hb ⊢
  generalize text.toList = chars at hb ⊢
  induction chars generalizing i with
  | nil => simp at hb
  | cons c chars ih =>
    rw [List.flatMap_cons] at hb ⊢
    by_cases hi : i < (String.utf8EncodeChar c).length
    · rw [List.getElem?_append_left hi] at hb
      obtain ⟨rfl, hlength⟩ := length_of_ascii hb h
      rw [show 0 + 1 = (String.utf8EncodeChar c).length + 0 by omega, isCharBoundary_append, isCharBoundary_zero]
    · obtain ⟨j, rfl⟩ : ∃ j, i = (String.utf8EncodeChar c).length + j := ⟨i - (String.utf8EncodeChar c).length, by omega⟩
      rw [List.getElem?_append_right (by omega), Nat.add_sub_cancel_left] at hb
      rw [Nat.add_assoc, isCharBoundary_append]
      exact ih hb

/-! ## The parts of the shape -/

def dateShaped (b : Bytes) : Bool :=
  ((b.drop 0).take 4).all isDigit && b.getD 4 0 == 0x2D && ((b.drop 5).take 2).all isDigit && b.getD 7 0 == 0x2D &&
    ((b.drop 8).take 2).all isDigit

def timeShaped (b : Bytes) : Bool :=
  ((b.drop 11).take 2).all isDigit && b.getD 13 0 == 0x3A && ((b.drop 14).take 2).all isDigit && b.getD 16 0 == 0x3A &&
    ((b.drop 17).take 2).all isDigit

def numAt (b : Bytes) (from' len : Nat) : Nat := (parseU32 ((b.drop from').take len)).getD (2 ^ 32 - 1)

def outsideRange (b : Bytes) : Bool :=
  (¬(1 ≤ numAt b 5 2 ∧ numAt b 5 2 ≤ 12) || ¬(1 ≤ numAt b 8 2 ∧ numAt b 8 2 ≤ 31) || numAt b 11 2 > 23 ||
    numAt b 14 2 > 59 || numAt b 17 2 > 60)

def zoneShaped (b : Bytes) (i : Nat) : Bool :=
  match b[i]? with
  | some 0x5A => i + 1 == b.length
  | some c =>
    if c = 0x2B ∨ c = 0x2D then b.length == i + 6 && ((b.drop (i + 1)).take 2).all isDigit && b.getD (i + 3) 0 == 0x3A &&
      ((b.drop (i + 4)).take 2).all isDigit
    else false
  | none => false

/-- An optional fraction, then a zone. -/
def restShaped (b : Bytes) : Bool :=
  if b[19]? = some 0x2E then
    let fraction := ((b.drop 20).takeWhile isDigit).length
    fraction != 0 && zoneShaped b (20 + fraction)
  else zoneShaped b 19

theorem isRfc3339_eq (s : String) : isRfc3339 s = (20 ≤ (utf8 s).length && dateShaped (utf8 s) &&
    (utf8 s).getD 10 0 == 0x54 && timeShaped (utf8 s) && !outsideRange (utf8 s) && restShaped (utf8 s)) := by
  unfold isRfc3339
  generalize utf8 s = b
  dsimp only
  by_cases hlong : b.length < 20
  · rw [if_pos hlong, decide_eq_false (by omega : ¬20 ≤ b.length)]
    rfl
  rw [if_neg hlong, decide_eq_true (by omega : 20 ≤ b.length), Bool.true_and]
  change (if (!dateShaped b) = true then _ else if _ then _ else if (!timeShaped b) = true then _ else _) = _
  cases dateShaped b with
  | false => rfl
  | true =>
    by_cases hseparator : b.getD 10 0 = 0x54
    swap
    · rw [if_neg (by decide), if_pos hseparator, beq_eq_false_iff_ne.mpr hseparator]
      rfl
    rw [if_neg (by decide), if_neg (not_not.mpr hseparator), hseparator]
    cases timeShaped b with
    | false => rfl
    | true =>
      have hrange : (¬(1 ≤ numAt b 5 2 ∧ numAt b 5 2 ≤ 12) ∨ ¬(1 ≤ numAt b 8 2 ∧ numAt b 8 2 ≤ 31) ∨
          numAt b 11 2 > 23 ∨ numAt b 14 2 > 59 ∨ numAt b 17 2 > 60) ↔ outsideRange b = true := by
        simp only [outsideRange, Bool.or_eq_true, decide_eq_true_eq, or_assoc]
      rw [if_neg (by decide)]
      change (if ¬(1 ≤ numAt b 5 2 ∧ numAt b 5 2 ≤ 12) ∨ ¬(1 ≤ numAt b 8 2 ∧ numAt b 8 2 ≤ 31) ∨
          numAt b 11 2 > 23 ∨ numAt b 14 2 > 59 ∨ numAt b 17 2 > 60 then false else
        if b[19]? = some 0x2E ∧ (if b[19]? = some 0x2E then ((b.drop 20).takeWhile isDigit).length else 0) = 0 then false
        else zoneShaped b (if b[19]? = some 0x2E then
          20 + (if b[19]? = some 0x2E then ((b.drop 20).takeWhile isDigit).length else 0) else 19)) = _
      simp only [hrange, restShaped]
      cases outsideRange b with
      | true => rfl
      | false =>
        by_cases hdot : b[19]? = some 0x2E
        · simp only [hdot, if_true, true_and]
          cases ((b.drop 20).takeWhile isDigit).length <;> rfl
        · simp only [hdot, if_false, false_and]
          rfl

/-! ## Nothing is read outside the text -/

theorem digits?_eq {b : Bytes} {from' len : Nat} (h : from' + len ≤ b.length) :
    digits? b from' len = some (((b.drop from').take len).all isDigit) := by
  rw [digits?, field?, if_pos h, Option.map_some]

theorem byteIs?_eq {b : Bytes} {i : Nat} (h : i < b.length) (c : UInt8) : byteIs? b i c = some (b.getD i 0 == c) := by
  rw [byteIs?, List.getD_eq_getElem?_getD, List.getElem?_eq_getElem h]
  rfl

theorem num?_eq {b : Bytes} {from' len : Nat} (h : isCharBoundary b from' = true)
    (h' : isCharBoundary b (from' + len) = true) :
    num? b from' len = some ((parseU32 ((b.drop from').take len)).getD (2 ^ 32 - 1)) := by
  rw [num?, slice, if_pos ⟨by omega, h, h'⟩, Option.map_some, List.take_drop]

theorem allOf?_some (xs : List Bool) : allOf? (xs.map some) = some (xs.all id) := by
  induction xs with
  | nil => rfl
  | cons x xs ih =>
    rw [List.map_cons, allOf?, Option.bind_some, ih]
    cases x <;> rfl

theorem anyOf?_some (xs : List Bool) : anyOf? (xs.map some) = some (xs.any id) := by
  induction xs with
  | nil => rfl
  | cons x xs ih =>
    rw [List.map_cons, anyOf?, Option.bind_some, ih]
    cases x <;> rfl

/-- The loop ends, at the first byte that is no digit. -/
theorem skipDigits?_eq (b : Bytes) (i : Nat) :
    skipDigits? b i = some (i + ((b.drop i).takeWhile isDigit).length) := by
  induction i using skipDigits?.induct b with
  | case1 i hi ih =>
    rw [skipDigits?, if_pos hi, List.getElem?_eq_getElem hi, Option.bind_some, List.drop_eq_getElem_cons hi,
      List.takeWhile_cons]
    split
    · rename_i hdigit
      rw [ih, List.length_cons]
      congr 1
      omega
    · rfl
  | case2 i hi =>
    rw [skipDigits?, if_neg hi, List.drop_eq_nil_of_le (by omega)]
    rfl

/-- The bytes of a field of digits. -/
theorem digit_at {b : Bytes} {from' len j : Nat} (h : ((b.drop from').take len).all isDigit = true) (hj : j < len)
    (hlong : from' + len ≤ b.length) : ∃ c, b[from' + j]? = some c ∧ c < 0x80 := by
  have hin : j < ((b.drop from').take len).length := by
    rw [List.length_take, List.length_drop]
    omega
  have hdigit := List.all_eq_true.mp h _ (List.getElem_mem hin)
  refine ⟨_, ?_, ascii_of_digit hdigit⟩
  rw [List.getElem_take, List.getElem_drop]
  exact List.getElem?_eq_getElem (by omega)

theorem boundary_of_digits {b : Bytes} {from' len : Nat} (h : ((b.drop from').take len).all isDigit = true)
    (hlen : 0 < len) (hlong : from' + len ≤ b.length) : isCharBoundary b from' = true := by
  obtain ⟨c, hc, hascii⟩ := digit_at h hlen hlong
  unfold isCharBoundary
  rw [show b[from']? = some c from hc]
  simp [hascii]

theorem boundary_of_byte {b : Bytes} {i : Nat} {c : UInt8} (hi : i < b.length) (h : b.getD i 0 = c) (hc : c < 0x80) :
    isCharBoundary b i = true := by
  refine isCharBoundary_of_ascii hi ?_
  rw [List.getD_eq_getElem?_getD, List.getElem?_eq_getElem hi, Option.getD_some] at h
  rw [h]
  exact hc

theorem zone?_eq (b : Bytes) (i : Nat) : zone? b i = some (zoneShaped b i) := by
  unfold zone? zoneShaped
  split
  · rfl
  · split
    · cases hlength : b.length == i + 6 with
      | false => rfl
      | true =>
        -- the offset is as long as it has to be
        rw [beq_iff_eq] at hlength
        rw [digits?_eq (by omega), digits?_eq (by omega), byteIs?_eq (by omega)]
        exact (allOf?_some [true, _, _, _]).trans (by simp [Bool.and_assoc])
    · rfl
  · rfl

/-- The loop over the fraction, and the zone behind it. -/
theorem rest?_eq (b : Bytes) : (if b[19]? = some 0x2E then
    (skipDigits? b 20).bind fun i => if i = 20 then some false else zone? b i else zone? b 19) =
      some (restShaped b) := by
  rw [skipDigits?_eq, Option.bind_some, zone?_eq, zone?_eq]
  unfold restShaped
  by_cases hdot : b[19]? = some 0x2E
  · rw [if_pos hdot, if_pos hdot]
    cases ((b.drop 20).takeWhile isDigit).length with
    | zero => rfl
    | succ n =>
      rw [if_neg (by omega)]
      rfl
  · rw [if_neg hdot, if_neg hdot]

theorem allOf?_five (a b c d e : Bool) :
    allOf? [some a, some b, some c, some d, some e] = some (a && b && c && d && e) :=
  (allOf?_some [a, b, c, d, e]).trans (by simp [Bool.and_assoc])

theorem anyOf?_five (a b c d e : Bool) :
    anyOf? [some a, some b, some c, some d, some e] = some (a || b || c || d || e) :=
  (anyOf?_some [a, b, c, d, e]).trans (by simp [Bool.or_assoc])

/-- Every field that is sliced stands between two ends of characters. -/
theorem num?_of_shaped {text : String} (hlong : 20 ≤ (utf8 text).length) (hdate : dateShaped (utf8 text) = true)
    (hseparator : (utf8 text).getD 10 0 = 0x54) (htime : timeShaped (utf8 text) = true) :
    ∀ field ∈ [5, 8, 11, 14, 17], num? (utf8 text) field 2 = some (numAt (utf8 text) field 2) := by
  have hafter := @boundary_after_ascii text
  generalize utf8 text = b at *
  simp only [dateShaped, timeShaped, Bool.and_eq_true, beq_iff_eq] at hdate htime
  obtain ⟨⟨⟨-, hmonth⟩, h7⟩, hday⟩ := hdate
  obtain ⟨⟨⟨⟨hhour, h13⟩, hminute⟩, h16⟩, hsecond⟩ := htime
  obtain ⟨last, hlast, hascii⟩ := digit_at hsecond (show 1 < 2 by decide) (by omega)
  have hend : isCharBoundary b 19 = true := hafter hlast hascii
  simp only [List.mem_cons, List.not_mem_nil, or_false, forall_eq_or_imp, forall_eq]
  exact ⟨num?_eq (boundary_of_digits hmonth (by decide) (by omega)) (boundary_of_byte (by omega) h7 (by decide)),
    num?_eq (boundary_of_digits hday (by decide) (by omega)) (boundary_of_byte (by omega) hseparator (by decide)),
    num?_eq (boundary_of_digits hhour (by decide) (by omega)) (boundary_of_byte (by omega) h13 (by decide)),
    num?_eq (boundary_of_digits hminute (by decide) (by omega)) (boundary_of_byte (by omega) h16 (by decide)),
    num?_eq (boundary_of_digits hsecond (by decide) (by omega)) hend⟩

theorem isRfc3339?_eq (s : String) : isRfc3339? s = some (isRfc3339 s) := by
  have hnum := @num?_of_shaped s
  unfold isRfc3339?
  rw [isRfc3339_eq]
  generalize utf8 s = b at *
  dsimp only
  by_cases hshort : b.length < 20
  · rw [if_pos hshort, decide_eq_false (by omega : ¬20 ≤ b.length)]
    rfl
  have hlong : 20 ≤ b.length := by omega
  rw [if_neg hshort, decide_eq_true hlong]
  rw [digits?_eq (by omega), digits?_eq (by omega), digits?_eq (by omega), byteIs?_eq (by omega), byteIs?_eq (by omega),
    digits?_eq (by omega), digits?_eq (by omega), digits?_eq (by omega), byteIs?_eq (by omega), byteIs?_eq (by omega),
    allOf?_five, allOf?_five]
  change (if (!dateShaped b) = true then some false else b[10]?.bind fun separator =>
    if separator ≠ 0x54 then some false else if (!timeShaped b) = true then some false else _) = _
  cases hdate : dateShaped b with
  | false => rfl
  | true =>
    have hten : b[10]? = some (b.getD 10 0) := by
      rw [List.getD_eq_getElem?_getD, List.getElem?_eq_getElem (by omega)]
      rfl
    rw [if_neg (by decide), hten, Option.bind_some]
    by_cases hseparator : b.getD 10 0 = 0x54
    swap
    · rw [if_pos hseparator, beq_eq_false_iff_ne.mpr hseparator]
      rfl
    rw [if_neg (not_not.mpr hseparator), hseparator]
    cases htime : timeShaped b with
    | false => rfl
    | true =>
      have hfields := hnum hlong hdate hseparator htime
      simp only [List.mem_cons, List.not_mem_nil, or_false, forall_eq_or_imp, forall_eq] at hfields
      obtain ⟨hmonth, hday, hhour, hminute, hsecond⟩ := hfields
      rw [if_neg (by decide), hmonth, hday, hhour, hminute, hsecond]
      simp only [Option.map_some]
      rw [anyOf?_five]
      change (if outsideRange b = true then some false else if b[19]? = some 0x2E then
        (skipDigits? b 20).bind fun i => if i = 20 then some false else zone? b i else zone? b 19) = _
      cases outsideRange b with
      | true => rfl
      | false =>
        rw [if_neg (by decide), rest?_eq]
        rfl

/-! ## What is let through can be read -/

theorem digits_of_check {b : Bytes} {from' len : Nat} (h : ((b.drop from').take len).all isDigit = true)
    (hlong : from' + len ≤ b.length) : Digits len ((b.take (from' + len)).drop from') := by
  rw [← List.take_drop]
  refine ⟨?_, fun c hc => List.all_eq_true.mp h c hc⟩
  rw [List.length_take, List.length_drop]
  omega

/-- A field of digits is the same number for the parser and for the check. -/
theorem number_of_digits {b : Bytes} {from' len : Nat} (hlen : 0 < len ∧ len ≤ 4)
    (h : ((b.drop from').take len).all isDigit = true) (hlong : from' + len ≤ b.length) :
    ∃ n : Int, checked.Number len ((b.take (from' + len)).drop from') n ∧ numAt b from' len = n := by
  have hdigits := digits_of_check h hlong
  have hdocumented : documented.Number len ((b.take (from' + len)).drop from') _ := ⟨hdigits, rfl⟩
  refine ⟨_, ((number_iff hlen _ _).mp hdocumented).1, ?_⟩
  rw [numAt, List.take_drop, parseU32_of_number hlen hdocumented]
  rfl

theorem zone_of_shaped {b : Bytes} {i : Nat} (h : zoneShaped b i = true) :
    ∃ (zone : Zone) (offset : Int), zone.bytes = b.drop i ∧ zone.Is checked offset := by
  unfold zoneShaped at h
  split at h
  · rename_i hbyte
    obtain ⟨hlong, hbyte⟩ := List.getElem?_eq_some_iff.mp hbyte
    rw [beq_iff_eq] at h
    refine ⟨.utc 0x5A, 0, ?_, .utc (Or.inl rfl)⟩
    rw [List.drop_eq_getElem_cons hlong, hbyte, List.drop_eq_nil_of_le (by omega)]
    rfl
  · rename_i c hbyte
    obtain ⟨hlong, hbyte⟩ := List.getElem?_eq_some_iff.mp hbyte
    split at h
    · rename_i hsign
      simp only [Bool.and_eq_true, beq_iff_eq] at h
      obtain ⟨⟨⟨hlength, hhours⟩, hcolon⟩, hminutes⟩ := h
      obtain ⟨hours, hhours, -⟩ := number_of_digits (by decide) hhours (by omega)
      obtain ⟨minutes, hminutes, -⟩ := number_of_digits (by decide) hminutes (by omega)
      refine ⟨_, _, ?_, .offset hsign hhours hminutes (Or.inl (by decide : (0x3A : UInt8) < 0x80)) trivial⟩
      have hlast : (b.take (i + 4 + 2)).drop (i + 4) = b.drop (i + 4) := by
        rw [List.take_of_length_le (by omega)]
      have hfields : b.drop (i + 1) = (b.take (i + 1 + 2)).drop (i + 1) ++ 0x3A :: b.drop (i + 4) :=
        hcolon ▸ drop_cut (by omega) (by omega)
      rw [Zone.bytes, hlast, ← hfields, List.drop_eq_getElem_cons hlong, hbyte]
    · cases h
  · cases h

theorem rest_of_shaped {b : Bytes} (h : restShaped b = true) :
    ∃ (fraction : Option Bytes) (zone : Zone) (offset : Int), fraction.elim [] (0x2E :: ·) ++ zone.bytes = b.drop 19 ∧
      (∀ digits, fraction = some digits → checked.Fraction digits) ∧ zone.Is checked offset := by
  unfold restShaped at h
  split at h
  · rename_i hdot
    rw [Bool.and_eq_true] at h
    obtain ⟨zone, offset, hzone, hchecked⟩ := zone_of_shaped h.2
    refine ⟨some ((b.drop 20).takeWhile isDigit), zone, offset, ?_, ?_, hchecked⟩
    · obtain ⟨hlong, hbyte⟩ := List.getElem?_eq_some_iff.mp hdot
      rw [hzone, Option.elim_some, List.cons_append, ← List.drop_drop,
        ← List.prefix_append_drop (List.takeWhile_prefix isDigit), List.drop_eq_getElem_cons hlong, hbyte]
    · rintro digits hdigits c hc
      cases hdigits
      exact List.all_eq_true.mp List.all_takeWhile c hc
  · obtain ⟨zone, offset, hzone, hchecked⟩ := zone_of_shaped h
    exact ⟨none, zone, offset, hzone, by simp, hchecked⟩

theorem checked_of_isRfc3339 {text : String} (h : isRfc3339 text = true) :
    ∃ w f, Written.bytes w = utf8 text ∧ w.Is checked f := by
  rw [isRfc3339_eq] at h
  generalize utf8 text = b at *
  simp only [Bool.and_eq_true, decide_eq_true_eq, beq_iff_eq, dateShaped, timeShaped, Bool.not_eq_true', outsideRange,
    Bool.or_eq_false_iff, decide_eq_false_iff_not] at h
  obtain ⟨⟨⟨⟨⟨hlong, hdate⟩, hseparator⟩, htime⟩, hrange⟩, hrest⟩ := h
  obtain ⟨⟨⟨⟨hyear, h4⟩, hmonth⟩, h7⟩, hday⟩ := hdate
  obtain ⟨⟨⟨⟨hhour, h13⟩, hminute⟩, h16⟩, hsecond⟩ := htime
  obtain ⟨⟨⟨⟨hmonthRange, hdayRange⟩, hhourRange⟩, hminuteRange⟩, hsecondRange⟩ := hrange
  obtain ⟨fraction, zone, offset, hsplit, hfraction, hzone⟩ := rest_of_shaped hrest
  obtain ⟨year, hyear, -⟩ := number_of_digits (by decide) hyear (by omega)
  obtain ⟨month, hmonth, hmonthValue⟩ := number_of_digits (by decide) hmonth (by omega)
  obtain ⟨day, hday, hdayValue⟩ := number_of_digits (by decide) hday (by omega)
  obtain ⟨hour, hhour, hhourValue⟩ := number_of_digits (by decide) hhour (by omega)
  obtain ⟨minute, hminute, hminuteValue⟩ := number_of_digits (by decide) hminute (by omega)
  obtain ⟨second, hsecond, hsecondValue⟩ := number_of_digits (by decide) hsecond (by omega)
  refine ⟨_, ⟨year, month, day, hour, minute, second, offset⟩, written_of_bytes hlong hsplit h4 h7 h13 h16,
    hyear, hmonth, hday, hhour, hminute, hsecond, Or.inl hseparator, ?_, ?_, ?_, hfraction, hzone⟩
  · show 1 ≤ month ∧ month ≤ 12
    omega
  · show 1 ≤ day ∧ day ≤ 31
    omega
  · show hour ≤ 23 ∧ minute ≤ 59 ∧ second ≤ 60
    omega

/-- The check computes for every text, and what it lets through the parser reads. -/
theorem shape_is_readable (s : String) :
    isRfc3339? s = some (isRfc3339 s) ∧ (isRfc3339 s = true → ∃ t, parse s = some t) := by
  refine ⟨isRfc3339?_eq s, fun h => ?_⟩
  obtain ⟨w, f, hbytes, hchecked⟩ := checked_of_isRfc3339 h
  exact ⟨f.instant, parse_of_checked hbytes hchecked⟩

end Beacon.Rfc3339
