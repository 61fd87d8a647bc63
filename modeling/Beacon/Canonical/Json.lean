/-
  Beacon.Canonical.Json — JSON trees and their compact text (`serde_json::to_vec`), and that
  the text can be read back in one way only.

  A number is an unsigned integer, a negative one or a double. Only a double can be written
  in more than one way, so how it is written is a parameter.
  - `readChar_escape`: a character is read back from its escape, whatever follows.
  - `write_readAt`: two trees without a double that are written alike are the same, and so
    is what follows them, unless it begins with a digit.
-/

import Mathlib.Data.String.Basic
import Beacon.Lib.Code

namespace Beacon

open Lib.Code

/-! ## Trees -/

/-- `Number`, as `N` keeps it; `float` holds the bits of an `f64`. -/
inductive Json.Number where
  | posInt (n : UInt64)
  | negInt (i : Int64) (negative : i < 0)
  | float (bits : UInt64)
  deriving DecidableEq

inductive Json where
  | null
  | bool (b : Bool)
  | number (n : Json.Number)
  | string (s : String)
  | array (items : List Json)
  | object (fields : List (String × Json))

namespace Json

namespace Number

def asI64 : Number → Option Int64
  | posInt n => if n.toNat < 2 ^ 63 then some (Int64.ofNat n.toNat) else none
  | negInt i _ => some i
  | float _ => none

def asU64 : Number → Option UInt64
  | posInt n => some n
  | negInt _ _ => none
  | float _ => none

end Number

/-- To prove something of every tree, prove it of each constructor over trees it holds of. -/
@[elab_as_elim, induction_eliminator]
theorem induct {P : Json → Prop} (null : P .null) (bool : ∀ b, P (.bool b)) (number : ∀ n, P (.number n))
    (string : ∀ s, P (.string s)) (array : ∀ items, (∀ item ∈ items, P item) → P (.array items))
    (object : ∀ fields, (∀ field ∈ fields, P field.2) → P (.object fields)) (v : Json) : P v := by
  refine @Json.rec P (fun items => ∀ item ∈ items, P item) (fun fields => ∀ field ∈ fields, P field.2)
    (fun field => P field.2) null bool number string array object ?_ ?_ ?_ ?_ ?_ v
  · exact fun _ h => absurd h List.not_mem_nil
  · exact fun _ _ hitem hitems _ h => (List.mem_cons.mp h).elim (fun he => he ▸ hitem) (hitems _)
  · exact fun _ h => absurd h List.not_mem_nil
  · exact fun _ _ hfield hfields _ h => (List.mem_cons.mp h).elim (fun he => he ▸ hfield) (hfields _)
  · exact fun _ _ h => h

/-! ## The compact text -/

/-- `format_escaped_str_contents`: the short escapes, `\\u00` and two hexadecimal digits for the
    other control characters, and every other character as it is. -/
def escape (c : Char) : List Char :=
  if c = '\x22' then ['\x5c', '\x22']
  else if c = '\x5c' then ['\x5c', '\x5c']
  else if c = '\x08' then ['\x5c', 'b']
  else if c = '\x0c' then ['\x5c', 'f']
  else if c = '\x0a' then ['\x5c', 'n']
  else if c = '\x0d' then ['\x5c', 'r']
  else if c = '\x09' then ['\x5c', 't']
  else if c.toNat < 32 then ['\x5c', 'u', '0', '0', Nat.digitChar (c.toNat / 16), Nat.digitChar (c.toNat % 16)]
  else [c]

def writeString (s : String) : List Char := '\x22' :: (s.toList.flatMap escape ++ ['\x22'])

section write

variable (ryu : UInt64 → List Char)

/-- The digits of an integer; `ryu` writes a double. -/
def Number.write : Number → List Char
  | posInt n => (toString n.toNat).toList
  | negInt i _ => '-' :: (toString i.toInt.natAbs).toList
  | float bits => ryu bits

mutual

def write : Json → List Char
  | .null => ['n', 'u', 'l', 'l']
  | .bool true => ['t', 'r', 'u', 'e']
  | .bool false => ['f', 'a', 'l', 's', 'e']
  | .number n => n.write ryu
  | .string s => writeString s
  | .array items => '[' :: writeItems true items
  | .object fields => '\x7b' :: writeFields true fields

/-- The items from one on, with a comma before each but the first. -/
def writeItems (first : Bool) : List Json → List Char
  | [] => [']']
  | item :: items => (if first then [] else [',']) ++ (write item ++ writeItems false items)

def writeFields (first : Bool) : List (String × Json) → List Char
  | [] => ['\x7d']
  | (key, value) :: fields =>
    (if first then [] else [',']) ++ (writeString key ++ ':' :: (write value ++ writeFields false fields))

end

end write

/-! ## Reading it back -/

/-- The tree holds a double, at some depth. -/
inductive HasFloat : Json → Prop
  | number (bits : UInt64) : HasFloat (.number (.float bits))
  | item {items : List Json} {item : Json} : item ∈ items → HasFloat item → HasFloat (.array items)
  | field {fields : List (String × Json)} {field : String × Json} : field ∈ fields → HasFloat field.2 →
      HasFloat (.object fields)

/-! ### Strings -/

def hexValue (c : Char) : Nat := if c.isDigit then c.toNat - 48 else c.toNat - 87

def readEscape : List Char → Option (Char × List Char)
  | 'u' :: '0' :: '0' :: x :: y :: rest => some (Char.ofNat (hexValue x * 16 + hexValue y), rest)
  | 'b' :: rest => some ('\x08', rest)
  | 'f' :: rest => some ('\x0c', rest)
  | 'n' :: rest => some ('\x0a', rest)
  | 'r' :: rest => some ('\x0d', rest)
  | 't' :: rest => some ('\x09', rest)
  | c :: rest => some (c, rest)
  | [] => none

def readChar : List Char → Option (Char × List Char)
  | [] => none
  | c :: rest => if c = '\x5c' then readEscape rest else some (c, rest)

theorem hexValue_digitChar : ∀ n < 16, hexValue (Nat.digitChar n) = n := by decide

theorem readChar_escape (c : Char) (rest : List Char) : readChar (escape c ++ rest) = some (c, rest) := by
  unfold escape
  split
  · rename_i h; subst h; rfl
  split
  · rename_i h; subst h; rfl
  split
  · rename_i h; subst h; rfl
  split
  · rename_i h; subst h; rfl
  split
  · rename_i h; subst h; rfl
  split
  · rename_i h; subst h; rfl
  split
  · rename_i h; subst h; rfl
  split
  · rename_i hlow
    have hhigh := hexValue_digitChar (c.toNat / 16) (by omega)
    have hlast := hexValue_digitChar (c.toNat % 16) (by omega)
    have hsum : c.toNat / 16 * 16 + c.toNat % 16 = c.toNat := Nat.div_add_mod' c.toNat 16
    show some (Char.ofNat (hexValue _ * 16 + hexValue _), rest) = _
    rw [hhigh, hlast, hsum, Char.ofNat_toNat]
  · rename_i hslash _ _ _ _ _ _
    exact if_neg hslash

theorem escape_beginsOther : BeginsOther (fun _ => True) escape '\x22' := by
  intro c _
  unfold escape
  split
  · exact ⟨_, _, rfl, by decide⟩
  split
  · exact ⟨_, _, rfl, by decide⟩
  split
  · exact ⟨_, _, rfl, by decide⟩
  split
  · exact ⟨_, _, rfl, by decide⟩
  split
  · exact ⟨_, _, rfl, by decide⟩
  split
  · exact ⟨_, _, rfl, by decide⟩
  split
  · exact ⟨_, _, rfl, by decide⟩
  split
  · exact ⟨_, _, rfl, by decide⟩
  · rename_i hquote _ _ _ _ _ _ _
    exact ⟨_, _, rfl, hquote⟩

theorem writeString_readAt (s : String) : ReadAt (fun _ => True) (fun _ => True) writeString s := by
  intro s' rest rest' _ _ _ h
  have hcontents : s.toList.flatMap escape ++ '\x22' :: rest = s'.toList.flatMap escape ++ '\x22' :: rest' := by
    simpa [writeString] using h
  obtain ⟨hchars, hrest⟩ := terminated_ends (D := fun _ => True) (R := fun _ => True) escape_beginsOther
    (fun _ _ => trivial) (fun c _ => ⟨trivial, readAt_of_reader (fun c rest _ _ => readChar_escape c rest) trivial⟩)
    (fun _ _ => trivial) hcontents
  exact ⟨String.toList_inj.mp hchars, hrest⟩

/-! ### Numbers -/

theorem digits_isDigit (n : Nat) : ∀ c ∈ (toString n).toList, c.isDigit = true := by
  intro c hc
  rw [Nat.toString_eq_repr, Nat.toList_repr] at hc
  exact Nat.isDigit_of_mem_toDigits (by decide) (by decide) hc

theorem digits_inj {n m : Nat} (h : (toString n).toList = (toString m).toList) : n = m := by
  simp only [Nat.toString_eq_repr, Nat.toList_repr] at h
  have hvalue := congrArg (fun digits => Nat.ofDigitChars 10 digits 0) h
  simpa only [Nat.ofDigitChars_ten_toDigits] using hvalue

theorem negInt_inj {i j : Int64} (hi : i < 0) (hj : j < 0) (h : i.toInt.natAbs = j.toInt.natAbs) : i = j := by
  have hi : i.toInt < 0 := Int64.lt_iff_toInt_lt.mp hi
  have hj : j.toInt < 0 := Int64.lt_iff_toInt_lt.mp hj
  exact Int64.toInt_inj.mp (by omega)

theorem digits_end {n m : Nat} {rest rest' : List Char} (hrest : BeginsOutside Char.isDigit rest)
    (hrest' : BeginsOutside Char.isDigit rest')
    (h : (toString n).toList ++ rest = (toString m).toList ++ rest') : n = m ∧ rest = rest' := by
  obtain ⟨hdigits, hsame⟩ := run_ends (digits_isDigit n) (digits_isDigit m) hrest hrest' h
  exact ⟨digits_inj hdigits, hsame⟩

/-! ### Trees -/

section read

variable {ryu : UInt64 → List Char}

/-- The character a tree's text begins with; `none` for a digit. -/
def opening : Json → Option Char
  | .null => some 'n'
  | .bool b => some (if b then 't' else 'f')
  | .number (.posInt _) => none
  | .number (.negInt _ _) => some '-'
  | .number (.float _) => none
  | .string _ => some '\x22'
  | .array _ => some '['
  | .object _ => some '\x7b'

/-- `c` is the opening character `o` stands for. -/
def Opens (c : Char) : Option Char → Prop
  | some o => c = o ∧ c.isDigit = false
  | none => c.isDigit = true

variable (ryu) in
theorem write_opens {v : Json} (hv : ¬HasFloat v) : ∃ c w, write ryu v = c :: w ∧ Opens c (opening v) := by
  cases v with
  | null => exact ⟨_, _, by rw [write], rfl, rfl⟩
  | bool b =>
    cases b with
    | false => exact ⟨'f', _, by rw [write], rfl, rfl⟩
    | true => exact ⟨'t', _, by rw [write], rfl, rfl⟩
  | number n =>
    cases n with
    | posInt n =>
      obtain ⟨c, digits, hdigits⟩ := List.exists_cons_of_ne_nil (show (toString n.toNat).toList ≠ [] by simp)
      exact ⟨c, digits, by rw [write, Number.write, hdigits],
        digits_isDigit n.toNat c (hdigits ▸ List.mem_cons_self)⟩
    | negInt i _ => exact ⟨_, _, by rw [write, Number.write], rfl, rfl⟩
    | float bits => exact absurd (HasFloat.number bits) hv
  | string s => exact ⟨_, _, by rw [write, writeString], rfl, rfl⟩
  | array items => exact ⟨_, _, by rw [write], rfl, rfl⟩
  | object fields => exact ⟨_, _, by rw [write], rfl, rfl⟩

theorem Opens.unique {c : Char} {o o' : Option Char} (h : Opens c o) (h' : Opens c o') : o = o' := by
  cases o with
  | none =>
    cases o' with
    | none => rfl
    | some d => exact absurd (h.symm.trans h'.2) (by decide)
  | some d =>
    cases o' with
    | none => exact absurd (h'.symm.trans h.2) (by decide)
    | some d' => rw [← h.1, ← h'.1]

/-- Two trees of one kind; literals of one kind are equal. -/
inductive Alike : Json → Json → Prop
  | null : Alike .null .null
  | bool (b : Bool) : Alike (.bool b) (.bool b)
  | posInt (n m : UInt64) : Alike (.number (.posInt n)) (.number (.posInt m))
  | negInt {i j : Int64} (hi : i < 0) (hj : j < 0) : Alike (.number (.negInt i hi)) (.number (.negInt j hj))
  | string (s s' : String) : Alike (.string s) (.string s')
  | array (items items' : List Json) : Alike (.array items) (.array items')
  | object (fields fields' : List (String × Json)) : Alike (.object fields) (.object fields')

theorem alike_of_opening {v w : Json} (hv : ¬HasFloat v) (hw : ¬HasFloat w) (h : opening v = opening w) :
    Alike v w := by
  cases v with
  | null =>
    cases w with
    | null => exact .null
    | bool b => cases b <;> cases h
    | number n => cases n <;> cases h
    | _ => cases h
  | bool b =>
    cases w with
    | bool b' => cases b <;> cases b' <;> first | exact .bool _ | cases h
    | number n => cases b <;> cases n <;> cases h
    | _ => cases b <;> cases h
  | number n =>
    cases n with
    | posInt n =>
      cases w with
      | number m =>
        cases m with
        | posInt m => exact .posInt n m
        | negInt j hj => cases h
        | float bits => exact absurd (HasFloat.number bits) hw
      | _ => cases h
    | negInt i hi =>
      cases w with
      | bool b => cases b <;> cases h
      | number m =>
        cases m with
        | posInt m => cases h
        | negInt j hj => exact .negInt hi hj
        | float bits => exact absurd (HasFloat.number bits) hw
      | _ => cases h
    | float bits => exact absurd (HasFloat.number bits) hv
  | string s =>
    cases w with
    | string s' => exact .string s s'
    | bool b => cases b <;> cases h
    | number n => cases n <;> cases h
    | _ => cases h
  | array items =>
    cases w with
    | array items' => exact .array items items'
    | bool b => cases b <;> cases h
    | number n => cases n <;> cases h
    | _ => cases h
  | object fields =>
    cases w with
    | object fields' => exact .object fields fields'
    | bool b => cases b <;> cases h
    | number n => cases n <;> cases h
    | _ => cases h

/-- Texts that agree come of trees that open alike. -/
theorem alike_of_write {v w : Json} (hv : ¬HasFloat v) (hw : ¬HasFloat w) {rest rest' : List Char}
    (h : write ryu v ++ rest = write ryu w ++ rest') : Alike v w := by
  obtain ⟨c, text, hc, hopens⟩ := write_opens ryu hv
  obtain ⟨c', text', hc', hopens'⟩ := write_opens ryu hw
  rw [hc, hc'] at h
  obtain rfl : c = c' := (List.cons.inj h).1
  exact alike_of_opening hv hw (hopens.unique hopens')

theorem write_beginsOther {close : Char} (hclose : ∀ v, ¬HasFloat v → opening v ≠ some close)
    (hdigit : close.isDigit = false) : BeginsOther (¬HasFloat ·) (write ryu) close := by
  intro v hv
  obtain ⟨c, text, hc, hopens⟩ := write_opens ryu hv
  refine ⟨c, text, hc, ?_⟩
  rintro rfl
  cases ho : opening v with
  | none =>
    rw [ho] at hopens
    exact absurd (hopens.symm.trans hdigit) (by decide)
  | some o =>
    rw [ho] at hopens
    exact hclose v hv (hopens.1 ▸ ho)

theorem opening_ne_bracket (v : Json) : opening v ≠ some ']' := by
  cases v with
  | bool b => cases b <;> decide
  | number n => cases n <;> simp [opening]
  | _ => simp [opening]

/-- A key, a colon and the value. -/
def writeField (ryu : UInt64 → List Char) (field : String × Json) : List Char :=
  writeString field.1 ++ ':' :: write ryu field.2

theorem writeItems_eq (items : List Json) :
    writeItems ryu false items = items.flatMap (fun item => ',' :: write ryu item) ++ [']'] ∧
      writeItems ryu true items = separated ',' ']' (write ryu) items := by
  induction items with
  | nil => exact ⟨by rw [writeItems]; rfl, by rw [writeItems, separated]⟩
  | cons item items ih => simp [writeItems, separated, ih.1]

theorem writeFields_eq (fields : List (String × Json)) :
    writeFields ryu false fields = fields.flatMap (fun field => ',' :: writeField ryu field) ++ ['\x7d'] ∧
      writeFields ryu true fields = separated ',' '\x7d' (writeField ryu) fields := by
  induction fields with
  | nil => exact ⟨by rw [writeFields]; rfl, by rw [writeFields, separated]⟩
  | cons field fields ih => simp [writeFields, writeField, separated, ih.1]

theorem writeField_readAt {field : String × Json}
    (h : ReadAt (¬HasFloat ·) (BeginsOutside Char.isDigit) (write ryu) field.2) :
    ReadAt (fun field => ¬HasFloat field.2) (BeginsOutside Char.isDigit) (writeField ryu) field := by
  rintro ⟨key', value'⟩ rest rest' hvalue' hrest hrest' heq
  simp only [writeField, List.append_assoc, List.cons_append] at heq
  obtain ⟨hkey, htail⟩ := writeString_readAt _ _ _ _ trivial trivial trivial heq
  obtain ⟨hvalue, hsame⟩ := h _ _ _ hvalue' hrest hrest' (List.cons.inj htail).2
  exact ⟨Prod.ext hkey hvalue, hsame⟩

theorem write_readAt (v : Json) (hv : ¬HasFloat v) :
    ReadAt (¬HasFloat ·) (BeginsOutside Char.isDigit) (write ryu) v := by
  have hrest : ∀ close : Char, close.isDigit = false → ∀ rest : List Char,
      BeginsOutside Char.isDigit (',' :: rest) ∧ BeginsOutside Char.isDigit (close :: rest) := by
    intro close hclose rest
    exact ⟨fun c hc => by cases hc; rfl, fun c hc => by cases hc; exact hclose⟩
  induction v with
  | null =>
    intro w rest rest' hw _ _ h
    cases alike_of_write hv hw h
    exact ⟨rfl, List.append_cancel_left h⟩
  | bool b =>
    intro w rest rest' hw _ _ h
    cases alike_of_write hv hw h
    exact ⟨rfl, List.append_cancel_left h⟩
  | number n =>
    intro w rest rest' hw hr hr' h
    cases alike_of_write hv hw h with
    | posInt n m =>
      simp only [write, Number.write] at h
      obtain ⟨hn, hsame⟩ := digits_end hr hr' h
      exact ⟨by rw [UInt64.toNat_inj.mp hn], hsame⟩
    | negInt hi hj =>
      simp only [write, Number.write, List.cons_append] at h
      obtain ⟨hn, hsame⟩ := digits_end hr hr' (List.cons.inj h).2
      obtain rfl := negInt_inj hi hj hn
      exact ⟨rfl, hsame⟩
  | string s =>
    intro w rest rest' hw _ _ h
    cases alike_of_write hv hw h
    simp only [write] at h
    obtain ⟨rfl, hsame⟩ := writeString_readAt _ _ _ _ trivial trivial trivial h
    exact ⟨rfl, hsame⟩
  | array items ih =>
    intro w rest rest' hw _ _ h
    cases alike_of_write hv hw h
    simp only [write, List.cons_append, (writeItems_eq _).2] at h
    have hitems : ∀ item ∈ items, ¬HasFloat item := fun item hitem hfloat => hv (HasFloat.item hitem hfloat)
    obtain ⟨rfl, hsame⟩ := separated_ends (by decide)
      (write_beginsOther (fun v _ => opening_ne_bracket v) rfl) (hrest ']' rfl)
      (fun item hitem => ⟨hitems item hitem, ih item hitem (hitems item hitem)⟩)
      (fun item hitem hfloat => hw (HasFloat.item hitem hfloat)) (List.cons.inj h).2
    exact ⟨rfl, hsame⟩
  | object fields ih =>
    intro w rest rest' hw _ _ h
    cases alike_of_write hv hw h
    simp only [write, List.cons_append, (writeFields_eq _).2] at h
    have hfields : ∀ field ∈ fields, ¬HasFloat field.2 :=
      fun field hfield hfloat => hv (HasFloat.field hfield hfloat)
    obtain ⟨rfl, hsame⟩ := separated_ends (by decide)
      (fun field _ => ⟨'\x22', _, rfl, by decide⟩) (hrest '\x7d' rfl)
      (fun field hfield => ⟨hfields field hfield, writeField_readAt (ih field hfield (hfields field hfield))⟩)
      (fun field hfield hfloat => hw (HasFloat.field hfield hfloat)) (List.cons.inj h).2
    exact ⟨rfl, hsame⟩

end read

end Json

end Beacon
