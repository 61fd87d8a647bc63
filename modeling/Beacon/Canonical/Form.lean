/-
  Beacon.Canonical.Form — how values are written as JSON (`derive(Serialize)` over
  `serde_json`), so that they can be told apart again.

  A form writes the values of a type as trees without a double, two values as one tree only
  if they are equal. Forms are put together as types are: lists, options, maps, and records
  by their fields.
  - `text_inj`: values that fit and have one text are one value.
-/

import Mathlib.Data.Vector.Basic
import Std.Data.ExtTreeMap.Lemmas
import Beacon.Canonical.Encoding

namespace Beacon.Json

/-- How the values of a type are written. A value fits if the written type can hold it. -/
structure Form (α : Type) where
  write : α → Json
  Fits : α → Prop
  noFloat : ∀ a, ¬HasFloat (write a)
  inj : ∀ {a b}, Fits a → Fits b → write a = write b → a = b

namespace Form

variable {α β : Type}

theorem not_hasFloat_array {items : List Json} (h : ∀ item ∈ items, ¬HasFloat item) : ¬HasFloat (.array items) := by
  intro hfloat
  cases hfloat with
  | item hitem hf => exact h _ hitem hf

theorem not_hasFloat_object {fields : List (String × Json)} (h : ∀ field ∈ fields, ¬HasFloat field.2) :
    ¬HasFloat (.object fields) := by
  intro hfloat
  cases hfloat with
  | field hfield hf => exact h _ hfield hf

/-- Lists are told apart where their items are. -/
theorem map_inj_on {γ : Type} {f : α → γ} {Fits : α → Prop} (hf : ∀ a b, Fits a → Fits b → f a = f b → a = b)
    {l m : List α} (hl : ∀ a ∈ l, Fits a) (hm : ∀ b ∈ m, Fits b) (h : l.map f = m.map f) : l = m := by
  induction l generalizing m with
  | nil => exact (List.map_eq_nil_iff.mp h.symm).symm
  | cons a l ih =>
    cases m with
    | nil => cases h
    | cons b m =>
      obtain ⟨hhead, htail⟩ := List.cons.inj h
      rw [hf a b (hl a List.mem_cons_self) (hm b List.mem_cons_self) hhead,
        ih (fun a ha => hl a (List.mem_cons_of_mem _ ha)) (fun b hb => hm b (List.mem_cons_of_mem _ hb)) htail]

/-! ## The plain ones -/

def string : Form String where
  write := .string
  Fits _ := True
  noFloat _ h := nomatch h
  inj _ _ h := Json.string.inj h

def bool : Form Bool where
  write := .bool
  Fits _ := True
  noFloat _ h := nomatch h
  inj _ _ h := Json.bool.inj h

def u64 : Form UInt64 where
  write n := .number (.posInt n)
  Fits _ := True
  noFloat _ h := nomatch h
  inj _ _ h := Number.posInt.inj (Json.number.inj h)

/-- An `i64`; from zero on it is written as a `u64` is. -/
def i64 : Form Int64 where
  write i := if h : i < 0 then .number (.negInt i h) else .number (.posInt i.toUInt64)
  Fits _ := True
  noFloat i h := by
    split at h <;> exact nomatch h
  inj {i j} _ _ h := by
    by_cases hi : i < 0 <;> by_cases hj : j < 0 <;> simp only [hi, hj, dite_true, dite_false] at h
    · exact (Number.negInt.inj (Json.number.inj h))
    · cases h
    · cases h
    · exact congrArg Int64.ofUInt64 (Number.posInt.inj (Json.number.inj h))

/-- Written as another type's values are. -/
def through (form : Form β) (f : α → β) (hf : ∀ {a b}, f a = f b → a = b) : Form α where
  write a := form.write (f a)
  Fits a := form.Fits (f a)
  noFloat a := form.noFloat (f a)
  inj ha hb h := hf (form.inj ha hb h)

def u8 : Form UInt8 := u64.through UInt8.toUInt64 fun h => UInt8.toUInt64_inj.mp h

/-- An unsigned integer of up to 64 bits, as a natural number. -/
def nat (bits : Nat) (h64 : bits ≤ 64) : Form Nat where
  write n := .number (.posInt (.ofNat n))
  Fits n := n < 2 ^ bits
  noFloat _ h := nomatch h
  inj {n m} hn hm h := by
    have hbound : 2 ^ bits ≤ UInt64.size := Nat.pow_le_pow_right (by decide) h64
    have hsame := congrArg UInt64.toNat (Number.posInt.inj (Json.number.inj h))
    rwa [UInt64.toNat_ofNat_of_lt' (by omega), UInt64.toNat_ofNat_of_lt' (by omega)] at hsame

/-! ## Put together -/

def list (form : Form α) : Form (List α) where
  write l := .array (l.map form.write)
  Fits l := ∀ a ∈ l, form.Fits a
  noFloat l := by
    refine not_hasFloat_array fun item hitem => ?_
    obtain ⟨a, -, rfl⟩ := List.mem_map.mp hitem
    exact form.noFloat a
  inj hl hm h := map_inj_on (fun _ _ => form.inj) hl hm (Json.array.inj h)

/-- `None` is written as null, which no value of the type may be. -/
def option (form : Form α) (hnull : ∀ a, form.write a ≠ .null) : Form (Option α) where
  write
    | none => .null
    | some a => form.write a
  Fits o := ∀ a ∈ o, form.Fits a
  noFloat
    | none => fun h => nomatch h
    | some a => form.noFloat a
  inj {o o'} ho ho' h := by
    cases o with
    | none =>
      cases o' with
      | none => rfl
      | some b => exact absurd h.symm (hnull b)
    | some a =>
      cases o' with
      | none => exact absurd h (hnull a)
      | some b => rw [form.inj (ho a rfl) (ho' b rfl) h]

def bytes : Form (List UInt8) := u8.list

/-- `[u8; 32]`. -/
def seed : Form (Vector UInt8 32) := bytes.through Vector.toList fun h => Vector.toList_inj.mp h

/-- `BTreeMap<String, _>`. -/
def map (form : Form α) : Form (Std.ExtTreeMap String α compare) where
  write m := .object (m.toList.map fun entry => (entry.1, form.write entry.2))
  Fits m := ∀ entry ∈ m.toList, form.Fits entry.2
  noFloat m := by
    refine not_hasFloat_object fun field hfield => ?_
    obtain ⟨entry, -, rfl⟩ := List.mem_map.mp hfield
    exact form.noFloat entry.2
  inj hm hm' h := by
    refine Std.ExtTreeMap.toList_inj.mp (map_inj_on ?_ hm hm' (Json.object.inj h))
    rintro ⟨k, a⟩ ⟨k', b⟩ ha hb hentry
    obtain ⟨hkey, hvalue⟩ := Prod.mk.inj hentry
    exact Prod.ext hkey (form.inj ha hb hvalue)

/-- One field of a record. -/
structure Field (α : Type) where
  {γ : Type}
  name : String
  get : α → γ
  form : Form γ

/-- A record: an object with its fields in order, which together make it up. -/
def record (fields : List (Field α)) (hfields : ∀ {a b : α}, (∀ field ∈ fields, field.get a = field.get b) → a = b) :
    Form α where
  write a := .object (fields.map fun field => (field.name, field.form.write (field.get a)))
  Fits a := ∀ field ∈ fields, field.form.Fits (field.get a)
  noFloat a := by
    refine not_hasFloat_object fun f hf => ?_
    obtain ⟨field, -, rfl⟩ := List.mem_map.mp hf
    exact field.form.noFloat _
  inj {a b} ha hb h := by
    refine hfields fun field hfield => ?_
    have hwritten := List.map_inj_left.mp (Json.object.inj h) field hfield
    exact field.form.inj (ha field hfield) (hb field hfield) (Prod.mk.inj hwritten).2

/-! ## What fits -/

@[simp] theorem fits_string (s : String) : string.Fits s := trivial
@[simp] theorem fits_bool (b : Bool) : bool.Fits b := trivial
@[simp] theorem fits_u64 (n : UInt64) : u64.Fits n := trivial
@[simp] theorem fits_i64 (i : Int64) : i64.Fits i := trivial
@[simp] theorem fits_u8 (n : UInt8) : u8.Fits n := trivial
@[simp] theorem fits_bytes (l : List UInt8) : bytes.Fits l := fun n _ => fits_u8 n
@[simp] theorem fits_seed (v : Vector UInt8 32) : seed.Fits v := fits_bytes v.toList

@[simp] theorem fits_nat {bits : Nat} {h : bits ≤ 64} {n : Nat} : (nat bits h).Fits n ↔ n < 2 ^ bits := Iff.rfl

@[simp] theorem fits_through {form : Form β} {f : α → β} {hf : ∀ {a b}, f a = f b → a = b} {a : α} :
    (form.through f @hf).Fits a ↔ form.Fits (f a) := Iff.rfl

@[simp] theorem fits_list {form : Form α} {l : List α} : form.list.Fits l ↔ ∀ a ∈ l, form.Fits a := Iff.rfl

@[simp] theorem fits_option {form : Form α} {hnull : ∀ a, form.write a ≠ .null} {o : Option α} :
    (form.option hnull).Fits o ↔ ∀ a ∈ o, form.Fits a := Iff.rfl

@[simp] theorem fits_map {form : Form α} {m : Std.ExtTreeMap String α compare} :
    (map form).Fits m ↔ ∀ entry ∈ m.toList, form.Fits entry.2 := Iff.rfl

@[simp] theorem fits_record {fields : List (Field α)}
    {hfields : ∀ {a b : α}, (∀ field ∈ fields, field.get a = field.get b) → a = b} {a : α} :
    (record fields @hfields).Fits a ↔ ∀ field ∈ fields, field.form.Fits (field.get a) := Iff.rfl

/-! ## The text -/

/-- `serde_json::to_vec`; no value holds a double. -/
def text (form : Form α) (a : α) : Bytes := utf8 ((form.write a).write fun _ => [])

theorem text_inj (form : Form α) {a b : α} (ha : form.Fits a) (hb : form.Fits b) (h : form.text a = form.text b) :
    a = b := by
  have hchars := utf8_inj h
  have hread := @write_readAt (fun _ => []) (form.write a) (form.noFloat a)
  have hnil : Lib.Code.BeginsOutside Char.isDigit [] := fun _ hc => nomatch hc
  refine form.inj ha hb (hread _ [] [] (form.noFloat b) hnil hnil ?_).1
  rw [List.append_nil, List.append_nil, hchars]

open Classical in
/-- A reader that reads whatever was written. -/
noncomputable def reader (form : Form α) (bytes : Bytes) : Except String α :=
  if h : ∃ a, form.Fits a ∧ form.text a = bytes then .ok h.choose else .error "expected value at line 1 column 1"

theorem reader_text (form : Form α) {a : α} (ha : form.Fits a) : form.reader (form.text a) = .ok a := by
  have h : ∃ b, form.Fits b ∧ form.text b = form.text a := ⟨a, ha, rfl⟩
  rw [reader, dif_pos h, form.text_inj h.choose_spec.1 ha h.choose_spec.2]

end Form

end Beacon.Json
