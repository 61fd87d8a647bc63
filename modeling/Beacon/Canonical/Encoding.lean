/-
  Beacon.Canonical.Encoding — the encoding every signature is computed over
  (`sund_client::canonical`).

  A `Value` is a tree whose objects list their keys in order, each once, as the sorted map
  does that holds them: `insertField_sorted` keeps it so, and a struct written field by field
  can be read back from the map (`struct_inj`).
  - `toCanonicalJson_isOk`: a value has an encoding exactly if there is no double in it.
  - `toCanonicalJson_names`: the refusal gives the path to one.
  - `toCanonicalJson_inj`: no two values share an encoding.
-/

import Mathlib.Data.List.Induction
import Mathlib.Data.String.Basic
import Beacon.Session
import Beacon.Canonical.Json

namespace Beacon

open Json Lib.Code

/-! ## Values -/

namespace Json

/-- Every object of the tree lists its keys in order, each once. -/
inductive Sorted : Json → Prop
  | null : Sorted .null
  | bool (b : Bool) : Sorted (.bool b)
  | number (n : Number) : Sorted (.number n)
  | string (s : String) : Sorted (.string s)
  | array {items : List Json} : (∀ item ∈ items, Sorted item) → Sorted (.array items)
  | object {fields : List (String × Json)} : fields.Pairwise (fun a b => a.1 < b.1) →
      (∀ field ∈ fields, Sorted field.2) → Sorted (.object fields)

/-- `BTreeMap::insert`. Rust compares strings by their bytes, which orders UTF-8 as it does characters. -/
def insertField (key : String) (value : Json) : List (String × Json) → List (String × Json)
  | [] => [(key, value)]
  | (k, v) :: fields =>
    if key < k then (key, value) :: (k, v) :: fields
    else if key = k then (key, value) :: fields
    else (k, v) :: insertField key value fields

theorem mem_insertField {key : String} {value : Json} {fields : List (String × Json)} {field : String × Json}
    (h : field ∈ insertField key value fields) : field = (key, value) ∨ field ∈ fields := by
  induction fields with
  | nil => exact Or.inl (List.mem_singleton.mp h)
  | cons head fields ih =>
    obtain ⟨k, v⟩ := head
    rw [insertField] at h
    split at h
    · exact List.mem_cons.mp h
    · split at h
      · exact (List.mem_cons.mp h).imp id (List.mem_cons_of_mem _)
      · rcases List.mem_cons.mp h with rfl | h
        · exact Or.inr List.mem_cons_self
        · exact (ih h).imp id (List.mem_cons_of_mem _)

theorem insertField_sorted {key : String} {value : Json} {fields : List (String × Json)}
    (h : fields.Pairwise (fun a b => a.1 < b.1)) : (insertField key value fields).Pairwise (fun a b => a.1 < b.1) := by
  induction fields with
  | nil => exact List.pairwise_singleton _ _
  | cons head fields ih =>
    obtain ⟨k, v⟩ := head
    obtain ⟨hhead, htail⟩ := List.pairwise_cons.mp h
    rw [insertField]
    split
    · rename_i hlt
      refine List.pairwise_cons.mpr ⟨fun field hfield => ?_, h⟩
      rcases List.mem_cons.mp hfield with rfl | hfield
      · exact hlt
      · exact lt_trans hlt (hhead field hfield)
    · rename_i hge
      split
      · rename_i heq
        subst heq
        exact List.pairwise_cons.mpr ⟨hhead, htail⟩
      · rename_i hne
        refine List.pairwise_cons.mpr ⟨fun field hfield => ?_, ih htail⟩
        rcases mem_insertField hfield with rfl | hfield
        · exact lt_of_le_of_ne (not_lt.mp hge) (Ne.symm hne)
        · exact hhead field hfield

end Json

/-- `serde_json::Value`; its objects are `BTreeMap`s. -/
@[ext]
structure Value where
  json : Json
  sorted : json.Sorted

namespace Value

def string (s : String) : Value := ⟨.string s, .string s⟩

def u64 (n : UInt64) : Value := ⟨.number (.posInt n), .number _⟩

def array (items : List Value) : Value where
  json := .array (items.map json)
  sorted := .array fun item hitem => by
    obtain ⟨value, _, rfl⟩ := List.mem_map.mp hitem
    exact value.sorted

/-- The map of a struct's fields, inserted in the order they are declared in. -/
def fieldMap (fields : List (String × Value)) : List (String × Json) :=
  fields.foldl (fun map field => insertField field.1 field.2.json map) []

theorem fieldMap_concat (fields : List (String × Value)) (field : String × Value) :
    fieldMap (fields ++ [field]) = insertField field.1 field.2.json (fieldMap fields) := by
  rw [fieldMap, List.foldl_append]
  rfl

theorem mem_fieldMap {fields : List (String × Value)} {entry : String × Json} (h : entry ∈ fieldMap fields) :
    ∃ field ∈ fields, entry = (field.1, field.2.json) := by
  induction fields using List.reverseRecOn with
  | nil => cases h
  | append_singleton fields field ih =>
    rw [fieldMap_concat] at h
    rcases mem_insertField h with rfl | h
    · exact ⟨field, List.mem_append_right _ List.mem_cons_self, rfl⟩
    · obtain ⟨found, hfound, he⟩ := ih h
      exact ⟨found, List.mem_append_left _ hfound, he⟩

theorem fieldMap_inOrder (fields : List (String × Value)) : (fieldMap fields).Pairwise (fun a b => a.1 < b.1) := by
  induction fields using List.reverseRecOn with
  | nil => exact List.Pairwise.nil
  | append_singleton fields field ih =>
    rw [fieldMap_concat]
    exact insertField_sorted ih

/-- `serialize_struct` into a `Value`. -/
def struct (fields : List (String × Value)) : Value where
  json := .object (fieldMap fields)
  sorted := .object (fieldMap_inOrder fields) fun entry hentry => by
    obtain ⟨field, _, rfl⟩ := mem_fieldMap hentry
    exact field.2.sorted

theorem string_noFloat (s : String) : ¬HasFloat (string s).json := fun h => nomatch h

theorem u64_noFloat (n : UInt64) : ¬HasFloat (u64 n).json := fun h => nomatch h

theorem struct_noFloat {fields : List (String × Value)} (h : ∀ field ∈ fields, ¬HasFloat field.2.json) :
    ¬HasFloat (struct fields).json := by
  rintro (_ | _ | ⟨hfield, hfloat⟩)
  obtain ⟨field, hmem, rfl⟩ := mem_fieldMap hfield
  exact h field hmem hfloat

/-! ### Reading a struct back -/

theorem lookup_cons_ite (k key : String) (value : Json) (map : List (String × Json)) :
    ((key, value) :: map).lookup k = if k = key then some value else map.lookup k := by
  rw [List.lookup_cons]
  by_cases h : k = key
  · rw [beq_iff_eq.mpr h, if_pos h]
  · rw [beq_false_of_ne h, if_neg h]

theorem lookup_insertField (key k : String) (value : Json) (map : List (String × Json)) :
    (insertField key value map).lookup k = if k = key then some value else map.lookup k := by
  induction map with
  | nil => rw [insertField, lookup_cons_ite]
  | cons head map ih =>
    obtain ⟨k', v'⟩ := head
    rw [insertField]
    split
    · rw [lookup_cons_ite]
    split
    · rename_i heq
      subst heq
      simp only [lookup_cons_ite]
      split <;> rfl
    · rename_i hne
      simp only [lookup_cons_ite, ih]
      by_cases hk : k = k'
      · rw [if_pos hk, if_pos hk, if_neg (fun h => hne (h.symm.trans hk))]
      · rw [if_neg hk, if_neg hk]

theorem lookup_fieldMap {fields : List (String × Value)} (hkeys : (fields.map Prod.fst).Nodup) {key : String}
    {value : Value} (h : (key, value) ∈ fields) : (fieldMap fields).lookup key = some value.json := by
  induction fields using List.reverseRecOn with
  | nil => cases h
  | append_singleton fields field ih =>
    rw [List.map_append] at hkeys
    obtain ⟨hfields, _, hdisjoint⟩ := List.nodup_append.mp hkeys
    rw [fieldMap_concat, lookup_insertField]
    rcases List.mem_append.mp h with h | h
    · have hne : key ≠ field.1 := hdisjoint key (List.mem_map_of_mem h) field.1 (List.mem_singleton.mpr rfl)
      rw [if_neg hne]
      exact ih hfields h
    · obtain rfl := List.mem_singleton.mp h
      exact if_pos rfl

/-- Structs of one type that are the same value have the same fields. -/
theorem struct_inj {fields fields' : List (String × Value)} (hkeys : (fields.map Prod.fst).Nodup)
    (hsame : fields.map Prod.fst = fields'.map Prod.fst) (h : struct fields = struct fields') : fields = fields' := by
  have hmap : fieldMap fields = fieldMap fields' := Json.object.inj (congrArg json h)
  have hkeys' : (fields'.map Prod.fst).Nodup := hsame ▸ hkeys
  have hvalues : ∀ key value value', (key, value) ∈ fields → (key, value') ∈ fields' → value = value' := by
    intro key value value' hvalue hvalue'
    have hfound := lookup_fieldMap hkeys hvalue
    rw [hmap, lookup_fieldMap hkeys' hvalue'] at hfound
    exact Value.ext (Option.some.inj hfound).symm
  clear hmap h hkeys hkeys'
  induction fields generalizing fields' with
  | nil => exact (List.map_eq_nil_iff.mp hsame.symm).symm
  | cons field fields ih =>
    cases fields' with
    | nil => cases hsame
    | cons field' fields' =>
      obtain ⟨hkey, hrest⟩ := List.cons.inj hsame
      have hvalue : field.2 = field'.2 :=
        hvalues field.1 _ _ List.mem_cons_self (hkey ▸ List.mem_cons_self)
      have htail : fields = fields' :=
        ih hrest fun key value value' hv hv' =>
          hvalues key value value' (List.mem_cons_of_mem _ hv) (List.mem_cons_of_mem _ hv')
      rw [htail, Prod.ext hkey hvalue]

end Value

/-! ## The encoding -/

/-- `String::into_bytes`. -/
def utf8 (text : List Char) : Bytes := text.flatMap String.utf8EncodeChar

/-- `\x7bbyte:02x\x7d`. -/
def hexByte (byte : UInt8) : List Char := [Nat.digitChar (byte.toNat / 16), Nat.digitChar (byte.toNat % 16)]

theorem utf8_inj {text text' : List Char} (h : utf8 text = utf8 text') : text = text' := by
  have hbytes : text.utf8Encode = text'.utf8Encode := congrArg List.toByteArray h
  rw [← String.toByteArray_ofList, ← String.toByteArray_ofList] at hbytes
  exact String.ofList_injective (String.toByteArray_inj.mp hbytes)

inductive CanonicalError where
  | notSerializable (detail : String)
  | floatingPoint (path : String)
  deriving DecidableEq, Repr

def CanonicalError.toText : CanonicalError → String
  | notSerializable detail => "not serializable as JSON: " ++ detail
  | floatingPoint path => "floating-point number at `" ++ path ++ "` has no canonical form"

/-- A double is the number that is neither an `i64` nor a `u64`. -/
def Json.Number.isInteger (n : Json.Number) : Bool := n.asI64.isSome || n.asU64.isSome

def namedPath (path : String) : String := if path.isEmpty then "<root>" else path

def itemPath (path : String) (index : Nat) : String := path ++ "[" ++ toString index ++ "]"

def fieldPath (path key : String) : String := if path.isEmpty then key else path ++ "." ++ key

mutual

def rejectFloats (path : String) : Json → Except CanonicalError Unit
  | .number n => if n.isInteger then .ok () else .error (.floatingPoint (namedPath path))
  | .array items => rejectItems path 0 items
  | .object fields => rejectFields path fields
  | _ => .ok ()

/-- The items from the index on. -/
def rejectItems (path : String) (index : Nat) : List Json → Except CanonicalError Unit
  | [] => .ok ()
  | item :: items => do
    rejectFloats (itemPath path index) item
    rejectItems path (index + 1) items

def rejectFields (path : String) : List (String × Json) → Except CanonicalError Unit
  | [] => .ok ()
  | (key, field) :: fields => do
    rejectFloats (fieldPath path key) field
    rejectFields path fields

end

/-- In a tree that stands at `path`, there is a double under this name. -/
inductive FloatAt : String → Json → String → Prop
  | number (path : String) (bits : UInt64) : FloatAt path (.number (.float bits)) (namedPath path)
  | item {path name : String} {items : List Json} {index : Nat} {item : Json} : items[index]? = some item →
      FloatAt (itemPath path index) item name → FloatAt path (.array items) name
  | field {path name key : String} {fields : List (String × Json)} {value : Json} : (key, value) ∈ fields →
      FloatAt (fieldPath path key) value name → FloatAt path (.object fields) name

theorem FloatAt.hasFloat {path name : String} {v : Json} (h : FloatAt path v name) : HasFloat v := by
  induction h with
  | number path bits => exact .number bits
  | item hitem _ ih => exact .item (List.mem_of_getElem? hitem) ih
  | field hfield _ ih => exact .field hfield ih

/-- The tree passes without a double in it, or is refused with the name of one. -/
def RejectsFloats (v : Json) : Prop :=
  ∀ path, (rejectFloats path v = .ok () ∧ ¬HasFloat v) ∨
    ∃ name, rejectFloats path v = .error (.floatingPoint name) ∧ FloatAt path v name

/-- `rest` is what there is of the items from `index` on. -/
theorem rejectItems_cases {items : List Json} (ih : ∀ item ∈ items, RejectsFloats item) (path : String) {rest : List Json}
    {index : Nat} (hdrop : rest = items.drop index) :
    (rejectItems path index rest = .ok () ∧ ∀ item ∈ rest, ¬HasFloat item) ∨
      ∃ name, rejectItems path index rest = .error (.floatingPoint name) ∧ FloatAt path (.array items) name := by
  induction rest generalizing index with
  | nil => exact Or.inl ⟨by rw [rejectItems], fun _ h => absurd h List.not_mem_nil⟩
  | cons item rest ihrest =>
    have hget : items[index]? = some item := by
      rw [← List.head?_drop, ← hdrop]
      rfl
    have hnext : rest = items.drop (index + 1) := by
      rw [← List.tail_drop, ← hdrop]
      rfl
    rw [rejectItems]
    rcases ih item (List.mem_of_getElem? hget) (itemPath path index) with ⟨hok, hnone⟩ | ⟨name, herror, hat⟩
    · rw [hok]
      rcases ihrest hnext with ⟨hrest, hnones⟩ | ⟨name, herror, hat⟩
      · refine Or.inl ⟨hrest, ?_⟩
        intro i hi
        rcases List.mem_cons.mp hi with rfl | hi
        · exact hnone
        · exact hnones i hi
      · exact Or.inr ⟨name, herror, hat⟩
    · exact Or.inr ⟨name, by rw [herror]; rfl, .item hget hat⟩

theorem rejectFields_cases {fields : List (String × Json)} (ih : ∀ field ∈ fields, RejectsFloats field.2) (path : String)
    {rest : List (String × Json)} (hsub : ∀ field ∈ rest, field ∈ fields) :
    (rejectFields path rest = .ok () ∧ ∀ field ∈ rest, ¬HasFloat field.2) ∨
      ∃ name, rejectFields path rest = .error (.floatingPoint name) ∧ FloatAt path (.object fields) name := by
  induction rest with
  | nil => exact Or.inl ⟨by rw [rejectFields], fun _ h => absurd h List.not_mem_nil⟩
  | cons field rest ihrest =>
    obtain ⟨key, value⟩ := field
    have hmem : (key, value) ∈ fields := hsub _ List.mem_cons_self
    rw [rejectFields]
    rcases ih (key, value) hmem (fieldPath path key) with ⟨hok, hnone⟩ | ⟨name, herror, hat⟩
    · rw [hok]
      rcases ihrest (fun f hf => hsub f (List.mem_cons_of_mem _ hf)) with ⟨hrest, hnones⟩ | ⟨name, herror, hat⟩
      · refine Or.inl ⟨hrest, ?_⟩
        intro f hf
        rcases List.mem_cons.mp hf with rfl | hf
        · exact hnone
        · exact hnones f hf
      · exact Or.inr ⟨name, herror, hat⟩
    · exact Or.inr ⟨name, by rw [herror]; rfl, .field hmem hat⟩

theorem rejectFloats_cases (v : Json) : RejectsFloats v := by
  induction v with
  | null =>
    intro path
    exact Or.inl ⟨by rw [rejectFloats] <;> simp, fun h => by cases h⟩
  | bool b =>
    intro path
    exact Or.inl ⟨by rw [rejectFloats] <;> simp, fun h => by cases h⟩
  | string s =>
    intro path
    exact Or.inl ⟨by rw [rejectFloats] <;> simp, fun h => by cases h⟩
  | number n =>
    intro path
    cases n with
    | posInt n =>
      exact Or.inl ⟨by rw [rejectFloats]; simp [Json.Number.isInteger, Json.Number.asU64], fun h => by cases h⟩
    | negInt i hi =>
      exact Or.inl ⟨by rw [rejectFloats]; simp [Json.Number.isInteger, Json.Number.asI64], fun h => by cases h⟩
    | float bits => exact Or.inr ⟨_, by rw [rejectFloats]; rfl, .number path bits⟩
  | array items ih =>
    intro path
    rw [rejectFloats]
    rcases rejectItems_cases ih path List.drop_zero.symm with ⟨hok, hnone⟩ | herror
    · refine Or.inl ⟨hok, ?_⟩
      rintro (_ | ⟨hitem, hfloat⟩ | _)
      exact hnone _ hitem hfloat
    · exact Or.inr herror
  | object fields ih =>
    intro path
    rw [rejectFloats]
    rcases rejectFields_cases ih path (fun _ h => h) with ⟨hok, hnone⟩ | herror
    · refine Or.inl ⟨hok, ?_⟩
      rintro (_ | _ | ⟨hfield, hfloat⟩)
      exact hnone _ hfield hfloat
    · exact Or.inr herror

section encoding

variable (ryu : UInt64 → List Char)

/-- Writing a tree into memory cannot fail. -/
def toCanonicalJson (v : Value) : Except CanonicalError Bytes := do
  rejectFloats "" v.json
  return utf8 (v.json.write ryu)

variable {ryu}

theorem toCanonicalJson_eq (v : Value) (h : ¬HasFloat v.json) :
    toCanonicalJson ryu v = .ok (utf8 (v.json.write ryu)) := by
  rcases rejectFloats_cases v.json "" with ⟨hok, _⟩ | ⟨_, _, hat⟩
  · rw [toCanonicalJson, hok]
    rfl
  · exact absurd hat.hasFloat h

theorem toCanonicalJson_isOk (v : Value) : (∃ canonical, toCanonicalJson ryu v = .ok canonical) ↔ ¬HasFloat v.json := by
  constructor
  · rintro ⟨canonical, hok⟩ hfloat
    rcases rejectFloats_cases v.json "" with ⟨_, hnone⟩ | ⟨_, herror, _⟩
    · exact hnone hfloat
    · rw [toCanonicalJson, herror] at hok
      cases hok
  · exact fun h => ⟨_, toCanonicalJson_eq v h⟩

/-- A value is refused only for a double in it, and the refusal names it. -/
theorem toCanonicalJson_names {v : Value} {error : CanonicalError} (h : toCanonicalJson ryu v = .error error) :
    ∃ name, error = .floatingPoint name ∧ FloatAt "" v.json name := by
  rcases rejectFloats_cases v.json "" with ⟨hok, _⟩ | ⟨name, herror, hat⟩
  · rw [toCanonicalJson, hok] at h
    cases h
  · rw [toCanonicalJson, herror] at h
    cases h
    exact ⟨name, rfl, hat⟩

theorem toCanonicalJson_inj {v w : Value} {canonical : Bytes} (hv : toCanonicalJson ryu v = .ok canonical)
    (hw : toCanonicalJson ryu w = .ok canonical) : v = w := by
  have hv' := (toCanonicalJson_isOk v).mp ⟨_, hv⟩
  have hw' := (toCanonicalJson_isOk w).mp ⟨_, hw⟩
  rw [toCanonicalJson_eq v hv'] at hv
  rw [toCanonicalJson_eq w hw'] at hw
  have htext := utf8_inj ((Except.ok.inj hv).trans (Except.ok.inj hw).symm)
  have hnothing : BeginsOutside Char.isDigit [] := fun c hc => by cases hc
  exact Value.ext (write_readAt v.json hv' w.json [] [] hw' hnothing hnothing (congrArg (· ++ []) htext)).1

end encoding

end Beacon
