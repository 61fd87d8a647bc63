/-
  Beacon.Lib.Table — an ordered map whose entries are stored under their own key.

  A program that keeps records by id writes `map.insert(record.id, record)` at every
  site and relies, unstated, on the two agreeing. Here the agreement is a field: a
  `Table key` is a finite ordered map in which every entry sits under `key entry`,
  and every operation carries the proof along. What follows from it:
  - `mem_values`: the entries are exactly what lookup finds under their keys.
  - `keys_sorted`: read in order, the keys are strictly increasing.
  - `ofList_of_perm`: a table's entries, collected in any order, are the table; so writing
    one out and reading it back is the identity (`ofList_values`).
  - `countP_le_of_get?`: a table whose matching entries all sit under keys that match
    in another has no more of them; `countP_insert_le`: an insert adds at most one.
-/

import Mathlib.Data.List.Sort
import Mathlib.Data.List.Perm.Subperm
import Mathlib.Order.Defs.LinearOrder

set_option linter.unusedSectionVars false

namespace Beacon.Lib

open Std

variable {κ α : Type} [Ord κ] [TransOrd κ] [LawfulEqOrd κ]

structure Table (key : α → κ) where
  map : ExtTreeMap κ α compare
  keyed : ∀ k a, map[k]? = some a → key a = k

namespace Table

variable {key : α → κ}

def empty : Table key := ⟨∅, by simp⟩

def get? (t : Table key) (k : κ) : Option α := t.map[k]?

def contains (t : Table key) (k : κ) : Bool := (t.get? k).isSome

def insert (t : Table key) (a : α) : Table key :=
  ⟨t.map.insert (key a) a, by
    intro k b h
    rw [ExtTreeMap.getElem?_insert] at h
    split at h
    · rename_i hk
      cases h; exact LawfulEqOrd.eq_of_compare hk
    · exact t.keyed k b h⟩

/-- `entry(key).or_insert(a)`: an entry already under the key stays. -/
def insertIfNew (t : Table key) (a : α) : Table key := if t.contains (key a) then t else t.insert a

def erase (t : Table key) (k : κ) : Table key :=
  ⟨t.map.erase k, by
    intro k' b h
    rw [ExtTreeMap.getElem?_erase] at h
    split at h
    · cases h
    · exact t.keyed k' b h⟩

/-- Rewrite the entry under `k`, if there is one, by a function that keeps its key. -/
def modify (t : Table key) (k : κ) (f : α → α) (hf : ∀ a, key (f a) = key a) : Table key :=
  ⟨t.map.modify k f, by
    intro k' b h
    rw [ExtTreeMap.getElem?_modify] at h
    split at h
    · rename_i hk
      obtain ⟨a, ha, rfl⟩ := Option.map_eq_some_iff.mp h
      rw [hf, t.keyed k a ha]; exact LawfulEqOrd.eq_of_compare hk
    · exact t.keyed k' b h⟩

/-- Collect a list; where a key repeats the last entry wins. -/
def ofList (l : List α) : Table key := l.foldl insert empty

/-- The entries, in key order. -/
def values (t : Table key) : List α := t.map.toList.map Prod.snd

/-! ## Lookup -/

variable [DecidableEq κ]

@[ext] theorem ext {t u : Table key} (h : ∀ k, t.get? k = u.get? k) : t = u := by
  have : t.map = u.map := ExtTreeMap.ext_getElem? h
  cases t; cases u; cases this; rfl

theorem get?_key {t : Table key} {k : κ} {a : α} (h : t.get? k = some a) : key a = k := t.keyed k a h

theorem contains_iff {t : Table key} {k : κ} : t.contains k = true ↔ ∃ a, t.get? k = some a :=
  Option.isSome_iff_exists

theorem contains_eq_false {t : Table key} {k : κ} : t.contains k = false ↔ t.get? k = none := by
  simp [contains]

@[simp] theorem get?_empty (k : κ) : (empty : Table key).get? k = none := by simp [empty, get?]

theorem get?_insert (t : Table key) (a : α) (k : κ) :
    (t.insert a).get? k = if key a = k then some a else t.get? k := by
  simp [insert, get?, ExtTreeMap.getElem?_insert]

@[simp] theorem get?_insert_self (t : Table key) (a : α) : (t.insert a).get? (key a) = some a := by
  simp [get?_insert]

theorem get?_erase (t : Table key) (k k' : κ) :
    (t.erase k).get? k' = if k = k' then none else t.get? k' := by
  simp [erase, get?, ExtTreeMap.getElem?_erase]

theorem get?_modify (t : Table key) (k : κ) (f : α → α) (hf : ∀ a, key (f a) = key a) (k' : κ) :
    (t.modify k f hf).get? k' = if k = k' then (t.get? k').map f else t.get? k' := by
  simp only [modify, get?, ExtTreeMap.getElem?_modify, Std.compare_eq_iff_eq]
  split
  · rename_i hk; rw [hk]
  · rfl

/-! ## Entries in order -/

@[simp] theorem values_empty : (empty : Table key).values = [] := by simp [empty, values]

theorem mem_values {t : Table key} {a : α} : a ∈ t.values ↔ t.get? (key a) = some a := by
  unfold values get?
  constructor
  · intro h
    obtain ⟨⟨k, b⟩, hm, rfl⟩ := List.mem_map.mp h
    have hk := ExtTreeMap.mem_toList_iff_getElem?_eq_some.mp hm
    rw [t.keyed k b hk]; exact hk
  · intro h
    exact List.mem_map.mpr ⟨_, ExtTreeMap.mem_toList_iff_getElem?_eq_some.mpr h, rfl⟩

theorem mem_values_of_get? {t : Table key} {k : κ} {a : α} (h : t.get? k = some a) : a ∈ t.values := by
  rw [mem_values, get?_key h]; exact h

theorem map_key_values (t : Table key) : t.values.map key = t.map.toList.map Prod.fst := by
  rw [values, List.map_map]
  refine List.map_congr_left fun p hp => ?_
  exact t.keyed p.1 p.2 (ExtTreeMap.mem_toList_iff_getElem?_eq_some.mp hp)

/-- Read in order, the keys are strictly increasing. -/
theorem keys_sorted (t : Table key) : (t.values.map key).Pairwise fun a b => compare a b = .lt := by
  rw [map_key_values, List.pairwise_map]
  exact ExtTreeMap.ordered_keys_toList

theorem keys_nodup (t : Table key) : (t.values.map key).Nodup := by
  refine t.keys_sorted.imp fun {a b} h e => ?_
  rw [Std.compare_eq_iff_eq.mpr e] at h; cases h

theorem values_nodup (t : Table key) : t.values.Nodup := List.Nodup.of_map key t.keys_nodup

theorem get?_foldl_insert (l : List α) (t : Table key) (k : κ) :
    (l.foldl insert t).get? k = ((l.reverse.find? fun a => compare (key a) k == .eq).orElse fun _ => t.get? k) := by
  induction l generalizing t with
  | nil => rfl
  | cons a l ih =>
    rw [List.foldl_cons, ih, get?_insert, List.reverse_cons, List.find?_append]
    cases h : l.reverse.find? fun a => compare (key a) k == .eq with
    | some b => rfl
    | none => by_cases e : key a = k <;> simp [e]

theorem get?_ofList (l : List α) (k : κ) :
    (ofList l : Table key).get? k = l.reverse.find? fun a => compare (key a) k == .eq := by
  rw [ofList, get?_foldl_insert, get?_empty]
  cases l.reverse.find? fun a => compare (key a) k == .eq <;> rfl

theorem contains_ofList {l : List α} {k : κ} : (ofList l : Table key).contains k = true ↔ ∃ a ∈ l, key a = k := by
  rw [contains, get?_ofList, List.find?_isSome]
  simp

/-- A table's entries, collected in any order, are the table. -/
theorem ofList_of_perm {t : Table key} {l : List α} (h : l.Perm t.values) : (ofList l : Table key) = t := by
  ext k : 1
  rw [get?_ofList]
  cases hfound : l.reverse.find? fun a => compare (key a) k == .eq with
  | some a =>
    have hk : key a = k := by simpa using List.find?_some hfound
    have hm := h.mem_iff.mp (List.mem_reverse.mp (List.mem_of_find?_eq_some hfound))
    rw [← hk, mem_values.mp hm]
  | none =>
    cases hg : t.get? k with
    | none => rfl
    | some b =>
      have := List.find?_eq_none.mp hfound b (List.mem_reverse.mpr (h.mem_iff.mpr (mem_values_of_get? hg)))
      simp [get?_key hg] at this

/-- Writing a table out and reading it back is the identity. -/
theorem ofList_values (t : Table key) : (ofList t.values : Table key) = t := ofList_of_perm (.refl _)

theorem eq_of_values {t u : Table key} (h : t.values = u.values) : t = u := by
  rw [← ofList_values t, ← ofList_values u, h]

/-- `insertIfNew` is that of the map under it. -/
theorem map_insertIfNew (t : Table key) (a : α) : (t.insertIfNew a).map = t.map.insertIfNew (key a) a := by
  have hmem : key a ∈ t.map ↔ t.contains (key a) = true := ExtTreeMap.mem_iff_isSome_getElem?
  apply ExtTreeMap.ext_getElem?
  intro k
  rw [ExtTreeMap.getElem?_insertIfNew]
  unfold insertIfNew
  split
  · rename_i hknown
    rw [if_neg fun h => h.2 (hmem.mpr hknown)]
  · rename_i hfresh
    show (t.map.insert (key a) a)[k]? = _
    rw [ExtTreeMap.getElem?_insert]
    simp [hmem, hfresh]

/-! ## A map whose keys are dropped

Written out by its values and collected again under the keys these carry, a map comes
back as it was exactly if it was keyed by them. -/

def rekey (key : α → κ) (map : ExtTreeMap κ α compare) : ExtTreeMap κ α compare :=
  .ofList ((map.toList.map Prod.snd).map fun a => (key a, a)) compare

theorem map_ofList (l : List α) : (ofList l : Table key).map = .ofList (l.map fun a => (key a, a)) compare := by
  suffices h : ∀ t : Table key, (l.foldl insert t).map = t.map.insertMany (l.map fun a => (key a, a)) by
    rw [ofList, h, ExtTreeMap.ofList_eq_insertMany_empty]
    rfl
  induction l with
  | nil => exact fun _ => rfl
  | cons a l ih =>
    intro t
    rw [List.foldl_cons, ih, List.map_cons, ExtTreeMap.insertMany_cons]
    rfl

theorem rekey_eq_self_iff {map : ExtTreeMap κ α compare} :
    rekey key map = map ↔ ∀ k a, map[k]? = some a → key a = k := by
  constructor
  · intro h k a ha
    have hcollected : rekey key map = (ofList (map.toList.map Prod.snd) : Table key).map := (map_ofList _).symm
    rw [← h, hcollected] at ha
    exact get?_key ha
  · intro hkeyed
    let t : Table key := ⟨map, hkeyed⟩
    show ExtTreeMap.ofList (t.values.map fun a => (key a, a)) compare = t.map
    rw [← map_ofList, ofList_values]

/-! ## Edits that change nothing -/

theorem insert_eq_self_iff {t : Table key} {a : α} : t.insert a = t ↔ t.get? (key a) = some a := by
  constructor
  · intro h
    rw [← h, get?_insert_self]
  · intro h
    ext k : 1
    rw [get?_insert]
    split
    · rename_i hk
      rw [← hk, h]
    · rfl

theorem erase_eq_self_iff {t : Table key} {k : κ} : t.erase k = t ↔ t.get? k = none := by
  constructor
  · intro h
    rw [← h, get?_erase, if_pos rfl]
  · intro h
    ext k' : 1
    rw [get?_erase]
    split
    · rename_i hk
      rw [← hk, h]
    · rfl

theorem modify_eq_self_iff {t : Table key} {k : κ} {f : α → α} (hf : ∀ a, key (f a) = key a) :
    t.modify k f hf = t ↔ ∀ a, t.get? k = some a → f a = a := by
  constructor
  · intro h a ha
    have hget := get?_modify t k f hf k
    rw [h, if_pos rfl, ha] at hget
    exact (Option.some.inj hget).symm
  · intro h
    ext k' : 1
    rw [get?_modify]
    split
    · rename_i hk
      subst hk
      cases hget : t.get? k with
      | none => rfl
      | some a => rw [Option.map_some, h a hget]
    · rfl

/-- Tables that correspond entry by entry list corresponding entries. -/
theorem values_of_get? {t u : Table key} {f : α → α} (hf : ∀ a, key (f a) = key a)
    (h : ∀ k, u.get? k = (t.get? k).map f) : u.values = t.values.map f := by
  have hkeys : (t.values.map f).map key = t.values.map key := by
    rw [List.map_map]
    exact List.map_congr_left fun a _ => hf a
  have hnodup : (t.values.map f).Nodup := List.Nodup.of_map key (hkeys ▸ t.keys_nodup)
  have hmem : ∀ a, a ∈ u.values ↔ a ∈ t.values.map f := by
    intro a
    rw [mem_values, h, List.mem_map, Option.map_eq_some_iff]
    constructor
    · intro ha
      obtain ⟨b, hb, rfl⟩ := ha
      exact ⟨b, mem_values_of_get? hb, rfl⟩
    · intro ha
      obtain ⟨b, hb, rfl⟩ := ha
      exact ⟨b, by rw [hf]; exact mem_values.mp hb, rfl⟩
  refine ((List.perm_ext_iff_of_nodup u.values_nodup hnodup).mpr hmem).eq_of_pairwise ?_
    (List.pairwise_map.mp u.keys_sorted) (List.pairwise_map.mp (hkeys ▸ t.keys_sorted))
  intro a b _ _ hab hba
  exact absurd (Std.OrientedCmp.gt_of_lt hab) (by rw [hba]; decide)

/-- Tables that agree entry by entry, as far as `f` shows, list the same, as far as `f` shows. -/
theorem values_map_of_get? {γ : Type} {t u : Table key} {f : α → γ} (key' : γ → κ) (hf : ∀ a, key' (f a) = key a)
    (h : ∀ k, (t.get? k).map f = (u.get? k).map f) : t.values.map f = u.values.map f := by
  have hkeys : ∀ t : Table key, (t.values.map f).map key' = t.values.map key := by
    intro t
    rw [List.map_map]
    exact List.map_congr_left fun a _ => hf a
  have hnodup : ∀ t : Table key, (t.values.map f).Nodup := fun t => .of_map key' ((hkeys t).symm ▸ t.keys_nodup)
  have hmem : ∀ (t : Table key) (c : γ), c ∈ t.values.map f ↔ (t.get? (key' c)).map f = some c := by
    intro t c
    rw [List.mem_map, Option.map_eq_some_iff]
    constructor
    · rintro ⟨a, ha, rfl⟩
      rw [hf]
      exact ⟨a, mem_values.mp ha, rfl⟩
    · rintro ⟨a, ha, hac⟩
      exact ⟨a, mem_values_of_get? ha, hac⟩
  refine ((List.perm_ext_iff_of_nodup (hnodup t) (hnodup u)).mpr fun c => ?_).eq_of_pairwise ?_
    (List.pairwise_map.mp ((hkeys t).symm ▸ t.keys_sorted)) (List.pairwise_map.mp ((hkeys u).symm ▸ u.keys_sorted))
  · rw [hmem, hmem, h]
  · intro a b _ _ hab hba
    exact absurd (Std.OrientedCmp.gt_of_lt hab) (by rw [hba]; decide)

/-! ## Counting entries -/

/-- If every entry of `t` that satisfies `p` sits under a key where `u` has one too,
    `t` has at most as many. -/
theorem countP_le_of_get? {t u : Table key} {p : α → Bool}
    (h : ∀ k a, t.get? k = some a → p a = true → ∃ b, u.get? k = some b ∧ p b = true) :
    t.values.countP p ≤ u.values.countP p := by
  have hlength : ((u.values.filter p).map key).length = (u.values.filter p).length := List.length_map key
  rw [List.countP_eq_length_filter, List.countP_eq_length_filter, ← List.length_map key, ← hlength]
  have hnd : ((t.values.filter p).map key).Nodup := (List.filter_sublist.map key).nodup t.keys_nodup
  refine (List.subperm_of_subset hnd fun k hk => ?_).length_le
  obtain ⟨a, ha, rfl⟩ := List.mem_map.mp hk
  obtain ⟨hm, hp⟩ := List.mem_filter.mp ha
  obtain ⟨b, hb, hpb⟩ := h _ a (mem_values.mp hm) hp
  exact List.mem_map.mpr ⟨b, List.mem_filter.mpr ⟨mem_values_of_get? hb, hpb⟩, get?_key hb⟩

/-- As many entries satisfy `p` as there are keys they sit under. -/
theorem countP_eq_length {t : Table key} {p : α → Bool} {ks : List κ} (hnd : ks.Nodup)
    (hks : ∀ k, k ∈ ks ↔ ∃ a, t.get? k = some a ∧ p a = true) : t.values.countP p = ks.length := by
  have hkeys : ((t.values.filter p).map key).Nodup := (List.filter_sublist.map key).nodup t.keys_nodup
  rw [List.countP_eq_length_filter, ← List.length_map key]
  refine ((List.perm_ext_iff_of_nodup hkeys hnd).mpr fun k => ?_).length_eq
  rw [hks, List.mem_map]
  constructor
  · intro h
    rcases h with ⟨a, ha, rfl⟩
    obtain ⟨hm, hp⟩ := List.mem_filter.mp ha
    exact ⟨a, mem_values.mp hm, hp⟩
  · intro h
    rcases h with ⟨a, ha, hp⟩
    exact ⟨a, List.mem_filter.mpr ⟨mem_values_of_get? ha, hp⟩, get?_key ha⟩

theorem values_insert_perm {t : Table key} {a : α} (h : t.get? (key a) = none) :
    (t.insert a).values.Perm (a :: t.values) := by
  have hnot : a ∉ t.values := fun hm => by rw [mem_values.mp hm] at h; cases h
  refine (List.perm_ext_iff_of_nodup (t.insert a).values_nodup (List.nodup_cons.mpr ⟨hnot, t.values_nodup⟩)).mpr
    fun b => ?_
  rw [mem_values, get?_insert, List.mem_cons]
  constructor
  · intro hb
    split at hb
    · exact Or.inl (Option.some.inj hb).symm
    · exact Or.inr (mem_values.mpr hb)
  · intro h
    rcases h with rfl | hb
    · simp
    · have hb' := mem_values.mp hb
      rw [if_neg (fun e => by rw [e, hb'] at h; cases h)]
      exact hb'

theorem insert_insert_self (t : Table key) (a : α) : (t.insert a).insert a = t.insert a :=
  insert_eq_self_iff.mpr (get?_insert_self t a)

theorem erase_insert_self {t : Table key} {a : α} : ((t.erase (key a)).insert a) = t.insert a := by
  ext k : 1
  rw [get?_insert, get?_insert, get?_erase]
  split <;> rfl

/-- An insert adds at most one entry that satisfies `p`. -/
theorem countP_insert_le (t : Table key) (a : α) (p : α → Bool) :
    (t.insert a).values.countP p ≤ t.values.countP p + 1 := by
  have hsub : (t.erase (key a)).values.countP p ≤ t.values.countP p :=
    countP_le_of_get? fun k b hb hp => by
      rw [get?_erase] at hb
      split at hb
      · cases hb
      · exact ⟨b, hb, hp⟩
  rw [← erase_insert_self, (values_insert_perm (t := t.erase (key a)) (by simp [get?_erase])).countP_eq p,
    List.countP_cons]
  split <;> omega

/-- An insert of an entry that satisfies `p`, under a key where none did, adds one. -/
theorem countP_insert_new {t : Table key} {a : α} {p : α → Bool} (hp : p a = true)
    (hold : ∀ b, t.get? (key a) = some b → p b = false) :
    (t.insert a).values.countP p = t.values.countP p + 1 := by
  have hsame : (t.erase (key a)).values.countP p = t.values.countP p := by
    refine Nat.le_antisymm (countP_le_of_get? fun k b hb hpb => ?_) (countP_le_of_get? fun k b hb hpb => ?_)
    · rw [get?_erase] at hb
      split at hb
      · cases hb
      · exact ⟨b, hb, hpb⟩
    · rw [get?_erase]
      split
      · rename_i hk
        rw [hold b (by rw [hk]; exact hb)] at hpb; cases hpb
      · exact ⟨b, hb, hpb⟩
  rw [← erase_insert_self, (values_insert_perm (t := t.erase (key a)) (by simp [get?_erase])).countP_eq p,
    List.countP_cons, if_pos hp, hsame]

end Table

end Beacon.Lib
