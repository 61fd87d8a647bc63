/-
  Beacon.Lib.Backlog — items that wait until they are taken, and a reader that goes
  through them by its place in the list while others add and take.

  - `edits_eq`: after any edits, what waits is what waited before and no edit takes,
    followed by what the edits add and none of them takes later.
  - `Follows`: where a reader stands. What it read and what is behind it came before what
    is still ahead of it; `Follows.add`, `Follows.take` and `Follows.next` keep it.
  - `Follows.passed_count`: as many items are passed over as items that were read are gone.
  - `Missed`: an item once passed over is never read by that reader (`Missed.edits`, `Missed.next`).
-/

import Mathlib.Data.List.Basic
import Mathlib.Data.List.Perm.Basic
import Mathlib.Data.List.Nodup

namespace Beacon.Lib.Backlog

variable {α : Type}

/-! ## Edits -/

inductive Edit (α : Type) where
  | add (a : α)
  | take (p : α → Bool)

def edit (l : List α) : Edit α → List α
  | .add a => l ++ [a]
  | .take p => l.filter fun a => !p a

/-- Some edit takes the item. -/
def taken (es : List (Edit α)) (a : α) : Bool :=
  es.any fun e => match e with | .add _ => false | .take p => p a

/-- What the edits add and none of them takes later, in order. -/
def outstanding : List (Edit α) → List α
  | [] => []
  | .add a :: es => if taken es a then outstanding es else a :: outstanding es
  | .take _ :: es => outstanding es

/-- Everything the edits add, in order. -/
def added (es : List (Edit α)) : List α := es.filterMap fun e => match e with | .add a => some a | .take _ => none

@[simp] theorem taken_nil (a : α) : taken [] a = false := rfl
@[simp] theorem taken_add (b : α) (es : List (Edit α)) (a : α) : taken (.add b :: es) a = taken es a := rfl
@[simp] theorem taken_take (p : α → Bool) (es : List (Edit α)) (a : α) :
    taken (.take p :: es) a = (p a || taken es a) := rfl

theorem edits_eq (l : List α) (es : List (Edit α)) :
    es.foldl edit l = (l.filter fun a => !taken es a) ++ outstanding es := by
  induction es generalizing l with
  | nil => simp [outstanding]
  | cons e es ih =>
    rw [List.foldl_cons, ih]
    cases e with
    | add a =>
      simp only [edit, List.filter_append, outstanding, taken_add, List.append_assoc]
      cases htaken : taken es a <;> simp [htaken]
    | take p =>
      simp only [edit, List.filter_filter, outstanding, taken_take, Bool.not_or]
      congr 2
      funext a
      exact Bool.and_comm _ _

theorem added_append (es fs : List (Edit α)) : added (es ++ fs) = added es ++ added fs := List.filterMap_append

theorem outstanding_sublist (es : List (Edit α)) : (outstanding es).Sublist (added es) := by
  induction es with
  | nil => exact List.Sublist.refl _
  | cons e es ih =>
    cases e with
    | add a =>
      show (if taken es a then outstanding es else a :: outstanding es).Sublist (a :: added es)
      split
      · exact ih.cons a
      · exact ih.cons_cons a
    | take p => exact ih

/-- Filtering on both sides of a place. -/
theorem filter_at (l : List α) (n : Nat) (p : α → Bool) :
    l.filter p = (l.take n).filter p ++ (l.drop n).filter p ∧ ((l.take n).filter p).length ≤ n := by
  refine ⟨?_, Nat.le_trans (List.length_filter_le _ _) (List.length_take_le _ _)⟩
  rw [← List.filter_append, List.take_append_drop]

/-! ## A reader -/

/-- A reader that has handed out `read` and looks at place `cursor` next. -/
structure Reader (α : Type) where
  cursor : Nat
  read : List α

/-- `log` is everything that ever waited, in order. -/
structure Follows (log items : List α) (r : Reader α) : Prop where
  cursor : r.cursor = r.read.length
  split : ∃ before after, log = before ++ after ∧ r.read.Sublist before ∧
    (items.take r.cursor).Sublist before ∧ (items.drop r.cursor).Sublist after

def Reader.next (items : List α) (r : Reader α) : Reader α :=
  match items[r.cursor]? with
  | some a => ⟨r.cursor + 1, r.read ++ [a]⟩
  | none => r

/-- Behind the reader, and never read. -/
def Reader.passed [DecidableEq α] (items : List α) (r : Reader α) : List α :=
  (items.take r.cursor).filter fun a => a ∉ r.read

theorem follows_start {log items : List α} (h : items.Sublist log) : Follows log items ⟨0, []⟩ :=
  ⟨rfl, [], log, rfl, List.nil_sublist _, by simp, by simpa using h⟩

namespace Follows

variable {log items : List α} {r : Reader α}

theorem add (h : Follows log items r) (a : α) : Follows (log ++ [a]) (items ++ [a]) r := by
  obtain ⟨hc, before, after, rfl, hread, htake, hdrop⟩ := h
  by_cases hlen : r.cursor ≤ items.length
  · refine ⟨hc, before, after ++ [a], (List.append_assoc ..), hread, ?_, ?_⟩
    · rwa [List.take_append_of_le_length hlen]
    · rw [List.drop_append_of_le_length hlen]
      exact hdrop.append (List.Sublist.refl _)
  · -- the reader is ahead of the whole list: the item is behind it before it was ever seen
    have hbehind : (items ++ [a]).length ≤ r.cursor := by simp; omega
    rw [List.take_of_length_le (by omega)] at htake
    refine ⟨hc, before ++ after ++ [a], [], by simp, ?_, ?_, ?_⟩
    · exact hread.trans ((List.sublist_append_left _ _).trans (List.sublist_append_left _ _))
    · rw [List.take_of_length_le hbehind]
      exact (htake.trans (List.sublist_append_left _ _)).append (List.Sublist.refl _)
    · rw [List.drop_of_length_le hbehind]

theorem take (h : Follows log items r) (p : α → Bool) : Follows log (items.filter fun a => !p a) r := by
  obtain ⟨hc, before, after, rfl, hread, htake, hdrop⟩ := h
  let kept := fun a => !p a
  obtain ⟨hparts, hshort⟩ := filter_at items r.cursor kept
  -- what moves up from ahead of the reader to behind it
  have hahead : (((items.drop r.cursor).filter kept).take (r.cursor - ((items.take r.cursor).filter kept).length) ++
      ((items.drop r.cursor).filter kept).drop (r.cursor - ((items.take r.cursor).filter kept).length)).Sublist after := by
    rw [List.take_append_drop]
    exact List.filter_sublist.trans hdrop
  obtain ⟨moved, rest, rfl, hmoved, hrest⟩ := List.append_sublist_iff.mp hahead
  refine ⟨hc, before ++ moved, rest, (List.append_assoc ..).symm, hread.trans (List.sublist_append_left _ _), ?_, ?_⟩
  · show ((items.filter kept).take r.cursor).Sublist _
    rw [hparts, List.take_append, List.take_of_length_le hshort]
    exact (List.filter_sublist.trans htake).append hmoved
  · show ((items.filter kept).drop r.cursor).Sublist _
    rw [hparts, List.drop_append, List.drop_of_length_le hshort, List.nil_append]
    exact hrest

theorem edits (h : Follows log items r) (es : List (Edit α)) :
    Follows (log ++ added es) (es.foldl edit items) r := by
  induction es generalizing log items with
  | nil => simpa [added] using h
  | cons e es ih =>
    cases e with
    | add a =>
      have hrest := ih (h.add a)
      rwa [List.append_assoc] at hrest
    | take p => exact ih (h.take p)

theorem next (h : Follows log items r) : Follows log items (r.next items) := by
  unfold Reader.next
  cases hget : items[r.cursor]? with
  | none => exact h
  | some a =>
    obtain ⟨hc, before, after, rfl, hread, htake, hdrop⟩ := h
    obtain ⟨hlt, rfl⟩ := List.getElem?_eq_some_iff.mp hget
    have hcons : (([items[r.cursor]] : List α) ++ items.drop (r.cursor + 1)).Sublist after := by
      rw [List.singleton_append, ← List.drop_eq_getElem_cons hlt]
      exact hdrop
    obtain ⟨seen, rest, rfl, hseen, hrest⟩ := List.append_sublist_iff.mp hcons
    refine ⟨by simp [hc], before ++ seen, rest, (List.append_assoc ..).symm, hread.append hseen, ?_, hrest⟩
    rw [List.take_succ_eq_append_getElem hlt]
    exact htake.append hseen

theorem read_sublist (h : Follows log items r) : r.read.Sublist log := by
  obtain ⟨-, before, after, rfl, hread, -⟩ := h
  exact hread.trans (List.sublist_append_left _ _)

/-- Nothing ahead of the reader has been read. -/
theorem ahead_unread (h : Follows log items r) (hnd : log.Nodup) : ∀ a ∈ items.drop r.cursor, a ∉ r.read := by
  obtain ⟨-, before, after, rfl, hread, -, hdrop⟩ := h
  intro a ha hr
  exact (List.nodup_append.mp hnd).2.2 a (hread.subset hr) a (hdrop.subset ha) rfl

variable [DecidableEq α]

/-- What is read and still waits stands behind the reader. -/
theorem read_waiting (h : Follows log items r) (hnd : log.Nodup) :
    ((items.take r.cursor).filter fun a => a ∈ r.read) = items.filter fun a => a ∈ r.read := by
  have hahead : (items.drop r.cursor).filter (fun a => a ∈ r.read) = [] := by
    rw [List.filter_eq_nil_iff]
    intro a ha
    simpa using h.ahead_unread hnd a ha
  calc ((items.take r.cursor).filter fun a => a ∈ r.read)
    _ = ((items.take r.cursor).filter fun a => a ∈ r.read) ++ (items.drop r.cursor).filter (fun a => a ∈ r.read) := by
        rw [hahead, List.append_nil]
    _ = items.filter fun a => a ∈ r.read := by rw [← List.filter_append, List.take_append_drop]

/-- Of the items read, those that still wait, counted on either list. -/
theorem waiting_count {l m : List α} (hl : l.Nodup) (hm : m.Nodup) :
    (l.filter fun a => a ∈ m).length = (m.filter fun a => a ∈ l).length := by
  refine List.Perm.length_eq ((List.perm_ext_iff_of_nodup (hl.filter _) (hm.filter _)).mpr fun a => ?_)
  simp [and_comm]

/-- The reader is as far as it has read: what it read and is gone, it has passed over as
    much of, unless nothing is left that far. -/
theorem passed_count (h : Follows log items r) (hnd : log.Nodup) (hsub : items.Nodup) :
    (r.passed items).length + (r.read.filter fun a => a ∈ items).length = min r.read.length items.length := by
  have hread : r.read.Nodup := hnd.sublist h.read_sublist
  rw [← waiting_count hsub hread, ← h.read_waiting hnd, ← h.cursor, Reader.passed, Nat.add_comm]
  have hsplit := List.length_eq_length_filter_add (l := items.take r.cursor) fun a => decide (a ∈ r.read)
  rw [List.length_take] at hsplit
  rw [hsplit]
  congr 3
  funext a
  simp

end Follows

/-! ## What a reader has passed over -/

/-- The item is not ahead of the reader, which never read it. -/
structure Missed (log items : List α) (r : Reader α) (a : α) : Prop where
  old : a ∈ log
  behind : a ∉ items.drop r.cursor
  unread : a ∉ r.read

theorem missed_of_passed [DecidableEq α] {log items : List α} {r : Reader α} {a : α} (hsub : items.Sublist log)
    (hnd : log.Nodup) (h : a ∈ r.passed items) : Missed log items r a := by
  obtain ⟨htake, hunread⟩ := List.mem_filter.mp h
  have hparts : (items.take r.cursor ++ items.drop r.cursor).Nodup := by
    rw [List.take_append_drop]
    exact hnd.sublist hsub
  refine ⟨hsub.subset (List.mem_of_mem_take htake), fun hdrop => ?_, by simpa using hunread⟩
  exact (List.nodup_append.mp hparts).2.2 a htake a hdrop rfl

theorem Missed.edit {log items : List α} {r : Reader α} {a : α} (h : Missed log items r a) (e : Edit α)
    (hnd : (log ++ added [e]).Nodup) : Missed (log ++ added [e]) (edit items e) r a := by
  refine ⟨List.mem_append_left _ h.old, fun hdrop => ?_, h.unread⟩
  cases e with
  | add b =>
    have hne : a ≠ b := (List.nodup_append.mp hnd).2.2 a h.old b (by simp [added])
    simp only [Backlog.edit, List.drop_append, List.mem_append] at hdrop
    rcases hdrop with hdrop | hdrop
    · exact h.behind hdrop
    · exact hne (by simpa using List.mem_of_mem_drop hdrop)
  | take p =>
    -- filtering moves items towards the reader, never away from it
    obtain ⟨hparts, hshort⟩ := filter_at items r.cursor fun a => !p a
    simp only [Backlog.edit] at hdrop
    rw [hparts, List.drop_append, List.drop_of_length_le hshort, List.nil_append] at hdrop
    exact h.behind (List.mem_filter.mp (List.mem_of_mem_drop hdrop)).1

theorem Missed.edits {log items : List α} {r : Reader α} {a : α} (h : Missed log items r a) (es : List (Edit α))
    (hnd : (log ++ added es).Nodup) : Missed (log ++ added es) (es.foldl Backlog.edit items) r a := by
  induction es generalizing log items with
  | nil => simpa [added] using h
  | cons e es ih =>
    have hsplit : log ++ added (e :: es) = log ++ added [e] ++ added es := by
      rw [List.append_assoc, ← added_append]
      rfl
    rw [hsplit] at hnd ⊢
    exact ih (h.edit e (List.nodup_append.mp hnd).1) hnd

theorem Missed.next {log items : List α} {r : Reader α} {a : α} (h : Missed log items r a) :
    Missed log items (r.next items) a := by
  unfold Reader.next
  cases hget : items[r.cursor]? with
  | none => exact h
  | some b =>
    obtain ⟨hlt, rfl⟩ := List.getElem?_eq_some_iff.mp hget
    have hbehind := h.behind
    rw [List.drop_eq_getElem_cons hlt, List.mem_cons, not_or] at hbehind
    refine ⟨h.old, hbehind.2, ?_⟩
    simp [h.unread, hbehind.1]

end Beacon.Lib.Backlog
