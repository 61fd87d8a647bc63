/-
  Beacon.Lib.Code — codes read off the front of a text.

  A codeword need not say where it ends if what may follow it does. `ReadAt D R enc a`
  says that in front of a rest of the kind `R` the codeword of `a` is told from every
  other in `D`, and its end found.
  - `readAt_of_reader`: a reader that returns what was written is enough.
  - `run_ends`: a run of characters of one class ends where the class does.
  - `terminated_ends`: a list of codewords up to a closing character none begins with.
  - `separated_ends`: the same with a separator in between.
-/

import Mathlib.Data.List.Basic

namespace Beacon.Lib.Code

variable {α χ : Type}

/-- In front of a rest of the kind `R`, the codeword of `a` is told from every other in `D`. -/
def ReadAt (D : α → Prop) (R : List χ → Prop) (enc : α → List χ) (a : α) : Prop :=
  ∀ b s t, D b → R s → R t → enc a ++ s = enc b ++ t → a = b ∧ s = t

/-- The text is empty, or begins outside the class. -/
def BeginsOutside (p : χ → Bool) (s : List χ) : Prop := ∀ c ∈ s.head?, p c = false

variable {D : α → Prop} {R : List χ → Prop} {enc : α → List χ}

theorem readAt_of_reader {read : List χ → Option (α × List χ)}
    (h : ∀ a s, D a → R s → read (enc a ++ s) = some (a, s)) {a : α} (ha : D a) : ReadAt D R enc a := by
  intro b s t hb hs ht heq
  have hsame := h a s ha hs
  rw [heq, h b t hb ht, Option.some.injEq, Prod.mk.injEq] at hsame
  exact ⟨hsame.1.symm, hsame.2.symm⟩

theorem run_ends {p : χ → Bool} {xs ys s t : List χ} (hxs : ∀ c ∈ xs, p c = true) (hys : ∀ c ∈ ys, p c = true)
    (hs : BeginsOutside p s) (ht : BeginsOutside p t) (h : xs ++ s = ys ++ t) : xs = ys ∧ s = t := by
  induction xs generalizing ys with
  | nil =>
    cases ys with
    | nil => exact ⟨rfl, h⟩
    | cons y ys =>
      have hhead : y ∈ s.head? := by rw [show s = y :: (ys ++ t) from h]; rfl
      have hclass := hys y List.mem_cons_self
      rw [hs y hhead] at hclass
      cases hclass
  | cons x xs ih =>
    cases ys with
    | nil =>
      have hhead : x ∈ t.head? := by rw [show t = x :: (xs ++ s) from h.symm]; rfl
      have hclass := hxs x List.mem_cons_self
      rw [ht x hhead] at hclass
      cases hclass
    | cons y ys =>
      obtain ⟨rfl, hrest⟩ := List.cons.inj h
      obtain ⟨rfl, hst⟩ := ih (fun c hc => hxs c (List.mem_cons_of_mem _ hc))
        (fun c hc => hys c (List.mem_cons_of_mem _ hc)) hrest
      exact ⟨rfl, hst⟩

/-! ## Lists of codewords -/

variable {close : χ}

/-- No codeword of `D` is empty or begins with the closing character. -/
def BeginsOther (D : α → Prop) (enc : α → List χ) (close : χ) : Prop := ∀ a, D a → ∃ c w, enc a = c :: w ∧ c ≠ close

theorem BeginsOther.ne (h : BeginsOther D enc close) {a : α} (ha : D a) {s t : List χ} :
    enc a ++ s ≠ close :: t := by
  obtain ⟨c, w, hword, hne⟩ := h a ha
  intro heq
  rw [hword] at heq
  exact hne (List.cons.inj heq).1

theorem terminated_ends (hother : BeginsOther D enc close)
    (hrest : ∀ (l : List α) (s : List χ), R (l.flatMap enc ++ close :: s)) {l m : List α}
    (hl : ∀ a ∈ l, D a ∧ ReadAt D R enc a) (hm : ∀ b ∈ m, D b) {s t : List χ}
    (h : l.flatMap enc ++ close :: s = m.flatMap enc ++ close :: t) : l = m ∧ s = t := by
  induction l generalizing m with
  | nil =>
    cases m with
    | nil => exact ⟨rfl, (List.cons.inj h).2⟩
    | cons b m =>
      rw [List.flatMap_cons, List.append_assoc] at h
      exact absurd h.symm (hother.ne (hm b List.mem_cons_self))
  | cons a l ih =>
    cases m with
    | nil =>
      rw [List.flatMap_cons, List.append_assoc] at h
      exact absurd h (hother.ne (hl a List.mem_cons_self).1)
    | cons b m =>
      rw [List.flatMap_cons, List.flatMap_cons, List.append_assoc, List.append_assoc] at h
      obtain ⟨rfl, htail⟩ :=
        (hl a List.mem_cons_self).2 b _ _ (hm b List.mem_cons_self) (hrest l s) (hrest m t) h
      obtain ⟨rfl, hst⟩ := ih (fun a ha => hl a (List.mem_cons_of_mem _ ha))
        (fun b hb => hm b (List.mem_cons_of_mem _ hb)) htail
      exact ⟨rfl, hst⟩

/-- The codewords with `sep` between them, up to `close`. -/
def separated (sep close : χ) (enc : α → List χ) : List α → List χ
  | [] => [close]
  | a :: l => enc a ++ (l.flatMap (fun b => sep :: enc b) ++ [close])

theorem separated_ends {sep : χ} (hsep : sep ≠ close) (hother : BeginsOther D enc close)
    (hrest : ∀ s, R (sep :: s) ∧ R (close :: s)) {l m : List α} (hl : ∀ a ∈ l, D a ∧ ReadAt D R enc a)
    (hm : ∀ b ∈ m, D b) {s t : List χ}
    (h : separated sep close enc l ++ s = separated sep close enc m ++ t) : l = m ∧ s = t := by
  -- past the first codeword every one begins with the separator
  let after : α → List χ := fun b => sep :: enc b
  have hrest' : ∀ (l : List α) (s : List χ), R (l.flatMap after ++ close :: s) := by
    intro l s
    cases l with
    | nil => exact (hrest s).2
    | cons b l => exact (hrest _).1
  have hafter : ∀ a, ReadAt D R enc a → ReadAt D R after a :=
    fun a ha b s t hb hs ht heq => ha b s t hb hs ht (List.cons.inj heq).2
  cases l with
  | nil =>
    cases m with
    | nil => exact ⟨rfl, (List.cons.inj h).2⟩
    | cons b m =>
      rw [separated, separated, List.append_assoc] at h
      exact absurd h.symm (hother.ne (hm b List.mem_cons_self))
  | cons a l =>
    cases m with
    | nil =>
      rw [separated, separated, List.append_assoc] at h
      exact absurd h (hother.ne (hl a List.mem_cons_self).1)
    | cons b m =>
      simp only [separated, List.append_assoc, List.cons_append, List.nil_append] at h
      obtain ⟨rfl, htail⟩ :=
        (hl a List.mem_cons_self).2 b _ _ (hm b List.mem_cons_self) (hrest' l s) (hrest' m t) h
      have hlafter : ∀ a ∈ l, D a ∧ ReadAt D R after a :=
        fun a ha => (hl a (List.mem_cons_of_mem _ ha)).imp id (hafter a)
      obtain ⟨rfl, hst⟩ := terminated_ends (fun a _ => ⟨sep, enc a, rfl, hsep⟩) hrest' hlafter
        (fun b hb => hm b (List.mem_cons_of_mem _ hb)) htail
      exact ⟨rfl, hst⟩

end Beacon.Lib.Code
