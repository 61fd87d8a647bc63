/-
  Beacon.Lib.Trace — runs of a deterministic machine, `step : σ → ε → σ` over a list
  of events, and the rules that carry a fact about one step to a whole run.

  - `eachStep_iff` / `eachState_iff`: `EachStep` and `EachState` say what they say of
    every split of the run. `SomeStep` grows with the run (`someStep_snoc`).
  - `inv_run`: a property every good step keeps holds at the end of a good run.
  - `sim_run`: two machines whose steps keep a relation are related after the same events.
  - `rel_run`: a reflexive, transitive relation every good step stays inside relates
    the ends of a good run; `rel_between` any two of its states.
  - `run_prefix_induction`: induction over a run, with the events done so far at hand.
  - `eachState_iff_eachStep`: where a step keeps the property exactly when it is good,
    the property holds in every state exactly when every step is good.
  - `Heeds`: a log in which every item comes after all it needs.
  - `log`: what the steps of a run note down, in order.
-/

import Mathlib.Data.List.Induction
import Mathlib.Order.Defs.Unbundled

namespace Beacon.Lib.Trace

variable {σ ε : Type}

def run (step : σ → ε → σ) (s : σ) (es : List ε) : σ := es.foldl step s

/-- Every step of the run from `s` satisfies `P`. -/
def EachStep (step : σ → ε → σ) (P : σ → ε → Prop) : σ → List ε → Prop
  | _, [] => True
  | s, e :: es => P s e ∧ EachStep step P (step s e) es

/-- Every state of the run from `s`, the first and the last included, satisfies `Q`. -/
def EachState (step : σ → ε → σ) (Q : σ → Prop) : σ → List ε → Prop
  | s, [] => Q s
  | s, e :: es => Q s ∧ EachState step Q (step s e) es

/-- Some step of the run from `s` satisfies `P`. -/
def SomeStep (step : σ → ε → σ) (P : σ → ε → Prop) : σ → List ε → Prop
  | _, [] => False
  | s, e :: es => P s e ∨ SomeStep step P (step s e) es

variable {step : σ → ε → σ} {P : σ → ε → Prop} {Q : σ → Prop}

instance decidableEachStep [∀ s e, Decidable (P s e)] : (s : σ) → (es : List ε) → Decidable (EachStep step P s es)
  | _, [] => .isTrue trivial
  | s, e :: es => @instDecidableAnd _ _ _ (decidableEachStep (step s e) es)

instance decidableSomeStep [∀ s e, Decidable (P s e)] : (s : σ) → (es : List ε) → Decidable (SomeStep step P s es)
  | _, [] => .isFalse id
  | s, e :: es => @instDecidableOr _ _ _ (decidableSomeStep (step s e) es)

@[simp] theorem run_nil (s : σ) : run step s [] = s := rfl
@[simp] theorem run_cons (s : σ) (e : ε) (es : List ε) : run step s (e :: es) = run step (step s e) es := rfl

theorem run_append (s : σ) (es fs : List ε) : run step s (es ++ fs) = run step (run step s es) fs :=
  List.foldl_append

@[simp] theorem run_snoc (s : σ) (es : List ε) (e : ε) : run step s (es ++ [e]) = step (run step s es) e := by
  simp [run_append]

theorem eachStep_append {s : σ} {es fs : List ε} :
    EachStep step P s (es ++ fs) ↔ EachStep step P s es ∧ EachStep step P (run step s es) fs := by
  induction es generalizing s with
  | nil => simp [EachStep]
  | cons e es ih => simp [EachStep, ih, and_assoc]

theorem eachStep_mono {P' : σ → ε → Prop} (h : ∀ s e, P s e → P' s e) {s : σ} {es : List ε}
    (hs : EachStep step P s es) : EachStep step P' s es := by
  induction es generalizing s with
  | nil => trivial
  | cons e es ih => exact ⟨h _ _ hs.1, ih hs.2⟩

theorem eachStep_congr {P' : σ → ε → Prop} (h : ∀ s e, P s e ↔ P' s e) {s : σ} {es : List ε} :
    EachStep step P s es ↔ EachStep step P' s es :=
  ⟨eachStep_mono fun s e => (h s e).mp, eachStep_mono fun s e => (h s e).mpr⟩

theorem eachStep_and {P' : σ → ε → Prop} {s : σ} {es : List ε} :
    EachStep step (fun s e => P s e ∧ P' s e) s es ↔ EachStep step P s es ∧ EachStep step P' s es := by
  induction es generalizing s with
  | nil => simp [EachStep]
  | cons e es ih => simp only [EachStep, ih, and_and_and_comm]

theorem eachStep_true (s : σ) (es : List ε) : EachStep step (fun _ _ => True) s es := by
  induction es generalizing s with
  | nil => trivial
  | cons e es ih => exact ⟨trivial, ih _⟩

theorem eachStep_iff {s : σ} {es : List ε} :
    EachStep step P s es ↔ ∀ pre e post, es = pre ++ e :: post → P (run step s pre) e := by
  constructor
  · intro h pre e post hsplit
    subst hsplit
    exact (eachStep_append.mp h).2.1
  · intro h
    induction es generalizing s with
    | nil => trivial
    | cons e es ih =>
      refine ⟨h [] e es rfl, ih fun pre f post hf => ?_⟩
      exact h (e :: pre) f post (by rw [hf, List.cons_append])

@[simp] theorem someStep_nil (s : σ) : ¬ SomeStep step P s [] := id

theorem someStep_append {s : σ} {es fs : List ε} :
    SomeStep step P s (es ++ fs) ↔ SomeStep step P s es ∨ SomeStep step P (run step s es) fs := by
  induction es generalizing s with
  | nil => simp
  | cons e es ih => simp [SomeStep, ih, or_assoc]

theorem someStep_snoc {s : σ} {es : List ε} {e : ε} :
    SomeStep step P s (es ++ [e]) ↔ SomeStep step P s es ∨ P (run step s es) e := by
  simp [someStep_append, SomeStep]

theorem eachState_iff {s : σ} {es : List ε} :
    EachState step Q s es ↔ ∀ pre post, es = pre ++ post → Q (run step s pre) := by
  constructor
  · intro h pre post hsplit
    subst hsplit
    induction pre generalizing s with
    | nil =>
      cases post with
      | nil => exact h
      | cons e post => exact h.1
    | cons e pre ih => exact ih h.2
  · intro h
    induction es generalizing s with
    | nil => exact h [] [] rfl
    | cons e es ih =>
      refine ⟨h [] (e :: es) rfl, ih fun pre post hp => ?_⟩
      exact h (e :: pre) post (by rw [hp, List.cons_append])

theorem EachState.last {s : σ} {es : List ε} (h : EachState step Q s es) : Q (run step s es) :=
  eachState_iff.mp h es [] (by simp)

theorem inv_run (hstep : ∀ s e, P s e → Q s → Q (step s e)) {s : σ} {es : List ε} (hs : Q s)
    (hes : EachStep step P s es) : Q (run step s es) := by
  induction es generalizing s with
  | nil => exact hs
  | cons e es ih => exact ih (hstep s e hes.1 hs) hes.2

theorem sim_run {τ : Type} {step' : τ → ε → τ} {A : ε → Prop} {R : σ → τ → Prop}
    (hstep : ∀ s t e, A e → R s t → R (step s e) (step' t e)) {s : σ} {t : τ} (h : R s t) {es : List ε}
    (hes : ∀ e ∈ es, A e) : R (run step s es) (run step' t es) := by
  induction es generalizing s t with
  | nil => exact h
  | cons e es ih =>
    exact ih (hstep s t e (hes e List.mem_cons_self) h) fun f hf => hes f (List.mem_cons_of_mem _ hf)

theorem rel_run {R : σ → σ → Prop} (hrefl : ∀ s, R s s) (htrans : ∀ s t u, R s t → R t u → R s u)
    (hstep : ∀ s e, P s e → R s (step s e)) {s : σ} {es : List ε} (hes : EachStep step P s es) :
    R s (run step s es) := by
  induction es generalizing s with
  | nil => exact hrefl s
  | cons e es ih => exact htrans _ _ _ (hstep s e hes.1) (ih hes.2)

/-- Induction over a run with the events done so far at hand. -/
theorem run_prefix_induction {M : List ε → σ → Prop} {s : σ} {es : List ε} (h0 : M [] s)
    (hstep : ∀ pre e post, es = pre ++ e :: post → M pre (run step s pre) →
      M (pre ++ [e]) (step (run step s pre) e)) : M es (run step s es) := by
  have hpre : ∀ pre post, es = pre ++ post → M pre (run step s pre) := by
    intro pre
    induction pre using List.reverseRecOn with
    | nil => exact fun _ _ => h0
    | append_singleton pre e ih =>
      intro post hes
      rw [run_snoc]
      have hes' : es = pre ++ e :: post := by rw [hes, List.append_assoc]; rfl
      exact hstep pre e post hes' (ih _ hes')
  exact hpre es [] (by simp)

/-- Any earlier state of a good run is related to any later one. -/
theorem rel_between {R : σ → σ → Prop} (hrefl : ∀ s, R s s) (htrans : ∀ s t u, R s t → R t u → R s u)
    (hstep : ∀ s e, P s e → R s (step s e)) {s : σ} {pre mid : List ε} (hes : EachStep step P s (pre ++ mid)) :
    R (run step s pre) (run step s (pre ++ mid)) := by
  rw [run_append]
  exact rel_run hrefl htrans hstep (eachStep_append.mp hes).2

/-- `I` is what else the argument may use of a state; it holds wherever `Q` has held so far. -/
theorem eachState_iff_eachStep {I : σ → Prop} {A : ε → Prop} (hI : ∀ s e, A e → I s → Q s → P s e → I (step s e))
    (hQ : ∀ s e, A e → I s → Q s → (Q (step s e) ↔ P s e)) {s : σ} {es : List ε} (hA : ∀ e ∈ es, A e)
    (hIs : I s) (hQs : Q s) : EachState step Q s es ↔ EachStep step P s es := by
  induction es generalizing s with
  | nil => simpa [EachState, EachStep] using hQs
  | cons e es ih =>
    have hAe := hA e List.mem_cons_self
    have hstep := hQ s e hAe hIs hQs
    have hrest := fun (hP : P s e) => ih (fun f hf => hA f (List.mem_cons_of_mem _ hf))
      (hI s e hAe hIs hQs hP) (hstep.mpr hP)
    constructor
    · intro h
      rcases h with ⟨-, h⟩
      have hQ' : Q (step s e) := by
        cases es with
        | nil => exact h
        | cons f es => exact h.1
      exact ⟨hstep.mp hQ', (hrest (hstep.mp hQ')).mp h⟩
    · intro h
      rcases h with ⟨hP, h⟩
      exact ⟨hQs, (hrest hP).mpr h⟩

/-! ## Logs -/

/-- What the steps of the run from `s` note down. -/
def log {α : Type} (step : σ → ε → σ) (note : σ → ε → List α) : σ → List ε → List α
  | _, [] => []
  | s, e :: es => note s e ++ log step note (step s e) es

theorem log_append {α : Type} {note : σ → ε → List α} (s : σ) (es fs : List ε) :
    log step note s (es ++ fs) = log step note s es ++ log step note (run step s es) fs := by
  induction es generalizing s with
  | nil => rfl
  | cons e es ih => rw [List.cons_append, log, log, ih, List.append_assoc, run_cons]

theorem log_snoc {α : Type} {note : σ → ε → List α} (s : σ) (es : List ε) (e : ε) :
    log step note s (es ++ [e]) = log step note s es ++ note (run step s es) e := by
  rw [log_append, log, log, List.append_nil]

theorem mem_log {α : Type} {note : σ → ε → List α} {x : α} {s : σ} {es : List ε} :
    x ∈ log step note s es ↔ ∃ pre e post, es = pre ++ e :: post ∧ x ∈ note (run step s pre) e := by
  induction es generalizing s with
  | nil => simp [log]
  | cons e es ih =>
    rw [log, List.mem_append, ih]
    constructor
    · rintro (h | ⟨pre, f, post, rfl, h⟩)
      · exact ⟨[], e, es, rfl, h⟩
      · exact ⟨e :: pre, f, post, rfl, h⟩
    · rintro ⟨pre, f, post, hsplit, h⟩
      cases pre with
      | nil =>
        obtain ⟨rfl, rfl⟩ := List.cons.inj hsplit
        exact Or.inl h
      | cons g pre =>
        obtain ⟨rfl, rfl⟩ := List.cons.inj hsplit
        exact Or.inr ⟨pre, f, post, rfl, h⟩

section Logs

variable {α : Type} {needs : α → α → Prop}

/-- Every item of the log comes after all it needs. -/
def Heeds (needs : α → α → Prop) (log : List α) : Prop :=
  ∀ before x after, log = before ++ x :: after → ∀ y, needs y x → y ∈ before

theorem heeds_nil : Heeds needs [] := by
  intro before x after h
  simp at h

theorem Heeds.snoc {log : List α} {x : α} (h : Heeds needs log) (hx : ∀ y, needs y x → y ∈ log) :
    Heeds needs (log ++ [x]) := by
  intro before z after hsplit y hy
  rcases List.eq_nil_or_concat after with rfl | ⟨after, w, rfl⟩
  · obtain ⟨rfl, hzx⟩ := List.append_inj' hsplit rfl
    obtain rfl : x = z := by simpa using hzx
    exact hx y hy
  · have hsplit' : log ++ [x] = (before ++ z :: after) ++ [w] := by simpa using hsplit
    exact h before z after (List.append_inj' hsplit' rfl).1 y hy

end Logs

end Beacon.Lib.Trace
