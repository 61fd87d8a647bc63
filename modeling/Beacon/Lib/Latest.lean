/-
  Beacon.Lib.Latest — keys turned on and off by a log of decisions, the newest last.

  `turn` is one decision on the set of keys that are on; `latest` is what the log says last
  of a key.
  - `mem_turned_iff`: a key is on exactly when the latest decision on it turned it on.
  - `latest_of_filter`: the latest decision on a key is a matter of the decisions on it.
  - `run_selected`: a component that only some events of a run decide on is turned by them.
-/

import Beacon.Lib.Trace
import Mathlib.Data.Finset.Basic

namespace Beacon.Lib.Latest

open Trace

variable {κ : Type} [DecidableEq κ]

def turn (on : Finset κ) (decision : κ × Bool) : Finset κ :=
  if decision.2 then insert decision.1 on else on.erase decision.1

def latest (log : List (κ × Bool)) (key : κ) : Option Bool :=
  ((log.filter fun decision => decision.1 = key).getLast?).map Prod.snd

@[simp] theorem latest_nil (key : κ) : latest [] key = none := rfl

theorem latest_snoc (log : List (κ × Bool)) (decision : κ × Bool) (key : κ) :
    latest (log ++ [decision]) key = if decision.1 = key then some decision.2 else latest log key := by
  unfold latest
  rw [List.filter_append]
  by_cases h : decision.1 = key <;> simp [h]

theorem mem_turn {on : Finset κ} {decision : κ × Bool} {key : κ} :
    key ∈ turn on decision ↔ if decision.1 = key then decision.2 = true else key ∈ on := by
  unfold turn
  by_cases hkey : decision.1 = key
  · subst hkey
    cases decision.2 <;> simp
  · rw [if_neg hkey]
    cases decision.2 <;> simp [Ne.symm hkey]

theorem mem_turned_iff (log : List (κ × Bool)) (key : κ) : key ∈ run turn ∅ log ↔ latest log key = some true := by
  induction log using List.reverseRecOn with
  | nil => simp
  | append_singleton log decision ih =>
    rw [run_snoc, mem_turn, latest_snoc]
    by_cases hkey : decision.1 = key
    · rw [if_pos hkey, if_pos hkey, Option.some.injEq]
    · rw [if_neg hkey, if_neg hkey, ih]

/-- Logs with the same decisions on a key say the same of it last. -/
theorem latest_of_filter {log log' : List (κ × Bool)} {key : κ}
    (h : (log.filter fun decision => decision.1 = key) = log'.filter fun decision => decision.1 = key) :
    latest log key = latest log' key := by
  unfold latest
  rw [h]

section Runs

variable {σ ε : Type} {step : σ → ε → σ} {part : σ → Finset κ} {decides : ε → Option (κ × Bool)}

theorem run_selected
    (hstep : ∀ s e, part (step s e) = ((decides e).map (turn (part s))).getD (part s)) (s : σ) (events : List ε) :
    part (run step s events) = run turn (part s) (events.filterMap decides) := by
  induction events generalizing s with
  | nil => rfl
  | cons e events ih =>
    rw [run_cons, ih, hstep]
    cases hdecides : decides e with
    | none => rw [List.filterMap_cons_none hdecides]; rfl
    | some decision => rw [List.filterMap_cons_some hdecides]; rfl

end Runs

end Beacon.Lib.Latest
