import Mathlib.Data.List.Basic
import Mathlib.Logic.Relation

set_option relaxedAutoImplicit false
set_option autoImplicit false

/-!
# Loops that come to an end

A loop as a function on the states at its head: a turn fails, ends the loop with a result, or goes
on with another state. A measure that falls with every turn is part of the loop, so that running it
is a total function. Nested loops are one loop whose states say which head they stand at.

## Main definitions

* `Loops.Loop` — turns and their measure.
* `Loops.Loop.run` — the result of a loop.
* `Loops.Loop.Reaches` — the states at the heads of a run.

## Main results

* `Loops.Loop.run_again`, `run_done`, `run_error` — a run turn by turn.
* `Loops.Loop.invariant` — what every turn keeps holds at every head.
* `Loops.Loop.run_rule` — the invariant rule.
-/

namespace Loops

variable {σ ε ρ : Type}

/-- A loop over the states `σ` that ends with a `ρ` or fails with an `ε`. -/
structure Loop (σ ε ρ : Type) where
  turn : σ → Except ε (σ ⊕ ρ)
  measure : σ → ℕ
  falls : ∀ {s s' : σ}, turn s = .ok (.inl s') → measure s' < measure s

namespace Loop

variable (l : Loop σ ε ρ)

/-- The result of a loop that has fewer than `fuel` turns left. -/
def runFrom : (fuel : ℕ) → (s : σ) → l.measure s < fuel → Except ε ρ
  | 0, _, h => absurd h (Nat.not_lt_zero _)
  | fuel + 1, s, h =>
    match hturn : l.turn s with
    | .error e => .error e
    | .ok (.inr r) => .ok r
    | .ok (.inl s') => runFrom fuel s' (by have hfall := l.falls hturn; omega)

/-- The result of a loop. -/
def run (s : σ) : Except ε ρ := l.runFrom (l.measure s + 1) s (Nat.lt_succ_self _)

/-- The states at the head of the loop in a run from `s`. -/
def Reaches (s t : σ) : Prop := Relation.ReflTransGen (fun s s' => l.turn s = .ok (.inl s')) s t

variable {l}

/-- Fuel beyond the measure does not matter. -/
theorem runFrom_eq {fuel fuel' : ℕ} {s : σ} (h : l.measure s < fuel) (h' : l.measure s < fuel') :
    l.runFrom fuel s h = l.runFrom fuel' s h' := by
  induction fuel generalizing fuel' s with
  | zero => exact absurd h (Nat.not_lt_zero _)
  | succ fuel ih =>
    obtain ⟨fuel', rfl⟩ : ∃ n, fuel' = n + 1 := ⟨fuel' - 1, by omega⟩
    rw [runFrom, runFrom]
    split
    · rfl
    · rfl
    · exact ih _ _

theorem run_again {s s' : σ} (h : l.turn s = .ok (.inl s')) : l.run s = l.run s' := by
  rw [run, runFrom]
  split
  all_goals rename_i heq; rw [heq] at h
  · cases h
  · cases h
  · cases h
    exact runFrom_eq _ _

theorem run_done {s : σ} {r : ρ} (h : l.turn s = .ok (.inr r)) : l.run s = .ok r := by
  rw [run, runFrom]
  split
  all_goals rename_i heq; rw [heq] at h; cases h
  rfl

theorem run_error {s : σ} {e : ε} (h : l.turn s = .error e) : l.run s = .error e := by
  rw [run, runFrom]
  split
  all_goals rename_i heq; rw [heq] at h; cases h
  rfl

/-- What every turn keeps holds at every head of a run. -/
theorem invariant (Inv : σ → Prop)
    (hstep : ∀ s s', Inv s → l.turn s = .ok (.inl s') → Inv s') {s t : σ} (h : l.Reaches s t)
    (hs : Inv s) : Inv t := by
  induction h with
  | refl => exact hs
  | tail _ hturn ih => exact hstep _ _ ih hturn

/-- **The invariant rule.** What every turn keeps, and what follows from it where the loop ends or
fails, holds of the result. -/
theorem run_rule (Inv : σ → Prop) (Post : Except ε ρ → Prop)
    (hstep : ∀ s s', Inv s → l.turn s = .ok (.inl s') → Inv s')
    (hdone : ∀ s r, Inv s → l.turn s = .ok (.inr r) → Post (.ok r))
    (herror : ∀ s e, Inv s → l.turn s = .error e → Post (.error e)) {s : σ} (hs : Inv s) :
    Post (l.run s) := by
  -- the measure falls with every turn
  induction hm : l.measure s using Nat.strongRecOn generalizing s with
  | ind n ih =>
    cases hturn : l.turn s with
    | error e =>
      rw [run_error hturn]
      exact herror s e hs hturn
    | ok next =>
      cases next with
      | inr r =>
        rw [run_done hturn]
        exact hdone s r hs hturn
      | inl s' =>
        rw [run_again hturn]
        exact ih _ (hm ▸ l.falls hturn) (hstep s s' hs hturn) rfl

end Loop

end Loops
