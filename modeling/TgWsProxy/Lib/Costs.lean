import Mathlib.Algebra.Order.Ring.Nat
import TgWsProxy.Lib.Clocked

set_option relaxedAutoImplicit false
set_option autoImplicit false

/-!
# What a program costs

Operations have costs, and a program has a budget that it keeps to whatever it is answered. Budgets
add up along the composition of programs. With one as the cost of an operation a budget bounds how
often it is performed, with its time limit how long the program takes.

## Main definitions

* `Process.Costs` — a program keeps to a budget.

## Main results

* `Process.costs_bind` — the rule of composition.
* `Process.Costs.path` — what is performed on the way costs no more than the budget.
* `Process.Costs.duration_le` — the time a program takes.
-/

namespace Process

open Prog

variable {Op : Type} {Resp : Op → Type} {α β : Type} {cost : Op → ℕ} {post : α → Prop} {m n : ℕ}

/-- The program costs at most `n`, whatever it is answered, and what it returns meets `post`. -/
def Costs (cost : Op → ℕ) (post : α → Prop) : Prog Op Resp α → ℕ → Prop
  | ret a, _ => post a
  | act op next, n => cost op ≤ n ∧ ∀ r, Costs cost post (next r) (n - cost op)

theorem Costs.mono {p : Prog Op Resp α} {post' : α → Prop} (h : Costs cost post p m) (hle : m ≤ n)
    (hpost : ∀ a, post a → post' a) : Costs cost post' p n := by
  induction p generalizing m n with
  | ret a => exact hpost a h
  | act op next ih =>
    obtain ⟨hop, hnext⟩ := h
    exact ⟨by omega, fun r => ih r (hnext r) (by omega)⟩

/-- The rule of composition: budgets add up. -/
theorem costs_bind {p : Prog Op Resp α} {f : α → Prog Op Resp β} {mid : α → Prop}
    {post : β → Prop} (hp : Costs cost mid p m) (hf : ∀ a, mid a → Costs cost post (f a) n) :
    Costs cost post (p >>= f) (m + n) := by
  induction p generalizing m with
  | ret a => exact (hf a hp).mono (by omega) fun _ h => h
  | act op next ih =>
    obtain ⟨hop, hnext⟩ := hp
    refine ⟨by omega, fun r => ?_⟩
    have hrest : m - cost op + n = m + n - cost op := by omega
    rw [← hrest]
    exact ih r (hnext r)

/-- What is made of the answer costs nothing. -/
theorem costs_map {p : Prog Op Resp α} {g : α → β} (hp : Costs cost post p n) :
    Costs cost (fun _ => True) (p >>= fun a => ret (g a)) n := by
  rw [← Nat.add_zero n]
  exact costs_bind hp fun _ _ => trivial

/-- One operation and what follows it. -/
theorem costs_op {op : Op} {f : Resp op → Prog Op Resp α} (hf : ∀ r, Costs cost post (f r) n) :
    Costs cost post (perform op >>= f) (cost op + n) := by
  refine ⟨by omega, fun r => ?_⟩
  rw [Nat.add_sub_cancel_left]
  exact hf r

/-- An operation that costs nothing. -/
theorem costs_free {op : Op} {f : Resp op → Prog Op Resp α} (hop : cost op = 0)
    (hf : ∀ r, Costs cost post (f r) n) : Costs cost post (perform op >>= f) n := by
  have h := costs_op hf
  rwa [hop, Nat.zero_add] at h

/-- **What is performed on the way** costs no more than the budget. -/
theorem Costs.path {p q : Prog Op Resp α} {events : List (Event Op Resp)}
    (h : Costs cost post p n) (hpath : Path p events q) :
    (events.map fun e => cost e.op).sum ≤ n := by
  induction hpath generalizing n with
  | here => simp
  | step _ ih =>
    obtain ⟨hop, hnext⟩ := h
    have hrest := ih (hnext _)
    simp only [List.map_cons, List.sum_cons]
    omega

/-- **The time a program takes**, on a network that takes no longer than the costs say. -/
theorem Costs.duration_le {p : Prog Op Resp α} {net : Network Op Resp} (h : Costs cost post p n)
    (hnet : ∀ before op, (net before op).2 ≤ cost op) (before : List Op) :
    duration net before p ≤ n := by
  induction p generalizing n before with
  | ret a => exact Nat.zero_le n
  | act op next ih =>
    obtain ⟨hop, hnext⟩ := h
    have hfirst := hnet before op
    have hrest := ih _ (hnext (net before op).1) (before ++ [op])
    rw [duration_act]
    omega

end Process
