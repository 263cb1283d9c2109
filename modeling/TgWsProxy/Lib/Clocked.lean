import TgWsProxy.Lib.Prog

set_option relaxedAutoImplicit false
set_option autoImplicit false

/-!
# Running against the clock

A network answers an operation with a response and with the time it took. A program that runs
against the clock is cut off when its time is up: the operation it waits for has been started, and
its response never comes. Several such programs can run one after another, each with a time limit of
its own.

## Main definitions

* `Process.Network`, `Clocked` — what a network does, and what came of a computation on it.
* `Process.duration`, `timeout` — how long a program takes, and the program with a time limit.

## Main results

* `Process.timeout_value` — a program is cut off exactly if it takes longer than it may.
* `Process.timeout_elapsed` — it takes no longer than it may.
* `Process.timeout_started` — a safe program starts what it may, also when it is cut off.
-/

namespace Process

open Prog

variable {Op : Type} {Resp : Op → Type} {α β : Type}

/-- The response to an operation and how long it takes, given what was started before it. -/
abbrev Network (Op : Type) (Resp : Op → Type) := List Op → (op : Op) → Resp op × ℕ

/-- What came of a computation: its value, how long it took, and the operations it started. -/
structure Outcome (Op α : Type) where
  value : α
  elapsed : ℕ
  started : List Op

/-- A computation on a network, given what was started before it. -/
def Clocked (Op α : Type) := List Op → Outcome Op α

instance : Monad (Clocked Op) where
  pure a := fun _ => ⟨a, 0, []⟩
  bind x f := fun before =>
    let first := x before
    let second := f first.value (before ++ first.started)
    ⟨second.value, first.elapsed + second.elapsed, first.started ++ second.started⟩

theorem Clocked.bind_apply (x : Clocked Op α) (f : α → Clocked Op β) (before : List Op) :
    (x >>= f) before =
      ⟨(f (x before).value (before ++ (x before).started)).value,
        (x before).elapsed + (f (x before).value (before ++ (x before).started)).elapsed,
        (x before).started ++ (f (x before).value (before ++ (x before).started)).started⟩ := rfl

@[simp] theorem Clocked.pure_apply (a : α) (before : List Op) :
    (pure a : Clocked Op α) before = ⟨a, 0, []⟩ := rfl

/-! ## Time limits -/

variable (net : Network Op Resp)

/-- What a program returns if it may take as long as it likes. -/
def answer : List Op → Prog Op Resp α → α
  | _, ret a => a
  | before, act op next => answer (before ++ [op]) (next (net before op).1)

/-- How long a program takes. -/
def duration : List Op → Prog Op Resp α → ℕ
  | _, ret _ => 0
  | before, act op next => (net before op).2 + duration (before ++ [op]) (next (net before op).1)

/-- A program with a time limit; no value if the time is up. -/
def timeout (limit : ℕ) : Prog Op Resp α → Clocked Op (Option α)
  | ret a => fun _ => ⟨some a, 0, []⟩
  | act op next => fun before =>
    let reply := net before op
    if reply.2 ≤ limit then
      let rest := timeout (limit - reply.2) (next reply.1) (before ++ [op])
      ⟨rest.value, reply.2 + rest.elapsed, op :: rest.started⟩
    else ⟨none, limit, [op]⟩

variable {net}

theorem duration_act (before : List Op) (op : Op) (next : Resp op → Prog Op Resp α) :
    duration net before (act op next) =
      (net before op).2 + duration net (before ++ [op]) (next (net before op).1) := rfl

/-- What is made of a value takes no operation. -/
theorem answer_map {p : Prog Op Resp α} {g : α → β} : ∀ before : List Op,
    answer net before (p >>= fun a => ret (g a)) = g (answer net before p) := by
  induction p with
  | ret a => exact fun _ => rfl
  | act op next ih => exact fun before => ih _ _

/-- An operation that is answered in time. -/
theorem timeout_act_of_le {limit : ℕ} {before : List Op} {op : Op}
    {next : Resp op → Prog Op Resp α} (h : (net before op).2 ≤ limit) :
    timeout net limit (act op next) before =
      let rest := timeout net (limit - (net before op).2) (next (net before op).1) (before ++ [op])
      ⟨rest.value, (net before op).2 + rest.elapsed, op :: rest.started⟩ := if_pos h

/-- An operation that is not. -/
theorem timeout_act_of_lt {limit : ℕ} {before : List Op} {op : Op}
    {next : Resp op → Prog Op Resp α} (h : limit < (net before op).2) :
    timeout net limit (act op next) before = ⟨none, limit, [op]⟩ :=
  if_neg (Nat.not_le.mpr h)

/-- **Time limits.** A program is cut off exactly if it takes longer than it may; in time it returns
what it would return anyway. -/
theorem timeout_value (p : Prog Op Resp α) : ∀ (limit : ℕ) (before : List Op),
    (timeout net limit p before).value =
      if duration net before p ≤ limit then some (answer net before p) else none := by
  induction p with
  | ret a => exact fun limit before => (if_pos (Nat.zero_le limit)).symm
  | act op next ih =>
    intro limit before
    rcases Nat.lt_or_ge limit (net before op).2 with hlate | hin
    · have hlong : ¬ duration net before (act op next) ≤ limit := by
        rw [duration_act]
        omega
      rw [timeout_act_of_lt hlate, if_neg hlong]
    · rw [timeout_act_of_le hin]
      refine (ih _ _ _).trans (if_congr ?_ rfl rfl)
      rw [duration_act]
      omega

/-- It takes as long as it takes, but no longer than it may. -/
theorem timeout_elapsed (p : Prog Op Resp α) : ∀ (limit : ℕ) (before : List Op),
    (timeout net limit p before).elapsed = min (duration net before p) limit := by
  induction p with
  | ret a => exact fun limit before => (Nat.zero_min limit).symm
  | act op next ih =>
    intro limit before
    rw [duration_act]
    rcases Nat.lt_or_ge limit (net before op).2 with hlate | hin
    · rw [timeout_act_of_lt hlate]
      simp only
      omega
    · rw [timeout_act_of_le hin]
      simp only [ih]
      omega

/-- A safe program starts nothing but what its guarantee allows, also when it is cut off. -/
theorem timeout_started {guar : Op → Prop} {rely : (op : Op) → Resp op → Prop} {post : α → Prop}
    {p : Prog Op Resp α} (hp : Safe guar rely post p)
    (hnet : ∀ before op, rely op (net before op).1) : ∀ (limit : ℕ) (before : List Op),
    (∀ op ∈ (timeout net limit p before).started, guar op) ∧ post (answer net before p) := by
  induction p with
  | ret a =>
    intro limit before
    exact ⟨fun op hop => absurd hop List.not_mem_nil, hp⟩
  | act op next ih =>
    intro limit before
    obtain ⟨hop, hnext⟩ := hp
    have hrest := ih _ (hnext _ (hnet before op)) (limit - (net before op).2) (before ++ [op])
    refine ⟨?_, hrest.2⟩
    rcases Nat.lt_or_ge limit (net before op).2 with hlate | hin
    · rw [timeout_act_of_lt hlate]
      intro op' hop'
      rw [List.mem_singleton.mp hop']
      exact hop
    · rw [timeout_act_of_le hin]
      intro op' hop'
      rcases List.mem_cons.mp hop' with rfl | hop'
      · exact hop
      · exact hrest.1 op' hop'

end Process
