import Mathlib.Data.List.Basic

set_option relaxedAutoImplicit false
set_option autoImplicit false

/-!
# Programs over atomic operations

A sequential program is a tree: it returns a value, or performs an atomic operation and goes on
with its response. What the operations do is not part of the program, so a property of all paths
holds whatever the rest of the system does between two operations.

## Main definitions

* `Process.Prog` — programs, a monad.
* `Process.Path` — `Path p events q`: after performing `events`, the program `p` is at `q`.
* `Process.Safe` — a rely-guarantee triple: every operation meets a guarantee as long as every
  response meets what it relies on, and the returned value meets a postcondition.
* `Process.eval` — the value and the history of a program whose responses come from an oracle.

## Main results

* `Process.safe_bind`, `Safe.mono` — the rules of composition and consequence.
* `Process.Safe.path` — a safe program is safe along all its paths.
* `Process.eval_bind` — evaluation composes.
-/

namespace Process

/-- A program over the operations `Op`, where `op` is answered by a `Resp op`. -/
inductive Prog (Op : Type) (Resp : Op → Type) (α : Type) : Type
  | ret (a : α) : Prog Op Resp α
  | act (op : Op) (next : Resp op → Prog Op Resp α) : Prog Op Resp α

variable {Op : Type} {Resp : Op → Type} {α β γ : Type}

namespace Prog

/-- Sequential composition. -/
def bind : Prog Op Resp α → (α → Prog Op Resp β) → Prog Op Resp β
  | ret a, f => f a
  | act op next, f => act op fun r => (next r).bind f

instance : Monad (Prog Op Resp) where
  pure := ret
  bind := bind

/-- One operation as a program. -/
def perform (op : Op) : Prog Op Resp (Resp op) := act op ret

@[simp] theorem pure_eq (a : α) : (pure a : Prog Op Resp α) = ret a := rfl

@[simp] theorem ret_bind (a : α) (f : α → Prog Op Resp β) : (ret a >>= f) = f a := rfl

@[simp] theorem act_bind (op : Op) (next : Resp op → Prog Op Resp α) (f : α → Prog Op Resp β) :
    (act op next >>= f) = act op fun r => next r >>= f := rfl

@[simp] theorem perform_bind (op : Op) (f : Resp op → Prog Op Resp β) :
    (perform op >>= f) = act op f := rfl

theorem bind_assoc (p : Prog Op Resp α) (f : α → Prog Op Resp β) (g : β → Prog Op Resp γ) :
    (p >>= f >>= g) = (p >>= fun a => f a >>= g) := by
  induction p with
  | ret a => rfl
  | act op next ih => simp only [act_bind, ih]

/-- A program that has returned. -/
def finished : Prog Op Resp α → Bool
  | ret _ => true
  | act _ _ => false

end Prog

open Prog

/-! ## Paths -/

/-- An operation with the response it got. -/
structure Event (Op : Type) (Resp : Op → Type) where
  op : Op
  resp : Resp op

instance [DecidableEq Op] [∀ op, DecidableEq (Resp op)] : DecidableEq (Event Op Resp)
  | ⟨op, r⟩, ⟨op', r'⟩ =>
    if hop : op = op' then
      decidable_of_iff (hop ▸ r = r') (by subst hop; simp)
    else .isFalse fun h => hop (congrArg Event.op h)

/-- `Path p events q`: the program `p` performs `events` and is then at `q`. -/
inductive Path : Prog Op Resp α → List (Event Op Resp) → Prog Op Resp α → Prop
  | here (p : Prog Op Resp α) : Path p [] p
  | step {op : Op} {next : Resp op → Prog Op Resp α} {r : Resp op}
      {events : List (Event Op Resp)} {q : Prog Op Resp α} :
      Path (next r) events q → Path (act op next) (⟨op, r⟩ :: events) q

/-- A path from an operation is empty, or it goes on with a response. -/
theorem Path.act_cases {op : Op} {next : Resp op → Prog Op Resp α}
    {events : List (Event Op Resp)} {q : Prog Op Resp α} (h : Path (act op next) events q) :
    events = [] ∨ ∃ r rest, events = ⟨op, r⟩ :: rest ∧ Path (next r) rest q := by
  cases h with
  | here => exact .inl rfl
  | step h => exact .inr ⟨_, _, rfl, h⟩

/-- A path without events stays where it is. -/
theorem Path.eq_of_nil {p q : Prog Op Resp α} (h : Path p [] q) : p = q := by
  cases h
  rfl

/-- A program that has returned performs nothing. -/
theorem Path.ret_events {a : α} {events : List (Event Op Resp)} {q : Prog Op Resp α}
    (h : Path (ret a) events q) : events = [] := by
  cases h
  rfl

/-- A path that ends before an operation goes on with any response to it. -/
theorem Path.snoc {p : Prog Op Resp α} {events : List (Event Op Resp)} {op : Op}
    {next : Resp op → Prog Op Resp α} (h : Path p events (act op next)) (r : Resp op) :
    Path p (events ++ [⟨op, r⟩]) (next r) := by
  generalize hq : act op next = q at h
  induction h with
  | here p => subst hq; exact .step (.here _)
  | step _ ih => exact .step (ih hq)

/-! ## Safety -/

/-- Every operation meets `guar`, and the value returned meets `post`, as long as every response
meets `rely`. -/
def Safe (guar : Op → Prop) (rely : (op : Op) → Resp op → Prop) (post : α → Prop) :
    Prog Op Resp α → Prop
  | ret a => post a
  | act op next => guar op ∧ ∀ r, rely op r → Safe guar rely post (next r)

section Rules

variable {guar : Op → Prop} {rely : (op : Op) → Resp op → Prop} {post : α → Prop}

@[simp] theorem safe_ret (a : α) : Safe guar rely post (ret a) ↔ post a := Iff.rfl

@[simp] theorem safe_act (op : Op) (next : Resp op → Prog Op Resp α) :
    Safe guar rely post (act op next) ↔
      guar op ∧ ∀ r, rely op r → Safe guar rely post (next r) := Iff.rfl

theorem Safe.mono {post' : α → Prop} {p : Prog Op Resp α} (h : Safe guar rely post p)
    (hpost : ∀ a, post a → post' a) : Safe guar rely post' p := by
  induction p with
  | ret a => exact hpost a h
  | act op next ih => exact ⟨h.1, fun r hr => ih r (h.2 r hr)⟩

/-- The rule of composition: the second program may use what the first ensures. -/
theorem safe_bind {mid : α → Prop} {post : β → Prop} {p : Prog Op Resp α}
    {f : α → Prog Op Resp β} (hp : Safe guar rely mid p)
    (hf : ∀ a, mid a → Safe guar rely post (f a)) : Safe guar rely post (p >>= f) := by
  induction p with
  | ret a => exact hf a hp
  | act op next ih => exact ⟨hp.1, fun r hr => ih r (hp.2 r hr)⟩

/-- One operation and what follows it. -/
theorem safe_op {op : Op} {f : Resp op → Prog Op Resp α} (hop : guar op)
    (hf : ∀ r, rely op r → Safe guar rely post (f r)) :
    Safe guar rely post (perform op >>= f) := ⟨hop, hf⟩

/-- Along a path whose responses meet `rely`, a safe program performs only operations that meet
`guar`, and is safe where the path ends. -/
theorem Safe.path {p q : Prog Op Resp α} {events : List (Event Op Resp)}
    (h : Safe guar rely post p) (hpath : Path p events q)
    (hrely : ∀ e ∈ events, rely e.op e.resp) :
    (∀ e ∈ events, guar e.op) ∧ Safe guar rely post q := by
  induction hpath with
  | here p => exact ⟨by simp, h⟩
  | @step op next r events q _ ih =>
    obtain ⟨hguar, hsafe⟩ := ih (h.2 r (hrely ⟨op, r⟩ (by simp)))
      fun e he => hrely e (by simp [he])
    refine ⟨?_, hsafe⟩
    intro e he
    rcases List.mem_cons.mp he with rfl | he
    · exact h.1
    · exact hguar e he

end Rules

/-! ## Evaluation -/

/-- An oracle answers an operation, given everything performed before it. -/
abbrev Oracle (Op : Type) (Resp : Op → Type) := List (Event Op Resp) → (op : Op) → Resp op

/-- The value of a program under an oracle, and the history after it. -/
def eval (oracle : Oracle Op Resp) :
    List (Event Op Resp) → Prog Op Resp α → α × List (Event Op Resp)
  | history, ret a => (a, history)
  | history, act op next =>
    eval oracle (history ++ [⟨op, oracle history op⟩]) (next (oracle history op))

@[simp] theorem eval_ret (oracle : Oracle Op Resp) (history : List (Event Op Resp)) (a : α) :
    eval oracle history (ret a) = (a, history) := rfl

@[simp] theorem eval_act (oracle : Oracle Op Resp) (history : List (Event Op Resp)) (op : Op)
    (next : Resp op → Prog Op Resp α) :
    eval oracle history (act op next) =
      eval oracle (history ++ [⟨op, oracle history op⟩]) (next (oracle history op)) := rfl

/-- Evaluation of a composition: the second program starts from the history of the first. -/
theorem eval_bind (oracle : Oracle Op Resp) (history : List (Event Op Resp))
    (p : Prog Op Resp α) (f : α → Prog Op Resp β) :
    eval oracle history (p >>= f) =
      eval oracle (eval oracle history p).2 (f (eval oracle history p).1) := by
  induction p generalizing history with
  | ret a => rfl
  | act op next ih => exact ih _ _

end Process
