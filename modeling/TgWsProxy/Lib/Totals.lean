import Mathlib.Algebra.BigOperators.Ring.Finset
import Mathlib.Algebra.Order.BigOperators.Group.Finset
import Mathlib.Algebra.Order.Ring.Nat
import TgWsProxy.Lib.History

set_option relaxedAutoImplicit false
set_option autoImplicit false

/-!
# Totals over the tasks of a state

A measure assigns a number to a task by what it is, where it is and what it has done. Its total
over all tasks changes with a step by what the step changes for the task that moved, so an invariant
about a total is checked on one task at a time.

## Main definitions

* `Process.System.total` — the sum of a measure over the tasks.
* `Process.System.ExactHolders` — a lock is taken exactly if one task holds it, and by no more.

## Main results

* `Process.System.total_start`, `total_perform` — how a total changes.
* `Process.System.step_exactHolders` — mutual exclusion, from what one operation does.
-/

namespace Process.System

open Prog

variable {Op : Type} {Resp : Op → Type} {World Env Tag Out : Type}
  {S : System Op Resp World Env Tag Out} {s : State Op Resp World Tag Out}

/-- A number for a task and what it has performed. -/
abbrev Measure (Op : Type) (Resp : Op → Type) (Tag Out : Type) :=
  Task Op Resp Tag Out → List (Event Op Resp) → ℕ

/-- The measure of task `i`, if there is one. -/
def measureAt (m : Measure Op Resp Tag Out) (s : State Op Resp World Tag Out) (i : ℕ) : ℕ :=
  match s.tasks[i]? with
  | some t => m t (eventsOf s.trace i)
  | none => 0

/-- The sum of a measure over the tasks. -/
def total (m : Measure Op Resp Tag Out) (s : State Op Resp World Tag Out) : ℕ :=
  ∑ i ∈ Finset.range s.tasks.length, measureAt m s i

variable {m m' : Measure Op Resp Tag Out}

theorem measureAt_of_task {i : ℕ} {t : Task Op Resp Tag Out} (ht : s.tasks[i]? = some t) :
    measureAt m s i = m t (eventsOf s.trace i) := by
  rw [measureAt, ht]

@[simp] theorem total_initial (w : World) :
    total m (initial w : State Op Resp World Tag Out) = 0 := rfl

/-! ## Comparing totals -/

/-- One task is measured by at most the total. -/
theorem measureAt_le_total {i : ℕ} {t : Task Op Resp Tag Out} (ht : s.tasks[i]? = some t) :
    m t (eventsOf s.trace i) ≤ total m s := by
  have hi := (List.getElem?_eq_some_iff.mp ht).1
  rw [← measureAt_of_task (m := m) ht]
  exact Finset.single_le_sum (fun _ _ => Nat.zero_le _) (Finset.mem_range.mpr hi)

/-- So are two. -/
theorem add_le_total {i j : ℕ} {t u : Task Op Resp Tag Out} (hij : i ≠ j)
    (ht : s.tasks[i]? = some t) (hu : s.tasks[j]? = some u) :
    m t (eventsOf s.trace i) + m u (eventsOf s.trace j) ≤ total m s := by
  have hi := (List.getElem?_eq_some_iff.mp ht).1
  have hj := (List.getElem?_eq_some_iff.mp hu).1
  rw [← measureAt_of_task (m := m) ht, ← measureAt_of_task (m := m) hu]
  exact Finset.add_le_sum (fun _ _ => Nat.zero_le _) (Finset.mem_range.mpr hi)
    (Finset.mem_range.mpr hj) hij

/-- A total that is not zero has a task that counts. -/
theorem exists_of_total_ne_zero (h : total m s ≠ 0) :
    ∃ i t, s.tasks[i]? = some t ∧ m t (eventsOf s.trace i) ≠ 0 := by
  obtain ⟨i, -, hi⟩ := Finset.exists_ne_zero_of_sum_ne_zero h
  rw [measureAt] at hi
  split at hi
  · rename_i t ht
    exact ⟨i, t, ht, hi⟩
  · exact absurd rfl hi

theorem total_eq_zero (h : ∀ i t, s.tasks[i]? = some t → m t (eventsOf s.trace i) = 0) :
    total m s = 0 := by
  by_contra hne
  obtain ⟨i, t, ht, hi⟩ := exists_of_total_ne_zero hne
  exact hi (h i t ht)

/-- A measure that is bounded task by task is bounded in total. -/
theorem total_le_total
    (h : ∀ i t, s.tasks[i]? = some t → m t (eventsOf s.trace i) ≤ m' t (eventsOf s.trace i)) :
    total m s ≤ total m' s := by
  refine Finset.sum_le_sum fun i _ => ?_
  rw [measureAt, measureAt]
  split
  · rename_i t ht
    exact h i t ht
  · exact le_rfl

theorem total_add (m m' : Measure Op Resp Tag Out) (s : State Op Resp World Tag Out) :
    total (fun t events => m t events + m' t events) s = total m s + total m' s := by
  rw [total, total, total, ← Finset.sum_add_distrib]
  refine Finset.sum_congr rfl fun i _ => ?_
  simp only [measureAt]
  split <;> rfl

theorem total_mul (n : ℕ) (m : Measure Op Resp Tag Out) (s : State Op Resp World Tag Out) :
    total (fun t events => n * m t events) s = n * total m s := by
  rw [total, total, Finset.mul_sum]
  refine Finset.sum_congr rfl fun i _ => ?_
  simp only [measureAt]
  split <;> rfl

/-! ## Totals and steps -/

/-- An arrival adds its own measure. -/
theorem total_start (hs : PathState S s) (tag : Tag) :
    total m { s with tasks := s.tasks ++ [S.spawn tag] } = total m s + m (S.spawn tag) [] := by
  rw [total, List.length_append, List.length_singleton, Finset.sum_range_succ]
  congr 1
  · refine Finset.sum_congr rfl fun i hi => ?_
    rw [measureAt, measureAt, List.getElem?_append_left (Finset.mem_range.mp hi)]
  · have hnew : (s.tasks ++ [S.spawn tag])[s.tasks.length]? = some (S.spawn tag) := by simp
    rw [measureAt, hnew, hs.eventsOf_fresh le_rfl]

/-- **Totals and operations.** If spawned tasks count for nothing, an operation changes the total by
what it changes for the task that performed it. -/
theorem total_perform (hs : PathState S s) {i : ℕ} (env : Env) {tag : Tag} {op : Op}
    {next : Resp op → Prog Op Resp Out} (htask : s.tasks[i]? = some ⟨tag, .act op next⟩)
    (hfresh : ∀ tag' ∈ (S.exec op env s.world).2.2, m (S.spawn tag') [] = 0) :
    total m (S.perform s i env tag op next) + m ⟨tag, .act op next⟩ (eventsOf s.trace i) =
      total m s + m ⟨tag, next (S.exec op env s.world).1⟩
        (eventsOf s.trace i ++ [⟨op, (S.exec op env s.world).1⟩]) := by
  have hi := (List.getElem?_eq_some_iff.mp htask).1
  have hrange : i ∈ Finset.range s.tasks.length := Finset.mem_range.mpr hi
  set s' := S.perform s i env tag op next with hs'
  have hlen : s'.tasks.length = s.tasks.length + (S.exec op env s.world).2.2.length := by
    simp [hs', perform]
  -- the spawned tasks
  have hspawned : ∑ j ∈ Finset.range (S.exec op env s.world).2.2.length,
      measureAt m s' (s.tasks.length + j) = 0 := by
    refine Finset.sum_eq_zero fun j _ => ?_
    rw [measureAt]
    split
    · rename_i t ht
      rcases tasks_perform_cases hi ht with ⟨hj, -⟩ | ⟨-, hold⟩ | ⟨-, tag', htag', rfl⟩
      · omega
      · have := (List.getElem?_eq_some_iff.mp hold).1
        omega
      · rw [hs', eventsOf_perform_ne (by omega), hs.eventsOf_fresh (by omega)]
        exact hfresh tag' htag'
    · rfl
  -- the others
  have hothers : ∑ j ∈ (Finset.range s.tasks.length).erase i, measureAt m s' j =
      ∑ j ∈ (Finset.range s.tasks.length).erase i, measureAt m s j := by
    refine Finset.sum_congr rfl fun j hj => ?_
    obtain ⟨hji, hj⟩ := Finset.mem_erase.mp hj
    obtain ⟨t, ht⟩ : ∃ t, s.tasks[j]? = some t :=
      ⟨_, List.getElem?_eq_getElem (Finset.mem_range.mp hj)⟩
    rw [measureAt_of_task ht, measureAt_of_task (getElem?_tasks_perform_ne (Ne.symm hji) ht),
      eventsOf_perform_ne (Ne.symm hji)]
  have hself : measureAt m s' i = m ⟨tag, next (S.exec op env s.world).1⟩
      (eventsOf s.trace i ++ [⟨op, (S.exec op env s.world).1⟩]) := by
    rw [measureAt_of_task (getElem?_tasks_perform_self hi), eventsOf_perform_self]
  have hnew : total m s' = measureAt m s' i +
      ∑ j ∈ (Finset.range s.tasks.length).erase i, measureAt m s j := by
    rw [total, hlen, Finset.sum_range_add, hspawned, Nat.add_zero, ← hothers,
      Finset.add_sum_erase _ _ hrange]
  have hold : total m s = m ⟨tag, .act op next⟩ (eventsOf s.trace i) +
      ∑ j ∈ (Finset.range s.tasks.length).erase i, measureAt m s j := by
    rw [← measureAt_of_task (m := m) htask, Finset.add_sum_erase _ _ hrange, total]
  rw [hnew, hold, hself]
  omega

/-! ## Mutual exclusion -/

section Holders

variable (held : Tag → List (Event Op Resp) → Bool) (locked : World → Bool)

/-- The tasks that hold a lock. -/
def holders : Measure Op Resp Tag Out := fun t events => if held t.tag events then 1 else 0

/-- The lock is taken exactly if one task holds it, and never by more. -/
def ExactHolders (s : State Op Resp World Tag Out) : Prop :=
  total (holders held) s = if locked s.world then 1 else 0

variable {held locked}

/-- Two holders are one task. -/
theorem ExactHolders.unique (h : ExactHolders held locked s) {i j : ℕ}
    {t u : Task Op Resp Tag Out} (ht : s.tasks[i]? = some t) (hu : s.tasks[j]? = some u)
    (hi : held t.tag (eventsOf s.trace i) = true) (hj : held u.tag (eventsOf s.trace j) = true) :
    i = j := by
  by_contra hij
  have htwo := add_le_total (m := holders held) hij ht hu
  rw [holders, holders, if_pos hi, if_pos hj, h] at htwo
  split_ifs at htwo <;> omega

/-- The lock is taken exactly if somebody holds it. -/
theorem ExactHolders.locked_iff (h : ExactHolders held locked s) :
    locked s.world = true ↔
      ∃ i t, s.tasks[i]? = some t ∧ held t.tag (eventsOf s.trace i) = true := by
  constructor
  · intro hlocked
    have hone : total (holders held) s ≠ 0 := by
      rw [h, if_pos hlocked]
      exact Nat.one_ne_zero
    obtain ⟨i, t, ht, hi⟩ := exists_of_total_ne_zero hone
    refine ⟨i, t, ht, ?_⟩
    by_contra hheld
    exact hi (if_neg hheld)
  · rintro ⟨i, t, ht, hi⟩
    have hone := measureAt_le_total (m := holders held) ht
    rw [holders, if_pos hi, h] at hone
    by_contra hlocked
    rw [if_neg hlocked] at hone
    omega

/-- What one operation may do to a lock and to the holding of the task that performs it: nothing;
take the lock, which was free; or give it back. -/
inductive LockStep (before after : Bool) (lockedBefore lockedAfter : Bool) : Prop
  | same : after = before → lockedAfter = lockedBefore →
      LockStep before after lockedBefore lockedAfter
  | takes : before = false → after = true → lockedBefore = false → lockedAfter = true →
      LockStep before after lockedBefore lockedAfter
  | releases : before = true → after = false → lockedAfter = false →
      LockStep before after lockedBefore lockedAfter

/-- **Mutual exclusion.** If nobody starts with the lock and every operation takes it only when it
is free and gives it back only when its task holds it, the lock is taken exactly by its holder. -/
theorem step_exactHolders (hs : PathState S s) (hfresh : ∀ tag, held tag [] = false)
    (hop : ∀ i env tag op next, s.tasks[i]? = some ⟨tag, .act op next⟩ →
      LockStep (held tag (eventsOf s.trace i))
        (held tag (eventsOf s.trace i ++ [⟨op, (S.exec op env s.world).1⟩]))
        (locked s.world) (locked (S.exec op env s.world).2.1))
    (h : ExactHolders held locked s) {l : Label Env Tag} {s' : State Op Resp World Tag Out}
    (hstep : S.step s l = some s') : ExactHolders held locked s' := by
  rcases step_cases hstep with ⟨tag, rfl, rfl⟩ | ⟨i, env, tag, op, next, rfl, htask, rfl⟩
  · rw [ExactHolders, total_start hs, holders, spawn, if_neg (by simp [hfresh tag]), Nat.add_zero]
    exact h
  · have htotal := total_perform (m := holders held) hs env htask
      fun tag' _ => if_neg (by simp [spawn, hfresh tag'])
    have hle := measureAt_le_total (m := holders held) htask
    rw [holders, h] at hle
    rw [holders, holders, h] at htotal
    change total _ _ = if locked (S.exec op env s.world).2.1 then 1 else 0
    cases hop i env tag op next htask with
    | same hheld hlocked =>
      rw [hheld] at htotal
      rw [hlocked]
      exact Nat.add_right_cancel htotal
    | takes hbefore hafter hfree htaken =>
      rw [hbefore, hafter, hfree] at htotal
      rw [htaken]
      simpa using htotal
    | releases hbefore hafter hfree =>
      rw [hbefore] at hle
      rw [hbefore, hafter] at htotal
      rw [hfree]
      cases hlocked : locked s.world with
      | false => simp [hlocked] at hle
      | true => simpa [hlocked] using htotal

end Holders

end Process.System
