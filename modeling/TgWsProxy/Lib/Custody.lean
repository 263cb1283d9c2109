import Mathlib.Data.Multiset.Count
import TgWsProxy.Lib.Totals

set_option relaxedAutoImplicit false
set_option autoImplicit false

/-!
# Things that are in one place only

A thing is created once. From then on a task holds it, by what the task has performed, or it lies in
one of the places of the shared world, or it is gone. If every operation moves things between its
task and one place, or creates a new one for its task, then no thing is ever in two hands.

## Main definitions

* `Process.System.Custody` — who holds what, what lies where, and what has been created.
* `Process.System.Custody.Moves` — what one operation may do.
* `Process.System.Custody.Single` — everything is in one place at most.

## Main results

* `Process.System.Custody.step_single` — every step keeps it so.
* `Process.System.Custody.Single.holder_unique`, `not_stored_of_held`, `place_unique`,
  `nodup_stored` — what that means.

## Design

There may be infinitely many places, so the copies of a thing are counted over every finite set of
them.
-/

namespace Process.System

open Prog

variable {Op : Type} {Resp : Op → Type} {World Env Tag Out Place Thing : Type}
  {S : System Op Resp World Env Tag Out} {s s' : State Op Resp World Tag Out}

/-- Where things are. -/
structure Custody (Op : Type) (Resp : Op → Type) (World Place Thing : Type) where
  /-- What a task holds that has performed these operations. -/
  held : List (Event Op Resp) → Multiset Thing
  stored : World → Place → Multiset Thing
  created : World → Set Thing

namespace Custody

variable (K : Custody Op Resp World Place Thing)

/-- What one operation may do, by what its task holds before and after it: keep or drop things, move
them between the task and one place, or create one for the task. -/
inductive Moves (before after : Multiset Thing) (w w' : World) : Prop
  | keeps : after ≤ before → K.stored w' = K.stored w → K.created w' = K.created w →
      Moves before after w w'
  | moves (p : Place) : after + K.stored w' p ≤ before + K.stored w p →
      (∀ q, q ≠ p → K.stored w' q = K.stored w q) → K.created w' = K.created w →
      Moves before after w w'
  | creates (x : Thing) : after ≤ x ::ₘ before → x ∉ K.created w → K.stored w' = K.stored w →
      K.created w' = insert x (K.created w) → Moves before after w w'

variable [DecidableEq Thing]

/-- How often a task holds a thing. -/
def holds (x : Thing) : Measure Op Resp Tag Out := fun _ events => (K.held events).count x

/-- How often a thing is with the tasks and in the places `ps`. -/
def copies (s : State Op Resp World Tag Out) (ps : Finset Place) (x : Thing) : ℕ :=
  total (K.holds x) s + ∑ p ∈ ps, (K.stored s.world p).count x

/-- **Everything is in one place at most**, and nowhere before it is created. -/
structure Single (s : State Op Resp World Tag Out) : Prop where
  copies_le_one : ∀ ps x, K.copies s ps x ≤ 1
  created : ∀ ps x, K.copies s ps x ≠ 0 → x ∈ K.created s.world

variable {K}

/-- Nothing is anywhere at the start. -/
theorem single_initial {w : World} (hstored : ∀ p, K.stored w p = 0) :
    K.Single (initial w : State Op Resp World Tag Out) := by
  have hcopies : ∀ ps x, K.copies (initial w : State Op Resp World Tag Out) ps x = 0 := by
    intro ps x
    simp [copies, initial, hstored, total]
  constructor
  · intro ps x
    rw [hcopies]
    omega
  · intro ps x hne
    exact absurd (hcopies ps x) hne

/-- More places, more copies. -/
theorem copies_le_insert [DecidableEq Place] (p : Place) (ps : Finset Place) (x : Thing) :
    K.copies s ps x ≤ K.copies s (insert p ps) x := by
  refine Nat.add_le_add_left ?_ _
  exact Finset.sum_le_sum_of_subset (Finset.subset_insert p ps)

/-- The copies in a set of places, with one of them apart. -/
theorem copies_insert [DecidableEq Place] (p : Place) (ps : Finset Place) (x : Thing) :
    K.copies s (insert p ps) x = total (K.holds x) s + (K.stored s.world p).count x +
      ∑ q ∈ ps.erase p, (K.stored s.world q).count x := by
  have hsplit : insert p ps = insert p (ps.erase p) := by
    ext q
    by_cases hq : q = p <;> simp [hq]
  rw [copies, hsplit, Finset.sum_insert (by simp), Nat.add_assoc]

section Perform

variable {i : ℕ} {env : Env} {tag : Tag} {op : Op} {next : Resp op → Prog Op Resp Out}

/-- The held copies after an operation, by what its task holds. -/
theorem total_holds_perform (hs : PathState S s) (hnone : K.held [] = 0)
    (htask : s.tasks[i]? = some ⟨tag, .act op next⟩) (x : Thing) :
    total (K.holds x) (S.perform s i env tag op next) + (K.held (eventsOf s.trace i)).count x =
      total (K.holds x) s +
        (K.held (eventsOf s.trace i ++ [⟨op, (S.exec op env s.world).1⟩])).count x := by
  refine total_perform hs env htask fun tag' _ => ?_
  rw [holds, hnone, Multiset.count_zero]

/-- The step lemma for one operation. -/
theorem perform_single [DecidableEq Place] (hs : PathState S s) (hnone : K.held [] = 0)
    (h : K.Single s) (htask : s.tasks[i]? = some ⟨tag, .act op next⟩)
    (hop : K.Moves (K.held (eventsOf s.trace i))
      (K.held (eventsOf s.trace i ++ [⟨op, (S.exec op env s.world).1⟩])) s.world
      (S.exec op env s.world).2.1) : K.Single (S.perform s i env tag op next) := by
  have hheld : ∀ x, (K.held (eventsOf s.trace i)).count x ≤ total (K.holds x) s :=
    fun x => measureAt_le_total (m := K.holds x) htask
  have htotal : ∀ x, total (K.holds x) (S.perform s i env tag op next) +
      (K.held (eventsOf s.trace i)).count x = total (K.holds x) s +
        (K.held (eventsOf s.trace i ++ [⟨op, (S.exec op env s.world).1⟩])).count x :=
    total_holds_perform hs hnone htask
  have hworld : (S.perform s i env tag op next).world = (S.exec op env s.world).2.1 := rfl
  -- no step but a creation makes the copies more
  have hless : K.created (S.exec op env s.world).2.1 = K.created s.world →
      (∀ ps x, ∃ ps', K.copies (S.perform s i env tag op next) ps x ≤ K.copies s ps' x) →
      K.Single (S.perform s i env tag op next) := by
    intro hcreated hle
    constructor
    · intro ps x
      obtain ⟨ps', hps⟩ := hle ps x
      exact hps.trans (h.copies_le_one ps' x)
    · intro ps x hne
      obtain ⟨ps', hps⟩ := hle ps x
      rw [hworld, hcreated]
      apply h.created ps' x
      omega
  cases hop with
  | keeps hafter hstored hcreated =>
    refine hless hcreated fun ps x => ⟨ps, ?_⟩
    have hx := Multiset.count_le_of_le x hafter
    have := htotal x
    unfold copies
    rw [hworld, hstored]
    omega
  | moves p hafter hothers hcreated =>
    refine hless hcreated fun ps x => ⟨insert p ps, ?_⟩
    refine (copies_le_insert p ps x).trans ?_
    have hx := Multiset.count_le_of_le x hafter
    rw [Multiset.count_add, Multiset.count_add] at hx
    have hsum : ∑ q ∈ ps.erase p, (K.stored (S.exec op env s.world).2.1 q).count x =
        ∑ q ∈ ps.erase p, (K.stored s.world q).count x := by
      refine Finset.sum_congr rfl fun q hq => ?_
      rw [hothers q (Finset.ne_of_mem_erase hq)]
    have := htotal x
    have := hheld x
    rw [copies_insert, copies_insert, hworld, hsum]
    omega
  | creates y hafter hnew hstored hcreated =>
    -- the new thing was nowhere before
    have hnowhere : ∀ ps, K.copies s ps y = 0 := by
      intro ps
      by_contra hne
      exact hnew (h.created ps y hne)
    have hle : ∀ ps x, K.copies (S.perform s i env tag op next) ps x ≤
        K.copies s ps x + if x = y then 1 else 0 := by
      intro ps x
      have hx := Multiset.count_le_of_le x hafter
      rw [Multiset.count_cons] at hx
      have := htotal x
      unfold copies
      rw [hworld, hstored]
      omega
    constructor
    · intro ps x
      have hps := hle ps x
      have hone := h.copies_le_one ps x
      by_cases hx : x = y
      · subst hx
        rw [hnowhere ps, if_pos rfl] at hps
        exact hps
      · rw [if_neg hx] at hps
        omega
    · intro ps x hne
      rw [hworld, hcreated]
      by_cases hx : x = y
      · exact .inl hx
      · right
        apply h.created ps x
        have hps := hle ps x
        rw [if_neg hx] at hps
        omega

end Perform

/-- **The step lemma.** If every operation only moves things about or creates new ones, everything
stays in one place at most. -/
theorem step_single [DecidableEq Place] (hs : PathState S s) (hnone : K.held [] = 0)
    (hop : ∀ i env tag op next, s.tasks[i]? = some ⟨tag, .act op next⟩ →
      K.Moves (K.held (eventsOf s.trace i))
        (K.held (eventsOf s.trace i ++ [⟨op, (S.exec op env s.world).1⟩])) s.world
        (S.exec op env s.world).2.1)
    (h : K.Single s) {l : Label Env Tag} (hstep : S.step s l = some s') : K.Single s' := by
  rcases step_cases hstep with ⟨tag, rfl, rfl⟩ | ⟨i, env, tag, op, next, rfl, htask, rfl⟩
  · -- an arrival holds nothing
    have hcopies : ∀ ps x, K.copies { s with tasks := s.tasks ++ [S.spawn tag] } ps x =
        K.copies s ps x := by
      intro ps x
      unfold copies
      rw [total_start hs, holds, hnone, Multiset.count_zero, Nat.add_zero]
    constructor
    · intro ps x
      rw [hcopies]
      exact h.copies_le_one ps x
    · intro ps x hne
      rw [hcopies] at hne
      exact h.created ps x hne
  · exact perform_single hs hnone h htask (hop i env tag op next htask)

/-! ## What it means -/

namespace Single

variable (h : K.Single s)

include h

/-- Two holders are one task. -/
theorem holder_unique {i j : ℕ} {t u : Task Op Resp Tag Out} (ht : s.tasks[i]? = some t)
    (hu : s.tasks[j]? = some u) {x : Thing} (hi : x ∈ K.held (eventsOf s.trace i))
    (hj : x ∈ K.held (eventsOf s.trace j)) : i = j := by
  by_contra hij
  have htwo := add_le_total (m := K.holds x) hij ht hu
  have hone := h.copies_le_one ∅ x
  rw [copies, Finset.sum_empty] at hone
  have := Multiset.count_pos.mpr hi
  have := Multiset.count_pos.mpr hj
  simp only [holds] at htwo
  omega

/-- What a task holds lies nowhere. -/
theorem not_stored_of_held {i : ℕ} {t : Task Op Resp Tag Out} (ht : s.tasks[i]? = some t)
    {x : Thing} (hi : x ∈ K.held (eventsOf s.trace i)) (p : Place) : x ∉ K.stored s.world p := by
  intro hp
  have hone := h.copies_le_one {p} x
  rw [copies, Finset.sum_singleton] at hone
  have hheld := measureAt_le_total (m := K.holds x) ht
  have := Multiset.count_pos.mpr hi
  have := Multiset.count_pos.mpr hp
  simp only [holds] at hheld
  omega

/-- What lies in two places lies in one. -/
theorem place_unique [DecidableEq Place] {p q : Place} {x : Thing} (hp : x ∈ K.stored s.world p)
    (hq : x ∈ K.stored s.world q) : p = q := by
  by_contra hpq
  have hone := h.copies_le_one {p, q} x
  rw [copies, Finset.sum_pair hpq] at hone
  have := Multiset.count_pos.mpr hp
  have := Multiset.count_pos.mpr hq
  omega

/-- Nothing lies in a place twice. -/
theorem nodup_stored (p : Place) : (K.stored s.world p).Nodup := by
  rw [Multiset.nodup_iff_count_le_one]
  intro x
  have hone := h.copies_le_one {p} x
  rw [copies, Finset.sum_singleton] at hone
  omega

end Single

end Custody

end Process.System
