import Mathlib.Data.List.Induction
import Mathlib.Data.List.Nodup
import Mathlib.Logic.Function.Basic

set_option relaxedAutoImplicit false
set_option autoImplicit false

/-!
# Collecting pairs into a map

A list of pairs is collected into a map from left to right, each pair over what was there. A scan
of the list from its end finds the same.

## Main definitions

* `Collect.collect` — the map, as a function.
* `Collect.findLast` — the scan.
* `Collect.Enumerates` — the entries of a map, in some order.

## Main results

* `Collect.findLast_eq_collect` — the scan finds what the map holds.
* `Collect.findLast_eq_some_iff` — namely the last pair that was given.
-/

namespace Collect

variable {K V : Type} [DecidableEq K]

/-- Collecting into a `HashMap`: each pair is inserted over what was there. -/
def collect (es : List (K × V)) : K → Option V :=
  es.foldl (fun m e => Function.update m e.1 (some e.2)) fun _ => none

/-- The first match of a scan in reverse. -/
def findLast (es : List (K × V)) (k : K) : Option V :=
  (es.reverse.find? fun e => e.1 == k).map Prod.snd

/-- The entries of a map, in some order. -/
structure Enumerates (entries : List (K × V)) (m : K → Option V) : Prop where
  nodup : (entries.map Prod.fst).Nodup
  mem_iff : ∀ k v, (k, v) ∈ entries ↔ m k = some v

/-- One more pair at the end. -/
theorem collect_concat (es : List (K × V)) (e : K × V) :
    collect (es ++ [e]) = Function.update (collect es) e.1 (some e.2) := by
  rw [collect, List.foldl_append]
  rfl

theorem findLast_concat (es : List (K × V)) (e : K × V) (k : K) :
    findLast (es ++ [e]) k = if k = e.1 then some e.2 else findLast es k := by
  rw [findLast, List.reverse_append, List.reverse_singleton, List.singleton_append,
    List.find?_cons]
  by_cases hk : k = e.1
  · rw [if_pos hk, hk, beq_self_eq_true]
    rfl
  · rw [if_neg hk, beq_false_of_ne (Ne.symm hk)]
    rfl

/-- **The scan finds what the map holds.** -/
theorem findLast_eq_collect (es : List (K × V)) (k : K) : findLast es k = collect es k := by
  induction es using List.reverseRecOn with
  | nil => rfl
  | append_singleton es e ih =>
    rw [findLast_concat, collect_concat, Function.update_apply, ih]

/-- Where a marked element of a longer list stands: at the end or before it. -/
theorem concat_eq_append_cons {α : Type} {es before after : List α} {e p : α}
    (h : es ++ [e] = before ++ p :: after) :
    (after = [] ∧ e = p) ∨ ∃ after', after = after' ++ [e] ∧ es = before ++ p :: after' := by
  obtain rfl | ⟨after', e', rfl⟩ := List.eq_nil_or_concat after
  · obtain ⟨-, he⟩ := List.append_inj' h rfl
    cases he
    exact .inl ⟨rfl, rfl⟩
  · rw [List.concat_eq_append, ← List.cons_append, ← List.append_assoc] at h
    obtain ⟨hes, he⟩ := List.append_inj' h rfl
    cases he
    exact .inr ⟨after', List.concat_eq_append, hes⟩

/-- The scan finds the last pair that was given for the key. -/
theorem findLast_eq_some_iff {es : List (K × V)} {k : K} {v : V} :
    findLast es k = some v ↔
      ∃ before after, es = before ++ (k, v) :: after ∧ k ∉ after.map Prod.fst := by
  induction es using List.reverseRecOn with
  | nil => simp [findLast]
  | append_singleton es e ih =>
    obtain ⟨k', v'⟩ := e
    rw [findLast_concat]
    split_ifs with hk
    · change k = k' at hk
      subst hk
      constructor
      · intro hv
        cases hv
        exact ⟨es, [], rfl, List.not_mem_nil⟩
      · rintro ⟨before, after, hes, hafter⟩
        obtain ⟨-, he⟩ | ⟨after', rfl, -⟩ := concat_eq_append_cons hes
        · cases he
          rfl
        · exact absurd (by simp) hafter
    · rw [ih]
      constructor
      · rintro ⟨before, after, rfl, hafter⟩
        refine ⟨before, after ++ [(k', v')], by simp, fun hmem => ?_⟩
        rw [List.map_append, List.mem_append] at hmem
        exact hmem.elim hafter fun hmem => hk (List.mem_singleton.mp hmem)
      · rintro ⟨before, after, hes, hafter⟩
        obtain ⟨-, he⟩ | ⟨after', rfl, hes'⟩ := concat_eq_append_cons hes
        · cases he
          exact absurd rfl hk
        · exact ⟨before, after', hes', fun hmem => hafter (by simp [hmem])⟩

/-- A key that no pair has is not in the map. -/
theorem collect_eq_none {es : List (K × V)} {k : K} (h : k ∉ es.map Prod.fst) :
    collect es k = none := by
  rw [← findLast_eq_collect]
  cases hv : findLast es k with
  | none => rfl
  | some v =>
    obtain ⟨before, after, rfl, -⟩ := findLast_eq_some_iff.mp hv
    exact absurd (by simp) h

end Collect
