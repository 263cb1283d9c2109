import Mathlib.Data.List.Chain
import Mathlib.Data.Nat.ModEq

set_option relaxedAutoImplicit false
set_option autoImplicit false

/-!
# Turns at a shared counter

Parties take turns at a counter, some of them more than once; the list of turns names the party
of each. What a party gets is decided by its first turn. A selection of the parties is served round
robin over `n` places exactly if a multiple of `n` other turns lies between neighbours.

## Main definitions

* `RoundRobin.firsts` — the parties in the order of their first turns.
* `RoundRobin.Spaced` — neighbours of a selection are a multiple of `n` other turns apart.

## Main results

* `RoundRobin.spaced_iff` — spaced selections are those whose first turns run through consecutive
  places.
* `RoundRobin.firstTurn_eq` — the number that a party gets at its first turn.
-/

namespace RoundRobin

variable {ι : Type} [DecidableEq ι]

/-- The parties in the order of their first turns. -/
def firsts : List ι → List ι
  | [] => []
  | i :: turns => i :: (firsts turns).filter fun j => j ≠ i

theorem mem_firsts {turns : List ι} {i : ι} : i ∈ firsts turns ↔ i ∈ turns := by
  induction turns with
  | nil => simp [firsts]
  | cons j turns ih =>
    simp only [firsts, List.mem_cons, List.mem_filter, ih, decide_eq_true_eq]
    by_cases hij : i = j
    · simp [hij]
    · simp [hij]

/-- Parties are listed by their first turns. -/
theorem firsts_pairwise (turns : List ι) :
    (firsts turns).Pairwise fun i j => turns.idxOf i < turns.idxOf j := by
  induction turns with
  | nil => exact List.Pairwise.nil
  | cons a turns ih =>
    refine List.pairwise_cons.mpr ⟨fun i hi => ?_, ?_⟩
    · have hne : i ≠ a := by simpa using (List.mem_filter.mp hi).2
      rw [List.idxOf_cons_self, List.idxOf_cons_ne _ hne.symm]
      exact Nat.succ_pos _
    · refine (ih.filter _).imp_of_mem fun {i j} hi hj hij => ?_
      have hia : i ≠ a := by simpa using (List.mem_filter.mp hi).2
      have hja : j ≠ a := by simpa using (List.mem_filter.mp hj).2
      rw [List.idxOf_cons_ne _ hia.symm, List.idxOf_cons_ne _ hja.symm]
      exact Nat.succ_lt_succ hij

/-- Between the first turns of neighbours lies a multiple of `n` turns. -/
def Spaced (n : ℕ) (turns selected : List ι) : Prop :=
  selected.IsChain fun i j => n ∣ turns.idxOf j - turns.idxOf i - 1

instance (n : ℕ) (turns selected : List ι) : Decidable (Spaced n turns selected) :=
  inferInstanceAs (Decidable (selected.IsChain _))

/-- **Round robin.** A selection is spaced exactly if the `k`-th of it has its first turn at place
`start + k`, modulo `n`. -/
theorem spaced_iff {n : ℕ} {turns selected : List ι} (hsel : selected.Sublist (firsts turns)) :
    Spaced n turns selected ↔
      ∃ start, ∀ k i, selected[k]? = some i → turns.idxOf i ≡ start + k [MOD n] := by
  have hpair := (firsts_pairwise turns).sublist hsel
  -- one place further is a multiple of `n` turns further
  have hnext : ∀ k (hk : k + 1 < selected.length),
      n ∣ turns.idxOf selected[k + 1] - turns.idxOf selected[k] - 1 ↔
        turns.idxOf selected[k + 1] ≡ turns.idxOf selected[k] + 1 [MOD n] := by
    intro k hk
    have hlt := List.pairwise_iff_getElem.mp hpair k (k + 1) (by omega) hk (by omega)
    rw [Nat.sub_sub, ← Nat.modEq_iff_dvd' hlt]
    exact ⟨Nat.ModEq.symm, Nat.ModEq.symm⟩
  rw [Spaced, List.isChain_iff_getElem]
  constructor
  · intro hchain
    cases selected with
    | nil => exact ⟨0, by simp⟩
    | cons a selected =>
      refine ⟨turns.idxOf a, fun k => ?_⟩
      induction k with
      | zero =>
        intro i hi
        cases hi
        rfl
      | succ k ih =>
        intro i hi
        obtain ⟨hk, rfl⟩ := List.getElem?_eq_some_iff.mp hi
        have hstep := (hnext k hk).mp (hchain k hk)
        have hprev := ih _ (List.getElem?_eq_getElem (Nat.lt_of_succ_lt hk))
        exact hstep.trans (hprev.add_right 1)
  · rintro ⟨start, hstart⟩ k hk
    have hprev := hstart k _ (List.getElem?_eq_getElem (Nat.lt_of_succ_lt hk))
    have hcur := hstart (k + 1) _ (List.getElem?_eq_getElem hk)
    exact (hnext k hk).mpr (hcur.trans (hprev.add_right 1).symm)

/-- The number at a party's first turn, if the turns are numbered by `num`. -/
theorem firstTurn_eq {turns : List (ι × ℕ)} {num : ℕ → ℕ}
    (hnum : turns.map Prod.snd = (List.range turns.length).map num) {i : ι} {v : ℕ}
    (h : (turns.findSome? fun t => if t.1 = i then some t.2 else none) = some v) :
    v = num ((turns.map Prod.fst).idxOf i) := by
  have hget : (turns.map Prod.snd)[(turns.map Prod.fst).idxOf i]? = some v := by
    clear hnum
    induction turns with
    | nil => simp at h
    | cons t turns ih =>
      by_cases hi : t.1 = i
      · simpa [hi] using h
      · rw [List.findSome?_cons, if_neg hi] at h
        rw [List.map_cons, List.map_cons, List.idxOf_cons_ne _ hi, List.getElem?_cons_succ]
        exact ih h
  rw [hnum, List.getElem?_map] at hget
  obtain ⟨k, hk, rfl⟩ := Option.map_eq_some_iff.mp hget
  obtain ⟨hlt, rfl⟩ := List.getElem?_eq_some_iff.mp hk
  simp

end RoundRobin
