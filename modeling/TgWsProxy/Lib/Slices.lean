import Mathlib.Data.List.Basic
import Mathlib.Data.List.TakeDrop

set_option relaxedAutoImplicit false
set_option autoImplicit false

/-!
# Slices and cursors

Indexing and slicing as in a language that stops at an index out of range, and reading a list piece
by piece: a cursor is an offset, and what lies behind it is `l.drop i`.

## Main definitions

* `Slices.Panic`, `Slices.index`, `Slices.range`, `Slices.fill`, `Slices.copy`, `Slices.write` —
  accesses with checked bounds.

## Main results

* `Slices.index_eq`, `range_eq`, `fill_eq`, `copy_eq`, `write_append` — an access in range
  succeeds; `ok_bind` and `mapM_ok` go on.
* `Slices.drop_step` — a cursor moves behind a piece.
* `Slices.getD_of_drop`, `take_of_drop` — what a cursor points at.
* `Slices.drop_eq_getD_cons`, `drop_eq_take_append` — the next element and the next piece.
-/

namespace Slices

variable {α : Type}

/-! ## Checked accesses -/

/-- Why a computation stops. -/
inductive Panic
  | outOfRange
  | lengthMismatch
  deriving DecidableEq

/-- `l[i]`. -/
def index (l : List α) (i : ℕ) : Except Panic α :=
  match l[i]? with
  | some a => .ok a
  | none => .error .outOfRange

/-- `&l[i..j]`. -/
def range (l : List α) (i j : ℕ) : Except Panic (List α) :=
  if i ≤ j ∧ j ≤ l.length then .ok ((l.drop i).take (j - i)) else .error .outOfRange

/-- `l[i..j].fill(a)`. -/
def fill (l : List α) (i j : ℕ) (a : α) : Except Panic (List α) :=
  if i ≤ j ∧ j ≤ l.length then .ok (l.take i ++ List.replicate (j - i) a ++ l.drop j)
  else .error .outOfRange

/-- `a.copy_from_slice(l)` into an array of `n` elements: the array. -/
def copy (n : ℕ) (l : List α) : Except Panic (List α) :=
  if l.length = n then .ok l else .error .lengthMismatch

/-- `l[i..j].copy_from_slice(a)`. -/
def write (l : List α) (i j : ℕ) (a : List α) : Except Panic (List α) :=
  if i ≤ j ∧ j ≤ l.length then
    if a.length = j - i then .ok (l.take i ++ a ++ l.drop j) else .error .lengthMismatch
  else .error .outOfRange

/-- A computation goes on behind an access that succeeds. -/
theorem ok_bind {β : Type} (a : α) (f : α → Except Panic β) : (Except.ok a >>= f) = f a := rfl

theorem index_eq {l : List α} {i : ℕ} (h : i < l.length) (d : α) :
    index l i = .ok (l.getD i d) := by
  rw [index, List.getD_eq_getElem?_getD, List.getElem?_eq_getElem h]
  rfl

theorem range_eq {l : List α} {i j : ℕ} (hij : i ≤ j) (hj : j ≤ l.length) :
    range l i j = .ok ((l.drop i).take (j - i)) := if_pos ⟨hij, hj⟩

theorem range_from_eq {l : List α} {i : ℕ} (h : i ≤ l.length) :
    range l i l.length = .ok (l.drop i) := by
  rw [range_eq h (Nat.le_refl _), List.take_of_length_le (by simp)]

theorem range_to_eq {l : List α} {j : ℕ} (h : j ≤ l.length) : range l 0 j = .ok (l.take j) := by
  rw [range_eq (Nat.zero_le j) h]
  rfl

theorem fill_eq {l : List α} {i j : ℕ} (hij : i ≤ j) (hj : j ≤ l.length) (a : α) :
    fill l i j a = .ok (l.take i ++ List.replicate (j - i) a ++ l.drop j) := if_pos ⟨hij, hj⟩

theorem copy_eq {n : ℕ} {l : List α} (h : l.length = n) : copy n l = .ok l := if_pos h

/-- The piece between two others is filled. -/
theorem fill_append {x b y : List α} {i j : ℕ} (hi : x.length = i) (hj : i + b.length = j) (a : α) :
    fill (x ++ b ++ y) i j a = .ok (x ++ List.replicate b.length a ++ y) := by
  have htake : (x ++ b ++ y).take i = x := by rw [List.append_assoc, List.take_left' hi]
  have hdrop : (x ++ b ++ y).drop j = y := List.drop_left' (by simp; omega)
  rw [fill_eq (by omega) (by simp; omega), htake, hdrop, show j - i = b.length by omega]

/-- The piece between two others is replaced. -/
theorem write_append {x b y a : List α} {i j : ℕ} (hi : x.length = i) (hj : i + b.length = j)
    (ha : a.length = b.length) : write (x ++ b ++ y) i j a = .ok (x ++ a ++ y) := by
  have htake : (x ++ b ++ y).take i = x := by rw [List.append_assoc, List.take_left' hi]
  have hdrop : (x ++ b ++ y).drop j = y := List.drop_left' (by simp; omega)
  have hin : i ≤ j ∧ j ≤ (x ++ b ++ y).length := by
    simp
    omega
  rw [write, if_pos hin, if_pos (by omega), htake, hdrop]

/-- A loop whose turns all succeed. -/
theorem mapM_ok {β : Type} {l : List α} {f : α → Except Panic β} {g : α → β}
    (h : ∀ a ∈ l, f a = .ok (g a)) : l.mapM f = .ok (l.map g) := by
  induction l with
  | nil => rfl
  | cons a l ih =>
    rw [List.mapM_cons, h a List.mem_cons_self, ok_bind,
      ih fun b hb => h b (List.mem_cons_of_mem a hb), ok_bind]
    rfl

/-! ## Cursors -/

variable {l a b : List α} {i k : ℕ} {x : α}

/-- Behind a piece. -/
theorem drop_step (h : l.drop i = a ++ b) (hk : a.length = k) : l.drop (i + k) = b := by
  rw [← List.drop_drop, h, ← hk, List.drop_left]

/-- Behind one element. -/
theorem drop_step_cons (h : l.drop i = x :: b) : l.drop (i + 1) = b :=
  drop_step (a := [x]) h rfl

/-- The element at a cursor. -/
theorem getD_of_drop (h : l.drop i = x :: b) (d : α) : l.getD i d = x := by
  have hget : l[i + 0]? = some x := by
    rw [← List.getElem?_drop, h]
    rfl
  rw [List.getD_eq_getElem?_getD, show i = i + 0 from rfl, hget]
  rfl

/-- The piece at a cursor. -/
theorem take_of_drop (h : l.drop i = a ++ b) (hk : a.length = k) : (l.drop i).take k = a := by
  rw [h, ← hk, List.take_left]

/-- What lies behind a cursor is its element and what lies behind that. -/
theorem drop_eq_getD_cons (h : i < l.length) (d : α) : l.drop i = l.getD i d :: l.drop (i + 1) := by
  rw [List.getD_eq_getElem?_getD, List.getElem?_eq_getElem h, List.drop_eq_getElem_cons h]
  rfl

/-- What lies behind a cursor is a piece and what lies behind that. -/
theorem drop_eq_take_append (l : List α) (i k : ℕ) :
    l.drop i = (l.drop i).take k ++ l.drop (i + k) := by
  rw [← List.drop_drop, List.take_append_drop]

end Slices
