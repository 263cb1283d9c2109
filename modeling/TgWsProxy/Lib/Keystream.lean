import Mathlib.Data.List.Basic
import Mathlib.Algebra.Order.Ring.Nat

set_option relaxedAutoImplicit false
set_option autoImplicit false

/-!
# Masking a list with a positioned stream

A synchronous stream cipher combines item `i` of its input with item `n + i` of a fixed stream,
where `n` is the position it has reached. This file has the general form: an operation `op`
combining an item with a stream element, a stream `ks : ℕ → κ`, and the masked list
`mask op ks n l`. When `op` undoes itself, so does masking, and masking two pieces is masking
their concatenation if the second starts where the first one stopped.

## Main definitions

* `Keystream.mask` — the list `l` combined with the stream from position `n` on.

## Main results

* `Keystream.mask_append` — masking splits at any cut.
* `Keystream.mask_mask` — masking twice at the same position is the identity.
-/

namespace Keystream

variable {α κ : Type*} (op : α → κ → α) (ks : ℕ → κ)

/-- The list `l` with item `i` combined with the stream element at position `n + i`. -/
def mask : ℕ → List α → List α
  | _, [] => []
  | n, a :: l => op a (ks n) :: mask (n + 1) l

@[simp] theorem mask_nil (n : ℕ) : mask op ks n [] = [] := rfl

@[simp] theorem mask_cons (n : ℕ) (a : α) (l : List α) :
    mask op ks n (a :: l) = op a (ks n) :: mask op ks (n + 1) l := rfl

/-- Masking keeps the length. -/
@[simp] theorem length_mask (n : ℕ) (l : List α) : (mask op ks n l).length = l.length := by
  induction l generalizing n with
  | nil => rfl
  | cons a l ih => simp [ih]

/-- Masking splits at any cut: the second part starts where the first one stopped. -/
theorem mask_append (n : ℕ) (l m : List α) :
    mask op ks n (l ++ m) = mask op ks n l ++ mask op ks (n + l.length) m := by
  induction l generalizing n with
  | nil => simp
  | cons a l ih =>
    have hpos : n + 1 + l.length = n + (l.length + 1) := by omega
    simp [ih, hpos]

/-- Masking twice at the same position is the identity when `op` undoes itself. -/
theorem mask_mask (hop : ∀ a k, op (op a k) k = a) (n : ℕ) (l : List α) :
    mask op ks n (mask op ks n l) = l := by
  induction l generalizing n with
  | nil => rfl
  | cons a l ih => simp [hop, ih]

/-- Dropping items of a masked list moves the position on. -/
theorem drop_mask (n k : ℕ) (l : List α) :
    (mask op ks n l).drop k = mask op ks (n + k) (l.drop k) := by
  induction k generalizing n l with
  | zero => simp
  | succ k ih =>
    cases l with
    | nil => simp
    | cons a l =>
      have hpos : n + 1 + k = n + (k + 1) := by omega
      simp [ih, hpos]

end Keystream
