import Mathlib.Data.List.Basic
import Mathlib.Data.List.SplitLengths
import Mathlib.Algebra.BigOperators.Group.List.Basic
import Mathlib.Algebra.Order.Ring.Nat
import Mathlib.Tactic.Common

set_option relaxedAutoImplicit false
set_option autoImplicit false

/-!
# Framing a stream that arrives in pieces

A framer looks at what is buffered of a stream and says one of three things: wait for more, stop
framing for good, or take the next `n` items as one frame. It may only decide on what it has
seen: once it takes or stops, more input must not change its mind (`Scanner`). Framing a stream
greedily then gives the lengths of its frames (`Scanner.frames`), and framing it in pieces, with
the unframed rest carried over, gives the same lengths (`Scanner.frames_append`).

## Main definitions

* `Framing.Verdict`, `Framing.Scanner` — a scanner and its prefix-stability laws.
* `Framing.Scanner.frames` — the frame lengths of a stream, and whether framing stopped.

## Main results

* `Framing.Scanner.frames_append_of_stopped`, `Framing.Scanner.frames_append` — how the frames
  of a stream follow from those of a prefix of it.
* `Framing.Scanner.frames_flatten` — a concatenation of complete frames is framed back.
-/

namespace Framing

/-- What a scanner says about the items buffered. -/
inductive Verdict
  | wait
  | stop
  | take (n : ℕ)
  deriving DecidableEq, Repr

/-- A scanner over `α` whose decisions are positive, within the buffer and stable under more
input. -/
structure Scanner (α : Type*) where
  scan : List α → Verdict
  take_pos : ∀ {l n}, scan l = .take n → 0 < n
  take_le : ∀ {l n}, scan l = .take n → n ≤ l.length
  take_append : ∀ {l n}, scan l = .take n → ∀ m, scan (l ++ m) = .take n
  stop_append : ∀ {l}, scan l = .stop → ∀ m, scan (l ++ m) = .stop

namespace Scanner

variable {α : Type*} (S : Scanner α)

/-- The lengths of the frames at the start of `l`, and whether framing stopped after them. -/
def frames (l : List α) : List ℕ × Bool :=
  match _h : S.scan l with
  | .wait => ([], false)
  | .stop => ([], true)
  | .take n => (n :: (frames (l.drop n)).1, (frames (l.drop n)).2)
termination_by l.length
decreasing_by
  all_goals
    have := S.take_pos _h
    have := S.take_le _h
    rw [List.length_drop]
    omega

theorem frames_wait {l : List α} (h : S.scan l = .wait) : S.frames l = ([], false) := by
  rw [frames]
  split <;> simp_all

theorem frames_stop {l : List α} (h : S.scan l = .stop) : S.frames l = ([], true) := by
  rw [frames]
  split <;> simp_all

theorem frames_take {l : List α} {n : ℕ} (h : S.scan l = .take n) :
    S.frames l = (n :: (S.frames (l.drop n)).1, (S.frames (l.drop n)).2) := by
  rw [frames]
  split <;> simp_all

/-- Induction along the frames of a list. -/
theorem frames_induction {motive : List α → Prop} (wait : ∀ l, S.scan l = .wait → motive l)
    (stop : ∀ l, S.scan l = .stop → motive l)
    (take : ∀ l n, S.scan l = .take n → motive (l.drop n) → motive l) (l : List α) :
    motive l := by
  induction hlen : l.length using Nat.strong_induction_on generalizing l with
  | _ k ih =>
    cases h : S.scan l with
    | wait => exact wait l h
    | stop => exact stop l h
    | take n =>
      have hpos := S.take_pos h
      have hle := S.take_le h
      exact take l n h (ih (l.drop n).length (by rw [List.length_drop]; omega) _ rfl)

/-- The frames lie inside the list. -/
theorem sum_frames_le (l : List α) : (S.frames l).1.sum ≤ l.length := by
  induction l using S.frames_induction with
  | wait l h => simp [S.frames_wait h]
  | stop l h => simp [S.frames_stop h]
  | take l n h ih =>
    have hle := S.take_le h
    rw [S.frames_take h]
    simp only [List.sum_cons, List.length_drop] at ih ⊢
    omega

/-- Frames are not empty. -/
theorem frames_pos (l : List α) : ∀ n ∈ (S.frames l).1, 0 < n := by
  induction l using S.frames_induction with
  | wait l h => simp [S.frames_wait h]
  | stop l h => simp [S.frames_stop h]
  | take l n h ih =>
    rw [S.frames_take h]
    exact List.forall_mem_cons.mpr ⟨S.take_pos h, ih⟩

/-- Where framing has stopped, something is left. -/
theorem sum_frames_lt (hnil : S.scan [] = .wait) {l : List α} (hstop : (S.frames l).2 = true) :
    (S.frames l).1.sum < l.length := by
  induction l using S.frames_induction with
  | wait l h => simp [S.frames_wait h] at hstop
  | stop l h =>
    rw [S.frames_stop h]
    refine List.length_pos_iff.mpr ?_
    rintro rfl
    rw [hnil] at h
    cases h
  | take l n h ih =>
    rw [S.frames_take h] at hstop ⊢
    have hlt := ih hstop
    rw [List.length_drop] at hlt
    rw [List.sum_cons]
    omega

/-- While framing has not stopped, what is left of a list is no frame yet. -/
theorem scan_drop_frames {l : List α} (h : (S.frames l).2 = false) :
    S.scan (l.drop (S.frames l).1.sum) = .wait := by
  induction l using S.frames_induction with
  | wait l hs => simpa [S.frames_wait hs] using hs
  | stop l hs => simp [S.frames_stop hs] at h
  | take l n hs ih =>
    rw [S.frames_take hs] at h ⊢
    rw [List.sum_cons, ← List.drop_drop]
    exact ih h

/-- Once framing has stopped, more input changes nothing. -/
theorem frames_append_of_stopped {l : List α} (h : (S.frames l).2 = true) (m : List α) :
    S.frames (l ++ m) = S.frames l := by
  induction l using S.frames_induction with
  | wait l hs => simp [S.frames_wait hs] at h
  | stop l hs => rw [S.frames_stop hs, S.frames_stop (S.stop_append hs m)]
  | take l n hs ih =>
    rw [S.frames_take hs] at h
    rw [S.frames_take hs, S.frames_take (S.take_append hs m),
      List.drop_append_of_le_length (S.take_le hs), ih h]

/-- **Framing in pieces.** While framing has not stopped, the frames of `l ++ m` are those of
`l` followed by those of the rest of `l` with `m` behind it. -/
theorem frames_append {l : List α} (h : (S.frames l).2 = false) (m : List α) :
    S.frames (l ++ m) =
      ((S.frames l).1 ++ (S.frames (l.drop (S.frames l).1.sum ++ m)).1,
        (S.frames (l.drop (S.frames l).1.sum ++ m)).2) := by
  induction l using S.frames_induction with
  | wait l hs => simp [S.frames_wait hs]
  | stop l hs => simp [S.frames_stop hs] at h
  | take l n hs ih =>
    rw [S.frames_take hs] at h
    rw [S.frames_take hs, S.frames_take (S.take_append hs m),
      List.drop_append_of_le_length (S.take_le hs), ih h]
    simp [List.drop_drop]

/-- A concatenation of complete frames is framed back, with nothing left over. -/
theorem frames_flatten (hnil : S.scan [] = .wait) (fs : List (List α))
    (hfs : ∀ f ∈ fs, S.scan f = .take f.length) :
    S.frames fs.flatten = (fs.map List.length, false) := by
  induction fs with
  | nil => simpa using S.frames_wait hnil
  | cons f fs ih =>
    have hf := S.take_append (hfs f (by simp)) fs.flatten
    rw [List.flatten_cons, S.frames_take hf, List.drop_left,
      ih fun g hg => hfs g (by simp [hg])]
    simp

end Scanner

/-! ## Cutting a second list at the same lengths -/

variable {β : Type*}

/-- Pieces of the given lengths followed by the rest are the whole list. -/
theorem flatten_splitLengths_append_drop (sz : List ℕ) (l : List β) :
    (sz.splitLengths l).flatten ++ l.drop sz.sum = l := by
  induction sz generalizing l with
  | nil => simp
  | cons n sz ih =>
    have := ih (l.drop n)
    rw [List.drop_drop] at this
    rw [List.splitLengths_cons, List.flatten_cons, List.sum_cons, List.append_assoc, this,
      List.take_append_drop]

/-- Pieces cut from a longer list by lengths that fit the shorter one. -/
theorem splitLengths_append_left {sz : List ℕ} {l : List β} (h : sz.sum ≤ l.length)
    (m : List β) : sz.splitLengths (l ++ m) = sz.splitLengths l := by
  induction sz generalizing l with
  | nil => rfl
  | cons n sz ih =>
    have hn : n ≤ l.length := by simp at h; omega
    rw [List.splitLengths_cons, List.splitLengths_cons, List.take_append_of_le_length hn,
      List.drop_append_of_le_length hn, ih]
    simp at h ⊢
    omega

/-- Pieces of positive lengths that fit a list are not empty. -/
theorem splitLengths_ne_nil {sz : List ℕ} (hpos : ∀ n ∈ sz, 0 < n) {l : List β}
    (hle : sz.sum ≤ l.length) : ∀ part ∈ sz.splitLengths l, part ≠ [] := by
  induction sz generalizing l with
  | nil => simp
  | cons n sz ih =>
    obtain ⟨hn, hpos⟩ := List.forall_mem_cons.mp hpos
    rw [List.sum_cons] at hle
    rw [List.splitLengths_cons]
    refine List.forall_mem_cons.mpr ⟨?_, ih hpos (by rw [List.length_drop]; omega)⟩
    exact List.length_pos_iff.mp (by rw [List.length_take]; omega)

/-- Cutting by two runs of lengths, one after the other. -/
theorem splitLengths_append (sz₁ sz₂ : List ℕ) (l : List β) :
    (sz₁ ++ sz₂).splitLengths l = sz₁.splitLengths l ++ sz₂.splitLengths (l.drop sz₁.sum) := by
  induction sz₁ generalizing l with
  | nil => simp
  | cons n sz₁ ih => simp [ih, List.drop_drop]

/-- Cutting a concatenation at the lengths of its parts gives the parts. -/
theorem splitLengths_flatten (fs : List (List β)) :
    (fs.map List.length).splitLengths fs.flatten = fs := by
  induction fs with
  | nil => rfl
  | cons f fs ih => simp [ih]

end Framing
