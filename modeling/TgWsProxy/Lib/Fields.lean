import TgWsProxy.Lib.Text
import Mathlib.Data.List.Basic

set_option relaxedAutoImplicit false
set_option autoImplicit false

/-!
# Fields of a text

Cutting a text at the first or the last occurrence of a separator, as `str::split_once` and
`str::rsplit_once` do, and reading a decimal number as `str::parse` does for the unsigned types.

## Main definitions

* `Text.splitOnce`, `rsplitOnce` — the fields of a text.
* `Text.parseUnsigned` — the number that a field shows.

## Main results

* `Text.splitOnce_eq_some_iff`, `rsplitOnce_eq_some_iff` — where a text is cut.
* `Text.parseUnsigned_chars` — what a number is written with.
-/

namespace Text

/-! ## Separators -/

section Separators

variable {α : Type} [DecidableEq α]

/-- `str::split_once`: what stands before and behind the first `c`. -/
def splitOnce (c : α) (s : List α) : Option (List α × List α) := splitFirst [c] s

/-- `str::rsplit_once`: what stands before and behind the last `c`. -/
def rsplitOnce (c : α) (s : List α) : Option (List α × List α) :=
  (splitOnce c s.reverse).map fun x => (x.2.reverse, x.1.reverse)

variable {c : α} {s a b : List α}

theorem splitOnce_append (h : c ∉ a) : splitOnce c (a ++ c :: b) = some (a, b) := by
  have hself : splitFirst [c] (c :: b) = some ([], b) :=
    splitFirst_self_append b (List.cons_ne_nil c [])
  rw [splitOnce, splitFirst_append h, hself]
  simp

theorem splitOnce_eq_none_iff : splitOnce c s = none ↔ c ∉ s := by
  rw [splitOnce, splitFirst_eq_none_iff, not_iff_not]
  constructor
  · rintro ⟨a, b, rfl⟩
    simp
  · intro h
    obtain ⟨a, b, rfl⟩ := List.append_of_mem h
    exact ⟨a, b, by simp⟩

/-- A text is cut at the first separator, if it has one. -/
theorem splitOnce_eq_some_iff : splitOnce c s = some (a, b) ↔ s = a ++ c :: b ∧ c ∉ a := by
  constructor
  · intro h
    have hmem : c ∈ s := by
      by_contra hnot
      rw [splitOnce_eq_none_iff.mpr hnot] at h
      cases h
    -- cut where the separator stands for the first time, the text has one way to be cut
    obtain ⟨a', b', hs, ha'⟩ := List.eq_append_cons_of_mem hmem
    rw [hs, splitOnce_append ha'] at h
    cases h
    exact ⟨hs, ha'⟩
  · rintro ⟨rfl, ha⟩
    exact splitOnce_append ha

theorem rsplitOnce_eq_none_iff : rsplitOnce c s = none ↔ c ∉ s := by
  rw [rsplitOnce, Option.map_eq_none_iff, splitOnce_eq_none_iff, List.mem_reverse]

/-- A text is cut at the last separator, if it has one. -/
theorem rsplitOnce_eq_some_iff : rsplitOnce c s = some (a, b) ↔ s = a ++ c :: b ∧ c ∉ b := by
  rw [rsplitOnce, Option.map_eq_some_iff]
  constructor
  · rintro ⟨⟨x, y⟩, hsplit, heq⟩
    cases heq
    obtain ⟨hs, hx⟩ := splitOnce_eq_some_iff.mp hsplit
    refine ⟨?_, by simpa using hx⟩
    rw [← List.reverse_reverse s, hs]
    simp
  · rintro ⟨rfl, hb⟩
    refine ⟨(b.reverse, a.reverse), ?_, by simp⟩
    apply splitOnce_eq_some_iff.mpr
    simp [hb]

end Separators

/-- What was stripped off and what is left make up the text. -/
theorem stripPrefix_eq_some {start s rest : List Char} (h : stripPrefix start s = some rest) :
    s = start ++ rest := by
  unfold stripPrefix at h
  split_ifs at h with hstart
  obtain ⟨t, rfl⟩ := hstart
  rw [List.drop_left] at h
  rw [Option.some.inj h]

theorem stripPrefix_append (start s : List Char) : stripPrefix start (start ++ s) = some s := by
  unfold stripPrefix
  rw [if_pos (List.prefix_append _ _), List.drop_left]

/-! ## Numbers -/

/-- `str::parse` for an unsigned type whose largest value is `max`. -/
def parseUnsigned (max : ℕ) (s : List Char) : Option ℕ :=
  let digits := (stripPrefix ['+'] s).getD s
  if digits ≠ [] ∧ digits.all Char.isDigit ∧ Nat.ofDigitChars 10 digits 0 ≤ max then
    some (Nat.ofDigitChars 10 digits 0)
  else none

variable {max : ℕ} {s : List Char}

/-- A number shows its digits, and a sign if it likes. -/
theorem parseUnsigned_chars (h : (parseUnsigned max s).isSome = true) {c : Char} (hc : c ∈ s) :
    c = '+' ∨ c.isDigit = true := by
  unfold parseUnsigned at h
  cases hsign : stripPrefix ['+'] s with
  | none =>
    simp only [hsign, Option.getD_none] at h
    split_ifs at h with hdigits
    · exact .inr (List.all_eq_true.mp hdigits.2.1 c hc)
    · cases h
  | some digits =>
    simp only [hsign, Option.getD_some] at h
    split_ifs at h with hdigits
    · rw [stripPrefix_eq_some hsign] at hc
      rcases List.mem_cons.mp hc with rfl | hc
      · exact .inl rfl
      · exact .inr (List.all_eq_true.mp hdigits.2.1 c hc)
    · cases h

/-- What separates fields is no part of a number. -/
theorem not_mem_of_parseUnsigned (h : (parseUnsigned max s).isSome = true) {c : Char}
    (hsign : c ≠ '+') (hdigit : c.isDigit = false) : c ∉ s := by
  intro hc
  rcases parseUnsigned_chars h hc with hplus | hd
  · exact hsign hplus
  · rw [hdigit] at hd
    cases hd

end Text
