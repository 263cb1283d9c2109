import Mathlib.Data.List.DropRight
import Mathlib.Data.List.Infix

set_option relaxedAutoImplicit false
set_option autoImplicit false

/-!
# First occurrences of a pattern

Searching a list for the first occurrence of a pattern, as `str::contains` and `str::replacen` do
on text, taking the white space off the two ends of a text, and cutting a text into lines.

## Main definitions

* `Text.splitFirst` — what stands before and behind the first occurrence.
* `Text.containsPattern` — whether there is one.
* `Text.position` — where it stands.
* `Text.trim` — a text without the white space around it.
* `Text.stripSuffix` — a text without an ending.
* `Text.lines` — the lines of a text.

## Main results

* `Text.splitFirst_eq` — the two pieces and the pattern make up the list.
* `Text.splitFirst_append` — a piece without the pattern's first letter is skipped.
* `Text.position_append`, `position_of_append` — a list that grows at its end.
* `Text.trim_eq_self`, `Text.trim_stripLineEnd` — nothing to take off, and the end of a line.
* `Text.splitInclusive_append` — a text of terminated lines.
-/

namespace Text

variable {α : Type} [DecidableEq α]

/-- What stands before and behind the first occurrence of `pat`. -/
def splitFirst (pat : List α) : List α → Option (List α × List α)
  | [] => if pat = [] then some ([], []) else none
  | a :: s =>
    if pat.isPrefixOf (a :: s) then some ([], (a :: s).drop pat.length)
    else (splitFirst pat s).map fun x => (a :: x.1, x.2)

/-- Whether `pat` occurs in the list. -/
def containsPattern (s pat : List α) : Bool := (splitFirst pat s).isSome

theorem splitFirst_eq {pat : List α} :
    ∀ {s a b : List α}, splitFirst pat s = some (a, b) → s = a ++ pat ++ b
  | [], a, b, h => by
    simp only [splitFirst] at h
    split_ifs at h with hpat
    cases h
    simp [hpat]
  | c :: s, a, b, h => by
    simp only [splitFirst] at h
    split_ifs at h with hpre
    · cases h
      obtain ⟨t, ht⟩ := List.isPrefixOf_iff_prefix.mp hpre
      simp [← ht]
    · obtain ⟨⟨a', b'⟩, hs, heq⟩ := Option.map_eq_some_iff.mp h
      cases heq
      rw [splitFirst_eq hs]
      simp

/-- A piece that does not have the pattern's first letter is skipped. -/
theorem splitFirst_append {c : α} {pat pre : List α} (hpre : c ∉ pre) (s : List α) :
    splitFirst (c :: pat) (pre ++ s) =
      (splitFirst (c :: pat) s).map fun x => (pre ++ x.1, x.2) := by
  induction pre with
  | nil => simp
  | cons a pre ih =>
    obtain ⟨hca, hpre⟩ : c ≠ a ∧ c ∉ pre := by simpa using hpre
    have hno : (c :: pat).isPrefixOf (a :: (pre ++ s)) = false := by
      simp [List.isPrefixOf, hca]
    rw [List.cons_append, splitFirst, hno, ih hpre]
    cases splitFirst (c :: pat) s <;> simp

/-- The pattern itself is found at the start. -/
theorem splitFirst_self_append {pat : List α} (s : List α) (hpat : pat ≠ []) :
    splitFirst pat (pat ++ s) = some ([], s) := by
  obtain ⟨c, pat', rfl⟩ := List.exists_cons_of_ne_nil hpat
  have hfound : (c :: pat').isPrefixOf (c :: (pat' ++ s)) = true :=
    List.isPrefixOf_iff_prefix.mpr ⟨s, rfl⟩
  rw [List.cons_append, splitFirst, if_pos hfound]
  simp

/-- More text behind an occurrence does not change what stands before it. -/
theorem splitFirst_append_right {pat : List α} :
    ∀ {s a b : List α}, splitFirst pat s = some (a, b) → ∀ t,
      splitFirst pat (s ++ t) = some (a, b ++ t)
  | [], a, b, h, t => by
    simp only [splitFirst] at h
    split_ifs at h with hpat
    cases h
    subst hpat
    cases t <;> simp [splitFirst]
  | c :: s, a, b, h, t => by
    simp only [splitFirst] at h
    rw [List.cons_append, splitFirst]
    split_ifs at h with hpre
    · cases h
      obtain ⟨u, hu⟩ := List.isPrefixOf_iff_prefix.mp hpre
      have hlong : pat.isPrefixOf (c :: (s ++ t)) = true :=
        List.isPrefixOf_iff_prefix.mpr ⟨u ++ t, by rw [← List.append_assoc, hu, List.cons_append]⟩
      have hlen : pat.length ≤ (c :: s).length := by rw [← hu]; simp
      rw [if_pos hlong, ← List.cons_append, List.drop_append_of_le_length hlen]
    · obtain ⟨⟨a', b'⟩, hs, heq⟩ := Option.map_eq_some_iff.mp h
      cases heq
      have hshort : ¬ pat.isPrefixOf (c :: (s ++ t)) = true := by
        intro hlong
        have hlen : pat.length ≤ (c :: s).length := by
          rw [List.length_cons, splitFirst_eq hs]
          simp
          omega
        have hpfx : pat <+: (c :: s) ++ t := List.isPrefixOf_iff_prefix.mp hlong
        exact hpre (List.isPrefixOf_iff_prefix.mpr
          (List.prefix_of_prefix_length_le hpfx (List.prefix_append _ _) hlen))
      rw [if_neg hshort, splitFirst_append_right hs t]
      rfl

/-- The pattern occurs exactly if it is found. -/
theorem splitFirst_eq_none_iff {pat : List α} :
    ∀ {s : List α}, splitFirst pat s = none ↔ ¬ pat <:+: s
  | [] => by simp [splitFirst]
  | c :: s => by
    rw [splitFirst, List.infix_cons_iff, ← List.isPrefixOf_iff_prefix]
    split_ifs with hpre
    · simp [hpre]
    · simp [hpre, splitFirst_eq_none_iff (s := s)]

/-! ## Positions -/

/-- Where the first occurrence of `pat` stands: `l.windows(n).position(|w| w == pat)`. -/
def position (pat s : List α) : Option ℕ := (splitFirst pat s).map fun x => x.1.length

variable {pat s t : List α} {p : ℕ}

theorem position_eq_some_iff :
    position pat s = some p ↔ ∃ a b, splitFirst pat s = some (a, b) ∧ a.length = p := by
  simp [position]

theorem position_eq_none_iff : position pat s = none ↔ ¬ pat <:+: s := by
  rw [position, Option.map_eq_none_iff, splitFirst_eq_none_iff]

/-- What stands before an occurrence, the pattern, and what stands behind it. -/
theorem position_split (h : position pat s = some p) :
    s = s.take p ++ pat ++ s.drop (p + pat.length) := by
  obtain ⟨a, b, hsplit, rfl⟩ := position_eq_some_iff.mp h
  have hs := splitFirst_eq hsplit
  have htake : s.take a.length = a := by rw [hs, List.append_assoc, List.take_left]
  have hdrop : s.drop (a.length + pat.length) = b := by
    rw [hs, ← List.length_append, List.drop_left]
  rw [htake, hdrop, ← hs]

theorem position_le (h : position pat s = some p) : p + pat.length ≤ s.length := by
  obtain ⟨a, b, hsplit, rfl⟩ := position_eq_some_iff.mp h
  rw [splitFirst_eq hsplit]
  simp

theorem position_append (h : position pat s = some p) (t : List α) :
    position pat (s ++ t) = some p := by
  obtain ⟨a, b, hsplit, rfl⟩ := position_eq_some_iff.mp h
  exact position_eq_some_iff.mpr ⟨a, b ++ t, splitFirst_append_right hsplit t, rfl⟩

/-- An occurrence inside a piece is found in the piece alone. -/
theorem position_of_append (h : position pat (s ++ t) = some p) (hp : p + pat.length ≤ s.length) :
    position pat s = some p := by
  cases hs : position pat s with
  | some q => rw [← hs, ← h, position_append hs, hs]
  | none =>
    have hmem : pat <:+: s := by
      have htake : (s ++ t).take (p + pat.length) = s.take (p + pat.length) :=
        List.take_append_of_le_length hp
      have hfound : s.take (p + pat.length) = (s ++ t).take p ++ pat := by
        rw [← htake]
        conv_lhs => rw [position_split h]
        have hlen : ((s ++ t).take p ++ pat).length = p + pat.length := by
          rw [List.length_append, List.length_take, List.length_append]
          omega
        exact List.take_left' hlen
      have hinfix : pat <:+: s.take (p + pat.length) := hfound ▸ (List.suffix_append _ _).isInfix
      exact hinfix.trans (List.take_prefix _ _).isInfix
    exact absurd hmem (position_eq_none_iff.mp hs)

/-! ## White space -/

/-- `char::is_whitespace`: the property `White_Space` of Unicode. -/
def isWhitespace (c : Char) : Bool :=
  let n := c.toNat
  (9 ≤ n && n ≤ 13) || n == 0x20 || n == 0x85 || n == 0xa0 || n == 0x1680 ||
    (0x2000 ≤ n && n ≤ 0x200a) || n == 0x2028 || n == 0x2029 || n == 0x202f || n == 0x205f ||
    n == 0x3000

/-- `str::trim`. -/
def trim (s : List Char) : List Char := (s.dropWhile isWhitespace).rdropWhile isWhitespace

/-- A text without white space is left alone. -/
theorem trim_eq_self {s : List Char} (h : ∀ c ∈ s, isWhitespace c = false) : trim s = s := by
  have hhead : s.dropWhile isWhitespace = s := by
    cases s with
    | nil => rfl
    | cons c s => exact List.dropWhile_cons_of_neg (by simp [h c List.mem_cons_self])
  rw [trim, hhead, List.rdropWhile_eq_self_iff]
  intro hne
  simp [h _ (List.getLast_mem hne)]

/-- White space behind a text is taken off. -/
theorem trim_concat {c : Char} (hc : isWhitespace c = true) (s : List Char) :
    trim (s ++ [c]) = trim s := by
  rw [trim, trim, List.dropWhile_append]
  split_ifs with hnil
  · rw [List.isEmpty_iff.mp hnil, List.dropWhile_cons_of_pos hc]
    rfl
  · exact List.rdropWhile_concat_pos _ _ _ hc

/-! ## Lines -/

/-- `str::strip_prefix`. -/
def stripPrefix (start s : List Char) : Option (List Char) :=
  if start <+: s then some (s.drop start.length) else none

/-- `str::strip_suffix`. -/
def stripSuffix (suffix s : List Char) : Option (List Char) :=
  if suffix <:+ s then some (s.take (s.length - suffix.length)) else none

/-- `str::split_inclusive('\n')`: the lines with their ends. -/
def splitInclusive : List Char → List (List Char)
  | [] => []
  | c :: s =>
    if c = '\n' then [c] :: splitInclusive s
    else
      match splitInclusive s with
      | [] => [[c]]
      | l :: ls => (c :: l) :: ls

/-- A line without its end. -/
def stripLineEnd (line : List Char) : List Char :=
  match stripSuffix ['\n'] line with
  | none => line
  | some line => (stripSuffix ['\r'] line).getD line

/-- `str::lines`. -/
def lines (s : List Char) : List (List Char) := (splitInclusive s).map stripLineEnd

theorem stripSuffix_append (s suffix : List Char) : stripSuffix suffix (s ++ suffix) = some s := by
  rw [stripSuffix, if_pos (List.suffix_append _ _), List.length_append, Nat.add_sub_cancel,
    List.take_left]

theorem stripSuffix_eq_none {s suffix : List Char} (h : ¬ suffix <:+ s) :
    stripSuffix suffix s = none := if_neg h

/-- What is left of a text and what was taken off make it up. -/
theorem stripSuffix_eq_some {s suffix r : List Char} (h : stripSuffix suffix s = some r) :
    s = r ++ suffix := by
  unfold stripSuffix at h
  split_ifs at h with hsuffix
  obtain ⟨t, rfl⟩ := hsuffix
  rw [List.length_append, Nat.add_sub_cancel, List.take_left] at h
  rw [Option.some.inj h]

/-- Without its end a line is trimmed as before. -/
theorem trim_stripLineEnd (line : List Char) : trim (stripLineEnd line) = trim line := by
  unfold stripLineEnd
  cases hlf : stripSuffix ['\n'] line with
  | none => rfl
  | some l =>
    have hline : trim line = trim l := by rw [stripSuffix_eq_some hlf, trim_concat rfl]
    show trim ((stripSuffix ['\r'] l).getD l) = trim line
    rw [hline]
    cases hcr : stripSuffix ['\r'] l with
    | none => rfl
    | some l' =>
      have hl : trim l = trim l' := by rw [stripSuffix_eq_some hcr, trim_concat rfl]
      exact hl.symm

/-- A terminated line in front of a text. -/
theorem splitInclusive_append {line : List Char} (h : '\n' ∉ line) (s : List Char) :
    splitInclusive (line ++ '\n' :: s) = (line ++ ['\n']) :: splitInclusive s := by
  induction line with
  | nil => simp [splitInclusive]
  | cons c line ih =>
    obtain ⟨hc, h⟩ : '\n' ≠ c ∧ '\n' ∉ line := by simpa using h
    rw [List.cons_append, splitInclusive, if_neg hc.symm, ih h]
    rfl

/-- A last line without its end. -/
theorem splitInclusive_line {line : List Char} (h : '\n' ∉ line) :
    splitInclusive line = if line = [] then [] else [line] := by
  induction line with
  | nil => rfl
  | cons c line ih =>
    obtain ⟨hc, h⟩ : '\n' ≠ c ∧ '\n' ∉ line := by simpa using h
    rw [splitInclusive, if_neg hc.symm, if_neg (List.cons_ne_nil _ _), ih h]
    by_cases hnil : line = []
    · rw [if_pos hnil, hnil]
    · rw [if_neg hnil]

end Text
