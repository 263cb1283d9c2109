import Mathlib.Data.List.Basic
import Mathlib.Tactic.Tauto

set_option relaxedAutoImplicit false
set_option autoImplicit false

/-!
# Hexadecimal text

Two digits a byte, high half first. Digits are read in either letter case and written in lower
case.

## Main definitions

* `Hex.decode`, `Hex.encode` — between text and bytes.

## Main results

* `Hex.decode_encode` — what was written reads back.
* `Hex.decode_append` — decoding goes through a concatenation at a byte boundary.
* `Hex.isSome_decode_iff` — which texts decode.
-/

namespace Hex

/-- The value of a digit, in either letter case. -/
def digit (c : Char) : Option ℕ :=
  if '0' ≤ c ∧ c ≤ '9' then some (c.toNat - 48)
  else if 'a' ≤ c ∧ c ≤ 'f' then some (c.toNat - 87)
  else if 'A' ≤ c ∧ c ≤ 'F' then some (c.toNat - 55)
  else none

/-- The bytes of a text of digit pairs. -/
def decode : List Char → Option (List UInt8)
  | [] => some []
  | [_] => none
  | a :: b :: rest => do
    let high ← digit a
    let low ← digit b
    let bytes ← decode rest
    return UInt8.ofNat (16 * high + low) :: bytes

/-- The lower-case digit of a value below sixteen. -/
def lowerDigit (n : ℕ) : Char := Char.ofNat (if n < 10 then 48 + n else 87 + n)

/-- The digits of one byte. -/
def encodeByte (b : UInt8) : List Char := [lowerDigit (b.toNat / 16), lowerDigit (b.toNat % 16)]

/-- The digits of a byte string. -/
def encode (bytes : List UInt8) : List Char := bytes.flatMap encodeByte

theorem digit_lowerDigit : ∀ n < 16, digit (lowerDigit n) = some n := by decide

/-- Decoding the digits of one byte before others. -/
theorem decode_encodeByte_append (b : UInt8) (s : List Char) :
    decode (encodeByte b ++ s) = (decode s).map (b :: ·) := by
  have hb := b.toNat_lt
  have hhigh := digit_lowerDigit (b.toNat / 16) (by omega)
  have hlow := digit_lowerDigit (b.toNat % 16) (by omega)
  have hbyte : UInt8.ofNat (16 * (b.toNat / 16) + b.toNat % 16) = b := by
    rw [Nat.div_add_mod, UInt8.ofNat_toNat]
  simp only [encodeByte, List.cons_append, List.nil_append, decode, hhigh, hlow,
    Option.bind_eq_bind, Option.bind_some, hbyte]
  cases decode s <;> rfl

/-- What was written reads back. -/
theorem decode_encode (bytes : List UInt8) : decode (encode bytes) = some bytes := by
  induction bytes with
  | nil => rfl
  | cons b bytes ih =>
    change decode (encodeByte b ++ encode bytes) = some (b :: bytes)
    rw [decode_encodeByte_append, ih, Option.map_some]

/-- Decoding goes through a concatenation at a byte boundary. -/
theorem decode_append {s : List Char} {bytes : List UInt8} (h : decode s = some bytes)
    (t : List Char) : decode (s ++ t) = (decode t).map (bytes ++ ·) := by
  induction s using decode.induct generalizing bytes with
  | case1 =>
    cases h
    simp
  | case2 c => cases h
  | case3 a b rest ih =>
    simp only [decode, Option.bind_eq_bind, Option.bind_eq_some_iff] at h
    obtain ⟨high, hhigh, low, hlow, bytes', hrest, hbytes⟩ := h
    cases hbytes
    simp only [List.cons_append, decode, hhigh, hlow, ih hrest, Option.bind_eq_bind,
      Option.bind_some]
    cases decode t <;> rfl

/-- A text decodes exactly if it has digits only, an even number of them. -/
theorem isSome_decode_iff (s : List Char) :
    (decode s).isSome = true ↔ s.length % 2 = 0 ∧ ∀ c ∈ s, (digit c).isSome = true := by
  induction s using decode.induct with
  | case1 => simp [decode]
  | case2 c => simp [decode]
  | case3 a b rest ih =>
    have hlen : (a :: b :: rest).length % 2 = rest.length % 2 := by
      rw [List.length_cons, List.length_cons]
      omega
    have hdecode : (decode (a :: b :: rest)).isSome = true ↔
        (digit a).isSome = true ∧ (digit b).isSome = true ∧ (decode rest).isSome = true := by
      simp only [decode, Option.bind_eq_bind]
      cases digit a <;> cases digit b <;> cases decode rest <;> simp
    rw [hdecode, ih, hlen, List.forall_mem_cons, List.forall_mem_cons]
    tauto

end Hex
