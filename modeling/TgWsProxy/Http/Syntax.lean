import TgWsProxy.Lib.Text
import TgWsProxy.Lib.Slices
import TgWsProxy.Links

set_option relaxedAutoImplicit false
set_option autoImplicit false

/-!
# What the HTTP reader makes of bytes

The pure part of `default_domains/http.rs`: integers in text, the size line of a chunk, and what
the reader takes from the response headers. The width of `usize` is a parameter.

## Main definitions

* `TgWsProxy.PointerWidth` — the width of `usize` on the target.
* `TgWsProxy.Halt` — why a computation stops without a result.
* `TgWsProxy.fromStrRadix` — `usize::from_str_radix`.
* `TgWsProxy.chunkSize` — the size on a chunk's size line (`read_chunked_body`).
* `TgWsProxy.headerEnd`, `httpHeaderCount`, `isChunked`, `contentLength` — the functions of the
  same names.

## Main results

* `TgWsProxy.crlfFree_position` — the first line end behind a line that has none.
* `TgWsProxy.fromStrRadix_hex` — digits in any letter case and with leading zeros.
-/

namespace TgWsProxy

open Slices

/-! ## `usize` -/

/-- The width of a pointer, and of `usize`, on the target. -/
inductive PointerWidth
  | bits32
  | bits64
  deriving DecidableEq

/-- `usize::MAX`. -/
def PointerWidth.usizeMax : PointerWidth → ℕ
  | bits32 => 2 ^ 32 - 1
  | bits64 => 2 ^ 64 - 1

/-- Why a computation stops without a result. A read that never completes is `pending`. -/
inductive Halt
  | panic (p : Panic)
  | overflow
  | pending
  | failed (e : String)
  deriving DecidableEq

/-- `a + b` on `usize`. -/
def checkedAdd (w : PointerWidth) (a b : ℕ) : Except Halt ℕ :=
  if a + b ≤ w.usizeMax then .ok (a + b) else .error .overflow

/-- An access to a slice. -/
def access {α : Type} (a : Except Panic α) : Except Halt α := a.mapError .panic

theorem PointerWidth.le_usizeMax (w : PointerWidth) : 2 ^ 32 - 1 ≤ w.usizeMax := by
  cases w <;> decide

theorem checkedAdd_eq {w : PointerWidth} {a b : ℕ} (h : a + b ≤ w.usizeMax) :
    checkedAdd w a b = .ok (a + b) := if_pos h

theorem access_ok {α : Type} (a : α) : access (.ok a) = .ok a := rfl

/-- A computation goes on behind a step that succeeds. -/
theorem halt_ok_bind {α β : Type} (a : α) (f : α → Except Halt β) :
    (Except.ok a >>= f) = f a := rfl

/-! ## Integers in text -/

/-- `char::to_digit`. -/
def toDigit (radix : ℕ) (c : Char) : Option ℕ := (Hex.digit c).filter (· < radix)

/-- `acc * radix + digit`, as long as it fits. -/
def pushDigit (w : PointerWidth) (radix acc : ℕ) (c : Char) : Option ℕ :=
  (toDigit radix c).bind fun d =>
    if acc * radix ≤ w.usizeMax ∧ acc * radix + d ≤ w.usizeMax then some (acc * radix + d) else none

/-- `usize::from_str_radix`: one `+` may stand before the digits. -/
def fromStrRadix (w : PointerWidth) (radix : ℕ) (text : Host) : Option ℕ :=
  if text = [] ∨ text = ['+'] ∨ text = ['-'] then none
  else
    let digits := if text.head? = some '+' then text.tail else text
    digits.foldlM (pushDigit w radix) 0

/-- The number that a text of hexadecimal digits stands for. -/
def hexValue (digits : Host) : ℕ := digits.foldl (fun acc c => acc * 16 + (Hex.digit c).getD 0) 0

/-- Digits behind digits only make the number larger. -/
theorem le_foldl_digits (digits : Host) (acc : ℕ) :
    acc ≤ digits.foldl (fun acc c => acc * 16 + (Hex.digit c).getD 0) acc := by
  induction digits generalizing acc with
  | nil => exact Nat.le_refl _
  | cons c digits ih =>
    rw [List.foldl_cons]
    exact Nat.le_trans (by omega) (ih _)

theorem digit_lt {c : Char} {d : ℕ} (h : Hex.digit c = some d) : d < 16 := by
  simp only [Hex.digit, Char.le_def, UInt32.le_iff_toNat_le, Char.reduceVal,
    UInt32.reduceToNat] at h
  split_ifs at h with hnum hlower hupper
  all_goals
    cases h
    simp only [Char.toNat]
    omega

/-- Digits in any letter case and with leading zeros are read as the number they stand for. -/
theorem fromStrRadix_hex {w : PointerWidth} {digits : Host} (hne : digits ≠ [])
    (hdigits : ∀ c ∈ digits, (Hex.digit c).isSome) (hfits : hexValue digits ≤ w.usizeMax) :
    fromStrRadix w 16 digits = some (hexValue digits) := by
  -- the digits behind an accumulator
  have hfold : ∀ (digits : Host) (acc : ℕ), (∀ c ∈ digits, (Hex.digit c).isSome) →
      digits.foldl (fun acc c => acc * 16 + (Hex.digit c).getD 0) acc ≤ w.usizeMax →
      digits.foldlM (pushDigit w 16) acc =
        some (digits.foldl (fun acc c => acc * 16 + (Hex.digit c).getD 0) acc) := by
    intro digits
    induction digits with
    | nil => intro acc _ _; rfl
    | cons c digits ih =>
      intro acc hall hle
      obtain ⟨hc, hall⟩ := List.forall_mem_cons.mp hall
      obtain ⟨d, hd⟩ := Option.isSome_iff_exists.mp hc
      rw [List.foldl_cons, hd, Option.getD_some] at hle ⊢
      have hstep : acc * 16 + d ≤ w.usizeMax := Nat.le_trans (le_foldl_digits digits _) hle
      have hpush : pushDigit w 16 acc c = some (acc * 16 + d) := by
        have hto : toDigit 16 c = some d := by simp [toDigit, hd, digit_lt hd]
        rw [pushDigit, hto, Option.bind_some, if_pos ⟨by omega, hstep⟩]
      rw [List.foldlM_cons, hpush]
      exact ih _ hall hle
  obtain ⟨c, rest, rfl⟩ := List.exists_cons_of_ne_nil hne
  have hc := hdigits c List.mem_cons_self
  have hplus : c ≠ '+' := by rintro rfl; exact absurd hc (by decide)
  have hminus : c ≠ '-' := by rintro rfl; exact absurd hc (by decide)
  have hsign : ¬ (c :: rest = [] ∨ c :: rest = ['+'] ∨ c :: rest = ['-']) := by
    simp [hplus, hminus]
  rw [fromStrRadix, if_neg hsign, List.head?_cons]
  simp only [Option.some.injEq, hplus, if_false]
  exact hfold _ 0 hdigits hfits

/-! ## Lines -/

/-- The two bytes at the end of a line. -/
def crlf : Bytes := [13, 10]

/-- A piece without a line end. -/
def CrlfFree (line : Bytes) : Prop := ¬ crlf <:+: line

instance (line : Bytes) : Decidable (CrlfFree line) :=
  inferInstanceAs (Decidable (¬ crlf <:+: line))

/-- `body.windows(2).position(|w| w == b"\r\n")`. -/
def crlfPosition (bytes : Bytes) : Option ℕ := Text.position crlf bytes

/-- A line without a line end stands before the first one. -/
theorem crlfFree_position {line : Bytes} (h : CrlfFree line) (rest : Bytes) :
    crlfPosition (line ++ crlf ++ rest) = some line.length := by
  have hself : Text.position crlf (line ++ crlf) = some line.length := by
    induction line with
    | nil => rfl
    | cons b line ih =>
      have htail : CrlfFree line := fun hin => h (hin.trans (List.suffix_cons b line).isInfix)
      obtain ⟨a, c, hsplit, hlen⟩ := Text.position_eq_some_iff.mp (ih htail)
      refine Text.position_eq_some_iff.mpr ⟨b :: a, c, ?_, by rw [List.length_cons, hlen]; rfl⟩
      have hno : ¬ crlf.isPrefixOf (b :: (line ++ crlf)) = true := by
        intro hpre
        have hpfx : crlf <+: b :: (line ++ crlf) := List.isPrefixOf_iff_prefix.mp hpre
        cases line with
        | nil =>
          obtain ⟨_, hten⟩ := hpfx
          simp [crlf] at hten
        | cons b' line =>
          refine h ((List.prefix_of_prefix_length_le hpfx
            (⟨crlf, by simp⟩ : b :: b' :: line <+: b :: ((b' :: line) ++ crlf)) ?_).isInfix)
          simp [crlf]
      rw [List.cons_append, Text.splitFirst, if_neg hno, hsplit]
      rfl
  exact Text.position_append hself rest

/-- What stands before the first line end has none. -/
theorem crlfFree_take {bytes : Bytes} {p : ℕ} (h : crlfPosition bytes = some p) :
    CrlfFree (bytes.take p) := by
  intro hin
  obtain ⟨q, hq⟩ := Option.ne_none_iff_exists'.mp
    fun hnone => (Text.position_eq_none_iff.mp hnone) hin
  have hle := Text.position_le hq
  have hlong := Text.position_append hq (bytes.drop p)
  rw [List.take_append_drop] at hlong
  have hqp : q = p := Option.some.inj (hlong.symm.trans h)
  rw [List.length_take] at hle
  simp [crlf] at hle
  omega

/-! ## The size line of a chunk -/

/-- What `read_chunked_body` reads on a size line: the number before the first `;`. -/
def chunkSize (w : PointerWidth) (line : Bytes) : Except Halt ℕ :=
  match fromUtf8 line with
  | none => .error (.failed "chunk size is not valid UTF-8")
  | some sizeLine =>
    let sizeHex := Text.trim (((Text.splitFirst [';'] sizeLine).map Prod.fst).getD sizeLine)
    match fromStrRadix w 16 sizeHex with
    | none => .error (.failed "invalid chunk size")
    | some size => .ok size

/-! ## Response headers -/

/-- `httparse::Header`. -/
structure HttpHeader where
  name : Host
  value : Bytes
  deriving DecidableEq

/-- What the reader takes from a parsed `httparse::Response`: whether the status is `Complete`, the
code of the status line and the headers. -/
structure HttpResponse where
  complete : Bool
  code : Option ℕ
  headers : List HttpHeader

/-- `httparse::Response::parse` with room for a number of headers. -/
abbrev Httparse := ℕ → Bytes → Except String HttpResponse

/-- `header_end`. -/
def headerEnd (buf : Bytes) : Option ℕ := (Text.position (crlf ++ crlf) buf).map (· + 4)

/-- `http_header_count`. -/
def httpHeaderCount (headers : Bytes) : ℕ :=
  (headers.tails.filter fun rest => crlf.isPrefixOf rest).length

/-- `str::eq_ignore_ascii_case`. -/
def eqIgnoreAsciiCase (a b : Host) : Bool := a.map Char.toLower == b.map Char.toLower

/-- `is_chunked`. -/
def isChunked (headers : List HttpHeader) : Bool :=
  ((headers.filter fun header => eqIgnoreAsciiCase header.name "transfer-encoding".toList).filterMap
    fun header => fromUtf8 header.value).any fun value =>
      (value.splitOn ',').any fun part => eqIgnoreAsciiCase (Text.trim part) "chunked".toList

/-- A pass of the loop in `content_length`. -/
def contentLengthTurn (w : PointerWidth) (length : Option ℕ) (header : HttpHeader) :
    Except Halt (Option ℕ) :=
  match fromUtf8 header.value with
  | none => .error (.failed "Content-Length is not valid UTF-8")
  | some text =>
    match fromStrRadix w 10 (Text.trim text) with
    | none => .error (.failed "invalid Content-Length")
    | some value =>
      if length.any (· ≠ value) then .error (.failed "conflicting Content-Length headers")
      else .ok (some value)

/-- `content_length`: all the headers of that name must agree. -/
def contentLength (w : PointerWidth) (headers : List HttpHeader) : Except Halt (Option ℕ) :=
  (headers.filter fun header => eqIgnoreAsciiCase header.name "content-length".toList).foldlM
    (contentLengthTurn w) none

end TgWsProxy
