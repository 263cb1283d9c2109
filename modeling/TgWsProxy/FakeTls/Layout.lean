import TgWsProxy.FakeTls.Inbound
import TgWsProxy.Lib.Slices

set_option relaxedAutoImplicit false
set_option autoImplicit false

/-!
# The layout of a ClientHello body

Behind the version and the `random` field, a ClientHello body is four pieces, each behind its own
length: session id, cipher suites, compression methods and extensions. The parser moves a cursor
over them; it accepts exactly the bodies that are laid out so.

## Main definitions

* `TgWsProxy.HelloParts` — the pieces of a body, none too long for its length field.
* `TgWsProxy.HelloParts.bytes` — the body that they make up.
* `TgWsProxy.helloHead` — what stands before the `random` field of a hello.
* `TgWsProxy.zeroedRandom` — a hello as it is signed.

## Main results

* `TgWsProxy.parseHelloBody_bytes` — the parser finds the pieces of a body.
* `TgWsProxy.parts_of_parseHelloBody` — a body that is accepted has pieces.
* `TgWsProxy.parseFaketlsClientHello_eq_some_iff` — which records are accepted.
-/

namespace TgWsProxy

open Slices

/-! ## Length fields -/

theorem fromBeBytes_lt (high low : UInt8) : fromBeBytes high low < 65536 := by
  have hhigh := high.toNat_lt
  have hlow := low.toNat_lt
  rw [fromBeBytes]
  omega

theorem u16At_lt (bytes : Bytes) (i : ℕ) : u16At bytes i < 65536 := fromBeBytes_lt _ _

/-- Two bytes are the number they spell. -/
theorem toBeBytes_fromBeBytes (high low : UInt8) :
    toBeBytes (fromBeBytes high low) = [high, low] := by
  have hhigh := high.toNat_lt
  have hlow := low.toNat_lt
  have hdiv : fromBeBytes high low / 256 = high.toNat := by
    rw [fromBeBytes]
    omega
  have hmod : fromBeBytes high low % 256 = low.toNat := by
    rw [fromBeBytes]
    omega
  rw [toBeBytes, hdiv, UInt8.ofNat_toNat]
  congr 2
  apply UInt8.toNat_inj.mp
  rw [UInt8.toNat_ofNat', hmod]

@[simp] theorem length_toBeBytes (n : ℕ) : (toBeBytes n).length = 2 := rfl

/-- The number at a cursor. -/
theorem u16At_of_drop {bytes rest : Bytes} {i n : ℕ} (h : bytes.drop i = toBeBytes n ++ rest)
    (hn : n < 65536) : u16At bytes i = n := by
  have hfirst : bytes.drop i = UInt8.ofNat (n / 256) :: (UInt8.ofNat n :: rest) := h
  rw [u16At, getD_of_drop hfirst, getD_of_drop (drop_step_cons hfirst), fromBeBytes_toBeBytes hn]

/-- What lies behind a cursor is a number and what lies behind that. -/
theorem drop_eq_u16At_append {bytes : Bytes} {i : ℕ} (h : i + 2 ≤ bytes.length) :
    bytes.drop i = toBeBytes (u16At bytes i) ++ bytes.drop (i + 2) := by
  rw [u16At, toBeBytes_fromBeBytes, drop_eq_getD_cons (by omega) 0,
    drop_eq_getD_cons (show i + 1 < bytes.length by omega) 0]
  rfl

/-! ## The pieces of a body -/

/-- The pieces of a ClientHello body: version and `random`, session id, cipher suites, compression
methods, extensions, and what follows them. -/
structure HelloParts where
  head : Block 34
  sessionId : Bytes
  suites : Bytes
  compression : Bytes
  extensions : Bytes
  tail : Bytes
  sessionId_lt : sessionId.length < 256
  suites_lt : suites.length < 65536
  compression_lt : compression.length < 256
  extensions_lt : extensions.length < 65536

namespace HelloParts

/-- The body: each piece behind its length. -/
def bytes (p : HelloParts) : Bytes :=
  p.head.bytes ++ (UInt8.ofNat p.sessionId.length :: (p.sessionId ++
    (toBeBytes p.suites.length ++ (p.suites ++ (UInt8.ofNat p.compression.length ::
      (p.compression ++ (toBeBytes p.extensions.length ++ (p.extensions ++ p.tail))))))))

/-- What the parser reads off the pieces. -/
def hello (p : HelloParts) (random : Bytes) : FakeTlsClientHello where
  random := random
  sessionId := p.sessionId
  cipherSuite := p.suites.take 2
  hostname := parseSniExtension p.extensions

end HelloParts

theorem toNat_ofNat_of_lt {n : ℕ} (h : n < 256) : (UInt8.ofNat n).toNat = n := by
  rw [UInt8.toNat_ofNat']
  omega

/-- **The parser finds the pieces.** -/
theorem parseHelloBody_bytes (p : HelloParts) (random : Bytes) (hsuites : 2 ≤ p.suites.length) :
    parseHelloBody random p.bytes = some (p.hello random) := by
  have hlen : p.bytes.length = 34 + 1 + p.sessionId.length + 2 + p.suites.length + 1 +
      p.compression.length + 2 + p.extensions.length + p.tail.length := by
    simp only [HelloParts.bytes, List.length_append, List.length_cons, Block.length_bytes,
      length_toBeBytes]
    omega
  -- the cursor, piece by piece
  have h₀ : p.bytes.drop 34 = _ := drop_step (i := 0) rfl p.head.length_bytes
  have h₁ := drop_step_cons h₀
  have h₂ := drop_step h₁ rfl
  have h₃ := drop_step h₂ (length_toBeBytes _)
  have h₄ := drop_step h₃ rfl
  have h₅ := drop_step_cons h₄
  have h₆ := drop_step h₅ rfl
  have h₇ := drop_step h₆ (length_toBeBytes _)
  have hsid : (p.bytes.getD 34 0).toNat = p.sessionId.length := by
    rw [getD_of_drop h₀, toNat_ofNat_of_lt p.sessionId_lt]
  have hcomp : p.bytes[34 + 1 + p.sessionId.length + 2 + p.suites.length]? =
      some (UInt8.ofNat p.compression.length) := by
    rw [← List.head?_drop, h₄]
    rfl
  have hsuite : ((p.bytes.drop (34 + 1 + p.sessionId.length + 2)).take 2) =
      p.suites.take 2 := by
    rw [h₃, List.take_append_of_le_length hsuites]
  rw [parseHelloBody, if_neg (by omega)]
  simp only [hsid]
  rw [if_neg (by omega)]
  simp only [u16At_of_drop h₂ p.suites_lt]
  rw [if_neg (by omega), hcomp, Option.bind_eq_bind, Option.bind_some,
    toNat_ofNat_of_lt p.compression_lt, u16At_of_drop h₆ p.extensions_lt]
  rw [if_neg (by omega), if_neg (by omega), take_of_drop h₇ rfl, hsuite, Nat.add_sub_cancel_left,
    take_of_drop h₁ rfl]
  rfl

/-- **What is accepted has pieces.** -/
theorem parts_of_parseHelloBody {random body : Bytes} {hello : FakeTlsClientHello}
    (h : parseHelloBody random body = some hello) :
    ∃ p : HelloParts, body = p.bytes ∧ 2 ≤ p.suites.length ∧ hello = p.hello random := by
  rw [parseHelloBody] at h
  dsimp only at h
  set sid := (body.getD 34 0).toNat with hsid
  split_ifs at h with hshort hsession hsuites
  set n := u16At body (35 + sid) with hn
  obtain ⟨comp, hcomp, h⟩ := Option.bind_eq_some_iff.mp h
  set c := comp.toNat with hc
  split_ifs at h with hcompression hextensions
  set e := u16At body (35 + sid + 2 + n + 1 + c) with he
  cases h
  have hcompGet : body.getD (35 + sid + 2 + n) 0 = comp := by
    rw [List.getD_eq_getElem?_getD, hcomp]
    rfl
  have hsidByte : UInt8.ofNat sid = body.getD 34 0 := UInt8.ofNat_toNat
  have hcompByte : UInt8.ofNat c = comp := UInt8.ofNat_toNat
  have hlenSession : ((body.drop 35).take sid).length = sid := by simp; omega
  have hlenSuites : ((body.drop (35 + sid + 2)).take n).length = n := by simp; omega
  have hlenComp : ((body.drop (35 + sid + 2 + n + 1)).take c).length = c := by simp; omega
  have hlenExt : ((body.drop (35 + sid + 2 + n + 1 + c + 2)).take e).length = e := by simp; omega
  refine ⟨{
    head := ⟨body.take 34, by simp; omega⟩
    sessionId := (body.drop 35).take sid
    suites := (body.drop (35 + sid + 2)).take n
    compression := (body.drop (35 + sid + 2 + n + 1)).take c
    extensions := (body.drop (35 + sid + 2 + n + 1 + c + 2)).take e
    tail := body.drop (35 + sid + 2 + n + 1 + c + 2 + e)
    sessionId_lt := by rw [hlenSession]; exact UInt8.toNat_lt _
    suites_lt := by rw [hlenSuites]; exact u16At_lt _ _
    compression_lt := by rw [hlenComp]; exact UInt8.toNat_lt _
    extensions_lt := by rw [hlenExt]; exact u16At_lt _ _ }, ?_, ?_, ?_⟩
  · -- the cursor, piece by piece
    have h₀ : body = body.take 34 ++ body.drop 34 := (List.take_append_drop 34 body).symm
    have h₁ := drop_eq_getD_cons (show 34 < body.length by omega) 0
    have h₂ := drop_eq_take_append body 35 sid
    have h₃ := drop_eq_u16At_append (show 35 + sid + 2 ≤ body.length by omega)
    have h₄ := drop_eq_take_append body (35 + sid + 2) n
    have h₅ := drop_eq_getD_cons (show 35 + sid + 2 + n < body.length by omega) 0
    have h₆ := drop_eq_take_append body (35 + sid + 2 + n + 1) c
    have h₇ := drop_eq_u16At_append (show 35 + sid + 2 + n + 1 + c + 2 ≤ body.length by omega)
    have h₈ := drop_eq_take_append body (35 + sid + 2 + n + 1 + c + 2) e
    rw [hcompGet] at h₅
    rw [HelloParts.bytes]
    dsimp only
    rw [hlenSession, hlenSuites, hlenComp, hlenExt, hsidByte, hcompByte, ← h₈, ← h₇, ← h₆, ← h₅,
      ← h₄, ← h₃, ← h₂, ← h₁, ← h₀]
  · simp only [hlenSuites]
    omega
  · rw [HelloParts.hello]
    dsimp only
    rw [List.take_take, min_eq_left (by omega), Nat.add_sub_cancel_left]

/-! ## The record -/

/-- A big-endian 24-bit number in a slice. -/
def u24At (bytes : Bytes) (i : ℕ) : ℕ := 65536 * (bytes.getD i 0).toNat + u16At bytes (i + 1)

/-- The 24-bit number at a cursor. -/
theorem u24At_of_drop {bytes rest : Bytes} {i n : ℕ}
    (h : bytes.drop i =
      [UInt8.ofNat (n / 65536), UInt8.ofNat (n / 256), UInt8.ofNat n] ++ rest)
    (hn : n < 16777216) : u24At bytes i = n := by
  have hfirst : bytes.drop i = UInt8.ofNat (n / 65536) :: (toBeBytes n ++ rest) := h
  have hlow : toBeBytes n = toBeBytes (n % 65536) := by
    rw [toBeBytes, toBeBytes]
    congr 1
    · apply UInt8.toNat_inj.mp
      rw [UInt8.toNat_ofNat', UInt8.toNat_ofNat']
      omega
    · congr 1
      apply UInt8.toNat_inj.mp
      rw [UInt8.toNat_ofNat', UInt8.toNat_ofNat']
      omega
  have hbehind := drop_step_cons hfirst
  rw [hlow] at hbehind
  rw [u24At, getD_of_drop hfirst, u16At_of_drop hbehind (by omega), toNat_ofNat_of_lt (by omega)]
  omega

/-- A record with its `random` field zeroed. -/
def zeroedRandom (record : Bytes) : Bytes :=
  record.take 11 ++ List.replicate 32 0 ++ record.drop 43

/-- What stands before the `random` field in the record of a hello with a body of `n` bytes: a
ClientHello and a ServerHello differ in the version and the type. -/
def helloHead (minor kind : UInt8) (n : ℕ) : Bytes :=
  [tlsRecordHandshake, 0x03, minor] ++ (toBeBytes (4 + n) ++ ([kind] ++
    ([UInt8.ofNat (n / 65536), UInt8.ofNat (n / 256), UInt8.ofNat n] ++ [0x03, 0x03])))

section Hello

variable (minor kind : UInt8) {n : ℕ} (random : Block 32) (tail : Bytes)

theorem length_helloHead : (helloHead minor kind n).length = 11 := rfl

/-- The `random` field. -/
theorem random_helloHead :
    ((helloHead minor kind n ++ random.bytes ++ tail).drop 11).take 32 = random.bytes := by
  rw [List.append_assoc, List.drop_left' (length_helloHead minor kind),
    List.take_left' random.length_bytes]

theorem zeroedRandom_helloHead : zeroedRandom (helloHead minor kind n ++ random.bytes ++ tail) =
    helloHead minor kind n ++ List.replicate 32 0 ++ tail := by
  have hhead := length_helloHead minor kind (n := n)
  rw [zeroedRandom, List.append_assoc (helloHead _ _ _), List.take_left' hhead,
    ← List.append_assoc, List.drop_left' (by simp [hhead])]

/-- The length of the record. -/
theorem u16At_helloHead (hn : 4 + n < 65536) :
    u16At (helloHead minor kind n ++ random.bytes ++ tail) 3 = 4 + n := by
  have hfield : (helloHead minor kind n ++ random.bytes ++ tail).drop 3 =
      toBeBytes (4 + n) ++ _ := rfl
  exact u16At_of_drop hfield hn

/-- The length of the handshake. -/
theorem u24At_helloHead (hn : n < 16777216) :
    u24At (helloHead minor kind n ++ random.bytes ++ tail) 6 = n := by
  have hfield : (helloHead minor kind n ++ random.bytes ++ tail).drop 6 =
      [UInt8.ofNat (n / 65536), UInt8.ofNat (n / 256), UInt8.ofNat n] ++ _ := rfl
  exact u24At_of_drop hfield hn

end Hello

/-- Two lists of bytes agree where their XOR is zero. -/
theorem any_zipWith_xor {a b : Bytes} (h : a.length = b.length) :
    (List.zipWith (· ^^^ ·) a b).any (· != 0) = false ↔ a = b := by
  induction a generalizing b with
  | nil =>
    cases b with
    | nil => simp
    | cons y b => simp at h
  | cons x a ih =>
    cases b with
    | nil => simp at h
    | cons y b =>
      rw [List.zipWith_cons_cons, List.any_cons, Bool.or_eq_false_iff, ih (by simpa using h),
        List.cons_eq_cons, bne_eq_false_iff_eq, UInt8.xor_eq_zero_iff]

/-- The digest test of the parser. -/
theorem digest_matches (record : Bytes) (digest : Block 32) (hlen : 43 ≤ record.length) :
    ((List.zipWith (· ^^^ ·) digest.bytes ((record.drop 11).take 32)).take 28).any (· != 0) =
        false ↔
      (record.drop 11).take 28 = digest.bytes.take 28 := by
  rw [List.take_zipWith, any_zipWith_xor (by simp; omega), List.take_take, min_eq_left (by omega)]
  exact eq_comm

/-- **What a record has to be for its ClientHello to be accepted.** The two length fields match the
record, the first 28 bytes of the `random` field carry the digest, and the body is accepted. -/
theorem parseFaketlsClientHello_eq_some_iff (hmac : Hmac) (record secret : Bytes)
    (hello : FakeTlsClientHello) :
    parseFaketlsClientHello hmac record secret = some hello ↔
      47 ≤ record.length ∧ record.getD 0 0 = tlsRecordHandshake ∧
      record.length = 5 + u16At record 3 ∧ record.getD 5 0 = tlsHandshakeClientHello ∧
      record.length = 9 + u24At record 6 ∧
      (record.drop 11).take 28 = (hmac secret (zeroedRandom record)).bytes.take 28 ∧
      parseHelloBody ((record.drop 11).take 32) (record.drop 9) = some hello := by
  have hget : ∀ i, (record.drop 5).getD i 0 = record.getD (5 + i) 0 := by
    intro i
    rw [List.getD_eq_getElem?_getD, List.getD_eq_getElem?_getD, List.getElem?_drop]
  have hhandshake : 65536 * ((record.drop 5).getD 1 0).toNat + u16At (record.drop 5) 2 =
      u24At record 6 := by
    simp only [u24At, u16At, hget]
  rw [parseFaketlsClientHello]
  dsimp only
  rw [hhandshake, hget 0, List.length_drop, List.drop_drop]
  simp only [Option.ite_none_left_eq_some, Bool.not_eq_true, not_or, not_not, not_lt]
  have hdigest : 47 ≤ record.length → _ := fun hlen =>
    digest_matches record (hmac secret (zeroedRandom record)) (by omega)
  constructor
  · rintro ⟨hlen, htype, hrecord, ⟨-, hkind⟩, hlength, hmatch, hbody⟩
    have hlen : 47 ≤ record.length := hlen
    exact ⟨hlen, htype, hrecord, hkind, by omega, (hdigest hlen).mp hmatch, hbody⟩
  · rintro ⟨hlen, htype, hrecord, hkind, hlength, hmatch, hbody⟩
    exact ⟨hlen, htype, hrecord, ⟨by omega, hkind⟩, by omega, (hdigest hlen).mpr hmatch, hbody⟩

end TgWsProxy
