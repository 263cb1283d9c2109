import Mathlib.Data.List.Basic
import Mathlib.Data.List.TakeDrop
import TgWsProxy.Lib.Keystream

set_option relaxedAutoImplicit false
set_option autoImplicit false

/-!
# The obfuscation layer of `crypto.rs`

The 64-byte handshakes, their key derivations and the four ciphers of a proxied connection.
A client handshake carries a prekey in bytes `8..40` and an IV in bytes `40..56`; under the key
`SHA-256(prekey ‖ secret)` its bytes `56..60` decrypt to a protocol tag and `60..62` to a signed
DC index. The relay init sent to Telegram has the same layout under its raw key bytes.

## Main definitions

* `TgWsProxy.Primitives` — what the crate takes from outside: the AES-256-CTR keystream, SHA-256
  and the growth policy of `Vec`.
* `TgWsProxy.AesCtr256`, `applyKeystream` — a cipher and the position it has reached.
* `TgWsProxy.parseHandshake`, `generateRelayInit`, `generateClientHandshake`,
  `buildConnectionCiphers` — the functions of `crypto.rs`.

## Design

Rust's `[u8; n]` is `Block n`, which carries its length, so `make_cipher` needs no `expect`.
`rand::rng()` is an explicit list of draws: a generator reads draws until one is not rejected.
-/

namespace TgWsProxy

open Keystream

/-- A byte string: `&[u8]` or `Vec<u8>`. -/
abbrev Bytes := List UInt8

/-- A byte array `[u8; n]`. -/
structure Block (n : ℕ) where
  bytes : Bytes
  length_bytes : bytes.length = n
  deriving DecidableEq

attribute [simp] Block.length_bytes

@[ext] theorem Block.ext {n : ℕ} {a b : Block n} (h : a.bytes = b.bytes) : a = b := by
  cases a; cases b; cases h; rfl

/-- The slice `a[i .. i + k]`. -/
def Block.slice {n : ℕ} (a : Block n) (i k : ℕ) (h : i + k ≤ n) : Block k :=
  ⟨(a.bytes.drop i).take k, by simp; omega⟩

/-- The bytes in reverse order (`iter().rev().copied().collect()`). -/
def Block.reversed {n : ℕ} (a : Block n) : Block n := ⟨a.bytes.reverse, by simp⟩

@[simp] theorem Block.bytes_slice {n : ℕ} (a : Block n) (i k : ℕ) (h : i + k ≤ n) :
    (a.slice i k h).bytes = (a.bytes.drop i).take k := rfl

@[simp] theorem Block.bytes_reversed {n : ℕ} (a : Block n) :
    a.reversed.bytes = a.bytes.reverse := rfl

/-- The code from outside the crate: byte `pos` of the AES-256-CTR keystream under a key and an
IV, SHA-256, and the capacity a `Vec` of capacity `cap` has after growing to hold `len` bytes. -/
structure Primitives where
  keystream : Block 32 → Block 16 → ℕ → UInt8
  sha256 : Bytes → Block 32
  vecGrow : ℕ → ℕ → ℕ

/-! ## Constants -/

def handshakeLen : ℕ := 64
/-- Random prefix bytes before the prekey. -/
def skipLen : ℕ := 8
def prekeyLen : ℕ := 32
def ivLen : ℕ := 16
def protoTagPos : ℕ := 56
def dcIdxPos : ℕ := 60

def protoTagAbridged : Bytes := [0xef, 0xef, 0xef, 0xef]
def protoTagIntermediate : Bytes := [0xee, 0xee, 0xee, 0xee]
def protoTagSecure : Bytes := [0xdd, 0xdd, 0xdd, 0xdd]

/-- The MTProto transports. -/
inductive ProtoTag
  | abridged
  | intermediate
  | paddedIntermediate
  deriving DecidableEq, Repr

def ProtoTag.fromBytes (b : Bytes) : Option ProtoTag :=
  if b = protoTagAbridged then some .abridged
  else if b = protoTagIntermediate then some .intermediate
  else if b = protoTagSecure then some .paddedIntermediate
  else none

def ProtoTag.asBytes : ProtoTag → Bytes
  | .abridged => protoTagAbridged
  | .intermediate => protoTagIntermediate
  | .paddedIntermediate => protoTagSecure

@[simp] theorem ProtoTag.length_asBytes (p : ProtoTag) : p.asBytes.length = 4 := by
  cases p <;> rfl

/-- A tag is read back from its own bytes. -/
theorem ProtoTag.fromBytes_asBytes (p : ProtoTag) : fromBytes p.asBytes = some p := by
  cases p <;> decide

/-! ## Signed 16-bit indices -/

/-- `i16::to_le_bytes`. -/
def i16ToLeBytes (x : Int16) : Bytes :=
  [⟨x.toBitVec.extractLsb' 0 8⟩, ⟨x.toBitVec.extractLsb' 8 8⟩]

/-- `i16::from_le_bytes([lo, hi])`. -/
def i16FromLeBytes (lo hi : UInt8) : Int16 := .ofBitVec (hi.toBitVec ++ lo.toBitVec)

@[simp] theorem length_i16ToLeBytes (x : Int16) : (i16ToLeBytes x).length = 2 := rfl

/-- The two bytes of an index give it back. -/
theorem i16FromLeBytes_extract (x : Int16) :
    i16FromLeBytes ⟨x.toBitVec.extractLsb' 0 8⟩ ⟨x.toBitVec.extractLsb' 8 8⟩ = x := by
  have h : x.toBitVec.extractLsb' 8 8 ++ x.toBitVec.extractLsb' 0 8 = x.toBitVec := by
    ext i hi
    rw [BitVec.getElem_append]
    split
    · simp [BitVec.getLsbD_eq_getElem, hi]
    · have hpos : 8 + (i - 8) = i := by omega
      simp [hpos, BitVec.getLsbD_eq_getElem, hi]
  unfold i16FromLeBytes
  simp only [h]
  rfl

/-! ## Ciphers -/

/-- An AES-256-CTR cipher: its key and IV, and the keystream position it has reached. -/
structure AesCtr256 where
  key : Block 32
  iv : Block 16
  pos : ℕ
  deriving DecidableEq

/-- `make_cipher`: a cipher at the start of its keystream. -/
def makeCipher (key : Block 32) (iv : Block 16) : AesCtr256 := ⟨key, iv, 0⟩

section

variable (P : Primitives)

/-- `data` XORed with the keystream of `c` from position `pos` on, where `c`'s own position is
not read. -/
def xorAt (c : AesCtr256) (pos : ℕ) (data : Bytes) : Bytes :=
  mask (· ^^^ ·) (P.keystream c.key c.iv) pos data

/-- `apply_keystream`: the data XORed with the keystream, and the cipher past it. -/
def AesCtr256.applyKeystream (c : AesCtr256) (data : Bytes) : Bytes × AesCtr256 :=
  (xorAt P c c.pos data, { c with pos := c.pos + data.length })

/-- Fast-forward past a 64-byte handshake by encrypting a zero buffer. -/
def AesCtr256.fastForward (c : AesCtr256) : AesCtr256 :=
  (c.applyKeystream P (List.replicate handshakeLen 0)).2

/-- The concatenated output of a cipher that is given its input in pieces. -/
def AesCtr256.feed (c : AesCtr256) : List Bytes → Bytes
  | [] => []
  | p :: ps => (c.applyKeystream P p).1 ++ (c.applyKeystream P p).2.feed ps

@[simp] theorem length_xorAt (c : AesCtr256) (pos : ℕ) (data : Bytes) :
    (xorAt P c pos data).length = data.length := length_mask _ _ _ _

@[simp] theorem xorAt_nil (c : AesCtr256) (pos : ℕ) : xorAt P c pos [] = [] := rfl

theorem xorAt_append (c : AesCtr256) (pos : ℕ) (a b : Bytes) :
    xorAt P c pos (a ++ b) = xorAt P c pos a ++ xorAt P c (pos + a.length) b :=
  mask_append _ _ _ _ _

theorem drop_xorAt (c : AesCtr256) (pos k : ℕ) (data : Bytes) :
    (xorAt P c pos data).drop k = xorAt P c (pos + k) (data.drop k) := drop_mask _ _ _ _ _

/-- Decrypting at the position of the encryption gives the data back. -/
@[simp] theorem xorAt_xorAt (c : AesCtr256) (pos : ℕ) (data : Bytes) :
    xorAt P c pos (xorAt P c pos data) = data :=
  mask_mask _ _ (fun a k => by rw [UInt8.xor_assoc, UInt8.xor_self, UInt8.xor_zero]) _ _

/-- Feeding pieces is XORing their concatenation from the cipher's position. -/
theorem AesCtr256.feed_eq_xorAt (c : AesCtr256) (ps : List Bytes) :
    c.feed P ps = xorAt P c c.pos ps.flatten := by
  induction ps generalizing c with
  | nil => rfl
  | cons p ps ih =>
    simp only [feed, ih, applyKeystream, List.flatten_cons, xorAt_append]
    rfl

/-- XORing data into the first keystream bytes obtained from a zero buffer encrypts it. -/
theorem zipWith_xor_zeros (c : AesCtr256) (data : Bytes) :
    ∀ (pos m : ℕ), data.length ≤ m →
      List.zipWith (· ^^^ ·) data (xorAt P c pos (List.replicate m 0)) = xorAt P c pos data := by
  induction data with
  | nil => intros; simp
  | cons a data ih =>
    intro pos m hm
    obtain ⟨m, rfl⟩ : ∃ m', m = m' + 1 := ⟨m - 1, by simp at hm; omega⟩
    have htail := ih (pos + 1) m (by simpa using hm)
    simp only [xorAt, List.replicate_succ, mask_cons, List.zipWith_cons_cons] at htail ⊢
    rw [htail, UInt8.zero_xor]

/-- XORing data into the keystream bytes recovered from an encrypted buffer encrypts it. -/
theorem zipWith_xor_recovered (c : AesCtr256) (data : Bytes) :
    ∀ (pos : ℕ) (buf : Bytes), data.length ≤ buf.length →
      List.zipWith (· ^^^ ·) data (List.zipWith (· ^^^ ·) (xorAt P c pos buf) buf) =
        xorAt P c pos data := by
  induction data with
  | nil => intros; simp
  | cons a data ih =>
    intro pos buf hbuf
    cases buf with
    | nil => simp at hbuf
    | cons b buf =>
      have htail := ih (pos + 1) buf (by simpa using hbuf)
      simp only [xorAt, mask_cons, List.zipWith_cons_cons] at htail ⊢
      have hks : b ^^^ P.keystream c.key c.iv pos ^^^ b = P.keystream c.key c.iv pos := by
        rw [UInt8.xor_comm, ← UInt8.xor_assoc, UInt8.xor_self, UInt8.zero_xor]
      rw [htail, hks]

end

/-! ## Handshake parsing -/

/-- A successfully parsed client handshake. -/
structure HandshakeInfo where
  /-- Telegram DC id, the absolute value of the index. -/
  dcId : ℕ
  /-- The index was negative: the client asked for a media DC. -/
  isMedia : Bool
  proto : ProtoTag
  /-- Bytes `8..56` of the handshake. -/
  prekeyAndIv : Block 48

/-- The prekey `handshake[8..40]`. -/
def prekeyOf (handshake : Block 64) : Block 32 := handshake.slice skipLen prekeyLen (by decide)

/-- The IV `handshake[40..56]`. -/
def ivOf (handshake : Block 64) : Block 16 :=
  handshake.slice (skipLen + prekeyLen) ivLen (by decide)

/-- The pair `handshake[8..56]`. -/
def prekeyAndIvOf (handshake : Block 64) : Block 48 :=
  handshake.slice skipLen (prekeyLen + ivLen) (by decide)

/-- `SHA-256(prekey ‖ secret)`, from the two `update` calls. -/
def derivedKey (P : Primitives) (prekey : Block 32) (secret : Bytes) : Block 32 :=
  P.sha256 (prekey.bytes ++ secret)

/-- `parse_handshake`: `none` when the bytes do not decrypt to a protocol tag. -/
def parseHandshake (P : Primitives) (handshake : Block 64) (secret : Bytes) :
    Option HandshakeInfo := do
  let key := derivedKey P (prekeyOf handshake) secret
  let buf := ((makeCipher key (ivOf handshake)).applyKeystream P handshake.bytes).1
  let proto ← ProtoTag.fromBytes ((buf.drop protoTagPos).take 4)
  let dcIdx := i16FromLeBytes (buf.getD dcIdxPos 0) (buf.getD (dcIdxPos + 1) 0)
  return { dcId := dcIdx.toInt.natAbs
           isMedia := decide (dcIdx.toInt < 0)
           proto := proto
           prekeyAndIv := prekeyAndIvOf handshake }

/-! ## Handshake generation -/

/-- First bytes that Telegram rejects as an obfuscation init. -/
def reservedFirstBytes : Bytes := [0xef]

/-- Reserved starts: `HEAD`, `POST`, `GET `, the two transport tags and a TLS ClientHello. -/
def reservedStarts : List Bytes :=
  [[0x48, 0x45, 0x41, 0x44], [0x50, 0x4f, 0x53, 0x54], [0x47, 0x45, 0x54, 0x20],
   [0xee, 0xee, 0xee, 0xee], [0xdd, 0xdd, 0xdd, 0xdd], [0x16, 0x03, 0x01, 0x02]]

def reservedContinue : Bytes := [0x00, 0x00, 0x00, 0x00]

/-- The three rejection tests that both generators make on a draw. -/
def rejected (rnd : Block 64) : Bool :=
  reservedFirstBytes.contains (rnd.bytes.getD 0 0) ||
    reservedStarts.any (fun s => rnd.bytes.take 4 == s) ||
    (rnd.bytes.drop 4).take 4 == reservedContinue

/-- `bytes` with the positions from `i` on overwritten by `new`. -/
def overwrite (bytes : Bytes) (i : ℕ) (new : Bytes) : Bytes :=
  bytes.take i ++ new ++ bytes.drop (i + new.length)

theorem length_overwrite (bytes : Bytes) (i : ℕ) (new : Bytes)
    (h : i + new.length ≤ bytes.length) : (overwrite bytes i new).length = bytes.length := by
  simp [overwrite]; omega

/-- The relay init built from an accepted draw `rnd` and the two padding bytes `pad`: the tail
`proto_tag ‖ dc_idx ‖ pad` is XORed with the keystream recovered from the encrypted draw. -/
def relayInitOf (P : Primitives) (proto : ProtoTag) (dcIdx : Int16) (rnd : Block 64)
    (pad : Block 2) : Block 64 :=
  let cipher := makeCipher (prekeyOf rnd) (ivOf rnd)
  let encrypted := (cipher.applyKeystream P rnd.bytes).1
  let tailPlain := proto.asBytes ++ i16ToLeBytes dcIdx ++ pad.bytes
  let ks := List.zipWith (· ^^^ ·) (encrypted.drop protoTagPos) (rnd.bytes.drop protoTagPos)
  ⟨overwrite rnd.bytes protoTagPos (List.zipWith (· ^^^ ·) tailPlain ks), by
    rw [length_overwrite] <;>
      simp [encrypted, ks, tailPlain, AesCtr256.applyKeystream, protoTagPos]⟩

/-- `generate_relay_init`: the first draw that is not rejected, embedded. -/
def generateRelayInit (P : Primitives) (proto : ProtoTag) (dcIdx : Int16)
    (draws : List (Block 64 × Block 2)) : Option (Block 64) :=
  (draws.find? fun d => !rejected d.1).map fun d => relayInitOf P proto dcIdx d.1 d.2

/-- The handshake bytes built from an accepted draw: tag and index are XORed with the keystream
of the derived key, the last two bytes stay random. -/
def clientHandshakeOf (P : Primitives) (secret : Bytes) (dcIdx : Int16) (proto : ProtoTag)
    (raw : Block 64) : Block 64 :=
  let key := derivedKey P (prekeyOf raw) secret
  let keystream :=
    ((makeCipher key (ivOf raw)).applyKeystream P (List.replicate handshakeLen 0)).1
  let tagged := overwrite raw.bytes protoTagPos
    (List.zipWith (· ^^^ ·) proto.asBytes (keystream.drop protoTagPos))
  ⟨overwrite tagged dcIdxPos (List.zipWith (· ^^^ ·) (i16ToLeBytes dcIdx)
      (keystream.drop dcIdxPos)), by
    have htag : tagged.length = 64 := by
      rw [length_overwrite] <;>
        simp [keystream, AesCtr256.applyKeystream, protoTagPos, handshakeLen]
    rw [length_overwrite] <;>
      simp [htag, keystream, AesCtr256.applyKeystream, dcIdxPos, handshakeLen]⟩

/-- `enc` of a session: keyed by the finished handshake, fast-forwarded past it. -/
def clientEnc (P : Primitives) (secret : Bytes) (handshake : Block 64) : AesCtr256 :=
  (makeCipher (derivedKey P (prekeyOf handshake) secret) (ivOf handshake)).fastForward P

/-- `dec` of a session: keyed by the reversed prekey and IV, not fast-forwarded. -/
def clientDec (P : Primitives) (secret : Bytes) (handshake : Block 64) : AesCtr256 :=
  let reversed := (prekeyAndIvOf handshake).reversed
  makeCipher (derivedKey P (reversed.slice 0 prekeyLen (by decide)) secret)
    (reversed.slice prekeyLen ivLen (by decide))

/-- `generate_client_handshake`: the handshake of the first draw that is not rejected and the
two ciphers of its session. -/
def generateClientHandshake (P : Primitives) (secret : Bytes) (dcIdx : Int16) (proto : ProtoTag)
    (draws : List (Block 64)) : Option (Block 64 × AesCtr256 × AesCtr256) :=
  (draws.find? fun raw => !rejected raw).map fun raw =>
    let handshake := clientHandshakeOf P secret dcIdx proto raw
    (handshake, clientEnc P secret handshake, clientDec P secret handshake)

/-! ## The ciphers of a connection -/

/-- The four ciphers of one proxied connection. -/
structure ConnectionCiphers where
  /-- Decrypts data arriving from the client. -/
  cltDec : AesCtr256
  /-- Encrypts data being sent to the client. -/
  cltEnc : AesCtr256
  /-- Encrypts data being forwarded to Telegram. -/
  tgEnc : AesCtr256
  /-- Decrypts data arriving from Telegram. -/
  tgDec : AesCtr256

/-- `build_connection_ciphers`. -/
def buildConnectionCiphers (P : Primitives) (prekeyAndIv : Block 48) (secret : Bytes)
    (relayInit : Block 64) : ConnectionCiphers :=
  let cltDecKey := derivedKey P (prekeyAndIv.slice 0 prekeyLen (by decide)) secret
  let cltDecIv := prekeyAndIv.slice prekeyLen ivLen (by decide)
  let reversed := prekeyAndIv.reversed
  let cltEncKey := derivedKey P (reversed.slice 0 prekeyLen (by decide)) secret
  let cltEncIv := reversed.slice prekeyLen ivLen (by decide)
  let relayPrekeyIvRev := (prekeyAndIvOf relayInit).reversed
  { cltDec := (makeCipher cltDecKey cltDecIv).fastForward P
    cltEnc := makeCipher cltEncKey cltEncIv
    tgEnc := (makeCipher (prekeyOf relayInit) (ivOf relayInit)).fastForward P
    tgDec := makeCipher (relayPrekeyIvRev.slice 0 prekeyLen (by decide))
      (relayPrekeyIvRev.slice prekeyLen ivLen (by decide)) }

/-! ## The ciphers of the two ends -/

/-- The cipher on the raw key and IV of a relay init, which Telegram decrypts with. -/
def relayCipher (relayInit : Block 64) : AesCtr256 :=
  makeCipher (prekeyOf relayInit) (ivOf relayInit)

/-- The cipher on the byte-reversed key and IV of a relay init, which Telegram encrypts with. -/
def relayReversedCipher (relayInit : Block 64) : AesCtr256 :=
  let reversed := (prekeyAndIvOf relayInit).reversed
  makeCipher (reversed.slice 0 prekeyLen (by decide)) (reversed.slice prekeyLen ivLen (by decide))

/-- The cipher on the byte-reversed prekey and IV of a handshake, which the client decrypts
with. -/
def handshakeReversedCipher (P : Primitives) (secret : Bytes) (h : Block 64) : AesCtr256 :=
  let reversed := (prekeyAndIvOf h).reversed
  makeCipher (derivedKey P (reversed.slice 0 prekeyLen (by decide)) secret)
    (reversed.slice prekeyLen ivLen (by decide))

@[simp] theorem AesCtr256.fastForward_eq (P : Primitives) (c : AesCtr256) :
    c.fastForward P = { c with pos := c.pos + 64 } := by
  simp [fastForward, applyKeystream, handshakeLen]

end TgWsProxy
