import TgWsProxy.Crypto.Basic

set_option relaxedAutoImplicit false
set_option autoImplicit false

/-!
# AES-256-CTR and SHA-256

The primitives that the crate takes from its dependencies, written out: `Ctr128BE<Aes256>`,
`Sha256` and `Hmac<Sha256>`. Everything about the proxy is proved for arbitrary `Primitives`; this module shows
that the real ones are an instance.

## Main definitions

* `TgWsProxy.Reference.aesBlock` — AES-256 on one block.
* `TgWsProxy.Reference.keystreamByte` — counter mode with a 128-bit big-endian counter.
* `TgWsProxy.Reference.sha256`, `hmacSha256` — SHA-256 of a byte string, and HMAC over it.
* `TgWsProxy.Reference.primitives` — the two of them with the growth policy of `Vec<u8>`.
-/

namespace TgWsProxy.Reference

/-! ## AES-256 -/

/-- Multiplication by `x` in the field of 256 elements. -/
def xtime (a : UInt8) : UInt8 := (a <<< 1) ^^^ (if a &&& 0x80 = 0 then 0 else 0x1b)

/-- Multiplication in the field, over the eight bits of the second factor. -/
def gmul (a b : UInt8) : UInt8 :=
  ((List.range 8).foldl (fun (acc : UInt8 × UInt8) i =>
    (if (b >>> UInt8.ofNat i) &&& 1 = 0 then acc.1 else acc.1 ^^^ acc.2, xtime acc.2)) (0, a)).1

/-- The inverse `a ^ 254`, and `0` for `0`. -/
def ginv (a : UInt8) : UInt8 :=
  ((List.range 7).foldl (fun (acc : UInt8 × UInt8) _ =>
    (gmul acc.1 (gmul acc.2 acc.2), gmul acc.2 acc.2)) (1, a)).1

def rotl8 (a : UInt8) (k : UInt8) : UInt8 := (a <<< k) ||| (a >>> (8 - k))

def subByte (a : UInt8) : UInt8 :=
  let b := ginv a
  b ^^^ rotl8 b 1 ^^^ rotl8 b 2 ^^^ rotl8 b 3 ^^^ rotl8 b 4 ^^^ 0x63

def xorBytes (a b : Bytes) : Bytes := List.zipWith (· ^^^ ·) a b

/-- The round constant of the `i`-th key block. -/
def rcon (i : ℕ) : Bytes := [(List.range (i - 1)).foldl (fun a _ => xtime a) 1, 0, 0, 0]

/-- One more word of the key schedule, from the words so far. -/
def nextWord (ws : List Bytes) : Bytes :=
  let i := ws.length
  let prev := ws.getD (i - 1) []
  let mixed :=
    if i % 8 = 0 then xorBytes ((prev.rotateLeft 1).map subByte) (rcon (i / 8))
    else if i % 8 = 4 then prev.map subByte
    else prev
  xorBytes (ws.getD (i - 8) []) mixed

/-- The fifteen round keys of a 256-bit key. -/
def roundKeys (key : Block 32) : List Bytes :=
  let first := (List.range 8).map fun i => (key.bytes.drop (4 * i)).take 4
  let ws := (List.range 52).foldl (fun ws _ => ws ++ [nextWord ws]) first
  (List.range 15).map fun r => ((ws.drop (4 * r)).take 4).flatten

/-- Byte `r + 4 * c` moves from column `c + r`. -/
def shiftRows (s : Bytes) : Bytes :=
  (List.range 16).map fun i => s.getD ((i + 4 * (i % 4)) % 16) 0

def mixColumn : Bytes → Bytes
  | [a, b, c, d] =>
    [gmul a 2 ^^^ gmul b 3 ^^^ c ^^^ d, a ^^^ gmul b 2 ^^^ gmul c 3 ^^^ d,
      a ^^^ b ^^^ gmul c 2 ^^^ gmul d 3, gmul a 3 ^^^ b ^^^ c ^^^ gmul d 2]
  | other => other

def mixColumns (s : Bytes) : Bytes :=
  ((List.range 4).map fun c => mixColumn ((s.drop (4 * c)).take 4)).flatten

/-- AES-256 on one block. -/
def aesBlock (key : Block 32) (input : Bytes) : Bytes :=
  let rk := roundKeys key
  let s := (List.range 13).foldl (fun s r =>
    xorBytes (mixColumns (shiftRows (s.map subByte))) (rk.getD (r + 1) [])) (xorBytes input
      (rk.getD 0 []))
  xorBytes (shiftRows (s.map subByte)) (rk.getD 14 [])

/-- The big-endian bytes of a number, `k` of them. -/
def beBytes (k n : ℕ) : Bytes := (List.range k).map fun i => UInt8.ofNat (n >>> (8 * (k - 1 - i)))

/-- The number behind big-endian bytes. -/
def beNat (bytes : Bytes) : ℕ := bytes.foldl (fun n b => 256 * n + b.toNat) 0

/-- Byte `pos` of the CTR keystream: the IV is the first counter block. -/
def keystreamByte (key : Block 32) (iv : Block 16) (pos : ℕ) : UInt8 :=
  (aesBlock key (beBytes 16 (beNat iv.bytes + pos / 16))).getD (pos % 16) 0

/-! ## SHA-256 -/

/-- The eight chaining words. -/
structure ShaState where
  a : UInt32
  b : UInt32
  c : UInt32
  d : UInt32
  e : UInt32
  f : UInt32
  g : UInt32
  h : UInt32

def shaInit : ShaState :=
  ⟨0x6a09e667, 0xbb67ae85, 0x3c6ef372, 0xa54ff53a, 0x510e527f, 0x9b05688c, 0x1f83d9ab,
    0x5be0cd19⟩

def shaRoundConstants : List UInt32 :=
  [0x428a2f98, 0x71374491, 0xb5c0fbcf, 0xe9b5dba5, 0x3956c25b, 0x59f111f1, 0x923f82a4,
   0xab1c5ed5, 0xd807aa98, 0x12835b01, 0x243185be, 0x550c7dc3, 0x72be5d74, 0x80deb1fe,
   0x9bdc06a7, 0xc19bf174, 0xe49b69c1, 0xefbe4786, 0x0fc19dc6, 0x240ca1cc, 0x2de92c6f,
   0x4a7484aa, 0x5cb0a9dc, 0x76f988da, 0x983e5152, 0xa831c66d, 0xb00327c8, 0xbf597fc7,
   0xc6e00bf3, 0xd5a79147, 0x06ca6351, 0x14292967, 0x27b70a85, 0x2e1b2138, 0x4d2c6dfc,
   0x53380d13, 0x650a7354, 0x766a0abb, 0x81c2c92e, 0x92722c85, 0xa2bfe8a1, 0xa81a664b,
   0xc24b8b70, 0xc76c51a3, 0xd192e819, 0xd6990624, 0xf40e3585, 0x106aa070, 0x19a4c116,
   0x1e376c08, 0x2748774c, 0x34b0bcb5, 0x391c0cb3, 0x4ed8aa4a, 0x5b9cca4f, 0x682e6ff3,
   0x748f82ee, 0x78a5636f, 0x84c87814, 0x8cc70208, 0x90befffa, 0xa4506ceb, 0xbef9a3f7,
   0xc67178f2]

def rotr32 (x k : UInt32) : UInt32 := (x >>> k) ||| (x <<< (32 - k))

/-- One more word of the message schedule. -/
def scheduleWord (w : List UInt32) : UInt32 :=
  let at' := fun k => w.getD (w.length - k) 0
  let s0 := rotr32 (at' 15) 7 ^^^ rotr32 (at' 15) 18 ^^^ (at' 15 >>> 3)
  let s1 := rotr32 (at' 2) 17 ^^^ rotr32 (at' 2) 19 ^^^ (at' 2 >>> 10)
  at' 16 + s0 + at' 7 + s1

def shaRound (s : ShaState) (kw : UInt32 × UInt32) : ShaState :=
  let s1 := rotr32 s.e 6 ^^^ rotr32 s.e 11 ^^^ rotr32 s.e 25
  let ch := (s.e &&& s.f) ^^^ (~~~s.e &&& s.g)
  let t1 := s.h + s1 + ch + kw.1 + kw.2
  let s0 := rotr32 s.a 2 ^^^ rotr32 s.a 13 ^^^ rotr32 s.a 22
  let maj := (s.a &&& s.b) ^^^ (s.a &&& s.c) ^^^ (s.b &&& s.c)
  ⟨t1 + s0 + maj, s.a, s.b, s.c, s.d + t1, s.e, s.f, s.g⟩

/-- Compression of one 64-byte block. -/
def compress (s : ShaState) (block : Bytes) : ShaState :=
  let first := (List.range 16).map fun i => UInt32.ofNat (beNat ((block.drop (4 * i)).take 4))
  let w := (List.range 48).foldl (fun w _ => w ++ [scheduleWord w]) first
  let t := (shaRoundConstants.zip w).foldl shaRound s
  ⟨s.a + t.a, s.b + t.b, s.c + t.c, s.d + t.d, s.e + t.e, s.f + t.f, s.g + t.g, s.h + t.h⟩

/-- The message with its padding: `0x80`, zeros, and the bit length in eight bytes. -/
def padMessage (msg : Bytes) : Bytes :=
  msg ++ [0x80] ++ List.replicate ((119 - msg.length % 64) % 64) 0 ++ beBytes 8 (8 * msg.length)

def ShaState.digest (s : ShaState) : Bytes :=
  [s.a, s.b, s.c, s.d, s.e, s.f, s.g, s.h].flatMap fun w => beBytes 4 w.toNat

@[simp] theorem ShaState.length_digest (s : ShaState) : s.digest.length = 32 := by
  simp [ShaState.digest, beBytes]

/-- SHA-256. -/
def sha256 (msg : Bytes) : Block 32 :=
  let padded := padMessage msg
  let s := (List.range (padded.length / 64)).foldl (fun s i =>
    compress s ((padded.drop (64 * i)).take 64)) shaInit
  ⟨s.digest, s.length_digest⟩

/-- HMAC-SHA256: a key that does not fill a block is padded, a longer one is hashed first. -/
def hmacSha256 (key msg : Bytes) : Block 32 :=
  let short := if key.length > 64 then (sha256 key).bytes else key
  let padded := short ++ List.replicate (64 - short.length) 0
  sha256 (padded.map (· ^^^ 0x5c) ++ (sha256 (padded.map (· ^^^ 0x36) ++ msg)).bytes)

/-! ## The primitives -/

/-- What the proxy is built with; a `Vec<u8>` doubles, to eight bytes at least. -/
def primitives : Primitives where
  keystream := keystreamByte
  sha256 := sha256
  vecGrow cap len := max 8 (max (2 * cap) len)

/-! ## Sample values -/

/-- A 16-byte secret. -/
def sampleSecret : Bytes := (List.range 16).map fun i => UInt8.ofNat (0xa0 + i)

/-- A draw that is not rejected: the bytes `1, 2, …, 64`. -/
def sampleDraw : Block 64 := ⟨(List.range 64).map fun i => UInt8.ofNat (i + 1), by simp⟩

/-- A draw that is rejected, for its first byte. -/
def reservedDraw : Block 64 := ⟨List.replicate 64 0xef, by simp⟩

end TgWsProxy.Reference
