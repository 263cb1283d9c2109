import TgWsProxy.Crypto.Basic
import TgWsProxy.Crypto.Reference

set_option relaxedAutoImplicit false
set_option autoImplicit false

/-!
# The generated handshake and the parsed one agree

`generate_client_handshake` derives its keys from the random bytes before the tag is embedded;
`parse_handshake` and `build_connection_ciphers` derive them from the finished packet. Both read
only bytes `8..56`, which the embedding leaves alone, so the two derivations coincide.

## Main results

* `TgWsProxy.bytes_clientHandshakeOf` — the layout of a generated handshake: the first 56 random
  bytes, the encrypted tag and index, two random bytes.
* `TgWsProxy.parseHandshake_of_tail` — what `parse_handshake` reads off such a layout.
* `TgWsProxy.generateClientHandshake_agrees` — a generated handshake parses to what was asked
  for, avoids the reserved prefixes, and its two ciphers are the server's.
-/

namespace TgWsProxy

variable (P : Primitives)

/-! ## Prefixes and slices -/

/-- Two blocks that share their first `m` bytes share every slice below `m`. -/
theorem Block.slice_congr {n : ℕ} {a b : Block n} {m : ℕ} (h : a.bytes.take m = b.bytes.take m)
    {i k : ℕ} (hik : i + k ≤ m) (hn : i + k ≤ n) : a.slice i k hn = b.slice i k hn := by
  have hcut : ∀ l : Bytes, (l.drop i).take k = ((l.take m).drop i).take k := by
    intro l
    rw [List.drop_take, List.take_take, min_eq_left (by omega)]
  ext1
  rw [bytes_slice, bytes_slice, hcut a.bytes, hcut b.bytes, h]

/-- A slice of a slice is a slice. -/
theorem Block.slice_slice {n i k j m : ℕ} (a : Block n) (h : i + k ≤ n) (h' : j + m ≤ k) :
    (a.slice i k h).slice j m h' = a.slice (i + j) m (by omega) := by
  ext1
  simp only [bytes_slice, List.drop_take, List.drop_drop, List.take_take]
  rw [min_eq_left (by omega)]

/-- What the reserved-prefix tests of `generate_relay_init` and `generate_client_handshake`
protect: the first byte, the first word and the second word of an init packet. -/
structure AvoidsReserved (h : Block 64) : Prop where
  first : h.bytes.getD 0 0 ≠ 0xef
  start : ∀ s ∈ reservedStarts, h.bytes.take 4 ≠ s
  second : (h.bytes.drop 4).take 4 ≠ [0, 0, 0, 0]

/-- A draw that is not rejected avoids the reserved prefixes, and so does every block with the
same first bytes. -/
theorem avoidsReserved_of_take {raw h : Block 64} (hraw : rejected raw = false)
    (htake : h.bytes.take 56 = raw.bytes.take 56) : AvoidsReserved h := by
  simp only [rejected, Bool.or_eq_false_iff] at hraw
  obtain ⟨⟨hfirst, hstart⟩, hsecond⟩ := hraw
  have hget : h.bytes.getD 0 0 = raw.bytes.getD 0 0 := by
    have := congrArg (fun l => l.getD 0 0) htake
    simpa [List.getD_eq_getElem?_getD, List.getElem?_take] using this
  have h4 : h.bytes.take 4 = raw.bytes.take 4 := by
    have := congrArg (List.take 4) htake
    simpa [List.take_take] using this
  have h48 : (h.bytes.drop 4).take 4 = (raw.bytes.drop 4).take 4 := by
    have := congrArg (fun l => (l.drop 4).take 4) htake
    simpa [List.drop_take, List.take_take] using this
  refine ⟨?_, ?_, ?_⟩
  · rw [hget]
    simpa [reservedFirstBytes] using hfirst
  · intro s hs
    rw [h4]
    simpa using List.any_eq_false.mp hstart s hs
  · rw [h48]
    simpa [reservedContinue] using hsecond

/-! ## The layout of a generated handshake -/

/-- The cipher that both sides of a handshake derive from its prekey and IV. -/
def handshakeCipher (secret : Bytes) (h : Block 64) : AesCtr256 :=
  makeCipher (derivedKey P (prekeyOf h) secret) (ivOf h)

/-- Two adjacent overwrites replace one stretch. -/
theorem overwrite_overwrite (bytes : Bytes) (i : ℕ) (new₁ new₂ : Bytes)
    (h : i + new₁.length + new₂.length ≤ bytes.length) :
    overwrite (overwrite bytes i new₁) (i + new₁.length) new₂ =
      bytes.take i ++ (new₁ ++ new₂ ++ bytes.drop (i + new₁.length + new₂.length)) := by
  have hlen : (bytes.take i ++ new₁).length = i + new₁.length := by simp; omega
  unfold overwrite
  rw [List.take_append_of_le_length hlen.ge, List.take_of_length_le hlen.le,
    List.drop_append, List.drop_eq_nil_of_le (by omega), List.drop_drop, hlen]
  simp only [List.append_assoc, List.nil_append]
  congr 4
  omega

/-- A generated handshake is its draw with tag and index encrypted in place. -/
theorem bytes_clientHandshakeOf (secret : Bytes) (dcIdx : Int16) (proto : ProtoTag)
    (raw : Block 64) :
    (clientHandshakeOf P secret dcIdx proto raw).bytes =
      raw.bytes.take 56 ++ (xorAt P (handshakeCipher P secret raw) 56
        (proto.asBytes ++ i16ToLeBytes dcIdx) ++ raw.bytes.drop 62) := by
  have hks : ∀ (k : ℕ) (data : Bytes), data.length ≤ 64 - k →
      List.zipWith (· ^^^ ·) data ((xorAt P (handshakeCipher P secret raw) 0
        (List.replicate 64 0)).drop k) = xorAt P (handshakeCipher P secret raw) k data := by
    intro k data hdata
    rw [drop_xorAt, List.drop_replicate, zero_add, zipWith_xor_zeros P _ _ _ _ hdata]
  have h56 := hks 56 proto.asBytes (by simp)
  have h60 := hks 60 (i16ToLeBytes dcIdx) (by simp)
  have key := overwrite_overwrite raw.bytes 56
    (xorAt P (handshakeCipher P secret raw) 56 proto.asBytes)
    (xorAt P (handshakeCipher P secret raw) 60 (i16ToLeBytes dcIdx)) (by simp)
  simp only [length_xorAt, ProtoTag.length_asBytes, length_i16ToLeBytes] at key
  rw [xorAt_append, ProtoTag.length_asBytes, ← key, ← h56, ← h60]
  rfl

/-- The embedding leaves the first 56 bytes of the draw alone. -/
theorem take_clientHandshakeOf (secret : Bytes) (dcIdx : Int16) (proto : ProtoTag)
    (raw : Block 64) :
    (clientHandshakeOf P secret dcIdx proto raw).bytes.take 56 = raw.bytes.take 56 := by
  rw [bytes_clientHandshakeOf, List.take_append_of_le_length (by simp), List.take_take,
    min_self]

/-- The finished handshake derives the cipher of its draw. -/
theorem handshakeCipher_congr (secret : Bytes) {a b : Block 64}
    (h : a.bytes.take 56 = b.bytes.take 56) :
    handshakeCipher P secret a = handshakeCipher P secret b := by
  have hkey : prekeyOf a = prekeyOf b := Block.slice_congr h (by decide) _
  have hiv : ivOf a = ivOf b := Block.slice_congr h (by decide) _
  rw [handshakeCipher, handshakeCipher, hkey, hiv]

/-! ## Parsing -/

/-- The protocol tag of a decrypted packet. -/
def tagOf (plain : Bytes) : Bytes := (plain.drop protoTagPos).take 4

/-- The signed DC index of a decrypted packet. -/
def indexOf (plain : Bytes) : Int16 :=
  i16FromLeBytes (plain.getD dcIdxPos 0) (plain.getD (dcIdxPos + 1) 0)

/-- Tag and index of a packet whose plain text ends in them. -/
theorem tagOf_indexOf_of_drop {plain pad : Bytes} {proto : ProtoTag} {dcIdx : Int16}
    (h : plain.drop 56 = proto.asBytes ++ i16ToLeBytes dcIdx ++ pad) :
    tagOf plain = proto.asBytes ∧ indexOf plain = dcIdx := by
  have hget : ∀ j, plain.getD (60 + j) 0 = (i16ToLeBytes dcIdx ++ pad).getD j 0 := by
    intro j
    have hshift : plain[60 + j]? = (plain.drop 56)[4 + j]? := by
      rw [List.getElem?_drop]
      congr 1
      omega
    rw [List.getD_eq_getElem?_getD, List.getD_eq_getElem?_getD, hshift, h, List.append_assoc,
      List.getElem?_append_right (by simp)]
    simp
  constructor
  · rw [tagOf, protoTagPos, h, List.append_assoc, List.take_append_of_le_length (by simp),
      List.take_of_length_le (by simp)]
  · rw [indexOf, dcIdxPos, hget 1, show (60 : ℕ) = 60 + 0 from rfl, hget 0]
    exact i16FromLeBytes_extract dcIdx

/-- `parse_handshake` on a packet whose bytes from `56` on are an encrypted tag and index. -/
theorem parseHandshake_of_tail (secret : Bytes) (h : Block 64) (proto : ProtoTag)
    (dcIdx : Int16) (rest : Bytes)
    (htail : h.bytes.drop 56 =
      xorAt P (handshakeCipher P secret h) 56 (proto.asBytes ++ i16ToLeBytes dcIdx) ++ rest) :
    parseHandshake P h secret = some
      { dcId := dcIdx.toInt.natAbs, isMedia := decide (dcIdx.toInt < 0), proto := proto,
        prekeyAndIv := prekeyAndIvOf h } := by
  set c := handshakeCipher P secret h with hc
  have hbuf : (xorAt P c 0 h.bytes).drop 56 =
      proto.asBytes ++ i16ToLeBytes dcIdx ++ xorAt P c (56 + 6) rest := by
    rw [drop_xorAt, htail, zero_add, xorAt_append, xorAt_xorAt]
    simp
  obtain ⟨htag, hdc⟩ := tagOf_indexOf_of_drop hbuf
  have hparse : parseHandshake P h secret =
      (ProtoTag.fromBytes (tagOf (xorAt P c 0 h.bytes))).bind fun t =>
        let idx := indexOf (xorAt P c 0 h.bytes)
        some { dcId := idx.toInt.natAbs, isMedia := decide (idx.toInt < 0), proto := t,
               prekeyAndIv := prekeyAndIvOf h } := rfl
  rw [hparse, htag, ProtoTag.fromBytes_asBytes, hdc]
  rfl

/-- A generated handshake is accepted under its secret, with its transport and index. -/
theorem parseHandshake_clientHandshakeOf (secret : Bytes) (dcIdx : Int16) (proto : ProtoTag)
    (raw : Block 64) :
    parseHandshake P (clientHandshakeOf P secret dcIdx proto raw) secret = some
      { dcId := dcIdx.toInt.natAbs, isMedia := decide (dcIdx.toInt < 0), proto := proto,
        prekeyAndIv := prekeyAndIvOf (clientHandshakeOf P secret dcIdx proto raw) } := by
  set h := clientHandshakeOf P secret dcIdx proto raw with hh
  have htake : h.bytes.take 56 = raw.bytes.take 56 := take_clientHandshakeOf P _ _ _ _
  have htail : h.bytes.drop 56 = xorAt P (handshakeCipher P secret h) 56
      (proto.asBytes ++ i16ToLeBytes dcIdx) ++ raw.bytes.drop 62 := by
    rw [handshakeCipher_congr P secret htake, hh, bytes_clientHandshakeOf,
      List.drop_append_of_le_length (by simp), List.drop_take_self]
    rfl
  exact parseHandshake_of_tail P secret h proto dcIdx _ htail

/-- A parsed handshake keeps the pair `8..56` of the packet. -/
theorem prekeyAndIv_of_parseHandshake {secret : Bytes} {h : Block 64} {info : HandshakeInfo}
    (hp : parseHandshake P h secret = some info) : info.prekeyAndIv = prekeyAndIvOf h := by
  unfold parseHandshake at hp
  simp only [bind, Option.bind] at hp
  split at hp
  · cases hp
  · cases hp; rfl

/-! ## The ciphers of both sides -/

/-- The client-side ciphers of the server, in terms of the handshake they were parsed from. -/
theorem buildConnectionCiphers_client (h : Block 64) (secret : Bytes) (relayInit : Block 64) :
    (buildConnectionCiphers P (prekeyAndIvOf h) secret relayInit).cltDec = clientEnc P secret h ∧
      (buildConnectionCiphers P (prekeyAndIvOf h) secret relayInit).cltEnc =
        clientDec P secret h := by
  have hkey : (prekeyAndIvOf h).slice 0 prekeyLen (by decide) = prekeyOf h :=
    Block.slice_slice h _ _
  have hiv : (prekeyAndIvOf h).slice prekeyLen ivLen (by decide) = ivOf h :=
    Block.slice_slice h _ _
  refine ⟨?_, rfl⟩
  unfold buildConnectionCiphers clientEnc
  simp only [hkey, hiv]

/-- Data fed to one cipher in any pieces comes back when the result is fed, in any other
pieces, to a cipher with the same key, IV and position. -/
theorem AesCtr256.feed_feed (c : AesCtr256) {sent received : List Bytes}
    (h : received.flatten = c.feed P sent) : c.feed P received = sent.flatten := by
  rw [feed_eq_xorAt, h, feed_eq_xorAt, xorAt_xorAt]

/-- **The generated handshake and the server agree.** For the first draw that is not rejected,
the handshake is accepted under the same secret with the requested transport and index, avoids
the reserved prefixes, and the two ciphers returned with it are the server's `clt_dec` and
`clt_enc` for every relay init, so that data cut in any way in either direction arrives as sent.

**Proof sketch.** The embedding only changes bytes `56..62`, so the prekey and IV of the packet
are those of the draw (`take_clientHandshakeOf`), the packet decrypts to tag and index
(`parseHandshake_of_tail`), and the two derivations build the same ciphers
(`buildConnectionCiphers_client`). -/
theorem generateClientHandshake_agrees (secret : Bytes) (dcIdx : Int16) (proto : ProtoTag)
    (draws : List (Block 64)) (raw : Block 64)
    (hraw : draws.find? (fun raw => !rejected raw) = some raw) :
    ∃ handshake enc dec info,
      generateClientHandshake P secret dcIdx proto draws = some (handshake, enc, dec) ∧
      parseHandshake P handshake secret = some info ∧
      info.proto = proto ∧ info.dcId = dcIdx.toInt.natAbs ∧
      info.isMedia = decide (dcIdx.toInt < 0) ∧
      AvoidsReserved handshake ∧
      ∀ relayInit,
        let ciphers := buildConnectionCiphers P info.prekeyAndIv secret relayInit
        enc = ciphers.cltDec ∧ dec = ciphers.cltEnc ∧
        (∀ sent received, received.flatten = enc.feed P sent →
          ciphers.cltDec.feed P received = sent.flatten) ∧
        (∀ sent received, received.flatten = ciphers.cltEnc.feed P sent →
          dec.feed P received = sent.flatten) := by
  have hacc : rejected raw = false := by simpa using List.find?_some hraw
  set h := clientHandshakeOf P secret dcIdx proto raw with hh
  refine ⟨h, clientEnc P secret h, clientDec P secret h, _, ?_,
    parseHandshake_clientHandshakeOf P secret dcIdx proto raw, rfl, rfl, rfl,
    avoidsReserved_of_take hacc (take_clientHandshakeOf P _ _ _ _), ?_⟩
  · simp [generateClientHandshake, hraw, hh]
  · intro relayInit ciphers
    obtain ⟨hdec, henc⟩ := buildConnectionCiphers_client P h secret relayInit
    refine ⟨hdec.symm, henc.symm, ?_, ?_⟩
    · intro sent received hsent
      rw [← hdec] at hsent
      exact AesCtr256.feed_feed P _ hsent
    · intro sent received hsent
      rw [← henc]
      exact AesCtr256.feed_feed P _ hsent

/-- With the real primitives, after a rejected draw, for media DC `2`. -/
theorem generateClientHandshake_agrees_sample :
    ∃ handshake enc dec info,
      generateClientHandshake Reference.primitives Reference.sampleSecret (-2) .abridged
        [Reference.reservedDraw, Reference.sampleDraw] = some (handshake, enc, dec) ∧
      parseHandshake Reference.primitives handshake Reference.sampleSecret = some info ∧
      info.dcId = 2 ∧ info.isMedia = true := by
  obtain ⟨handshake, enc, dec, info, hgen, hparse, -, hdc, hmedia, -⟩ :=
    generateClientHandshake_agrees Reference.primitives Reference.sampleSecret (-2) .abridged
      [Reference.reservedDraw, Reference.sampleDraw] Reference.sampleDraw (by decide)
  exact ⟨handshake, enc, dec, info, hgen, hparse, hdc, hmedia⟩

end TgWsProxy
