import TgWsProxy.FakeTls.Sni

set_option relaxedAutoImplicit false
set_option autoImplicit false

/-!
# The ClientHello of a FakeTLS client

Towards an upstream proxy with an `ee` secret the program is the client: it builds a ClientHello
with the hostname of the secret in it, and signs it. What it sends is what the listener of
`Inbound` accepts.

## Main definitions

* `TgWsProxy.buildFaketlsClientHello`, `signFaketlsClientHello` — the functions of `faketls.rs`.
* `TgWsProxy.LengthsExact` — no length is cut off at its width.

## Main results

* `TgWsProxy.lengthsExact` — the hostnames that fit.
* `TgWsProxy.clientHello_roundTrip` — the listener's parser accepts a signed ClientHello.

## Design

A length is computed in 16 bits as the source computes it: a cast or a sum that does not fit is
reduced. The session id and the time are parameters.
-/

namespace TgWsProxy

open Slices

/-! ## Building -/

/-- `as u16`, and addition of 16-bit numbers. -/
def asU16 (n : ℕ) : ℕ := n % 65536

/-- The lengths of the server-name extension. -/
def hostLen (hostname : Host) : ℕ := asU16 (asBytes hostname).length
def sniEntryLen (hostname : Host) : ℕ := asU16 (1 + 2 + hostLen hostname)
def sniListLen (hostname : Host) : ℕ := sniEntryLen hostname
def sniDataLen (hostname : Host) : ℕ := asU16 (2 + sniListLen hostname)

/-- The extensions behind the server name. -/
def furtherExtensions : Bytes :=
  -- extended_master_secret
  [0x00, 0x17, 0x00, 0x00] ++
  -- renegotiation_info
  [0xff, 0x01, 0x00, 0x01, 0x00] ++
  -- supported_groups
  [0x00, 0x0a, 0x00, 0x0a, 0x00, 0x08, 0x00, 0x1d, 0x00, 0x17, 0x00, 0x18, 0x00, 0x19] ++
  -- ec_point_formats
  [0x00, 0x0b, 0x00, 0x02, 0x01, 0x00] ++
  -- session_ticket
  [0x00, 0x23, 0x00, 0x00] ++
  -- signature_algorithms
  [0x00, 0x0d, 0x00, 0x14, 0x00, 0x12, 0x04, 0x03, 0x08, 0x04, 0x04, 0x01, 0x05, 0x03, 0x08, 0x05,
    0x05, 0x01, 0x08, 0x06, 0x06, 0x01, 0x02, 0x01]

/-- `exts`. -/
def clientExtensions (hostname : Host) : Bytes :=
  toBeBytes 0x0000 ++ toBeBytes (sniDataLen hostname) ++ toBeBytes (sniListLen hostname) ++
    [0x00] ++ toBeBytes (hostLen hostname) ++ asBytes hostname ++ furtherExtensions

/-- `cipher_suites`. -/
def clientCipherSuites : Bytes :=
  [0x13, 0x01, 0x13, 0x02, 0x13, 0x03, 0xc0, 0x2b, 0xc0, 0x2f, 0xc0, 0x2c, 0xc0, 0x30, 0xcc, 0xa9,
    0xcc, 0xa8, 0xc0, 0x13, 0xc0, 0x14, 0x00, 0x9c, 0x00, 0x9d, 0x00, 0x2f, 0x00, 0x35, 0x00, 0x0a]

/-- `hello`: the ClientHello body. -/
def clientHelloBody (sessionId : Block 32) (hostname : Host) : Bytes :=
  [0x03, 0x03] ++ List.replicate 32 0 ++ [0x20] ++ sessionId.bytes ++
    toBeBytes (asU16 clientCipherSuites.length) ++ clientCipherSuites ++ [0x01] ++ [0x00] ++
    toBeBytes (asU16 (clientExtensions hostname).length) ++ clientExtensions hostname

/-- `handshake`. -/
def clientHandshake (sessionId : Block 32) (hostname : Host) : Bytes :=
  let hello := clientHelloBody sessionId hostname
  let helloLen := hello.length % 4294967296
  [0x01, UInt8.ofNat (helloLen / 65536), UInt8.ofNat (helloLen / 256), UInt8.ofNat helloLen] ++
    hello

/-- `build_faketls_client_hello`. -/
def buildFaketlsClientHello (sessionId : Block 32) (hostname : Host) : Bytes :=
  let handshake := clientHandshake sessionId hostname
  [tlsRecordHandshake, 0x03, 0x01] ++ toBeBytes (asU16 handshake.length) ++ handshake

/-! ## Signing -/

def tlsDigestPos : ℕ := 11

/-- `u32::to_le_bytes`. -/
def toLeBytes (n : UInt32) : Bytes :=
  [n.toUInt8, (n >>> 8).toUInt8, (n >>> 16).toUInt8, (n >>> 24).toUInt8]

/-- `sign_faketls_client_hello` at the given time; the four bytes of the last loop are written
together. -/
def signFaketlsClientHello (hmac : Hmac) (timestamp : UInt32) (record secret : Bytes) :
    Except Panic Bytes := do
  let record ← fill record tlsDigestPos (tlsDigestPos + tlsDigestLen) 0
  let computed := (hmac secret record).bytes
  let record ← write record tlsDigestPos (tlsDigestPos + 28) (computed.take 28)
  write record (tlsDigestPos + 28) (tlsDigestPos + 28 + 4)
    (List.zipWith (· ^^^ ·) (computed.drop 28) (toLeBytes timestamp))

/-! ## The lengths -/

/-- No length is cut off at its width. -/
structure LengthsExact (sessionId : Block 32) (hostname : Host) : Prop where
  host : hostLen hostname = (asBytes hostname).length
  sniEntry : sniEntryLen hostname = 1 + 2 + (asBytes hostname).length
  sniList : sniListLen hostname = 1 + 2 + (asBytes hostname).length
  sniData : sniDataLen hostname = 2 + (1 + 2 + (asBytes hostname).length)
  cipherSuites : asU16 clientCipherSuites.length = clientCipherSuites.length
  exts : asU16 (clientExtensions hostname).length = (clientExtensions hostname).length
  hello : (clientHelloBody sessionId hostname).length < 16777216
  handshake : asU16 (clientHandshake sessionId hostname).length =
    (clientHandshake sessionId hostname).length

theorem length_clientExtensions (hostname : Host) :
    (clientExtensions hostname).length = 66 + (asBytes hostname).length := by
  simp only [clientExtensions, furtherExtensions, List.length_append, length_toBeBytes,
    List.length_cons, List.length_nil]
  omega

theorem length_clientHelloBody (sessionId : Block 32) (hostname : Host) :
    (clientHelloBody sessionId hostname).length = 171 + (asBytes hostname).length := by
  simp only [clientHelloBody, clientCipherSuites, List.length_append, length_toBeBytes,
    List.length_cons, List.length_nil, List.length_replicate, Block.length_bytes,
    length_clientExtensions]
  omega

theorem length_clientHandshake (sessionId : Block 32) (hostname : Host) :
    (clientHandshake sessionId hostname).length = 175 + (asBytes hostname).length := by
  simp only [clientHandshake, List.length_append, List.length_cons, List.length_nil,
    length_clientHelloBody]
  omega

theorem asU16_of_lt {n : ℕ} (h : n < 65536) : asU16 n = n := Nat.mod_eq_of_lt h

/-- The hostnames that fit. -/
theorem lengthsExact (sessionId : Block 32) {hostname : Host}
    (hfits : (asBytes hostname).length ≤ 65360) : LengthsExact sessionId hostname := by
  have hhost : hostLen hostname = (asBytes hostname).length := asU16_of_lt (by omega)
  have hentry : sniEntryLen hostname = 1 + 2 + (asBytes hostname).length := by
    rw [sniEntryLen, hhost, asU16_of_lt (by omega)]
  refine ⟨hhost, hentry, hentry, ?_, rfl, ?_, ?_, ?_⟩
  · rw [sniDataLen, sniListLen, hentry, asU16_of_lt (by omega)]
  · exact asU16_of_lt (by rw [length_clientExtensions]; omega)
  · rw [length_clientHelloBody]
    omega
  · exact asU16_of_lt (by rw [length_clientHandshake]; omega)

/-! ## The hostname -/

/-- The server-name extension of a ClientHello. -/
def sniExtension (hostname : Host) (hfits : (asBytes hostname).length ≤ 65360) : Extension where
  extType := 0
  value := toBeBytes (3 + (asBytes hostname).length) ++
    (0x00 :: (toBeBytes (asBytes hostname).length ++ asBytes hostname))
  extType_lt := by decide
  value_lt := by simp; omega

theorem clientExtensions_eq {hostname : Host} (hfits : (asBytes hostname).length ≤ 65360) :
    clientExtensions hostname = (sniExtension hostname hfits).bytes ++ furtherExtensions := by
  have hlengths := lengthsExact ⟨List.replicate 32 0, List.length_replicate⟩ hfits
  have hvalue : (sniExtension hostname hfits).value.length =
      2 + (1 + 2 + (asBytes hostname).length) := by
    simp [sniExtension]
    omega
  rw [clientExtensions, hlengths.host, hlengths.sniList, hlengths.sniData, Extension.bytes, hvalue]
  simp [sniExtension]

/-- The parser finds the hostname. -/
theorem parseSniExtension_clientExtensions {hostname : Host}
    (hfits : (asBytes hostname).length ≤ 65360) :
    parseSniExtension (clientExtensions hostname) = some hostname := by
  have h₀ : (sniExtension hostname hfits).value.drop 0 = _ := List.drop_zero
  have h₂ := drop_step h₀ (length_toBeBytes _)
  have h₃ := drop_step_cons h₂
  have h₅ := drop_step h₃ (length_toBeBytes _)
  have hlist : u16At (sniExtension hostname hfits).value 0 = 3 + (asBytes hostname).length :=
    u16At_of_drop h₀ (by omega)
  have hname : FirstName (sniExtension hostname hfits).value hostname := by
    refine ⟨?_, getD_of_drop h₂ 0, u16At_of_drop h₃ (by omega), ?_, hlist.ge⟩
    · rw [hlist]
      simp [sniExtension]
      omega
    · rw [h₅, List.take_length]
  rw [clientExtensions_eq hfits, parseSniExtension_eq_bind, firstServerName_append,
    if_neg (hname.not_skipped rfl), Option.bind_some, hname.serverName_eq]

/-! ## The record -/

/-- What stands behind the `random` field of a ClientHello. -/
def helloTail (sessionId : Block 32) (hostname : Host) : Bytes :=
  0x20 :: (sessionId.bytes ++ (toBeBytes clientCipherSuites.length ++ (clientCipherSuites ++
    (0x01 :: ([0x00] ++ (toBeBytes (clientExtensions hostname).length ++
      (clientExtensions hostname ++ [])))))))

/-- The record of a ClientHello with the given `random` field. -/
def clientHelloRecord (sessionId : Block 32) (hostname : Host) (random : Bytes) : Bytes :=
  helloHead 0x01 0x01 (171 + (asBytes hostname).length) ++ random ++ helloTail sessionId hostname

section Record

variable {hostname : Host} (hfits : (asBytes hostname).length ≤ 65360) (sessionId : Block 32)

include hfits in
theorem buildFaketlsClientHello_eq : buildFaketlsClientHello sessionId hostname =
    clientHelloRecord sessionId hostname (List.replicate 32 0) := by
  have hlengths := lengthsExact sessionId hfits
  have hmod : (171 + (asBytes hostname).length) % 4294967296 = 171 + (asBytes hostname).length :=
    Nat.mod_eq_of_lt (by omega)
  rw [buildFaketlsClientHello, hlengths.handshake, length_clientHandshake, clientHandshake,
    length_clientHelloBody, hmod, clientHelloBody, hlengths.cipherSuites, hlengths.exts,
    clientHelloRecord, helloHead, helloTail, ← Nat.add_assoc]
  simp only [List.append_assoc, List.cons_append, List.nil_append, List.append_nil]

/-- The pieces of the body. -/
def clientParts (random : Block 32) : HelloParts where
  head := ⟨[0x03, 0x03] ++ random.bytes, by simp⟩
  sessionId := sessionId.bytes
  suites := clientCipherSuites
  compression := [0x00]
  extensions := clientExtensions hostname
  tail := []
  sessionId_lt := by simp
  suites_lt := by decide
  compression_lt := by decide
  extensions_lt := by rw [length_clientExtensions]; omega

include hfits in
/-- The parser on a ClientHello whose `random` field carries the digest. -/
theorem parseFaketlsClientHello_random (hmac : Hmac) (secret : Bytes) (random : Block 32)
    (hdigest : random.bytes.take 28 =
      (hmac secret (clientHelloRecord sessionId hostname (List.replicate 32 0))).bytes.take 28) :
    parseFaketlsClientHello hmac (clientHelloRecord sessionId hostname random.bytes) secret =
      some ⟨random.bytes, sessionId.bytes, [0x13, 0x01], some hostname⟩ := by
  set n := 171 + (asBytes hostname).length with hn
  set record := clientHelloRecord sessionId hostname random.bytes with hrecord
  have hlen : record.length = 9 + n := by
    simp only [hrecord, clientHelloRecord, helloTail, List.length_append, List.length_cons,
      length_helloHead, Block.length_bytes, length_toBeBytes, length_clientExtensions,
      clientCipherSuites, List.length_nil]
    omega
  have hbody : record.drop 9 = (clientParts hfits sessionId random).bytes := by
    have hbehind : record.drop 9 =
        [0x03, 0x03] ++ random.bytes ++ helloTail sessionId hostname := rfl
    rw [hbehind, HelloParts.bytes]
    simp [clientParts, helloTail]
  have hfield : (record.drop 11).take 32 = random.bytes := random_helloHead _ _ _ _
  have hzeroed : zeroedRandom record =
      clientHelloRecord sessionId hostname (List.replicate 32 0) := zeroedRandom_helloHead _ _ _ _
  have hrecordLen : u16At record 3 = 4 + n := u16At_helloHead _ _ _ _ (by omega)
  have hhandshakeLen : u24At record 6 = n := u24At_helloHead _ _ _ _ (by omega)
  refine (parseFaketlsClientHello_eq_some_iff hmac record secret _).mpr
    ⟨by omega, rfl, by omega, rfl, by omega, ?_, ?_⟩
  · rw [hzeroed, ← hdigest, ← hfield, List.take_take, min_eq_left (by decide)]
  · rw [hfield, hbody, parseHelloBody_bytes _ _ (show 2 ≤ clientCipherSuites.length by decide),
      HelloParts.hello]
    simp only [clientParts, parseSniExtension_clientExtensions hfits]
    rfl

end Record

/-! ## Signing and parsing -/

/-- The `random` field of a signed ClientHello: the digest, with the time in its last bytes. -/
def signedRandom (digest : Block 32) (timestamp : UInt32) : Block 32 where
  bytes := digest.bytes.take 28 ++
    List.zipWith (· ^^^ ·) (digest.bytes.drop 28) (toLeBytes timestamp)
  length_bytes := by simp [toLeBytes]

/-- What signing does to a record. -/
theorem signFaketlsClientHello_append (hmac : Hmac) (timestamp : UInt32) (secret : Bytes)
    {head random tail : Bytes} (hhead : head.length = 11) (hrandom : random.length = 32) :
    signFaketlsClientHello hmac timestamp (head ++ random ++ tail) secret =
      .ok (head ++ (signedRandom (hmac secret (head ++ List.replicate 32 0 ++ tail))
        timestamp).bytes ++ tail) := by
  set digest := hmac secret (head ++ List.replicate 32 0 ++ tail) with hdigest
  have hfill := fill_append (y := tail) hhead (show 11 + random.length = 43 by omega) (0 : UInt8)
  rw [hrandom] at hfill
  rw [signFaketlsClientHello, show tlsDigestPos = 11 from rfl, show tlsDigestLen = 32 from rfl,
    hfill, ok_bind, ← hdigest]
  dsimp only
  -- the first 28 bytes of the field, then its last four
  have hfield : head ++ List.replicate 32 0 ++ tail =
      head ++ List.replicate 28 0 ++ (List.replicate 4 0 ++ tail) := by
    rw [List.append_assoc, List.append_assoc, ← List.append_assoc (List.replicate 28 _),
      List.replicate_append_replicate]
  rw [hfield, write_append hhead (by simp) (by simp), ok_bind]
  rw [← List.append_assoc, write_append (by simp [hhead]) (by simp) (by simp [toLeBytes]),
    signedRandom, List.append_assoc head]

/-- **A signed ClientHello is accepted.** Whatever the hostname, as long as its record fits, the
session id, the secret and the time: no length is cut off, signing makes no access out of range,
and the parser finds hostname, session id, first cipher suite and `random` field.

**Proof sketch.** The record is its first 11 bytes, the `random` field and the rest, so zeroing the
field gives back what was signed. The lengths in the first part are those of the record. Behind it
lie the pieces of the body, and the first extension has the hostname. -/
theorem clientHello_roundTrip (hmac : Hmac) (hostname : Host)
    (hfits : (asBytes hostname).length ≤ 65360) (sessionId : Block 32) (secret : Bytes)
    (timestamp : UInt32) :
    LengthsExact sessionId hostname ∧
      ∃ signed, signFaketlsClientHello hmac timestamp (buildFaketlsClientHello sessionId hostname)
          secret = .ok signed ∧
        parseFaketlsClientHello hmac signed secret =
          some ⟨(signed.drop 11).take 32, sessionId.bytes, [0x13, 0x01], some hostname⟩ := by
  refine ⟨lengthsExact sessionId hfits, ?_⟩
  set random := signedRandom (hmac secret (clientHelloRecord sessionId hostname
    (List.replicate 32 0))) timestamp with hsigned
  have hsign : signFaketlsClientHello hmac timestamp (buildFaketlsClientHello sessionId hostname)
      secret = .ok (clientHelloRecord sessionId hostname random.bytes) := by
    rw [buildFaketlsClientHello_eq hfits]
    exact signFaketlsClientHello_append hmac timestamp secret (length_helloHead _ _)
      List.length_replicate
  refine ⟨_, hsign, ?_⟩
  rw [parseFaketlsClientHello_random hfits sessionId hmac secret random]
  · rw [clientHelloRecord, random_helloHead]
  · rw [hsigned, signedRandom, List.take_left' (by simp)]

/-- The shortest ClientHello, under a real HMAC: no hostname. -/
theorem clientHello_roundTrip_empty :
    ∃ signed, signFaketlsClientHello Reference.hmacSha256 1700000000
        (buildFaketlsClientHello ⟨List.replicate 32 7, List.length_replicate⟩ []) sampleKey =
          .ok signed ∧
      parseFaketlsClientHello Reference.hmacSha256 signed sampleKey =
        some ⟨(signed.drop 11).take 32, List.replicate 32 7, [0x13, 0x01], some []⟩ :=
  (clientHello_roundTrip Reference.hmacSha256 [] (by decide) ⟨List.replicate 32 7, _⟩ sampleKey
    1700000000).2

end TgWsProxy
