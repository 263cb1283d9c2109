import TgWsProxy.Crypto.Agreement

set_option relaxedAutoImplicit false
set_option autoImplicit false

/-!
# The relay init carries the client's metadata

`handle_client_with_runtime` splits the client's DC index into a magnitude and a media flag, puts
it together again and has `generate_relay_init` embed it, with the transport of the client, in a
packet of random bytes. Telegram decrypts that packet with its own raw key bytes.

## Main definitions

* `TgWsProxy.acceptHandshake`, `HandshakeInfo.dcIdx` — steps 2 and 3 of
  `handle_client_with_runtime`.
* `TgWsProxy.decryptedHandshake`, `decryptedRelayInit` — what the two packets say.

## Main results

* `TgWsProxy.HandshakeInfo.dcIdx_of_parse` — the index survives at every value, also at `0x8000`.
* `TgWsProxy.bytes_relayInitOf` — the layout of a relay init.
* `TgWsProxy.relayInit_carries_metadata` — tag and index of the relay init are the client's.
-/

namespace TgWsProxy

variable (P : Primitives)

/-! ## The packets -/

/-- The first configured secret that a handshake is accepted under. -/
def acceptHandshake (secrets : List Bytes) (handshake : Block 64) :
    Option (HandshakeInfo × Bytes) :=
  secrets.findSome? fun secret => (parseHandshake P handshake secret).map fun info => (info, secret)

/-- `dc_idx` of `handle_client_with_runtime`: `dc_id as i16`, negated for a media DC. Both wrap. -/
def HandshakeInfo.dcIdx (info : HandshakeInfo) : Int16 :=
  if info.isMedia then -(Int16.ofNat info.dcId) else Int16.ofNat info.dcId

/-- A client handshake, decrypted under the key derived from a secret. -/
def decryptedHandshake (secret : Bytes) (handshake : Block 64) : Bytes :=
  ((handshakeCipher P secret handshake).applyKeystream P handshake.bytes).1

/-- A relay init, decrypted whole with its own raw key and IV. -/
def decryptedRelayInit (relayInit : Block 64) : Bytes :=
  ((relayCipher relayInit).applyKeystream P relayInit.bytes).1

/-! ## The client's metadata -/

theorem ProtoTag.asBytes_of_fromBytes {b : Bytes} {p : ProtoTag} (h : fromBytes b = some p) :
    b = p.asBytes := by
  unfold fromBytes at h
  split_ifs at h with h₁ h₂ h₃
  · cases h; exact h₁
  · cases h; exact h₂
  · cases h; exact h₃

/-- What an accepted handshake decrypts to. -/
theorem decrypted_of_parseHandshake {secret : Bytes} {handshake : Block 64} {info : HandshakeInfo}
    (h : parseHandshake P handshake secret = some info) :
    tagOf (decryptedHandshake P secret handshake) = info.proto.asBytes ∧
      info.dcId = (indexOf (decryptedHandshake P secret handshake)).toInt.natAbs ∧
      info.isMedia = decide ((indexOf (decryptedHandshake P secret handshake)).toInt < 0) := by
  unfold parseHandshake at h
  obtain ⟨proto, hproto, hinfo⟩ := Option.bind_eq_some_iff.mp h
  cases hinfo
  exact ⟨ProtoTag.asBytes_of_fromBytes hproto, rfl, rfl⟩

/-- Magnitude and sign give an index back, also `-32768`, whose magnitude is not an `i16`. -/
theorem signed_magnitude (x : Int16) :
    (if decide (x.toInt < 0) then -(Int16.ofNat x.toInt.natAbs) else Int16.ofNat x.toInt.natAbs) =
      x := by
  have hlo : -(2 ^ 15 : ℤ) ≤ x.toInt := Int16.le_toInt x
  have hhi : x.toInt < 2 ^ 15 := Int16.toInt_lt x
  by_cases hneg : x.toInt < 0
  · simp only [hneg, decide_true, if_true]
    apply Int16.toInt_inj.mp
    rw [Int16.toInt_neg, Int16.toInt_ofNat']
    simp only [Int.bmod, Int16.size]
    omega
  · simp only [hneg, decide_false, Bool.false_eq_true, if_false]
    apply Int16.toInt_inj.mp
    rw [Int16.toInt_ofNat']
    simp only [Int.bmod, Int16.size]
    omega

/-- The index of an accepted handshake is put together again. -/
theorem HandshakeInfo.dcIdx_of_parse {secret : Bytes} {handshake : Block 64} {info : HandshakeInfo}
    (h : parseHandshake P handshake secret = some info) :
    info.dcIdx = indexOf (decryptedHandshake P secret handshake) := by
  obtain ⟨-, hdc, hmedia⟩ := decrypted_of_parseHandshake P h
  rw [HandshakeInfo.dcIdx, hdc, hmedia]
  exact signed_magnitude _

/-! ## The relay init -/

/-- A relay init is its draw with tag, index and padding encrypted in place. -/
theorem bytes_relayInitOf (proto : ProtoTag) (dcIdx : Int16) (rnd : Block 64) (pad : Block 2) :
    (relayInitOf P proto dcIdx rnd pad).bytes = rnd.bytes.take 56 ++
      xorAt P (relayCipher rnd) 56 (proto.asBytes ++ i16ToLeBytes dcIdx ++ pad.bytes) := by
  have hlen : (proto.asBytes ++ i16ToLeBytes dcIdx ++ pad.bytes).length = 8 := by simp
  have hembed := zipWith_xor_recovered P (relayCipher rnd)
    (proto.asBytes ++ i16ToLeBytes dcIdx ++ pad.bytes) 56 (rnd.bytes.drop 56) (by simp)
  have hdrop : (xorAt P (relayCipher rnd) 0 rnd.bytes).drop 56 =
      xorAt P (relayCipher rnd) 56 (rnd.bytes.drop 56) := drop_xorAt P _ 0 56 _
  rw [← hdrop] at hembed
  have hbytes : (relayInitOf P proto dcIdx rnd pad).bytes = overwrite rnd.bytes 56
      (List.zipWith (· ^^^ ·) (proto.asBytes ++ i16ToLeBytes dcIdx ++ pad.bytes)
        (List.zipWith (· ^^^ ·) ((xorAt P (relayCipher rnd) 0 rnd.bytes).drop 56)
          (rnd.bytes.drop 56))) := rfl
  rw [hbytes, hembed, overwrite, length_xorAt, hlen, List.drop_eq_nil_of_le (by simp),
    List.append_nil]

/-- The embedding leaves the first 56 bytes of the draw alone. -/
theorem take_relayInitOf (proto : ProtoTag) (dcIdx : Int16) (rnd : Block 64) (pad : Block 2) :
    (relayInitOf P proto dcIdx rnd pad).bytes.take 56 = rnd.bytes.take 56 := by
  rw [bytes_relayInitOf, List.take_append_of_le_length (by simp), List.take_take, min_self]

/-- The raw key and IV are read below the embedding. -/
theorem relayCipher_congr {a b : Block 64} (h : a.bytes.take 56 = b.bytes.take 56) :
    relayCipher a = relayCipher b := by
  have hkey : prekeyOf a = prekeyOf b := Block.slice_congr h (by decide) _
  have hiv : ivOf a = ivOf b := Block.slice_congr h (by decide) _
  rw [relayCipher, relayCipher, hkey, hiv]

/-- What a relay init decrypts to behind byte 56. -/
theorem decrypted_relayInitOf (proto : ProtoTag) (dcIdx : Int16) (rnd : Block 64) (pad : Block 2) :
    (decryptedRelayInit P (relayInitOf P proto dcIdx rnd pad)).drop 56 =
      proto.asBytes ++ i16ToLeBytes dcIdx ++ pad.bytes := by
  have hcipher := relayCipher_congr (take_relayInitOf P proto dcIdx rnd pad)
  have hplain : decryptedRelayInit P (relayInitOf P proto dcIdx rnd pad) =
      xorAt P (relayCipher rnd) 0 (relayInitOf P proto dcIdx rnd pad).bytes := by
    rw [decryptedRelayInit, hcipher]
    rfl
  rw [hplain, drop_xorAt, zero_add, bytes_relayInitOf, List.drop_append_of_le_length (by simp),
    List.drop_take_self, List.nil_append, xorAt_xorAt]

/-- The secret of an accepted handshake accepts it. -/
theorem parse_of_acceptHandshake {P : Primitives} {secrets : List Bytes} {handshake : Block 64}
    {info : HandshakeInfo} {secret : Bytes}
    (h : acceptHandshake P secrets handshake = some (info, secret)) :
    parseHandshake P handshake secret = some info := by
  obtain ⟨secret', -, hparse⟩ := List.exists_of_findSome?_eq_some h
  obtain ⟨info', hinfo, hpair⟩ := Option.map_eq_some_iff.mp hparse
  cases hpair
  exact hinfo

/-- The first secret that accepts a handshake, if one does. -/
theorem acceptHandshake_of_accepted {secrets : List Bytes} {handshake : Block 64}
    (h : ∃ secret ∈ secrets, (parseHandshake P handshake secret).isSome) :
    ∃ info secret, acceptHandshake P secrets handshake = some (info, secret) ∧
      parseHandshake P handshake secret = some info := by
  obtain ⟨secret, hmem, hsome⟩ := h
  have hfound : (acceptHandshake P secrets handshake).isSome := by
    rw [acceptHandshake, List.findSome?_isSome_iff]
    exact ⟨secret, hmem, by simpa using hsome⟩
  obtain ⟨⟨info, secret'⟩, haccept⟩ := Option.isSome_iff_exists.mp hfound
  exact ⟨info, secret', haccept, parse_of_acceptHandshake haccept⟩

/-- **The relay init carries the client's metadata.** For every handshake that one of the secrets
accepts and all draws of which one is not rejected, the relay init is built, and decrypted whole
with its own raw key it has the tag and the signed index of the decrypted client handshake. Its
first bytes avoid the reserved ones.

**Proof sketch.** Magnitude and sign give the index back (`signed_magnitude`). The embedding
replaces bytes `56..64` only, so the packet is encrypted under the key it shows
(`decrypted_relayInitOf`). -/
theorem relayInit_carries_metadata (secrets : List Bytes) (handshake : Block 64)
    (draws : List (Block 64 × Block 2))
    (haccepted : ∃ secret ∈ secrets, (parseHandshake P handshake secret).isSome)
    (hdraw : ∃ d ∈ draws, rejected d.1 = false) :
    ∃ info secret relayInit,
      acceptHandshake P secrets handshake = some (info, secret) ∧
      generateRelayInit P info.proto info.dcIdx draws = some relayInit ∧
      tagOf (decryptedRelayInit P relayInit) = tagOf (decryptedHandshake P secret handshake) ∧
      indexOf (decryptedRelayInit P relayInit) =
        indexOf (decryptedHandshake P secret handshake) ∧
      AvoidsReserved relayInit := by
  obtain ⟨info, secret, haccept, hparse⟩ := acceptHandshake_of_accepted P haccepted
  obtain ⟨d, hd, hd'⟩ := hdraw
  have hfound : (draws.find? fun d => !rejected d.1).isSome := by
    rw [List.find?_isSome]
    exact ⟨d, hd, by simp [hd']⟩
  obtain ⟨⟨rnd, pad⟩, hfind⟩ := Option.isSome_iff_exists.mp hfound
  have hkept : rejected rnd = false := by simpa using List.find?_some hfind
  obtain ⟨htag, hidx⟩ := tagOf_indexOf_of_drop
    (decrypted_relayInitOf P info.proto info.dcIdx rnd pad)
  refine ⟨info, secret, relayInitOf P info.proto info.dcIdx rnd pad, haccept, ?_, ?_, ?_, ?_⟩
  · rw [generateRelayInit, hfind]
    rfl
  · rw [htag, (decrypted_of_parseHandshake P hparse).1]
  · rw [hidx, HandshakeInfo.dcIdx_of_parse P hparse]
  · exact avoidsReserved_of_take hkept (take_relayInitOf P _ _ _ _)

/-- With the real primitives: the media index `-32768`, after a rejected draw. -/
theorem relayInit_carries_metadata_sample :
    ∃ info secret relayInit,
      acceptHandshake Reference.primitives [Reference.sampleSecret]
        (clientHandshakeOf Reference.primitives Reference.sampleSecret (-32768) .paddedIntermediate
          Reference.sampleDraw) = some (info, secret) ∧
      generateRelayInit Reference.primitives info.proto info.dcIdx
        [(Reference.reservedDraw, ⟨[0, 0], rfl⟩), (Reference.sampleDraw, ⟨[1, 2], rfl⟩)] =
          some relayInit ∧
      AvoidsReserved relayInit := by
  have hparse := parseHandshake_clientHandshakeOf Reference.primitives Reference.sampleSecret
    (-32768) .paddedIntermediate Reference.sampleDraw
  obtain ⟨info, secret, relayInit, haccept, hgen, -, -, havoids⟩ :=
    relayInit_carries_metadata Reference.primitives [Reference.sampleSecret]
      (clientHandshakeOf Reference.primitives Reference.sampleSecret (-32768) .paddedIntermediate
        Reference.sampleDraw)
      [(Reference.reservedDraw, ⟨[0, 0], rfl⟩), (Reference.sampleDraw, ⟨[1, 2], rfl⟩)]
      ⟨Reference.sampleSecret, List.mem_singleton_self _, by rw [hparse]; rfl⟩
      ⟨(Reference.sampleDraw, ⟨[1, 2], rfl⟩), by simp, by decide⟩
  exact ⟨info, secret, relayInit, haccept, hgen, havoids⟩

end TgWsProxy
