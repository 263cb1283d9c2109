import TgWsProxy.FakeTls.HelloParser

set_option relaxedAutoImplicit false
set_option autoImplicit false

/-!
# The fake handshake of the server

The listener answers a ClientHello with three records: a ServerHello, a ChangeCipherSpec and random
bytes in place of a certificate. A client reads records until the first Application Data record,
and what follows is the session. The two sides have to agree on the byte where it begins.

## Main definitions

* `TgWsProxy.drainFaketlsServerHello` — what the client does with the answer (`faketls.rs`).
* `TgWsProxy.Framed` — a stream whose length fields cut it into the given records.

## Main results

* `TgWsProxy.drainRecords_append` — the client stops behind the first Application Data record.
* `TgWsProxy.serverHello_drained` — the answer to an accepted ClientHello is drained exactly.
-/

namespace TgWsProxy

open Slices

/-! ## Draining -/

def tlsMaxHandshakeRecords : ℕ := 20

/-- How a turn of the loop of `drain_faketls_server_hello` ends: with a result or with another
turn. -/
inductive DrainTurn
  | done (complete : Bool) (rest : Bytes)
  | again (rest : Bytes)

/-- One turn: a record. -/
def drainTurn (stream : Bytes) : DrainTurn :=
  match readExact 5 stream with
  | (none, rest) => .done false rest
  | (some header, rest) =>
    let recordType := header.getD 0 0
    let version := [header.getD 1 0, header.getD 2 0]
    let payloadLen := u16At header 3
    if version ≠ [0x03, 0x03] then .done false rest
    else if payloadLen > tlsMaxRecordPayload + 256 then .done false rest
    else
      match readExact payloadLen rest with
      | (none, rest) => .done false rest
      | (some _, rest) =>
        if recordType = tlsRecordHandshake ∨ recordType = tlsRecordChangeCipherSpec then .again rest
        else if recordType = tlsRecordApplicationData then .done true rest
        -- an alert, and every other type
        else .done false rest

/-- The loop of `drain_faketls_server_hello` with `n` turns left. -/
def drainRecords : ℕ → Bytes → Bool × Bytes
  | 0, stream => (false, stream)
  | n + 1, stream =>
    match drainTurn stream with
    | .done complete rest => (complete, rest)
    | .again rest => drainRecords n rest

/-- `drain_faketls_server_hello`: whether the handshake is complete, and the rest of the stream. -/
def drainFaketlsServerHello (stream : Bytes) : Bool × Bytes :=
  drainRecords tlsMaxHandshakeRecords stream

/-- A turn on a record that is not too long. -/
theorem drainTurn_record (recordType : UInt8) {payload : Bytes}
    (hlen : payload.length ≤ tlsMaxRecordPayload + 256) (rest : Bytes) :
    drainTurn (tlsRecordBytes recordType payload ++ rest) =
      if recordType = tlsRecordHandshake ∨ recordType = tlsRecordChangeCipherSpec then .again rest
      else if recordType = tlsRecordApplicationData then .done true rest
      else .done false rest := by
  have hshort : payload.length < 65536 := lt_of_le_tlsReadBufLen hlen
  have hheader : readExact 5 (tlsRecordBytes recordType payload ++ rest) =
      (some ([recordType, 0x03, 0x03] ++ toBeBytes payload.length), payload ++ rest) := by
    rw [tlsRecordBytes, List.append_assoc _ payload rest]
    exact readExact_append (by simp) _
  have hfield : u16At ([recordType, 0x03, 0x03] ++ toBeBytes payload.length) 3 = payload.length :=
    fromBeBytes_toBeBytes hshort
  rw [drainTurn, hheader]
  dsimp only
  rw [if_neg (fun hversion => hversion rfl), hfield, if_neg (by omega), readExact_append rfl]
  rfl

/-- **The client stops behind the first Application Data record**, if it comes within the turns
that are left. -/
theorem drainRecords_append (n : ℕ) (before : List (UInt8 × Bytes)) (last rest : Bytes)
    (hturns : before.length < n)
    (htypes : ∀ r ∈ before, r.1 = tlsRecordHandshake ∨ r.1 = tlsRecordChangeCipherSpec)
    (hlens : ∀ r ∈ before, r.2.length ≤ tlsMaxRecordPayload + 256)
    (hlast : last.length ≤ tlsMaxRecordPayload + 256) :
    drainRecords n (before.flatMap (fun r => tlsRecordBytes r.1 r.2) ++
      (tlsRecordBytes tlsRecordApplicationData last ++ rest)) = (true, rest) := by
  induction before generalizing n with
  | nil =>
    obtain ⟨n, rfl⟩ : ∃ m, n = m + 1 := ⟨n - 1, by simp at hturns; omega⟩
    rw [List.flatMap_nil, List.nil_append, drainRecords, drainTurn_record _ hlast,
      if_neg (by decide), if_pos rfl]
  | cons r before ih =>
    obtain ⟨n, rfl⟩ : ∃ m, n = m + 1 := ⟨n - 1, by omega⟩
    rw [List.flatMap_cons, List.append_assoc, drainRecords,
      drainTurn_record _ (hlens r List.mem_cons_self), if_pos (htypes r List.mem_cons_self)]
    refine ih n ?_ (fun r' hr' => htypes r' (List.mem_cons_of_mem r hr'))
      fun r' hr' => hlens r' (List.mem_cons_of_mem r hr')
    rw [List.length_cons] at hturns
    omega

/-! ## Framing -/

/-- The stream is the given records, and each length field is the length of its payload. -/
inductive Framed : Bytes → List (UInt8 × Bytes) → Prop
  | nil : Framed [] []
  | cons {header payload stream : Bytes} {records : List (UInt8 × Bytes)} :
    header.length = 5 → u16At header 3 = payload.length → Framed stream records →
      Framed (header ++ payload ++ stream) ((header.getD 0 0, payload) :: records)

/-- `push_tls_record` frames what its length field can count. -/
theorem framed_tlsRecordBytes (recordType : UInt8) {payload stream : Bytes}
    {records : List (UInt8 × Bytes)} (hlen : payload.length < 65536)
    (h : Framed stream records) :
    Framed (tlsRecordBytes recordType payload ++ stream) ((recordType, payload) :: records) := by
  have hheader : ([recordType, 0x03, 0x03] ++ toBeBytes payload.length).length = 5 := rfl
  exact .cons hheader (fromBeBytes_toBeBytes hlen) h

/-! ## The answer -/

/-- What stands behind the `random` field of the ServerHello, within its body. -/
def serverHelloTail (draws : HelloDraws) (hello : FakeTlsClientHello) : Bytes :=
  [UInt8.ofNat hello.sessionId.length] ++ hello.sessionId ++ hello.cipherSuite ++
    [0x00, 0x00, 0x2e, 0x00, 0x2b, 0x00, 0x02, 0x03, 0x04, 0x00, 0x33, 0x00, 0x24, 0x00, 0x1d,
      0x00, 0x20] ++ draws.keyShare.bytes

/-- The bytes in place of a certificate. -/
def serverCert (draws : HelloDraws) : Bytes :=
  (List.range (1024 + draws.certLen.toNat % 3092)).map draws.cert

/-- The handshake message with the given `random` field. -/
def serverHandshake (draws : HelloDraws) (hello : FakeTlsClientHello) (random : Bytes) : Bytes :=
  let n := 34 + (serverHelloTail draws hello).length
  [0x02] ++ ([UInt8.ofNat (n / 65536), UInt8.ofNat (n / 256), UInt8.ofNat n] ++ [0x03, 0x03] ++
    random ++ serverHelloTail draws hello)

/-- The three records. -/
def serverPacket (draws : HelloDraws) (hello : FakeTlsClientHello) (random : Bytes) : Bytes :=
  tlsRecordBytes tlsRecordHandshake (serverHandshake draws hello random) ++
    tlsRecordBytes tlsRecordChangeCipherSpec [0x01] ++
    tlsRecordBytes tlsRecordApplicationData (serverCert draws)

section Packet

variable (draws : HelloDraws) (hello : FakeTlsClientHello) (random : Block 32)

theorem length_serverHandshake :
    (serverHandshake draws hello random.bytes).length =
      4 + (34 + (serverHelloTail draws hello).length) := by
  simp only [serverHandshake, List.length_append, List.length_cons, List.length_nil,
    Block.length_bytes]
  omega

/-- The packet, split at the `random` field. -/
theorem serverPacket_eq : serverPacket draws hello random.bytes =
    helloHead 0x03 0x02 (34 + (serverHelloTail draws hello).length) ++ random.bytes ++
      (serverHelloTail draws hello ++ (tlsRecordBytes tlsRecordChangeCipherSpec [0x01] ++
        tlsRecordBytes tlsRecordApplicationData (serverCert draws))) := by
  rw [serverPacket, tlsRecordBytes, length_serverHandshake, helloHead, serverHandshake]
  simp only [List.append_assoc]

/-- The answer is the packet with the digest in the `random` field. -/
theorem buildFaketlsServerHello_eq (hmac : Hmac) (secret : Bytes) :
    buildFaketlsServerHello hmac draws secret hello = serverPacket draws hello
      (hmac secret (hello.random ++ serverPacket draws hello (List.replicate 32 0))).bytes := by
  have hbody : [0x03, 0x03] ++ List.replicate tlsDigestLen 0 ++
      [UInt8.ofNat hello.sessionId.length] ++ hello.sessionId ++ hello.cipherSuite ++
      [0x00, 0x00, 0x2e, 0x00, 0x2b, 0x00, 0x02, 0x03, 0x04, 0x00, 0x33, 0x00, 0x24, 0x00, 0x1d,
        0x00, 0x20] ++ draws.keyShare.bytes =
      [0x03, 0x03] ++ List.replicate 32 0 ++ serverHelloTail draws hello := by
    simp only [serverHelloTail, tlsDigestLen, List.append_assoc]
  have hlen : ([0x03, 0x03] ++ List.replicate 32 (0 : UInt8) ++
      serverHelloTail draws hello).length = 34 + (serverHelloTail draws hello).length := by
    rw [List.length_append]
    rfl
  set zeros : Block 32 := ⟨List.replicate 32 0, List.length_replicate⟩
  have hpacket : serverPacket draws hello zeros.bytes = _ := serverPacket_eq draws hello zeros
  have htake : (serverPacket draws hello (List.replicate 32 0)).take 11 =
      helloHead 0x03 0x02 (34 + (serverHelloTail draws hello).length) := by
    rw [hpacket, List.append_assoc, List.take_left' (length_helloHead _ _)]
  have hdrop : (serverPacket draws hello (List.replicate 32 0)).drop (11 + tlsDigestLen) =
      serverHelloTail draws hello ++ (tlsRecordBytes tlsRecordChangeCipherSpec [0x01] ++
        tlsRecordBytes tlsRecordApplicationData (serverCert draws)) := by
    rw [hpacket, List.drop_left']
    rw [List.length_append, length_helloHead, zeros.length_bytes, tlsDigestLen]
  rw [buildFaketlsServerHello, hbody, hlen, serverPacket_eq, ← htake, ← hdrop]
  rfl

/-- What the parser has checked is short. -/
theorem length_serverHelloTail_le {hmac : Hmac} {record secret : Bytes}
    (hparse : parseFaketlsClientHello hmac record secret = some hello) :
    (serverHelloTail draws hello).length ≤ 307 ∧ hello.sessionId.length < 256 := by
  obtain ⟨p, -, hsession, -, hsuite⟩ := (acceptedHello_of_parse hparse).layout
  have hid := p.sessionId_lt
  have hshort : hello.cipherSuite.length ≤ 2 := by
    rw [hsuite, List.length_take]
    omega
  rw [← hsession] at hid
  refine ⟨?_, hid⟩
  simp only [serverHelloTail, List.length_append, List.length_cons, List.length_nil,
    Block.length_bytes]
  omega

theorem length_serverCert_le : (serverCert draws).length ≤ 4115 := by
  rw [serverCert, List.length_map, List.length_range]
  omega

/-- The client stops behind the third record. -/
theorem drain_serverPacket (hshort : (serverHelloTail draws hello).length ≤ 307) (rest : Bytes) :
    drainFaketlsServerHello (serverPacket draws hello random.bytes ++ rest) = (true, rest) := by
  have hhandshake := length_serverHandshake draws hello random
  have hcert := length_serverCert_le draws
  have hpacket : serverPacket draws hello random.bytes ++ rest =
      [(tlsRecordHandshake, serverHandshake draws hello random.bytes),
        (tlsRecordChangeCipherSpec, [0x01])].flatMap (fun r => tlsRecordBytes r.1 r.2) ++
        (tlsRecordBytes tlsRecordApplicationData (serverCert draws) ++ rest) := by
    simp only [serverPacket, List.flatMap_cons, List.flatMap_nil, List.append_nil,
      List.append_assoc]
  rw [drainFaketlsServerHello, hpacket]
  have hmax : tlsMaxRecordPayload = 16384 := rfl
  refine drainRecords_append _ _ _ _ (show 2 < 20 by decide) ?_ ?_ (by omega)
  · rintro r (_ | ⟨_, _ | ⟨_, ⟨⟩⟩⟩)
    · exact .inl rfl
    · exact .inr rfl
  · rintro r (_ | ⟨_, _ | ⟨_, ⟨⟩⟩⟩)
    · change (serverHandshake draws hello random.bytes).length ≤ _
      omega
    · decide

/-- The length fields of the records. -/
theorem framed_serverPacket (hshort : (serverHelloTail draws hello).length ≤ 307) :
    Framed (serverPacket draws hello random.bytes)
      [(tlsRecordHandshake, serverHandshake draws hello random.bytes),
        (tlsRecordChangeCipherSpec, [0x01]), (tlsRecordApplicationData, serverCert draws)] := by
  have hhandshake := length_serverHandshake draws hello random
  have hcert := length_serverCert_le draws
  have hlast := framed_tlsRecordBytes tlsRecordApplicationData
    (show (serverCert draws).length < 65536 by omega) .nil
  rw [List.append_nil] at hlast
  rw [serverPacket, List.append_assoc]
  exact framed_tlsRecordBytes _ (by omega) (framed_tlsRecordBytes _ (by decide) hlast)

/-- The length field of the handshake. -/
theorem u24At_serverHandshake (hshort : (serverHelloTail draws hello).length ≤ 307) :
    (serverHandshake draws hello random.bytes).length =
      4 + u24At (serverHandshake draws hello random.bytes) 1 := by
  set n := 34 + (serverHelloTail draws hello).length with hn
  have hfield : (serverHandshake draws hello random.bytes).drop 1 =
      [UInt8.ofNat (n / 65536), UInt8.ofNat (n / 256), UInt8.ofNat n] ++ _ := rfl
  rw [u24At_of_drop hfield (by omega), length_serverHandshake]

/-- The session id. -/
theorem sessionId_serverPacket (hid : hello.sessionId.length < 256) :
    ((serverPacket draws hello random.bytes).getD 43 0).toNat = hello.sessionId.length ∧
      ((serverPacket draws hello random.bytes).drop 44).take hello.sessionId.length =
        hello.sessionId := by
  have h₀ := serverPacket_eq draws hello random
  rw [List.append_assoc, serverHelloTail] at h₀
  have h₁₁ := drop_step (List.drop_zero.trans h₀) (length_helloHead _ _)
  have h₄₃ : (serverPacket draws hello random.bytes).drop 43 = _ :=
    drop_step h₁₁ random.length_bytes
  simp only [List.append_assoc, List.cons_append, List.nil_append] at h₄₃
  have h₄₄ := drop_step_cons h₄₃
  refine ⟨?_, take_of_drop h₄₄ rfl⟩
  rw [getD_of_drop h₄₃, toNat_ofNat_of_lt hid]

/-- The `random` field, and the packet with it zeroed. -/
theorem random_serverPacket :
    ((serverPacket draws hello random.bytes).drop 11).take 32 = random.bytes ∧
      zeroedRandom (serverPacket draws hello random.bytes) =
        serverPacket draws hello (List.replicate 32 0) := by
  have hzeros : serverPacket draws hello (List.replicate 32 0) = _ :=
    serverPacket_eq draws hello ⟨List.replicate 32 0, List.length_replicate⟩
  rw [hzeros, serverPacket_eq, random_helloHead, zeroedRandom_helloHead]
  exact ⟨rfl, rfl⟩

end Packet

/-- **The fake handshake is drained exactly.** For every accepted ClientHello, whatever the secret
and the random draws: the client takes the answer for a complete handshake and leaves what follows
it; the length fields of the records and of the handshake are the lengths of what they frame; the
session id is echoed; and the `random` field is the digest of the packet with that field zeroed,
behind the one of the ClientHello. -/
theorem serverHello_drained (hmac : Hmac) (draws : HelloDraws) (record signedWith : Bytes)
    (hello : FakeTlsClientHello)
    (hparse : parseFaketlsClientHello hmac record signedWith = some hello) (secret : Bytes) :
    let packet := buildFaketlsServerHello hmac draws secret hello
    (∀ rest, drainFaketlsServerHello (packet ++ rest) = (true, rest)) ∧
      (∃ handshake cert, Framed packet [(tlsRecordHandshake, handshake),
          (tlsRecordChangeCipherSpec, [0x01]), (tlsRecordApplicationData, cert)] ∧
        handshake.length = 4 + u24At handshake 1) ∧
      (packet.getD 43 0).toNat = hello.sessionId.length ∧
      (packet.drop 44).take hello.sessionId.length = hello.sessionId ∧
      (packet.drop 11).take 32 = (hmac secret (hello.random ++ zeroedRandom packet)).bytes := by
  obtain ⟨hshort, hid⟩ := length_serverHelloTail_le draws hello hparse
  dsimp only
  rw [buildFaketlsServerHello_eq]
  set digest := hmac secret (hello.random ++ serverPacket draws hello (List.replicate 32 0))
  obtain ⟨hlen, hecho⟩ := sessionId_serverPacket draws hello digest hid
  obtain ⟨hfield, hzeroed⟩ := random_serverPacket draws hello digest
  refine ⟨fun rest => drain_serverPacket draws hello digest hshort rest,
    ⟨_, _, framed_serverPacket draws hello digest hshort,
      u24At_serverHandshake draws hello digest hshort⟩, hlen, hecho, ?_⟩
  rw [hfield, hzeroed]

/-- A session behind the answer to a ClientHello with a real digest. -/
theorem serverHello_drained_sampleHello :
    ∃ hello, parseFaketlsClientHello Reference.hmacSha256 sampleHello sampleKey = some hello ∧
      drainFaketlsServerHello (buildFaketlsServerHello Reference.hmacSha256
        ⟨⟨List.replicate 32 5, List.length_replicate⟩, 3091, fun _ => 9⟩ sampleKey hello ++
          [0x17, 0x03, 0x03]) = (true, [0x17, 0x03, 0x03]) := by
  obtain ⟨-, secret, hello, -, -, hmem, hparse, -⟩ := sampleHello_valid
  obtain rfl := List.mem_singleton.mp hmem
  exact ⟨hello, hparse, (serverHello_drained _ _ _ _ hello hparse sampleKey).1 _⟩

end TgWsProxy
