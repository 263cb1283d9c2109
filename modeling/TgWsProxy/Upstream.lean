import TgWsProxy.Bridge.Accounts
import TgWsProxy.FakeTls.ClientHello

set_option relaxedAutoImplicit false
set_option autoImplicit false

/-!
# Connecting to an upstream proxy

`connect_mtproto_upstream` makes the program a client of another MTProto proxy: it sends a
handshake of its own, behind a fake TLS handshake if the secret asks for one. The other proxy may
be this program, whose listener runs `read_inbound_handshake`.

## Main definitions

* `TgWsProxy.connectMtprotoUpstream` — the client's side (`proxy.rs`).
* `TgWsProxy.upstreamPlan` — what the client computes before it waits for anything.
* `TgWsProxy.readInboundHandshake` — the listener's side (`proxy.rs`).
* `TgWsProxy.answerClientHello` — what the listener does with the first record.

## Main results

* `TgWsProxy.connectMtprotoUpstream_eq` — the client sends what it planned, and waits once.
* `TgWsProxy.acceptInboundFaketls_eq` — the listener answers the first record, then reads the init.
* `TgWsProxy.readTlsRecord_clientHello`, `readInit_handshake` — what the listener reads of it.
-/

namespace TgWsProxy

/-! ## The client -/

/-- The random draws and the clock of `connect_mtproto_upstream`. -/
structure UpstreamDraws where
  handshakes : List (Block 64)
  sessionId : Block 32
  timestamp : UInt32

/-- `UpstreamConnection`, with its streams: what is left of the other proxy's stream, what was written to it, the
ciphers of the session and its framing. -/
structure UpstreamStreams where
  rest : Bytes
  written : Bytes
  enc : AesCtr256
  dec : AesCtr256
  faketls : Bool

/-- `connect_mtproto_upstream`, where `connected` says whether the connection could be opened and
`writeOk k` whether write `k` succeeds. Draws that run out stand for a generator that never
returns. -/
def connectMtprotoUpstream (P : Primitives) (hex : HexCrate) (hmac : Hmac) (draws : UpstreamDraws)
    (connected : Bool) (writeOk : ℕ → Bool) (secretHex : Host) (dcIdx : Int16) (proto : ProtoTag)
    (stream : Bytes) : Except Slices.Panic (Option UpstreamStreams) :=
  match hex.decode secretHex with
  | none => .ok none
  | some secret =>
    let keyBytes := secretKey secret
    if !connected then .ok none
    else
      match generateClientHandshake P keyBytes dcIdx proto draws.handshakes with
      | none => .ok none
      | some (handshake, enc, dec) =>
        match faketlsHostname secret with
        | none =>
          if !writeOk 0 then .ok none
          else .ok (some ⟨stream, handshake.bytes, enc, dec, false⟩)
        | some hostname =>
          match fromUtf8 hostname with
          | none => .ok none
          | some hostname => do
            let clientHello ← signFaketlsClientHello hmac draws.timestamp
              (buildFaketlsClientHello draws.sessionId hostname) keyBytes
            if !writeOk 0 then return none
            else
              let drained := drainFaketlsServerHello stream
              if !drained.1 then return none
              else if !writeOk 1 then return none
              else return some ⟨drained.2, clientHello ++ writeTlsAppdata handshake.bytes, enc, dec,
                true⟩

/-- What a client of another proxy is going to send, and the ciphers of its session. -/
structure UpstreamPlan where
  handshake : Block 64
  enc : AesCtr256
  dec : AesCtr256
  /-- Present if the secret asks for a fake TLS handshake. -/
  clientHello : Option Bytes

namespace UpstreamPlan

variable (plan : UpstreamPlan)

/-- The handshake as it goes out, in a record behind a ClientHello. -/
def init : Bytes :=
  match plan.clientHello with
  | none => plan.handshake.bytes
  | some _ => writeTlsAppdata plan.handshake.bytes

/-- Everything that goes out before the session. -/
def preface : Bytes := plan.clientHello.getD [] ++ plan.init

end UpstreamPlan

/-- What `connect_mtproto_upstream` computes. -/
def upstreamPlan (P : Primitives) (hex : HexCrate) (hmac : Hmac) (draws : UpstreamDraws)
    (secretHex : Host) (dcIdx : Int16) (proto : ProtoTag) :
    Except Slices.Panic (Option UpstreamPlan) :=
  match hex.decode secretHex with
  | none => .ok none
  | some secret =>
    match generateClientHandshake P (secretKey secret) dcIdx proto draws.handshakes with
    | none => .ok none
    | some (handshake, enc, dec) =>
      match faketlsHostname secret with
      | none => .ok (some ⟨handshake, enc, dec, none⟩)
      | some hostname =>
        match fromUtf8 hostname with
        | none => .ok none
        | some hostname => do
          let clientHello ← signFaketlsClientHello hmac draws.timestamp
            (buildFaketlsClientHello draws.sessionId hostname) (secretKey secret)
          return some ⟨handshake, enc, dec, some clientHello⟩

/-- **The client in two steps.** It computes what it is going to send; behind a ClientHello it
waits for the answer before it sends the handshake. -/
theorem connectMtprotoUpstream_eq (P : Primitives) (hex : HexCrate) (hmac : Hmac)
    (draws : UpstreamDraws) (writeOk : ℕ → Bool) (secretHex : Host) (dcIdx : Int16)
    (proto : ProtoTag) (stream : Bytes) :
    connectMtprotoUpstream P hex hmac draws true writeOk secretHex dcIdx proto stream = do
      match ← upstreamPlan P hex hmac draws secretHex dcIdx proto with
      | none => return none
      | some plan =>
        if !writeOk 0 then return none
        else
          match plan.clientHello with
          | none => return some ⟨stream, plan.preface, plan.enc, plan.dec, false⟩
          | some _ =>
            let drained := drainFaketlsServerHello stream
            if !drained.1 then return none
            else if !writeOk 1 then return none
            else return some ⟨drained.2, plan.preface, plan.enc, plan.dec, true⟩ := by
  rw [connectMtprotoUpstream, upstreamPlan]
  cases hex.decode secretHex with
  | none => rfl
  | some secret =>
    simp only [Bool.not_true, Bool.false_eq_true, if_false]
    cases generateClientHandshake P (secretKey secret) dcIdx proto draws.handshakes with
    | none => rfl
    | some generated =>
      simp only
      cases faketlsHostname secret with
      | none => rfl
      | some hostname =>
        simp only
        cases fromUtf8 hostname with
        | none => rfl
        | some hostname =>
          simp only
          cases signFaketlsClientHello hmac draws.timestamp
            (buildFaketlsClientHello draws.sessionId hostname) (secretKey secret) <;> rfl

/-! ## The listener -/

/-- What `accept_inbound_faketls` answers to the first record, if anything. -/
def answerClientHello (hmac : Hmac) (draws : HelloDraws) (secrets : List Bytes)
    (expectedDomain : Host) (record : UInt8 × Bytes × Bytes) : Option Bytes :=
  let (recordType, version, payload) := record
  if recordType ≠ tlsRecordHandshake ∨ version ≠ [0x03, 0x01] then none
  else
    let record := [recordType] ++ version ++ toBeBytes payload.length ++ payload
    match secrets.findSome? fun secret =>
        (parseFaketlsClientHello hmac record secret).map fun hello => (hello, secret) with
    | none => none
    | some (hello, matchedSecret) =>
      if hello.hostname ≠ some expectedDomain then none
      else some (buildFaketlsServerHello hmac draws matchedSecret hello)

/-- **The listener in two steps.** It answers the first record, and reads the init from what comes
behind it. -/
theorem acceptInboundFaketls_eq (hmac : Hmac) (draws : HelloDraws) (writeOk : Bool)
    (secrets : List Bytes) (domain : Host) (stream : Bytes) :
    acceptInboundFaketls hmac draws writeOk secrets domain stream =
      match readTlsRecord tlsReadBufLen stream with
      | (none, rest) => ⟨none, rest, []⟩
      | (some record, rest) =>
        match answerClientHello hmac draws secrets domain record with
        | none => ⟨none, rest, []⟩
        | some serverHello =>
          if !writeOk then ⟨none, rest, []⟩
          else ⟨(readInit zeroInit 0 rest).1, (readInit zeroInit 0 rest).2, serverHello⟩ := by
  rw [acceptInboundFaketls]
  cases hread : readTlsRecord tlsReadBufLen stream with
  | mk found rest =>
    cases found with
    | none => rfl
    | some record =>
      obtain ⟨recordType, version, payload⟩ := record
      simp only [answerClientHello]
      by_cases htype : recordType ≠ tlsRecordHandshake ∨ version ≠ [0x03, 0x01]
      · rw [if_pos htype, if_pos htype]
      rw [if_neg htype, if_neg htype]
      cases hfound : secrets.findSome? fun secret =>
          (parseFaketlsClientHello hmac ([recordType] ++ version ++ toBeBytes payload.length ++
            payload) secret).map fun hello => (hello, secret) with
      | none => rfl
      | some found =>
        by_cases hhost : found.1.hostname ≠ some domain
        · simp only [if_pos hhost]
        · simp only [if_neg hhost]

/-- The init of a listener that is not in FakeTLS mode: `read_exact` into 64 bytes. -/
def readPlainInit (stream : Bytes) : Option (Block 64 × Bytes) × Bytes :=
  if h : 64 ≤ stream.length then
    (some (⟨stream.take 64, by simp; omega⟩, []), stream.drop 64)
  else (none, [])

/-- `read_inbound_handshake`. -/
def readInboundHandshake (hmac : Hmac) (draws : HelloDraws) (writeOk : Bool) (secrets : List Bytes)
    (faketlsDomain : Option Host) (stream : Bytes) : InboundHandshake :=
  match faketlsDomain with
  | some domain => acceptInboundFaketls hmac draws writeOk secrets domain stream
  | none => ⟨(readPlainInit stream).1, (readPlainInit stream).2, []⟩

/-! ## What the two say to each other -/

/-- The plain init, whatever comes behind it. -/
theorem readPlainInit_append (handshake : Block 64) (more : Bytes) :
    readPlainInit (handshake.bytes ++ more) = (some (handshake, []), more) := by
  have hlen : 64 ≤ (handshake.bytes ++ more).length := by simp
  have htake : (handshake.bytes ++ more).take 64 = handshake.bytes :=
    List.take_left' handshake.length_bytes
  rw [readPlainInit, dif_pos hlen]
  simp only [htake, List.drop_left' handshake.length_bytes]

theorem readPlainInit_stable {stream rest : Bytes} {found : Block 64 × Bytes}
    (h : readPlainInit stream = (some found, rest)) (more : Bytes) :
    readPlainInit (stream ++ more) = (some found, rest ++ more) := by
  unfold readPlainInit at h ⊢
  split_ifs at h with hlen
  · have hlen' : 64 ≤ (stream ++ more).length := by rw [List.length_append]; omega
    cases h
    rw [dif_pos hlen']
    simp only [List.take_append_of_le_length hlen, List.drop_append_of_le_length hlen]
  · cases h

/-- A handshake in one record is read as the init. -/
theorem readInit_handshake (handshake : Block 64) (more : Bytes) :
    readInit zeroInit 0 (writeTlsAppdata handshake.bytes ++ more) =
      (some (handshake, []), more) := by
  have hlen : handshake.bytes.length = 64 := handshake.length_bytes
  set r : TlsRecord := ⟨.applicationData, (0x03, 0x03), handshake.bytes⟩ with hr
  have hwrite : writeTlsAppdata handshake.bytes = r.wire := by
    have hstop : min (0 + tlsMaxAppdataWrite) handshake.bytes.length = handshake.bytes.length := by
      rw [hlen]
      decide
    have hchunk : (handshake.bytes.drop 0).take (handshake.bytes.length - 0) = handshake.bytes := by
      rw [List.drop_zero, Nat.sub_zero, List.take_length]
    have hend : writeTlsAppdataFrom handshake.bytes handshake.bytes.length = [] := by
      rw [writeTlsAppdataFrom, dif_neg (lt_irrefl _)]
    rw [writeTlsAppdata, writeTlsAppdataFrom, dif_pos (by omega)]
    simp only [hstop, hchunk, hend, List.append_nil]
    rfl
  have hfits : r.Fits := by
    change handshake.bytes.length ≤ _
    rw [hlen]
    decide
  have hread : readTlsAppdata tlsReadBufLen (r.wire ++ more) = (handshake.bytes, more) :=
    readTlsAppdata_applicationData le_rfl hfits more rfl
  have hne : handshake.bytes ≠ [] := by
    intro hnil
    rw [hnil] at hlen
    cases hlen
  rw [hwrite, readInit_fits hread (by decide) hne (by omega), hlen, readInit, if_neg (by decide)]
  have hcopy := zeroInit.take_copyAt 0 handshake.bytes (by omega)
  rw [List.take_zero, List.nil_append, Nat.zero_add, hlen, List.take_of_length_le (by simp)]
    at hcopy
  rw [Block.ext hcopy]

/-- A record that is not too long is read whole. -/
theorem readTlsRecord_append (recordType high low : UInt8) {payload : Bytes}
    (hlen : payload.length ≤ tlsReadBufLen) (more : Bytes) :
    readTlsRecord tlsReadBufLen
        ([recordType] ++ [high, low] ++ toBeBytes payload.length ++ payload ++ more) =
      (some (recordType, [high, low], payload), more) := by
  have hheader : readExact 5
      ([recordType] ++ [high, low] ++ toBeBytes payload.length ++ payload ++ more) =
        (some ([recordType] ++ [high, low] ++ toBeBytes payload.length), payload ++ more) := by
    rw [List.append_assoc _ payload more]
    exact readExact_append (by simp) _
  have hfield : u16At ([recordType] ++ [high, low] ++ toBeBytes payload.length) 3 =
      payload.length := fromBeBytes_toBeBytes (lt_of_le_tlsReadBufLen hlen)
  rw [readTlsRecord, hheader]
  simp only [hfield, if_neg (not_lt.mpr hlen), readExact_append rfl]
  rfl

section ClientHello

variable {hostname : Host} (hfits : (asBytes hostname).length ≤ 16465) (sessionId : Block 32)

include hfits

/-- A signed ClientHello is read as one record, and parses under the key it was signed with. -/
theorem readTlsRecord_clientHello (hmac : Hmac) (timestamp : UInt32) (key : Bytes) :
    ∃ signed payload, signFaketlsClientHello hmac timestamp
        (buildFaketlsClientHello sessionId hostname) key = .ok signed ∧
      signed = [tlsRecordHandshake] ++ [0x03, 0x01] ++ toBeBytes payload.length ++ payload ∧
      (∀ more, readTlsRecord tlsReadBufLen (signed ++ more) =
        (some (tlsRecordHandshake, [0x03, 0x01], payload), more)) ∧
      ∃ random, parseFaketlsClientHello hmac signed key =
        some ⟨random, sessionId.bytes, [0x13, 0x01], some hostname⟩ := by
  have hlong : (asBytes hostname).length ≤ 65360 := by omega
  set random := signedRandom (hmac key (clientHelloRecord sessionId hostname
    (List.replicate 32 0))) timestamp with hsigned
  have hsign : signFaketlsClientHello hmac timestamp (buildFaketlsClientHello sessionId hostname)
      key = .ok (clientHelloRecord sessionId hostname random.bytes) := by
    rw [buildFaketlsClientHello_eq hlong]
    exact signFaketlsClientHello_append hmac timestamp key (length_helloHead _ _)
      List.length_replicate
  set n := 171 + (asBytes hostname).length with hn
  set payload : Bytes := [0x01] ++
    ([UInt8.ofNat (n / 65536), UInt8.ofNat (n / 256), UInt8.ofNat n] ++ [0x03, 0x03]) ++
    random.bytes ++ helloTail sessionId hostname with hpayload
  have hlen : payload.length = 4 + n := by
    simp only [hpayload, helloTail, List.length_append, List.length_cons, List.length_nil,
      Block.length_bytes, length_toBeBytes, length_clientExtensions, clientCipherSuites]
    omega
  have hrecord : clientHelloRecord sessionId hostname random.bytes =
      [tlsRecordHandshake] ++ [0x03, 0x01] ++ toBeBytes payload.length ++ payload := by
    rw [hlen, clientHelloRecord, helloHead, ← hn]
    simp only [hpayload, List.append_assoc, List.cons_append, List.nil_append]
  refine ⟨_, payload, hsign, hrecord, fun more => ?_, random.bytes, ?_⟩
  · rw [hrecord]
    refine readTlsRecord_append _ _ _ ?_ more
    rw [hlen, tlsReadBufLen, tlsMaxRecordPayload, tlsReadHeadroom]
    omega
  · refine parseFaketlsClientHello_random hlong sessionId hmac key random ?_
    rw [hsigned, signedRandom, List.take_left' (by simp)]

end ClientHello

end TgWsProxy
