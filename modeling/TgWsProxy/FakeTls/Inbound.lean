import TgWsProxy.Crypto.Reference
import TgWsProxy.FakeTls.Records
import TgWsProxy.Links

set_option relaxedAutoImplicit false
set_option autoImplicit false

/-!
# The inbound FakeTLS handshake

The listener in FakeTLS mode: the client's ClientHello is authenticated by an HMAC in its `random`
field, answered with a ServerHello, and the 64-byte MTProto init is put together from Application
Data records. What a record holds beyond it is kept for the reader of the session.

## Main definitions

* `TgWsProxy.parseFaketlsClientHello`, `buildFaketlsServerHello` — the two hellos (`faketls.rs`).
* `TgWsProxy.acceptInboundFaketls` — the handshake (`proxy.rs`).
* `TgWsProxy.ClientReader` — the reader of the session, with the bytes left over.
* `TgWsProxy.ValidClientHello` — a ClientHello that the listener answers.

## Main results

* `TgWsProxy.readInit_records` — the init and the leftover, however the bytes are cut.
* `TgWsProxy.inbound_reassembly` — nothing is lost or duplicated between the handshake and the
  session.

## Design

HMAC-SHA256 and the random draws of the ServerHello are parameters. Slices are taken behind the
length checks of the source.
-/

namespace TgWsProxy

/-- `HMAC-SHA256` under a key. -/
abbrev Hmac := Bytes → Bytes → Block 32

/-! ## The ClientHello -/

def tlsDigestLen : ℕ := 32
def tlsHandshakeClientHello : UInt8 := 0x01
def tlsHandshakeServerHello : UInt8 := 0x02
def tlsClientRandomOffsetInHandshake : ℕ := 6

/-- What the listener reads from a ClientHello. -/
structure FakeTlsClientHello where
  random : Bytes
  sessionId : Bytes
  cipherSuite : Bytes
  hostname : Option Host
  deriving DecidableEq

/-- A big-endian 16-bit number in a slice. -/
def u16At (bytes : Bytes) (i : ℕ) : ℕ := fromBeBytes (bytes.getD i 0) (bytes.getD (i + 1) 0)

/-- `parse_sni_extension`: the hostname of the first server-name extension long enough to have
one. -/
def parseSniExtension (extensions : Bytes) : Option Host :=
  if _hlong : extensions.length < 4 then none
  else
    let extType := u16At extensions 0
    let extLen := u16At extensions 2
    if (extensions.drop 4).length < extLen then none
    else
      let ext := (extensions.drop 4).take extLen
      if extType ≠ 0 ∨ ext.length < 5 then parseSniExtension ((extensions.drop 4).drop extLen)
      else
        let listLen := u16At ext 0
        if ext.length < 2 + listLen ∨ listLen < 3 ∨ ext.getD 2 0 ≠ 0 then none
        else
          let hostLen := u16At ext 3
          if ext.length < 5 + hostLen then none
          else fromUtf8 ((ext.drop 5).take hostLen)
termination_by extensions.length
decreasing_by
  simp only [List.length_drop]
  omega

/-- The part of `parse_faketls_client_hello` behind the digest: session id, first cipher suite and
hostname of the ClientHello body. -/
def parseHelloBody (random body : Bytes) : Option FakeTlsClientHello :=
  if body.length < 2 + 32 + 1 then none
  else
    let sessionStart := 35
    let sessionEnd := sessionStart + (body.getD 34 0).toNat
    if body.length < sessionEnd + 2 then none
    else
      let cipherSuitesLen := u16At body sessionEnd
      if cipherSuitesLen < 2 ∨ body.length < sessionEnd + 2 + cipherSuitesLen + 1 then none
      else do
        let p := sessionEnd + 2 + cipherSuitesLen
        let compressionLen ← body[p]?
        let p := p + 1 + compressionLen.toNat
        if body.length < p + 2 then none
        else
          let extensionsLen := u16At body p
          let p := p + 2
          if body.length < p + extensionsLen then none
          else
            return {
              random
              sessionId := (body.drop sessionStart).take (sessionEnd - sessionStart)
              cipherSuite := (body.drop (sessionEnd + 2)).take 2
              hostname := parseSniExtension ((body.drop p).take extensionsLen) }

/-- `parse_faketls_client_hello`: a well-formed record whose `random` field carries the digest of
the record with that field zeroed. -/
def parseFaketlsClientHello (hmac : Hmac) (record secret : Bytes) : Option FakeTlsClientHello :=
  if record.length < 5 + 4 + tlsClientRandomOffsetInHandshake + tlsDigestLen then none
  else if record.getD 0 0 ≠ tlsRecordHandshake then none
  else if record.length ≠ 5 + u16At record 3 then none
  else
    let handshake := record.drop 5
    if handshake.length < 4 ∨ handshake.getD 0 0 ≠ tlsHandshakeClientHello then none
    else
      let handshakeLen := 65536 * (handshake.getD 1 0).toNat + u16At handshake 2
      if handshake.length ≠ 4 + handshakeLen then none
      else
        let randomOffset := 5 + tlsClientRandomOffsetInHandshake
        let clientRandom := (record.drop randomOffset).take tlsDigestLen
        let signed := record.take randomOffset ++ List.replicate tlsDigestLen 0 ++
          record.drop (randomOffset + tlsDigestLen)
        let xored := List.zipWith (· ^^^ ·) (hmac secret signed).bytes clientRandom
        if (xored.take 28).any (· != 0) then none
        else parseHelloBody clientRandom (handshake.drop 4)

/-! ## The ServerHello -/

/-- The random draws of a ServerHello. -/
structure HelloDraws where
  keyShare : Block 32
  certLen : UInt32
  cert : ℕ → UInt8

/-- `push_tls_record`. -/
def tlsRecordBytes (recordType : UInt8) (payload : Bytes) : Bytes :=
  [recordType, 0x03, 0x03] ++ toBeBytes payload.length ++ payload

/-- `build_faketls_server_hello`: ServerHello, ChangeCipherSpec and a record of random bytes in
place of a certificate, with a digest in the `random` field. -/
def buildFaketlsServerHello (hmac : Hmac) (draws : HelloDraws) (secret : Bytes)
    (hello : FakeTlsClientHello) : Bytes :=
  let serverBody : Bytes := [0x03, 0x03] ++ List.replicate tlsDigestLen 0 ++
    [UInt8.ofNat hello.sessionId.length] ++ hello.sessionId ++ hello.cipherSuite ++
    [0x00, 0x00, 0x2e, 0x00, 0x2b, 0x00, 0x02, 0x03, 0x04, 0x00, 0x33, 0x00, 0x24, 0x00, 0x1d,
      0x00, 0x20] ++ draws.keyShare.bytes
  let handshake : Bytes := [tlsHandshakeServerHello, UInt8.ofNat (serverBody.length / 65536),
    UInt8.ofNat (serverBody.length / 256), UInt8.ofNat serverBody.length] ++ serverBody
  let cert := (List.range (1024 + draws.certLen.toNat % 3092)).map draws.cert
  let packet := tlsRecordBytes tlsRecordHandshake handshake ++
    tlsRecordBytes tlsRecordChangeCipherSpec [0x01] ++
    tlsRecordBytes tlsRecordApplicationData cert
  packet.take 11 ++ (hmac secret (hello.random ++ packet)).bytes ++ packet.drop (11 + tlsDigestLen)

/-! ## The handshake -/

/-- `read_tls_record`: type, version and payload of the next record, or `none` where the source
returns `Ok(None)` or an error. -/
def readTlsRecord (maxPayloadLen : ℕ) (stream : Bytes) :
    Option (UInt8 × Bytes × Bytes) × Bytes :=
  match readExact 5 stream with
  | (none, rest) => (none, rest)
  | (some header, rest) =>
    let payloadLen := u16At header 3
    if payloadLen > maxPayloadLen then (none, rest)
    else
      match readExact payloadLen rest with
      | (none, rest) => (none, rest)
      | (some payload, rest) =>
        (some (header.getD 0 0, [header.getD 1 0, header.getD 2 0], payload), rest)

/-- `a[i .. i + data.len()].copy_from_slice(data)`; a slice that does not fit is not copied. -/
def Block.copyAt {n : ℕ} (a : Block n) (i : ℕ) (data : Bytes) : Block n :=
  if h : i + data.length ≤ n then
    ⟨a.bytes.take i ++ data ++ a.bytes.drop (i + data.length), by simp; omega⟩
  else a

/-- `split_mtproto_init_and_pending`. -/
def splitMtprotoInitAndPending (data : Bytes) : Option (Block 64 × Bytes) :=
  if h : data.length < 64 then none
  else some (⟨data.take 64, by simp; omega⟩, data.drop 64)

/-- The loop of `accept_inbound_faketls`, with `filled` bytes of the init in place: the init and
the bytes beyond it, and the rest of the stream. -/
def readInit (buf : Block 64) (filled : ℕ) (stream : Bytes) : Option (Block 64 × Bytes) × Bytes :=
  if filled < 64 then
    let chunk := (readTlsAppdata tlsReadBufLen stream).1
    let rest := (readTlsAppdata tlsReadBufLen stream).2
    if _hend : chunk = [] then (none, rest)
    else
      let take := min chunk.length (64 - filled)
      let buf' := buf.copyAt filled (chunk.take take)
      if take ≠ chunk.length then
        if filled = 0 then (splitMtprotoInitAndPending chunk, rest)
        else (some (buf', chunk.drop take), rest)
      else readInit buf' (filled + take) rest
  else (some (buf, []), stream)
termination_by stream.length
decreasing_by exact length_readTlsAppdata tlsReadBufLen stream _hend

/-- What an inbound handshake comes to: the init with the bytes beyond it, what is left of the
client's stream, and what was written to the client. -/
structure InboundHandshake where
  init : Option (Block 64 × Bytes)
  rest : Bytes
  written : Bytes

/-- The array `[0u8; 64]`. -/
def zeroInit : Block 64 := ⟨List.replicate 64 0, List.length_replicate⟩

/-- `accept_inbound_faketls`, where `writeOk` says whether the ServerHello could be written. -/
def acceptInboundFaketls (hmac : Hmac) (draws : HelloDraws) (writeOk : Bool)
    (secrets : List Bytes) (expectedDomain : Host) (stream : Bytes) : InboundHandshake :=
  match readTlsRecord tlsReadBufLen stream with
  | (none, rest) => ⟨none, rest, []⟩
  | (some (recordType, version, payload), rest) =>
    if recordType ≠ tlsRecordHandshake ∨ version ≠ [0x03, 0x01] then ⟨none, rest, []⟩
    else
      let record := [recordType] ++ version ++ toBeBytes payload.length ++ payload
      match secrets.findSome? fun secret =>
          (parseFaketlsClientHello hmac record secret).map fun hello => (hello, secret) with
      | none => ⟨none, rest, []⟩
      | some (hello, matchedSecret) =>
        if hello.hostname ≠ some expectedDomain then ⟨none, rest, []⟩
        else
          let serverHello := buildFaketlsServerHello hmac draws matchedSecret hello
          if !writeOk then ⟨none, rest, []⟩
          else
            let out := readInit zeroInit 0 rest
            ⟨out.1, out.2, serverHello⟩

/-! ## The reader of the session -/

/-- `ClientReader`, over what is left of the client's stream. -/
inductive ClientReader
  | plain (stream : Bytes)
  | fakeTls (stream pending : Bytes)

/-- `ClientReader::read` into a buffer of `bufLen` bytes; a plain socket hands out what has
arrived, `avail` bytes but at least one unless the stream has ended. -/
def ClientReader.read (avail bufLen : ℕ) : ClientReader → Bytes × ClientReader
  | .plain stream =>
    let n := min bufLen (max 1 avail)
    (stream.take n, .plain (stream.drop n))
  | .fakeTls stream pending =>
    if pending ≠ [] then
      let n := min bufLen pending.length
      (pending.take n, .fakeTls stream (pending.drop n))
    else
      let out := readTlsAppdata bufLen stream
      (out.1, .fakeTls out.2 pending)

/-- Reads into buffers of the given sizes, one after another. -/
def ClientReader.reads (avail : ℕ) : List ℕ → ClientReader → List Bytes
  | [], _ => []
  | bufLen :: bufLens, reader =>
    (reader.read avail bufLen).1 :: (reader.read avail bufLen).2.reads avail bufLens

/-! ## One read on a stream of records -/

/-- Records as a client sends them: none too long, and no empty Application Data. -/
def Sendable (rs : List TlsRecord) : Prop := ∀ r ∈ rs, r.Fits ∧ ¬ r.IsEmptyData

theorem wireOf_cons (r : TlsRecord) (rs : List TlsRecord) :
    wireOf (r :: rs) = r.wire ++ wireOf rs := List.flatMap_cons

theorem dataOf_cons (r : TlsRecord) (rs : List TlsRecord) :
    dataOf (r :: rs) = r.data ++ dataOf rs := List.flatMap_cons

/-- A read takes the next piece of the data off the records, and is empty only at the end. -/
theorem readTlsAppdata_wireOf {bufLen : ℕ} (hbuf : tlsReadBufLen ≤ bufLen) {rs : List TlsRecord}
    (hrs : Sendable rs) :
    ∃ rs', rs' <:+ rs ∧ (readTlsAppdata bufLen (wireOf rs)).2 = wireOf rs' ∧
      dataOf rs = (readTlsAppdata bufLen (wireOf rs)).1 ++ dataOf rs' ∧
      ((readTlsAppdata bufLen (wireOf rs)).1 = [] → rs' = []) ∧
      ((readTlsAppdata bufLen (wireOf rs)).1 ≠ [] → rs'.length < rs.length) := by
  induction rs with
  | nil =>
    have hread : readTlsAppdata bufLen (wireOf []) = ([], []) := readTlsAppdata_nil bufLen
    refine ⟨[], List.suffix_rfl, ?_, ?_, fun _ => rfl, fun h => ?_⟩
    · rw [hread]; rfl
    · rw [hread]; rfl
    · exact absurd (by rw [hread]) h
  | cons r rs ih =>
    obtain ⟨hfits, hnonempty⟩ := hrs r List.mem_cons_self
    cases htype : r.recordType with
    | applicationData =>
      have hread : readTlsAppdata bufLen (wireOf (r :: rs)) = (r.payload, wireOf rs) := by
        rw [wireOf_cons]
        exact readTlsAppdata_applicationData hbuf hfits _ htype
      rw [hread]
      refine ⟨rs, List.suffix_cons r rs, rfl, ?_, fun h => ?_, fun _ => ?_⟩
      · rw [dataOf_cons, TlsRecord.data, htype]
      · exact absurd ⟨htype, h⟩ hnonempty
      · simp
    | changeCipherSpec =>
      have hread : readTlsAppdata bufLen (wireOf (r :: rs)) =
          readTlsAppdata bufLen (wireOf rs) := by
        rw [wireOf_cons]
        exact readTlsAppdata_changeCipherSpec hbuf hfits _ htype
      obtain ⟨rs', hsuffix, hrest, hdata, hend, hlt⟩ :=
        ih fun r hr => hrs r (List.mem_cons_of_mem _ hr)
      rw [hread]
      refine ⟨rs', hsuffix.trans (List.suffix_cons r rs), hrest, ?_, hend, fun h => ?_⟩
      · rw [dataOf_cons, TlsRecord.data, htype, ← hdata]
        rfl
      · exact (hlt h).trans (Nat.lt_succ_self _)

/-! ## The init -/

/-- The bytes in place after copying one more piece behind the first `i`. -/
theorem Block.take_copyAt {n : ℕ} (a : Block n) (i : ℕ) (data : Bytes)
    (h : i + data.length ≤ n) :
    (a.copyAt i data).bytes.take (i + data.length) = a.bytes.take i ++ data := by
  rw [Block.copyAt, dif_pos h]
  exact List.take_left' (by simp; omega)

section Turn

variable {buf : Block 64} {filled : ℕ} {stream chunk rest : Bytes}

/-- The stream ends before the init is complete. -/
theorem readInit_ended (hread : readTlsAppdata tlsReadBufLen stream = ([], rest))
    (hfull : filled < 64) : readInit buf filled stream = (none, rest) := by
  rw [readInit, if_pos hfull]
  simp only [hread, dif_pos]

/-- A read that fits goes into the init. -/
theorem readInit_fits (hread : readTlsAppdata tlsReadBufLen stream = (chunk, rest))
    (hfull : filled < 64) (hempty : chunk ≠ []) (hroom : filled + chunk.length ≤ 64) :
    readInit buf filled stream =
      readInit (buf.copyAt filled chunk) (filled + chunk.length) rest := by
  have hmin : min chunk.length (64 - filled) = chunk.length := by omega
  rw [readInit, if_pos hfull]
  simp only [hread]
  rw [dif_neg hempty, hmin, if_neg (not_not.mpr rfl), List.take_length]

/-- A read that holds more than there is room for fills up the init, whether or not it is the
first one; the leftover is what it holds beyond. -/
theorem readInit_long (buf : Block 64)
    (hread : readTlsAppdata tlsReadBufLen stream = (chunk, rest))
    (hfull : filled < 64) (hlong : 64 - filled < chunk.length) :
    ∃ init, readInit buf filled stream = (some (init, chunk.drop (64 - filled)), rest) ∧
      init.bytes = buf.bytes.take filled ++ chunk.take (64 - filled) := by
  have hmin : min chunk.length (64 - filled) = 64 - filled := by omega
  have hempty : chunk ≠ [] := by
    rintro rfl
    simp at hlong
  rw [readInit, if_pos hfull]
  simp only [hread]
  rw [dif_neg hempty, hmin, if_pos (by omega)]
  by_cases hzero : filled = 0
  · subst hzero
    rw [if_pos rfl, splitMtprotoInitAndPending, dif_neg (by omega)]
    exact ⟨_, rfl, by simp⟩
  · rw [if_neg hzero]
    refine ⟨_, rfl, ?_⟩
    rw [← buf.take_copyAt filled (chunk.take (64 - filled)) (by simp; omega)]
    exact (List.take_of_length_le (by simp; omega)).symm

end Turn

/-- The first 64 bytes, when they end within a piece. -/
theorem take_filled_append {acc chunk rest : Bytes} (hacc : acc.length ≤ 64)
    (hlong : 64 - acc.length ≤ chunk.length) :
    (acc ++ (chunk ++ rest)).take 64 = acc ++ chunk.take (64 - acc.length) := by
  rw [List.take_append, List.take_of_length_le hacc, List.take_append_of_le_length hlong]

/-- What comes behind the first 64 bytes, when they end within a piece. -/
theorem drop_filled_append {acc chunk rest : Bytes} (hacc : acc.length ≤ 64)
    (hlong : 64 - acc.length ≤ chunk.length) :
    (acc ++ (chunk ++ rest)).drop 64 = chunk.drop (64 - acc.length) ++ rest := by
  rw [List.drop_append, List.drop_eq_nil_of_le hacc, List.nil_append,
    List.drop_append_of_le_length hlong]

/-- **The init and the leftover.** With the first `filled` bytes in place, the loop fills up the
init from the records and keeps what the last of them holds beyond it; if there is too little, it
fails.

**Proof sketch.** By induction on the number of records: a read takes the next piece of the data.
If it fits, it goes into the buffer. Otherwise the buffer is filled up, and the leftover is the
end of this piece, at both exits. -/
theorem readInit_records (n : ℕ) :
    ∀ (rs : List TlsRecord) (buf : Block 64) (filled : ℕ), rs.length = n → Sendable rs →
      filled ≤ 64 →
      (64 ≤ (buf.bytes.take filled ++ dataOf rs).length →
        ∃ init pending rs', readInit buf filled (wireOf rs) =
            (some (init, pending), wireOf rs') ∧ rs' <:+ rs ∧
          init.bytes = (buf.bytes.take filled ++ dataOf rs).take 64 ∧
          pending ++ dataOf rs' = (buf.bytes.take filled ++ dataOf rs).drop 64) ∧
      ((buf.bytes.take filled ++ dataOf rs).length < 64 →
        (readInit buf filled (wireOf rs)).1 = none) := by
  induction n using Nat.strong_induction_on with
  | _ n ih =>
    intro rs buf filled hn hrs hfilled
    have hacc : (buf.bytes.take filled).length = filled := by simp; omega
    by_cases hfull : filled < 64
    swap
    · -- the init is complete
      obtain rfl : filled = 64 := by omega
      have hbuf : buf.bytes.take 64 = buf.bytes := List.take_of_length_le (by simp)
      rw [readInit, if_neg hfull, hbuf]
      refine ⟨fun _ => ⟨buf, [], rs, rfl, List.suffix_rfl, ?_, ?_⟩, fun hlt => ?_⟩
      · exact (List.take_left' (by simp)).symm
      · exact (List.drop_left' (by simp)).symm
      · simp at hlt
    obtain ⟨rs', hsuffix, hrest, hdata, hend, hlt⟩ := readTlsAppdata_wireOf le_rfl hrs
    have hread : readTlsAppdata tlsReadBufLen (wireOf rs) =
        ((readTlsAppdata tlsReadBufLen (wireOf rs)).1, wireOf rs') := by rw [← hrest]
    generalize (readTlsAppdata tlsReadBufLen (wireOf rs)).1 = chunk at *
    rw [hdata]
    by_cases hempty : chunk = []
    · -- the stream has ended
      subst hempty
      rw [readInit_ended hread hfull, hend rfl]
      refine ⟨fun hge => ?_, fun _ => rfl⟩
      rw [List.length_append, hacc] at hge
      simp [dataOf] at hge
      omega
    by_cases hlong : 64 - filled < chunk.length
    · -- the record holds more than the init has room for
      obtain ⟨init, hinit, hbytes⟩ := readInit_long buf hread hfull hlong
      refine ⟨fun _ => ⟨init, _, rs', hinit, hsuffix, ?_, ?_⟩, fun hlt => ?_⟩
      · rw [hbytes, take_filled_append (by simp) (by omega), hacc]
      · rw [drop_filled_append (by simp) (by omega), hacc]
      · simp at hlt
        omega
    · -- the whole record goes into the init
      have hroom : filled + chunk.length ≤ 64 := by omega
      rw [readInit_fits hread hfull hempty hroom]
      have hrs' : Sendable rs' := fun r hr => hrs r (hsuffix.subset hr)
      have hstep := ih rs'.length (by have := hlt hempty; omega) rs'
        (buf.copyAt filled chunk) (filled + chunk.length) rfl hrs' hroom
      rw [Block.take_copyAt _ _ _ hroom, List.append_assoc] at hstep
      refine ⟨fun hge => ?_, hstep.2⟩
      obtain ⟨init, pending, rs'', hread, hsuffix', hinit, hpending⟩ := hstep.1 hge
      exact ⟨init, pending, rs'', hread, hsuffix'.trans hsuffix, hinit, hpending⟩

/-! ## The session -/

/-- **The session reader.** Reads into large enough buffers return what is pending and then the
data of the records, piece by piece; each returns something until everything is read. -/
theorem reads_records (avail : ℕ) (bufLens : List ℕ)
    (hbufs : ∀ bufLen ∈ bufLens, tlsReadBufLen ≤ bufLen) :
    ∀ (rs : List TlsRecord) (pending : Bytes), Sendable rs →
      ∃ left, ((ClientReader.fakeTls (wireOf rs) pending).reads avail bufLens).flatten ++ left =
          pending ++ dataOf rs ∧
        ([] ∈ (ClientReader.fakeTls (wireOf rs) pending).reads avail bufLens → left = []) := by
  induction bufLens with
  | nil => exact fun rs pending _ => ⟨pending ++ dataOf rs, rfl, by simp [ClientReader.reads]⟩
  | cons bufLen bufLens ih =>
    intro rs pending hrs
    have hbuf := hbufs bufLen List.mem_cons_self
    have hrest := fun rs pending => ih (fun n hn => hbufs n (List.mem_cons_of_mem _ hn)) rs pending
    by_cases hpending : pending = []
    · obtain ⟨rs', hsuffix, hstream, hdata, hend, -⟩ := readTlsAppdata_wireOf hbuf hrs
      have hread : (ClientReader.fakeTls (wireOf rs) pending).read avail bufLen =
          ((readTlsAppdata bufLen (wireOf rs)).1, .fakeTls (wireOf rs') []) := by
        simp [ClientReader.read, hpending, hstream]
      obtain ⟨left, hleft, hdone⟩ := hrest rs' [] fun r hr => hrs r (hsuffix.subset hr)
      refine ⟨left, ?_, fun hmem => ?_⟩
      · rw [ClientReader.reads, hread, List.flatten_cons, List.append_assoc, hleft, hpending,
          hdata]
        rfl
      · rw [ClientReader.reads, hread] at hmem
        rcases List.mem_cons.mp hmem with hnil | hmem
        · -- an empty read: nothing was left
          rw [hend hnil.symm] at hleft
          exact (List.append_eq_nil_iff.mp hleft).2
        · exact hdone hmem
    · have hread : (ClientReader.fakeTls (wireOf rs) pending).read avail bufLen =
          (pending.take (min bufLen pending.length),
            .fakeTls (wireOf rs) (pending.drop (min bufLen pending.length))) := by
        simp [ClientReader.read, hpending]
      obtain ⟨left, hleft, hdone⟩ := hrest rs (pending.drop (min bufLen pending.length)) hrs
      refine ⟨left, ?_, fun hmem => ?_⟩
      · rw [ClientReader.reads, hread, List.flatten_cons, List.append_assoc, hleft,
          ← List.append_assoc, List.take_append_drop]
      · rw [ClientReader.reads, hread] at hmem
        rcases List.mem_cons.mp hmem with hnil | hmem
        · have hpos := List.length_pos_iff.mpr hpending
          have hlen := congrArg List.length hnil
          simp only [tlsReadBufLen, tlsMaxRecordPayload, tlsReadHeadroom] at hbuf
          simp at hlen
          omega
        · exact hdone hmem

/-- Reads that all return something return a byte each. -/
theorem length_le_flatten_reads (avail : ℕ) (bufLens : List ℕ) (reader : ClientReader)
    (h : ∀ piece ∈ reader.reads avail bufLens, 1 ≤ piece.length) :
    bufLens.length ≤ (reader.reads avail bufLens).flatten.length := by
  induction bufLens generalizing reader with
  | nil => exact Nat.zero_le _
  | cons bufLen bufLens ih =>
    rw [ClientReader.reads] at h ⊢
    have hfirst := h _ List.mem_cons_self
    have hrest := ih _ fun piece hpiece => h piece (List.mem_cons_of_mem _ hpiece)
    rw [List.flatten_cons, List.length_append, List.length_cons]
    omega

/-! ## The whole handshake -/

/-- A ClientHello record that one of the secrets verifies and that names the camouflage domain. -/
def ValidClientHello (hmac : Hmac) (secrets : List Bytes) (domain : Host) (record : Bytes) : Prop :=
  ∃ payload secret hello,
    record = [tlsRecordHandshake, 0x03, 0x01] ++ toBeBytes payload.length ++ payload ∧
    payload.length ≤ tlsReadBufLen ∧ secret ∈ secrets ∧
    parseFaketlsClientHello hmac record secret = some hello ∧ hello.hostname = some domain

/-- What a ClientHello says does not depend on the secret that verifies it. -/
theorem parseFaketlsClientHello_unique {hmac : Hmac} {record secret secret' : Bytes}
    {hello hello' : FakeTlsClientHello}
    (h : parseFaketlsClientHello hmac record secret = some hello)
    (h' : parseFaketlsClientHello hmac record secret' = some hello') : hello = hello' := by
  have hbody : ∀ {secret hello}, parseFaketlsClientHello hmac record secret = some hello →
      parseHelloBody ((record.drop 11).take tlsDigestLen) ((record.drop 5).drop 4) =
        some hello := by
    intro secret hello h
    simp only [parseFaketlsClientHello] at h
    split_ifs at h
    exact h
  exact Option.some.inj ((hbody h).symm.trans (hbody h'))

/-- A valid ClientHello is answered, and the init is read from what follows it. -/
theorem acceptInboundFaketls_valid {hmac : Hmac} (draws : HelloDraws) {secrets : List Bytes}
    {domain : Host} {record : Bytes} (hvalid : ValidClientHello hmac secrets domain record)
    (stream : Bytes) :
    (acceptInboundFaketls hmac draws true secrets domain (record ++ stream)).init =
        (readInit zeroInit 0 stream).1 ∧
      (acceptInboundFaketls hmac draws true secrets domain (record ++ stream)).rest =
        (readInit zeroInit 0 stream).2 := by
  obtain ⟨payload, secret, hello, hrecord, hlen, hmem, hparse, hhost⟩ := hvalid
  have hshort := lt_of_le_tlsReadBufLen hlen
  have hread : readTlsRecord tlsReadBufLen (record ++ stream) =
      (some (tlsRecordHandshake, [0x03, 0x01], payload), stream) := by
    have hheader : readExact 5 (record ++ stream) =
        (some ([tlsRecordHandshake, 0x03, 0x01] ++ toBeBytes payload.length),
          payload ++ stream) := by
      rw [hrecord, List.append_assoc _ payload stream]
      exact readExact_append (by simp [toBeBytes]) _
    have hpayload : readExact payload.length (payload ++ stream) = (some payload, stream) :=
      readExact_append rfl stream
    have hfits : ¬ tlsReadBufLen < payload.length := by omega
    rw [readTlsRecord, hheader]
    simp [toBeBytes, u16At, fromBeBytes_toBeBytes hshort, hfits, hpayload]
  -- some secret verifies the record, and the hostname is the same whichever it is
  obtain ⟨⟨hello', secret'⟩, hfind⟩ : ∃ found, (secrets.findSome? fun secret =>
      (parseFaketlsClientHello hmac record secret).map fun hello => (hello, secret)) =
        some found := by
    rw [← Option.isSome_iff_exists, List.findSome?_isSome_iff]
    exact ⟨secret, hmem, by rw [hparse]; rfl⟩
  have hhost' : hello'.hostname = some domain := by
    obtain ⟨secret'', -, hmap⟩ := List.exists_of_findSome?_eq_some hfind
    obtain ⟨found, hfound, hpair⟩ := Option.map_eq_some_iff.mp hmap
    cases hpair
    rw [parseFaketlsClientHello_unique hfound hparse, hhost]
  have hrebuilt : [tlsRecordHandshake] ++ [0x03, 0x01] ++ toBeBytes payload.length ++ payload =
      record := hrecord.symm
  rw [acceptInboundFaketls, hread]
  simp only [hrebuilt, hfind, hhost']
  simp

/-- **Inbound FakeTLS loses nothing.** After a valid ClientHello, for every way of cutting what the
client sends into records, none too long and no Application Data record empty, with
ChangeCipherSpec records anywhere: if there are 64 bytes, the handshake returns the first 64, and
the reads of the session, into any buffers that can hold a record, return the bytes behind them,
in order, each at least one byte until all are read. If there are fewer, it fails. -/
theorem inbound_reassembly (hmac : Hmac) (draws : HelloDraws) (secrets : List Bytes) (domain : Host)
    (record : Bytes) (hvalid : ValidClientHello hmac secrets domain record) (sent : Bytes)
    (rs : List TlsRecord) (hrs : Sendable rs) (hsent : dataOf rs = sent) :
    (64 ≤ sent.length → ∃ init pending,
      (acceptInboundFaketls hmac draws true secrets domain (record ++ wireOf rs)).init =
        some (init, pending) ∧ init.bytes = sent.take 64 ∧
      ∀ avail bufLens, (∀ bufLen ∈ bufLens, tlsReadBufLen ≤ bufLen) →
        let got := (ClientReader.fakeTls
          (acceptInboundFaketls hmac draws true secrets domain (record ++ wireOf rs)).rest
          pending).reads avail bufLens
        got.flatten <+: sent.drop 64 ∧
          ([] ∈ got → got.flatten = sent.drop 64) ∧
          ((sent.drop 64).length < bufLens.length → got.flatten = sent.drop 64)) ∧
    (sent.length < 64 →
      (acceptInboundFaketls hmac draws true secrets domain (record ++ wireOf rs)).init = none) := by
  obtain ⟨hinit, hrest⟩ := acceptInboundFaketls_valid draws hvalid (wireOf rs)
  have hloop := readInit_records rs.length rs zeroInit 0 rfl hrs (Nat.zero_le _)
  rw [List.take_zero, List.nil_append, hsent] at hloop
  rw [hinit, hrest]
  refine ⟨fun hge => ?_, hloop.2⟩
  obtain ⟨init, pending, rs', hread, hsuffix, hfirst, hbeyond⟩ := hloop.1 hge
  refine ⟨init, pending, by rw [hread], hfirst, fun avail bufLens hbufs => ?_⟩
  obtain ⟨left, hleft, hend⟩ := reads_records avail bufLens hbufs rs' pending
    fun r hr => hrs r (hsuffix.subset hr)
  rw [hbeyond] at hleft
  rw [hread]
  have hall : left = [] → ((ClientReader.fakeTls (wireOf rs') pending).reads avail
      bufLens).flatten = sent.drop 64 := by
    intro hnil
    rw [← hleft, hnil, List.append_nil]
  refine ⟨⟨left, hleft⟩, fun hmem => hall (hend hmem), fun hmany => ?_⟩
  -- more reads than bytes: one of them is empty
  by_contra hmissing
  have hnonempty : ∀ piece ∈ (ClientReader.fakeTls (wireOf rs') pending).reads avail bufLens,
      1 ≤ piece.length := by
    intro piece hpiece
    refine List.length_pos_iff.mpr ?_
    rintro rfl
    exact hmissing (hall (hend hpiece))
  have hcount : bufLens.length ≤
      ((ClientReader.fakeTls (wireOf rs') pending).reads avail bufLens).flatten.length :=
    length_le_flatten_reads _ _ _ hnonempty
  have htotal := congrArg List.length hleft
  rw [List.length_append] at htotal
  omega

/-! ## A session -/

/-- A key, and the ClientHello of a client that has it, for the domain `a.b`. -/
def sampleKey : Bytes := List.replicate 16 0x11

/-- The random field: the digest, with a time stamp in its last bytes. -/
def sampleRandom : Bytes :=
  [114, 134, 242, 113, 69, 46, 137, 119, 46, 45, 75, 190, 132, 234, 88, 133, 139, 111, 252, 213,
   76, 176, 115, 66, 149, 251, 79, 120, 179, 155, 151, 201]

/-- The server-name extension for `a.b`. -/
def sampleExtensions : Bytes := [0, 0, 0, 8, 0, 6, 0, 0, 3] ++ asBytes "a.b".toList

/-- The record's bytes before the random field and behind it. -/
def sampleHelloHead : Bytes := [0x16, 0x03, 0x01, 0, 59, 0x01, 0, 0, 55, 0x03, 0x03]
def sampleHelloTail : Bytes := [0, 0, 2, 0x13, 0x01, 1, 0, 0, 12] ++ sampleExtensions

def sampleHello : Bytes := sampleHelloHead ++ sampleRandom ++ sampleHelloTail

theorem parseSniExtension_sample : parseSniExtension sampleExtensions = some "a.b".toList := by
  rw [parseSniExtension, dif_neg (by decide)]
  simp only
  rw [if_neg (by decide), if_neg (by decide), if_neg (by decide), if_neg (by decide)]
  refine Eq.trans (congrArg fromUtf8 ?_) (fromUtf8_asBytes _)
  decide

theorem sampleHello_valid :
    ValidClientHello Reference.hmacSha256 [sampleKey] "a.b".toList sampleHello := by
  refine ⟨sampleHello.drop 5, sampleKey,
    ⟨sampleRandom, [], [0x13, 0x01], parseSniExtension sampleExtensions⟩, by decide, by decide,
    by simp, ?_, parseSniExtension_sample⟩
  have hdigest : ((List.zipWith (· ^^^ ·) (Reference.hmacSha256 sampleKey (sampleHelloHead ++
      List.replicate tlsDigestLen 0 ++ sampleHelloTail)).bytes sampleRandom).take 28).any
        (· != 0) = false := by
    decide +kernel
  simp only [parseFaketlsClientHello]
  rw [if_neg (by decide), if_neg (by decide), if_neg (by decide), if_neg (by decide),
    if_neg (by decide)]
  rw [if_neg]
  · rfl
  · exact Bool.eq_false_iff.mp hdigest

/-- Two records of forty bytes with a ChangeCipherSpec record between them. -/
def sampleRecords : List TlsRecord :=
  [⟨.applicationData, (3, 3), List.replicate 40 7⟩, ⟨.changeCipherSpec, (3, 3), [1]⟩,
   ⟨.applicationData, (3, 3), List.replicate 40 8⟩]

/-- The init takes the first record and 24 bytes of the second, and the session begins with the
other 16. -/
theorem inbound_reassembly_sampleRecords :
    ∃ init pending, (acceptInboundFaketls Reference.hmacSha256 ⟨⟨List.replicate 32 0, by simp⟩, 0,
        fun _ => 0⟩ true [sampleKey] "a.b".toList (sampleHello ++ wireOf sampleRecords)).init =
          some (init, pending) ∧
      init.bytes = List.replicate 40 7 ++ List.replicate 24 8 := by
  have hsendable : Sendable sampleRecords := by
    simp [Sendable, sampleRecords, TlsRecord.Fits, TlsRecord.IsEmptyData, tlsReadBufLen,
      tlsMaxRecordPayload, tlsReadHeadroom]
  obtain ⟨init, pending, hinit, hbytes, -⟩ := (inbound_reassembly Reference.hmacSha256
    ⟨⟨List.replicate 32 0, by simp⟩, 0, fun _ => 0⟩ [sampleKey] "a.b".toList sampleHello
    sampleHello_valid (List.replicate 40 7 ++ List.replicate 40 8) sampleRecords hsendable
    (by decide)).1 (by decide)
  exact ⟨init, pending, hinit, hbytes⟩

end TgWsProxy
