import TgWsProxy.Crypto.Basic

set_option relaxedAutoImplicit false
set_option autoImplicit false

/-!
# The data phase of FakeTLS

Behind the fake handshake, everything travels in TLS records: Application Data records with the
payload, and ChangeCipherSpec records that are skipped. The reader hands out one payload a call,
and an empty one says that the session is over.

## Main definitions

* `TgWsProxy.readTlsAppdata` — the reader of `faketls.rs`.
* `TgWsProxy.dataPhase` — the loop of its callers, up to the first empty payload.
* `TgWsProxy.TlsRecord` — the records of the data phase, with their bytes on the wire.

## Main results

* `TgWsProxy.readTlsAppdata_cons` — what one call does to a stream of records.
* `TgWsProxy.dataPhase_complete_iff` — the loop delivers everything exactly if no empty
  Application Data record stands before a payload.

## Design

A stream is what is left of the bytes that the peer sends before it closes. `read_exact` waits for
its bytes, so it does not matter how they arrive. A filled buffer is the bytes put into it, so
`Ok(0)` is the empty list; `read_tls_appdata` returns no `Err`.
-/

namespace TgWsProxy

/-! ## Constants -/

/-- Record type: ChangeCipherSpec. -/
def tlsRecordChangeCipherSpec : UInt8 := 0x14
/-- Record type: Handshake. -/
def tlsRecordHandshake : UInt8 := 0x16
/-- Record type: Application Data. -/
def tlsRecordApplicationData : UInt8 := 0x17
/-- Maximum payload of a record. -/
def tlsMaxRecordPayload : ℕ := 16384
/-- What a record may exceed it by. -/
def tlsReadHeadroom : ℕ := 256
/-- The buffers that records are read into, `CLIENT_READ_BUF_SIZE` among them. -/
def tlsReadBufLen : ℕ := tlsMaxRecordPayload + tlsReadHeadroom

/-! ## The reader -/

/-- `read_exact`: the next `n` bytes and the rest. A stream that ends before is used up. -/
def readExact (n : ℕ) (stream : Bytes) : Option Bytes × Bytes :=
  if n ≤ stream.length then (some (stream.take n), stream.drop n) else (none, [])

theorem readExact_append {n : ℕ} {bytes : Bytes} (h : bytes.length = n) (rest : Bytes) :
    readExact n (bytes ++ rest) = (some bytes, rest) := by
  subst h
  simp [readExact]

theorem length_readExact {n : ℕ} {stream bytes rest : Bytes}
    (h : readExact n stream = (some bytes, rest)) :
    bytes.length = n ∧ rest.length + n = stream.length := by
  rw [readExact] at h
  split_ifs at h with hn
  · cases h
    simp
    omega
  · cases h

/-- `u16::from_be_bytes`. -/
def fromBeBytes (high low : UInt8) : ℕ := 256 * high.toNat + low.toNat

/-- `u16::to_be_bytes`. -/
def toBeBytes (n : ℕ) : Bytes := [UInt8.ofNat (n / 256), UInt8.ofNat n]

theorem fromBeBytes_toBeBytes {n : ℕ} (h : n < 65536) :
    fromBeBytes (UInt8.ofNat (n / 256)) (UInt8.ofNat n) = n := by
  simp only [fromBeBytes, UInt8.toNat_ofNat']
  omega

/-- How a turn of the loop of `read_tls_appdata` ends: with a payload or with another turn. -/
inductive Turn
  | done (payload rest : Bytes)
  | again (rest : Bytes)

/-- One turn: a header, and its record's payload if the buffer can take it. -/
def appdataTurn (bufLen : ℕ) (stream : Bytes) : Turn :=
  match readExact 5 stream with
  | (none, rest) => .done [] rest
  | (some header, rest) =>
    let recordType := header.getD 0 0
    let payloadLen := fromBeBytes (header.getD 3 0) (header.getD 4 0)
    if payloadLen > bufLen then .done [] rest
    else if recordType = tlsRecordApplicationData then
      match readExact payloadLen rest with
      | (none, rest) => .done [] rest
      | (some payload, rest) => .done payload rest
    else if recordType = tlsRecordChangeCipherSpec then
      match readExact payloadLen rest with
      | (none, rest) => .done [] rest
      | (some _, rest) => .again rest
    else .done [] rest

/-- A turn that hands out a payload or goes on has used up part of the stream. -/
theorem length_appdataTurn {bufLen : ℕ} {stream rest : Bytes} :
    (∀ payload, appdataTurn bufLen stream = .done payload rest → payload ≠ [] →
      rest.length < stream.length) ∧
    (appdataTurn bufLen stream = .again rest → rest.length < stream.length) := by
  rw [appdataTurn]
  split
  · exact ⟨by rintro payload ⟨⟩ hne; exact absurd rfl hne, nofun⟩
  · rename_i header rest' hheader
    have hlen := (length_readExact hheader).2
    simp only
    split_ifs
    · exact ⟨by rintro payload ⟨⟩ hne; exact absurd rfl hne, nofun⟩
    · split
      · exact ⟨by rintro payload ⟨⟩ hne; exact absurd rfl hne, nofun⟩
      · rename_i payload rest'' hpayload
        have hlen' := (length_readExact hpayload).2
        exact ⟨by rintro payload ⟨⟩ hne; omega, nofun⟩
    · split
      · exact ⟨by rintro payload ⟨⟩ hne; exact absurd rfl hne, nofun⟩
      · rename_i payload rest'' hpayload
        have hlen' := (length_readExact hpayload).2
        exact ⟨nofun, by rintro ⟨⟩; omega⟩
    · exact ⟨by rintro payload ⟨⟩ hne; exact absurd rfl hne, nofun⟩

/-- `read_tls_appdata` into a buffer of `bufLen` bytes: the payload of the next Application Data
record, and the rest of the stream. -/
def readTlsAppdata (bufLen : ℕ) (stream : Bytes) : Bytes × Bytes :=
  match _hturn : appdataTurn bufLen stream with
  | .done payload rest => (payload, rest)
  | .again rest => readTlsAppdata bufLen rest
termination_by stream.length
decreasing_by exact length_appdataTurn.2 _hturn

theorem readTlsAppdata_of_done {bufLen : ℕ} {stream payload rest : Bytes}
    (h : appdataTurn bufLen stream = .done payload rest) :
    readTlsAppdata bufLen stream = (payload, rest) := by
  rw [readTlsAppdata]
  split
  · rename_i hturn
    rw [h] at hturn
    cases hturn
    rfl
  · rename_i hturn
    rw [h] at hturn
    cases hturn

theorem readTlsAppdata_of_again {bufLen : ℕ} {stream rest : Bytes}
    (h : appdataTurn bufLen stream = .again rest) :
    readTlsAppdata bufLen stream = readTlsAppdata bufLen rest := by
  rw [readTlsAppdata]
  split
  · rename_i hturn
    rw [h] at hturn
    cases hturn
  · rename_i hturn
    rw [h] at hturn
    cases hturn
    rfl

/-- A call that hands out a payload uses up part of the stream. -/
theorem length_readTlsAppdata (bufLen : ℕ) (stream : Bytes)
    (h : (readTlsAppdata bufLen stream).1 ≠ []) :
    (readTlsAppdata bufLen stream).2.length < stream.length := by
  fun_induction readTlsAppdata bufLen stream with
  | case1 stream payload rest hturn => exact length_appdataTurn.1 payload hturn h
  | case2 stream rest hturn ih => exact (ih h).trans (length_appdataTurn.2 hturn)

/-- The loop of the bridges and of the inbound handshake: read until the first empty payload. The
payloads, and what is left of the stream. -/
def dataPhase (bufLen : ℕ) (stream : Bytes) : List Bytes × Bytes :=
  if _hend : (readTlsAppdata bufLen stream).1 = [] then ([], (readTlsAppdata bufLen stream).2)
  else
    let next := dataPhase bufLen (readTlsAppdata bufLen stream).2
    ((readTlsAppdata bufLen stream).1 :: next.1, next.2)
termination_by stream.length
decreasing_by exact length_readTlsAppdata bufLen stream _hend

/-! ## Records -/

/-- The records of the data phase. -/
inductive DataRecordType
  | applicationData
  | changeCipherSpec
  deriving DecidableEq

def DataRecordType.byte : DataRecordType → UInt8
  | .applicationData => tlsRecordApplicationData
  | .changeCipherSpec => tlsRecordChangeCipherSpec

/-- A record of the data phase; the reader does not look at its version. -/
structure TlsRecord where
  recordType : DataRecordType
  version : UInt8 × UInt8
  payload : Bytes
  deriving DecidableEq

namespace TlsRecord

/-- The bytes of a record. -/
def wire (r : TlsRecord) : Bytes :=
  [r.recordType.byte, r.version.1, r.version.2] ++ toBeBytes r.payload.length ++ r.payload

/-- A record that fits the read buffers. -/
def Fits (r : TlsRecord) : Prop := r.payload.length ≤ tlsReadBufLen

/-- What a record carries for the application. -/
def data (r : TlsRecord) : Bytes :=
  match r.recordType with
  | .applicationData => r.payload
  | .changeCipherSpec => []

/-- An Application Data record with nothing in it. -/
def IsEmptyData (r : TlsRecord) : Prop := r.recordType = .applicationData ∧ r.payload = []

instance (r : TlsRecord) : Decidable r.IsEmptyData :=
  inferInstanceAs (Decidable (r.recordType = .applicationData ∧ r.payload = []))

end TlsRecord

/-- The bytes of a sequence of records. -/
def wireOf (rs : List TlsRecord) : Bytes := rs.flatMap TlsRecord.wire

/-- The payloads of a sequence of records, one after another. -/
def dataOf (rs : List TlsRecord) : Bytes := rs.flatMap TlsRecord.data

theorem readTlsAppdata_nil (bufLen : ℕ) : readTlsAppdata bufLen [] = ([], []) :=
  readTlsAppdata_of_done rfl

/-- **One turn on a stream of records.** An Application Data record is handed out, and a
ChangeCipherSpec record is skipped. -/
theorem appdataTurn_wire {bufLen : ℕ} {r : TlsRecord} (hlen : r.payload.length < 65536)
    (hbuf : r.payload.length ≤ bufLen) (rest : Bytes) :
    (r.recordType = .applicationData →
      appdataTurn bufLen (r.wire ++ rest) = .done r.payload rest) ∧
    (r.recordType = .changeCipherSpec → appdataTurn bufLen (r.wire ++ rest) = .again rest) := by
  have hheader : readExact 5 (r.wire ++ rest) =
      (some ([r.recordType.byte, r.version.1, r.version.2] ++ toBeBytes r.payload.length),
        r.payload ++ rest) := by
    rw [TlsRecord.wire, List.append_assoc _ r.payload rest]
    exact readExact_append (by simp [toBeBytes]) _
  have hpayload : readExact r.payload.length (r.payload ++ rest) = (some r.payload, rest) :=
    readExact_append rfl rest
  have hfits : ¬ bufLen < r.payload.length := by omega
  rw [appdataTurn, hheader]
  constructor
  · intro htype
    simp [htype, toBeBytes, fromBeBytes_toBeBytes hlen, hfits, hpayload, DataRecordType.byte]
  · intro htype
    simp [htype, toBeBytes, fromBeBytes_toBeBytes hlen, hfits, hpayload, DataRecordType.byte,
      tlsRecordApplicationData, tlsRecordChangeCipherSpec]

/-- What fits a read buffer fits a length field. -/
theorem lt_of_le_tlsReadBufLen {n : ℕ} (h : n ≤ tlsReadBufLen) : n < 65536 :=
  lt_of_le_of_lt h (by decide)

theorem TlsRecord.Fits.length_lt {r : TlsRecord} (h : r.Fits) : r.payload.length < 65536 :=
  lt_of_le_tlsReadBufLen h

section Read

variable {bufLen : ℕ} (hbuf : tlsReadBufLen ≤ bufLen) {r : TlsRecord} (hr : r.Fits) (rest : Bytes)

include hbuf hr

theorem readTlsAppdata_applicationData (htype : r.recordType = .applicationData) :
    readTlsAppdata bufLen (r.wire ++ rest) = (r.payload, rest) :=
  readTlsAppdata_of_done ((appdataTurn_wire hr.length_lt (le_trans hr hbuf) rest).1 htype)

theorem readTlsAppdata_changeCipherSpec (htype : r.recordType = .changeCipherSpec) :
    readTlsAppdata bufLen (r.wire ++ rest) = readTlsAppdata bufLen rest :=
  readTlsAppdata_of_again ((appdataTurn_wire hr.length_lt (le_trans hr hbuf) rest).2 htype)

end Read

/-! ## The data phase of a sequence of records -/

theorem dataPhase_of_empty {bufLen : ℕ} {stream rest : Bytes}
    (h : readTlsAppdata bufLen stream = ([], rest)) : dataPhase bufLen stream = ([], rest) := by
  rw [dataPhase, dif_pos (by rw [h]), h]

/-- Records without an empty Application Data record are delivered, and the phase goes on. -/
theorem dataPhase_append {bufLen : ℕ} (hbuf : tlsReadBufLen ≤ bufLen) (rest : Bytes)
    (rs : List TlsRecord) (hrs : ∀ r ∈ rs, r.Fits ∧ ¬ r.IsEmptyData) :
    (dataPhase bufLen (wireOf rs ++ rest)).1.flatten =
        dataOf rs ++ (dataPhase bufLen rest).1.flatten ∧
      (dataPhase bufLen (wireOf rs ++ rest)).2 = (dataPhase bufLen rest).2 := by
  induction rs with
  | nil => exact ⟨rfl, rfl⟩
  | cons r rs ih =>
    obtain ⟨hdata, hleft⟩ := ih fun r hr => hrs r (List.mem_cons_of_mem _ hr)
    obtain ⟨hfits, hnonempty⟩ := hrs r List.mem_cons_self
    have hwire : wireOf (r :: rs) ++ rest = r.wire ++ (wireOf rs ++ rest) := by
      rw [wireOf, List.flatMap_cons, List.append_assoc]
      rfl
    have hcons : dataOf (r :: rs) = r.data ++ dataOf rs := List.flatMap_cons
    rw [hwire, hcons, List.append_assoc, ← hdata, ← hleft]
    cases htype : r.recordType with
    | applicationData =>
      have hread := readTlsAppdata_applicationData hbuf hfits (wireOf rs ++ rest) htype
      have hne : ¬ r.payload = [] := fun hempty => hnonempty ⟨htype, hempty⟩
      rw [dataPhase, dif_neg (by rwa [hread]), hread]
      simp [TlsRecord.data, htype]
    | changeCipherSpec =>
      have hread := readTlsAppdata_changeCipherSpec hbuf hfits (wireOf rs ++ rest) htype
      have hsame : dataPhase bufLen (r.wire ++ (wireOf rs ++ rest)) =
          dataPhase bufLen (wireOf rs ++ rest) := by
        rw [dataPhase, hread, ← dataPhase]
      rw [hsame]
      simp [TlsRecord.data, htype]

/-- Records without an empty Application Data record are delivered up to the end of the stream. -/
theorem dataPhase_all {rs : List TlsRecord} (hrs : ∀ r ∈ rs, r.Fits ∧ ¬ r.IsEmptyData) :
    (dataPhase tlsReadBufLen (wireOf rs)).1.flatten = dataOf rs ∧
      (dataPhase tlsReadBufLen (wireOf rs)).2 = [] := by
  have h := dataPhase_append le_rfl [] rs hrs
  rw [dataPhase_of_empty (readTlsAppdata_nil _), List.append_nil] at h
  simpa using h

/-- The first empty Application Data record ends the phase. -/
theorem dataPhase_until_empty {pre : List TlsRecord} (post : List TlsRecord) {r : TlsRecord}
    (hpre : ∀ r ∈ pre, r.Fits ∧ ¬ r.IsEmptyData) (hfits : r.Fits) (hempty : r.IsEmptyData) :
    (dataPhase tlsReadBufLen (wireOf (pre ++ r :: post))).1.flatten = dataOf pre ∧
      (dataPhase tlsReadBufLen (wireOf (pre ++ r :: post))).2 = wireOf post := by
  have hread : readTlsAppdata tlsReadBufLen (r.wire ++ wireOf post) = ([], wireOf post) := by
    rw [readTlsAppdata_applicationData le_rfl hfits _ hempty.1, hempty.2]
  have h := dataPhase_append le_rfl (r.wire ++ wireOf post) pre hpre
  rw [dataPhase_of_empty hread] at h
  have hwire : wireOf (pre ++ r :: post) = wireOf pre ++ (r.wire ++ wireOf post) := by
    rw [wireOf, List.flatMap_append, List.flatMap_cons]
    rfl
  rw [hwire]
  simpa using h

/-- After an empty Application Data record comes nothing but empty payloads. -/
def NoDataAfterEmpty (rs : List TlsRecord) : Prop :=
  ∀ pre r post, rs = pre ++ r :: post → r.IsEmptyData → dataOf post = []

/-- An empty Application Data record is the last record. -/
def NothingAfterEmpty (rs : List TlsRecord) : Prop :=
  ∀ pre r post, rs = pre ++ r :: post → r.IsEmptyData → post = []

/-- A sequence has no empty Application Data record, or a first one. -/
theorem first_empty (rs : List TlsRecord) :
    (∀ r ∈ rs, ¬ r.IsEmptyData) ∨
      ∃ pre r post, rs = pre ++ r :: post ∧ (∀ r ∈ pre, ¬ r.IsEmptyData) ∧ r.IsEmptyData := by
  induction rs with
  | nil => exact .inl (by simp)
  | cons r rs ih =>
    by_cases hr : r.IsEmptyData
    · exact .inr ⟨[], r, rs, rfl, by simp, hr⟩
    · rcases ih with hnone | ⟨pre, e, post, rfl, hpre, he⟩
      · exact .inl (by simpa [hr] using hnone)
      · exact .inr ⟨r :: pre, e, post, rfl, by simpa [hr] using hpre, he⟩

/-- What follows any empty Application Data record follows the first one. -/
theorem suffix_of_first_empty {pre post pre' post' : List TlsRecord} {r r' : TlsRecord}
    (hpre : ∀ r ∈ pre, ¬ r.IsEmptyData) (hr' : r'.IsEmptyData)
    (h : pre ++ r :: post = pre' ++ r' :: post') : post' <:+ post := by
  induction pre generalizing pre' with
  | nil =>
    cases pre' with
    | nil =>
      cases h
      exact List.suffix_rfl
    | cons a pre' =>
      cases h
      exact ⟨pre' ++ [r'], by simp⟩
  | cons a pre ih =>
    cases pre' with
    | nil =>
      cases h
      exact absurd hr' (hpre _ List.mem_cons_self)
    | cons a' pre' =>
      rw [List.cons_append, List.cons_append, List.cons.injEq] at h
      exact ih (fun r hr => hpre r (List.mem_cons_of_mem _ hr)) h.2

theorem dataOf_append (rs rs' : List TlsRecord) : dataOf (rs ++ rs') = dataOf rs ++ dataOf rs' :=
  List.flatMap_append

theorem wireOf_eq_nil {rs : List TlsRecord} : wireOf rs = [] ↔ rs = [] := by
  cases rs with
  | nil => simp [wireOf]
  | cons r rs => simp [wireOf, TlsRecord.wire]

/-- **When the data phase is complete.** On every sequence of records that fit the buffer, followed
by the end of the stream: the payloads handed out before the first empty one make up everything
that was sent if and only if no payload comes after an empty Application Data record; and the phase
moreover ends with the stream used up if and only if no record at all does.

**Proof sketch.** By induction, everything before the first empty Application Data record is
delivered, and there the phase ends: with the payloads before it and what follows it unread. -/
theorem dataPhase_complete_iff (rs : List TlsRecord) (hrs : ∀ r ∈ rs, r.Fits) :
    ((dataPhase tlsReadBufLen (wireOf rs)).1.flatten = dataOf rs ↔ NoDataAfterEmpty rs) ∧
      ((dataPhase tlsReadBufLen (wireOf rs)).1.flatten = dataOf rs ∧
        (dataPhase tlsReadBufLen (wireOf rs)).2 = [] ↔ NothingAfterEmpty rs) := by
  rcases first_empty rs with hnone | ⟨pre, r, post, rfl, hpre, hr⟩
  · obtain ⟨hdata, hleft⟩ := dataPhase_all fun r hr => ⟨hrs r hr, hnone r hr⟩
    have hvacuous : ∀ pre r post, rs = pre ++ r :: post → ¬ r.IsEmptyData := by
      rintro pre r post rfl
      exact hnone r (by simp)
    refine ⟨⟨fun _ pre r post h hr => ?_, fun _ => hdata⟩,
      ⟨fun _ pre r post h hr => ?_, fun _ => ⟨hdata, hleft⟩⟩⟩
    · exact absurd hr (hvacuous pre r post h)
    · exact absurd hr (hvacuous pre r post h)
  · obtain ⟨hdata, hleft⟩ := dataPhase_until_empty post
      (fun r' hr' => ⟨hrs r' (by simp [hr']), hpre r' hr'⟩) (hrs r (by simp)) hr
    have hempty : r.data = [] := by rw [TlsRecord.data, hr.1]; exact hr.2
    have hall : dataOf (pre ++ r :: post) = dataOf pre ++ dataOf post := by
      rw [dataOf_append]
      exact congrArg _ (by rw [dataOf, List.flatMap_cons, hempty]; rfl)
    have hfirst : NoDataAfterEmpty (pre ++ r :: post) ↔ dataOf post = [] := by
      refine ⟨fun h => h pre r post rfl hr, fun h pre' r' post' heq hr' => ?_⟩
      obtain ⟨mid, rfl⟩ := suffix_of_first_empty hpre hr' heq
      rw [dataOf_append, List.append_eq_nil_iff] at h
      exact h.2
    have hlast : NothingAfterEmpty (pre ++ r :: post) ↔ post = [] := by
      refine ⟨fun h => h pre r post rfl hr, fun h pre' r' post' heq hr' => ?_⟩
      exact List.suffix_nil.mp (h ▸ suffix_of_first_empty hpre hr' heq)
    rw [hdata, hleft, hall, hfirst, hlast, wireOf_eq_nil]
    have hself : dataOf pre = dataOf pre ++ dataOf post ↔ dataOf post = [] := by simp
    refine ⟨hself, hself.and Iff.rfl |>.trans ⟨And.right, fun h => ⟨?_, h⟩⟩⟩
    rw [h]
    rfl

/-! ## A session cut short -/

/-- An empty Application Data record and one with a payload. -/
def emptyThenData : List TlsRecord :=
  [⟨.applicationData, (3, 3), []⟩, ⟨.applicationData, (3, 3), [1]⟩]

/-- With a payload before the empty record only, nothing is lost. -/
theorem dataPhase_complete_iff_dataThenEmpty :
    (dataPhase tlsReadBufLen (wireOf emptyThenData.reverse)).1.flatten = [1] := by
  have hfits : ∀ r ∈ emptyThenData.reverse, r.Fits := by
    simp [emptyThenData, TlsRecord.Fits, tlsReadBufLen, tlsMaxRecordPayload, tlsReadHeadroom]
  refine (dataPhase_complete_iff emptyThenData.reverse hfits).1.mpr ?_
  intro pre r post h hr
  match pre, h with
  | [], h =>
    cases h
    exact absurd hr.2 (by simp)
  | [_], h =>
    cases h
    rfl
  | _ :: _ :: _, h => simp [emptyThenData] at h

/-- The reader reports the end of the session at the empty record, and the payload is lost. -/
theorem emptyThenData_cut_short :
    (∀ r ∈ emptyThenData, r.Fits) ∧
      dataPhase tlsReadBufLen (wireOf emptyThenData) = ([], wireOf emptyThenData.tail) ∧
      (dataPhase tlsReadBufLen (wireOf emptyThenData)).1.flatten ≠ dataOf emptyThenData := by
  have hfits : ∀ r ∈ emptyThenData, r.Fits := by
    simp [emptyThenData, TlsRecord.Fits, tlsReadBufLen, tlsMaxRecordPayload, tlsReadHeadroom]
  have hphase : dataPhase tlsReadBufLen (wireOf emptyThenData) =
      ([], wireOf emptyThenData.tail) :=
    dataPhase_of_empty (readTlsAppdata_applicationData le_rfl
      (hfits ⟨.applicationData, (3, 3), []⟩ (by simp [emptyThenData])) _ rfl)
  refine ⟨hfits, hphase, ?_⟩
  rw [hphase]
  decide

end TgWsProxy
