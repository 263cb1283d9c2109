import TgWsProxy.FakeTls.Records

set_option relaxedAutoImplicit false
set_option autoImplicit false

/-!
# Writing Application Data records

`write_tls_appdata` cuts what it is given into records of at most `TLS_MAX_RECORD_PAYLOAD` bytes.
Nothing it writes is a record that the reader takes for the end of the session.

## Main definitions

* `TgWsProxy.writeTlsAppdata` — the writer of `faketls.rs`.
* `TgWsProxy.readSession` — reads into buffers of any sizes, up to the first empty payload.
* `TgWsProxy.TlsRecord.Written` — the records that the writer makes.

## Main results

* `TgWsProxy.writeTlsAppdata_records` — what a write puts on the wire.
* `TgWsProxy.readSession_wireOf` — what the reader makes of such records.
* `TgWsProxy.appdata_roundTrip` — whatever is written in turn is read back.
-/

namespace TgWsProxy

/-! ## The writer -/

/-- Maximum Application Data payload of a record. -/
def tlsMaxAppdataWrite : ℕ := tlsMaxRecordPayload

/-- The loop of `write_tls_appdata` from an offset on: the bytes it writes. -/
def writeTlsAppdataFrom (data : Bytes) (offset : ℕ) : Bytes :=
  if _hmore : offset < data.length then
    let stop := min (offset + tlsMaxAppdataWrite) data.length
    let chunk := (data.drop offset).take (stop - offset)
    let len := chunk.length
    [tlsRecordApplicationData, 0x03, 0x03, UInt8.ofNat (len / 256), UInt8.ofNat len] ++ chunk ++
      writeTlsAppdataFrom data stop
  else []
termination_by data.length - offset
decreasing_by
  simp only [tlsMaxAppdataWrite, tlsMaxRecordPayload]
  omega

/-- `write_tls_appdata` on a writer that takes everything. -/
def writeTlsAppdata (data : Bytes) : Bytes := writeTlsAppdataFrom data 0

/-- A record as the writer makes it, with a length field that matches its payload. -/
structure TlsRecord.Written (r : TlsRecord) : Prop where
  recordType : r.recordType = .applicationData
  version : r.version = (0x03, 0x03)
  nonempty : 1 ≤ r.payload.length
  bounded : r.payload.length ≤ tlsMaxRecordPayload
  header : fromBeBytes (r.wire.getD 3 0) (r.wire.getD 4 0) = r.payload.length

theorem written_of_chunk (chunk : Bytes) (hpos : 1 ≤ chunk.length)
    (hle : chunk.length ≤ tlsMaxRecordPayload) :
    TlsRecord.Written ⟨.applicationData, (0x03, 0x03), chunk⟩ := by
  have hlen : chunk.length < 65536 := lt_of_le_tlsReadBufLen (hle.trans (Nat.le_add_right _ _))
  exact ⟨rfl, rfl, hpos, hle, fromBeBytes_toBeBytes hlen⟩

theorem wireOf_append (rs ss : List TlsRecord) : wireOf (rs ++ ss) = wireOf rs ++ wireOf ss :=
  List.flatMap_append

/-- The records of a write, from an offset on. -/
theorem writeTlsAppdataFrom_records (data : Bytes) (offset : ℕ) :
    ∃ rs : List TlsRecord, writeTlsAppdataFrom data offset = wireOf rs ∧
      (∀ r ∈ rs, r.Written) ∧ dataOf rs = data.drop offset := by
  fun_induction writeTlsAppdataFrom data offset with
  | case1 offset hmore stop chunk len ih =>
    obtain ⟨rs, hwire, hwritten, hdata⟩ := ih
    have hstop : stop = min (offset + 16384) data.length := rfl
    have hchunk : chunk.length = stop - offset := by
      simp only [chunk, List.length_take, List.length_drop]
      omega
    have hfirst := written_of_chunk chunk (by omega)
      (by rw [tlsMaxRecordPayload]; omega)
    refine ⟨⟨.applicationData, (0x03, 0x03), chunk⟩ :: rs, ?_, ?_, ?_⟩
    · rw [hwire]
      rfl
    · intro r hr
      rcases List.mem_cons.mp hr with rfl | hr
      · exact hfirst
      · exact hwritten r hr
    · have hrest : data.drop stop = (data.drop offset).drop (stop - offset) := by
        rw [List.drop_drop]
        congr 1
        omega
      have hcons : dataOf (⟨.applicationData, (0x03, 0x03), chunk⟩ :: rs) =
          chunk ++ dataOf rs := rfl
      rw [hcons, hdata, hrest]
      exact List.take_append_drop _ _
  | case2 offset hmore =>
    refine ⟨[], rfl, by simp, ?_⟩
    rw [List.drop_eq_nil_of_le (by omega)]
    rfl

/-- **What a write puts on the wire.** Records of the writer's kind that carry the data. -/
theorem writeTlsAppdata_records (data : Bytes) :
    ∃ rs : List TlsRecord, writeTlsAppdata data = wireOf rs ∧ (∀ r ∈ rs, r.Written) ∧
      dataOf rs = data :=
  writeTlsAppdataFrom_records data 0

/-- What a sequence of writes puts on the wire. -/
theorem writes_records (written : List Bytes) :
    ∃ rs : List TlsRecord, written.flatMap writeTlsAppdata = wireOf rs ∧ (∀ r ∈ rs, r.Written) ∧
      dataOf rs = written.flatten := by
  induction written with
  | nil => exact ⟨[], rfl, by simp, rfl⟩
  | cons data written ih =>
    obtain ⟨rs, hwire, hrs, hdata⟩ := writeTlsAppdata_records data
    obtain ⟨ss, hwire', hss, hdata'⟩ := ih
    refine ⟨rs ++ ss, ?_, ?_, ?_⟩
    · rw [List.flatMap_cons, wireOf_append, hwire, hwire']
    · intro r hr
      rcases List.mem_append.mp hr with hr | hr
      · exact hrs r hr
      · exact hss r hr
    · rw [dataOf_append, hdata, hdata', List.flatten_cons]

/-! ## The reader -/

/-- Read until the first empty payload, call `i` into a buffer of `bufLen i` bytes: the payloads,
and what was left of the stream when the empty one was returned. -/
def readSession (bufLen : ℕ → ℕ) (i : ℕ) (stream : Bytes) : List Bytes × Bytes :=
  if _hend : (readTlsAppdata (bufLen i) stream).1 = [] then ([], stream)
  else
    let next := readSession bufLen (i + 1) (readTlsAppdata (bufLen i) stream).2
    ((readTlsAppdata (bufLen i) stream).1 :: next.1, next.2)
termination_by stream.length
decreasing_by exact length_readTlsAppdata (bufLen i) stream _hend

/-- **What the reader makes of the writer's records.** One payload a call, and the end only when
nothing is left. -/
theorem readSession_wireOf {bufLen : ℕ → ℕ} (hbuf : ∀ i, tlsMaxRecordPayload ≤ bufLen i)
    (rs : List TlsRecord) (hrs : ∀ r ∈ rs, r.Written) :
    ∀ i, readSession bufLen i (wireOf rs) = (rs.map TlsRecord.payload, []) := by
  induction rs with
  | nil =>
    intro i
    have hread : (readTlsAppdata (bufLen i) (wireOf [])).1 = [] := by
      rw [show wireOf [] = [] from rfl, readTlsAppdata_nil]
    rw [readSession, dif_pos hread]
    rfl
  | cons r rs ih =>
    intro i
    have hr := hrs r List.mem_cons_self
    have hfit : r.payload.length ≤ bufLen i := hr.bounded.trans (hbuf i)
    have hlen : r.payload.length < 65536 :=
      lt_of_le_tlsReadBufLen (hr.bounded.trans (Nat.le_add_right _ _))
    have hread : readTlsAppdata (bufLen i) (wireOf (r :: rs)) = (r.payload, wireOf rs) :=
      readTlsAppdata_of_done ((appdataTurn_wire hlen hfit (wireOf rs)).1 hr.recordType)
    have hne : r.payload ≠ [] := by
      intro hempty
      have hpos := hr.nonempty
      rw [hempty] at hpos
      simp at hpos
    rw [readSession, dif_neg (by rwa [hread]), hread]
    simp only [ih (fun r hr => hrs r (List.mem_cons_of_mem _ hr)) (i + 1), List.map_cons]

/-- **Application Data framing round-trip.** Whatever byte strings are written in turn, the wire
holds Application Data records with 1 to `TLS_MAX_RECORD_PAYLOAD` bytes and a matching length
field. Reading them into buffers of at least `TLS_MAX_RECORD_PAYLOAD` bytes until a read returns
nothing gives the concatenation of the strings, and that read finds the wire used up.

**Proof sketch.** One record for each turn of the writer's loop (`writeTlsAppdataFrom_records`),
one payload for each call of the reader (`readSession_wireOf`); neither is ever empty. -/
theorem appdata_roundTrip (written : List Bytes) (bufLen : ℕ → ℕ)
    (hbuf : ∀ i, tlsMaxRecordPayload ≤ bufLen i) :
    (∃ rs : List TlsRecord, written.flatMap writeTlsAppdata = wireOf rs ∧ ∀ r ∈ rs, r.Written) ∧
      (readSession bufLen 0 (written.flatMap writeTlsAppdata)).1.flatten = written.flatten ∧
      (readSession bufLen 0 (written.flatMap writeTlsAppdata)).2 = [] := by
  obtain ⟨rs, hwire, hrs, hdata⟩ := writes_records written
  have hread := readSession_wireOf hbuf rs hrs 0
  have hpayloads : (rs.map TlsRecord.payload).flatten = dataOf rs := by
    rw [dataOf, List.flatMap]
    congr 1
    refine List.map_congr_left fun r hr => ?_
    rw [TlsRecord.data, (hrs r hr).recordType]
  refine ⟨⟨rs, hwire, hrs⟩, ?_, ?_⟩
  · rw [hwire, hread, hpayloads, hdata]
  · rw [hwire, hread]

/-- An empty write between two others, read into buffers of the smallest size. -/
theorem appdata_roundTrip_sample :
    (readSession (fun _ => tlsMaxRecordPayload) 0
      ([[1, 2], [], [3]].flatMap writeTlsAppdata)).1.flatten = [1, 2, 3] :=
  (appdata_roundTrip [[1, 2], [], [3]] (fun _ => tlsMaxRecordPayload) fun _ => le_rfl).2.1

end TgWsProxy
