import TgWsProxy.FakeTls.ServerHello
import TgWsProxy.FakeTls.Writer

set_option relaxedAutoImplicit false
set_option autoImplicit false

/-!
# Streams that are still arriving

A reader waits until what it reads has arrived. What it returns then is what it returns on every
longer stream, and what arrived later is left. So a call on the bytes that are there says whether
it can return, and what.

## Main definitions

* `TgWsProxy.StreamFraming` — how a byte stream carries what is written to it.

## Main results

* `TgWsProxy.readTlsAppdata_stable`, `readTlsRecord_stable`, `drainFaketlsServerHello_stable`,
  `readInit_stable` — the readers of `faketls.rs` and `proxy.rs`.
* `TgWsProxy.readTlsAppdata_arrived` — a read on part of a stream of records.
* `TgWsProxy.StreamFraming.payload_prefix` — what part of a stream carries.
-/

namespace TgWsProxy

/-! ## The readers -/

theorem readExact_stable {n : ℕ} {stream bytes rest : Bytes}
    (h : readExact n stream = (some bytes, rest)) (more : Bytes) :
    readExact n (stream ++ more) = (some bytes, rest ++ more) := by
  rw [readExact] at h
  split_ifs at h with hn
  swap
  · cases h
  cases h
  have hn' : n ≤ (stream ++ more).length := by rw [List.length_append]; omega
  rw [readExact, if_pos hn', List.take_append_of_le_length hn, List.drop_append_of_le_length hn]

/-- The two ways of `read_tls_appdata` to have made progress. -/
theorem appdataTurn_stable {bufLen : ℕ} {stream rest : Bytes} (more : Bytes) :
    (∀ payload, appdataTurn bufLen stream = .done payload rest → payload ≠ [] →
      appdataTurn bufLen (stream ++ more) = .done payload (rest ++ more)) ∧
    (appdataTurn bufLen stream = .again rest →
      appdataTurn bufLen (stream ++ more) = .again (rest ++ more)) := by
  rw [appdataTurn]
  split
  · exact ⟨by rintro payload ⟨⟩ hne; exact absurd rfl hne, fun h => (by cases h)⟩
  · rename_i header behind hheader
    rw [appdataTurn, readExact_stable hheader more]
    simp only
    split_ifs
    · exact ⟨by rintro payload ⟨⟩ hne; exact absurd rfl hne, fun h => (by cases h)⟩
    · split
      · exact ⟨by rintro payload ⟨⟩ hne; exact absurd rfl hne, fun h => (by cases h)⟩
      · rename_i hpayload
        rw [readExact_stable hpayload more]
        exact ⟨by rintro payload ⟨⟩ -; rfl, fun h => (by cases h)⟩
    · split
      · exact ⟨by rintro payload ⟨⟩ hne; exact absurd rfl hne, fun h => (by cases h)⟩
      · rename_i hpayload
        rw [readExact_stable hpayload more]
        exact ⟨fun payload h => (by cases h), by rintro ⟨⟩; rfl⟩
    · exact ⟨by rintro payload ⟨⟩ hne; exact absurd rfl hne, fun h => (by cases h)⟩

theorem readTlsAppdata_stable {bufLen : ℕ} {stream payload rest : Bytes}
    (h : readTlsAppdata bufLen stream = (payload, rest)) (hne : payload ≠ []) (more : Bytes) :
    readTlsAppdata bufLen (stream ++ more) = (payload, rest ++ more) := by
  fun_induction readTlsAppdata bufLen stream with
  | case1 stream payload' rest' hturn =>
    cases h
    exact readTlsAppdata_of_done ((appdataTurn_stable more).1 payload hturn hne)
  | case2 stream rest' hturn ih =>
    rw [readTlsAppdata_of_again ((appdataTurn_stable more).2 hturn)]
    exact ih h

theorem readTlsRecord_stable {maxPayloadLen : ℕ} {stream rest : Bytes}
    {record : UInt8 × Bytes × Bytes}
    (h : readTlsRecord maxPayloadLen stream = (some record, rest)) (more : Bytes) :
    readTlsRecord maxPayloadLen (stream ++ more) = (some record, rest ++ more) := by
  rw [readTlsRecord] at h
  split at h
  · cases h
  rename_i header behind hheader
  simp only at h
  split_ifs at h with hlen
  · cases h
  split at h
  · cases h
  rename_i payload behind' hpayload
  cases h
  rw [readTlsRecord, readExact_stable hheader more]
  simp only [if_neg hlen, readExact_stable hpayload more]

theorem drainTurn_stable {stream rest : Bytes} (more : Bytes) :
    (drainTurn stream = .done true rest → drainTurn (stream ++ more) = .done true (rest ++ more)) ∧
    (drainTurn stream = .again rest → drainTurn (stream ++ more) = .again (rest ++ more)) := by
  rw [drainTurn]
  split
  · exact ⟨fun h => (by cases h), fun h => (by cases h)⟩
  · rename_i header behind hheader
    rw [drainTurn, readExact_stable hheader more]
    dsimp only
    cases hpayload : readExact (u16At header 3) behind with
    | mk found behind' =>
      cases found with
      | none =>
        simp only
        split_ifs
        all_goals exact ⟨fun h => (by cases h), fun h => (by cases h)⟩
      | some payload =>
        rw [readExact_stable hpayload more]
        simp only
        split_ifs
        · exact ⟨fun h => (by cases h), fun h => (by cases h)⟩
        · exact ⟨fun h => (by cases h), fun h => (by cases h)⟩
        · exact ⟨fun h => (by cases h), by rintro ⟨⟩; rfl⟩
        · exact ⟨by rintro ⟨⟩; rfl, fun h => (by cases h)⟩
        · exact ⟨fun h => (by cases h), fun h => (by cases h)⟩

theorem drainRecords_stable {n : ℕ} {stream rest : Bytes}
    (h : drainRecords n stream = (true, rest)) (more : Bytes) :
    drainRecords n (stream ++ more) = (true, rest ++ more) := by
  induction n generalizing stream with
  | zero => cases h
  | succ n ih =>
    rw [drainRecords] at h ⊢
    cases hturn : drainTurn stream with
    | done complete behind =>
      rw [hturn] at h
      cases h
      rw [(drainTurn_stable more).1 hturn]
    | again behind =>
      rw [hturn] at h
      rw [(drainTurn_stable more).2 hturn]
      exact ih h

theorem drainFaketlsServerHello_stable {stream rest : Bytes}
    (h : drainFaketlsServerHello stream = (true, rest)) (more : Bytes) :
    drainFaketlsServerHello (stream ++ more) = (true, rest ++ more) :=
  drainRecords_stable h more

theorem readInit_stable {buf : Block 64} {filled : ℕ} {stream rest : Bytes}
    {found : Block 64 × Bytes} (h : readInit buf filled stream = (some found, rest))
    (more : Bytes) : readInit buf filled (stream ++ more) = (some found, rest ++ more) := by
  fun_induction readInit buf filled stream with
  | case1 buf filled stream hfull chunk behind hend => cases h
  | case2 buf stream chunk behind hend take buf' hlong =>
    have hread : readTlsAppdata tlsReadBufLen stream = (chunk, behind) := rfl
    have hread' := readTlsAppdata_stable hread hend more
    obtain ⟨hsplit, rfl⟩ := Prod.mk.inj h
    rw [readInit, if_pos (by decide)]
    simp only [hread', dif_neg hend]
    rw [if_pos hlong, if_pos trivial, hsplit]
  | case3 buf filled stream hfull chunk behind hend take buf' hlong hfirst =>
    have hread : readTlsAppdata tlsReadBufLen stream = (chunk, behind) := rfl
    have hread' := readTlsAppdata_stable hread hend more
    obtain ⟨hfound, rfl⟩ := Prod.mk.inj h
    rw [readInit, if_pos hfull]
    simp only [hread', dif_neg hend]
    rw [if_pos hlong, if_neg hfirst, hfound]
  | case4 buf filled stream hfull chunk behind hend take buf' hfits ih =>
    have hread : readTlsAppdata tlsReadBufLen stream = (chunk, behind) := rfl
    have hread' := readTlsAppdata_stable hread hend more
    rw [readInit, if_pos hfull]
    simp only [hread', dif_neg hend]
    rw [if_neg hfits]
    exact ih h
  | case5 buf filled stream hfull =>
    cases h
    rw [readInit, if_neg hfull]

/-! ## Records that are still arriving -/

theorem TlsRecord.Written.fits {r : TlsRecord} (h : r.Written) : r.Fits ∧ ¬ r.IsEmptyData := by
  refine ⟨h.bounded.trans (Nat.le_add_right _ _), fun hempty => ?_⟩
  have hpos := h.nonempty
  rw [hempty.2] at hpos
  simp at hpos

theorem sendable_of_written {rs : List TlsRecord} (h : ∀ r ∈ rs, r.Written) : Sendable rs :=
  fun r hr => (h r hr).fits

section Arrived

variable {bufLen : ℕ} (hbuf : tlsReadBufLen ≤ bufLen)

include hbuf

/-- A read that returns something takes the first record, of which everything has arrived. -/
theorem readTlsAppdata_arrived {stream more payload rest : Bytes} {rs : List TlsRecord}
    (hrs : ∀ r ∈ rs, r.Written) (hstream : stream ++ more = wireOf rs)
    (hread : readTlsAppdata bufLen stream = (payload, rest)) (hne : payload ≠ []) :
    ∃ r rs', rs = r :: rs' ∧ payload = r.payload ∧ stream = r.wire ++ rest ∧
      rest ++ more = wireOf rs' := by
  have hall := readTlsAppdata_stable hread hne more
  cases rs with
  | nil =>
    rw [hstream, show wireOf [] = [] from rfl, readTlsAppdata_nil] at hall
    exact absurd (Prod.mk.inj hall).1.symm hne
  | cons r rs =>
    have hr := hrs r List.mem_cons_self
    have hwire : wireOf (r :: rs) = r.wire ++ wireOf rs := wireOf_cons r rs
    rw [hstream, hwire, readTlsAppdata_applicationData hbuf hr.fits.1 _ hr.recordType] at hall
    obtain ⟨rfl, hrest⟩ := Prod.mk.inj hall
    refine ⟨r, rs, rfl, rfl, ?_, hrest.symm⟩
    rw [hwire, hrest, ← List.append_assoc] at hstream
    exact List.append_cancel_right hstream

/-- What is read of such a stream is data of the records, in order. -/
theorem dataPhase_arrived (rs : List TlsRecord) (hrs : ∀ r ∈ rs, r.Written) :
    ∀ {stream more : Bytes}, stream ++ more = wireOf rs →
      (dataPhase bufLen stream).1.flatten <+: dataOf rs := by
  induction rs with
  | nil =>
    intro stream more hstream
    obtain ⟨rfl, -⟩ := List.append_eq_nil_iff.mp hstream
    rw [dataPhase_of_empty (readTlsAppdata_nil bufLen)]
    exact List.nil_prefix
  | cons r rs ih =>
    intro stream more hstream
    by_cases hend : (readTlsAppdata bufLen stream).1 = []
    · rw [dataPhase, dif_pos hend]
      exact List.nil_prefix
    · obtain ⟨r', rs', hcons, hpayload, -, hrest⟩ :=
        readTlsAppdata_arrived hbuf hrs hstream rfl hend
      obtain ⟨rfl, rfl⟩ := List.cons.inj hcons
      have hr := hrs r List.mem_cons_self
      rw [dataPhase, dif_neg hend]
      dsimp only
      rw [List.flatten_cons, hpayload, dataOf_cons, TlsRecord.data, hr.recordType]
      exact (List.prefix_append_right_inj _).mpr
        (ih (fun r hr => hrs r (List.mem_cons_of_mem _ hr)) hrest)

end Arrived

/-! ## Framed streams -/

/-- The writes of `write_tls_appdata` from an offset on, a header and a chunk for each record. -/
def appdataWritesFrom (data : Bytes) (offset : ℕ) : List Bytes :=
  if _hmore : offset < data.length then
    let stop := min (offset + tlsMaxAppdataWrite) data.length
    let chunk := (data.drop offset).take (stop - offset)
    let len := chunk.length
    [tlsRecordApplicationData, 0x03, 0x03, UInt8.ofNat (len / 256), UInt8.ofNat len] :: chunk ::
      appdataWritesFrom data stop
  else []
termination_by data.length - offset
decreasing_by
  simp only [tlsMaxAppdataWrite, tlsMaxRecordPayload]
  omega

theorem flatten_appdataWritesFrom (data : Bytes) (offset : ℕ) :
    (appdataWritesFrom data offset).flatten = writeTlsAppdataFrom data offset := by
  fun_induction appdataWritesFrom data offset with
  | case1 offset hmore stop chunk len ih =>
    rw [writeTlsAppdataFrom, dif_pos hmore, List.flatten_cons, List.flatten_cons, ih]
    simp only [List.append_assoc, chunk, stop, len]
  | case2 offset hmore =>
    rw [writeTlsAppdataFrom, dif_neg hmore]
    rfl

/-- How a byte stream carries what is written to it: as it is, or in Application Data records. -/
inductive StreamFraming
  | raw
  | records
  deriving DecidableEq

namespace StreamFraming

/-- The `write_all` calls on the socket for one stretch of data. -/
def writes : StreamFraming → Bytes → List Bytes
  | .raw, data => [data]
  | .records, data => appdataWritesFrom data 0

/-- What has arrived of the data on a stream: everything, or what the reader of the records
returns. -/
def payload : StreamFraming → Bytes → Bytes
  | .raw, stream => stream
  | .records, stream => (dataPhase tlsReadBufLen stream).1.flatten

variable (framing : StreamFraming)

theorem flatten_writes (data : Bytes) : (framing.writes data).flatten =
    match framing with
    | .raw => data
    | .records => writeTlsAppdata data := by
  cases framing with
  | raw => simp [writes]
  | records => exact flatten_appdataWritesFrom data 0

/-- A sequence of writes, framed in records. -/
theorem writes_wireOf (datas : List Bytes) :
    ∃ rs : List TlsRecord, (datas.flatMap StreamFraming.records.writes).flatten = wireOf rs ∧
      (∀ r ∈ rs, r.Written) ∧ dataOf rs = datas.flatten := by
  obtain ⟨rs, hwire, hrs, hdata⟩ := writes_records datas
  refine ⟨rs, ?_, hrs, hdata⟩
  rw [← hwire, List.flatMap_def, List.flatMap_def, List.flatten_flatten, List.map_map]
  congr 1
  exact List.map_congr_left fun data _ => flatten_writes .records data

theorem flatten_flatMap_raw (datas : List Bytes) :
    (datas.flatMap StreamFraming.raw.writes).flatten = datas.flatten := by
  induction datas with
  | nil => rfl
  | cons data datas ih => simp [writes, ← ih]

/-- **What part of a stream carries.** If a stream has everything of the writes of `before` and
nothing but those of `datas`, it carries `before` and nothing but `datas`. -/
theorem payload_prefix {stream : Bytes} (before datas : List Bytes)
    (hbefore : (before.flatMap framing.writes).flatten <+: stream)
    (hdatas : stream <+: (datas.flatMap framing.writes).flatten) :
    before.flatten <+: framing.payload stream ∧ framing.payload stream <+: datas.flatten := by
  cases framing with
  | raw =>
    rw [flatten_flatMap_raw] at hbefore hdatas
    exact ⟨hbefore, hdatas⟩
  | records =>
    obtain ⟨rs, hrs, hwritten, hdata⟩ := writes_wireOf before
    obtain ⟨ss, hss, hwritten', hdata'⟩ := writes_wireOf datas
    obtain ⟨behind, rfl⟩ := hbefore
    obtain ⟨more, hmore⟩ := hdatas
    refine ⟨?_, ?_⟩
    · rw [payload, hrs, (dataPhase_append le_rfl behind rs fun r hr => (hwritten r hr).fits).1,
        hdata]
      exact List.prefix_append _ _
    · rw [← hdata']
      exact dataPhase_arrived le_rfl ss hwritten' (hmore.trans hss)

/-- A stream that has everything carries everything. -/
theorem payload_writes (datas : List Bytes) :
    framing.payload (datas.flatMap framing.writes).flatten = datas.flatten := by
  obtain ⟨hle, hge⟩ := framing.payload_prefix datas datas List.prefix_rfl List.prefix_rfl
  exact (hle.eq_of_length_le hge.length_le).symm

end StreamFraming

end TgWsProxy
