import TgWsProxy.Bridge.Accounts

set_option relaxedAutoImplicit false
set_option autoImplicit false

/-!
# The connection between two proxies

One side writes a stretch of bytes of its own, then what its bridge sends; the other side reads
them, in pieces of any size, or record by record.

## Main definitions

* `TgWsProxy.Wire` — one direction of a connection.
* `TgWsProxy.Wire.Delivers` — what a wait for data can come to.
* `TgWsProxy.Wire.Flows` — everything written has been read or is in flight.

## Main results

* `TgWsProxy.Wire.Flows.write`, `Flows.deliver` — both ends keep it.
* `TgWsProxy.Wire.Flows.payload` — what has been read is what was written, up to what is in flight.
* `TgWsProxy.Session.Invariant.framed_up`, `framed_down` — what a session writes.
-/

namespace TgWsProxy

/-- One direction of a connection: everything written to it, and what has not been read yet. -/
structure Wire where
  written : Bytes
  flight : Bytes

namespace Wire

/-- Nothing has been written. -/
def empty : Wire := ⟨[], []⟩

/-- What is written is in flight. -/
def write (w : Wire) (bytes : Bytes) : Wire := ⟨w.written ++ bytes, w.flight ++ bytes⟩

@[simp] theorem write_nil (w : Wire) : w.write [] = w := by simp [write]

/-- A wait for data is over when something else has happened, when a piece of what has arrived is
handed out, or when a record has arrived. -/
inductive Delivers (framing : StreamFraming) (w : Wire) : Option Bytes → Wire → Prop
  | other : Delivers framing w none w
  | piece {data rest : Bytes} : framing = .raw → data ≠ [] → w.flight = data ++ rest →
      Delivers framing w (some data) ⟨w.written, rest⟩
  | record {bufLen : ℕ} {arrived behind data rest : Bytes} : framing = .records →
      tlsReadBufLen ≤ bufLen → w.flight = arrived ++ behind →
      readTlsAppdata bufLen arrived = (data, rest) → data ≠ [] →
      Delivers framing w (some data) ⟨w.written, rest ++ behind⟩

end Wire

namespace StreamFraming

/-- Part of what writes put on a stream. -/
def Framed (framing : StreamFraming) (stream : Bytes) : Prop :=
  ∃ datas : List Bytes, stream <+: (datas.flatMap framing.writes).flatten

/-- The bytes that have been taken off a stream for some reads. -/
def Carries : StreamFraming → Bytes → List Bytes → Prop
  | .raw, consumed, reads => consumed = reads.flatten
  | .records, consumed, reads =>
    ∃ rs : List TlsRecord, consumed = wireOf rs ∧ (∀ r ∈ rs, r.Written) ∧
      reads = rs.map TlsRecord.payload

variable {framing : StreamFraming}

theorem carries_nil : framing.Carries [] [] := by
  cases framing with
  | raw => rfl
  | records => exact ⟨[], rfl, nofun, rfl⟩

/-- A written record is its payload. -/
theorem written_ext {r s : TlsRecord} (hr : r.Written) (hs : s.Written)
    (h : r.payload = s.payload) : r = s := by
  obtain ⟨rtype, rversion, rpayload⟩ := r
  obtain ⟨stype, sversion, spayload⟩ := s
  obtain rfl := hr.recordType
  obtain rfl := hs.recordType
  obtain rfl := hr.version
  obtain rfl := hs.version
  exact congrArg _ h

theorem written_ne_nil {r : TlsRecord} (hr : r.Written) : r.payload ≠ [] := by
  intro hnil
  have hpos := hr.nonempty
  rw [hnil] at hpos
  exact absurd hpos (by decide)

/-- The records at the front of a stream of records are the first ones. -/
theorem wireOf_cancel {rs : List TlsRecord} (hrs : ∀ r ∈ rs, r.Written) :
    ∀ {ss : List TlsRecord} {stream : Bytes}, (∀ r ∈ ss, r.Written) →
      wireOf rs ++ stream = wireOf ss →
      ∃ ss', ss = rs ++ ss' ∧ stream = wireOf ss' ∧ ∀ r ∈ ss', r.Written := by
  induction rs with
  | nil => exact fun hss h => ⟨_, rfl, h, hss⟩
  | cons r rs ih =>
    intro ss stream hss hstream
    have hr := hrs r List.mem_cons_self
    rw [wireOf_cons, List.append_assoc] at hstream
    have hall : r.wire ++ (wireOf rs ++ stream) ++ [] = wireOf ss := by
      rw [List.append_nil, hstream]
    obtain ⟨r', ss', rfl, hpayload, -, hrest⟩ := readTlsAppdata_arrived le_rfl hss hall
      (readTlsAppdata_applicationData le_rfl hr.fits.1 _ hr.recordType) (written_ne_nil hr)
    rw [List.append_nil] at hrest
    obtain rfl := written_ext hr (hss r' List.mem_cons_self) hpayload
    obtain ⟨ss'', rfl, hend, hwritten⟩ := ih (fun r hr => hrs r (List.mem_cons_of_mem _ hr))
      (fun r hr => hss r (List.mem_cons_of_mem _ hr)) hrest
    exact ⟨ss'', rfl, hend, hwritten⟩

theorem framed_records {stream : Bytes} (h : StreamFraming.records.Framed stream) :
    ∃ (ss : List TlsRecord) (more : Bytes), stream ++ more = wireOf ss ∧ ∀ r ∈ ss, r.Written := by
  obtain ⟨datas, more, hmore⟩ := h
  obtain ⟨ss, hss, hwritten, -⟩ := writes_wireOf datas
  exact ⟨ss, more, hmore.trans hss, hwritten⟩

/-- What has been read of a stream is what it carries, up to what is left. -/
theorem Carries.payload {consumed flight : Bytes} {reads : List Bytes}
    (h : framing.Carries consumed reads) :
    reads.flatten <+: framing.payload (consumed ++ flight) ∧
      (flight = [] → reads.flatten = framing.payload (consumed ++ flight)) := by
  cases framing with
  | raw =>
    obtain rfl : consumed = reads.flatten := h
    exact ⟨List.prefix_append _ _, fun hflight => by rw [hflight, List.append_nil]; rfl⟩
  | records =>
    obtain ⟨rs, rfl, hrs, rfl⟩ := h
    have hdata : (rs.map TlsRecord.payload).flatten = dataOf rs := by
      rw [dataOf, List.flatMap_def]
      congr 1
      refine List.map_congr_left fun r hr => ?_
      rw [TlsRecord.data, (hrs r hr).recordType]
    have hphase := (dataPhase_append le_rfl flight rs fun r hr => (hrs r hr).fits).1
    rw [hdata, StreamFraming.payload, hphase]
    refine ⟨List.prefix_append _ _, fun hflight => ?_⟩
    rw [hflight, dataPhase_of_empty (readTlsAppdata_nil tlsReadBufLen)]
    exact (List.append_nil _).symm

end StreamFraming

namespace Wire

variable {framing : StreamFraming} {w w' : Wire}

theorem Delivers.written {found : Option Bytes} (h : w.Delivers framing found w') :
    w'.written = w.written := by
  cases h <;> rfl

/-- One delivery. -/
theorem Delivers.carries {found : Option Bytes} {consumed : Bytes} {reads : List Bytes}
    (h : w.Delivers framing found w') (hcarries : framing.Carries consumed reads)
    (hframed : framing.Framed (consumed ++ w.flight)) :
    ∃ consumed', consumed ++ w.flight = consumed' ++ w'.flight ∧
      framing.Carries consumed' (reads ++ found.toList) := by
  cases h with
  | other => exact ⟨consumed, rfl, by simpa using hcarries⟩
  | @piece data rest hframing hne hflight =>
    subst hframing
    refine ⟨consumed ++ data, by rw [hflight, List.append_assoc], ?_⟩
    obtain rfl : consumed = reads.flatten := hcarries
    simp [StreamFraming.Carries]
  | @record bufLen arrived behind data rest hframing hbuf hflight hread hne =>
    subst hframing
    obtain ⟨rs, rfl, hrs, rfl⟩ := hcarries
    obtain ⟨ss, more, hstream, hss⟩ := StreamFraming.framed_records hframed
    rw [List.append_assoc] at hstream
    obtain ⟨ss', rfl, hrest, hss'⟩ := StreamFraming.wireOf_cancel hrs hss hstream
    rw [hflight, List.append_assoc] at hrest
    obtain ⟨r, ss'', rfl, rfl, harrived, -⟩ := readTlsAppdata_arrived hbuf hss' hrest hread hne
    refine ⟨wireOf rs ++ r.wire, by rw [hflight, harrived]; simp only [List.append_assoc],
      rs ++ [r], by simp [wireOf], fun s hs => ?_, by simp⟩
    rcases List.mem_append.mp hs with hs | hs
    · exact hrs s hs
    · rw [List.mem_singleton.mp hs]
      exact hss' r List.mem_cons_self

/-- Behind the preface, everything written has been read or is in flight. -/
structure Flows (framing : StreamFraming) (preface sent : Bytes) (reads : List Bytes) (w : Wire) :
    Prop where
  written : w.written = preface ++ sent
  split : ∃ consumed, sent = consumed ++ w.flight ∧ framing.Carries consumed reads

namespace Flows

variable {preface sent : Bytes} {reads : List Bytes}

/-- Nothing has been read. -/
theorem start (hwritten : w.written = preface ++ sent) (hflight : w.flight = sent) :
    w.Flows framing preface sent [] :=
  ⟨hwritten, [], hflight.symm, StreamFraming.carries_nil⟩

/-- The writer goes on. -/
theorem write (h : w.Flows framing preface sent reads) (more : Bytes) :
    (w.write more).Flows framing preface (sent ++ more) reads := by
  obtain ⟨consumed, hsent, hcarries⟩ := h.split
  refine ⟨?_, consumed, ?_, hcarries⟩
  · rw [Wire.write, h.written, List.append_assoc]
  · rw [Wire.write, hsent, List.append_assoc]

/-- The reader goes on. -/
theorem deliver (h : w.Flows framing preface sent reads) (hframed : framing.Framed sent)
    {found : Option Bytes} (hdeliver : w.Delivers framing found w') :
    w'.Flows framing preface sent (reads ++ found.toList) := by
  obtain ⟨consumed, hsent, hcarries⟩ := h.split
  rw [hsent] at hframed
  obtain ⟨consumed', hsame, hcarries'⟩ := hdeliver.carries hcarries hframed
  exact ⟨hdeliver.written.trans h.written, consumed', hsent.trans hsame, hcarries'⟩

/-- **What has been read is what was written, up to what is in flight.** -/
theorem payload (h : w.Flows framing preface sent reads) :
    reads.flatten <+: framing.payload sent ∧
      (w.flight = [] → reads.flatten = framing.payload sent) := by
  obtain ⟨consumed, hsent, hcarries⟩ := h.split
  rw [hsent]
  exact hcarries.payload

end Flows

end Wire

/-! ## What a session writes -/

namespace Session

variable {P : Primitives} {kind : SessionKind} {client : StreamFraming} {relayInit : Block 64}
  {proto : ProtoTag} {c : ConnectionCiphers} {s s' : Session}

/-- What goes upstream, reads being sent whole. -/
theorem Invariant.framed_up (h : Invariant P kind client (start P kind relayInit proto c) s)
    (hkind : kind ≠ .ws .packets) : kind.framing.Framed s.up.sent.flatten := by
  obtain ⟨out, u, hturns, hup⟩ := uploadTask_turns (fun hk => absurd hk hkind) s.up.reads h.reads
  have honly := h.up.covers.only out u hturns
  obtain ⟨hnone, chunks, -, rfl⟩ := hup.whole hkind
  have hfinish : (uploadTask P kind).finish u = [] := by
    simp only [uploadTask, Upload.finish, hnone]
  rw [hfinish, List.append_nil] at honly
  exact ⟨chunks, honly⟩

/-- What goes to the client. -/
theorem Invariant.framed_down (h : Invariant P kind client (start P kind relayInit proto c) s) :
    client.Framed s.down.sent.flatten := by
  obtain ⟨chunks, -, hturns⟩ :=
    downloadTask_turns P c client s.down.reads
  have honly := h.down.covers.only _ _ hturns
  rw [show (downloadTask P client).finish _ = [] from rfl, List.append_nil] at honly
  exact ⟨chunks, honly⟩

/-- What a session has sent since. -/
def sentUp (s s' : Session) : Bytes := (s'.up.sent.drop s.up.sent.length).flatten
def sentDown (s s' : Session) : Bytes := (s'.down.sent.drop s.down.sent.length).flatten

theorem step_sentUp {e : TaskEvent kind} (hstep : s.step P kind client e = some s') :
    s'.up.sent.flatten = s.up.sent.flatten ++ s.sentUp s' := by
  obtain ⟨more, hmore⟩ := (step_sent hstep).1
  rw [sentUp, ← hmore, List.drop_left, List.flatten_append]

theorem step_sentDown {e : TaskEvent kind} (hstep : s.step P kind client e = some s') :
    s'.down.sent.flatten = s.down.sent.flatten ++ s.sentDown s' := by
  obtain ⟨more, hmore⟩ := (step_sent hstep).2
  rw [sentDown, ← hmore, List.drop_left, List.flatten_append]

end Session

end TgWsProxy
