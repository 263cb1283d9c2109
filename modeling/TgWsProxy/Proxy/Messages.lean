import TgWsProxy.Bridge
import TgWsProxy.FakeTls.Inbound

set_option relaxedAutoImplicit false
set_option autoImplicit false

/-!
# The messages of a WebSocket bridge

`bridge_ws` sends the relay init and then, with tunnel framing, one message for each client read,
and with packet framing what the splitter hands out. This holds whatever sends fail, whatever
arrives and whenever the session ends.

## Main definitions

* `TgWsProxy.ClientReader.events` — the events of a session, with the client's reads made through
  its reader.
* `TgWsProxy.MsgSplitter.Emits` — what a splitter hands out over any calls.

## Main results

* `TgWsProxy.Bridge.run_tunnel` — a tunnel sends nothing longer than the read buffer.
* `TgWsProxy.Bridge.run_packets` — with packet framing every message is an output of the splitter.
-/

namespace TgWsProxy

/-! ## Reads -/

/-- `CLIENT_READ_BUF_SIZE`. -/
def clientReadBufSize : ℕ := tlsMaxRecordPayload + tlsReadHeadroom

theorem length_appdataTurn_le {bufLen : ℕ} {stream payload rest : Bytes}
    (h : appdataTurn bufLen stream = .done payload rest) : payload.length ≤ bufLen := by
  rw [appdataTurn] at h
  split at h
  · cases h
    simp
  · simp only at h
    split_ifs at h with hlong hdata hccs
    · cases h
      simp
    · split at h
      · cases h
        simp
      · rename_i hpayload
        cases h
        have hlen := (length_readExact hpayload).1
        omega
    · split at h
      · cases h
        simp
      · cases h
    · cases h
      simp

/-- A TLS read fits into its buffer. -/
theorem length_readTlsAppdata_le (bufLen : ℕ) (stream : Bytes) :
    (readTlsAppdata bufLen stream).1.length ≤ bufLen := by
  fun_induction readTlsAppdata bufLen stream with
  | case1 stream payload rest hturn => exact length_appdataTurn_le hturn
  | case2 stream rest hturn ih => exact ih

/-- So does every client read. -/
theorem ClientReader.length_read_le (avail bufLen : ℕ) (reader : ClientReader) :
    (reader.read avail bufLen).1.length ≤ bufLen := by
  cases reader with
  | plain stream =>
    simp only [read, List.length_take]
    omega
  | fakeTls stream pending =>
    simp only [read]
    split_ifs
    · simp only [List.length_take]
      omega
    · exact length_readTlsAppdata_le bufLen stream

/-- What the two directions of a session wait for. -/
inductive SessionEvent (kind : BridgeKind)
  /-- A client read, with `avail` bytes arrived. -/
  | read (avail : ℕ)
  /-- A client read that fails. -/
  | readError
  | upstream (incoming : kind.Incoming)

/-- The events of a session whose client reads are made through `reader`. -/
def ClientReader.events {kind : BridgeKind} :
    ClientReader → List (SessionEvent kind) → List (BridgeEvent kind)
  | _, [] => []
  | reader, .read avail :: script =>
    .client (some (reader.read avail clientReadBufSize).1) ::
      (reader.read avail clientReadBufSize).2.events script
  | reader, .readError :: script => .client none :: reader.events script
  | reader, .upstream incoming :: script => .upstream incoming :: reader.events script

/-- No client read of a session is longer than the buffer. -/
theorem ClientReader.length_fromClient_le {kind : BridgeKind} (script : List (SessionEvent kind)) :
    ∀ (reader : ClientReader), ∀ e ∈ reader.events script,
      e.fromClient.length ≤ clientReadBufSize := by
  induction script with
  | nil =>
    intro reader e he
    cases he
  | cons event script ih =>
    intro reader e he
    cases event with
    | read avail =>
      rcases List.mem_cons.mp he with rfl | he
      · exact reader.length_read_le avail clientReadBufSize
      · exact ih _ e he
    | readError =>
      rcases List.mem_cons.mp he with rfl | he
      · exact Nat.zero_le _
      · exact ih _ e he
    | upstream incoming =>
      rcases List.mem_cons.mp he with rfl | he
      · exact Nat.zero_le _
      · exact ih _ e he

/-! ## What a splitter hands out -/

/-- From `s₀`, some calls of `split` and `flush` have led to a splitter and handed out these
parts. -/
inductive MsgSplitter.Emits (P : Primitives) (s₀ : MsgSplitter) : MsgSplitter → List Bytes → Prop
  | start : Emits P s₀ s₀ []
  | split {s s' : MsgSplitter} {outs parts : List Bytes} {encrypted : Bytes} :
      Emits P s₀ s outs → s.split P encrypted = some (parts, s') →
      Emits P s₀ s' (outs ++ parts)
  | flush {s : MsgSplitter} {outs : List Bytes} :
      Emits P s₀ s outs → Emits P s₀ s.flush.2 (outs ++ s.flush.1)

namespace Bridge

variable {P : Primitives} {oracle : BridgeOracle}

/-! ## Sending -/

/-- The parts of a read that are sent are some of them, in order, and nothing else changes. -/
theorem sendParts_sent (oracle : BridgeOracle) (parts : List Bytes) :
    ∀ b : Bridge, ∃ taken : List Bytes, taken.Sublist parts ∧
      (b.sendParts oracle parts).1.sent = b.sent ++ taken ∧
      (b.sendParts oracle parts).1.splitter = b.splitter := by
  induction parts with
  | nil => exact fun b => ⟨[], .slnil, by simp [sendParts], rfl⟩
  | cons p ps ih =>
    intro b
    by_cases hok : oracle.sendOk b.sends = true
    · obtain ⟨taken, htaken, hsent, hsplitter⟩ := ih (b.send oracle p).1
      have hparts : b.sendParts oracle (p :: ps) = (b.send oracle p).1.sendParts oracle ps := by
        rw [sendParts, if_pos (by simp [send, hok])]
      refine ⟨p :: taken, htaken.cons_cons p, ?_, ?_⟩
      · rw [hparts, hsent]
        simp [send, hok]
      · rw [hparts, hsplitter]
        simp [send, hok]
    · have hparts : b.sendParts oracle (p :: ps) = b.send oracle p := by
        rw [sendParts, if_neg (by simp [send, hok])]
      refine ⟨[], List.nil_sublist _, ?_, ?_⟩
      · rw [hparts]
        simp [send, hok]
      · rw [hparts]
        simp [send, hok]

/-- The same for the parts of a flush. -/
theorem sendFlushed_sent (oracle : BridgeOracle) (parts : List Bytes) :
    ∀ b : Bridge, ∃ taken : List Bytes, taken.Sublist parts ∧
      (b.sendFlushed oracle parts).sent = b.sent ++ taken ∧
      (b.sendFlushed oracle parts).splitter = b.splitter := by
  induction parts with
  | nil => exact fun b => ⟨[], .slnil, by simp [sendFlushed], rfl⟩
  | cons p ps ih =>
    intro b
    obtain ⟨taken, htaken, hsent, hsplitter⟩ := ih (b.send oracle p).1
    by_cases hok : oracle.sendOk b.sends = true
    · refine ⟨p :: taken, htaken.cons_cons p, ?_, ?_⟩
      · rw [sendFlushed, hsent]
        simp [send, hok]
      · rw [sendFlushed, hsplitter]
        simp [send, hok]
    · refine ⟨taken, htaken.cons p, ?_, ?_⟩
      · rw [sendFlushed, hsent]
        simp [send, hok]
      · rw [sendFlushed, hsplitter]
        simp [send, hok]

@[simp] theorem download_sent (b : Bridge) (data : Bytes) :
    (b.download P oracle data).sent = b.sent := by
  simp only [download]
  split_ifs <;> rfl

@[simp] theorem download_splitter (b : Bridge) (data : Bytes) :
    (b.download P oracle data).splitter = b.splitter := by
  simp only [download]
  split_ifs <;> rfl

/-- What a step does to the upload side: nothing, or it handles a client read, or the upload is
finished. -/
theorem step_upload_cases {kind : BridgeKind} {b b' : Bridge} {event : BridgeEvent kind}
    (h : b.step P oracle kind event = some b') :
    (b'.sent = b.sent ∧ b'.splitter = b.splitter) ∨
      (b.closed = false ∧ ∃ chunk, event.fromClient = chunk ∧ b.upload P oracle chunk = some b') ∨
      (b.closed = false ∧ b' = b.finishUpload oracle) := by
  unfold step at h
  split_ifs at h with hclosed
  · cases h
    exact .inl ⟨rfl, rfl⟩
  · rw [Bool.not_eq_true] at hclosed
    cases event with
    | client read =>
      rcases read with _ | _ | ⟨x, xs⟩
      · cases h
        exact .inr (.inr ⟨hclosed, rfl⟩)
      · cases h
        exact .inr (.inr ⟨hclosed, rfl⟩)
      · exact .inr (.inl ⟨hclosed, x :: xs, rfl, h⟩)
    | upstream incoming =>
      simp only at h
      cases hreceived : kind.received incoming with
      | data bytes =>
        simp only [hreceived] at h
        cases h
        exact .inl ⟨download_sent b bytes, download_splitter b bytes⟩
      | skip =>
        simp only [hreceived] at h
        cases h
        exact .inl ⟨rfl, rfl⟩
      | ended =>
        simp only [hreceived] at h
        cases h
        exact .inl ⟨rfl, rfl⟩

/-- What the events of a run keep, the run keeps. -/
theorem run_invariant {kind : BridgeKind} {I : Bridge → Prop} (events : List (BridgeEvent kind)) :
    (∀ b e b', e ∈ events → I b → b.step P oracle kind e = some b' → I b') →
      ∀ {b b' : Bridge}, I b → b.run P oracle kind events = some b' → I b' := by
  induction events with
  | nil =>
    intro _ b b' hb hrun
    cases hrun
    exact hb
  | cons e es ih =>
    intro hstep b b' hb hrun
    obtain ⟨b₁, hfirst, hrest⟩ := Option.bind_eq_some_iff.mp hrun
    exact ih (fun b e b' he => hstep b e b' (List.mem_cons_of_mem _ he))
      (hstep b e b₁ List.mem_cons_self hb hfirst) hrest

/-! ## Tunnel framing -/

/-- A bridge without a splitter that has sent nothing longer than `bound`. -/
def Tunnels (bound : ℕ) (b : Bridge) : Prop :=
  b.splitter = none ∧ ∀ msg ∈ b.sent, msg.length ≤ bound

theorem send_tunnels {bound : ℕ} {b : Bridge} (h : b.Tunnels bound) {part : Bytes}
    (hpart : part.length ≤ bound) : (b.send oracle part).1.Tunnels bound := by
  obtain ⟨hnone, hsent⟩ := h
  rw [send]
  split_ifs
  · refine ⟨hnone, fun msg hmsg => ?_⟩
    rcases List.mem_append.mp hmsg with hmsg | hmsg
    · exact hsent msg hmsg
    · rw [List.mem_singleton.mp hmsg]
      exact hpart
  · exact ⟨hnone, hsent⟩

theorem step_tunnels {kind : BridgeKind} {bound : ℕ} {b b' : Bridge} {event : BridgeEvent kind}
    (h : b.Tunnels bound) (hevent : event.fromClient.length ≤ bound)
    (hstep : b.step P oracle kind event = some b') : b'.Tunnels bound := by
  rcases step_upload_cases hstep with ⟨hsent, hsplitter⟩ | ⟨-, chunk, rfl, hupload⟩ | ⟨-, rfl⟩
  · exact ⟨hsplitter.trans h.1, by rw [hsent]; exact h.2⟩
  · simp only [upload, h.1] at hupload
    cases hupload
    -- one message, as long as the read
    apply send_tunnels
    · exact ⟨rfl, h.2⟩
    · simpa [AesCtr256.applyKeystream] using hevent
  · simp only [finishUpload, h.1]
    exact ⟨rfl, h.2⟩

/-- **A tunnel** sends no message longer than the read buffer, in any session. -/
theorem run_tunnel {relayInit : Block 64} {c : ConnectionCiphers} {proto : ProtoTag}
    {events : List (BridgeEvent (.ws .tunnel))} {b : Bridge}
    (hevents : ∀ e ∈ events, e.fromClient.length ≤ clientReadBufSize)
    (hrun : (start P oracle (.ws .tunnel) relayInit c proto).run P oracle (.ws .tunnel) events =
      some b) : ∀ msg ∈ b.sent, msg.length ≤ clientReadBufSize := by
  have hstart : (start P oracle (.ws .tunnel) relayInit c proto).Tunnels clientReadBufSize := by
    apply send_tunnels
    · exact ⟨rfl, fun msg hmsg => by cases hmsg⟩
    · rw [relayInit.length_bytes]
      decide
  exact (run_invariant events (fun b e b' he h hstep => step_tunnels h (hevents e he) hstep)
    hstart hrun).2

/-! ## Packet framing -/

/-- A bridge that has sent its relay init, unless that failed, and then outputs of its splitter. -/
def Packets (P : Primitives) (relayInit : Block 64) (proto : ProtoTag) (b : Bridge) : Prop :=
  ∃ splitter outs, b.splitter = some splitter ∧
    (MsgSplitter.new P relayInit proto).Emits P splitter outs ∧
    ((b.closed = true ∧ b.sent = []) ∨
      ∃ msgs, b.sent = relayInit.bytes :: msgs ∧ msgs.Sublist outs)

variable {relayInit : Block 64} {proto : ProtoTag}

theorem start_packets (P : Primitives) (oracle : BridgeOracle) (relayInit : Block 64)
    (c : ConnectionCiphers) (proto : ProtoTag) :
    (start P oracle (.ws .packets) relayInit c proto).Packets P relayInit proto := by
  simp only [start, send]
  split_ifs
  · exact ⟨_, [], rfl, .start, .inr ⟨[], rfl, .slnil⟩⟩
  · exact ⟨_, [], rfl, .start, .inl ⟨rfl, rfl⟩⟩

theorem step_packets {kind : BridgeKind} {b b' : Bridge} {event : BridgeEvent kind}
    (h : b.Packets P relayInit proto) (hstep : b.step P oracle kind event = some b') :
    b'.Packets P relayInit proto := by
  obtain ⟨s, outs, hs, hemits, hsent⟩ := h
  by_cases hclosed : b.closed = true
  · unfold step at hstep
    rw [if_pos hclosed] at hstep
    cases hstep
    exact ⟨s, outs, hs, hemits, hsent⟩
  obtain ⟨msgs, hsent, hmsgs⟩ := hsent.resolve_left fun h => hclosed h.1
  rcases step_upload_cases hstep with
    ⟨hsame, hsplitter⟩ | ⟨-, chunk, -, hupload⟩ | ⟨-, rfl⟩
  · exact ⟨s, outs, hsplitter.trans hs, hemits, .inr ⟨msgs, hsame.trans hsent, hmsgs⟩⟩
  · simp only [upload, hs] at hupload
    obtain ⟨⟨parts, s'⟩, hsplit, hupload⟩ := Option.bind_eq_some_iff.mp hupload
    cases hupload
    -- a read: some of the parts that the splitter returned for it
    obtain ⟨taken, htaken, hafter, hsplitter⟩ := sendParts_sent oracle parts
      { b with
        ciphers := { b.ciphers with
          cltDec := (b.ciphers.cltDec.applyKeystream P chunk).2
          tgEnc := (b.ciphers.tgEnc.applyKeystream P
            (b.ciphers.cltDec.applyKeystream P chunk).1).2 }
        splitter := some s' }
    refine ⟨s', outs ++ parts, hsplitter, hemits.split hsplit,
      .inr ⟨msgs ++ taken, ?_, hmsgs.append htaken⟩⟩
    rw [← List.cons_append, ← hsent]
    exact hafter
  · -- the end of the upload: some of the flushed parts
    obtain ⟨taken, htaken, hafter, hsplitter⟩ := sendFlushed_sent oracle s.flush.1
      { b with splitter := some s.flush.2 }
    simp only [finishUpload, hs]
    refine ⟨s.flush.2, outs ++ s.flush.1, hsplitter, hemits.flush,
      .inr ⟨msgs ++ taken, ?_, hmsgs.append htaken⟩⟩
    rw [← List.cons_append, ← hsent]
    exact hafter

/-- **Packet framing** sends outputs of the splitter after the relay init, in any session. -/
theorem run_packets {c : ConnectionCiphers} {events : List (BridgeEvent (.ws .packets))}
    {b : Bridge} (hrun : (start P oracle (.ws .packets) relayInit c proto).run P oracle
      (.ws .packets) events = some b) : b.Packets P relayInit proto := by
  exact run_invariant events (fun b e b' _ h hstep => step_packets h hstep)
    (start_packets P oracle relayInit c proto) hrun

/-! ## Sessions -/

/-- `bridge_ws` on a client's reader, after the events of a script. -/
def Session (P : Primitives) (oracle : BridgeOracle) (framing : WsFraming) (relayInit : Block 64)
    (c : ConnectionCiphers) (proto : ProtoTag) (reader : ClientReader)
    (script : List (SessionEvent (.ws framing))) (b : Bridge) : Prop :=
  (start P oracle (.ws framing) relayInit c proto).run P oracle (.ws framing)
    (reader.events script) = some b

end Bridge

end TgWsProxy
