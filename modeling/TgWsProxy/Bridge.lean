import TgWsProxy.Crypto.Agreement
import TgWsProxy.Crypto.Reference
import TgWsProxy.Splitter.Runs

set_option relaxedAutoImplicit false
set_option autoImplicit false

/-!
# The bridges of `proxy.rs`

`bridge_ws` and `bridge_tcp` carry one client session over a connected upstream: they send the
relay init and then re-encrypt both directions, the upload through `clt_dec` and `tg_enc`, the
download through `tg_dec` and `clt_enc`. The two directions are separate tasks, and the bridge
is over as soon as one of them ends.

## Main definitions

* `TgWsProxy.BridgeKind` — `bridge_ws` with either framing, or `bridge_tcp`.
* `TgWsProxy.Bridge` — the state of a running bridge.
* `TgWsProxy.Bridge.step`, `run` — one event of either direction, and any sequence of them.

## Main results

* `TgWsProxy.Bridge.step_relays`, `run_relays` — what a bridge holds after any traffic.
* `TgWsProxy.Bridge.run_transparent` — the client's plaintext reaches Telegram, and Telegram's
  the client, however the two streams are cut and interleaved.

## Design

An event is what one `read` or `next` of either task returns, so a list of events is an
interleaving of the two tasks. Sends and writes succeed or fail as two oracles over their number
say. A panic of the splitter is `none`.
-/

namespace TgWsProxy

/-! ## The model -/

/-- How a WebSocket session is framed. -/
inductive WsFraming
  /-- One MTProto packet per message. -/
  | packets
  /-- One client read per message. -/
  | tunnel
  deriving DecidableEq

/-- The bridges that send a relay init. -/
inductive BridgeKind
  | ws (framing : WsFraming)
  | tcp
  deriving DecidableEq

/-- A WebSocket message. -/
inductive Message
  | binary (data : Bytes)
  | text (data : Bytes)
  | ping (data : Bytes)
  | pong (data : Bytes)
  | close

/-- What the download direction does with what it read: forward it, skip it, or end. -/
inductive Received
  | data (bytes : Bytes)
  | skip
  | ended
  deriving DecidableEq

/-- What one wait for upstream data returns: a message or a failure (`None`, `Some(Err)`) on a
WebSocket, the bytes of a read or its error on TCP. -/
def BridgeKind.Incoming : BridgeKind → Type
  | .ws _ => Option Message
  | .tcp => Option Bytes

/-- The `match` at the top of the download loop. -/
def BridgeKind.received : (kind : BridgeKind) → kind.Incoming → Received
  | .ws _, some (.binary b) => .data b
  | .ws _, some (.text t) => .data t
  | .ws _, some (.ping _) => .skip
  | .ws _, some (.pong _) => .skip
  | .ws _, some .close => .ended
  | .ws _, none => .ended
  | .tcp, some [] => .ended
  | .tcp, some (b :: bs) => .data (b :: bs)
  | .tcp, none => .ended

/-- One event of a running bridge. -/
inductive BridgeEvent (kind : BridgeKind)
  /-- A read from the client: its bytes (none of them at EOF), or an error. -/
  | client (read : Option Bytes)
  /-- Something from upstream. -/
  | upstream (incoming : kind.Incoming)

/-- The state of a bridge. -/
structure Bridge where
  ciphers : ConnectionCiphers
  /-- Present with packet framing only. -/
  splitter : Option MsgSplitter
  /-- Sends tried upstream, the relay init included. -/
  sends : ℕ
  /-- The messages, or TCP writes, that went upstream. -/
  sent : List Bytes
  /-- Writes tried towards the client. -/
  writes : ℕ
  /-- What was written to the client. -/
  written : List Bytes
  /-- One direction has ended, and the other was aborted with it. -/
  closed : Bool

/-- The fate of the `k`-th send upstream and of the `k`-th write to the client. -/
structure BridgeOracle where
  sendOk : ℕ → Bool
  writeOk : ℕ → Bool

namespace Bridge

variable (P : Primitives) (oracle : BridgeOracle)

/-- One send upstream, and whether it succeeded. -/
def send (b : Bridge) (part : Bytes) : Bridge × Bool :=
  if oracle.sendOk b.sends then
    ({ b with sends := b.sends + 1, sent := b.sent ++ [part] }, true)
  else ({ b with sends := b.sends + 1 }, false)

/-- The loop over the parts of one read, left at the first failed send. -/
def sendParts : Bridge → List Bytes → Bridge × Bool
  | b, [] => (b, true)
  | b, p :: ps =>
    if (b.send oracle p).2 then sendParts (b.send oracle p).1 ps else b.send oracle p

/-- The loop over the flushed parts, which ignores failures. -/
def sendFlushed : Bridge → List Bytes → Bridge
  | b, [] => b
  | b, p :: ps => sendFlushed (b.send oracle p).1 ps

/-- The start of `bridge_ws` and `bridge_tcp`: the relay init goes out first, and the bridge ends
if it cannot. -/
def start (kind : BridgeKind) (relayInit : Block 64) (ciphers : ConnectionCiphers)
    (proto : ProtoTag) : Bridge :=
  let b : Bridge :=
    { ciphers := ciphers
      splitter := if kind = .ws .packets then some (.new P relayInit proto) else none
      sends := 0, sent := [], writes := 0, written := [], closed := false }
  let sent := b.send oracle relayInit.bytes
  { sent.1 with closed := !sent.2 }

/-- One turn of the upload loop on a read of `chunk`: decrypt, re-encrypt, send in parts or whole.
A failed send ends the direction. -/
def upload (b : Bridge) (chunk : Bytes) : Option Bridge :=
  let plain := b.ciphers.cltDec.applyKeystream P chunk
  let enc := b.ciphers.tgEnc.applyKeystream P plain.1
  let b := { b with ciphers := { b.ciphers with cltDec := plain.2, tgEnc := enc.2 } }
  match b.splitter with
  | some s => do
    let (parts, s) ← s.split P enc.1
    let sent := { b with splitter := some s }.sendParts oracle parts
    return { sent.1 with closed := !sent.2 }
  | none =>
    let sent := b.send oracle enc.1
    some { sent.1 with closed := !sent.2 }

/-- The end of the upload loop: the rest of a partial packet is sent, the sink is closed. -/
def finishUpload (b : Bridge) : Bridge :=
  match b.splitter with
  | some s => { { b with splitter := some s.flush.2 }.sendFlushed oracle s.flush.1 with
      closed := true }
  | none => { b with closed := true }

/-- One turn of the download loop on received `data`: decrypt, re-encrypt, write. -/
def download (b : Bridge) (data : Bytes) : Bridge :=
  let plain := b.ciphers.tgDec.applyKeystream P data
  let enc := b.ciphers.cltEnc.applyKeystream P plain.1
  let b := { b with ciphers := { b.ciphers with tgDec := plain.2, cltEnc := enc.2 } }
  if oracle.writeOk b.writes then
    { b with writes := b.writes + 1, written := b.written ++ [enc.1] }
  else { b with writes := b.writes + 1, closed := true }

/-- One event. Once a direction has ended nothing more happens. -/
def step (kind : BridgeKind) (b : Bridge) (event : BridgeEvent kind) : Option Bridge :=
  if b.closed then some b
  else match event with
    | .client none => some (b.finishUpload oracle)
    | .client (some []) => some (b.finishUpload oracle)
    | .client (some (x :: xs)) => b.upload P oracle (x :: xs)
    | .upstream incoming =>
      match kind.received incoming with
      | .data bytes => some (b.download P oracle bytes)
      | .skip => some b
      | .ended => some { b with closed := true }

/-- Any sequence of events. -/
def run (kind : BridgeKind) : Bridge → List (BridgeEvent kind) → Option Bridge
  | b, [] => some b
  | b, e :: es => (b.step P oracle kind e).bind fun b => run kind b es

end Bridge

/-! ## Traffic -/

/-- The bytes an event brings from the client. -/
def BridgeEvent.fromClient {kind : BridgeKind} : BridgeEvent kind → Bytes
  | .client (some bytes) => bytes
  | _ => []

/-- The bytes an event brings from upstream. -/
def BridgeEvent.fromUpstream {kind : BridgeKind} : BridgeEvent kind → Bytes
  | .upstream incoming =>
    match kind.received incoming with
    | .data bytes => bytes
    | _ => []
  | _ => []

/-- An event that ends neither direction: a non-empty read from the client, or anything from
upstream that is forwarded or skipped. -/
def BridgeEvent.IsTraffic {kind : BridgeKind} : BridgeEvent kind → Prop
  | .client read => read ≠ none ∧ read ≠ some []
  | .upstream incoming => kind.received incoming ≠ .ended

/-! ## Re-encryption -/

section Recrypt

variable (P : Primitives)

/-- A cipher that has been fed `n` more bytes. -/
def AesCtr256.advance (c : AesCtr256) (n : ℕ) : AesCtr256 := { c with pos := c.pos + n }

/-- Decrypting with one cipher and encrypting with another, each from its position. -/
def recrypt (dec enc : AesCtr256) (data : Bytes) : Bytes :=
  xorAt P enc enc.pos (xorAt P dec dec.pos data)

@[simp] theorem length_recrypt (dec enc : AesCtr256) (data : Bytes) :
    (recrypt P dec enc data).length = data.length := by simp [recrypt]

@[simp] theorem recrypt_nil (dec enc : AesCtr256) : recrypt P dec enc [] = [] := rfl

/-- Two ciphers that advance in lockstep re-encrypt a stream piece by piece. -/
theorem recrypt_append (dec enc : AesCtr256) (a b : Bytes) :
    recrypt P dec enc (a ++ b) =
      recrypt P dec enc a ++ recrypt P (dec.advance a.length) (enc.advance a.length) b := by
  simp only [recrypt, xorAt_append, length_xorAt]
  rfl

/-- What was encrypted for the decrypting side arrives under the encrypting one. -/
theorem xorAt_recrypt (dec enc : AesCtr256) (plain : Bytes) :
    xorAt P enc enc.pos (recrypt P dec enc (xorAt P dec dec.pos plain)) = plain := by
  rw [recrypt, xorAt_xorAt, xorAt_xorAt]

end Recrypt

/-- Everything a splitter has read is in its parts and its flush. -/
theorem MsgSplitter.Reaches.flatten_flush {P : Primitives} {c : AesCtr256} {proto : ProtoTag}
    {input : Bytes} {s : MsgSplitter} {parts : List Bytes} (h : Reaches P c proto input s parts) :
    parts.flatten ++ s.flush.1.flatten = input := by
  have hflush : s.flush.1.flatten = s.cipherBuf := by
    rw [flush_fst]
    split_ifs with hnil
    · rw [hnil]; rfl
    · simp
  rw [hflush]
  cases hd : s.disabled with
  | false =>
    obtain ⟨-, hcb, -, hparts⟩ := h.running hd
    rw [hparts, hcb, Framing.flatten_splitLengths_append_drop]
  | true =>
    obtain ⟨hcb, -, tail, hparts, htail⟩ := h.passing hd
    rw [hparts, hcb, List.flatten_append, htail, List.append_nil,
      Framing.flatten_splitLengths_append_drop]

/-! ## What a bridge holds after any traffic -/

namespace Bridge

variable (P : Primitives) (oracle : BridgeOracle)

/-- The upstream side of a bridge after re-encrypting `enc`: with a splitter, the parts it
returned; without one, messages that concatenate to `enc`. -/
def SentFor (relayInit : Block 64) (proto : ProtoTag) (c : AesCtr256) (enc : Bytes)
    (b : Bridge) : Prop :=
  ∃ parts, b.sent = relayInit.bytes :: parts ∧
    match b.splitter with
    | some s => MsgSplitter.Reaches P c proto enc s parts
    | none => parts.flatten = enc

/-- What an open bridge that started with the ciphers `c` holds after `up` arrived from the
client and `down` from upstream. -/
structure Relays (relayInit : Block 64) (proto : ProtoTag) (c : ConnectionCiphers)
    (up down : Bytes) (b : Bridge) : Prop where
  running : b.closed = false
  cltDec_eq : b.ciphers.cltDec = c.cltDec.advance up.length
  tgEnc_eq : b.ciphers.tgEnc = c.tgEnc.advance up.length
  tgDec_eq : b.ciphers.tgDec = c.tgDec.advance down.length
  cltEnc_eq : b.ciphers.cltEnc = c.cltEnc.advance down.length
  sent : SentFor P relayInit proto c.tgEnc (recrypt P c.cltDec c.tgEnc up) b
  written : b.written.flatten = recrypt P c.tgDec c.cltEnc down

variable {P oracle} {relayInit : Block 64} {proto : ProtoTag} {c : ConnectionCiphers}
  {up down : Bytes} {b : Bridge} {kind : BridgeKind}

/-- Events one after the other. -/
theorem run_append (b : Bridge) (es fs : List (BridgeEvent kind)) :
    b.run P oracle kind (es ++ fs) =
      (b.run P oracle kind es).bind fun b => b.run P oracle kind fs := by
  induction es generalizing b with
  | nil => rfl
  | cons e es ih => simp only [List.cons_append, run, Option.bind_assoc, ih]

/-- A send that succeeds appends its part and changes nothing else. -/
theorem send_ok (hok : ∀ k, oracle.sendOk k = true) (b : Bridge) (part : Bytes) :
    b.send oracle part = ({ b with sends := b.sends + 1, sent := b.sent ++ [part] }, true) := by
  rw [send, if_pos (hok _)]

theorem sendParts_ok (hok : ∀ k, oracle.sendOk k = true) (b : Bridge) (parts : List Bytes) :
    b.sendParts oracle parts =
      ({ b with sends := b.sends + parts.length, sent := b.sent ++ parts }, true) := by
  induction parts generalizing b with
  | nil => simp [sendParts]
  | cons p ps ih =>
    simp only [sendParts, send_ok hok, ih, if_true, List.length_cons, List.append_assoc,
      List.singleton_append]
    simp [Nat.add_comm, Nat.add_left_comm]

theorem sendFlushed_ok (hok : ∀ k, oracle.sendOk k = true) (b : Bridge) (parts : List Bytes) :
    b.sendFlushed oracle parts =
      { b with sends := b.sends + parts.length, sent := b.sent ++ parts } := by
  induction parts generalizing b with
  | nil => simp [sendFlushed]
  | cons p ps ih =>
    simp only [sendFlushed, send_ok hok, ih, List.length_cons, List.append_assoc,
      List.singleton_append]
    simp [Nat.add_comm, Nat.add_left_comm]

/-- A bridge that could send its relay init has relayed nothing yet. -/
theorem start_relays (hok : ∀ k, oracle.sendOk k = true)
    (hc : c.tgEnc = (MsgSplitter.new P relayInit proto).dec) :
    Relays P relayInit proto c [] [] (start P oracle kind relayInit c proto) := by
  simp only [start, send_ok hok]
  refine ⟨rfl, rfl, rfl, rfl, rfl, ⟨[], rfl, ?_⟩, rfl⟩
  rw [hc, recrypt_nil]
  split_ifs
  · exact MsgSplitter.reaches_new P relayInit proto
  · rfl

/-- A non-empty client read is re-encrypted and sent, whole or as the splitter cuts it. -/
theorem upload_relays (hok : ∀ k, oracle.sendOk k = true)
    (h : Relays P relayInit proto c up down b) {chunk : Bytes} (hne : chunk ≠ []) :
    ∃ b', b.upload P oracle chunk = some b' ∧
      Relays P relayInit proto c (up ++ chunk) down b' := by
  obtain ⟨hrun, hcd, hte, htd, hce, ⟨parts, hsent, hsplit⟩, hwritten⟩ := h
  have hcat := recrypt_append P c.cltDec c.tgEnc up chunk
  rw [← hcd, ← hte] at hcat
  have hdec : b.ciphers.cltDec.advance chunk.length = c.cltDec.advance (up ++ chunk).length := by
    simp [hcd, AesCtr256.advance, add_assoc]
  have henc : b.ciphers.tgEnc.advance chunk.length = c.tgEnc.advance (up ++ chunk).length := by
    simp [hte, AesCtr256.advance, add_assoc]
  have hlen : (xorAt P b.ciphers.cltDec b.ciphers.cltDec.pos chunk).length = chunk.length :=
    length_xorAt _ _ _ _
  cases hs : b.splitter with
  | none =>
    rw [hs] at hsplit
    simp only [upload, hs, send_ok hok, AesCtr256.applyKeystream, hlen]
    refine ⟨_, rfl, rfl, hdec, henc, htd, hce,
      ⟨parts ++ [recrypt P b.ciphers.cltDec b.ciphers.tgEnc chunk], ?_, ?_⟩, hwritten⟩
    · simp only [hsent, List.cons_append, recrypt]
    · simp only [List.flatten_append, hsplit, hcat, List.flatten_singleton]
  | some s =>
    rw [hs] at hsplit
    have hne' : recrypt P b.ciphers.cltDec b.ciphers.tgEnc chunk ≠ [] := by
      intro hnil
      exact hne (List.length_eq_zero_iff.mp (by simpa using congrArg List.length hnil))
    obtain ⟨ps, s', hps, hreach⟩ := MsgSplitter.split_reaches P hsplit hne'
    rw [← hcat] at hreach
    simp only [recrypt] at hps
    simp only [upload, hs, AesCtr256.applyKeystream, hlen, hps, sendParts_ok hok]
    refine ⟨_, rfl, rfl, hdec, henc, htd, hce, ⟨parts ++ ps, ?_, hreach⟩, hwritten⟩
    simp [hsent]

/-- Data from upstream is re-encrypted and written to the client. -/
theorem download_relays (hok : ∀ k, oracle.writeOk k = true)
    (h : Relays P relayInit proto c up down b) (data : Bytes) :
    Relays P relayInit proto c up (down ++ data) (b.download P oracle data) := by
  obtain ⟨hrun, hcd, hte, htd, hce, hsent, hwritten⟩ := h
  have hcat := recrypt_append P c.tgDec c.cltEnc down data
  rw [← htd, ← hce] at hcat
  simp only [download, hok, if_true, AesCtr256.applyKeystream, length_xorAt]
  refine ⟨hrun, hcd, hte, ?_, ?_, hsent, ?_⟩
  · simp [htd, AesCtr256.advance, add_assoc]
  · simp [hce, AesCtr256.advance, add_assoc]
  · rw [hcat, List.flatten_append, hwritten, List.flatten_singleton]
    rfl

/-- **The step lemma.** Traffic in either direction keeps what a bridge holds in step with what
has arrived. -/
theorem step_relays (hsend : ∀ k, oracle.sendOk k = true) (hwrite : ∀ k, oracle.writeOk k = true)
    (h : Relays P relayInit proto c up down b) {event : BridgeEvent kind}
    (ht : event.IsTraffic) :
    ∃ b', b.step P oracle kind event = some b' ∧
      Relays P relayInit proto c (up ++ event.fromClient) (down ++ event.fromUpstream) b' := by
  have hopen : ¬ b.closed = true := by simp [h.running]
  match event, ht with
  | .client (some (x :: xs)), _ =>
    obtain ⟨b', hb', hrel⟩ := upload_relays hsend h (List.cons_ne_nil x xs)
    refine ⟨b', by rw [step, if_neg hopen]; exact hb', ?_⟩
    simpa [BridgeEvent.fromClient, BridgeEvent.fromUpstream] using hrel
  | .upstream incoming, ht =>
    simp only [BridgeEvent.IsTraffic] at ht
    cases hrec : kind.received incoming with
    | data bytes =>
      refine ⟨b.download P oracle bytes, ?_, ?_⟩
      · simp [step, hopen, hrec]
      · simpa [BridgeEvent.fromClient, BridgeEvent.fromUpstream, hrec]
          using download_relays hwrite h bytes
    | skip =>
      refine ⟨b, by simp [step, hopen, hrec], ?_⟩
      simpa [BridgeEvent.fromClient, BridgeEvent.fromUpstream, hrec] using h
    | ended => exact absurd hrec ht

/-- **The run lemma.** So does every interleaving of traffic in both directions. -/
theorem run_relays (hsend : ∀ k, oracle.sendOk k = true) (hwrite : ∀ k, oracle.writeOk k = true)
    (events : List (BridgeEvent kind)) (ht : ∀ e ∈ events, e.IsTraffic) :
    ∀ {up down : Bytes} {b : Bridge}, Relays P relayInit proto c up down b →
      ∃ b', b.run P oracle kind events = some b' ∧
        Relays P relayInit proto c (up ++ (events.map BridgeEvent.fromClient).flatten)
          (down ++ (events.map BridgeEvent.fromUpstream).flatten) b' := by
  induction events with
  | nil =>
    intro up down b h
    exact ⟨b, rfl, by simpa using h⟩
  | cons e es ih =>
    intro up down b h
    obtain ⟨b₁, hstep, h₁⟩ := step_relays hsend hwrite h (ht e (by simp))
    obtain ⟨b₂, hrun, h₂⟩ := ih (fun e he => ht e (by simp [he])) h₁
    refine ⟨b₂, by simp [run, hstep, hrun], ?_⟩
    simpa using h₂

/-- At the client's EOF the rest goes out: everything re-encrypted has been sent. -/
theorem finishUpload_sent (hok : ∀ k, oracle.sendOk k = true)
    (h : Relays P relayInit proto c up down b) :
    ∃ msgs, (b.finishUpload oracle).sent = relayInit.bytes :: msgs ∧
      msgs.flatten = recrypt P c.cltDec c.tgEnc up ∧
      (b.finishUpload oracle).written = b.written := by
  obtain ⟨parts, hsent, hsplit⟩ := h.sent
  cases hs : b.splitter with
  | none =>
    rw [hs] at hsplit
    exact ⟨parts, by simp [finishUpload, hs, hsent], hsplit, by simp [finishUpload, hs]⟩
  | some s =>
    rw [hs] at hsplit
    refine ⟨parts ++ s.flush.1, ?_, ?_, ?_⟩
    · simp [finishUpload, hs, hsent, sendFlushed_ok hok]
    · rw [List.flatten_append, hsplit.flatten_flush]
    · simp [finishUpload, hs, sendFlushed_ok hok]

end Bridge

/-! ## Transparency -/

/-- **Relay transparency.** Take a handshake that `parse_handshake` accepts, any relay init, any
bridge and any interleaving of traffic whose client bytes are `plainUp` under the client's cipher
from position `64` and whose upstream bytes are `plainDown` under Telegram's from position `0`.
When the client then reaches EOF, what went upstream after the relay init decrypts under the relay
key from position `64` to `plainUp`, and what was written to the client decrypts under the
client's reversed cipher from position `0` to `plainDown`.

**Proof sketch.** By `run_relays` the bridge has re-encrypted exactly what arrived, with the
ciphers of `build_connection_ciphers` in lockstep, and `finishUpload_sent` accounts for a partial
packet. The ciphers are those of the endpoints, so each re-encryption undoes one encryption and
adds the other (`xorAt_recrypt`). -/
theorem Bridge.run_transparent (P : Primitives) (oracle : BridgeOracle) (secret : Bytes)
    (h : Block 64) (info : HandshakeInfo) (hp : parseHandshake P h secret = some info)
    (relayInit : Block 64) (kind : BridgeKind)
    (hsend : ∀ k, oracle.sendOk k = true) (hwrite : ∀ k, oracle.writeOk k = true)
    (events : List (BridgeEvent kind)) (ht : ∀ e ∈ events, e.IsTraffic)
    (plainUp plainDown : Bytes)
    (hup : (events.map BridgeEvent.fromClient).flatten =
      xorAt P (handshakeCipher P secret h) 64 plainUp)
    (hdown : (events.map BridgeEvent.fromUpstream).flatten =
      xorAt P (relayReversedCipher relayInit) 0 plainDown) :
    ∃ b msgs,
      (start P oracle kind relayInit
          (buildConnectionCiphers P info.prekeyAndIv secret relayInit) info.proto).run P oracle
        kind (events ++ [.client (some [])]) = some b ∧
      b.sent = relayInit.bytes :: msgs ∧
      xorAt P (relayCipher relayInit) 64 msgs.flatten = plainUp ∧
      xorAt P (handshakeReversedCipher P secret h) 0 b.written.flatten = plainDown := by
  rw [prekeyAndIv_of_parseHandshake P hp]
  set c := buildConnectionCiphers P (prekeyAndIvOf h) secret relayInit with hc
  obtain ⟨hcltDec, hcltEnc⟩ := buildConnectionCiphers_client P h secret relayInit
  rw [← hc] at hcltDec hcltEnc
  have hstart : Relays P relayInit info.proto c [] []
      (start P oracle kind relayInit c info.proto) := start_relays hsend rfl
  obtain ⟨b, hrun, hb⟩ := run_relays hsend hwrite events ht hstart
  simp only [List.nil_append] at hb
  obtain ⟨msgs, hsent, hmsgs, hwritten⟩ := finishUpload_sent hsend hb
  have hrunEof : (start P oracle kind relayInit c info.proto).run P oracle kind
      (events ++ [.client (some [])]) = some (b.finishUpload oracle) := by
    rw [run_append, hrun]
    simp [run, step, hb.running]
  refine ⟨_, msgs, hrunEof, hsent, ?_, ?_⟩
  · have hclient : xorAt P (handshakeCipher P secret h) 64 plainUp =
        xorAt P c.cltDec c.cltDec.pos plainUp := by
      rw [hcltDec, clientEnc, AesCtr256.fastForward_eq]
      rfl
    have htg : c.tgEnc = (relayCipher relayInit).fastForward P := rfl
    have hkey := xorAt_recrypt P c.cltDec c.tgEnc plainUp
    rw [← hclient, ← hup, ← hmsgs, htg, AesCtr256.fastForward_eq] at hkey
    exact hkey
  · have hkey := xorAt_recrypt P c.tgDec c.cltEnc plainDown
    have htg : xorAt P c.tgDec c.tgDec.pos plainDown =
        xorAt P (relayReversedCipher relayInit) 0 plainDown := rfl
    rw [htg, ← hdown, ← hb.written, ← hwritten, hcltEnc] at hkey
    exact hkey

/-- A session over packet framing: the client writes seven bytes one at a time, a packet of five
and the start of another, and Telegram answers after a ping. -/
theorem Bridge.run_transparent_sample :
    let P := Reference.primitives
    let secret := Reference.sampleSecret
    let h := clientHandshakeOf P secret 2 .abridged Reference.sampleDraw
    let relayInit := Reference.sampleDraw
    let kind := BridgeKind.ws .packets
    let up : List (BridgeEvent kind) :=
      (xorAt P (handshakeCipher P secret h) 64 [1, 2, 3, 4, 5, 1, 9]).map fun b =>
        .client (some [b])
    let down : List (BridgeEvent kind) :=
      [.upstream (some (.ping [])),
        .upstream (some (.binary (xorAt P (relayReversedCipher relayInit) 0 [6, 7, 8])))]
    ∃ b msgs,
      (start P ⟨fun _ => true, fun _ => true⟩ kind relayInit
          (buildConnectionCiphers P (prekeyAndIvOf h) secret relayInit) .abridged).run P
        ⟨fun _ => true, fun _ => true⟩ kind (up ++ down ++ [.client (some [])]) = some b ∧
      b.sent = relayInit.bytes :: msgs ∧
      xorAt P (relayCipher relayInit) 64 msgs.flatten = [1, 2, 3, 4, 5, 1, 9] ∧
      xorAt P (handshakeReversedCipher P secret h) 0 b.written.flatten = [6, 7, 8] := by
  intro P secret h relayInit kind up down
  refine run_transparent P ⟨fun _ => true, fun _ => true⟩ secret h _
    (parseHandshake_clientHandshakeOf P secret 2 .abridged Reference.sampleDraw) relayInit kind
    (fun _ => rfl) (fun _ => rfl) (up ++ down) ?_ _ _ ?_ ?_
  · intro e he
    rcases List.mem_append.mp he with he | he
    · obtain ⟨b, -, rfl⟩ := List.mem_map.mp he
      simp [BridgeEvent.IsTraffic]
    · simp only [down, List.mem_cons, List.not_mem_nil, or_false] at he
      rcases he with rfl | rfl <;> simp [BridgeEvent.IsTraffic, BridgeKind.received, kind]
  · have hbytes : BridgeEvent.fromClient ∘
        (fun b => (.client (some [b]) : BridgeEvent kind)) = fun b => [b] := rfl
    simp [up, down, BridgeEvent.fromClient, hbytes, ← List.flatMap_def]
  · have hbytes : BridgeEvent.fromUpstream ∘
        (fun b => (.client (some [b]) : BridgeEvent kind)) = fun _ => [] := rfl
    simp [up, down, BridgeEvent.fromUpstream, BridgeKind.received, kind, hbytes]

end TgWsProxy
