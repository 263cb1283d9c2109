import TgWsProxy.Bridge
import TgWsProxy.FakeTls.Arrivals
import TgWsProxy.Lib.Pump

set_option relaxedAutoImplicit false
set_option autoImplicit false

/-!
# The two tasks of a bridge

Every bridge of `proxy.rs` runs an upload task and a download task, and `join_bridge` waits for the
one that ends first and aborts the other. Each task reports to `BridgeCounters` what it has
forwarded. Here the tasks run await by await: reads, sends of single parts, failures and aborts of
either task come in any order.

## Main definitions

* `TgWsProxy.SessionKind` — `bridge_ws`, `bridge_tcp` and `bridge_relay`.
* `TgWsProxy.uploadTask`, `downloadTask` — the two loops.
* `TgWsProxy.Session.step`, `run` — one event of the session, and any sequence of them.
* `TgWsProxy.Session.totals`, `outcome` — the counters, and what is logged at the end.

## Main results

* `TgWsProxy.Session.step_reads`, `step_sent` — what an event adds to what was read and sent.

## Design

A task is a pump: it reads, sends the parts of the read one at a time, and counts the read. A
WebSocket message goes out whole or not at all, a write to a socket may break off anywhere. The
64-bit counters are natural numbers.
-/

namespace TgWsProxy

open Pumps

/-! ## The loops -/

/-- The bridges: to Telegram over a WebSocket or over TCP, or to another proxy. -/
inductive SessionKind
  | ws (framing : WsFraming)
  | tcp
  | relay (faketls : Bool)
  deriving DecidableEq

namespace SessionKind

/-- A relay waits for upstream data as `bridge_tcp` does. -/
def bridge : SessionKind → BridgeKind
  | .ws framing => .ws framing
  | .tcp => .tcp
  | .relay _ => .tcp

/-- The framing of what goes upstream: a message is handed over as it is. -/
def framing : SessionKind → StreamFraming
  | .relay true => .records
  | _ => .raw

/-- A message goes out whole or not at all; a write may break off anywhere. -/
def tears : SessionKind → Bytes → Bytes → Bool
  | .ws _, part, piece => piece == part
  | _, part, piece => piece.isPrefixOf part

theorem tears_sound (kind : SessionKind) {part piece : Bytes} (h : kind.tears part piece = true) :
    piece <+: part := by
  cases kind with
  | ws framing =>
    rw [eq_of_beq h]
  | tcp => exact List.isPrefixOf_iff_prefix.mp h
  | relay faketls => exact List.isPrefixOf_iff_prefix.mp h

end SessionKind

/-- What the upload task holds. -/
structure Upload where
  cltDec : AesCtr256
  tgEnc : AesCtr256
  splitter : Option MsgSplitter

/-- What the download task holds. -/
structure Download where
  tgDec : AesCtr256
  cltEnc : AesCtr256

/-- What a splitter holds at the end. -/
def Upload.finish (u : Upload) : List Bytes :=
  match u.splitter with
  | some s => s.flush.1
  | none => []

theorem Upload.length_finish_le (u : Upload) : u.finish.length ≤ 1 := by
  unfold finish
  split
  · rw [MsgSplitter.flush_fst]
    split_ifs <;> simp
  · exact Nat.zero_le _

section Tasks

variable (P : Primitives)

/-- A turn of the upload loop on a read: decrypt, re-encrypt, and cut into what is sent. -/
def uploadTurn (framing : StreamFraming) (u : Upload) (chunk : Bytes) :
    Option (List Bytes × Upload) :=
  let plain := u.cltDec.applyKeystream P chunk
  let enc := u.tgEnc.applyKeystream P plain.1
  match u.splitter with
  | some s => do
    let (parts, s) ← s.split P enc.1
    return (parts, ⟨plain.2, enc.2, some s⟩)
  | none => some (framing.writes enc.1, ⟨plain.2, enc.2, none⟩)

/-- A turn of the download loop on received data. -/
def downloadTurn (framing : StreamFraming) (d : Download) (data : Bytes) :
    List Bytes × Download :=
  let plain := d.tgDec.applyKeystream P data
  let enc := d.cltEnc.applyKeystream P plain.1
  (framing.writes enc.1, ⟨plain.2, enc.2⟩)

/-- The upload task. -/
def uploadTask (kind : SessionKind) : Pump Upload Bytes UInt8 where
  turn := uploadTurn P kind.framing
  finish := Upload.finish
  tears := kind.tears
  finish_le := Upload.length_finish_le
  tears_sound := kind.tears_sound

/-- The download task; the client's socket carries records in FakeTLS mode. -/
def downloadTask (client : StreamFraming) : Pump Download Bytes UInt8 where
  turn := fun d data => some (downloadTurn P client d data)
  finish := fun _ => []
  tears := fun part piece => piece.isPrefixOf part
  finish_le := fun _ => Nat.zero_le _
  tears_sound := List.isPrefixOf_iff_prefix.mp

end Tasks

/-! ## The session -/

/-- Which side ended a session. -/
inductive ClosedBy
  | client
  | upstream
  deriving DecidableEq

/-- The state of a bridged session. -/
structure Session where
  up : State Upload Bytes UInt8
  down : State Download Bytes UInt8
  /-- What the `select!` of `join_bridge` has come to. -/
  closedBy : Option ClosedBy

/-- One event of a session. -/
inductive TaskEvent (kind : SessionKind)
  /-- A read from the client has returned: its bytes (none of them at EOF), or an error. -/
  | clientRead (read : Option Bytes)
  /-- A wait for upstream data has returned. -/
  | upstreamRead (incoming : kind.bridge.Incoming)
  | up (e : SinkEvent UInt8)
  | down (e : SinkEvent UInt8)
  /-- `select!` sees that a task has ended. -/
  | join (closedBy : ClosedBy)
  /-- The aborted task stops where it waits. -/
  | abort (piece : Option Bytes)

/-- The `match` at the top of the upload loop. -/
def clientEvent : Option Bytes → Pumps.Event Bytes UInt8
  | some (b :: bs) => .read (b :: bs)
  | _ => .sourceEnds

namespace Session

variable (P : Primitives)

/-- A session whose tasks have just been spawned. -/
def start (kind : SessionKind) (relayInit : Block 64) (proto : ProtoTag)
    (c : ConnectionCiphers) : Session where
  up := Pump.start ⟨c.cltDec, c.tgEnc,
    if kind = .ws .packets then some (.new P relayInit proto) else none⟩
  down := Pump.start ⟨c.tgDec, c.cltEnc⟩
  closedBy := none

variable (kind : SessionKind) (client : StreamFraming)

/-- An event of the upload task. -/
def stepUp (s : Session) (e : Pumps.Event Bytes UInt8) : Option Session :=
  ((uploadTask P kind).step s.up e).map fun up => { s with up := up }

/-- An event of the download task. -/
def stepDown (s : Session) (e : Pumps.Event Bytes UInt8) : Option Session :=
  ((downloadTask P client).step s.down e).map fun down => { s with down := down }

/-- `select!` takes the branch of a task that has ended, once. -/
def join (s : Session) (closedBy : ClosedBy) : Option Session :=
  match s.closedBy with
  | some _ => none
  | none =>
    let ended := match closedBy with
      | .client => s.up.isEnded
      | .upstream => s.down.isEnded
    if ended then some { s with closedBy := some closedBy } else none

/-- One event, `none` where it cannot happen. -/
def step (s : Session) : TaskEvent kind → Option Session
  | .clientRead read => s.stepUp P kind (clientEvent read)
  | .upstreamRead incoming =>
    match kind.bridge.received incoming with
    | .data bytes => s.stepDown P client (.read bytes)
    | .skip => if s.down.isReading then some s else none
    | .ended => s.stepDown P client .sourceEnds
  | .up e => s.stepUp P kind (.sink e)
  | .down e => s.stepDown P client (.sink e)
  | .join closedBy => s.join closedBy
  | .abort piece =>
    match s.closedBy with
    | some .client => s.stepDown P client (.cancel piece)
    | some .upstream => s.stepUp P kind (.cancel piece)
    | none => none

/-- Any sequence of events. -/
def run (s : Session) : List (TaskEvent kind) → Option Session
  | [] => some s
  | e :: es => (s.step P kind client e).bind fun s => run s es

/-- `BridgeCounters::totals`. -/
def totals (s : Session) : ℕ × ℕ := (s.up.counted.flatten.length, s.down.counted.flatten.length)

/-- What is logged when both tasks have ended. -/
def outcome (s : Session) : Option (ClosedBy × ℕ × ℕ) :=
  match s.closedBy with
  | some closedBy =>
    if s.up.isEnded && s.down.isEnded then some (closedBy, s.totals) else none
  | none => none

end Session

/-! ## What an event adds -/

/-- The data that an event brings from the client. -/
def TaskEvent.fromClient {kind : SessionKind} : TaskEvent kind → Option Bytes
  | .clientRead read => (clientEvent read).data
  | _ => none

/-- The data that an event brings from upstream. -/
def TaskEvent.fromUpstream {kind : SessionKind} : TaskEvent kind → Option Bytes
  | .upstreamRead incoming =>
    match kind.bridge.received incoming with
    | .data bytes => some bytes
    | _ => none
  | _ => none

namespace Session

variable {P : Primitives} {kind : SessionKind} {client : StreamFraming} {s s' : Session}

/-- What one event does: it moves one of the tasks, or neither of them. -/
theorem step_cases {e : TaskEvent kind} (hstep : s.step P kind client e = some s') :
    (∃ u, s.stepUp P kind u = some s' ∧ e.fromClient = u.data ∧ e.fromUpstream = none) ∨
      (∃ d, s.stepDown P client d = some s' ∧ e.fromClient = none ∧ e.fromUpstream = d.data) ∨
      (s'.up = s.up ∧ s'.down = s.down ∧ e.fromClient = none ∧ e.fromUpstream = none) := by
  cases e with
  | clientRead read => exact .inl ⟨clientEvent read, hstep, rfl, rfl⟩
  | upstreamRead incoming =>
    simp only [step] at hstep
    cases hreceived : kind.bridge.received incoming with
    | data bytes =>
      rw [hreceived] at hstep
      exact .inr (.inl ⟨.read bytes, hstep, rfl, by rw [TaskEvent.fromUpstream, hreceived]; rfl⟩)
    | skip =>
      rw [hreceived] at hstep
      simp only at hstep
      split_ifs at hstep
      cases hstep
      exact .inr (.inr ⟨rfl, rfl, rfl, by rw [TaskEvent.fromUpstream, hreceived]⟩)
    | ended =>
      rw [hreceived] at hstep
      exact .inr (.inl ⟨.sourceEnds, hstep, rfl, by rw [TaskEvent.fromUpstream, hreceived]; rfl⟩)
  | up e => exact .inl ⟨.sink e, hstep, rfl, rfl⟩
  | down e => exact .inr (.inl ⟨.sink e, hstep, rfl, rfl⟩)
  | join closedBy =>
    have hjoin : s.join closedBy = some s' := hstep
    unfold Session.join at hjoin
    split at hjoin
    · cases hjoin
    · simp only at hjoin
      split_ifs at hjoin
      cases hjoin
      exact .inr (.inr ⟨rfl, rfl, rfl, rfl⟩)
  | abort piece =>
    simp only [step] at hstep
    split at hstep
    · exact .inr (.inl ⟨.cancel piece, hstep, rfl, rfl⟩)
    · exact .inl ⟨.cancel piece, hstep, rfl, rfl⟩
    · cases hstep

/-- What an event adds to what was read. -/
theorem step_reads {e : TaskEvent kind} (hstep : s.step P kind client e = some s') :
    s'.up.reads = s.up.reads ++ e.fromClient.toList ∧
      s'.down.reads = s.down.reads ++ e.fromUpstream.toList := by
  rcases step_cases hstep with ⟨u, hu, hclient, hupstream⟩ | ⟨d, hd, hclient, hupstream⟩ |
    ⟨hup, hdown, hclient, hupstream⟩
  · obtain ⟨up, hup, rfl⟩ := Option.map_eq_some_iff.mp hu
    exact ⟨hclient ▸ Pump.step_reads hup, hupstream ▸ (List.append_nil _).symm⟩
  · obtain ⟨down, hdown, rfl⟩ := Option.map_eq_some_iff.mp hd
    exact ⟨hclient ▸ (List.append_nil _).symm, hupstream ▸ Pump.step_reads hdown⟩
  · rw [hup, hdown, hclient, hupstream]
    exact ⟨(List.append_nil _).symm, (List.append_nil _).symm⟩

/-- What has been sent stays. -/
theorem step_sent {e : TaskEvent kind} (hstep : s.step P kind client e = some s') :
    s.up.sent <+: s'.up.sent ∧ s.down.sent <+: s'.down.sent := by
  rcases step_cases hstep with ⟨u, hu, -⟩ | ⟨d, hd, -⟩ | ⟨hup, hdown, -⟩
  · obtain ⟨up, hup, rfl⟩ := Option.map_eq_some_iff.mp hu
    exact ⟨Pump.step_sent hup, List.prefix_rfl⟩
  · obtain ⟨down, hdown, rfl⟩ := Option.map_eq_some_iff.mp hd
    exact ⟨List.prefix_rfl, Pump.step_sent hdown⟩
  · rw [hup, hdown]
    exact ⟨List.prefix_rfl, List.prefix_rfl⟩

end Session

end TgWsProxy
