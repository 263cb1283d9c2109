import TgWsProxy.Bridge.Tasks

set_option relaxedAutoImplicit false
set_option autoImplicit false

/-!
# What a session forwards, counts and logs

In every state of a session, whatever its two tasks were doing and however they were stopped, what
has gone out is what came in, re-encrypted, up to some point; and the counters are what has gone
out, up to one read.

## Main definitions

* `TgWsProxy.sessionCiphers` — the ciphers that `handle_client_with_runtime` gives a bridge.
* `TgWsProxy.Session.Invariant` — both tasks' accounts, and who may have been aborted.

## Main results

* `TgWsProxy.uploadTask_turns`, `downloadTask_turns` — what the loops make of their reads.
* `TgWsProxy.Session.run_invariant` — the invariant holds after every run.
* `TgWsProxy.Session.run_forwards` — nothing is lost, duplicated or reordered.
* `TgWsProxy.Session.outcome_accounts` — what the log line of a session says.
-/

namespace TgWsProxy

open Pumps

variable (P : Primitives)

/-! ## The loops on their reads -/

section Turns

variable {P} {kind : SessionKind} {relayInit : Block 64} {proto : ProtoTag} {c : ConnectionCiphers}

/-- What the upload loop has made of its reads: parts of the splitter with packet framing, and
whole reads otherwise. -/
structure Uploaded (P : Primitives) (kind : SessionKind) (proto : ProtoTag)
    (c : ConnectionCiphers) (reads out : List Bytes) (u : Upload) : Prop where
  cltDec_eq : u.cltDec = c.cltDec.advance reads.flatten.length
  tgEnc_eq : u.tgEnc = c.tgEnc.advance reads.flatten.length
  packets : kind = .ws .packets → ∃ s, u.splitter = some s ∧
    MsgSplitter.Reaches P c.tgEnc proto (recrypt P c.cltDec c.tgEnc reads.flatten) s out
  whole : kind ≠ .ws .packets → u.splitter = none ∧ ∃ chunks : List Bytes,
    chunks.flatten = recrypt P c.cltDec c.tgEnc reads.flatten ∧
      out = chunks.flatMap kind.framing.writes

theorem uploaded_start (hsplit : kind = .ws .packets →
      c.tgEnc = (MsgSplitter.new P relayInit proto).dec) :
    Uploaded P kind proto c [] [] (Session.start P kind relayInit proto c).up.inner := by
  refine ⟨rfl, rfl, fun hkind => ⟨_, if_pos hkind, ?_⟩, fun hkind => ⟨if_neg hkind, [], rfl, rfl⟩⟩
  rw [hsplit hkind]
  exact MsgSplitter.reaches_new P relayInit proto

/-- One more read. -/
theorem Uploaded.turn {reads out : List Bytes} {u : Upload}
    (h : Uploaded P kind proto c reads out u) {chunk : Bytes} (hne : chunk ≠ []) :
    ∃ parts u', uploadTurn P kind.framing u chunk = some (parts, u') ∧
      Uploaded P kind proto c (reads ++ [chunk]) (out ++ parts) u' := by
  have hcat := recrypt_append P c.cltDec c.tgEnc reads.flatten chunk
  rw [← h.cltDec_eq, ← h.tgEnc_eq] at hcat
  have hflat : (reads ++ [chunk]).flatten = reads.flatten ++ chunk := by simp
  have hdec : u.cltDec.advance chunk.length =
      c.cltDec.advance (reads ++ [chunk]).flatten.length := by
    simp [h.cltDec_eq, AesCtr256.advance, add_assoc]
  have henc : u.tgEnc.advance chunk.length =
      c.tgEnc.advance (reads ++ [chunk]).flatten.length := by
    simp [h.tgEnc_eq, AesCtr256.advance, add_assoc]
  have hlen : (xorAt P u.cltDec u.cltDec.pos chunk).length = chunk.length := length_xorAt _ _ _ _
  by_cases hkind : kind = .ws .packets
  · obtain ⟨s, hs, hreach⟩ := h.packets hkind
    have hne' : recrypt P u.cltDec u.tgEnc chunk ≠ [] := by
      intro hnil
      exact hne (List.length_eq_zero_iff.mp (by simpa using congrArg List.length hnil))
    obtain ⟨parts, s', hparts, hreach'⟩ := MsgSplitter.split_reaches P hreach hne'
    rw [← hcat] at hreach'
    simp only [recrypt] at hparts
    refine ⟨parts, ⟨u.cltDec.advance chunk.length, u.tgEnc.advance chunk.length, some s'⟩, ?_, hdec,
      henc, fun _ => ⟨s', rfl, by rwa [hflat]⟩, fun hk => absurd hkind hk⟩
    simp only [uploadTurn, hs, AesCtr256.applyKeystream, hlen, hparts]
    rfl
  · obtain ⟨hs, chunks, hchunks, rfl⟩ := h.whole hkind
    refine ⟨kind.framing.writes (recrypt P u.cltDec u.tgEnc chunk),
      ⟨u.cltDec.advance chunk.length, u.tgEnc.advance chunk.length, none⟩, ?_, hdec, henc,
      fun hk => absurd hk hkind,
      fun _ => ⟨rfl, chunks ++ [recrypt P u.cltDec u.tgEnc chunk], ?_, ?_⟩⟩
    · simp only [uploadTurn, hs, AesCtr256.applyKeystream, hlen]
      rfl
    · rw [hflat, hcat, List.flatten_append, hchunks, List.flatten_singleton]
    · simp

/-- **The upload loop on any reads.** It never panics. -/
theorem uploadTask_turns (hsplit : kind = .ws .packets →
      c.tgEnc = (MsgSplitter.new P relayInit proto).dec) (reads : List Bytes)
    (hreads : ∀ r ∈ reads, r ≠ []) :
    ∃ out u, (uploadTask P kind).turns (Session.start P kind relayInit proto c).up.inner reads =
      some (out, u) ∧ Uploaded P kind proto c reads out u := by
  induction reads using List.reverseRecOn with
  | nil => exact ⟨[], _, rfl, uploaded_start hsplit⟩
  | append_singleton reads chunk ih =>
    obtain ⟨out, u, hturns, hup⟩ := ih fun r hr => hreads r (List.mem_append_left _ hr)
    obtain ⟨parts, u', hturn, hup'⟩ := hup.turn (hreads chunk (by simp))
    exact ⟨out ++ parts, u', Pump.turns_concat_some hturns hturn, hup'⟩

variable (P c) (client : StreamFraming)

/-- **The download loop on any data.** -/
theorem downloadTask_turns (datas : List Bytes) :
    ∃ chunks : List Bytes, chunks.flatten = recrypt P c.tgDec c.cltEnc datas.flatten ∧
      (downloadTask P client).turns ⟨c.tgDec, c.cltEnc⟩ datas =
        some (chunks.flatMap client.writes, ⟨c.tgDec.advance datas.flatten.length,
          c.cltEnc.advance datas.flatten.length⟩) := by
  induction datas using List.reverseRecOn with
  | nil => exact ⟨[], rfl, rfl⟩
  | append_singleton datas data ih =>
    obtain ⟨chunks, hchunks, hturns⟩ := ih
    have hcat := recrypt_append P c.tgDec c.cltEnc datas.flatten data
    set d : Download := ⟨c.tgDec.advance datas.flatten.length,
      c.cltEnc.advance datas.flatten.length⟩ with hd
    have hflat : (datas ++ [data]).flatten = datas.flatten ++ data := by simp
    refine ⟨chunks ++ [recrypt P d.tgDec d.cltEnc data], ?_, ?_⟩
    · rw [hflat, hcat, List.flatten_append, hchunks, List.flatten_singleton]
    · have hturn : (downloadTask P client).turn d data =
          some (client.writes (recrypt P d.tgDec d.cltEnc data),
            ⟨d.tgDec.advance data.length, d.cltEnc.advance data.length⟩) := by
        simp only [downloadTask, downloadTurn, AesCtr256.applyKeystream, length_xorAt]
        rfl
      rw [Pump.turns_concat_some hturns hturn, hflat]
      simp [hd, AesCtr256.advance, add_assoc]

end Turns

/-! ## The invariant of a session -/

namespace Session

/-- Both tasks account for what they read. Only the task that did not end first is aborted. -/
structure Invariant (kind : SessionKind) (client : StreamFraming) (s₀ s : Session) : Prop where
  up : (uploadTask P kind).Accounts s₀.up.inner s.up
  down : (downloadTask P client).Accounts s₀.down.inner s.down
  reads : ∀ r ∈ s.up.reads, r ≠ []
  upAborted : s.up.phase = .ended .cancelled → s.closedBy = some .upstream
  downAborted : s.down.phase = .ended .cancelled → s.closedBy = some .client
  joined : ∀ closedBy, s.closedBy = some closedBy →
    match closedBy with
    | .client => s.up.isEnded = true
    | .upstream => s.down.isEnded = true

variable {P} {kind : SessionKind} {client : StreamFraming} {s₀ s s' : Session}

/-- A session that has just been started. -/
theorem invariant_start (relayInit : Block 64) (proto : ProtoTag) (c : ConnectionCiphers) :
    Invariant P kind client (start P kind relayInit proto c) (start P kind relayInit proto c) :=
  ⟨Pump.accounts_start _, Pump.accounts_start _, nofun, nofun, nofun, nofun⟩

/-- An event of the upload task that reads nothing empty. -/
theorem Invariant.stepUp (h : Invariant P kind client s₀ s) {e : Pumps.Event Bytes UInt8}
    (hread : ∀ a, e = .read a → a ≠ [])
    (hcancel : ∀ piece, e = .cancel piece → s.closedBy = some .upstream)
    (hstep : s.stepUp P kind e = some s') : Invariant P kind client s₀ s' := by
  obtain ⟨up, hup, rfl⟩ := Option.map_eq_some_iff.mp hstep
  refine ⟨Pump.step_accounts h.up hup, h.down, ?_, fun hphase => ?_, h.downAborted, ?_⟩
  · intro r hr
    rw [Pump.step_reads hup] at hr
    rcases List.mem_append.mp hr with hr | hr
    · exact h.reads r hr
    · cases e with
      | read a =>
        rw [List.mem_singleton.mp hr]
        exact hread a rfl
      | _ => cases hr
  · by_contra hopen
    exact Pump.step_not_cancelled hup (fun piece he => hopen (hcancel piece he)) hphase
  · intro closedBy hclosed
    cases closedBy with
    | client =>
      -- a task that has ended does not move
      obtain ⟨cause, hended⟩ := State.isEnded_iff.mp (h.joined .client hclosed)
      rw [Pump.step_ended hended] at hup
      cases hup
    | upstream => exact h.joined .upstream hclosed

/-- An event of the download task. -/
theorem Invariant.stepDown (h : Invariant P kind client s₀ s) {e : Pumps.Event Bytes UInt8}
    (hcancel : ∀ piece, e = .cancel piece → s.closedBy = some .client)
    (hstep : s.stepDown P client e = some s') : Invariant P kind client s₀ s' := by
  obtain ⟨down, hdown, rfl⟩ := Option.map_eq_some_iff.mp hstep
  refine ⟨h.up, Pump.step_accounts h.down hdown, h.reads, h.upAborted, fun hphase => ?_, ?_⟩
  · by_contra hopen
    exact Pump.step_not_cancelled hdown (fun piece he => hopen (hcancel piece he)) hphase
  · intro closedBy hclosed
    cases closedBy with
    | client => exact h.joined .client hclosed
    | upstream =>
      obtain ⟨cause, hended⟩ := State.isEnded_iff.mp (h.joined .upstream hclosed)
      rw [Pump.step_ended hended] at hdown
      cases hdown

theorem Invariant.join (h : Invariant P kind client s₀ s) {closedBy : ClosedBy}
    (hstep : s.join closedBy = some s') : Invariant P kind client s₀ s' := by
  unfold Session.join at hstep
  split at hstep
  · cases hstep
  rename_i hopen
  simp only at hstep
  split_ifs at hstep with hended
  cases hstep
  refine ⟨h.up, h.down, h.reads, fun hphase => ?_, fun hphase => ?_, ?_⟩
  · rw [h.upAborted hphase] at hopen
    cases hopen
  · rw [h.downAborted hphase] at hopen
    cases hopen
  · rintro _ ⟨⟩
    cases closedBy with
    | client => exact hended
    | upstream => exact hended

theorem clientEvent_read {read : Option Bytes} {a : Bytes} (h : clientEvent read = .read a) :
    a ≠ [] := by
  unfold clientEvent at h
  split at h
  · cases h
    exact List.cons_ne_nil _ _
  · cases h

/-- **The step lemma.** -/
theorem step_invariant {e : TaskEvent kind} (h : Invariant P kind client s₀ s)
    (hstep : s.step P kind client e = some s') : Invariant P kind client s₀ s' := by
  cases e with
  | clientRead read =>
    refine h.stepUp (fun a he => clientEvent_read he) (fun piece he => ?_) hstep
    unfold clientEvent at he
    split at he <;> cases he
  | upstreamRead incoming =>
    simp only [step] at hstep
    cases hreceived : kind.bridge.received incoming with
    | data bytes =>
      rw [hreceived] at hstep
      exact h.stepDown (e := .read bytes) (fun _ he => by cases he) hstep
    | skip =>
      rw [hreceived] at hstep
      simp only at hstep
      split_ifs at hstep
      cases hstep
      exact h
    | ended =>
      rw [hreceived] at hstep
      exact h.stepDown (e := .sourceEnds) (fun _ he => by cases he) hstep
  | up e => exact h.stepUp (e := .sink e) (fun _ he => by cases he) (fun _ he => by cases he) hstep
  | down e => exact h.stepDown (e := .sink e) (fun _ he => by cases he) hstep
  | join closedBy => exact h.join hstep
  | abort piece =>
    simp only [step] at hstep
    split at hstep
    · rename_i hclosed
      exact h.stepDown (fun _ _ => hclosed) hstep
    · rename_i hclosed
      exact h.stepUp (e := .cancel piece) (fun _ he => by cases he) (fun _ _ => hclosed) hstep
    · cases hstep

/-- **The run lemma.** -/
theorem run_invariant (events : List (TaskEvent kind)) (h : Invariant P kind client s₀ s)
    (hrun : s.run P kind client events = some s') : Invariant P kind client s₀ s' := by
  induction events generalizing s with
  | nil =>
    cases hrun
    exact h
  | cons e events ih =>
    obtain ⟨s₁, hstep, hrest⟩ := Option.bind_eq_some_iff.mp hrun
    exact ih (step_invariant h hstep) hrest

end Session

/-! ## What is forwarded -/

/-- The ciphers that `handle_client_with_runtime` gives a bridge; those of the upstream session
stand in for the ones for Telegram. -/
def sessionCiphers (kind : SessionKind) (prekeyAndIv : Block 48) (secret : Bytes)
    (relayInit : Block 64) (conn : AesCtr256 × AesCtr256) : ConnectionCiphers :=
  let ciphers := buildConnectionCiphers P prekeyAndIv secret relayInit
  match kind with
  | .relay _ => { ciphers with tgEnc := conn.1, tgDec := conn.2 }
  | _ => ciphers

/-- With packet framing the splitter follows the cipher towards Telegram. -/
theorem sessionCiphers_split (kind : SessionKind) (prekeyAndIv : Block 48) (secret : Bytes)
    (relayInit : Block 64) (proto : ProtoTag) (conn : AesCtr256 × AesCtr256)
    (hkind : kind = .ws .packets) :
    (sessionCiphers P kind prekeyAndIv secret relayInit conn).tgEnc =
      (MsgSplitter.new P relayInit proto).dec := by
  subst hkind
  rfl

variable {P}

theorem xorAt_prefix {c : AesCtr256} {pos : ℕ} {a b : Bytes} (h : a <+: b) :
    xorAt P c pos a <+: xorAt P c pos b := by
  obtain ⟨t, rfl⟩ := h
  rw [xorAt_append]
  exact List.prefix_append _ _

theorem take_xorAt (c : AesCtr256) (pos k : ℕ) (data : Bytes) :
    (xorAt P c pos data).take k = xorAt P c pos (data.take k) := by
  by_cases hk : k ≤ data.length
  · conv_lhs => rw [← List.take_append_drop k data, xorAt_append]
    exact List.take_left' (by simpa using hk)
  · rw [List.take_of_length_le (by simp; omega), List.take_of_length_le (by omega)]

/-- What a re-encrypted stream decrypts to. -/
theorem xorAt_recrypt_eq (dec enc : AesCtr256) (data : Bytes) :
    xorAt P enc enc.pos (recrypt P dec enc data) = xorAt P dec dec.pos data := by
  rw [recrypt, xorAt_xorAt]

/-- The parts of a splitter are the stream up to its last complete packet. -/
theorem MsgSplitter.Reaches.gone_held {dec c : AesCtr256} {proto : ProtoTag} {data : Bytes}
    {s : MsgSplitter} {parts : List Bytes} (h : Reaches P c proto (recrypt P dec c data) s parts) :
    ∃ gone held, xorAt P dec dec.pos data = gone ++ held ∧
      xorAt P c c.pos parts.flatten = gone ∧ nextPacketLen proto held 0 = none := by
  have hplain := xorAt_recrypt_eq (P := P) dec c data
  set plain := xorAt P dec dec.pos data
  cases hd : s.disabled with
  | false =>
    obtain ⟨-, -, -, hparts⟩ := h.running hd
    have hstop := h.disabled_eq
    rw [hd, hplain] at hstop
    rw [hplain] at hparts
    refine ⟨plain.take ((Framing.Scanner.frames (packetScanner proto) plain).1.sum), _,
      (List.take_append_drop _ _).symm, ?_,
      verdictOf_wait (Framing.Scanner.scan_drop_frames _ hstop.symm)⟩
    have hflat := Framing.flatten_splitLengths_append_drop
      (Framing.Scanner.frames (packetScanner proto) plain).1 (recrypt P dec c data)
    have htake : parts.flatten = (recrypt P dec c data).take
        (Framing.Scanner.frames (packetScanner proto) plain).1.sum := by
      rw [hparts]
      exact List.append_cancel_right (hflat.trans (List.take_append_drop _ _).symm)
    rw [htake, ← take_xorAt, hplain]
  | true =>
    obtain ⟨-, -, tail, hparts, htail⟩ := h.passing hd
    refine ⟨plain, [], (List.append_nil _).symm, ?_, rfl⟩
    rw [hparts, List.flatten_append, htail, Framing.flatten_splitLengths_append_drop, hplain]

namespace Session

section Forwards

variable {kind : SessionKind} {client : StreamFraming} {relayInit : Block 64} {proto : ProtoTag}
  {c : ConnectionCiphers} {s : Session}

/-- What a task has counted is what it read first. -/
theorem counted_prefix {σ α β : Type} {p : Pump σ α β} {s₀ : σ} {s : State σ α β}
    (h : p.Covers s₀ s) : ∃ last, s.reads = s.counted ++ last ∧ last.length ≤ 1 := by
  rcases h.counted with hreads | ⟨a, hreads⟩
  · exact ⟨[], by rw [hreads, List.append_nil], Nat.zero_le _⟩
  · exact ⟨[a], hreads, le_rfl⟩

theorem take_flatten_counted {σ β : Type} {p : Pump σ Bytes β} {s₀ : σ} {s : State σ Bytes β}
    (h : p.Covers s₀ s) : s.reads.flatten.take s.counted.flatten.length = s.counted.flatten := by
  obtain ⟨last, hreads, -⟩ := counted_prefix h
  rw [hreads, List.flatten_append, List.take_left]

/-- Everything sent upstream is what was read from the client. -/
theorem Invariant.toUpstream (h : Invariant P kind client (start P kind relayInit proto c) s)
    (hsplit : kind = .ws .packets → c.tgEnc = (MsgSplitter.new P relayInit proto).dec) :
    kind.framing.payload s.up.sent.flatten <+: recrypt P c.cltDec c.tgEnc s.up.reads.flatten := by
  obtain ⟨out, u, hturns, hup⟩ := uploadTask_turns hsplit s.up.reads h.reads
  have honly := h.up.covers.only out u hturns
  by_cases hkind : kind = .ws .packets
  · obtain ⟨sp, hsp, hreach⟩ := hup.packets hkind
    have hfinish : (uploadTask P kind).finish u = sp.flush.1 := by
      simp only [uploadTask, Upload.finish, hsp]
    rw [hfinish, List.flatten_append, hreach.flatten_flush] at honly
    rw [hkind]
    exact honly
  · obtain ⟨hnone, chunks, hchunks, rfl⟩ := hup.whole hkind
    have hfinish : (uploadTask P kind).finish u = [] := by
      simp only [uploadTask, Upload.finish, hnone]
    rw [hfinish, List.append_nil] at honly
    rw [← hchunks]
    exact (kind.framing.payload_prefix [] chunks List.nil_prefix honly).2

/-- Everything counted has gone upstream, up to a packet that is not complete. -/
theorem Invariant.countedUp (h : Invariant P kind client (start P kind relayInit proto c) s)
    (hsplit : kind = .ws .packets → c.tgEnc = (MsgSplitter.new P relayInit proto).dec) :
    ∃ gone held, xorAt P c.cltDec c.cltDec.pos s.up.counted.flatten = gone ++ held ∧
      gone <+: xorAt P c.tgEnc c.tgEnc.pos (kind.framing.payload s.up.sent.flatten) ∧
      (kind ≠ .ws .packets → held = []) ∧ nextPacketLen proto held 0 = none := by
  have hcovers := h.up.covers
  obtain ⟨last, hreads, -⟩ := counted_prefix hcovers
  obtain ⟨out, u, hturns, hup⟩ := uploadTask_turns hsplit s.up.counted
    fun r hr => h.reads r (hreads ▸ List.mem_append_left _ hr)
  obtain ⟨out', u', hturns', hwhole⟩ := hcovers.whole
  obtain ⟨rfl, rfl⟩ := Prod.mk.inj (Option.some.inj (hturns.symm.trans hturns'))
  by_cases hkind : kind = .ws .packets
  · obtain ⟨sp, -, hreach⟩ := hup.packets hkind
    obtain ⟨gone, held, hplain, hgone, hheld⟩ := hreach.gone_held
    refine ⟨gone, held, hplain, ?_, fun hk => absurd hkind hk, hheld⟩
    rw [← hgone, hkind]
    exact xorAt_prefix hwhole.flatten
  · obtain ⟨-, chunks, hchunks, rfl⟩ := hup.whole hkind
    obtain ⟨outAll, uAll, hturnsAll, hupAll⟩ := uploadTask_turns hsplit s.up.reads h.reads
    obtain ⟨hnone, chunksAll, -, rfl⟩ := hupAll.whole hkind
    have honly := hcovers.only _ uAll hturnsAll
    have hfinish : (uploadTask P kind).finish uAll = [] := by
      simp only [uploadTask, Upload.finish, hnone]
    rw [hfinish, List.append_nil] at honly
    refine ⟨_, [], (List.append_nil _).symm, ?_, fun _ => rfl, rfl⟩
    rw [← xorAt_recrypt_eq c.cltDec c.tgEnc, ← hchunks]
    exact xorAt_prefix (kind.framing.payload_prefix _ _ hwhole.flatten honly).1

/-- Both for the download. -/
theorem Invariant.toClient (h : Invariant P kind client (start P kind relayInit proto c) s) :
    recrypt P c.tgDec c.cltEnc s.down.counted.flatten <+:
        client.payload s.down.sent.flatten ∧
      client.payload s.down.sent.flatten <+: recrypt P c.tgDec c.cltEnc s.down.reads.flatten := by
  have hcovers := h.down.covers
  obtain ⟨chunks, hchunks, hturns⟩ :=
    downloadTask_turns P c client s.down.counted
  obtain ⟨chunksAll, hchunksAll, hturnsAll⟩ :=
    downloadTask_turns P c client s.down.reads
  obtain ⟨out', d', hturns', hwhole⟩ := hcovers.whole
  obtain ⟨rfl, -⟩ := Prod.mk.inj (Option.some.inj (hturns.symm.trans hturns'))
  have honly := hcovers.only _ _ hturnsAll
  rw [show (downloadTask P client).finish _ = [] from rfl, List.append_nil] at honly
  rw [← hchunks, ← hchunksAll]
  exact client.payload_prefix _ _ hwhole.flatten honly

/-- What upstream decrypts is what the client sent. -/
theorem Invariant.forwards_up (h : Invariant P kind client (start P kind relayInit proto c) s)
    (hsplit : kind = .ws .packets → c.tgEnc = (MsgSplitter.new P relayInit proto).dec) :
    xorAt P c.tgEnc c.tgEnc.pos (kind.framing.payload s.up.sent.flatten) <+:
      xorAt P c.cltDec c.cltDec.pos s.up.reads.flatten := by
  rw [← xorAt_recrypt_eq c.cltDec c.tgEnc]
  exact xorAt_prefix (h.toUpstream hsplit)

/-- What the client decrypts is what came from upstream, and at least what was counted. -/
theorem Invariant.forwards_down (h : Invariant P kind client (start P kind relayInit proto c) s) :
    xorAt P c.tgDec c.tgDec.pos s.down.counted.flatten <+:
        xorAt P c.cltEnc c.cltEnc.pos (client.payload s.down.sent.flatten) ∧
      xorAt P c.cltEnc c.cltEnc.pos (client.payload s.down.sent.flatten) <+:
        xorAt P c.tgDec c.tgDec.pos s.down.reads.flatten := by
  obtain ⟨hcounted, hread⟩ := h.toClient
  refine ⟨?_, ?_⟩
  · rw [← xorAt_recrypt_eq c.tgDec c.cltEnc]
    exact xorAt_prefix hcounted
  · rw [← xorAt_recrypt_eq c.tgDec c.cltEnc]
    exact xorAt_prefix hread

end Forwards

/-- **A session loses, duplicates and reorders nothing.** Whatever its bridge and its ciphers, in
whatever order the reads, the sends and the failures of both tasks come, and wherever the aborted
task was stopped: what has gone out in each direction decrypts to a prefix of what the bytes read
decrypt to. The counters are at most one read behind the reads. What they count has gone out,
except for an MTProto packet that is not complete yet.

**Proof sketch.** Each task keeps its accounts (`run_invariant`). The reads are re-encrypted in
lockstep (`uploadTask_turns`, `downloadTask_turns`), and part of a stream carries part of the data
(`StreamFraming.payload_prefix`). -/
theorem run_forwards (kind : SessionKind) (client : StreamFraming) (prekeyAndIv : Block 48)
    (secret : Bytes) (relayInit : Block 64) (proto : ProtoTag) (conn : AesCtr256 × AesCtr256)
    (events : List (TaskEvent kind)) (s : Session)
    (hrun : (start P kind relayInit proto
      (sessionCiphers P kind prekeyAndIv secret relayInit conn)).run P kind client events =
        some s) :
    let c := sessionCiphers P kind prekeyAndIv secret relayInit conn
    let fromClient := xorAt P c.cltDec c.cltDec.pos s.up.reads.flatten
    let fromUpstream := xorAt P c.tgDec c.tgDec.pos s.down.reads.flatten
    let toUpstream := xorAt P c.tgEnc c.tgEnc.pos (kind.framing.payload s.up.sent.flatten)
    let toClient := xorAt P c.cltEnc c.cltEnc.pos (client.payload s.down.sent.flatten)
    toUpstream <+: fromClient ∧ toClient <+: fromUpstream ∧
      (∃ gone held, fromClient.take s.totals.1 = gone ++ held ∧ gone <+: toUpstream ∧
        (kind ≠ .ws .packets → held = []) ∧ nextPacketLen proto held 0 = none) ∧
      fromUpstream.take s.totals.2 <+: toClient ∧
      (∃ last, s.up.reads = s.up.counted ++ last ∧ last.length ≤ 1) ∧
      (∃ last, s.down.reads = s.down.counted ++ last ∧ last.length ≤ 1) := by
  set c := sessionCiphers P kind prekeyAndIv secret relayInit conn with hc
  have hsplit := sessionCiphers_split P kind prekeyAndIv secret relayInit proto conn
  have h : Invariant P kind client (start P kind relayInit proto c) s :=
    run_invariant events (invariant_start relayInit proto c) hrun
  have hup := h.up.covers
  have hdown := h.down.covers
  refine ⟨h.forwards_up hsplit, h.forwards_down.2, ?_, ?_, counted_prefix hup,
    counted_prefix hdown⟩
  · rw [take_xorAt, totals, take_flatten_counted hup]
    exact h.countedUp hsplit
  · rw [take_xorAt, totals, take_flatten_counted hdown]
    exact h.forwards_down.1

theorem outcome_eq_some {s : Session} {closedBy : ClosedBy} {up down : ℕ}
    (h : s.outcome = some (closedBy, up, down)) :
    s.closedBy = some closedBy ∧ s.up.isEnded = true ∧ s.down.isEnded = true ∧
      up = s.up.counted.flatten.length ∧ down = s.down.counted.flatten.length := by
  unfold outcome at h
  split at h
  · rename_i by' hclosed
    split_ifs at h with hended
    obtain ⟨rfl, htotals⟩ := Prod.mk.inj (Option.some.inj h)
    obtain ⟨rfl, rfl⟩ := Prod.mk.inj htotals
    rw [Bool.and_eq_true] at hended
    exact ⟨hclosed, hended.1, hended.2, rfl, rfl⟩
  · cases h

/-- The client sends three bytes and goes; one byte has come from Telegram. -/
def sampleEvents : List (TaskEvent .tcp) :=
  [.clientRead (some [1, 2, 3]), .up .send, .upstreamRead (some [4] : Option Bytes), .up .settle,
    .down .send, .clientRead none, .down .settle, .up .settle, .join .client, .abort none]

def sampleStart : Session :=
  start Reference.primitives .tcp Reference.sampleDraw .abridged
    (sessionCiphers Reference.primitives .tcp (prekeyAndIvOf Reference.sampleDraw)
      Reference.sampleSecret Reference.sampleDraw (relayCipher Reference.sampleDraw,
        relayCipher Reference.sampleDraw))

theorem sampleEvents_run : ∃ s, sampleStart.run Reference.primitives .tcp .raw sampleEvents =
    some s ∧ s.outcome = some (.client, 3, 1) := ⟨_, rfl, rfl⟩

/-- What went to Telegram is what the client sent. -/
theorem run_forwards_sample :
    ∃ s, sampleStart.run Reference.primitives .tcp .raw sampleEvents = some s ∧
      (xorAt Reference.primitives sampleStart.up.inner.cltDec 64 s.up.reads.flatten).take 3 <+:
        xorAt Reference.primitives sampleStart.up.inner.tgEnc 64 s.up.sent.flatten := by
  obtain ⟨s, hrun, hlog⟩ := sampleEvents_run
  obtain ⟨-, -, ⟨gone, held, hgone, hprefix, hheld, -⟩, -⟩ := run_forwards .tcp .raw _ _ _ .abridged
    _ sampleEvents s hrun
  rw [hheld nofun, List.append_nil, show s.totals.1 = 3 from (outcome_eq_some hlog).2.2.2.1.symm]
    at hgone
  exact ⟨s, hrun, hgone ▸ hprefix⟩

/-! ## What is logged -/

/-- The end of the client's stream: nothing more, or an error. -/
def EndOfClient (read : Option Bytes) : Prop := read = none ∨ read = some []

/-- The client's stream has ended in a run. -/
def ClientEnded {kind : SessionKind} (events : List (TaskEvent kind)) : Prop :=
  ∃ read, .clientRead read ∈ events ∧ EndOfClient read

/-- The upstream side has ended in a run. -/
def UpstreamEnded {kind : SessionKind} (events : List (TaskEvent kind)) : Prop :=
  ∃ incoming, .upstreamRead incoming ∈ events ∧ kind.bridge.received incoming = .ended

/-- A send upstream, or a write to the client, has failed in a run. -/
def SendFailed {kind : SessionKind} (events : List (TaskEvent kind)) : Prop :=
  ∃ piece, .up (.fails piece) ∈ events

def WriteFailed {kind : SessionKind} (events : List (TaskEvent kind)) : Prop :=
  ∃ piece, .down (.fails piece) ∈ events

/-- The invariant of a session, and why its tasks have ended. -/
structure History (P : Primitives) (kind : SessionKind) (client : StreamFraming) (s₀ : Session)
    (events : List (TaskEvent kind)) (s : Session) : Prop where
  invariant : Invariant P kind client s₀ s
  up : (uploadTask P kind).Origin s₀.up.inner (ClientEnded events) (SendFailed events) s.up
  down : (downloadTask P client).Origin s₀.down.inner (UpstreamEnded events) (WriteFailed events)
    s.down

section History

variable {kind : SessionKind} {client : StreamFraming} {s₀ s s' : Session}
  {events : List (TaskEvent kind)}

theorem history_start (relayInit : Block 64) (proto : ProtoTag) (c : ConnectionCiphers) :
    History P kind client (start P kind relayInit proto c) []
      (start P kind relayInit proto c) :=
  ⟨invariant_start relayInit proto c, (Pump.origin_start _).mono False.elim False.elim,
    (Pump.origin_start _).mono False.elim False.elim⟩

/-- What happened in a run has happened in a longer one. -/
theorem mem_concat {e : TaskEvent kind} (l : TaskEvent kind) (h : e ∈ events) :
    e ∈ events ++ [l] := List.mem_append_left _ h

theorem History.upOrigin (h : History P kind client s₀ events s) (l : TaskEvent kind) :
    (uploadTask P kind).Origin s₀.up.inner (ClientEnded (events ++ [l]))
      (SendFailed (events ++ [l])) s.up :=
  h.up.mono (fun ⟨read, hread, hend⟩ => ⟨read, mem_concat l hread, hend⟩)
    fun ⟨piece, hpiece⟩ => ⟨piece, mem_concat l hpiece⟩

theorem History.downOrigin (h : History P kind client s₀ events s) (l : TaskEvent kind) :
    (downloadTask P client).Origin s₀.down.inner (UpstreamEnded (events ++ [l]))
      (WriteFailed (events ++ [l])) s.down :=
  h.down.mono (fun ⟨incoming, hread, hend⟩ => ⟨incoming, mem_concat l hread, hend⟩)
    fun ⟨piece, hpiece⟩ => ⟨piece, mem_concat l hpiece⟩

theorem last_mem (l : TaskEvent kind) : l ∈ events ++ [l] := by simp

/-- An event of the upload task. -/
theorem History.stepUp (h : History P kind client s₀ events s) {l : TaskEvent kind}
    {e : Pumps.Event Bytes UInt8} (hstep : s.step P kind client l = some s')
    (hup : s.stepUp P kind e = some s') (hends : e = .sourceEnds → ClientEnded (events ++ [l]))
    (hfails : ∀ piece, e = .sink (.fails piece) → l = .up (.fails piece)) :
    History P kind client s₀ (events ++ [l]) s' := by
  obtain ⟨up, hmove, rfl⟩ := Option.map_eq_some_iff.mp hup
  refine ⟨step_invariant h.invariant hstep, ?_, h.downOrigin l⟩
  refine Pump.step_origin (h.upOrigin l) h.invariant.up hmove (fun he => ?_) fun he => ?_
  · exact he.elim id hends
  · refine he.elim id fun ⟨piece, he⟩ => ⟨piece, ?_⟩
    rw [← hfails piece he]
    exact last_mem l

/-- An event of the download task. -/
theorem History.stepDown (h : History P kind client s₀ events s) {l : TaskEvent kind}
    {e : Pumps.Event Bytes UInt8} (hstep : s.step P kind client l = some s')
    (hdown : s.stepDown P client e = some s')
    (hends : e = .sourceEnds → UpstreamEnded (events ++ [l]))
    (hfails : ∀ piece, e = .sink (.fails piece) → l = .down (.fails piece)) :
    History P kind client s₀ (events ++ [l]) s' := by
  obtain ⟨down, hmove, rfl⟩ := Option.map_eq_some_iff.mp hdown
  refine ⟨step_invariant h.invariant hstep, h.upOrigin l, ?_⟩
  refine Pump.step_origin (h.downOrigin l) h.invariant.down hmove (fun he => ?_) fun he => ?_
  · exact he.elim id hends
  · refine he.elim id fun ⟨piece, he⟩ => ⟨piece, ?_⟩
    rw [← hfails piece he]
    exact last_mem l

/-- An event that moves neither task. -/
theorem History.idle (h : History P kind client s₀ events s) {l : TaskEvent kind}
    (hstep : s.step P kind client l = some s') (hup : s'.up = s.up) (hdown : s'.down = s.down) :
    History P kind client s₀ (events ++ [l]) s' :=
  ⟨step_invariant h.invariant hstep, hup ▸ h.upOrigin l, hdown ▸ h.downOrigin l⟩

theorem clientEvent_cases (read : Option Bytes) :
    (clientEvent read = .sourceEnds ∧ EndOfClient read) ∨
      ∃ b bs, clientEvent read = .read (b :: bs) := by
  match read with
  | none => exact .inl ⟨rfl, .inl rfl⟩
  | some [] => exact .inl ⟨rfl, .inr rfl⟩
  | some (b :: bs) => exact .inr ⟨b, bs, rfl⟩

/-- **The step lemma.** -/
theorem History.step (h : History P kind client s₀ events s) {l : TaskEvent kind}
    (hstep : s.step P kind client l = some s') :
    History P kind client s₀ (events ++ [l]) s' := by
  cases l with
  | clientRead read =>
    refine h.stepUp hstep hstep (fun he => ?_) fun piece he => ?_
    · rcases clientEvent_cases read with ⟨-, hend⟩ | ⟨b, bs, hread⟩
      · exact ⟨read, last_mem _, hend⟩
      · rw [hread] at he
        cases he
    · rcases clientEvent_cases read with ⟨hread, -⟩ | ⟨b, bs, hread⟩
      · rw [hread] at he
        cases he
      · rw [hread] at he
        cases he
  | upstreamRead incoming =>
    have hstep' := hstep
    simp only [Session.step] at hstep'
    cases hreceived : kind.bridge.received incoming with
    | data bytes =>
      rw [hreceived] at hstep'
      exact h.stepDown (e := .read bytes) hstep hstep' (fun he => by cases he)
        fun _ he => by cases he
    | skip =>
      rw [hreceived] at hstep'
      simp only at hstep'
      split_ifs at hstep'
      cases hstep'
      exact h.idle hstep rfl rfl
    | ended =>
      rw [hreceived] at hstep'
      exact h.stepDown (e := .sourceEnds) hstep hstep' (fun _ => ⟨incoming, last_mem _, hreceived⟩)
        fun _ he => by cases he
  | up e =>
    exact h.stepUp (e := .sink e) hstep hstep (fun he => by cases he)
      (by rintro piece ⟨⟩; rfl)
  | down e =>
    exact h.stepDown (e := .sink e) hstep hstep (fun he => by cases he)
      (by rintro piece ⟨⟩; rfl)
  | join closedBy =>
    have hstep' : s.join closedBy = some s' := hstep
    unfold Session.join at hstep'
    split at hstep'
    · cases hstep'
    · simp only at hstep'
      split_ifs at hstep'
      cases hstep'
      exact h.idle hstep rfl rfl
  | abort piece =>
    have hstep' := hstep
    simp only [Session.step] at hstep'
    split at hstep'
    · exact h.stepDown (e := .cancel piece) hstep hstep' (fun he => by cases he)
        fun _ he => by cases he
    · exact h.stepUp (e := .cancel piece) hstep hstep' (fun he => by cases he)
        fun _ he => by cases he
    · cases hstep'

/-- **The run lemma.** -/
theorem History.run (past : List (TaskEvent kind)) (h : History P kind client s₀ past s)
    (events : List (TaskEvent kind)) (hrun : s.run P kind client events = some s') :
    History P kind client s₀ (past ++ events) s' := by
  induction events generalizing s past with
  | nil =>
    cases hrun
    rwa [List.append_nil]
  | cons e events ih =>
    obtain ⟨s₁, hstep, hrest⟩ := Option.bind_eq_some_iff.mp hrun
    rw [List.append_cons]
    exact ih (past ++ [e]) (h.step hstep) hrest

end History

section Outcome

variable {kind : SessionKind} {client : StreamFraming} {relayInit : Block 64} {proto : ProtoTag}
  {c : ConnectionCiphers} {s : Session}

/-- An upload that has ended with the client's stream, with no send failed, has sent everything. -/
theorem Invariant.up_complete (h : Invariant P kind client (start P kind relayInit proto c) s)
    (hsplit : kind = .ws .packets → c.tgEnc = (MsgSplitter.new P relayInit proto).dec)
    (hphase : s.up.phase = .ended .sourceEnded)
    (hwhole : (uploadTask P kind).Whole (start P kind relayInit proto c).up.inner s.up) :
    kind.framing.payload s.up.sent.flatten = recrypt P c.cltDec c.tgEnc s.up.reads.flatten := by
  simp only [Pump.Whole, hphase] at hwhole
  obtain ⟨out, hturns, hsent⟩ := hwhole
  obtain ⟨out', u, hturns', hup⟩ := uploadTask_turns hsplit s.up.reads h.reads
  obtain ⟨rfl, hu⟩ := Prod.mk.inj (Option.some.inj (hturns'.symm.trans hturns))
  rw [hsent, ← hu]
  by_cases hkind : kind = .ws .packets
  · obtain ⟨sp, hsp, hreach⟩ := hup.packets hkind
    have hfinish : (uploadTask P kind).finish u = sp.flush.1 := by
      simp only [uploadTask, Upload.finish, hsp]
    rw [hfinish, List.flatten_append, hreach.flatten_flush, hkind]
    rfl
  · obtain ⟨hnone, chunks, hchunks, rfl⟩ := hup.whole hkind
    have hfinish : (uploadTask P kind).finish u = [] := by
      simp only [uploadTask, Upload.finish, hnone]
    rw [hfinish, List.append_nil, kind.framing.payload_writes, hchunks]

/-- So has a download that has ended with upstream. -/
theorem Invariant.down_complete (hphase : s.down.phase = .ended .sourceEnded)
    (hwhole : (downloadTask P client).Whole (start P kind relayInit proto c).down.inner s.down) :
    client.payload s.down.sent.flatten = recrypt P c.tgDec c.cltEnc s.down.reads.flatten := by
  simp only [Pump.Whole, hphase] at hwhole
  obtain ⟨out, hturns, hsent⟩ := hwhole
  obtain ⟨chunks, hchunks, hturns'⟩ :=
    downloadTask_turns P c client s.down.reads
  obtain ⟨rfl, -⟩ := Prod.mk.inj (Option.some.inj (hturns'.symm.trans hturns))
  rw [hsent, show (downloadTask P client).finish _ = [] from rfl, List.append_nil,
    client.payload_writes, hchunks]

/-- The loops do not panic. -/
theorem Invariant.no_panic (h : Invariant P kind client (start P kind relayInit proto c) s)
    (hsplit : kind = .ws .packets → c.tgEnc = (MsgSplitter.new P relayInit proto).dec) :
    s.up.phase ≠ .ended .panicked ∧ s.down.phase ≠ .ended .panicked := by
  refine ⟨fun hphase => ?_, fun hphase => ?_⟩
  · have hup := h.up
    simp only [Pump.Accounts, hphase] at hup
    obtain ⟨out, u, hturns, -⟩ := uploadTask_turns hsplit s.up.reads h.reads
    rw [hup.2.2 trivial] at hturns
    cases hturns
  · have hdown := h.down
    simp only [Pump.Accounts, hphase] at hdown
    obtain ⟨chunks, -, hturns⟩ :=
      downloadTask_turns P c client s.down.reads
    have hnone : (downloadTask P client).turns ⟨c.tgDec, c.cltEnc⟩ s.down.reads = none :=
      hdown.2.2 trivial
    rw [hnone] at hturns
    cases hturns

end Outcome

end Session

end TgWsProxy
