import TgWsProxy.Http.Response

set_option relaxedAutoImplicit false
set_option autoImplicit false

/-!
# What a chunked body that is accepted looks like

The converse of the round trip: whenever the reader returns a body, the bytes begin with a chunked
message of that body. How far the reader can have read ahead bounds its trailer section.

## Main definitions

* `TgWsProxy.BodyHead.Parsed` — what lies before the cursor.
* `TgWsProxy.BodyHead.Ahead` — how far the buffer can reach beyond what was waited for.

## Main results

* `TgWsProxy.BodyStep.parsed`, `BodyStep.ahead` — a pass keeps both.
* `TgWsProxy.message_of_readChunkedBody` — a body that is returned is that of a message.
-/

namespace TgWsProxy

open Slices Loops

variable {w : PointerWidth}

/-! ## Before the cursor -/

/-- What lies before the cursor is the beginning of a message. -/
def BodyHead.Parsed (w : PointerWidth) (bytes : Bytes) : BodyHead → Prop
  | sizeLine decoded pos => ∃ past after, (∀ c ∈ past, c.Reads w) ∧
      bytes = chunkBytes past ++ after ∧ decoded = past.flatMap Chunk.data ∧
      pos = (chunkBytes past).length
  | data decoded pos size => ∃ past line after, (∀ c ∈ past, c.Reads w) ∧ CrlfFree line ∧
      chunkSize w line = .ok size ∧ size ≠ 0 ∧
      bytes = (chunkBytes past ++ (line ++ crlf)) ++ after ∧ decoded = past.flatMap Chunk.data ∧
      pos = (chunkBytes past ++ (line ++ crlf)).length
  | trailer decoded trailerStart pos => ∃ past last trailers after, (∀ c ∈ past, c.Reads w) ∧
      CrlfFree last ∧ chunkSize w last = .ok 0 ∧ (∀ t ∈ trailers, t ≠ [] ∧ CrlfFree t) ∧
      bytes = (chunkBytes past ++ (last ++ crlf) ++ trailerBytes trailers) ++ after ∧
      decoded = past.flatMap Chunk.data ∧
      trailerStart = (chunkBytes past ++ (last ++ crlf)).length ∧
      pos = (chunkBytes past ++ (last ++ crlf) ++ trailerBytes trailers).length
  | contentLength _ => False
  | untilEof => False

section Cursor

variable {body stream before after : Bytes}

/-- A line that is found in the buffer is the next piece of the bytes. -/
theorem line_read {rel : ℕ} (hpos : before.length ≤ body.length)
    (hbytes : body ++ stream = before ++ after)
    (hrel : crlfPosition (body.drop before.length) = some rel) :
    ∃ line after', after = line ++ crlf ++ after' ∧ CrlfFree line ∧ line.length = rel ∧
      (body.drop before.length).take rel = line := by
  have hafter := drop_buffered hpos hbytes
  have hle : rel + 2 ≤ (body.drop before.length).length := Text.position_le hrel
  refine ⟨(body.drop before.length).take rel, (body.drop before.length).drop (rel + 2) ++ stream,
    ?_, crlfFree_take hrel, ?_, rfl⟩
  · rw [← hafter, ← List.append_assoc]
    exact congrArg (· ++ stream) (Text.position_split hrel)
  · rw [List.length_take]
    omega

/-- So are the data of a chunk with a line end behind them. -/
theorem data_read {size : ℕ} (hle : before.length + size + 2 ≤ body.length)
    (hbytes : body ++ stream = before ++ after)
    (hcrlf : (body.drop (before.length + size)).take 2 = crlf) :
    ∃ after', after = (body.drop before.length).take size ++ (crlf ++ after') ∧
      ((body.drop before.length).take size).length = size := by
  have hafter := drop_buffered (by omega) hbytes
  refine ⟨body.drop (before.length + size + 2) ++ stream, ?_, ?_⟩
  · rw [← hafter, drop_eq_take_append body before.length size,
      drop_eq_take_append body (before.length + size) 2, hcrlf]
    simp only [List.append_assoc]
    rw [List.take_left' (by rw [List.length_take, List.length_drop]; omega)]
  · rw [List.length_take, List.length_drop]
    omega

end Cursor

/-- **A pass keeps what lies before the cursor a beginning of a message.** -/
theorem BodyStep.parsed {s s' : BodyState} (h : BodyStep w s s')
    (hs : s.head.Parsed w (s.body ++ s.reader.stream)) :
    s'.head.Parsed w (s'.body ++ s'.reader.stream) := by
  have hbytes' := h.bytes_eq
  rw [hbytes']
  cases h with
  | read _ _ _ => exact hs
  | line hle hrel hsize hne _ =>
    obtain ⟨past, after, hpast, hbytes, rfl, rfl⟩ := hs
    obtain ⟨line, after', rfl, hfree, hlen, hline⟩ := line_read hle hbytes hrel
    rw [hline] at hsize
    refine ⟨past, line, after', hpast, hfree, hsize, hne, ?_, rfl, ?_⟩
    · rw [hbytes, List.append_assoc (chunkBytes past)]
    · rw [List.length_append, List.length_append, hlen, length_crlf]
      rfl
  | @lastLine _ _ _ _ rel hle hrel hsize =>
    obtain ⟨past, after, hpast, hbytes, rfl, rfl⟩ := hs
    obtain ⟨line, after', rfl, hfree, hlen, hline⟩ := line_read hle hbytes hrel
    rw [hline] at hsize
    have hpos :
        (chunkBytes past ++ (line ++ crlf)).length = (chunkBytes past).length + rel + 2 := by
      rw [List.length_append, List.length_append, hlen, length_crlf]
      rfl
    refine ⟨past, line, [], after', hpast, hfree, hsize, by simp, ?_, rfl, hpos.symm, ?_⟩
    · rw [hbytes, trailerBytes, List.flatMap_nil, List.append_nil,
        List.append_assoc (chunkBytes past)]
    · rw [trailerBytes, List.flatMap_nil, List.append_nil, hpos]
  | data hle hcrlf =>
    obtain ⟨past, line, after, hpast, hfree, hsize, hne, hbytes, rfl, rfl⟩ := hs
    obtain ⟨after', rfl, hlen⟩ := data_read hle hbytes hcrlf
    generalize hpiece : (List.drop _ _).take _ = piece at hbytes hlen ⊢
    refine ⟨past ++ [⟨line, piece⟩], after', ?_, ?_, ?_, ?_⟩
    · refine List.forall_mem_append.mpr ⟨hpast, List.forall_mem_singleton.mpr
        ⟨hfree, by rw [hsize, hlen], ?_⟩⟩
      rintro rfl
      exact hne hlen.symm
    · rw [hbytes]
      simp [chunkBytes, Chunk.bytes]
    · simp
    · rw [chunkBytes_append, ← hlen]
      simp [chunkBytes, Chunk.bytes, length_crlf]
      omega
  | trailer hle hrel hne =>
    obtain ⟨past, last, trailers, after, hpast, hfree, hsize, htrailers, hbytes, rfl, rfl, rfl⟩ :=
      hs
    obtain ⟨line, after', rfl, hline, hlen, _⟩ := line_read hle hbytes hrel
    refine ⟨past, last, trailers ++ [line], after', hpast, hfree, hsize, ?_, ?_, rfl, rfl, ?_⟩
    · have hline_ne : line ≠ [] := fun hnil => hne (by rw [← hlen, hnil]; rfl)
      exact List.forall_mem_append.mpr ⟨htrailers, List.forall_mem_singleton.mpr
        ⟨hline_ne, hline⟩⟩
    · rw [hbytes]
      simp [trailerBytes]
    · rw [trailerBytes_append]
      simp [trailerBytes, length_crlf, hlen]
      omega

/-! ## Beyond the cursor -/

/-- How far the buffer can reach beyond what was waited for at a loop head. What was there before
the first read is within `MAX_HEADER_BYTES`. -/
def BodyHead.Ahead (body : Bytes) : BodyHead → Prop
  | sizeLine _ pos => ∀ rel, crlfPosition (body.drop pos) = some rel →
      body.length < pos + rel + 2 + readBytes ∨ body.length ≤ maxHeaderBytes
  | data _ pos size => body.length < pos + size + 2 + readBytes ∨ body.length ≤ maxHeaderBytes
  | trailer _ trailerStart _ => body.length < trailerStart + maxHeaderBytes + readBytes
  | contentLength _ => True
  | untilEof => True

/-- **A read reaches less than its length beyond what was waited for.** -/
theorem BodyStep.ahead {s s' : BodyState} (h : BodyStep w s s') (hs : s.head.Ahead s.body) :
    s'.head.Ahead s'.body := by
  have hread : 0 < readBytes := by decide
  cases h with
  | @read r r' body chunk head hwaits hgives _ =>
    have hchunk := Nat.le_trans hgives.length_le (head.ask_le body)
    have hlen : (body ++ chunk).length = body.length + chunk.length := List.length_append
    cases head with
    | contentLength len => trivial
    | untilEof => trivial
    | data decoded pos size =>
      have hshort : body.length < pos + size + 2 := hwaits
      exact .inl (by dsimp only; omega)
    | trailer decoded trailerStart pos =>
      have hunder : body.length - trailerStart < maxHeaderBytes := hwaits.2.2
      exact (by omega : (body ++ chunk).length < trailerStart + maxHeaderBytes + readBytes)
    | sizeLine decoded pos =>
      obtain ⟨hpos, hnone⟩ := hwaits
      intro rel hrel
      left
      -- the line end was not in the buffer before
      have hbefore : body.length < pos + rel + 2 := by
        by_contra hlong
        rw [List.drop_append_of_le_length hpos] at hrel
        have hle : rel + crlf.length ≤ (body.drop pos).length := by
          rw [length_crlf, List.length_drop]
          omega
        have hhere : crlfPosition (body.drop pos) = some rel := Text.position_of_append hrel hle
        rw [hnone] at hhere
        cases hhere
      dsimp only
      omega
  | line _ hrel _ _ _ => exact (hs _ hrel).imp (fun hlt => Nat.lt_of_lt_of_le hlt (by omega)) id
  | @lastLine _ body _ pos rel _ hrel _ =>
    have hover : body.length < pos + rel + 2 + maxHeaderBytes + readBytes := by
      rcases hs _ hrel with hlt | hle
      · exact Nat.lt_of_lt_of_le hlt (by omega)
      · exact Nat.lt_of_le_of_lt hle (by omega)
    exact hover
  | data _ _ => exact fun rel _ => hs.imp (fun hlt => Nat.lt_of_lt_of_le hlt (by omega)) id
  | trailer _ _ _ => exact hs

/-! ## Accepted bodies -/

/-- **A body that is returned is that of a message** that the bytes begin with. The message is
within `MAX_BODY_BYTES`, and its trailer section exceeds `MAX_HEADER_BYTES` by less than a read. -/
theorem message_of_readChunkedBody {reader : Reader} {init b : Bytes}
    (hinit : init.length ≤ maxHeaderBytes) (h : readChunkedBody w reader init = .ok b) :
    ∃ (m : ChunkedMessage w) (rest : Bytes), init ++ reader.stream = m.encode ++ rest ∧
      b = m.body ∧ m.encode.length ≤ maxBodyBytes ∧
      m.trailerSection.length < maxHeaderBytes + readBytes := by
  have hbounds : BodyBounds ⟨reader, init, .sizeLine [] 0⟩ :=
    ⟨Nat.le_trans hinit (by decide), Nat.zero_le _, Nat.zero_le _⟩
  have hrun := Loop.run_rule (l := bodyLoop w)
    (fun s => BodyBounds s ∧ s.head.Ahead s.body ∧
      s.head.Parsed w (s.body ++ s.reader.stream) ∧
      s.body ++ s.reader.stream = init ++ reader.stream)
    (fun res => ∀ b, res = .ok b → ∃ (m : ChunkedMessage w) (rest : Bytes),
      init ++ reader.stream = m.encode ++ rest ∧ b = m.body ∧ m.encode.length ≤ maxBodyBytes ∧
      m.trailerSection.length < maxHeaderBytes + readBytes)
    ?_ ?_ ?_ (⟨hbounds, fun _ _ => .inr hinit, ⟨[], _, by simp, rfl, rfl, rfl⟩, rfl⟩ :
      _ ∧ BodyHead.Ahead init (.sizeLine [] 0) ∧
        BodyHead.Parsed w (init ++ reader.stream) (.sizeLine [] 0) ∧ _)
  · exact hrun b h
  · rintro s s' ⟨hb, ha, hp, hbytes⟩ hturn
    have hstep := bodyTurn_again hturn
    exact ⟨hstep.bounds hb, hstep.ahead ha, hstep.parsed hp, hstep.bytes_eq.trans hbytes⟩
  · rintro s b' ⟨hb, ha, hp, hbytes⟩ hturn b'' hb''
    cases hb''
    cases bodyTurn_done hturn with
    | contentLength _ => exact hp.elim
    | eof _ _ _ => exact hp.elim
    | @blankLine r body _ _ _ hpos hrel =>
      obtain ⟨past, last, trailers, after, hpast, hfree, hsize, htrailers, hall, rfl, rfl, rfl⟩ :=
        hp
      obtain ⟨line, after', rfl, _, hlen, _⟩ := line_read hpos hall hrel
      obtain rfl := List.eq_nil_of_length_eq_zero hlen
      have hblank := lineEnd_le hpos hrel
      have hmax : body.length ≤ maxBodyBytes := hb.body_le
      have hahead : body.length < _ + maxHeaderBytes + readBytes := ha
      let m : ChunkedMessage w := ⟨past, last, trailers, hpast, hfree, hsize, htrailers⟩
      have hstart : m.start = chunkBytes past ++ (last ++ crlf) := rfl
      have hsection : m.trailerSection = trailerBytes trailers ++ crlf := rfl
      have htotal := m.length_encode
      rw [← hstart] at hblank hahead hall
      rw [hsection, List.length_append, length_crlf] at htotal
      rw [List.length_append] at hblank
      refine ⟨m, after', ?_, rfl, by omega, ?_⟩
      · rw [← hbytes, hall, ChunkedMessage.encode, hsection]
        simp only [List.append_assoc, List.nil_append]
      · rw [hsection, List.length_append, length_crlf]
        omega
  · intro s e _ _ b' hb'
    cases hb'

end TgWsProxy
